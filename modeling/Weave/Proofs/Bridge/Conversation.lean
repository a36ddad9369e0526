import Mathlib.Data.List.Basic
import Weave.Bridge.Basic
import Weave.Proofs.Text.Bytes
import Weave.Proofs.Text.Stops
import Weave.Proofs.Text.Trimming
import Weave.Workplace

/-!
# Conversations with a bridge

A bridge may write anything. What counts of it are the answers that its first two lines spell
(`said?`): they decide which requests it is sent and what comes of the conversation (`Conducted`,
`executor_conducted`). A line that is no text, that spells no answer or that never comes says
nothing, and then there is a complaint.
-/

namespace Weave

open Text

/-- Blanks at the end of a text do not count, so that a newline does not. -/
theorem Text.trim_append_newline (s : String) : trim (s ++ "\n") = trim s := by
  have hnewline : "\n".toList = ['\n'] := rfl
  rw [trim, trim, String.toList_append, hnewline, trimBoth_concat_of_pos (by decide)]

namespace Bridge

variable {bridge : Bridge} {reason? : String → Option String} {sources : List String}
  {stream line rest : List UInt8} {pipe : Pipe} {reply : Reply} {fault : Fault}

/-! ## What lines say -/

/-- What a line of bytes says, if it is text and spells an answer. -/
def sayOf? (line : List UInt8) : Option Reply :=
  (String.fromUTF8? line.toByteArray).bind fun text => Reply.read? (trim text)

/-- What line `i` of a stream says, counted from zero. Lines end at newlines, and at the end of the
stream. -/
def said? (stream : List UInt8) (i : ℕ) : Option Reply :=
  (stream.splitOn 10)[i]?.bind sayOf?

/-- A line says the same with the newline that ends it as without. -/
theorem sayOf?_concat (line : List UInt8) : sayOf? (line ++ [10]) = sayOf? line := by
  rw [sayOf?, sayOf?, fromUTF8?_concat]
  cases String.fromUTF8? line.toByteArray with
  | none => rfl
  | some text => rw [Option.map_some, Option.bind_some, Option.bind_some, trim_append_newline]

/-- The empty text spells no answer. -/
theorem read?_trim_empty : Reply.read? (trim "") = none := by
  decide

/-- Where a line is missing nothing is said. -/
theorem sayOf?_nil : sayOf? [] = none := by
  have htext : String.fromUTF8? ([] : List UInt8).toByteArray = some "" := by
    rw [List.toByteArray_nil, String.fromUTF8?, dif_pos ByteArray.isValidUTF8_empty]
    rfl
  rw [sayOf?, htext, Option.bind_some, read?_trim_empty]

/-- Without a newline all bytes are the first line. -/
theorem firstLine_of_not_mem (h : 10 ∉ line) : firstLine line = (line, []) := by
  rw [firstLine, dropWhile_of_not_mem h]

/-- The first line ends with the first newline, which belongs to it. -/
theorem firstLine_append (h : 10 ∉ line) (rest : List UInt8) :
    firstLine (line ++ 10 :: rest) = (line ++ [10], rest) := by
  rw [firstLine, dropWhile_append_cons h, takeWhile_append_cons h]

/-- The first line that is read is the first line of the stream. -/
theorem said?_zero (stream : List UInt8) : said? stream 0 = sayOf? (firstLine stream).1 := by
  by_cases h : 10 ∈ stream
  · obtain ⟨line, rest, rfl, hline⟩ := List.eq_append_cons_of_mem h
    rw [said?, List.splitOn_append_cons_self_of_not_mem hline, firstLine_append hline,
      sayOf?_concat]
    rfl
  · rw [said?, List.splitOn_eq_singleton h, firstLine_of_not_mem h]
    rfl

/-- What the next line says is what the first one says of the rest. -/
theorem said?_succ (stream : List UInt8) (i : ℕ) :
    said? stream (i + 1) = said? (firstLine stream).2 i := by
  by_cases h : 10 ∈ stream
  · obtain ⟨line, rest, rfl, hline⟩ := List.eq_append_cons_of_mem h
    rw [said?, List.splitOn_append_cons_self_of_not_mem hline, firstLine_append hline, said?,
      List.getElem?_cons_succ]
  · rw [said?, List.splitOn_eq_singleton h, firstLine_of_not_mem h, said?]
    cases i with
    | zero => exact sayOf?_nil.symm
    | succ i => rfl

/-! ## What comes of it -/

/-- What is said of a bridge, in words that are not its own but those of whoever reads its lines. -/
inductive Complaint (reason? : String → Option String) : String → Prop
  /-- A line is no text. -/
  | noText : Complaint reason? ("bridge read error: " ++ FileError.notText.message)
  /-- There is no line. -/
  | closed : Complaint reason? "bridge closed stdout unexpectedly"
  /-- A line spells no answer. -/
  | invalid (line : String) : Complaint reason? (noMessage (reason? (trim line)) line)
  /-- The first answer is another one. -/
  | notReady (reply : Reply) : Complaint reason? ("expected ready message, got: " ++ reply.describe)
  /-- The second answer is the first one again. -/
  | readyAgain : Complaint reason? "unexpected ready message during execution"

/-- A line that says something is taken for it, and of any other there is a complaint. -/
theorem readLine_cases (reason? : String → Option String) (line : List UInt8) :
    (∃ reply, sayOf? line = some reply ∧ readLine reason? line = .ok reply) ∨
      sayOf? line = none ∧ ∃ text, Complaint reason? text ∧
        readLine reason? line = .error (.execution text) := by
  have hbytes : (⟨line.toArray⟩ : ByteArray) = line.toByteArray :=
    ByteArray.ext List.data_toByteArray.symm
  rw [sayOf?, readLine, hbytes]
  cases String.fromUTF8? line.toByteArray with
  | none => exact Or.inr ⟨rfl, _, .noText, rfl⟩
  | some text =>
    dsimp only
    rw [Option.bind_some]
    by_cases hempty : text.isEmpty
    · rw [if_pos hempty, String.isEmpty_iff.1 hempty]
      exact Or.inr ⟨read?_trim_empty, _, .closed, rfl⟩
    · rw [if_neg hempty]
      cases hreply : Reply.read? (trim text) with
      | none => exact Or.inr ⟨rfl, _, .invalid text, rfl⟩
      | some reply => exact Or.inl ⟨reply, rfl, rfl⟩

/-- What comes of the second line, once a bridge has been asked to execute. -/
def conclude : Except Fault Reply → Except Fault (List (List Json))
  | .ok (.result outputs) => .ok outputs
  | .ok (.error message) => .error (.execution message)
  | .ok .ready => .error (.execution "unexpected ready message during execution")
  | .error fault => .error fault

/-- Waiting for an answer takes the first line off what is still to come and sends nothing. -/
theorem run_receive (reason? : String → Option String) (pipe : Pipe) :
    (receive reason?).run pipe = (readLine reason? (firstLine pipe.incoming).1,
      { pipe with incoming := (firstLine pipe.incoming).2 }) := rfl

/-- Asking sends one request and makes of the next line what it says. -/
theorem run_request (reason? : String → Option String) (sources : List String) (pipe : Pipe) :
    (request reason? sources).run pipe
      = (conclude (readLine reason? (firstLine pipe.incoming).1),
        ⟨(firstLine pipe.incoming).2, pipe.sent ++ [.execute sources]⟩) := by
  have hsend : (send (.execute sources)).run pipe
      = ((), { pipe with sent := pipe.sent ++ [.execute sources] }) := rfl
  rw [request, StateT.run_bind, hsend]
  show StateT.run (receive reason? >>= _) _ = _
  rw [StateT.run_bind, run_receive]
  cases readLine reason? (firstLine pipe.incoming).1 with
  | error fault => rfl
  | ok reply => cases reply <;> rfl

/-- A bridge that is ready has been sent nothing yet. -/
theorem run_awaitReady_of_ready (h : readLine reason? (firstLine pipe.incoming).1 = .ok .ready) :
    (awaitReady reason?).run pipe = (.ok (), ⟨(firstLine pipe.incoming).2, pipe.sent⟩) := by
  rw [awaitReady, StateT.run_bind, run_receive, h]
  rfl

/-- A bridge that says something else is told to shut down, and the complaint shows what it said. -/
theorem run_awaitReady_of_not_ready (h : readLine reason? (firstLine pipe.incoming).1 = .ok reply)
    (hreply : reply ≠ .ready) :
    (awaitReady reason?).run pipe
      = (.error (.execution ("expected ready message, got: " ++ reply.describe)),
          ⟨(firstLine pipe.incoming).2, pipe.sent ++ [.shutdown]⟩) := by
  rw [awaitReady, StateT.run_bind, run_receive, h]
  cases reply with
  | ready => exact absurd rfl hreply
  | result outputs => rfl
  | error message => rfl

/-- A bridge that cannot be understood is told to shut down. -/
theorem run_awaitReady_of_error (h : readLine reason? (firstLine pipe.incoming).1 = .error fault) :
    (awaitReady reason?).run pipe
      = (.error fault, ⟨(firstLine pipe.incoming).2, pipe.sent ++ [.shutdown]⟩) := by
  rw [awaitReady, StateT.run_bind, run_receive, h]
  rfl

section Converse

variable (sources : List String)

/-- A bridge that is ready is asked to execute, and told to shut down whatever its second line is. -/
theorem run_converse_of_ready (h : readLine reason? (firstLine stream).1 = .ok .ready) :
    (converse sources reason?).run { incoming := stream }
      = (conclude (readLine reason? (firstLine (firstLine stream).2).1),
          ⟨(firstLine (firstLine stream).2).2, [.execute sources, .shutdown]⟩) := by
  rw [converse, StateT.run_bind, run_awaitReady_of_ready h]
  show StateT.run (request reason? sources >>= _) _ = _
  rw [StateT.run_bind, run_request]
  rfl

/-- A bridge that says something else than that it is ready is not asked. -/
theorem run_converse_of_not_ready (h : readLine reason? (firstLine stream).1 = .ok reply)
    (hreply : reply ≠ .ready) :
    (converse sources reason?).run { incoming := stream }
      = (.error (.execution ("expected ready message, got: " ++ reply.describe)),
          ⟨(firstLine stream).2, [.shutdown]⟩) := by
  rw [converse, StateT.run_bind, run_awaitReady_of_not_ready h hreply]
  rfl

/-- A bridge that cannot be understood is not asked. -/
theorem run_converse_of_error (h : readLine reason? (firstLine stream).1 = .error fault) :
    (converse sources reason?).run { incoming := stream }
      = (.error fault, ⟨(firstLine stream).2, [.shutdown]⟩) := by
  rw [converse, StateT.run_bind, run_awaitReady_of_error h]
  rfl

end Converse

/-! ## All conversations -/

/-- What a conversation has to be if its first two lines say `first?` and `second?`: the bridge is
told to shut down once and at last, and is asked to execute before only if it is ready; the outputs
are those of a bridge that was ready and gave them, an error is told in the words of a bridge that
was ready and told it, and otherwise there is a complaint. -/
structure Conducted (reason? : String → Option String) (sources : List String)
    (first? second? : Option Reply)
    (outcome : Except Error (List (List Json)) × List Request) : Prop where
  sent_of_ready : first? = some .ready → outcome.2 = [.execute sources, .shutdown]
  sent_of_not_ready : first? ≠ some .ready → outcome.2 = [.shutdown]
  ok_iff : ∀ outputs, outcome.1 = .ok outputs ↔
    first? = some .ready ∧ second? = some (.result outputs)
  told : ∀ text, first? = some .ready → second? = some (.error text) →
    outcome.1 = .error ⟨.execution text, none⟩
  told_iff : ∀ text, ¬ Complaint reason? text → (outcome.1 = .error ⟨.execution text, none⟩ ↔
    first? = some .ready ∧ second? = some (.error text))
  complaint : (∀ reply, first? = some .ready → second? = some reply → reply = .ready) →
    ∃ text, Complaint reason? text ∧ outcome.1 = .error ⟨.execution text, none⟩

section Conducted

variable {first? second? : Option Reply} {sent : List Request} {text : String}

/-- A complaint is right unless a bridge that was ready has given outputs or told an error. -/
theorem Conducted.of_complaint
    (hwant : ∀ reply, first? = some .ready → second? = some reply → reply = .ready)
    (hsent_ready : first? = some .ready → sent = [.execute sources, .shutdown])
    (hsent : first? ≠ some .ready → sent = [.shutdown]) (htext : Complaint reason? text) :
    Conducted reason? sources first? second? (.error ⟨.execution text, none⟩, sent) where
  sent_of_ready := hsent_ready
  sent_of_not_ready := hsent
  ok_iff outputs := by
    constructor
    · intro h
      cases h
    · intro ⟨hfirst, hsecond⟩
      cases hwant _ hfirst hsecond
  told text' hfirst hsecond := by cases hwant _ hfirst hsecond
  told_iff text' htext' := by
    constructor
    · intro h
      cases h
      exact absurd htext htext'
    · intro ⟨hfirst, hsecond⟩
      cases hwant _ hfirst hsecond
  complaint _ := ⟨text, htext, rfl⟩

/-- The outputs are right that a bridge has given which was ready. -/
theorem Conducted.of_result (outputs : List (List Json)) :
    Conducted reason? sources (some .ready) (some (.result outputs))
      (.ok outputs, [.execute sources, .shutdown]) where
  sent_of_ready _ := rfl
  sent_of_not_ready h := absurd rfl h
  ok_iff outputs' := by
    constructor
    · intro h
      cases h
      exact ⟨rfl, rfl⟩
    · intro ⟨_, h⟩
      cases h
      rfl
  told text _ h := by cases h
  told_iff text _ := by
    constructor
    · intro h
      cases h
    · intro ⟨_, h⟩
      cases h
  complaint h := by cases h _ rfl rfl

/-- The error is right that a bridge has told which was ready. -/
theorem Conducted.of_error (message : String) :
    Conducted reason? sources (some .ready) (some (.error message))
      (.error ⟨.execution message, none⟩, [.execute sources, .shutdown]) where
  sent_of_ready _ := rfl
  sent_of_not_ready h := absurd rfl h
  ok_iff outputs := by
    constructor
    · intro h
      cases h
    · intro ⟨_, h⟩
      cases h
  told text _ h := by
    cases h
    rfl
  told_iff text _ := by
    constructor
    · intro h
      cases h
      exact ⟨rfl, rfl⟩
    · intro ⟨_, h⟩
      cases h
      rfl
  complaint h := by cases h _ rfl rfl

end Conducted

/-- The outcome of a bridge that runs is that of its conversation. -/
theorem session_of_run (bridge : Bridge) {answer : Except Fault (List (List Json))} {pipe : Pipe}
    (h : (converse sources reason?).run { incoming := stream } = (answer, pipe)) :
    bridge.session reason? sources (.ok { incoming := stream })
      = (answer.mapError (⟨·, none⟩), pipe.sent) := by
  unfold session
  dsimp only
  rw [h]

/-- A bridge that runs is told to shut down and gives what its first two lines say, whatever it
writes. -/
theorem conducted_session (bridge : Bridge) (reason? : String → Option String)
    (sources : List String) (stream : List UInt8) :
    Conducted reason? sources (said? stream 0) (said? stream 1)
      (bridge.session reason? sources (.ok { incoming := stream })) := by
  have hfirst := readLine_cases reason? (firstLine stream).1
  have hsecond := readLine_cases reason? (firstLine (firstLine stream).2).1
  rw [← said?_zero] at hfirst
  rw [← said?_zero, ← said?_succ] at hsecond
  obtain ⟨first, hfirst, hread⟩ | ⟨hfirst, text, htext, hread⟩ := hfirst
  · by_cases hready : first = .ready
    · -- it is asked to execute, and its second line decides
      rw [hready] at hfirst hread
      rw [session_of_run bridge (run_converse_of_ready sources hread), hfirst]
      obtain ⟨second, hsecond, hread'⟩ | ⟨hsecond, text, htext, hread'⟩ := hsecond
      · rw [hsecond, hread']
        cases second with
        | result outputs => exact Conducted.of_result outputs
        | error message => exact Conducted.of_error message
        | ready =>
          exact Conducted.of_complaint (fun reply _ h => (Option.some.inj h).symm) (fun _ => rfl)
            (fun h => absurd rfl h) .readyAgain
      · rw [hsecond, hread']
        exact Conducted.of_complaint (fun reply _ h => by cases h) (fun _ => rfl)
          (fun h => absurd rfl h) htext
    · have hne : said? stream 0 ≠ some .ready := fun h =>
        hready (Option.some.inj (hfirst.symm.trans h))
      rw [session_of_run bridge (run_converse_of_not_ready sources hread hready)]
      exact Conducted.of_complaint (fun reply h => absurd h hne) (fun h => absurd h hne)
        (fun _ => rfl) (.notReady first)
  · have hne : said? stream 0 ≠ some .ready := fun h => by
      rw [hfirst] at h
      cases h
    rw [session_of_run bridge (run_converse_of_error sources hread)]
    exact Conducted.of_complaint (fun reply h => absurd h hne) (fun h => absurd h hne)
      (fun _ => rfl) htext

/-- An execution through a bridge gives what its session gives. If the bridge cannot be started,
this is an error and nothing has been sent; if it can, then whatever it writes, and in whatever words
a line is refused, the conversation is conducted by its first two lines. -/
theorem executor_conducted {m : Type → Type} [Monad m] [Bridges m] (bridge : Bridge)
    (sources : List String) :
    bridge.executor sources
        = (do
            let launched ← Bridges.launch (m := m) bridge
            return (bridge.session (Bridges.reason? m) sources launched).1) ∧
      ∀ reason?, (∀ cause, bridge.session reason? sources (.error cause)
          = (.error ⟨bridge.startFault cause, none⟩, [])) ∧
        ∀ stream : List UInt8, Conducted reason? sources (said? stream 0) (said? stream 1)
          (bridge.session reason? sources (.ok { incoming := stream })) :=
  ⟨rfl, fun reason? => ⟨fun _ => rfl, conducted_session bridge reason? sources⟩⟩

/-- Whether an answer says that the bridge is ready. -/
def isReady : Reply → Bool
  | .ready => true
  | _ => false

/-- The text of the one output of one cell. -/
def soleOutput? : Reply → Option String
  | .result [[.string output]] => some output
  | _ => none

/-- Only the result of one cell with one text has a sole output. -/
theorem eq_result_of_soleOutput? {reply : Reply} {output : String}
    (h : soleOutput? reply = some output) : reply = .result [[.string output]] := by
  unfold soleOutput? at h
  split at h
  · cases h
    rfl
  · cases h

/-- A bridge says that it is ready and gives one output for one cell. -/
theorem executor_conducted_result :
    let bridge : Bridge := { command := "julia", args := ["bridge.jl"] }
    let stream := "\x7b\"type\":\"ready\"\x7d\n\x7b\"type\":\"result\",\"outputs\":[[\"1\"]]\x7d\n".toUTF8.toList
    let place : Workplace := { programs := fun _ _ _ => some stream }
    said? stream 0 = some .ready ∧ said? stream 1 = some (.result [[.string "1"]]) ∧
      (StateT.run (m := Id) (bridge.executor ["x = 1"]) place).1 = .ok [[.string "1"]] ∧
      (bridge.session (fun _ => none) ["x = 1"] (.ok { incoming := stream })).2
        = [.execute ["x = 1"], .shutdown] := by
  intro bridge stream place
  have hready : said? stream 0 = some .ready := by
    have hshown : (said? stream 0).map isReady = some true := by decide +kernel
    obtain ⟨reply, hsaid, hready⟩ := Option.map_eq_some_iff.1 hshown
    cases reply with
    | ready => exact hsaid
    | result => cases hready
    | error => cases hready
  have hresult : said? stream 1 = some (.result [[.string "1"]]) := by
    have hsole : (said? stream 1).bind soleOutput? = some "1" := by decide +kernel
    obtain ⟨reply, hsaid, houtput⟩ := Option.bind_eq_some_iff.1 hsole
    rw [hsaid, eq_result_of_soleOutput? houtput]
  obtain ⟨hexecutor, hsession⟩ := executor_conducted (m := StateM Workplace) bridge ["x = 1"]
  have hconducted := (hsession fun _ => none).2 stream
  refine ⟨hready, hresult, ?_, hconducted.sent_of_ready hready⟩
  rw [hexecutor]
  exact (hconducted.ok_iff _).2 ⟨hready, hresult⟩

end Bridge

end Weave
