import Weave.Bridge.Message
import Weave.Error
import Weave.Notebook.Execution
import Weave.Text.Blank

/-!
# Bridges

A bridge executes cells in a process of its own. Once it runs, the conversation is fixed: the bridge
says that it is ready, is asked to execute, answers, and is told to shut down, whatever happened
before. `Bridge.converse` holds this conversation over a `Pipe`, which keeps what the process still
has to say and what it has been told. Sending is taken to succeed.

Whoever reads messages may say in words of its own what is wrong with a line that spells none. These
words are a parameter, `reason?`, and there may be none.
-/

namespace Weave

/-- A process that executes cells. -/
structure Bridge where
  command : String
  args : List String
  /-- The directory the process works in, if not the current one. -/
  workingDir? : Option Path := none
  deriving DecidableEq, Repr

/-- The two ends of a running bridge: what it will write, and what it has been sent so far. -/
structure Pipe where
  incoming : List UInt8
  sent : List Request := []

namespace Bridge

/-- The bridge that settings ask for. -/
def ofSettings? (settings : Settings) : Option Bridge :=
  settings.command?.map fun command => { command, args := settings.args }

/-- The fault of a bridge that could not be started. -/
def startFault (bridge : Bridge) (cause : FileError) : Fault :=
  .execution ("failed to spawn bridge: " ++ cause.message ++ ". Is `" ++ bridge.command ++
    "` installed?")

/-- The first line of what a bridge writes, with the newline that ends it, and the rest. -/
def firstLine (bytes : List UInt8) : List UInt8 × List UInt8 :=
  match bytes.dropWhile (· != 10) with
  | newline :: rest => (bytes.takeWhile (· != 10) ++ [newline], rest)
  | [] => (bytes, [])

/-- The beginning of a line that is no answer, as it is shown. -/
def preview (line : String) : String :=
  String.ofList ((Text.trimEnd line).toList.take 200)

/-- The complaint about a line that spells no message: what its reader says of it, and how it
begins. -/
def noMessage (reason? : Option String) (line : String) : String :=
  "invalid bridge message" ++ reason?.elim "" (": " ++ ·) ++ " (got: " ++ preview line ++ ")"

/-- What a line of bytes says. -/
def readLine (reason? : String → Option String) (bytes : List UInt8) : Except Fault Reply :=
  match String.fromUTF8? ⟨bytes.toArray⟩ with
  | none => .error (.execution ("bridge read error: " ++ FileError.notText.message))
  | some line =>
    if line.isEmpty then .error (.execution "bridge closed stdout unexpectedly")
    else match Reply.read? (Text.trim line) with
      | some reply => .ok reply
      | none => .error (.execution (noMessage (reason? (Text.trim line)) line))

/-- Sends a request. -/
def send (request : Request) : StateM Pipe Unit :=
  modify fun pipe => { pipe with sent := pipe.sent ++ [request] }

/-- Waits for the next answer. -/
def receive (reason? : String → Option String) : StateM Pipe (Except Fault Reply) := do
  let pipe ← get
  let (line, rest) := firstLine pipe.incoming
  set { pipe with incoming := rest }
  return readLine reason? line

/-- Waits until a bridge that has just been started is ready. One that is not, and one that cannot be
understood, is told to shut down at once. -/
def awaitReady (reason? : String → Option String) : StateM Pipe (Except Fault Unit) := do
  match ← receive reason? with
  | .ok .ready => return .ok ()
  | .ok reply =>
    send .shutdown
    return .error (.execution ("expected ready message, got: " ++ reply.describe))
  | .error fault =>
    send .shutdown
    return .error fault

/-- Asks a bridge that is ready to execute cells. -/
def request (reason? : String → Option String) (sources : List String) :
    StateM Pipe (Except Fault (List (List Json))) := do
  send (.execute sources)
  match ← receive reason? with
  | .ok (.result outputs) => return .ok outputs
  | .ok (.error message) => return .error (.execution message)
  | .ok .ready => return .error (.execution "unexpected ready message during execution")
  | .error fault => return .error fault

/-- The whole conversation with a bridge that has just been started. -/
def converse (sources : List String) (reason? : String → Option String := fun _ => none) :
    StateM Pipe (Except Fault (List (List Json))) := do
  match ← awaitReady reason? with
  | .error fault => return .error fault
  | .ok () =>
    let answer ← request reason? sources
    send .shutdown
    return answer

/-- From the start of a bridge to its end: what comes of it, and the requests that the bridge has
been sent. One that could not be started has been sent nothing. -/
def session (bridge : Bridge) (reason? : String → Option String) (sources : List String) :
    Except FileError Pipe → Except Error (List (List Json)) × List Request
  | .error cause => (.error ⟨bridge.startFault cause, none⟩, [])
  | .ok pipe =>
    let (answer, pipe) := (converse sources reason?).run pipe
    (answer.mapError (⟨·, none⟩), pipe.sent)

end Bridge

/-- Starting bridges, and reading what they say. -/
class Bridges (m : Type → Type) where
  /-- Starts a bridge: the pipe to it, or why it could not be started. -/
  launch : Bridge → m (Except FileError Pipe)
  /-- What the reader of messages says is wrong with a line that spells none. -/
  reason? : String → Option String := fun _ => none

/-- Executes cells through a bridge that is started for them. -/
def Bridge.executor {m : Type → Type} [Monad m] [Bridges m] (bridge : Bridge) : Executor m :=
  fun sources => do
    return (bridge.session (Bridges.reason? m) sources (← Bridges.launch bridge)).1

end Weave
