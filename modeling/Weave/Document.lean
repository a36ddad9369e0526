import Weave.Notebook.Basic
import Weave.Page

/-!
# Documents

From the text of an annotated script to the document for one target: line ends are unified, the
hook before sees the text, the lines are read and grouped into chunks, the chunks are rendered, and
the hook after sees the document. A run notes which hooks it calls, and with what; `Document.weave`
is what comes of it and `Document.calls` are the calls.
-/

namespace Weave

/-- What a run produces. -/
inductive Document where
  | text (content : String)
  | notebook (notebook : Notebook)

/-- What a user does to the text before it is read, and to the document after it is rendered. A hook
may refuse with a message; one that is not given leaves everything as it is. -/
structure Hooks where
  before : String → Except String String := .ok
  afterText : String → Except String String := .ok
  afterNotebook : Notebook → Except String Notebook := .ok

/-- A call of a hook, with what the hook is given. -/
inductive HookCall where
  | before (text : String)
  | afterText (content : String)
  | afterNotebook (book : Notebook)

/-- A run that may fail, with the calls of hooks that it makes, oldest first. -/
abbrev HookRun := ExceptT Error (StateM (List HookCall))

namespace Document

/-- The document that chunks make for a target. -/
def render (target : Target) (options : Options) (chunks : List Chunk) : Document :=
  match target with
  | .markdown => .text (Page.render options chunks)
  | .notebook => .notebook (Notebook.render options chunks)
  | .script => .text (Script.render chunks)

/-- The error of a hook that refuses. -/
def hookError (moment : HookMoment) (message : String) : Error :=
  { fault := .hook moment message
    step? := some (match moment with
      | .before => .preprocess
      | .after => .postprocess) }

/-- Calls a hook, and notes the call. -/
def call {α β : Type} (moment : HookMoment) (event : α → HookCall) (hook : α → Except String β)
    (input : α) : HookRun β := do
  modify (· ++ [event input])
  ((hook input).mapError (hookError moment) : Except Error β)

/-- Calls the hook for this kind of document. -/
def callAfter (hooks : Hooks) : Document → HookRun Document
  | .text content => .text <$> call .after .afterText hooks.afterText content
  | .notebook book => .notebook <$> call .after .afterNotebook hooks.afterNotebook book

/-- A whole run, from the source to the document for a target. -/
def run (source : String) (target : Target) (options : Options) (hooks : Hooks) :
    HookRun Document := do
  let text ← call .before .before hooks.before (Text.unifyNewlines source)
  let chunks ← ((Chunk.parse text target).mapError (⟨·, some .filter⟩) : Except Error (List Chunk))
  callAfter hooks (render target options chunks)

/-- The document that a source makes for a target. -/
def weave (source : String) (target : Target) (options : Options) (hooks : Hooks) :
    Except Error Document :=
  (StateT.run (m := Id) (run source target options hooks).run []).1

/-- The calls of hooks on the way from a source to its document. -/
def calls (source : String) (target : Target) (options : Options) (hooks : Hooks) : List HookCall :=
  (StateT.run (m := Id) (run source target options hooks).run []).2

/-! ## Outcomes without the calls -/

/-- What the hook for this kind of document makes of it. -/
def finish (hooks : Hooks) : Document → Except Error Document
  | .text content => ((hooks.afterText content).map .text).mapError (hookError .after)
  | .notebook book =>
    ((hooks.afterNotebook book).map .notebook).mapError (hookError .after)

/-- The call of the hook for this kind of document. -/
def callOf : Document → HookCall
  | .text content => .afterText content
  | .notebook book => .afterNotebook book

/-- A run goes on where a step has succeeded, and ends where it has failed. -/
theorem run_bind {α β : Type} (action : HookRun α) (next : α → HookRun β) (calls : List HookCall) :
    StateT.run (m := Id) (action >>= next).run calls
      = match StateT.run (m := Id) action.run calls with
        | (.ok value, calls) => StateT.run (m := Id) (next value).run calls
        | (.error e, calls) => (.error e, calls) := by
  show StateT.run (m := Id) (action.run >>= ExceptT.bindCont next) calls = _
  rw [StateT.run_bind]
  rcases StateT.run (m := Id) action.run calls with ⟨result, calls⟩
  cases result <;> rfl

/-- The hook after sees the document, and nothing else is called. -/
theorem run_callAfter (hooks : Hooks) (document : Document) (calls : List HookCall) :
    StateT.run (m := Id) (callAfter hooks document).run calls
      = (finish hooks document, calls ++ [callOf document]) := by
  cases document with
  | text content =>
    cases h : hooks.afterText content <;> simp only [callAfter, call, finish, h] <;> rfl
  | notebook book =>
    cases h : hooks.afterNotebook book <;> simp only [callAfter, call, finish, h] <;> rfl

/-- A run calls the hook before, and the hook after if there is a document for it. -/
theorem run_run (source : String) (target : Target) (options : Options) (hooks : Hooks) :
    StateT.run (m := Id) (run source target options hooks).run []
      = match hooks.before (Text.unifyNewlines source) with
        | .error message =>
          (.error (hookError .before message), [.before (Text.unifyNewlines source)])
        | .ok changed =>
          match Chunk.parse changed target with
          | .error fault => (.error ⟨fault, some .filter⟩, [.before (Text.unifyNewlines source)])
          | .ok chunks =>
            (finish hooks (render target options chunks),
              [.before (Text.unifyNewlines source), callOf (render target options chunks)]) := by
  have hcall : StateT.run (m := Id)
      (call .before .before hooks.before (Text.unifyNewlines source)).run []
        = ((hooks.before (Text.unifyNewlines source)).mapError (hookError .before),
          [.before (Text.unifyNewlines source)]) := rfl
  rw [run, run_bind, hcall]
  cases hooks.before (Text.unifyNewlines source) with
  | error message => rfl
  | ok changed =>
    dsimp only
    show StateT.run (m := Id) (liftM ((Chunk.parse changed target).mapError _) >>= fun chunks =>
      callAfter hooks (render target options chunks)).run _ = _
    rw [run_bind]
    cases Chunk.parse changed target with
    | error fault => rfl
    | ok chunks => exact run_callAfter hooks (render target options chunks) _

/-- What comes of a run, without its calls. -/
theorem weave_eq (source : String) (target : Target) (options : Options) (hooks : Hooks) :
    weave source target options hooks = (do
      let text ← (hooks.before (Text.unifyNewlines source)).mapError (hookError .before)
      let chunks ← (Chunk.parse text target).mapError (⟨·, some .filter⟩)
      finish hooks (render target options chunks)) := by
  rw [weave, run_run]
  cases hooks.before (Text.unifyNewlines source) with
  | error message => rfl
  | ok changed =>
    dsimp only
    show _ = (Chunk.parse changed target).mapError _ >>= fun chunks =>
      finish hooks (render target options chunks)
    cases Chunk.parse changed target <;> rfl

theorem finish_of_no_hooks (document : Document) : finish {} document = .ok document := by
  cases document <;> rfl

/-- Without hooks a source makes the rendering of its chunks, or the error of reading them. -/
theorem weave_of_no_hooks (source : String) (target : Target) (options : Options) :
    weave source target options {}
      = ((Chunk.parse (Text.unifyNewlines source) target).mapError (⟨·, some .filter⟩)).map
          (render target options) := by
  have hbefore : (({} : Hooks).before (Text.unifyNewlines source)).mapError (hookError .before)
      = .ok (Text.unifyNewlines source) := rfl
  rw [weave_eq, hbefore]
  simp only [bind, Except.bind]
  cases Chunk.parse (Text.unifyNewlines source) target with
  | error fault => rfl
  | ok chunks => exact finish_of_no_hooks (render target options chunks)

end Document

end Weave
