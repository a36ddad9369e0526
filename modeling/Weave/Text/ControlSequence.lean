/-!
# Control sequences

A text for a terminal may hold more than what is shown: sequences that begin with the escape
character, and controls. `withoutControls` is the plain text that is left without them. It reads the
text once; `Mode` is what has been begun, and `Mode.next` says what a character does to it. Blanks
that end a line or move along it stay, even inside a sequence, which they break off, but not inside
a string.
-/

namespace Weave.Text

/-- What the next character of a text belongs to. -/
inductive Mode where
  /-- The text itself. -/
  | shown
  /-- A sequence of which only the escape character has come. -/
  | escape
  /-- A sequence of the escape character, signs and one last letter or digit. -/
  | signs
  /-- A sequence with parameters behind a bracket, up to a letter. -/
  | parameters
  /-- The head of a device string before any parameter. -/
  | deviceHead
  /-- The parameters of a device string. -/
  | deviceParameters
  /-- The signs behind the parameters of a device string. -/
  | deviceSigns
  /-- A string up to its end mark. -/
  | string
  /-- A command for the system that the terminal runs on, which the bell ends as well. -/
  | command
  deriving DecidableEq, Repr

/-- The escape character. -/
def escapeCharacter : Char := '\x1b'

/-- The controls that stay in a plain text: tab, newline, form feed and carriage return. -/
def isKeptControl (c : Char) : Bool :=
  c == '\t' || c == '\n' || c == '\x0c' || c == '\r'

/-- Whether a character is a control of ASCII. -/
def isAsciiControl (c : Char) : Bool :=
  c.toNat < 0x20 || c.toNat == 0x7f

/-- Whether the code of `c` lies between two codes. -/
def isWithin (first last : Nat) (c : Char) : Bool :=
  first ≤ c.toNat && c.toNat ≤ last

/-- Whether a character ends a string. The end mark is one byte, and it counts inside the encoding
of a character as well. -/
def isEndMark (c : Char) : Bool :=
  (String.utf8EncodeChar c).contains 0x9c

namespace Mode

/-- Whether the controls that stay in a plain text also stay here. -/
def keepsControls : Mode → Bool
  | shown | escape | signs | parameters => true
  | deviceHead | deviceParameters | deviceSigns | string | command => false

/-- Whether a character stays in the plain text. -/
def keeps (mode : Mode) (c : Char) : Bool :=
  if isAsciiControl c then mode.keepsControls && isKeptControl c else mode = shown

/-- What follows the escape character. -/
def afterEscape (c : Char) : Mode :=
  if c = '[' then parameters
  else if c = ']' then command
  else if c = 'P' then deviceHead
  else if c = 'X' ∨ c = '^' ∨ c = '_' then string
  else if isWithin 0x20 0x2f c then signs
  else if isWithin 0x30 0x7e c then shown
  else escape

/-- What follows a character that is no control. -/
def afterCharacter (c : Char) : Mode → Mode
  | shown => shown
  | escape => afterEscape c
  | signs => if isWithin 0x30 0x7e c then shown else signs
  | parameters => if isWithin 0x40 0x7e c then shown else parameters
  | deviceHead =>
    if isWithin 0x20 0x2f c then deviceSigns
    else if isWithin 0x30 0x3f c then deviceParameters
    else if isWithin 0x40 0x7e c then string
    else deviceHead
  | deviceParameters =>
    if isWithin 0x20 0x2f c then deviceSigns
    else if isWithin 0x3c 0x7e c then string
    else deviceParameters
  | deviceSigns => if isWithin 0x30 0x7e c then string else deviceSigns
  | string => if isEndMark c then shown else string
  | command => command

/-- What follows a character. The escape character begins a sequence anywhere, and the controls
cancel and substitute break off whatever has been begun. -/
def next (mode : Mode) (c : Char) : Mode :=
  if c = escapeCharacter then escape
  else if c = '\x18' ∨ c = '\x1a' then shown
  else if c = '\x07' ∧ mode = command then shown
  else if isAsciiControl c then if mode.keeps c then shown else mode
  else mode.afterCharacter c

end Mode

/-- The plain text of a text that begins in a mode. -/
def withoutControlsFrom (mode : Mode) : List Char → List Char
  | [] => []
  | c :: s =>
    if mode.keeps c then c :: withoutControlsFrom (mode.next c) s
    else withoutControlsFrom (mode.next c) s

/-- A text without its control sequences and controls. -/
def withoutControls (s : String) : String :=
  String.ofList (withoutControlsFrom .shown s.toList)

end Weave.Text
