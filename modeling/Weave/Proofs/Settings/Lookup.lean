import Weave.Proofs.Workplace.Actions
import Weave.Settings.Lookup

/-!
# The settings in effect

Which file settings are read from is decided before any file is opened (`Settings.chosen?`), and then no
other file matters: what the chosen one says is in effect (`Settings.inEffect`), and what is wrong with it
is an error. Loading settings comes to just that, and leaves the workplace as it is (`perform_load`).
-/

namespace Weave

open Workplace

/-- Whether something is there at a path. -/
def Workplace.holds (place : Workplace) (path : Path) : Bool :=
  (place.tree.find? place.current path).isSome

namespace Settings

variable {place : Workplace} {home path : Path} {explicit? : Option Path} {fault : Fault}
  {settings : Settings}

/-- The settings file that is used, if any: the one that is asked for, else the first of the one in the
current directory and the user's own that is there. -/
def chosen? (place : Workplace) (home : Path) (explicit? : Option Path) : Option Path :=
  explicit?.or ([localFile, userFile home].find? place.holds)

/-- What a settings file says. -/
def saidBy (place : Workplace) (path : Path) : Except Fault Settings :=
  match place.tree.readText place.current path with
  | .error cause => .error (.file path cause)
  | .ok text =>
    match read? text with
    | some settings => .ok settings
    | none => .error (.config ("failed to parse " ++ path.text))

/-- The settings in effect: what the file says that is used, and the defaults if none is. -/
def inEffect (place : Workplace) (home : Path) (explicit? : Option Path) : Except Fault Settings :=
  match chosen? place home explicit? with
  | some path => saidBy place path
  | none => .ok {}

/-- A file says something exactly if it can be read and its text holds settings. -/
theorem saidBy_eq_ok_iff :
    saidBy place path = .ok settings ↔
      ∃ text, place.tree.readText place.current path = .ok text ∧ read? text = some settings := by
  unfold saidBy
  cases place.tree.readText place.current path with
  | error cause => simp
  | ok text => cases hread : read? text <;> simp [hread]

/-- A settings file is in error if it cannot be read, or if its text is not that of settings. -/
theorem saidBy_eq_error_iff :
    saidBy place path = .error fault ↔
      (∃ cause, place.tree.readText place.current path = .error cause ∧ fault = .file path cause) ∨
      ∃ text, place.tree.readText place.current path = .ok text ∧ read? text = none ∧
        fault = .config ("failed to parse " ++ path.text) := by
  unfold saidBy
  cases place.tree.readText place.current path with
  | error cause => simp [eq_comm]
  | ok text => cases hread : read? text <;> simp [hread, eq_comm]

/-- Only the settings file that is used can be in error. -/
theorem inEffect_eq_error_iff :
    inEffect place home explicit? = .error fault ↔
      ∃ path, chosen? place home explicit? = some path ∧ saidBy place path = .error fault := by
  unfold inEffect
  cases chosen? place home explicit? with
  | none => simp
  | some path => simp

theorem perform_loadFrom (path : Path) (place : Workplace) :
    perform (loadFrom path) place = (saidBy place path, place) := by
  have hread : perform (Files.faultAt path (Files.readText (m := StateM Workplace) path)) place
      = ((place.tree.readText place.current path).mapError (.file path), place) :=
    perform_faultAt path _ place
  unfold loadFrom saidBy
  cases htext : place.tree.readText place.current path with
  | error cause =>
    rw [htext] at hread
    exact perform_bind_of_error hread
  | ok text =>
    rw [htext] at hread
    rw [perform_bind_of_ok hread]
    show perform (match read? text with | some settings => pure settings | none => _) place
      = (match read? text with | some settings => .ok settings | none => _, place)
    cases read? text <;> rfl

/-- Whether a file is there is found out without an error. -/
theorem perform_isPresent (path : Path) (place : Workplace) :
    perform (liftM (Files.isPresent (m := StateM Workplace) path)
        : ExceptT Fault (StateM Workplace) Bool) place
      = (.ok (place.holds path), place) :=
  perform_liftM _ place

/-- Settings are loaded from the file that is used, if any, and nothing happens to the workplace. -/
theorem perform_load (home : Path) (explicit? : Option Path) (place : Workplace) :
    perform (load home explicit?) place = (inEffect place home explicit?, place) := by
  cases explicit? with
  | some path => exact perform_loadFrom path place
  | none =>
    unfold load inEffect chosen?
    rw [perform_bind_of_ok (perform_isPresent localFile place)]
    by_cases hlocal : place.holds localFile = true
    · rw [if_pos hlocal, perform_loadFrom, Option.none_or, List.find?_cons_of_pos hlocal]
    rw [if_neg hlocal, perform_bind_of_ok (perform_isPresent (userFile home) place),
      Option.none_or, List.find?_cons_of_neg hlocal]
    by_cases huser : place.holds (userFile home) = true
    · rw [if_pos huser, perform_loadFrom, List.find?_cons_of_pos huser]
    · rw [if_neg huser, List.find?_cons_of_neg huser]
      rfl

end Settings

end Weave
