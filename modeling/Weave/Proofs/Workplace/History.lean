import Weave.Proofs.Workplace.Actions

/-!
# What has happened at a workplace

A history only grows. `Adds P` says that nothing but events of one sort has been added to it: phases
(`Event.IsPhase`), or changes of the files (`Event.IsChange`). A workplace has only been `Watched` if
all that has happened there is that phases were reported.
-/

namespace Weave

/-! ## Sorts of events -/

namespace Event

/-- A phase has been reported. -/
def IsPhase (event : Event) : Prop :=
  ∃ phase, event = .entered phase

/-- The files have changed. -/
def IsChange (event : Event) : Prop :=
  ∃ tree, event = .changed tree

/-- The sources that an executor was asked to run, if the event is that. -/
def asked? : Event → Option (List String)
  | .asked sources => some sources
  | _ => none

variable {event : Event} {events : List Event} {sources : List String}

theorem IsPhase.asked?_eq_none (h : event.IsPhase) : event.asked? = none := by
  obtain ⟨phase, rfl⟩ := h
  rfl

theorem IsChange.asked?_eq_none (h : event.IsChange) : event.asked? = none := by
  obtain ⟨tree, rfl⟩ := h
  rfl

theorem IsPhase.not_isChange (h : event.IsPhase) : ¬ event.IsChange := by
  obtain ⟨phase, rfl⟩ := h
  rintro ⟨tree, htree⟩
  cases htree

theorem asked_mem_iff : asked sources ∈ events ↔ sources ∈ events.filterMap asked? := by
  rw [List.mem_filterMap]
  constructor
  · intro h
    exact ⟨_, h, rfl⟩
  · rintro ⟨event, h, hasked⟩
    cases event with
    | entered phase => cases hasked
    | asked sources' =>
      cases hasked
      exact h
    | changed tree => cases hasked

/-- One question among other events is the only one. -/
theorem filterMap_asked?_of_asked {before behind : List Event}
    (hbefore : ∀ event ∈ before, event.asked? = none)
    (hbehind : ∀ event ∈ behind, event.asked? = none) (sources : List String) :
    (before ++ asked sources :: behind).filterMap asked? = [sources] := by
  have hasked : (asked sources).asked? = some sources := rfl
  rw [List.filterMap_append, List.filterMap_eq_nil_iff.2 hbefore, List.filterMap_cons_some hasked,
    List.filterMap_eq_nil_iff.2 hbehind]
  rfl

/-- There is one way to cut a history at the executor, if it was asked once. -/
theorem eq_of_append_asked {before behind before' behind' : List Event} {sources' : List String}
    (hbefore : ∀ event ∈ before, event.asked? = none)
    (hbehind : ∀ event ∈ behind, event.asked? = none)
    (h : before ++ asked sources :: behind = before' ++ asked sources' :: behind') :
    before = before' ∧ sources = sources' := by
  have hnot {events : List Event} (hevents : ∀ event ∈ events, event.asked? = none) :
      asked sources' ∉ events := by
    intro hmem
    cases hevents _ hmem
  obtain ⟨heq, hasked, -⟩ :=
    (List.append_cons_inj_of_notMem (hnot hbefore) (hnot hbehind)).1 h
  exact ⟨heq, asked.inj hasked⟩

end Event

namespace Workplace

variable {α β : Type} {P Q : Event → Prop} {before middle after : Workplace}

/-! ## Histories that grow -/

/-- All events that have been added to the history are of this sort. -/
def Adds (P : Event → Prop) (before after : Workplace) : Prop :=
  ∃ events, after.history = before.history ++ events ∧ ∀ event ∈ events, P event

instance : IsPreorder Workplace (Adds P) where
  refl place := ⟨[], by simp, by simp⟩
  trans _ _ _ := by
    rintro ⟨events, hevents, hP⟩ ⟨more, hmore, hP'⟩
    refine ⟨events ++ more, by rw [hmore, hevents, List.append_assoc], ?_⟩
    intro event hevent
    rcases List.mem_append.1 hevent with hevent | hevent
    · exact hP event hevent
    · exact hP' event hevent

/-- Events that satisfy more satisfy less. -/
theorem Adds.mono (h : Adds P before after) (hPQ : ∀ event, P event → Q event) :
    Adds Q before after := by
  obtain ⟨events, hevents, hP⟩ := h
  exact ⟨events, hevents, fun event hevent => hPQ event (hP event hevent)⟩

theorem adds_changed (place : Workplace) (tree : FileTree) :
    Adds Event.IsChange place (place.changed tree) :=
  ⟨[.changed tree], rfl, by simpa using ⟨tree, rfl⟩⟩

/-- The workplace after one more event that is not a change of the files. -/
def noted (place : Workplace) (event : Event) : Workplace :=
  { place with history := place.history ++ [event] }

/-- An executor by a script is asked, and answers. -/
theorem run_scripted (answer : List String → Except Error (List (List Json)))
    (sources : List String) (place : Workplace) :
    (scripted answer sources).run place = (answer sources, place.noted (.asked sources)) := rfl

/-! ## Reports -/

/-- Nothing has happened but that phases were reported. -/
structure Watched (before after : Workplace) : Prop where
  alike : Alike before after
  phases : Adds Event.IsPhase before after

instance : IsPreorder Workplace Watched where
  refl place := ⟨refl_of Alike place, refl_of _ place⟩
  trans _ _ _ h h' := ⟨trans_of Alike h.alike h'.alike, trans_of _ h.phases h'.phases⟩

theorem Watched.unasked (h : Watched before after) : Adds (·.asked? = none) before after :=
  h.phases.mono fun _ hphase => hphase.asked?_eq_none

theorem watched_note (phase : Phase) : Leads Watched (note (.entered phase)) := by
  intro place
  exact ⟨⟨rfl, rfl⟩, [.entered phase], rfl, by simpa using ⟨phase, rfl⟩⟩

end Workplace

end Weave
