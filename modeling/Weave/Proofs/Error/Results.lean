/-!
# Results that may be errors

When a chain of steps gives a value or an error, and when a result does whose errors are put in other
words. A step hands on the first error that it meets.
-/

namespace Weave.Except

variable {ε ε' α β : Type} {result : Except ε α}

theorem bind_eq_ok_iff {next : α → Except ε β} {value : β} :
    result >>= next = .ok value ↔ ∃ first, result = .ok first ∧ next first = .ok value := by
  cases result with
  | error e => simp [bind, Except.bind]
  | ok first => simp [bind, Except.bind]

theorem bind_eq_error_iff {next : α → Except ε β} {e : ε} :
    result >>= next = .error e ↔
      result = .error e ∨ ∃ first, result = .ok first ∧ next first = .error e := by
  cases result with
  | error e' => simp [bind, Except.bind]
  | ok first => simp [bind, Except.bind]

theorem mapError_ok (f : ε → ε') (value : α) :
    (Except.ok value : Except ε α).mapError f = .ok value := rfl

theorem mapError_eq_ok_iff {f : ε → ε'} {value : α} :
    result.mapError f = .ok value ↔ result = .ok value := by
  cases result with
  | error e =>
    show Except.error (f e) = Except.ok value ↔ _
    simp
  | ok first =>
    show Except.ok first = Except.ok value ↔ _
    simp

theorem mapError_eq_error_iff {f : ε → ε'} {e' : ε'} :
    result.mapError f = .error e' ↔ ∃ e, result = .error e ∧ e' = f e := by
  cases result with
  | error e =>
    show Except.error (f e) = Except.error e' ↔ _
    simp [eq_comm]
  | ok first =>
    show Except.ok first = Except.error e' ↔ _
    simp

theorem map_eq_ok_iff {f : α → β} {value : β} :
    result.map f = .ok value ↔ ∃ first, result = .ok first ∧ f first = value := by
  cases result with
  | error e => simp [Except.map]
  | ok first => simp [Except.map]

theorem map_eq_error_iff {f : α → β} {e : ε} : result.map f = .error e ↔ result = .error e := by
  cases result with
  | error e' => simp [Except.map]
  | ok first => simp [Except.map]

theorem forM_eq_ok_iff {check : α → Except ε Unit} {values : List α} :
    values.forM check = .ok () ↔ ∀ value ∈ values, check value = .ok () := by
  induction values with
  | nil =>
    show Except.ok () = Except.ok () ↔ _
    simp
  | cons value values ih =>
    show (check value >>= fun _ => values.forM check) = .ok () ↔ _
    rw [bind_eq_ok_iff, List.forall_mem_cons, ← ih]
    constructor
    · rintro ⟨⟨⟩, hvalue, hvalues⟩
      exact ⟨hvalue, hvalues⟩
    · rintro ⟨hvalue, hvalues⟩
      exact ⟨(), hvalue, hvalues⟩

end Weave.Except
