import Mathlib.Tactic.Lemma

/-! Results that may be errors. What goes through in the end went through at each step. -/
namespace RecordLog

variable {ε δ α β : Type} {x : Except ε α} {b : β}

lemma bind_eq_ok {f : α → Except ε β} :
    x.bind f = .ok b ↔ ∃ a, x = .ok a ∧ f a = .ok b := by
  cases x <;> simp [Except.bind]

lemma map_eq_ok {f : α → β} : x.map f = .ok b ↔ ∃ a, x = .ok a ∧ f a = b := by
  cases x <;> simp [Except.map]

@[simp] lemma mapError_ok (wrap : ε → δ) (a : α) :
    (Except.ok a : Except ε α).mapError wrap = .ok a := rfl

@[simp] lemma mapError_error (wrap : ε → δ) (e : ε) :
    (Except.error e : Except ε α).mapError wrap = .error (wrap e) := rfl

lemma mapError_eq_ok {wrap : ε → δ} {a : α} : x.mapError wrap = .ok a ↔ x = .ok a := by
  cases x <;> simp

lemma toOption_eq_some {a : α} : x.toOption = some a ↔ x = .ok a := by
  cases x <;> simp [Except.toOption]

end RecordLog
