/-! Termination signals. Both are blocked and wait until they are taken; a signal raised twice
waits once, and of two waiting signals the lower number is taken first. -/
namespace RecordLog

inductive Signal
  | interrupt | terminate
  deriving DecidableEq, Repr

def Signal.name : Signal → String
  | interrupt => "SIGINT"
  | terminate => "SIGTERM"

/-- Blocked signals that have been raised and not taken. -/
structure PendingSignals where
  interrupt : Bool := false
  terminate : Bool := false
  deriving DecidableEq, Repr

namespace PendingSignals

def raise (p : PendingSignals) : Signal → PendingSignals
  | .interrupt => { p with interrupt := true }
  | .terminate => { p with terminate := true }

def waits (p : PendingSignals) : Signal → Bool
  | .interrupt => p.interrupt
  | .terminate => p.terminate

/-- The next signal, or `none` while the caller has to wait. -/
def take? (p : PendingSignals) : Option (Signal × PendingSignals) :=
  if p.interrupt then some (.interrupt, { p with interrupt := false })
  else if p.terminate then some (.terminate, { p with terminate := false })
  else none

variable {p rest : PendingSignals} {s t : Signal}

@[simp] theorem waits_raise : (p.raise s).waits t ↔ t = s ∨ p.waits t := by
  cases s <;> cases t <;> simp [raise, waits]

/-- However often and in whatever order signals are raised, those that wait are the same. -/
theorem waits_foldl_raise {signals : List Signal} :
    (signals.foldl raise p).waits t ↔ t ∈ signals ∨ p.waits t := by
  induction signals generalizing p with
  | nil => simp
  | cons s signals ih =>
    rw [List.foldl_cons, ih, waits_raise, List.mem_cons, or_left_comm, or_assoc]

theorem take?_eq_none : p.take? = none ↔ ∀ t, ¬ p.waits t := by
  constructor
  · intro h t
    unfold take? at h
    split at h
    · cases h
    · split at h
      · cases h
      · cases t <;> assumption
  · intro h
    have hinterrupt : ¬ p.interrupt := h .interrupt
    have hterminate : ¬ p.terminate := h .terminate
    rw [take?, if_neg hinterrupt, if_neg hterminate]

/-- A signal that is taken has waited and waits no more, no lower one has waited, and the others go
on waiting. -/
theorem waits_of_take? (h : p.take? = some (s, rest)) :
    p.waits s ∧ (s = .terminate → ¬ p.waits .interrupt) ∧
      ∀ t, rest.waits t ↔ t ≠ s ∧ p.waits t := by
  unfold take? at h
  split at h
  · cases h
    refine ⟨by assumption, by simp, fun t => ?_⟩
    cases t <;> simp [waits]
  · split at h
    · cases h
      refine ⟨by assumption, fun _ => by assumption, fun t => ?_⟩
      cases t <;> simp [waits, *]
    · cases h

end PendingSignals

end RecordLog
