import RecordLog.Proofs.LogStore.Working

/-! A call under the lock whose file calls may fail. A failed call leaves the log as it was, but for
one case: a write that fails once others have gone through leaves what they have written. -/
namespace RecordLog.LogStore

/-- The call goes on after this: it makes its next file call, or the same one again. -/
def Reaction.GoesOn (r : Reaction) : Prop :=
  match r with
  | .ok n => n ≠ 0
  | .error e => e.isInterrupted

instance (r : Reaction) : Decidable r.GoesOn :=
  match r with
  | .ok n => inferInstanceAs (Decidable (n ≠ 0))
  | .error e => inferInstanceAs (Decidable (e.isInterrupted = true))

namespace Call

/-- The system calls a file missing only if it is. -/
def Honest (c : Call) (stage : Stage) (file : Option Bytes) (r : Reaction) : Prop :=
  match stage, r with
  | .locked, .error e => c.record? = none → e.kind = .notFound → file = none
  | _, _ => True

/-- A write goes on unless it is the first one for its record. -/
def Spares (c : Call) (stage : Stage) (r : Reaction) : Prop :=
  match stage with
  | .writing left => c = append left ∨ r.GoesOn
  | _ => True

/-- How the system may take a file call. `tears` says whether a write may fail halfway through a
record; everything else may fail at any time. -/
def Reacts (tears : Prop) (c : Call) (stage : Stage) (file : Option Bytes) (r : Reaction) : Prop :=
  c.Honest stage file r ∧ (tears ∨ c.Spares stage r)

instance (c : Call) (stage : Stage) (file : Option Bytes) (r : Reaction) :
    Decidable (c.Honest stage file r) :=
  match stage, r with
  | .locked, .error e =>
    inferInstanceAs (Decidable (c.record? = none → e.kind = .notFound → file = none))
  | .locked, .ok _ => .isTrue trivial
  | .waiting, _ | .writing _, _ | .reading, _ | .leaving _, _ => .isTrue trivial

instance (c : Call) (stage : Stage) (r : Reaction) : Decidable (c.Spares stage r) :=
  match stage with
  | .writing left => inferInstanceAs (Decidable (c = append left ∨ r.GoesOn))
  | .waiting | .locked | .reading | .leaving _ => .isTrue trivial

instance (tears : Prop) [Decidable tears] (c : Call) (stage : Stage) (file : Option Bytes)
    (r : Reaction) : Decidable (c.Reacts tears stage file r) :=
  inferInstanceAs (Decidable (c.Honest stage file r ∧ (tears ∨ c.Spares stage r)))

/-- What a call that found `log` answers, and the log it leaves. -/
inductive Leaves (tears : Prop) (log : Bytes) : Call → Answer → Bytes → Prop
  | answered (c : Call) : Leaves tears log c (c.alone log).1 (c.alone log).2
  | failed (c : Call) (e : IoError) : Leaves tears log c (.failed e) log
  | torn (may : tears) {taken left : Bytes} (some : taken ≠ []) (rest : left ≠ []) (e : IoError) :
    Leaves tears log (append (taken ++ left)) (.failed e) (log ++ taken)

/-- A call that took the lock over `log` and may have failed by now. -/
def Busy (tears : Prop) (log : Bytes) (c : Call) (stage : Stage) (file : Option Bytes) : Prop :=
  match stage with
  | .leaving answer => c.Leaves tears log answer (file.getD [])
  | _ => c.Working log stage file

variable {tears : Prop} {log : Bytes} {c : Call} {stage : Stage} {file : Option Bytes}
  {r : Reaction}

lemma Working.busy (h : c.Working log stage file) : c.Busy tears log stage file := by
  cases stage with
  | leaving answer =>
    obtain ⟨rfl, hfile⟩ : answer = (c.alone log).1 ∧ file.getD [] = (c.alone log).2 := by
      cases c <;> exact h
    change c.Leaves tears log _ (file.getD [])
    rw [hfile]
    exact .answered c
  | _ => exact h

lemma Busy.working (h : c.Busy tears log stage file) (busy : ∀ answer, stage ≠ .leaving answer) :
    c.Working log stage file := by
  cases stage with
  | leaving answer => exact (busy answer rfl).elim
  | _ => exact h

/-- What a call leaves that gives up at this stage. -/
lemma Working.refused (h : c.Working log stage file) (busy : ∀ answer, stage ≠ .leaving answer)
    (may : tears ∨ ∀ left, stage = .writing left → c = append left) (e : IoError) :
    c.Leaves tears log (.failed e) (file.getD []) := by
  cases stage with
  | waiting => cases c <;> exact h.elim
  | leaving answer => exact (busy answer rfl).elim
  | locked =>
    have hfile : file.getD [] = log := by cases c <;> exact h
    exact hfile ▸ .failed c e
  | reading =>
    have hfile : file.getD [] = log := by
      cases c with
      | readAll => exact h
      | _ => exact h.elim
    exact hfile ▸ .failed c e
  | writing left =>
    cases c with
    | readAll => exact h.elim
    | remove => exact h.elim
    | append record =>
      obtain ⟨written, rfl, hfile, hleft⟩ := h
      -- What earlier writes of this call have put there stays there.
      rw [hfile]
      by_cases hwritten : written = []
      · subst hwritten
        simpa using Leaves.failed (append left) e
      · refine .torn (may.resolve_right fun whole => ?_) hwritten hleft e
        have hsame := Call.append.inj (whole left rfl)
        exact hwritten (List.append_left_eq_self.mp hsame)

/-- A file call that is refused is made again or ends the call, and leaves the file as it is. -/
lemma work_refused (h : c.Working log stage file) (honest : c.Honest stage file r)
    (refused : ¬ c.Permits stage file r) : c.work stage file r = (stage, file) ∨
      (∃ e, c.work stage file r = (.leaving (.failed e), file)) ∧
        ∀ left, stage = .writing left → ¬ r.GoesOn := by
  cases r with
  | ok n =>
    cases stage with
    | writing left =>
      obtain rfl : n = 0 := Decidable.of_not_not refused
      exact .inr ⟨⟨.shortWrite, by cases c <;> rfl⟩, fun _ _ goesOn => goesOn rfl⟩
    | _ => exact (refused trivial).elim
  | error e =>
    have found : stage = .locked → c.record? = none → e.kind ≠ .notFound := by
      rintro rfl other missing
      exact refused ⟨other, honest other missing, missing⟩
    cases stage with
    | waiting => exact (refused trivial).elim
    | leaving answer => exact (refused trivial).elim
    | locked =>
      cases c with
      | append record => by_cases hi : e.isInterrupted <;> simp [Call.work, hi]
      | readAll =>
        have := found rfl rfl
        by_cases hi : e.isInterrupted <;> simp [Call.work, hi, this]
      | remove =>
        have := found rfl rfl
        simp [Call.work, this]
    | reading =>
      cases c with
      | readAll => by_cases hi : e.isInterrupted <;> simp [Call.work, hi]
      | _ => exact h.elim
    | writing left =>
      cases c with
      | append record =>
        by_cases hi : e.isInterrupted <;> simp [Call.work, hi, Reaction.GoesOn]
      | _ => exact h.elim

/-- Every file call, let through or refused, keeps what is known of a call under the lock. -/
theorem Busy.work (h : c.Busy tears log stage file) (hr : c.Reacts tears stage file r)
    (busy : ∀ answer, stage ≠ .leaving answer) :
    c.Busy tears log (c.work stage file r).1 (c.work stage file r).2 := by
  have working := h.working busy
  by_cases permits : c.Permits stage file r
  · exact (work_working working permits busy).1.busy
  · obtain ⟨honest, spares⟩ := hr
    obtain again | ⟨⟨e, ended⟩, stops⟩ := work_refused working honest permits
    · rwa [again]
    · rw [ended]
      refine working.refused busy (spares.imp_right fun spared left hleft => ?_) e
      subst hleft
      exact spared.resolve_right (stops left rfl)

end Call

end RecordLog.LogStore
