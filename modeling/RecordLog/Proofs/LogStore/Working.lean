import Mathlib.Tactic.Lemma
import RecordLog.LogStore.Calls

/-! A call under the lock. As long as no file call fails, the file holds the log from before the
call and as much of the record as is written, and every file call brings the end nearer. -/
namespace RecordLog.LogStore

namespace Call

/-- The record a call adds. -/
def record? : Call → Option Bytes
  | append record => some record
  | _ => none

/-- The file call under way succeeds, a write taking some octets; or reading or removing misses a
file that is not there. -/
def Permits (c : Call) (stage : Stage) (file : Option Bytes) (r : Reaction) : Prop :=
  match stage, r with
  | .waiting, _ | .leaving _, _ => True
  | .writing _, .ok n => n ≠ 0
  | .locked, .ok _ | .reading, .ok _ => True
  | .locked, .error e => c.record? = none ∧ file = none ∧ e.kind = .notFound
  | .writing _, .error _ | .reading, .error _ => False

instance (c : Call) (stage : Stage) (file : Option Bytes) (r : Reaction) :
    Decidable (c.Permits stage file r) :=
  match stage, r with
  | .waiting, _ | .leaving _, _ => .isTrue trivial
  | .writing _, .ok n => inferInstanceAs (Decidable (n ≠ 0))
  | .locked, .ok _ | .reading, .ok _ => .isTrue trivial
  | .locked, .error e =>
    inferInstanceAs (Decidable (c.record? = none ∧ file = none ∧ e.kind = .notFound))
  | .writing _, .error _ | .reading, .error _ => .isFalse id

lemma permits_ok (c : Call) (stage : Stage) (file : Option Bytes) :
    c.Permits stage file (.ok 1) := by
  cases stage with
  | writing left => exact Nat.one_ne_zero
  | _ => trivial

/-- A call that has the lock over a log that was `log` when it took it. -/
def Working (log : Bytes) : Call → Stage → Option Bytes → Prop
  | _, .locked, file => file.getD [] = log
  | append record, .writing left, file =>
    ∃ written, record = written ++ left ∧ file.getD [] = log ++ written ∧ left ≠ []
  | readAll, .reading, file => file.getD [] = log
  | c, .leaving answer, file => answer = (c.alone log).1 ∧ file.getD [] = (c.alone log).2
  | _, _, _ => False

/-- Steps that a call can still take. -/
def effort : Call → Stage → Nat
  | append record, .waiting => record.length + 3
  | append record, .locked => record.length + 2
  | readAll, .waiting => 4
  | readAll, .locked => 3
  | remove, .waiting => 3
  | remove, .locked => 2
  | _, .writing left => left.length + 1
  | _, .reading => 2
  | _, .leaving _ => 1

/-- Steps that a thread can still take over its calls, the first of them at this stage. -/
def efforts : List Call → Stage → Nat
  | [], _ => 0
  | c :: calls, stage => c.effort stage + efforts calls .waiting

lemma writeRest_working {log record written left : Bytes} {file : Option Bytes}
    (whole : record = written ++ left) (hfile : file.getD [] = log ++ written) :
    (append record).Working log (writeRest left) file := by
  cases left with
  | nil => exact ⟨rfl, by simpa [alone, whole] using hfile⟩
  | cons b bs => exact ⟨written, whole, hfile, by simp⟩

lemma writeRest_effort (c : Call) (left : Bytes) : c.effort (writeRest left) ≤ left.length + 1 := by
  cases left with
  | nil => cases c <;> exact Nat.le_refl _
  | cons b bs => cases c <;> exact Nat.le_refl _

/-- A file call keeps the log between its two ends and brings the call nearer to its own. -/
theorem work_working {c : Call} {stage : Stage} {file : Option Bytes} {r : Reaction} {log : Bytes}
    (h : c.Working log stage file) (hr : c.Permits stage file r)
    (busy : ∀ answer, stage ≠ .leaving answer) :
    c.Working log (c.work stage file r).1 (c.work stage file r).2 ∧
      c.effort (c.work stage file r).1 < c.effort stage := by
  cases stage with
  | waiting => cases c <;> exact h.elim
  | leaving answer => exact (busy answer rfl).elim
  | locked =>
    cases c with
    | append record =>
      cases r with
      | error e => exact absurd hr.1 (by simp [record?])
      | ok n =>
        have whole : record = [] ++ record := rfl
        have hfile : file.getD [] = log := h
        have opened : (some (file.getD [])).getD [] = log ++ [] := by
          simpa using hfile
        refine ⟨writeRest_working whole opened, ?_⟩
        exact Nat.lt_of_le_of_lt (writeRest_effort _ record) (Nat.lt_succ_self _)
    | readAll =>
      cases file with
      | some bytes =>
        cases r with
        | error e => exact absurd hr.2.1 (by simp)
        | ok n => exact ⟨h, by simp [work, effort]⟩
      | none =>
        have hempty : log = [] := h.symm
        cases r with
        | ok n => simp [work, effort, Working, alone, hempty]
        | error e =>
          have hkind : e.kind = .notFound := hr.2.2
          simp [work, effort, Working, alone, hempty, hkind]
    | remove =>
      cases r with
      | ok n => simp [work, effort, Working, alone]
      | error e =>
        obtain ⟨-, rfl, hkind⟩ := hr
        simp [work, effort, Working, alone, hkind]
  | writing left =>
    cases c with
    | readAll => exact h.elim
    | remove => exact h.elim
    | append record =>
      cases r with
      | error e => exact hr.elim
      | ok n =>
        obtain ⟨written, hwhole, hfile, hleft⟩ := h
        cases n with
        | zero => exact (hr rfl).elim
        | succ n =>
          have whole : record = (written ++ left.take (n + 1)) ++ left.drop (n + 1) := by
            rw [List.append_assoc, List.take_append_drop, hwhole]
          have grown : (some (file.getD [] ++ left.take (n + 1))).getD []
              = log ++ (written ++ left.take (n + 1)) := by
            simp [hfile]
          refine ⟨writeRest_working whole grown, ?_⟩
          have hpos := List.length_pos_iff.mpr hleft
          have hshort : (left.drop (n + 1)).length < left.length := by
            rw [List.length_drop]
            omega
          exact Nat.lt_of_le_of_lt (writeRest_effort _ _) (Nat.succ_lt_succ hshort)
  | reading =>
    cases c with
    | append record => exact h.elim
    | remove => exact h.elim
    | readAll =>
      cases r with
      | error e => exact hr.elim
      | ok n =>
        have hfile : file.getD [] = log := h
        simp [work, effort, Working, alone, hfile]

end Call

end RecordLog.LogStore
