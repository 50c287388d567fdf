import Mathlib.Tactic.Lemma
import RecordLog.ShutdownFlag.Calls

/-! What a call does to the flags. A flag that is set stays set, and of any number of calls that
trigger it one wins at most. -/
namespace RecordLog.FlagTable

/-- Every handle has its cell. -/
def Closed (t : FlagTable) : Prop := ∀ cell ∈ t.handles, cell < t.cells.length

/-- The ways a call goes. -/
inductive Step (t : FlagTable) : Call → Answer → FlagTable → Prop
  | create : Step t .create (.made t.handles.length)
    ⟨t.cells ++ [⟨false⟩], t.handles ++ [t.cells.length]⟩
  | clone {i cell} (handle : t.handles[i]? = some cell) :
    Step t (.clone i) (.made t.handles.length) ⟨t.cells, t.handles ++ [cell]⟩
  | trigger {i cell flag} (handle : t.handles[i]? = some cell)
    (held : t.cells[cell]? = some flag) :
    Step t (.trigger i) (.won !flag.triggered) ⟨t.cells.set cell ⟨true⟩, t.handles⟩
  | read {i cell flag} (handle : t.handles[i]? = some cell)
    (held : t.cells[cell]? = some flag) : Step t (.read i) (.seen flag.triggered) t

variable {t t' : FlagTable} {c : Call} {answer : Answer} {i cell : Nat} {value : Bool}

lemma isTriggered?_eq_some : t.isTriggered? i = some value ↔
    ∃ cell flag, t.handles[i]? = some cell ∧ t.cells[cell]? = some flag ∧
      flag.triggered = value := by
  simp [isTriggered?, Option.bind_eq_some_iff]

theorem answer?_eq_some : t.answer? c = some (answer, t') ↔ Step t c answer t' := by
  constructor
  · intro h
    cases c with
    | create =>
      obtain ⟨rfl, rfl⟩ := by simpa [answer?, create] using h
      exact .create
    | clone i =>
      obtain ⟨cell, handle, rfl, rfl⟩ := by
        simpa [answer?, clone?, Option.map_eq_some_iff] using h
      exact .clone handle
    | trigger i =>
      obtain ⟨cell, handle, flag, held, rfl, rfl⟩ := by
        simpa [answer?, trigger?, ShutdownFlag.trigger, Option.bind_eq_some_iff] using h
      exact .trigger handle held
    | read i =>
      obtain ⟨value, hread, hanswer⟩ := Option.map_eq_some_iff.mp h
      obtain ⟨rfl, rfl⟩ := Prod.mk.inj hanswer
      obtain ⟨cell, flag, handle, held, rfl⟩ := isTriggered?_eq_some.mp hread
      exact .read handle held
  · intro h
    cases h with
    | create => rfl
    | clone handle => simp [answer?, clone?, handle]
    | trigger handle held => simp [answer?, trigger?, ShutdownFlag.trigger, handle, held]
    | read handle held => simp [answer?, isTriggered?, handle, held]

lemma Closed.unused (h : t.Closed) : t.handles[i]? ≠ some t.cells.length := by
  intro handle
  exact Nat.lt_irrefl _ (h _ (List.mem_of_getElem? handle))

lemma Closed.held (h : t.Closed) (handle : t.handles[i]? = some cell) :
    ∃ flag, t.cells[cell]? = some flag :=
  ⟨_, List.getElem?_eq_getElem (h cell (List.mem_of_getElem? handle))⟩

/-- What all handles see is what each of them sees. -/
theorem Closed.readings (h : t.Closed) (i : Nat) : t.readings[i]? = t.isTriggered? i := by
  rw [FlagTable.readings, List.getElem?_map, isTriggered?]
  cases handle : t.handles[i]? with
  | none => rfl
  | some cell =>
    obtain ⟨flag, held⟩ := h.held handle
    simp [held]

/-- A call on flags that were made is answered. -/
lemma Closed.answers (h : t.Closed) (made : ∀ j ∈ c.flag?, j < t.handles.length) :
    ∃ answer t', Step t c answer t' := by
  cases c with
  | create => exact ⟨_, _, .create⟩
  | clone j => exact ⟨_, _, .clone (List.getElem?_eq_getElem (made j rfl))⟩
  | trigger j =>
    have handle := List.getElem?_eq_getElem (made j rfl)
    obtain ⟨flag, held⟩ := h.held handle
    exact ⟨_, _, .trigger handle held⟩
  | read j =>
    have handle := List.getElem?_eq_getElem (made j rfl)
    obtain ⟨flag, held⟩ := h.held handle
    exact ⟨_, _, .read handle held⟩

section
variable {α : Type} {xs ys : List α} {x y : α}

lemma getElem?_longer (h : xs <+: ys) (hi : i < xs.length) : ys[i]? = xs[i]? := by
  rw [List.prefix_iff_getElem?.mp h i hi, List.getElem?_eq_getElem hi]

lemma getElem?_kept (h : xs <+: ys) (hx : xs[i]? = some x) : ys[i]? = some x :=
  (getElem?_longer h (List.getElem?_eq_some_iff.mp hx).1).trans hx

lemma getElem?_snoc_eq_some :
    (xs ++ [x])[i]? = some y ↔ xs[i]? = some y ∨ i = xs.length ∧ x = y := by
  obtain hi | rfl | hi := Nat.lt_trichotomy i xs.length
  · simp [List.getElem?_append_left hi, Nat.ne_of_lt hi]
  · simp
  · have hend : (xs ++ [x])[i]? = none := List.getElem?_eq_none (by simp; omega)
    simp [hend, Nat.le_of_lt hi, Nat.ne_of_gt hi]

end

lemma held_set {flag : ShutdownFlag} (held : t.cells[cell]? = some flag) (new : ShutdownFlag) :
    (t.cells.set cell new)[cell]? = some new :=
  List.getElem?_set_self (List.getElem?_eq_some_iff.mp held).1

namespace Step

lemma handles_kept (h : Step t c answer t') : t.handles <+: t'.handles := by
  cases h with
  | create | clone => exact List.prefix_append _ _
  | trigger | read => exact List.prefix_rfl

lemma closed (h : Step t c answer t') (closed : t.Closed) : t'.Closed := by
  intro cell hcell
  cases h with
  | create =>
    obtain hold | rfl := by simpa using hcell
    · simpa using Nat.lt_succ_of_lt (closed cell hold)
    · simp
  | clone handle =>
    obtain hold | rfl := by simpa using hcell
    · exact closed cell hold
    · exact closed _ (List.mem_of_getElem? handle)
  | trigger => simpa using closed cell hcell
  | read => exact closed cell hcell

/-- No call unsets a flag. -/
lemma lasting (h : Step t c answer t') (set : t.isTriggered? i = some true) :
    t'.isTriggered? i = some true := by
  obtain ⟨cell, flag, handle, held, triggered⟩ := isTriggered?_eq_some.mp set
  have handle' := getElem?_kept h.handles_kept handle
  refine isTriggered?_eq_some.mpr ⟨cell, ?_⟩
  cases h with
  | create => exact ⟨flag, handle', getElem?_kept (List.prefix_append _ _) held, triggered⟩
  | clone | read => exact ⟨flag, handle', held, triggered⟩
  | @trigger j other =>
    by_cases hcell : other = cell
    · subst hcell
      exact ⟨⟨true⟩, handle', held_set held _, rfl⟩
    · exact ⟨flag, handle', by simpa [hcell] using held, triggered⟩

end Step

/-- Of any number of calls that trigger a flag one wins, unless the flag was set before. -/
theorem race?_eq (h : t.isTriggered? i = some value) (n : Nat) :
    ∃ t', t.race? i n = some (if value then 0 else min n 1, t') := by
  induction n generalizing t value with
  | zero => exact ⟨t, by simp [race?, h]⟩
  | succ n ih =>
    obtain ⟨cell, flag, handle, held, rfl⟩ := isTriggered?_eq_some.mp h
    let next : FlagTable := ⟨t.cells.set cell ⟨true⟩, t.handles⟩
    have htrigger : t.trigger? i = some (!flag.triggered, next) := by
      simp [trigger?, ShutdownFlag.trigger, handle, held, next]
    have hset : next.isTriggered? i = some true :=
      isTriggered?_eq_some.mpr ⟨cell, ⟨true⟩, handle, held_set held _, rfl⟩
    obtain ⟨t', hrest⟩ := ih hset
    refine ⟨t', ?_⟩
    cases hflag : flag.triggered <;> simp [race?, htrigger, hrest, hflag]

end RecordLog.FlagTable
