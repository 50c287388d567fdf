/-! Numbered slots. A new entry takes the slot that was freed last, or a new one at the end, so the
keys of entries that are there at one time differ, while keys are used again later. -/
namespace RecordLog

structure SlotTable (α : Type) where
  slots : List (Option α)
  /-- Keys of the slots without an entry, the one freed last in front. -/
  vacant : List Nat
  vacant_iff : ∀ key, key ∈ vacant ↔ slots[key]? = some none
  vacant_nodup : vacant.Nodup
  deriving DecidableEq, Repr

namespace SlotTable

variable {α : Type}

def empty : SlotTable α where
  slots := []
  vacant := []
  vacant_iff := by simp
  vacant_nodup := .nil

/-- The key that the next entry gets. -/
def nextKey (t : SlotTable α) : Nat := t.vacant.headD t.slots.length

def get? (t : SlotTable α) (key : Nat) : Option α := t.slots[key]?.join

theorem get?_eq_some {t : SlotTable α} {key : Nat} {a : α} :
    t.get? key = some a ↔ t.slots[key]? = some (some a) := by
  simp [get?, Option.join_eq_some_iff]

/-- Puts an entry in and tells its key. -/
def insert (t : SlotTable α) (a : α) : Nat × SlotTable α :=
  match h : t.vacant with
  | key :: rest =>
    (key, {
      slots := t.slots.set key (some a)
      vacant := rest
      vacant_iff := fun k => by
        have free := t.vacant_iff k
        have distinct := t.vacant_nodup
        simp only [h, List.nodup_cons, List.mem_cons] at free distinct
        by_cases hk : k = key
        · subst hk; simp [distinct.1, List.getElem?_set]
        · simpa [hk, List.getElem?_set, Ne.symm hk] using free
      vacant_nodup := (List.nodup_cons.mp (h ▸ t.vacant_nodup)).2 })
  | [] =>
    (t.slots.length, {
      slots := t.slots ++ [some a]
      vacant := []
      vacant_iff := fun k => by
        have free := t.vacant_iff k
        rw [h] at free
        simp only [List.not_mem_nil, false_iff] at free ⊢
        intro held
        rw [List.getElem?_append] at held
        split at held
        · exact free held
        · simp [List.getElem?_singleton] at held
      vacant_nodup := .nil })

/-- Frees a key; one without an entry stays as it is. -/
def erase (t : SlotTable α) (key : Nat) : SlotTable α :=
  match h : t.get? key with
  | none => t
  | some a =>
    { slots := t.slots.set key none
      vacant := key :: t.vacant
      vacant_iff := fun k => by
        have free := t.vacant_iff k
        have held := List.getElem?_eq_some_iff.mp (get?_eq_some.mp h)
        by_cases hk : k = key
        · subst hk; simp [held.1]
        · simpa [hk, List.getElem?_set, Ne.symm hk] using free
      vacant_nodup := by
        refine List.nodup_cons.mpr ⟨fun hmem => ?_, t.vacant_nodup⟩
        rw [t.vacant_iff, get?_eq_some.mp h] at hmem
        simp at hmem }

/-- Entries with their keys, in ascending order of keys. -/
def toList (t : SlotTable α) : List (Nat × α) :=
  t.slots.zipIdx.filterMap fun (slot, key) => slot.map (key, ·)

/-- Takes out the entries that `p` picks, in ascending order of keys. -/
def extract (t : SlotTable α) (p : α → Bool) : List (Nat × α) × SlotTable α :=
  let taken := t.toList.filter fun (_, a) => p a
  (taken, taken.foldl (fun t (key, _) => t.erase key) t)

def size (t : SlotTable α) : Nat := t.toList.length

@[simp] theorem insert_key (t : SlotTable α) (a : α) : (t.insert a).1 = t.nextKey := by
  unfold insert nextKey
  split <;> simp [*]

/-- The next key is free. -/
@[simp] theorem get?_nextKey (t : SlotTable α) : t.get? t.nextKey = none := by
  unfold nextKey get?
  cases h : t.vacant with
  | nil => simp
  | cons key rest =>
    have free := (t.vacant_iff key).mp (by simp [h])
    simp [free]

theorem get?_insert (t : SlotTable α) (a : α) (key : Nat) :
    (t.insert a).2.get? key = if key = t.nextKey then some a else t.get? key := by
  unfold insert nextKey
  split
  · rename_i k rest h
    have free := List.getElem?_eq_some_iff.mp ((t.vacant_iff k).mp (by simp [h]))
    by_cases hk : key = k
    · subst hk; simp [h, get?, free.1]
    · simp [h, get?, hk, Ne.symm hk]
  · rename_i h
    by_cases hk : key = t.slots.length
    · subst hk; simp [h, get?]
    · by_cases hlt : key < t.slots.length
      · simp [h, get?, hk, List.getElem?_append, hlt]
      · obtain ⟨d, rfl⟩ : ∃ d, key = t.slots.length + d + 1 := ⟨key - t.slots.length - 1, by omega⟩
        simp [h, get?, hk, hlt]

theorem get?_erase (t : SlotTable α) (key other : Nat) :
    (t.erase key).get? other = if other = key then none else t.get? other := by
  unfold erase
  split
  · rename_i h
    by_cases ho : other = key
    · subst ho; simp [h]
    · simp [ho]
  · rename_i a h
    have held := List.getElem?_eq_some_iff.mp (get?_eq_some.mp h)
    by_cases ho : other = key
    · subst ho; simp [get?, held.1]
    · simp [get?, ho, Ne.symm ho]

theorem mem_toList {t : SlotTable α} {key : Nat} {a : α} :
    (key, a) ∈ t.toList ↔ t.get? key = some a := by
  simp only [toList, List.mem_filterMap, get?_eq_some, Prod.exists, Option.map_eq_some_iff,
    Prod.mk.injEq, List.mem_zipIdx_iff_getElem?]
  constructor
  · rintro ⟨slot, k, h, b, rfl, rfl, rfl⟩
    exact h
  · intro h
    exact ⟨some a, key, h, a, rfl, rfl, rfl⟩

end SlotTable

end RecordLog
