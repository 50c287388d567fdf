import Mathlib.Tactic.Lemma
import RecordLog.SlotTable

/-! The values that a table holds, up to their order. Putting one in adds it; taking some out leaves
the others, and none is lost on the way. -/
namespace RecordLog.SlotTable

variable {α : Type}

/-- The values of the entries. -/
def values (t : SlotTable α) : List α := t.toList.map (·.2)

lemma length_values (t : SlotTable α) : t.values.length = t.size := List.length_map _

lemma mem_values {t : SlotTable α} {a : α} : a ∈ t.values ↔ ∃ key, t.get? key = some a := by
  simp only [values, List.mem_map, Prod.exists, mem_toList]
  constructor
  · rintro ⟨key, b, h, rfl⟩
    exact ⟨key, h⟩
  · rintro ⟨key, h⟩
    exact ⟨key, a, h, rfl⟩

lemma map_filterMap_zipIdx (slots : List (Option α)) (n : Nat) :
    ((slots.zipIdx n).filterMap fun (slot, key) => slot.map (key, ·)).map (·.2)
      = slots.filterMap id := by
  induction slots generalizing n with
  | nil => rfl
  | cons slot slots ih =>
    cases slot with
    | none => simpa using ih (n + 1)
    | some a => simpa using ih (n + 1)

lemma values_eq (t : SlotTable α) : t.values = t.slots.filterMap id :=
  map_filterMap_zipIdx t.slots 0

/-- Setting one slot changes that one only. -/
lemma filterMap_set_perm {slots : List (Option α)} {i : Nat} {old : Option α}
    (h : slots[i]? = some old) (new : Option α) :
    (old.toList ++ (slots.set i new).filterMap id).Perm (new.toList ++ slots.filterMap id) := by
  induction slots generalizing i with
  | nil => simp at h
  | cons slot slots ih =>
    cases i with
    | zero =>
      obtain rfl : slot = old := by simpa using h
      cases slot <;> cases new <;> simp [List.Perm.swap]
    | succ i =>
      have hrest := ih (by simpa using h : slots[i]? = some old)
      rw [List.set_cons_succ]
      cases slot with
      | none => simpa using hrest
      | some a =>
        simp only [List.filterMap_cons, id]
        exact List.perm_middle.trans ((hrest.cons a).trans List.perm_middle.symm)

theorem values_insert_perm (t : SlotTable α) (a : α) :
    (t.insert a).2.values.Perm (a :: t.values) := by
  rw [values_eq, values_eq]
  unfold insert
  split
  · rename_i key rest h
    exact filterMap_set_perm ((t.vacant_iff key).mp (by simp [h])) (some a)
  · simp

theorem values_erase_perm {t : SlotTable α} {key : Nat} {a : α} (h : t.get? key = some a) :
    (a :: (t.erase key).values).Perm t.values := by
  have hslots : (t.erase key).slots = t.slots.set key none := by
    unfold erase
    split
    · rename_i hnone
      simp [h] at hnone
    · rfl
  rw [values_eq, values_eq, hslots]
  exact filterMap_set_perm (get?_eq_some.mp h) none

lemma mem_values_insert {t : SlotTable α} {a b : α} :
    b ∈ (t.insert a).2.values ↔ b = a ∨ b ∈ t.values :=
  (t.values_insert_perm a).mem_iff.trans List.mem_cons

lemma size_insert (t : SlotTable α) (a : α) : (t.insert a).2.size = t.size + 1 := by
  simpa [length_values] using (t.values_insert_perm a).length_eq

lemma size_eq_zero {t : SlotTable α} (h : ∀ key, t.get? key = none) : t.size = 0 := by
  refine List.length_eq_zero_iff.mpr (List.eq_nil_iff_forall_not_mem.mpr fun p hp => ?_)
  have hheld := mem_toList.mp (show (p.1, p.2) ∈ t.toList from hp)
  simp [h] at hheld

/-- Freeing several keys. -/
def eraseAll (t : SlotTable α) (taken : List (Nat × α)) : SlotTable α :=
  taken.foldl (fun t (key, _) => t.erase key) t

/-- What is taken out and what stays are all there was. -/
lemma values_eraseAll_perm {t : SlotTable α} {taken : List (Nat × α)}
    (distinct : (taken.map (·.1)).Nodup)
    (held : ∀ key a, (key, a) ∈ taken → t.get? key = some a) :
    (taken.map (·.2) ++ (t.eraseAll taken).values).Perm t.values := by
  induction taken generalizing t with
  | nil => exact .refl _
  | cons x taken ih =>
    obtain ⟨k, a⟩ := x
    rw [List.map_cons, List.nodup_cons] at distinct
    have hrest : (taken.map (·.2) ++ ((t.erase k).eraseAll taken).values).Perm
        (t.erase k).values := by
      refine ih distinct.2 fun key b hmem => ?_
      have hne : key ≠ k := by
        rintro rfl
        exact distinct.1 (List.mem_map.mpr ⟨(key, b), hmem, rfl⟩)
      rw [get?_erase, if_neg hne]
      exact held key b (List.mem_cons_of_mem _ hmem)
    exact (hrest.cons a).trans (values_erase_perm (held k a (List.mem_cons_self ..)))

lemma keys_sublist (slots : List (Option α)) (n : Nat) :
    (((slots.zipIdx n).filterMap fun (slot, key) => slot.map (key, ·)).map (·.1)).Sublist
      ((slots.zipIdx n).map (·.2)) := by
  induction slots generalizing n with
  | nil => exact .slnil
  | cons slot slots ih =>
    cases slot with
    | none => simpa using (ih (n + 1)).cons n
    | some a => simpa using (ih (n + 1)).cons_cons n

/-- An entry is under one key. -/
lemma keys_nodup (t : SlotTable α) : (t.toList.map (·.1)).Nodup := by
  have hkeys : (t.slots.zipIdx.map (·.2)).Nodup := by
    rw [List.zipIdx_map_snd]
    exact List.nodup_range'
  exact (keys_sublist t.slots 0).nodup hkeys

variable (t : SlotTable α) (p : α → Bool)

theorem values_extract_perm :
    ((t.extract p).1.map (·.2) ++ (t.extract p).2.values).Perm t.values := by
  have distinct : ((t.toList.filter fun (_, a) => p a).map (·.1)).Nodup :=
    (List.filter_sublist.map _).nodup t.keys_nodup
  exact values_eraseAll_perm distinct fun key a hmem => mem_toList.mp (List.mem_filter.mp hmem).1

lemma size_extract : (t.extract p).1.length + (t.extract p).2.size = t.size := by
  simpa [length_values] using (t.values_extract_perm p).length_eq

lemma extract_all : (t.extract fun _ => true).1 = t.toList :=
  List.filter_eq_self.mpr fun _ _ => rfl

lemma size_extract_all : (t.extract fun _ => true).2.size = 0 := by
  have hsize := t.size_extract fun _ => true
  rw [extract_all, ← size] at hsize
  omega

/-- Nothing gets lost when entries are taken out. -/
lemma mem_values_extract {a : α} (h : a ∈ t.values) :
    a ∈ (t.extract p).1.map (·.2) ∨ a ∈ (t.extract p).2.values :=
  List.mem_append.mp ((t.values_extract_perm p).mem_iff.mpr h)

/-- What stays was there before. -/
lemma mem_values_of_extract {a : α} (h : a ∈ (t.extract p).2.values) : a ∈ t.values :=
  (t.values_extract_perm p).subset (List.mem_append_right _ h)

end RecordLog.SlotTable
