import Mathlib.Tactic.Lemma
import RecordLog.RecordBuffer

/-! What a stream is cut into. A stream has exactly one reading as records followed by a tail
without a delimiter, and the buffer hands out the first of those records. -/
namespace RecordLog

/-- One delimiter, at the very end. -/
def IsRecord (bs : Bytes) : Prop := ∃ body, bs = body ++ [delimiter] ∧ delimiter ∉ body

lemma IsRecord.ne_nil {r : Bytes} (h : IsRecord r) : r ≠ [] := by
  obtain ⟨body, rfl, -⟩ := h
  simp

theorem cutRecord?_record_append {r : Bytes} (h : IsRecord r) (rest : Bytes) :
    cutRecord? (r ++ rest) = some (r, rest) := by
  obtain ⟨body, rfl, hbody⟩ := h
  have hb : ∀ b ∈ body, (b != delimiter) = true := by
    intro b hb
    have hne : b ≠ delimiter := fun h => hbody (h ▸ hb)
    simpa using hne
  have hd : (body ++ [delimiter] ++ rest).dropWhile (· != delimiter) = delimiter :: rest := by
    rw [List.append_assoc, List.dropWhile_append_of_pos hb]
    simp
  have ht : (body ++ [delimiter] ++ rest).takeWhile (· != delimiter) = body := by
    rw [List.append_assoc, List.takeWhile_append_of_pos hb]
    simp
  simp only [cutRecord?, hd, ht]

/-- Cutting takes off the first record and nothing else. -/
theorem cutRecord?_eq_some {bs r rest : Bytes} :
    cutRecord? bs = some (r, rest) ↔ IsRecord r ∧ bs = r ++ rest := by
  constructor
  · intro h
    exact ⟨cutRecord?_record h, (cutRecord?_append h).symm⟩
  · rintro ⟨hr, rfl⟩
    exact cutRecord?_record_append hr rest

theorem RecordBuffer.next?_eq_some {b b' : RecordBuffer} {r : Bytes} :
    b.next? = some (r, b') ↔ IsRecord r ∧ b.bytes = r ++ b'.bytes := by
  simp only [RecordBuffer.next?, Option.map_eq_some_iff, Prod.exists, cutRecord?_eq_some]
  constructor
  · rintro ⟨r, rest, hr, ⟨rfl, rfl⟩⟩
    exact hr
  · rintro h
    exact ⟨r, b'.bytes, h, rfl⟩

theorem RecordBuffer.next?_eq_none {b : RecordBuffer} : b.next? = none ↔ delimiter ∉ b.bytes := by
  rw [RecordBuffer.next?, Option.map_eq_none_iff, cutRecord?_eq_none]

lemma records_cons_of_ne {b : UInt8} (hb : b ≠ delimiter) (bs : Bytes) :
    records (b :: bs) = match records bs with
      | ([], tail) => ([], b :: tail)
      | (r :: rs, tail) => ((b :: r) :: rs, tail) := by
  rw [records]
  cases records bs with
  | mk rs tail => cases rs <;> simp [hb]

lemma records_cons_delimiter (bs : Bytes) :
    records (delimiter :: bs) = ([delimiter] :: (records bs).1, (records bs).2) := by
  simp [records]

theorem records_of_not_mem {bs : Bytes} (h : delimiter ∉ bs) : records bs = ([], bs) := by
  induction bs with
  | nil => rfl
  | cons b bs ih =>
    rw [List.mem_cons, not_or] at h
    rw [records_cons_of_ne (Ne.symm h.1), ih h.2]

theorem records_record_append {r : Bytes} (h : IsRecord r) (bs : Bytes) :
    records (r ++ bs) = (r :: (records bs).1, (records bs).2) := by
  obtain ⟨body, rfl, hbody⟩ := h
  induction body with
  | nil => exact records_cons_delimiter bs
  | cons b body ih =>
    rw [List.mem_cons, not_or] at hbody
    rw [List.cons_append, List.cons_append, records_cons_of_ne (Ne.symm hbody.1), ih hbody.2]

/-- Records at the front of a stream are read as they are. -/
theorem records_flatten {rs : List Bytes} (hr : ∀ r ∈ rs, IsRecord r) (bs : Bytes) :
    records (rs.flatten ++ bs) = (rs ++ (records bs).1, (records bs).2) := by
  induction rs with
  | nil => rfl
  | cons r rs ih =>
    rw [List.forall_mem_cons] at hr
    rw [List.flatten_cons, List.append_assoc, records_record_append hr.1, ih hr.2, List.cons_append]

/-- Records followed by a tail without a delimiter are read back as they are. -/
theorem records_flatten_append {rs : List Bytes} {tail : Bytes} (hr : ∀ r ∈ rs, IsRecord r)
    (ht : delimiter ∉ tail) : records (rs.flatten ++ tail) = (rs, tail) := by
  rw [records_flatten hr, records_of_not_mem ht, List.append_nil]

/-- Every stream is its records followed by its tail. -/
theorem records_spec (bs : Bytes) :
    (records bs).1.flatten ++ (records bs).2 = bs ∧ (∀ r ∈ (records bs).1, IsRecord r) ∧
      delimiter ∉ (records bs).2 := by
  induction hn : bs.length using Nat.strongRecOn generalizing bs with
  | ind n ih =>
    cases hc : cutRecord? bs with
    | none =>
      have hd := cutRecord?_eq_none.mp hc
      rw [records_of_not_mem hd]
      exact ⟨rfl, by simp, hd⟩
    | some cut =>
      obtain ⟨r, rest⟩ := cut
      have hlt := cutRecord?_shorter hc
      obtain ⟨hr, rfl⟩ := cutRecord?_eq_some.mp hc
      obtain ⟨hsum, hall, htail⟩ := ih rest.length (hn ▸ hlt) rest rfl
      rw [records_record_append hr]
      refine ⟨?_, ?_, htail⟩
      · rw [List.flatten_cons, List.append_assoc, hsum]
      · rw [List.forall_mem_cons]
        exact ⟨hr, hall⟩

end RecordLog
