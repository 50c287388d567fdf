import RecordLog.Proofs.Framing
import RecordLog.Timestamp

/-! A timestamp is a record like any other: its line feed is at its end, and none of the names and
numbers before it has one. -/
namespace RecordLog

namespace Bytes

lemma toList_loop (bs : ByteArray) (i : Nat) (r : List UInt8) :
    ByteArray.toList.loop bs i r = r.reverse ++ bs.data.toList.drop i := by
  induction i, r using ByteArray.toList.loop.induct bs with
  | case1 i r hlt ih =>
    have hi : i < bs.data.toList.length := hlt
    have hget : bs.get! i = bs.data.toList[i] := by
      rw [Array.getElem_toList]
      exact getElem!_pos bs.data i hi
    rw [ByteArray.toList.loop, if_pos hlt, ih, hget, List.drop_eq_getElem_cons hi]
    simp
  | case2 i r hge =>
    have hle : bs.data.toList.length ≤ i := Nat.le_of_not_lt hge
    rw [ByteArray.toList.loop, if_neg hge, List.drop_eq_nil_of_le hle, List.append_nil]

/-- A text is encoded character by character. -/
theorem ofString_ofList (cs : List Char) :
    ofString (String.ofList cs) = cs.flatMap String.utf8EncodeChar := by
  rw [ofString, String.toUTF8_eq_toByteArray, String.toByteArray_ofList,
    ByteArray.toList, toList_loop, List.utf8Encode, List.toList_data_toByteArray]
  rfl

/-- The octet of the line feed stands for nothing else. -/
lemma delimiter_mem_utf8EncodeChar {c : Char} (h : delimiter ∈ String.utf8EncodeChar c) :
    c = '\n' := by
  have high : ∀ n, 128 ≤ n → n < 256 → delimiter ≠ UInt8.ofNat n := by
    intro n hlow hhigh h
    have hn := congrArg UInt8.toNat h
    rw [UInt8.toNat_ofNat', Nat.mod_eq_of_lt hhigh] at hn
    have hd : delimiter.toNat = 10 := rfl
    omega
  unfold String.utf8EncodeChar at h
  dsimp only at h
  split at h
  · rename_i hascii
    have hval := congrArg UInt8.toNat (List.mem_singleton.mp h)
    rw [UInt8.toNat_ofNat', Nat.mod_eq_of_lt (by omega)] at hval
    exact Char.ext (UInt32.toNat_inj.mp hval.symm)
  · split at h
    · simp only [List.mem_cons, List.not_mem_nil, or_false] at h
      obtain h | h := h <;> exact (high _ (by omega) (by omega) h).elim
    · split at h <;> simp only [List.mem_cons, List.not_mem_nil, or_false] at h
      · obtain h | h | h := h <;> exact (high _ (by omega) (by omega) h).elim
      · obtain h | h | h | h := h <;> exact (high _ (by omega) (by omega) h).elim

end Bytes

namespace Timestamp

lemma newline_not_mem_padded (width n : Nat) : '\n' ∉ Decimal.padded width n := by
  intro h
  obtain h | h := List.mem_append.mp h
  · exact absurd (List.eq_of_mem_replicate h) (by decide)
  · exact absurd (Nat.isDigit_of_mem_toDigits (by decide) (by decide) h) (by decide)

lemma newline_not_mem_nameAt (names : List String) (h : ∀ name ∈ names, '\n' ∉ name.toList)
    (i : Nat) : '\n' ∉ nameAt names i := by
  rw [nameAt]
  cases hi : names[i]? with
  | none => simp
  | some name => exact h name (List.mem_of_getElem? hi)

lemma newline_not_mem_yearText (year : Int) : '\n' ∉ yearText year := by
  have hdigits := newline_not_mem_padded 4 year.natAbs
  unfold yearText
  dsimp only
  split
  · simp [hdigits]
  · split <;> simp [hdigits]

/-- What a timestamp shows, without its line feed. -/
lemma render_eq (f : Fields) : ∃ body, f.render = body ++ ['\n'] ∧ '\n' ∉ body := by
  refine ⟨_, rfl, ?_⟩
  have hweekday := newline_not_mem_nameAt weekdayNames (by decide) f.weekday
  have hmonth := newline_not_mem_nameAt monthNames (by decide) (f.date.month - 1)
  have htag : '\n' ∉ tag := by decide
  have hsign : '\n' ≠ if f.west then '-' else '+' := by split <;> decide
  simp [hweekday, hmonth, htag, hsign, newline_not_mem_padded, newline_not_mem_yearText]

/-- Every timestamp is a record. -/
theorem isRecord (t : Instant) (offset : Int) : IsRecord (Bytes.ofString (record t offset)) := by
  obtain ⟨body, hrender, hbody⟩ := render_eq (fieldsOf t offset)
  refine ⟨body.flatMap String.utf8EncodeChar, ?_, fun hmem => ?_⟩
  · rw [record, hrender, Bytes.ofString_ofList, List.flatMap_append]
    rfl
  · obtain ⟨c, hc, hdelimiter⟩ := List.mem_flatMap.mp hmem
    exact hbody (Bytes.delimiter_mem_utf8EncodeChar hdelimiter ▸ hc)

end Timestamp

end RecordLog
