import RecordLog.Proofs.Timestamp
import RecordLog.Text.Utf8

/-! Texts written as UTF-8 are read back. Each character begins with an octet that tells how many
follow, and those that follow are in the ranges that it allows. -/
namespace RecordLog.Utf8

lemma ofNat_lt {n : Nat} (octet : n < 256) (b : UInt8) : UInt8.ofNat n < b ↔ n < b.toNat := by
  rw [UInt8.lt_iff_toNat_lt, UInt8.toNat_ofNat', Nat.mod_eq_of_lt octet]

lemma ofNat_eq {n : Nat} (octet : n < 256) (b : UInt8) : UInt8.ofNat n = b ↔ n = b.toNat := by
  rw [← UInt8.toNat_inj, UInt8.toNat_ofNat', Nat.mod_eq_of_lt octet]

/-- Leading octets by their values. The second octet is held back just after the leads whose
characters could be written shorter, are surrogates, or are too large. -/
lemma lead_ofNat {n : Nat} (octet : n < 256) : lead (UInt8.ofNat n) =
    if n < 0x80 then some (0, 0x80, 0xBF)
    else if n < 0xC2 then none
    else if n < 0xE0 then some (1, 0x80, 0xBF)
    else if n < 0xF0 then
      some (2, if n = 0xE0 then 0xA0 else 0x80, if n = 0xED then 0x9F else 0xBF)
    else if n < 0xF5 then
      some (3, if n = 0xF0 then 0x90 else 0x80, if n = 0xF4 then 0x8F else 0xBF)
    else none := by
  unfold lead
  simp only [ofNat_lt octet, ofNat_eq octet, UInt8.reduceToNat]
  grind

/-- An octet that follows adds six bits. -/
lemma continuation_ofNat {m : Nat} {lo hi : UInt8} (above : lo.toNat ≤ m % 64 + 128)
    (below : m % 64 + 128 ≤ hi.toNat) (n point : Nat) (rest : Bytes) :
    continuation (n + 1) lo hi point (UInt8.ofNat (m % 64 + 128) :: rest) =
      continuation n 0x80 0xBF (point * 64 + m % 64) rest := by
  have octet : m % 64 + 128 < 256 := by omega
  have hnat : (UInt8.ofNat (m % 64 + 128)).toNat = m % 64 + 128 := by
    rw [UInt8.toNat_ofNat', Nat.mod_eq_of_lt octet]
  have fits : lo ≤ UInt8.ofNat (m % 64 + 128) ∧ UInt8.ofNat (m % 64 + 128) ≤ hi := by
    rw [UInt8.le_iff_toNat_le, UInt8.le_iff_toNat_le, hnat]
    exact ⟨above, below⟩
  have hbits : (m % 64 + 128) % 64 = m % 64 := by omega
  rw [continuation, if_pos fits, hnat, hbits]

lemma step_ofNat {n k point : Nat} {lo hi : UInt8} {bytes rest : Bytes}
    (begins : lead (UInt8.ofNat n) = some (k, lo, hi))
    (goesOn : continuation k lo hi (leadBits (UInt8.ofNat n) k) bytes = (some point, rest)) :
    step (UInt8.ofNat n) bytes = (some (Char.ofNat point), rest) := by
  simp only [step, begins, goesOn, Option.map_some]

section
variable {v : Nat} (rest : Bytes)

lemma step_one (fits : v ≤ 0x7F) : step (UInt8.ofNat v) rest = (some (Char.ofNat v), rest) := by
  have octet : v < 256 := by omega
  refine step_ofNat (lead_ofNat octet ▸ if_pos (by omega)) ?_
  rw [leadBits, UInt8.toNat_ofNat', Nat.mod_eq_of_lt octet, continuation]

lemma step_two (long : 0x7F < v) (fits : v ≤ 0x7FF) :
    step (UInt8.ofNat (v / 64 % 32 + 192)) (UInt8.ofNat (v % 64 + 128) :: rest) =
      (some (Char.ofNat v), rest) := by
  have octet : v / 64 % 32 + 192 < 256 := by omega
  have begins : lead (UInt8.ofNat (v / 64 % 32 + 192)) = some (1, 0x80, 0xBF) := by
    rw [lead_ofNat octet, if_neg (by omega), if_neg (by omega), if_pos (by omega)]
  have bits : (v / 64 % 32 + 192) % 32 * 64 + v % 64 = v := by omega
  refine step_ofNat begins ?_
  rw [leadBits, UInt8.toNat_ofNat', Nat.mod_eq_of_lt octet,
    continuation_ofNat (by simp) (by simp; omega), continuation, bits]

lemma step_three (long : 0x7FF < v) (fits : v ≤ 0xFFFF) (valid : v < 0xD800 ∨ 0xDFFF < v) :
    step (UInt8.ofNat (v / 4096 % 16 + 224))
        (UInt8.ofNat (v / 64 % 64 + 128) :: UInt8.ofNat (v % 64 + 128) :: rest) =
      (some (Char.ofNat v), rest) := by
  have octet : v / 4096 % 16 + 224 < 256 := by omega
  have begins : lead (UInt8.ofNat (v / 4096 % 16 + 224)) = some (2,
      if v / 4096 % 16 + 224 = 0xE0 then 0xA0 else 0x80,
      if v / 4096 % 16 + 224 = 0xED then 0x9F else 0xBF) := by
    rw [lead_ofNat octet, if_neg (by omega), if_neg (by omega), if_neg (by omega),
      if_pos (by omega)]
  have bits : ((v / 4096 % 16 + 224) % 16 * 64 + v / 64 % 64) * 64 + v % 64 = v := by omega
  refine step_ofNat begins ?_
  rw [leadBits, UInt8.toNat_ofNat', Nat.mod_eq_of_lt octet, continuation_ofNat ?above ?below,
    continuation_ofNat (by simp) (by simp; omega), continuation, bits]
  case above => split <;> simp <;> omega
  case below => split <;> simp <;> omega

lemma step_four (long : 0xFFFF < v) (valid : v < 0x110000) :
    step (UInt8.ofNat (v / 262144 % 8 + 240)) (UInt8.ofNat (v / 4096 % 64 + 128) ::
        UInt8.ofNat (v / 64 % 64 + 128) :: UInt8.ofNat (v % 64 + 128) :: rest) =
      (some (Char.ofNat v), rest) := by
  have octet : v / 262144 % 8 + 240 < 256 := by omega
  have begins : lead (UInt8.ofNat (v / 262144 % 8 + 240)) = some (3,
      if v / 262144 % 8 + 240 = 0xF0 then 0x90 else 0x80,
      if v / 262144 % 8 + 240 = 0xF4 then 0x8F else 0xBF) := by
    rw [lead_ofNat octet, if_neg (by omega), if_neg (by omega), if_neg (by omega),
      if_neg (by omega), if_pos (by omega)]
  have bits : (((v / 262144 % 8 + 240) % 8 * 64 + v / 4096 % 64) * 64 + v / 64 % 64) * 64 + v % 64
      = v := by omega
  refine step_ofNat begins ?_
  rw [leadBits, UInt8.toNat_ofNat', Nat.mod_eq_of_lt octet, continuation_ofNat ?above ?below,
    continuation_ofNat (by simp) (by simp; omega), continuation_ofNat (by simp) (by simp; omega),
    continuation, bits]
  case above => split <;> simp <;> omega
  case below => split <;> simp <;> omega
  all_goals simp

end

/-- The first character of a text is read, and what follows it is left. -/
theorem step_encoded (c : Char) (rest : Bytes) : ∃ b more,
    String.utf8EncodeChar c = b :: more ∧ step b (more ++ rest) = (some c, rest) := by
  have valid : c.val.toNat < 0xD800 ∨ 0xDFFF < c.val.toNat ∧ c.val.toNat < 0x110000 := c.valid
  have same : (some (Char.ofNat c.val.toNat), rest) = (some c, rest) := by
    rw [show Char.ofNat c.val.toNat = c from Char.ofNat_toNat c]
  unfold String.utf8EncodeChar
  dsimp only
  split
  · rename_i fits
    exact ⟨_, _, rfl, (step_one rest fits).trans same⟩
  · split
    · rename_i long fits
      exact ⟨_, _, rfl, (step_two rest (by omega) fits).trans same⟩
    · split
      · rename_i long fits
        have apart := valid.imp_right And.left
        exact ⟨_, _, rfl, (step_three rest (by omega) fits apart).trans same⟩
      · rename_i long
        exact ⟨_, _, rfl, (step_four rest (by omega) (by omega)).trans same⟩

lemma scanFrom_encoded (found : List (Option Char)) (cs : List Char) :
    scanFrom found (cs.flatMap String.utf8EncodeChar) = found.reverse ++ cs.map some := by
  induction cs generalizing found with
  | nil => simp [scanFrom]
  | cons c cs ih =>
    obtain ⟨b, more, hbytes, hstep⟩ := step_encoded c (cs.flatMap String.utf8EncodeChar)
    rw [List.flatMap_cons, hbytes, List.cons_append, scanFrom, hstep, ih]
    simp

/-- What is written as UTF-8 is read back. -/
theorem decode?_ofString (s : String) : decode? (Bytes.ofString s) = some s := by
  have hscan : scan (Bytes.ofString s) = s.toList.map some := by
    rw [← String.ofList_toList (s := s), Bytes.ofString_ofList, scan, scanFrom_encoded,
      String.toList_ofList]
    rfl
  have whole : ∀ cs : List Char, (cs.map some).mapM id = some cs := by
    intro cs
    induction cs with
    | nil => rfl
    | cons c cs ih =>
      rw [List.map_cons, List.mapM_cons, ih]
      rfl
  rw [decode?, hscan, whole, Option.map_some, String.ofList_toList]

end RecordLog.Utf8
