import RecordLog.Proofs.Calendar
import RecordLog.Proofs.Text.Decimal
import RecordLog.Proofs.Timestamp

/-! Timestamps read back. A record shows its fields so that they can be read from it, and the fields
of an instant tell its second and, to the minute, its offset. -/
namespace RecordLog.Timestamp

lemma expect_append (xs rest : List Char) : expect xs (xs ++ rest) = some rest := by
  induction xs with
  | nil => rfl
  | cons x xs ih => rw [List.cons_append, expect, if_pos rfl, ih]

lemma expect_char (c : Char) (rest : List Char) : expect [c] (c :: rest) = some rest :=
  expect_append [c] rest

/-- Two words of one length are told apart. -/
lemma expect_of_ne {xs ys : List Char} (same : xs.length = ys.length) (ne : xs ≠ ys)
    (rest : List Char) : expect xs (ys ++ rest) = none := by
  induction xs generalizing ys with
  | nil =>
    obtain rfl := List.eq_nil_of_length_eq_zero same.symm
    exact absurd rfl ne
  | cons x xs ih =>
    cases ys with
    | nil => simp at same
    | cons y ys =>
      rw [List.cons_append, expect]
      split
      · rename_i h
        exact ih (by simpa using same) fun hs => ne (by rw [h, hs])
      · rfl

lemma digits_padded {n : Nat} (fits : n < 100) (rest : List Char) :
    digits 2 (Decimal.padded 2 n ++ rest) = some (n, rest) := by
  have hlength : (Decimal.padded 2 n).length = 2 := Decimal.length_padded (by decide) fits
  have hlong : ¬ (Decimal.padded 2 n ++ rest).length < 2 := by
    rw [List.length_append, hlength]
    omega
  rw [digits, if_neg hlong, List.take_left' hlength, List.drop_left' hlength, Decimal.read?_padded]
  rfl

/-- One of several words of the same length is found where it stands. -/
lemma oneOf_nameAt (width : Nat) {names : List String} (distinct : names.Nodup)
    (even : ∀ name ∈ names, name.toList.length = width) {i : Nat} (hi : i < names.length)
    (rest : List Char) : oneOf names (nameAt names i ++ rest) = some (i, rest) := by
  suffices h : ∀ start, ((names.zipIdx start).findSome? fun x =>
      (expect x.1.toList (nameAt names i ++ rest)).map (x.2, ·)) = some (start + i, rest) by
    simpa [oneOf] using h 0
  induction names generalizing i with
  | nil => exact absurd hi (Nat.not_lt_zero i)
  | cons name names ih =>
    intro start
    rw [List.zipIdx_cons, List.findSome?_cons]
    cases i with
    | zero =>
      simp [nameAt, expect_append]
    | succ i =>
      have hi' : i < names.length := by simpa using hi
      have hmem : names[i] ∈ names := List.getElem_mem hi'
      have hat : nameAt (name :: names) (i + 1) = nameAt names i := by simp [nameAt]
      have hword : nameAt names i = names[i].toList := by simp [nameAt, hi']
      have hother : expect name.toList (nameAt names i ++ rest) = none := by
        rw [hword]
        refine expect_of_ne ?_ (fun h => ?_) rest
        · rw [even name List.mem_cons_self, even names[i] (List.mem_cons_of_mem name hmem)]
        · exact (List.nodup_cons.mp distinct).1 (String.toList_inj.mp h ▸ hmem)
      simp only [hat, hother, Option.map_none]
      have hrest := ih (List.nodup_cons.mp distinct).2
        (fun n hn => even n (List.mem_cons_of_mem name hn)) hi' (start + 1)
      rw [hrest, Nat.add_assoc, Nat.add_comm 1 i]

lemma oneOf_weekday {i : Nat} (hi : i < 7) (rest : List Char) :
    oneOf weekdayNames (nameAt weekdayNames i ++ rest) = some (i, rest) :=
  oneOf_nameAt 3 (by decide) (by decide) hi rest

lemma oneOf_month {i : Nat} (hi : i < 12) (rest : List Char) :
    oneOf monthNames (nameAt monthNames i ++ rest) = some (i, rest) :=
  oneOf_nameAt 3 (by decide) (by decide) hi rest

/-- A number ends at the blank after it. -/
lemma padded_until_blank (n : Nat) (rest : List Char) :
    (Decimal.padded 4 n ++ ' ' :: rest).takeWhile (· ≠ ' ') = Decimal.padded 4 n ∧
      (Decimal.padded 4 n ++ ' ' :: rest).dropWhile (· ≠ ' ') = ' ' :: rest := by
  have hdigits : ∀ c ∈ Decimal.padded 4 n, decide (c ≠ ' ') = true := by
    intro c hc
    have hdigit := Decimal.isDigit_of_mem_padded hc
    rw [decide_eq_true_eq]
    rintro rfl
    exact absurd hdigit (by decide)
  rw [List.takeWhile_append_of_pos hdigits, List.dropWhile_append_of_pos hdigits]
  simp

lemma year_unsigned {c : Char} (hminus : c ≠ '-') (hplus : c ≠ '+') (cs : List Char) :
    year (c :: cs) = (Decimal.read? ((c :: cs).takeWhile (· ≠ ' '))).map
      fun n : Nat => ((n : Int), (c :: cs).dropWhile (· ≠ ' ')) := by
  unfold year
  split
  rename_i sign digits hsplit
  split at hsplit
  · rename_i h
    exact absurd (List.cons.inj h).1 hminus
  · rename_i h
    exact absurd (List.cons.inj h).1 hplus
  · obtain ⟨rfl, rfl⟩ := Prod.mk.inj hsplit
    cases Decimal.read? ((c :: cs).takeWhile (· ≠ ' ')) <;> simp

lemma year_yearText (y : Int) (rest : List Char) :
    year (yearText y ++ ' ' :: rest) = some (y, ' ' :: rest) := by
  obtain ⟨htake, hdrop⟩ := padded_until_blank y.natAbs rest
  have hread := Decimal.read?_padded 4 y.natAbs
  have hsize : (y.natAbs : Int) = if y < 0 then -y else y := by omega
  unfold yearText
  dsimp only
  split
  · rename_i negative
    rw [List.cons_append, year, htake, hdrop, hread]
    simp [hsize, negative]
  · rename_i nonnegative
    rw [if_neg nonnegative] at hsize
    split
    · rw [List.cons_append, year, htake, hdrop, hread]
      simp [hsize]
    · -- Without a sign the first character is a digit.
      obtain ⟨c, cs, hcons⟩ := List.exists_cons_of_ne_nil (Decimal.padded_ne_nil 4 y.natAbs)
      have hdigit : c.isDigit := Decimal.isDigit_of_mem_padded (hcons ▸ List.mem_cons_self)
      have hminus : c ≠ '-' := by rintro rfl; exact absurd hdigit (by decide)
      have hplus : c ≠ '+' := by rintro rfl; exact absurd hdigit (by decide)
      rw [hcons, List.cons_append] at htake hdrop ⊢
      rw [year_unsigned hminus hplus, htake, hdrop, ← hcons, hread, Option.map_some, hsize]

/-- The fields that a record has room for. -/
structure Fields.Fit (f : Fields) : Prop where
  weekday : f.weekday < 7
  date : f.date.Valid
  hour : f.hour < 100
  minute : f.minute < 100
  second : f.second < 100
  offset : f.offsetMinutes < 6000

/-- What is read first leaves the rest to be read on. -/
lemma bind_of_eq {α β : Type} {x : Option α} {a : α} (h : x = some a) (f : α → Option β) :
    (x >>= f) = f a := by
  rw [h]
  rfl

/-- Fields that fit are read back as they are shown. -/
theorem read?_render {f : Fields} (fit : f.Fit) : read? f.render = some f := by
  obtain ⟨weekday, ⟨year, month, day⟩, hour, minute, second, west, minutes⟩ := f
  obtain ⟨hweekday, hdate, hhour, hminute, hsecond, hoffset⟩ := fit
  have hfirst : 1 ≤ month := hdate.1
  have hlast : month ≤ 12 := hdate.month_le
  have hmonth : month - 1 < 12 := by omega
  have hday : day < 100 := Nat.lt_of_le_of_lt hdate.day_le (by decide)
  have hhours : minutes / 60 < 100 := Nat.div_lt_of_lt_mul hoffset
  have hminutes : minutes % 60 < 100 := Nat.lt_trans (Nat.mod_lt _ (by decide)) (by decide)
  have hcomma : ∀ rest, expect [',', ' '] (", ".toList ++ rest) = some rest :=
    expect_append [',', ' ']
  cases west
  all_goals
    simp only [Fields.render, List.append_assoc, List.cons_append]
    refine (bind_of_eq (expect_append tag _) _).trans ?_
    refine (bind_of_eq (oneOf_weekday hweekday _) _).trans ?_
    refine (bind_of_eq (hcomma _) _).trans ?_
    refine (bind_of_eq (digits_padded hday _) _).trans ?_
    refine (bind_of_eq (expect_char ' ' _) _).trans ?_
    refine (bind_of_eq (oneOf_month hmonth _) _).trans ?_
    refine (bind_of_eq (expect_char ' ' _) _).trans ?_
    refine (bind_of_eq (year_yearText year _) _).trans ?_
    refine (bind_of_eq (expect_char ' ' _) _).trans ?_
    refine (bind_of_eq (digits_padded hhour _) _).trans ?_
    refine (bind_of_eq (expect_char ':' _) _).trans ?_
    refine (bind_of_eq (digits_padded hminute _) _).trans ?_
    refine (bind_of_eq (expect_char ':' _) _).trans ?_
    refine (bind_of_eq (digits_padded hsecond _) _).trans ?_
    refine (bind_of_eq (expect_char ' ' _) _).trans ?_
    refine (bind_of_eq rfl _).trans ?_
    refine (bind_of_eq (digits_padded hhours _) _).trans ?_
    refine (bind_of_eq (digits_padded hminutes _) _).trans ?_
    refine (bind_of_eq (expect_char '\n' _) _).trans ?_
    simp only [List.isEmpty_nil, if_true, Nat.sub_add_cancel hfirst, Nat.div_add_mod']

/-- The tag comes first, also in the octets. -/
lemma tag_prefix_record (t : Instant) (offset : Int) :
    Bytes.ofString "timestamp:" <+: Bytes.ofString (record t offset) := by
  have htag : String.ofList tag = "timestamp:" := String.ofList_toList
  have hrest : ∃ rest, (fieldsOf t offset).render = tag ++ rest := by
    simp only [Fields.render, List.append_assoc]
    exact ⟨_, rfl⟩
  obtain ⟨rest, hrest⟩ := hrest
  rw [← htag, record, Bytes.ofString_ofList, Bytes.ofString_ofList, hrest, List.flatMap_append]
  exact List.prefix_append _ _

variable {t : Instant} {offset : Int}

lemma nanos_of_inRange (told : t.inRange = true) :
    t.nanos < 1000000000 ∨ (t.nanos < 2000000000 ∧ t.seconds % 60 = 59) := by
  simp only [Instant.inRange, Bool.and_eq_true, Bool.or_eq_true, decide_eq_true_eq] at told
  exact told.2

lemma offset_of_valid (valid : validOffset offset = true) : -86400 < offset ∧ offset < 86400 := by
  simpa [validOffset] using valid

/-- The time of day that is shown, with a second more in a leap second. -/
lemma time_fieldsOf (t : Instant) (offset : Int) :
    (fieldsOf t offset).hour < 24 ∧ (fieldsOf t offset).minute < 60 ∧
      (fieldsOf t offset).second = ((t.seconds + offset) % 60).toNat + t.nanos / 1000000000 := by
  simp only [fieldsOf, Instant.secondsPerDay]
  omega

/-- Date and time of day together count the seconds of local time. -/
lemma localSeconds_fieldsOf (t : Instant) (offset : Int) :
    (fieldsOf t offset).localSeconds =
      t.seconds + offset + (t.nanos / 1000000000 : Nat) := by
  simp only [Fields.localSeconds, fieldsOf, Calendar.Date.toDay_ofDay, Instant.secondsPerDay,
    Instant.epochDay]
  omega

lemma offset_fieldsOf (t : Instant) (offset : Int) :
    ((fieldsOf t offset).west = true ↔ offset < 0) ∧
      60 * (fieldsOf t offset).offsetMinutes ≤ offset.natAbs + 30 ∧
      offset.natAbs + 30 < 60 * (fieldsOf t offset).offsetMinutes + 60 := by
  have hwest : (fieldsOf t offset).west = decide (offset < 0) := rfl
  have hminutes : (fieldsOf t offset).offsetMinutes = (offset.natAbs + 30) / 60 := rfl
  exact ⟨by rw [hwest, decide_eq_true_eq], by omega, by omega⟩

lemma fieldsOf_fit (told : t.inRange = true) (valid : validOffset offset = true) :
    (fieldsOf t offset).Fit := by
  have hnanos := nanos_of_inRange told
  have hvalid := offset_of_valid valid
  obtain ⟨hhour, hminute, hsecond⟩ := time_fieldsOf t offset
  obtain ⟨-, hzone, -⟩ := offset_fieldsOf t offset
  exact ⟨Calendar.weekdayOf_lt _, Calendar.Date.ofDay_valid _, by omega, by omega, by omega,
    by omega⟩

theorem read?_record (told : t.inRange = true) (valid : validOffset offset = true) :
    read? (record t offset).toList = some (fieldsOf t offset) := by
  rw [record, String.toList_ofList, read?_render (fieldsOf_fit told valid)]

/-- What a timestamp tells of its instant. -/
structure Faithful (t : Instant) (offset : Int) : Prop where
  tag : Bytes.ofString "timestamp:" <+: Bytes.ofString (record t offset)
  /-- There is one delimiter in it, at its end. -/
  framed : IsRecord (Bytes.ofString (record t offset))
  /-- A buffer hands it out whole, whatever comes behind it. -/
  whole : ∀ rest, (RecordBuffer.empty.extend (Bytes.ofString (record t offset) ++ rest)).next? =
    some (Bytes.ofString (record t offset), ⟨rest⟩)
  /-- What is read from it is the local time, a leap second counting as one more, with the weekday
  of its date, and the offset to the nearest minute, half a minute away from zero. -/
  reads : t.inRange = true → validOffset offset = true →
    ∃ f, read? (record t offset).toList = some f ∧
      f.date.Valid ∧ f.hour < 24 ∧ f.minute < 60 ∧
      (t.nanos < 1000000000 → f.second < 60) ∧
      f.localSeconds = t.seconds + offset + (if t.nanos < 1000000000 then 0 else 1) ∧
      f.weekday = Calendar.weekdayOf f.date.toDay ∧
      (f.west = true ↔ offset < 0) ∧
      60 * f.offsetMinutes ≤ offset.natAbs + 30 ∧
      offset.natAbs + 30 < 60 * f.offsetMinutes + 60
  /-- Where offsets are whole minutes, others have other records. -/
  only : t.inRange = true → validOffset offset = true → 60 ∣ offset →
    ∀ t' offset', t'.inRange = true → validOffset offset' = true → 60 ∣ offset' →
      record t offset = record t' offset' →
      t.seconds = t'.seconds ∧ (1000000000 ≤ t.nanos ↔ 1000000000 ≤ t'.nanos) ∧
        offset = offset'

/-- Every timestamp begins with its tag and is one record, which a buffer hands out whole. What is
read from it is the local time, a leap second counting as one more, with the weekday of its date,
and the offset to the nearest minute, half a minute away from zero. Where offsets are whole minutes
no two instants in different seconds, and no two offsets, have the same record. -/
theorem record_faithful (t : Instant) (offset : Int) : Faithful t offset := by
  have hframed := isRecord t offset
  obtain ⟨hhour, hminute, hsecond⟩ := time_fieldsOf t offset
  have hseconds := localSeconds_fieldsOf t offset
  have hzone := offset_fieldsOf t offset
  refine {
    tag := tag_prefix_record t offset
    framed := hframed
    whole := fun rest => RecordBuffer.next?_eq_some.mpr ⟨hframed, rfl⟩
    reads := fun told valid => ?_
    only := ?_ }
  · have hnanos := nanos_of_inRange told
    refine ⟨fieldsOf t offset, read?_record told valid, Calendar.Date.ofDay_valid _, hhour, hminute,
      fun whole => ?_, ?_, ?_, hzone⟩
    · omega
    · rw [hseconds]
      split <;> omega
    · simp only [fieldsOf, Calendar.Date.toDay_ofDay]
  · intro told valid whole t' offset' told' valid' whole' same
    have hfields : fieldsOf t offset = fieldsOf t' offset' := by
      rw [← Option.some_inj, ← read?_record told valid, ← read?_record told' valid', same]
    have hnanos := nanos_of_inRange told
    have hnanos' := nanos_of_inRange told'
    obtain ⟨-, -, hsecond'⟩ := time_fieldsOf t' offset'
    have hseconds' := localSeconds_fieldsOf t' offset'
    have hzone' := offset_fieldsOf t' offset'
    rw [← hfields] at hsecond' hseconds' hzone'
    -- A whole minute of offset keeps the second of the minute, and only a leap second is the 60th.
    have hleap : (1000000000 ≤ t.nanos ↔ 1000000000 ≤ t'.nanos) := by omega
    have hoffset : offset = offset' := by
      have hsame := hzone.1.symm.trans hzone'.1
      omega
    exact ⟨by omega, hleap, hoffset⟩

/-- A leap second, which falls into the next year where the time is half past five ahead. -/
theorem record_faithful_leap_second :
    let t : Instant := { seconds := 1483228799, nanos := 1500000000 }
    let text := "timestamp:Sun, 01 Jan 2017 05:29:60 +0530\n"
    t.inRange = true ∧ validOffset 19800 = true ∧ record t 19800 = text ∧
    (RecordBuffer.empty.extend (Bytes.ofString text)).next? =
      some (Bytes.ofString text, .empty) ∧
    (∃ f, read? text.toList = some f ∧ f.date = ⟨2017, 1, 1⟩ ∧ f.weekday = 0 ∧
      f.localSeconds = 1483228799 + 19800 + 1) ∧
    ∀ t' offset', t'.inRange = true → validOffset offset' = true → 60 ∣ offset' →
      record t' offset' = text → t'.seconds = 1483228799 ∧ 1000000000 ≤ t'.nanos ∧
        offset' = 19800 := by
  intro t text
  have told : t.inRange = true := by decide
  have valid : validOffset 19800 = true := by decide
  have htext : record t 19800 = text := by decide
  have faithful := record_faithful t 19800
  have hnext := faithful.whole []
  obtain ⟨f, hread, -, -, -, -, hseconds, hweekday, -⟩ := faithful.reads told valid
  have honly := faithful.only told valid (by decide)
  rw [htext] at hnext hread honly
  have hfields : f = fieldsOf t 19800 := by
    rw [← Option.some_inj, ← hread, ← htext, read?_record told valid]
  refine ⟨told, valid, htext, ?_, ⟨f, hread, ?_, ?_, hseconds⟩, ?_⟩
  · rwa [List.append_nil] at hnext
  · rw [hfields]
    decide
  · rw [hweekday, hfields]
    decide
  · intro t' offset' told' valid' whole' same
    obtain ⟨h, hleap, hoffset⟩ := honly t' offset' told' valid' whole' same.symm
    exact ⟨h.symm, hleap.mp (by decide), hoffset.symm⟩

end RecordLog.Timestamp
