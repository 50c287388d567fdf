import RecordLog.LogLines
import RecordLog.Proofs.RecordBuffer
import RecordLog.Proofs.Text.Utf8
import RecordLog.Proofs.Timestamp.Reading

/-! A log read as lines. The lines make up the log, its records are lines as they are, and each of
them is counted. The timestamps among them that a clock has shown are known as such. -/
namespace RecordLog.LogLines

variable {content line : Bytes} {rs : List Bytes} {n : Nat}

lemma split_eq (content : Bytes) : split content =
    (records content).1 ++ if (records content).2 = [] then [] else [(records content).2] := by
  have hdrain : (RecordBuffer.empty.extend content).drain =
      ((records content).1, ⟨(records content).2⟩) := RecordBuffer.drain_eq _
  simp only [split, hdrain, RecordBuffer.size, List.length_eq_zero_iff]
  split <;> simp

/-- No octet of a log is lost or moved. -/
theorem split_flatten (content : Bytes) : (split content).flatten = content := by
  obtain ⟨hwhole, -, -⟩ := records_spec content
  rw [split_eq, List.flatten_append]
  split
  · rename_i hempty
    rw [hempty] at hwhole
    exact hwhole
  · rw [List.flatten_singleton]
    exact hwhole

/-- The records at the front of a log are its first lines. -/
theorem split_append (framed : ∀ r ∈ rs, IsRecord r) (rest : Bytes) :
    split (rs.flatten ++ rest) = rs ++ split rest := by
  rw [split_eq, split_eq, records_flatten framed, List.append_assoc]

lemma split_records (framed : ∀ r ∈ rs, IsRecord r) : split rs.flatten = rs := by
  have hempty : split [] = [] := by simp [split_eq, records]
  have h := split_append framed []
  rwa [List.append_nil, hempty, List.append_nil] at h

/-- Lines put in order of their octets. -/
def Ordered (lines : List Bytes) : Prop := lines.Pairwise fun a b => ¬ b < a

lemma ordered_mergeSort (lines : List Bytes) :
    Ordered (lines.mergeSort fun a b => !decide (b < a)) := by
  have htrans : ∀ a b c : Bytes, (!decide (b < a)) = true → (!decide (c < b)) = true →
      (!decide (c < a)) = true := by
    intro a b c hab hbc
    simp only [Bool.not_eq_true', decide_eq_false_iff_not, List.not_lt] at hab hbc ⊢
    exact List.le_trans hab hbc
  have htotal : ∀ a b : Bytes, ((!decide (b < a)) || !decide (a < b)) = true := by
    intro a b
    simp only [Bool.or_eq_true, Bool.not_eq_true', decide_eq_false_iff_not, List.not_lt]
    exact List.le_total a b
  exact (List.pairwise_mergeSort htrans htotal lines).imp fun h => by simpa using h

/-- The lines that a count stands for. -/
def spread (counts : List (Bytes × Nat)) : List Bytes :=
  counts.flatMap fun (line, n) => .replicate n line

lemma group_spread (lines : List Bytes) : spread (group lines) = lines := by
  induction lines with
  | nil => rfl
  | cons line rest ih =>
    rw [group]
    split
    · rename_i other n more hgroup
      rw [hgroup] at ih
      split
      · rename_i same
        subst same
        rw [← ih]
        simp [spread, List.replicate_succ]
      · rw [← ih]
        simp [spread]
    · rename_i hgroup
      rw [hgroup] at ih
      rw [← ih]
      simp [spread]

lemma group_pos {lines : List Bytes} : ∀ p ∈ group lines, p.1 ∈ lines ∧ 0 < p.2 := by
  induction lines with
  | nil => simp [group]
  | cons line rest ih =>
    intro p hp
    rw [group] at hp
    split at hp
    · rename_i other n more hgroup
      rw [hgroup] at ih
      split at hp
      · obtain rfl | hp := List.mem_cons.mp hp
        · exact ⟨List.mem_cons_self, Nat.succ_pos n⟩
        · obtain ⟨hmem, hpos⟩ := ih p (List.mem_cons_of_mem _ hp)
          exact ⟨List.mem_cons_of_mem _ hmem, hpos⟩
      · obtain rfl | hp := List.mem_cons.mp hp
        · exact ⟨List.mem_cons_self, Nat.one_pos⟩
        · obtain ⟨hmem, hpos⟩ := ih p hp
          exact ⟨List.mem_cons_of_mem _ hmem, hpos⟩
    · obtain rfl := List.mem_singleton.mp hp
      exact ⟨List.mem_cons_self, Nat.one_pos⟩

/-- Equal lines that stand together are in one group, so the groups have different lines. -/
lemma group_rising {lines : List Bytes} (ordered : Ordered lines) :
    (group lines).Pairwise (·.1 < ·.1) := by
  induction lines with
  | nil => simp [group]
  | cons line rest ih =>
    obtain ⟨hfirst, hrest⟩ := List.pairwise_cons.mp ordered
    have rising := ih hrest
    rw [group]
    split
    · rename_i other n more hgroup
      rw [hgroup] at rising
      obtain ⟨habove, hmore⟩ := List.pairwise_cons.mp rising
      split
      · rename_i same
        exact List.pairwise_cons.mpr ⟨fun p hp => same ▸ habove p hp, hmore⟩
      · rename_i differ
        have hother : other ∈ rest :=
          (group_pos (other, n) (hgroup ▸ List.mem_cons_self)).1
        have hless : line < other := by
          apply Classical.byContradiction
          intro hle
          exact differ (List.le_antisymm (List.not_lt.mp (hfirst other hother))
            (List.not_lt.mp hle))
        refine List.pairwise_cons.mpr ⟨fun p hp => ?_, rising⟩
        obtain rfl | hp := List.mem_cons.mp hp
        · exact hless
        · exact List.lt_trans hless (habove p hp)
    · exact List.pairwise_singleton _ _

lemma count_spread {counts : List (Bytes × Nat)} (rising : counts.Pairwise (·.1 < ·.1))
    (h : (line, n) ∈ counts) : (spread counts).count line = n := by
  induction counts with
  | nil => cases h
  | cons p counts ih =>
    obtain ⟨other, k⟩ := p
    obtain ⟨habove, hrest⟩ := List.pairwise_cons.mp rising
    have hspread : spread ((other, k) :: counts) = .replicate k other ++ spread counts := rfl
    rw [hspread, List.count_append, List.count_replicate]
    obtain heq | h := List.mem_cons.mp h
    · obtain ⟨rfl, rfl⟩ := Prod.mk.inj heq
      have hnone : (spread counts).count line = 0 := by
        rw [List.count_eq_zero]
        intro hmem
        obtain ⟨q, hq, hline⟩ := List.mem_flatMap.mp hmem
        obtain rfl := List.eq_of_mem_replicate hline
        exact List.lt_irrefl _ (habove q hq)
      simp [hnone]
    · have hne : other ≠ line := by
        rintro rfl
        exact List.lt_irrefl _ (habove (other, n) h)
      simp [hne, ih hrest h]

/-- The distinct lines of a log, in order, each with the number of times that it is there. -/
theorem tally_rising (content : Bytes) : (tally content).Pairwise (·.1 < ·.1) :=
  group_rising (ordered_mergeSort _)

theorem mem_tally : (line, n) ∈ tally content ↔ 0 < n ∧ (split content).count line = n := by
  have counted : ∀ {line n}, (line, n) ∈ tally content → (split content).count line = n := by
    intro line n h
    have hcount := count_spread (tally_rising content) h
    rw [tally, group_spread, (List.mergeSort_perm _ _).count_eq] at hcount
    exact hcount
  constructor
  · exact fun h => ⟨(group_pos _ h).2, counted h⟩
  · rintro ⟨hpos, rfl⟩
    have hmem : line ∈ (split content).mergeSort fun a b => !decide (b < a) :=
      (List.mergeSort_perm _ _).mem_iff.mpr (List.count_pos_iff.mp hpos)
    rw [← group_spread (List.mergeSort _ _)] at hmem
    obtain ⟨⟨found, k⟩, hfound, hline⟩ := List.mem_flatMap.mp hmem
    obtain rfl : line = found := List.eq_of_mem_replicate hline
    have hk : (line, k) ∈ tally content := hfound
    rwa [counted hk]

/-- A log of records falls into timestamps and what others have written, both in their order. -/
theorem timestamps_records (framed : ∀ r ∈ rs, IsRecord r) :
    timestamps rs.flatten = rs.filter isTimestamp := by
  rw [timestamps, split_records framed]

theorem others_records (framed : ∀ r ∈ rs, IsRecord r) :
    others rs.flatten = (rs.filter (!isTimestamp ·)).flatten := by
  rw [others, split_records framed]

/-- What a clock shows is a timestamp. -/
lemma isTimestamp_record (c : Clock) : isTimestamp (Bytes.ofString c.record) = true := by
  have htag : String.ofList Timestamp.tag = "timestamp:" := String.ofList_toList
  rw [isTimestamp, htag, List.isPrefixOf_iff_prefix]
  exact Timestamp.tag_prefix_record c.instant c.offset

/-- What a clock has shown counts as a timestamp of its own from then on. -/
theorem isFaithful_record {c later : Clock} (told : c.instant.inRange = true)
    (valid : Timestamp.validOffset c.offset = true) (origin : later.origin = c.origin)
    (offset : later.offset = c.offset) (after : c.now ≤ later.now) :
    isFaithful later (Bytes.ofString c.record) = true := by
  have hread : Timestamp.read? c.record.toList = some (Timestamp.fieldsOf c.instant c.offset) :=
    Timestamp.read?_record told valid
  have hseconds := Timestamp.localSeconds_fieldsOf c.instant c.offset
  have hrender : String.ofList (Timestamp.fieldsOf c.instant c.offset).render = c.record := rfl
  have hnanos : c.instant.nanos / 1000000000 = 0 :=
    Nat.div_eq_of_lt (Nat.mod_lt _ (by decide))
  have hpast : c.now / 1000000000 ≤ later.now / 1000000000 := Nat.div_le_div_right after
  have hthen : c.instant.seconds = c.origin + (c.now / 1000000000 : Nat) := rfl
  have hnow : later.instant.seconds = later.origin + (later.now / 1000000000 : Nat) := rfl
  simp only [isFaithful, Utf8.decode?_ofString, Option.bind_some, hread, hrender, hseconds, hnanos,
    offset, decide_true, Bool.true_and, Bool.and_eq_true, decide_eq_true_eq]
  omega

end RecordLog.LogLines
