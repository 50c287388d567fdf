import RecordLog.Bytes

/-! Reassembly of records. Received octets pile up in a buffer and leave it as records, each
ending with its only delimiter. -/
namespace RecordLog

/-- The line feed that ends every record. -/
def delimiter : UInt8 := 10

/-- The first record of a byte string and what follows it. -/
def cutRecord? (bs : Bytes) : Option (Bytes × Bytes) :=
  match bs.dropWhile (· != delimiter) with
  | [] => none
  | d :: rest => some (bs.takeWhile (· != delimiter) ++ [d], rest)

theorem cutRecord?_eq_none {bs : Bytes} : cutRecord? bs = none ↔ delimiter ∉ bs := by
  have key : bs.dropWhile (· != delimiter) = [] ↔ delimiter ∉ bs := by
    induction bs with
    | nil => simp
    | cons b bs ih =>
      by_cases h : b = delimiter
      · simp [h]
      · simp [h, ih, Ne.symm h]
  unfold cutRecord?
  cases h : bs.dropWhile (· != delimiter) <;> simp_all

/-- Cutting loses nothing. -/
theorem cutRecord?_append {bs record rest : Bytes} (h : cutRecord? bs = some (record, rest)) :
    record ++ rest = bs := by
  have whole := List.takeWhile_append_dropWhile (p := (· != delimiter)) (l := bs)
  unfold cutRecord? at h
  split at h
  · simp at h
  · rename_i d r hd
    rw [hd] at whole
    simp only [Option.some.injEq, Prod.mk.injEq] at h
    rw [← h.1, ← h.2, List.append_assoc]
    exact whole

/-- A record has one delimiter, its last octet. -/
theorem cutRecord?_record {bs record rest : Bytes} (h : cutRecord? bs = some (record, rest)) :
    ∃ body, record = body ++ [delimiter] ∧ delimiter ∉ body := by
  unfold cutRecord? at h
  split at h
  · simp at h
  · rename_i d r hd
    have hne : bs.dropWhile (· != delimiter) ≠ [] := by simp [hd]
    have hh := List.head_dropWhile_not (· != delimiter) hne
    simp only [hd, List.head_cons, bne_eq_false_iff_eq] at hh
    simp only [Option.some.injEq, Prod.mk.injEq] at h
    refine ⟨bs.takeWhile (· != delimiter), by rw [← h.1, hh], fun hmem => ?_⟩
    have := List.all_eq_true.mp (List.all_takeWhile (p := (· != delimiter)) (l := bs)) _ hmem
    simp at this

theorem cutRecord?_shorter {bs record rest : Bytes} (h : cutRecord? bs = some (record, rest)) :
    rest.length < bs.length := by
  obtain ⟨body, rfl, -⟩ := cutRecord?_record h
  rw [← cutRecord?_append h]
  simp only [List.length_append, List.length_cons, List.length_nil]
  omega

/-- Octets received and not yet handed out. -/
structure RecordBuffer where
  bytes : Bytes := []
  deriving DecidableEq, Repr

namespace RecordBuffer

def empty : RecordBuffer := {}

def extend (b : RecordBuffer) (received : Bytes) : RecordBuffer := ⟨b.bytes ++ received⟩

/-- The first complete record and the buffer without it. -/
def next? (b : RecordBuffer) : Option (Bytes × RecordBuffer) :=
  (cutRecord? b.bytes).map fun (record, rest) => (record, ⟨rest⟩)

/-- Octets held, complete records included. -/
def size (b : RecordBuffer) : Nat := b.bytes.length

theorem next?_size {b b' : RecordBuffer} {record : Bytes} (h : b.next? = some (record, b')) :
    b'.size < b.size := by
  simp only [next?, Option.map_eq_some_iff, Prod.mk.injEq] at h
  obtain ⟨⟨r, rest⟩, hcut, -, rfl⟩ := h
  exact cutRecord?_shorter hcut

/-- All complete records in order, and the unfinished rest. -/
def drain (b : RecordBuffer) : List Bytes × RecordBuffer := go [] b
where
  go (found : List Bytes) (b : RecordBuffer) : List Bytes × RecordBuffer :=
    match h : b.next? with
    | none => (found.reverse, b)
    | some (record, b') =>
      have := next?_size h
      go (record :: found) b'
  termination_by b.size

end RecordBuffer

/-- A stream cut after each delimiter: its records and the unfinished tail. -/
def records : Bytes → List Bytes × Bytes
  | [] => ([], [])
  | b :: bs =>
    match records bs with
    | (rs, tail) =>
      if b = delimiter then ([b] :: rs, tail)
      else match rs with
        | [] => ([], b :: tail)
        | r :: rs => ((b :: r) :: rs, tail)

end RecordLog
