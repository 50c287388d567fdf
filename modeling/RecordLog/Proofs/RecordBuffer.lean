import RecordLog.Proofs.Framing

/-! A buffer in use. Octets go in and records are taken out, in any order and cut up in any way. The
records handed out are always the first ones of the stream, and the rest of the stream is held. -/
namespace RecordLog.RecordBuffer

/-- The first complete record, which leaves the buffer, or nothing, which changes nothing. -/
def take (b : RecordBuffer) : Option Bytes × RecordBuffer :=
  match b.next? with
  | none => (none, b)
  | some (record, rest) => (some record, rest)

inductive Use
  | extend (received : Bytes)
  | take
  deriving DecidableEq, Repr

/-- The octets that go in with these uses. -/
def received (uses : List Use) : Bytes :=
  uses.flatMap fun
    | .extend bytes => bytes
    | .take => []

/-- A buffer with the answers it has given, oldest first. -/
structure Session where
  buffer : RecordBuffer := .empty
  answers : List (Option Bytes) := []
  deriving DecidableEq, Repr

namespace Session

def step (s : Session) : Use → Session
  | .extend bytes => { s with buffer := s.buffer.extend bytes }
  | .take =>
    let (answer, buffer) := s.buffer.take
    { buffer, answers := s.answers ++ [answer] }

def run (s : Session) (uses : List Use) : Session := uses.foldl step s

/-- The records handed out. -/
def found (s : Session) : List Bytes := s.answers.filterMap id

/-- Nothing of the stream is lost, and what was handed out are records. -/
structure Accounts (stream : Bytes) (s : Session) : Prop where
  whole : s.found.flatten ++ s.buffer.bytes = stream
  framed : ∀ record ∈ s.found, IsRecord record

end Session

theorem take_eq_none {b : RecordBuffer} : b.take.1 = none ↔ delimiter ∉ b.bytes := by
  rw [← next?_eq_none, take]
  cases b.next? <;> simp

/-- A buffer that has no record to give stays as it is. -/
theorem take_of_none {b : RecordBuffer} (h : b.take.1 = none) : b.take.2 = b := by
  unfold take at h ⊢
  split at h
  · rfl
  · cases h

/-- A record that is taken was at the front. -/
theorem take_eq_some {b : RecordBuffer} {record : Bytes} (h : b.take.1 = some record) :
    IsRecord record ∧ b.bytes = record ++ b.take.2.bytes := by
  unfold take at h ⊢
  split at h
  · cases h
  · rename_i found rest hnext
    obtain rfl := Option.some.inj h
    exact next?_eq_some.mp hnext

theorem drain_go (b : RecordBuffer) (found : List Bytes) :
    drain.go found b = (found.reverse ++ (records b.bytes).1, ⟨(records b.bytes).2⟩) := by
  induction found, b using drain.go.induct with
  | case1 found b hnone =>
    rw [drain.go]
    split
    · rw [records_of_not_mem (next?_eq_none.mp hnone), List.append_nil]
    · simp_all
  | case2 found b record rest hsome hless ih =>
    obtain ⟨hrecord, hbytes⟩ := next?_eq_some.mp hsome
    rw [drain.go]
    split
    · simp_all
    · rename_i hsome'
      obtain ⟨rfl, rfl⟩ := Prod.mk.inj (Option.some.inj (hsome.symm.trans hsome'))
      rw [ih, hbytes, records_record_append hrecord, List.reverse_cons, List.append_assoc]
      rfl

/-- Draining cuts what is held after each delimiter. -/
theorem drain_eq (b : RecordBuffer) :
    b.drain = ((records b.bytes).1, ⟨(records b.bytes).2⟩) := by
  rw [drain, drain_go, List.reverse_nil, List.nil_append]

namespace Session

variable {s : Session} {stream : Bytes}

lemma Accounts.step (h : Accounts stream s) (u : Use) :
    Accounts (stream ++ received [u]) (s.step u) := by
  cases u with
  | extend bytes =>
    refine ⟨?_, h.framed⟩
    have hin : received [.extend bytes] = bytes := List.append_nil bytes
    rw [hin, ← h.whole, List.append_assoc]
    rfl
  | take =>
    have hin : stream ++ received [.take] = stream := List.append_nil stream
    have hfound : (s.step .take).found = s.found ++ s.buffer.take.1.toList := by
      simp only [found, Session.step, List.filterMap_append]
      cases s.buffer.take.1 <;> rfl
    rw [hin]
    cases htake : s.buffer.take.1 with
    | none =>
      have hkeep : (s.step .take).buffer = s.buffer := take_of_none htake
      rw [htake, Option.toList_none, List.append_nil] at hfound
      exact ⟨by rw [hfound, hkeep, h.whole], by rw [hfound]; exact h.framed⟩
    | some record =>
      obtain ⟨hrecord, hbytes⟩ := take_eq_some htake
      rw [htake, Option.toList_some] at hfound
      constructor
      · rw [hfound, List.flatten_append, List.flatten_singleton, List.append_assoc, ← h.whole,
          hbytes]
        rfl
      · rw [hfound, List.forall_mem_append, List.forall_mem_singleton]
        exact ⟨h.framed, hrecord⟩

lemma Accounts.run (h : Accounts stream s) (uses : List Use) :
    Accounts (stream ++ received uses) (s.run uses) := by
  induction uses generalizing s stream with
  | nil => rwa [received, List.flatMap_nil, List.append_nil]
  | cons u uses ih =>
    have hsplit : received (u :: uses) = received [u] ++ received uses := by
      simp only [received, List.flatMap_cons, List.flatMap_nil, List.append_nil]
    rw [hsplit, ← List.append_assoc]
    exact ih (h.step u)

/-- The records handed out and those still held are the records of the stream. -/
lemma Accounts.records_eq (h : Accounts stream s) :
    records stream = (s.found ++ (records s.buffer.bytes).1, (records s.buffer.bytes).2) := by
  rw [← h.whole, records_flatten h.framed]

end Session

/-- Whatever goes into a new buffer, and whenever a record is asked for: the records handed out and
the octets held make up what went in, every record has one delimiter, at its end, and only a buffer
without a delimiter has no record to give, and stays as it is. Draining then completes the cutting
of the whole stream after each of its delimiters, however the stream came in and whatever was taken
before; a buffer that has no record to give has drained already. -/
theorem framing_in_any_order (uses : List Use) :
    let s := Session.run {} uses
    s.found.flatten ++ s.buffer.bytes = received uses ∧
    (∀ record ∈ s.found, IsRecord record) ∧
    (s.buffer.take.1 = none ↔ delimiter ∉ s.buffer.bytes) ∧
    (s.buffer.take.1 = none → s.buffer.take.2 = s.buffer) ∧
    s.found.flatten.length ≤ (received uses).length ∧
    s.buffer.size = (received uses).length - s.found.flatten.length ∧
    records (received uses) = (s.found ++ s.buffer.drain.1, s.buffer.drain.2.bytes) ∧
    (s.buffer.take.1 = none → records (received uses) = (s.found, s.buffer.bytes)) := by
  intro s
  have start : Session.Accounts [] {} := ⟨rfl, by simp [Session.found]⟩
  have h : Session.Accounts (received uses) s := start.run uses
  have hlength : s.found.flatten.length + s.buffer.size = (received uses).length := by
    rw [← h.whole, List.length_append]
    rfl
  refine ⟨h.whole, h.framed, take_eq_none, take_of_none, by omega, by omega, ?_, fun hnone => ?_⟩
  · rw [h.records_eq, drain_eq]
  · rw [h.records_eq, records_of_not_mem (take_eq_none.mp hnone), List.append_nil]

/-- The same stream in pieces, with a piece that is empty and records asked for in between. -/
example :
    Session.run {} [.extend [97], .take, .extend [10, 10, 98], .take, .extend [], .take, .take] =
      { buffer := ⟨[98]⟩, answers := [none, some [97, 10], some [10], none] } := by
  decide

end RecordLog.RecordBuffer
