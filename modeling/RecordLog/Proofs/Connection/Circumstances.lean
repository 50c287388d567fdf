import RecordLog.Proofs.Connection.ClosedForm

/-! What is fixed while a connection is served, and what is open. Fixed are the octets that come,
how they end and where calls fail; open are the sizes of receives and sends and their interruptions.
What is fixed alone says how records that are dealt with one at a time come out. -/
namespace RecordLog.Connection

/-- What is fixed while a connection is served. Nobody sets the flag or writes to the log. -/
structure Circumstances where
  /-- The content of the log before. -/
  log : Bytes := []
  /-- All octets that the peer sends. -/
  stream : Bytes
  /-- The error that receiving ends with after the stream; without one the peer closes. -/
  broken : Option IoError := none
  /-- The error of an append, by the number of records appended before it. -/
  appendFault : Nat → Option IoError := fun _ => none
  /-- The error of a read-back, by the number of contents read back before it. -/
  readBackFault : Nat → Option IoError := fun _ => none
  /-- How many octets the peer takes in all, and the error that any more end in; without an error no
  more are taken. -/
  sendFault : Option (Nat × Option IoError) := none

/-- All that serving leaves behind, apart from the buffer. -/
structure Outcome where
  ending : Ending
  /-- Records added to the log. -/
  appended : List Bytes
  /-- How many of them were echoed in full. -/
  echoed : Nat
  sent : Bytes
  deriving DecidableEq, Repr

namespace Circumstances

/-- The log after the exchanges `made`. -/
def logAfter (k : Circumstances) (made : List Exchange) : Bytes :=
  k.log ++ (recordsAppended made).flatten

/-- The exchanges that can follow those `made`. Whatever is received goes on with the stream, and
the peer never takes an octet past the one where sending fails. -/
inductive Allows (k : Circumstances) (made : List Exchange) : Exchange → Prop
  | unset : Allows k made ⟨.readFlag, .flag false⟩
  | receive {limit : Nat} {bytes : Bytes} (more : bytes ≠ []) (short : bytes.length ≤ limit)
    (next : octetsReceived made ++ bytes <+: k.stream) :
    Allows k made ⟨.receive limit, .received (.ok bytes)⟩
  | peerClosed {limit : Nat} (all : octetsReceived made = k.stream) (whole : k.broken = none) :
    Allows k made ⟨.receive limit, .received (.ok [])⟩
  | receiveFailed {limit : Nat} {e : IoError} (all : octetsReceived made = k.stream)
    (broken : k.broken = some e) : Allows k made ⟨.receive limit, .received (.error e)⟩
  | receiveInterrupted {limit : Nat} {e : IoError} (again : e.isInterrupted) :
    Allows k made ⟨.receive limit, .received (.error e)⟩
  | append {r : Bytes} (sound : k.appendFault (recordsAppended made).length = none) :
    Allows k made ⟨.append r, .appended (.ok ())⟩
  | appendFailed {r : Bytes} {e : IoError}
    (fault : k.appendFault (recordsAppended made).length = some e) :
    Allows k made ⟨.append r, .appended (.error e)⟩
  | readBack (sound : k.readBackFault (readBacks made).length = none) :
    Allows k made ⟨.readBack, .content (.ok (k.logAfter made))⟩
  | readBackFailed {e : IoError} (fault : k.readBackFault (readBacks made).length = some e) :
    Allows k made ⟨.readBack, .content (.error e)⟩
  | send {bytes : Bytes} {n : Nat} (more : n ≠ 0) (short : n ≤ bytes.length)
    (room : ∀ w e, k.sendFault = some (w, e) → (octetsSent made).length + n ≤ w) :
    Allows k made ⟨.send bytes, .accepted (.ok n)⟩
  | refused {bytes : Bytes} (fault : k.sendFault = some ((octetsSent made).length, none)) :
    Allows k made ⟨.send bytes, .accepted (.ok 0)⟩
  | sendFailed {bytes : Bytes} {e : IoError}
    (fault : k.sendFault = some ((octetsSent made).length, some e)) :
    Allows k made ⟨.send bytes, .accepted (.error e)⟩
  | sendInterrupted {bytes : Bytes} {e : IoError} (again : e.isInterrupted) :
    Allows k made ⟨.send bytes, .accepted (.error e)⟩

/-- Each exchange is allowed after those `made` and the ones before it. -/
def AllowsAll (k : Circumstances) (made : List Exchange) : List Exchange → Prop
  | [] => True
  | x :: xs => k.Allows made x ∧ k.AllowsAll (made ++ [x]) xs

/-- A run of the connection `start` to its end. -/
structure Run (k : Circumstances) (start : Connection) (trace : List Exchange) (c : Connection)
    (ending : Ending) : Prop where
  replay : start.reopened.replay? trace = some c
  ended : c.ending? = some ending
  allowed : k.AllowsAll [] trace

/-- The echoes of the records `done`, one after another. -/
def echoes (k : Circumstances) (done : List Bytes) : Bytes := (growth k.log done).flatten

/-- Where and how sending `n` octets in all fails, if it does. -/
def overflow? (k : Circumstances) (n : Nat) : Option (Nat × IoError) :=
  match k.sendFault with
  | some (w, e) => if w < n then some (w, e.getD .shortWrite) else none
  | none => none

/-- Deals with the records `todo` one at a time, those `done` having been appended and echoed. -/
def settle (k : Circumstances) (done : List Bytes) : List Bytes → Outcome
  | [] => ⟨k.broken.elim .peerClosed (.failed ∘ .receive), done, done.length, k.echoes done⟩
  | r :: todo =>
    match k.appendFault done.length with
    | some e => ⟨.failed (.append e), done, done.length, k.echoes done⟩
    | none =>
      match k.readBackFault done.length with
      | some e => ⟨.failed (.readBack e), done ++ [r], done.length, k.echoes done⟩
      | none =>
        match k.overflow? (k.echoes (done ++ [r])).length with
        | some (w, e) =>
          ⟨.failed (.send e), done ++ [r], done.length, (k.echoes (done ++ [r])).take w⟩
        | none => k.settle (done ++ [r]) todo

/-- The records to be dealt with, and the octets left after them. What is buffered is looked at only
when something has been received. -/
def tasks (k : Circumstances) (b : RecordBuffer) : List Bytes × Bytes :=
  if k.stream = [] then ([], b.bytes) else RecordLog.records (b.bytes ++ k.stream)

/-- All records `done` go through without a failure. -/
def Clear (k : Circumstances) (done : List Bytes) : Prop :=
  ∀ todo, k.settle [] (done ++ todo) = k.settle done todo

lemma allowsAll_append {k : Circumstances} {made xs ys : List Exchange} :
    k.AllowsAll made (xs ++ ys) ↔ k.AllowsAll made xs ∧ k.AllowsAll (made ++ xs) ys := by
  induction xs generalizing made with
  | nil => simp [AllowsAll]
  | cons x xs ih => simp [AllowsAll, ih, and_assoc]

lemma echoes_snoc (k : Circumstances) (done : List Bytes) (r : Bytes) :
    k.echoes (done ++ [r]) = k.echoes done ++ (k.log ++ (done ++ [r]).flatten) := by
  simp [echoes, growth_snoc]

lemma clear_nil (k : Circumstances) : k.Clear [] := fun _ => rfl

lemma Clear.snoc {k : Circumstances} {done : List Bytes} {r : Bytes} (h : k.Clear done)
    (append : k.appendFault done.length = none) (readBack : k.readBackFault done.length = none)
    (room : k.overflow? (k.echoes (done ++ [r])).length = none) : k.Clear (done ++ [r]) := by
  intro todo
  rw [List.append_assoc, List.singleton_append, h (r :: todo)]
  simp only [settle, append, readBack, room]

end Circumstances

end RecordLog.Connection
