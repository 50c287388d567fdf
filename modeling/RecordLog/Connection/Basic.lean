import RecordLog.RecordBuffer
import RecordLog.IoError
import RecordLog.Journal

/-! Serving one connection, as a machine that asks and is answered. It looks at the shutdown flag,
receives, cuts records off its buffer, and for each record looks at the flag again, appends the
record, reads the log back and sends all of it. Every question goes to the surroundings, which may
answer as they like; the machine alone decides what comes next. -/
namespace RecordLog

/-- Why a connection was given up. -/
inductive ConnectionError
  | receive (cause : IoError)
  | append (cause : IoError)
  | readBack (cause : IoError)
  | send (cause : IoError)
  deriving DecidableEq, Repr

namespace ConnectionError

def cause : ConnectionError → IoError
  | receive e | append e | readBack e | send e => e

def message : ConnectionError → String
  | receive e => s!"Failed to receive data: {e.message}"
  | append e => s!"Failed to append record: {e.message}"
  | readBack e => s!"Failed to read log: {e.message}"
  | send e => s!"Failed to send data: {e.message}"

end ConnectionError

namespace Connection

/-- How serving came to its end. -/
inductive Ending
  | peerClosed
  | shutdownBeforeReceive
  | shutdownBetweenRecords
  | failed (error : ConnectionError)
  deriving DecidableEq, Repr

/-- The coarse state shown to observers. -/
inductive Status
  | receiving | appending | echoing | closed
  deriving DecidableEq, Repr

/-- What the machine waits for. A record under way has already left the buffer. -/
inductive Phase
  | polling
  | receiving
  /-- The look at the flag before a record keeps the status that the phase before it has. -/
  | vetting (record : Bytes) (kept : Status)
  | appending (record : Bytes)
  | readingBack (record : Bytes)
  /-- `left` is the part of `content` that the peer has not taken yet. -/
  | sending (record content left : Bytes)
  | closed (ending : Ending)
  deriving DecidableEq, Repr

def Phase.status : Phase → Status
  | polling | receiving => .receiving
  | vetting _ kept => kept
  | appending _ => .appending
  | readingBack _ | sending .. => .echoing
  | closed _ => .closed

inductive Request
  | readFlag
  | receive (limit : Nat)
  | append (record : Bytes)
  | readBack
  | send (bytes : Bytes)
  deriving DecidableEq, Repr

inductive Reply
  | flag (set : Bool)
  | received (result : Except IoError Bytes)
  | appended (result : Except IoError Unit)
  | content (result : Except IoError Bytes)
  | accepted (result : Except IoError Nat)

/-- The most octets taken by one receive. -/
def receiveLimit : Nat := 1024

/-- The question a phase asks; a closed connection asks nothing. -/
def Phase.request? : Phase → Option Request
  | polling | vetting .. => some .readFlag
  | receiving => some (.receive receiveLimit)
  | appending record => some (.append record)
  | readingBack _ => some .readBack
  | sending _ _ left => some (.send left)
  | closed _ => none

end Connection

structure Connection where
  id : Nat
  buffer : RecordBuffer := {}
  /-- Records appended and echoed in full. -/
  records : Nat := 0
  phase : Connection.Phase := .polling
  deriving DecidableEq, Repr

namespace Connection

def moveTo (c : Connection) (phase : Phase) : Connection := { c with phase }

/-- Takes up the next complete record, or goes back to receiving. -/
def proceed (c : Connection) : Connection :=
  match c.buffer.next? with
  | some (record, buffer) => { c with buffer, phase := .vetting record c.phase.status }
  | none => c.moveTo .polling

/-- The record under way has been echoed in full. -/
def finishRecord (c : Connection) : Connection := { c with records := c.records + 1 }.proceed

/-- Goes on sending, or finishes the record when the peer has everything. -/
def sendRest (c : Connection) (record content : Bytes) : Bytes → Connection
  | [] => c.finishRecord
  | left => c.moveTo (.sending record content left)

/-- The machine after an answer, or `none` if nobody asked for it. Interrupted calls are made
again: a receive after another look at the flag, a send at once. -/
def resume? (c : Connection) (reply : Reply) : Option Connection :=
  match c.phase, reply with
  | .polling, .flag set =>
    some (c.moveTo (if set then .closed .shutdownBeforeReceive else .receiving))
  | .receiving, .received (.ok []) => some (c.moveTo (.closed .peerClosed))
  | .receiving, .received (.ok bytes) => some { c with buffer := c.buffer.extend bytes }.proceed
  | .receiving, .received (.error e) =>
    some (c.moveTo (if e.isInterrupted then .polling else .closed (.failed (.receive e))))
  | .vetting record _, .flag set =>
    some (c.moveTo (if set then .closed .shutdownBetweenRecords else .appending record))
  | .appending record, .appended (.ok ()) => some (c.moveTo (.readingBack record))
  | .appending _, .appended (.error e) => some (c.moveTo (.closed (.failed (.append e))))
  | .readingBack record, .content (.ok content) => some (c.sendRest record content content)
  | .readingBack _, .content (.error e) => some (c.moveTo (.closed (.failed (.readBack e))))
  | .sending .., .accepted (.ok 0) => some (c.moveTo (.closed (.failed (.send .shortWrite))))
  | .sending record content left, .accepted (.ok n) =>
    some (c.sendRest record content (left.drop n))
  | .sending .., .accepted (.error e) =>
    some (if e.isInterrupted then c else c.moveTo (.closed (.failed (.send e))))
  | _, _ => none

/-- The same connection ready to be served again. -/
def reopened (c : Connection) : Connection := c.moveTo .polling

def pending (c : Connection) : Nat := c.buffer.size

def ending? (c : Connection) : Option Ending :=
  match c.phase with
  | .closed ending => some ending
  | _ => none

/-- A question and its answer. -/
structure Exchange where
  request : Request
  reply : Reply

/-- A connection taken through a list of exchanges, each answering the question then open. -/
def replay? (c : Connection) : List Exchange → Option Connection
  | [] => some c
  | x :: xs => do
    if c.phase.request? = some x.request then (← c.resume? x.reply).replay? xs else none

namespace Exchange

/-- Octets the peer took in this exchange. -/
def sent : Exchange → Bytes
  | ⟨.send bytes, .accepted (.ok n)⟩ => bytes.take n
  | _ => []

/-- Octets that came from the peer in this exchange. -/
def delivered : Exchange → Bytes
  | ⟨_, .received (.ok bytes)⟩ => bytes
  | _ => []

end Exchange

/-- Every receive with the number of octets sent before it, where so many were `sent` before. -/
def receivesAfter (sent : Nat) : List Exchange → List (Nat × Except IoError Bytes)
  | [] => []
  | x :: xs =>
    match x.reply with
    | .received result => (sent, result) :: receivesAfter sent xs
    | _ => receivesAfter (sent + x.sent.length) xs

def receives (trace : List Exchange) : List (Nat × Except IoError Bytes) := receivesAfter 0 trace

def event (c : Connection) (message : String) (fields : List (String × String)) : Event where
  level := .trace
  target := "echolog::runtime::connection"
  message := message
  fields := ("conn_id", toString c.id) :: fields

/-- What is reported when `before` becomes `after`. -/
def events (before after : Connection) : List Event :=
  let processed (record content : Bytes) :=
    if before.records < after.records then
      [before.event "Record processed"
        [("record_len", toString record.length), ("echoed", toString content.length)]]
    else []
  match before.phase, after.phase with
  | .polling, .closed _ => [before.event "Shutdown requested before receive" []]
  | .receiving, .closed .peerClosed => [before.event "Connection closed by peer" []]
  | .vetting .., .closed _ => [before.event "Shutdown requested between records" []]
  | .readingBack record, _ => processed record []
  | .sending record content _, _ => processed record content
  | _, _ => []

end Connection

end RecordLog
