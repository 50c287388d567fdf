import RecordLog.Proofs.Connection.Trace
import RecordLog.Proofs.Framing

/-! Where the octets of a connection go. An account is kept along a run: what was buffered and what
came in is what was appended, what is in hand and what is buffered still, and what was sent are the
contents read back, the last one perhaps in part. -/
namespace RecordLog.Connection

namespace Ending

/-- A record had left the buffer and was not appended. -/
def DropsRecord : Ending → Prop
  | failed (.append _) | shutdownBetweenRecords => True
  | _ => False

/-- Records appended and not counted. -/
def uncounted : Ending → Nat
  | failed (.readBack _) | failed (.send _) => 1
  | _ => 0

/-- The contents read back that were not sent in full, with the octets sent of them. -/
def Unsent : Ending → List Bytes → Bytes → Prop
  | failed (.send _), contents, part =>
    ∃ content, contents = [content] ∧ part <+: content ∧ part ≠ content
  | _, contents, part => contents = [] ∧ part = []

end Ending

namespace Phase

/-- The octets that have left the buffer and are not in the log. -/
def InHand : Phase → Bytes → Prop
  | vetting r _, held | appending r, held => held = r ∧ IsRecord r
  | closed ending, held => (held = [] ∨ IsRecord held) ∧ (held ≠ [] ↔ ending.DropsRecord)
  | _, held => held = []

/-- Records appended and not yet counted. -/
def uncounted : Phase → Nat
  | readingBack _ | sending .. => 1
  | closed ending => ending.uncounted
  | _ => 0

/-- The contents read back and not sent in full, with the octets sent of them. -/
def Unsent : Phase → List Bytes → Bytes → Prop
  | sending _ content left, contents, part =>
    contents = [content] ∧ content = part ++ left ∧ left ≠ []
  | closed ending, contents, part => ending.Unsent contents part
  | _, contents, part => contents = [] ∧ part = []

end Phase

/-- What has become of the octets of a connection that was `start` before the exchanges `made`. -/
structure Account (start : Connection) (made : List Exchange) (c : Connection) : Prop where
  octets : ∃ held, c.phase.InHand held ∧
    start.buffer.bytes ++ octetsReceived made
      = (recordsAppended made).flatten ++ held ++ c.buffer.bytes
  framed : ∀ r ∈ recordsAppended made, IsRecord r
  counted : c.records + c.phase.uncounted = start.records + (recordsAppended made).length
  echoes : ∃ echoed contents part, c.phase.Unsent contents part ∧
    readBacks made = echoed ++ contents ∧ c.records = start.records + echoed.length ∧
    octetsSent made = echoed.flatten ++ part

/-- An exchange that moves no octet and settles no record. -/
def Exchange.Quiet (x : Exchange) : Prop :=
  x.delivered = [] ∧ x.sent = [] ∧ x.appended? = none ∧ x.readBack? = none

section Snoc
variable (made : List Exchange) (x : Exchange)

@[simp] lemma octetsReceived_snoc :
    octetsReceived (made ++ [x]) = octetsReceived made ++ x.delivered := by
  simp [octetsReceived]

@[simp] lemma octetsSent_snoc : octetsSent (made ++ [x]) = octetsSent made ++ x.sent := by
  simp [octetsSent]

@[simp] lemma recordsAppended_snoc :
    recordsAppended (made ++ [x]) = recordsAppended made ++ x.appended?.toList := by
  simp [recordsAppended, List.filterMap_cons]
  cases x.appended? <;> rfl

@[simp] lemma readBacks_snoc : readBacks (made ++ [x]) = readBacks made ++ x.readBack?.toList := by
  simp [readBacks, List.filterMap_cons]
  cases x.readBack? <;> rfl

end Snoc

namespace Account

variable {start c : Connection} {made : List Exchange} {x : Exchange}

lemma reopened (c : Connection) : Account c [] c.reopened where
  octets := ⟨[], rfl, by simp [octetsReceived, recordsAppended]⟩
  framed := by simp [recordsAppended]
  counted := by simp [Phase.uncounted, recordsAppended]
  echoes := ⟨[], [], [], ⟨rfl, rfl⟩, rfl, rfl, rfl⟩

/-- A change of phase alone. -/
lemma quiet (h : Account start made c) (hx : x.Quiet) {phase : Phase}
    (hand : ∀ held, c.phase.InHand held → phase.InHand held)
    (hcount : phase.uncounted = c.phase.uncounted)
    (unsent : ∀ contents part, c.phase.Unsent contents part → phase.Unsent contents part) :
    Account start (made ++ [x]) (c.moveTo phase) := by
  obtain ⟨hrecv, hsent, happ, hread⟩ := hx
  obtain ⟨held, hheld, hsum⟩ := h.octets
  obtain ⟨echoed, contents, part, hunsent, hreads, hrecords, hsends⟩ := h.echoes
  refine ⟨⟨held, hand held hheld, ?_⟩, ?_, ?_, echoed, contents, part, unsent _ _ hunsent, ?_,
    hrecords, ?_⟩
  · simpa [hrecv, happ] using hsum
  · simpa [happ] using h.framed
  · simpa [happ, hcount] using h.counted
  · simpa [hread] using hreads
  · simpa [hsent] using hsends

/-- Going on to the next record takes it from the buffer into the hand. -/
lemma proceed (h : Account start made (c.moveTo .polling)) : Account start made c.proceed := by
  unfold Connection.proceed
  split
  · rename_i r buffer hnext
    obtain ⟨hr, hbytes⟩ := RecordBuffer.next?_eq_some.mp hnext
    obtain ⟨held, rfl, hsum⟩ := h.octets
    refine ⟨⟨r, ⟨rfl, hr⟩, ?_⟩, h.framed, h.counted, h.echoes⟩
    simpa [hbytes] using hsum
  · exact h

/-- The part of an echo that is left is sent on, or the record is counted. -/
lemma sendRest {r content left : Bytes} (echoed : List Bytes) (part : Bytes)
    (octets : start.buffer.bytes ++ octetsReceived made
      = (recordsAppended made).flatten ++ c.buffer.bytes)
    (framed : ∀ r ∈ recordsAppended made, IsRecord r)
    (counted : c.records + 1 = start.records + (recordsAppended made).length)
    (reads : readBacks made = echoed ++ [content])
    (grown : c.records = start.records + echoed.length)
    (sends : octetsSent made = echoed.flatten ++ part) (whole : content = part ++ left) :
    Account start made (c.sendRest r content left) := by
  cases left with
  | cons b bs =>
    refine ⟨⟨[], rfl, ?_⟩, framed, counted, echoed, [content], part, ⟨rfl, whole, by simp⟩, reads,
      grown, sends⟩
    simpa [Connection.sendRest] using octets
  | nil =>
    rw [List.append_nil] at whole
    subst whole
    refine proceed ⟨⟨[], rfl, by simpa using octets⟩, framed, counted, ?_⟩
    refine ⟨echoed ++ [content], [], [], ⟨rfl, rfl⟩, by simpa using reads, ?_, by simpa using sends⟩
    simp only [moveTo_records, List.length_append, List.length_cons, List.length_nil]
    omega

/-- Every exchange keeps the account. -/
theorem step {c' : Connection} (h : Account start made c) (hs : Step c x c') :
    Account start (made ++ [x]) c' := by
  obtain ⟨held, hheld, hsum⟩ := h.octets
  obtain ⟨echoed, contents, part, hunsent, hreads, hrecords, hsends⟩ := h.echoes
  have hcounted := h.counted
  cases hs with
  | stopBeforeReceive phase | goOn phase | peerClosed phase | receiveInterrupted phase
  | receiveFailed phase | stopBetweenRecords phase | vet phase | appendFailed phase
  | readBackFailed phase =>
    refine h.quiet ⟨rfl, rfl, rfl, rfl⟩ ?_ ?_ ?_ <;> rw [phase] <;>
      simp +contextual [Phase.InHand, Phase.uncounted, Phase.Unsent, Ending.DropsRecord,
        Ending.uncounted, Ending.Unsent, IsRecord.ne_nil]
  | receive phase _ =>
    rw [phase] at hheld hunsent hcounted
    obtain rfl : held = [] := hheld
    obtain ⟨rfl, rfl⟩ := hunsent
    refine proceed ⟨⟨[], rfl, ?_⟩, ?_, ?_, echoed, [], [], ⟨rfl, rfl⟩, ?_, hrecords, ?_⟩
    · simp only [List.append_nil] at hsum
      simp [Exchange.delivered, Exchange.appended?, RecordBuffer.extend, ← List.append_assoc, hsum]
    · simpa [Exchange.appended?] using h.framed
    · simpa [Exchange.appended?, Phase.uncounted] using hcounted
    · simpa [Exchange.readBack?] using hreads
    · simpa [Exchange.sent] using hsends
  | append phase =>
    rw [phase] at hheld hunsent hcounted
    obtain ⟨rfl, hr⟩ := hheld
    obtain ⟨rfl, rfl⟩ := hunsent
    refine ⟨⟨[], rfl, ?_⟩, ?_, ?_, echoed, [], [], ⟨rfl, rfl⟩, ?_, hrecords, ?_⟩
    · simpa [Exchange.delivered, Exchange.appended?] using hsum
    · simpa [Exchange.appended?, or_imp, forall_and, hr] using h.framed
    · simp [Exchange.appended?, Phase.uncounted] at hcounted ⊢
      omega
    · simpa [Exchange.readBack?] using hreads
    · simpa [Exchange.sent] using hsends
  | readBack phase =>
    rw [phase] at hheld hunsent hcounted
    obtain rfl : held = [] := hheld
    obtain ⟨rfl, rfl⟩ := hunsent
    refine sendRest echoed [] ?_ ?_ ?_ ?_ hrecords ?_ rfl
    · simpa [Exchange.delivered, Exchange.appended?] using hsum
    · simpa [Exchange.appended?] using h.framed
    · simpa [Exchange.appended?, Phase.uncounted] using hcounted
    · simpa [Exchange.readBack?] using hreads
    · simpa [Exchange.sent] using hsends
  | refused phase | sendFailed phase =>
    refine h.quiet ⟨rfl, rfl, rfl, rfl⟩ ?_ ?_ ?_ <;> rw [phase]
    · simp +contextual [Phase.InHand, Ending.DropsRecord]
    · rfl
    · rintro _ part ⟨rfl, rfl, hleft⟩
      exact ⟨_, rfl, List.prefix_append _ _, by simpa using Ne.symm hleft⟩
  | sendInterrupted phase =>
    exact h.quiet ⟨rfl, rfl, rfl, rfl⟩ (fun _ hand => hand) rfl (fun _ _ unsent => unsent)
  | send phase _ =>
    rename_i content left n _
    rw [phase] at hheld hunsent hcounted
    obtain rfl : held = [] := hheld
    obtain ⟨rfl, hwhole, -⟩ := hunsent
    refine sendRest echoed (part ++ left.take n) ?_ ?_ ?_ ?_ hrecords ?_ ?_
    · simpa [Exchange.delivered, Exchange.appended?] using hsum
    · simpa [Exchange.appended?] using h.framed
    · simpa [Exchange.appended?, Phase.uncounted] using hcounted
    · simpa [Exchange.readBack?] using hreads
    · simp [Exchange.sent, hsends]
    · rw [hwhole, List.append_assoc, List.take_append_drop]

/-- A record about to be read back has been appended, and all before it have been read back. -/
lemma length_readBacks (h : Account start made c) {r : Bytes} (phase : c.phase = .readingBack r) :
    (recordsAppended made).length = (readBacks made).length + 1 := by
  obtain ⟨echoed, contents, part, hunsent, hreads, hrecords, -⟩ := h.echoes
  have hcounted := h.counted
  rw [phase] at hunsent hcounted
  obtain ⟨rfl, -⟩ := hunsent
  simp only [Phase.uncounted] at hcounted
  rw [hreads, List.append_nil]
  omega

/-- What goes out is never empty. -/
lemma left_ne_nil (h : Account start made c) {r content left : Bytes}
    (phase : c.phase = .sending r content left) : left ≠ [] := by
  obtain ⟨echoed, contents, part, hunsent, -⟩ := h.echoes
  rw [phase] at hunsent
  exact hunsent.2.2

end Account

/-- An account can be kept along every run. -/
theorem replay_account {c c' : Connection} {trace : List Exchange}
    (run : c.reopened.replay? trace = some c') : Account c trace c' :=
  replay?_induct (P := Account c) Account.step (.reopened c) run

/-- Before a read-back just one record more has been appended than contents have been read. -/
lemma appended_before_readBack {c c' : Connection} {before after : List Exchange} {x : Exchange}
    (run : c.reopened.replay? (before ++ x :: after) = some c') (hx : x.request = .readBack) :
    (recordsAppended before).length = (readBacks before).length + 1 := by
  obtain ⟨d, hbefore, hrest⟩ := replay?_append.mp run
  obtain ⟨d', hstep, -⟩ := replay?_cons hrest
  obtain ⟨r, hphase⟩ : ∃ r, d.phase = .readingBack r := by
    cases hstep <;> simp_all
  exact (replay_account hbefore).length_readBacks hphase

/-- No octet is lost, doubled or moved on any way out of serving, up to one record; records count
when they are echoed; what was sent are the contents read back, each after its own record and
before the next, and the last only in part if sending failed; and a failure is the last exchange. -/
theorem octets_conserved {c c' : Connection} {trace : List Exchange} {ending : Ending}
    (run : c.reopened.replay? trace = some c') (ended : c'.ending? = some ending) :
    (∃ dropped, c.buffer.bytes ++ octetsReceived trace
        = (recordsAppended trace).flatten ++ dropped ++ c'.buffer.bytes ∧
      (dropped = [] ∨ IsRecord dropped) ∧ (dropped ≠ [] ↔ ending.DropsRecord)) ∧
    (∀ r ∈ recordsAppended trace, IsRecord r) ∧
    c'.records + ending.uncounted = c.records + (recordsAppended trace).length ∧
    (∃ echoed contents part, readBacks trace = echoed ++ contents ∧
      c'.records = c.records + echoed.length ∧ octetsSent trace = echoed.flatten ++ part ∧
      ending.Unsent contents part) ∧
    (∀ before x after, trace = before ++ x :: after → x.request = .readBack →
      (recordsAppended before).length = (readBacks before).length + 1) ∧
    (∀ before x after, trace = before ++ x :: after → x.Fails → after = []) := by
  have h := replay_account run
  have hphase : c'.phase = .closed ending := by
    unfold ending? at ended
    split at ended <;> simp_all
  obtain ⟨held, hheld, hsum⟩ := h.octets
  obtain ⟨echoed, contents, part, hunsent, hreads, hrecords, hsends⟩ := h.echoes
  have hcounted := h.counted
  rw [hphase] at hheld hunsent hcounted
  refine ⟨⟨held, hsum, hheld⟩, h.framed, hcounted,
    ⟨echoed, contents, part, hreads, hrecords, hsends, hunsent⟩, ?_, ?_⟩
  · rintro before x after rfl hx
    exact appended_before_readBack run hx
  · rintro before x after rfl hx
    exact eq_nil_of_fails run hx

/-- A record left from an earlier serving is echoed in part, and the next one stays buffered. -/
theorem octets_conserved_broken_pipe :
    let c : Connection := { id := 0, buffer := ⟨[97, 10, 98, 10]⟩, records := 3 }
    let trace : List Exchange :=
      [⟨.readFlag, .flag false⟩, ⟨.receive receiveLimit, .received (.ok [99])⟩,
       ⟨.readFlag, .flag false⟩, ⟨.append [97, 10], .appended (.ok ())⟩,
       ⟨.readBack, .content (.ok [120, 10, 97, 10])⟩,
       ⟨.send [120, 10, 97, 10], .accepted (.error (.plain .interrupted))⟩,
       ⟨.send [120, 10, 97, 10], .accepted (.ok 3)⟩,
       ⟨.send [10], .accepted (.error .brokenPipe)⟩]
    ∃ c', c.reopened.replay? trace = some c' ∧
      c'.ending? = some (.failed (.send .brokenPipe)) ∧ c'.records + 1 = 3 + [[97, 10]].length ∧
      c'.buffer = ⟨[98, 10, 99]⟩ := by
  intro c trace
  have run : c.reopened.replay? trace = some
    { id := 0, buffer := ⟨[98, 10, 99]⟩, records := 3,
      phase := .closed (.failed (.send .brokenPipe)) } := by decide
  exact ⟨_, run, rfl, (octets_conserved run rfl).2.2.1, rfl⟩

end RecordLog.Connection
