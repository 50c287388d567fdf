import RecordLog.Proofs.Connection.Circumstances

/-! Serving does not depend on how the stream is cut. Along a run the records before the one under
way have gone through without a failure, so all that serving leaves behind is what dealing with one
record at a time does, whatever the sizes of receives and sends and wherever they are
interrupted. -/
namespace RecordLog.Connection

/-- Serving was given up over a record. -/
def Ending.GivesUp : Ending → Prop
  | failed (.append _) | failed (.readBack _) | failed (.send _) => True
  | _ => False

/-- A record that is dropped was not appended. -/
lemma Ending.uncounted_of_drops {ending : Ending} (drops : ending.DropsRecord) :
    ending.uncounted = 0 := by
  cases ending with
  | failed e => cases e <;> simp_all [DropsRecord, uncounted]
  | _ => rfl

namespace Phase

/-- No record is under way, and none was given up. -/
def Idle : Phase → Prop
  | polling | receiving | closed .peerClosed | closed (.failed (.receive _)) => True
  | _ => False

lemma Idle.keeps {ending : Ending} (idle : (closed ending).Idle) :
    ¬ ending.DropsRecord ∧ ending.uncounted = 0 := by
  cases ending with
  | failed e => cases e <;> simp_all [Idle, Ending.DropsRecord, Ending.uncounted]
  | _ => simp_all [Idle, Ending.DropsRecord, Ending.uncounted]

end Phase

open Circumstances (settle echoes_snoc logAfter)

/-- How far the first record after those `done` has come. -/
inductive Stands (k : Circumstances) (made : List Exchange) (done : List Bytes) : Phase → Prop
  | aside {phase : Phase} (early : phase.uncounted = 0) (opened : ∀ ending, phase ≠ .closed ending)
    (appended : recordsAppended made = done) (sent : octetsSent made = k.echoes done) :
    Stands k made done phase
  | appended {r : Bytes} (appended : recordsAppended made = done ++ [r])
    (sent : octetsSent made = k.echoes done) (sound : k.appendFault done.length = none) :
    Stands k made done (.readingBack r)
  | sending {r content left : Bytes} (appended : recordsAppended made = done ++ [r])
    (sent : octetsSent made ++ left = k.echoes (done ++ [r]))
    (sound : k.appendFault done.length = none) (fine : k.readBackFault done.length = none) :
    Stands k made done (.sending r content left)
  | ended {ending : Ending} (idle : (Phase.closed ending).Idle)
    (all : octetsReceived made = k.stream) (appended : recordsAppended made = done)
    (last : k.settle done [] = ⟨ending, done, done.length, octetsSent made⟩) :
    Stands k made done (.closed ending)
  | gaveUp {ending : Ending} (drops : ending.DropsRecord)
    (appended : recordsAppended made = done)
    (last : ∀ r todo, k.settle done (r :: todo) = ⟨ending, done, done.length, octetsSent made⟩) :
    Stands k made done (.closed ending)
  | brokeOff {ending : Ending} {r : Bytes} (late : ending.uncounted = 1)
    (appended : recordsAppended made = done ++ [r])
    (last : ∀ todo, k.settle done (r :: todo)
      = ⟨ending, done ++ [r], done.length, octetsSent made⟩) :
    Stands k made done (.closed ending)

namespace Stands

variable {k : Circumstances} {made : List Exchange} {done : List Bytes} {r content left : Bytes}

lemma of_readingBack (h : Stands k made done (.readingBack r)) :
    recordsAppended made = done ++ [r] ∧ octetsSent made = k.echoes done ∧
      k.appendFault done.length = none := by
  cases h with
  | aside early => cases early
  | appended appended sent sound => exact ⟨appended, sent, sound⟩

lemma of_sending (h : Stands k made done (.sending r content left)) :
    recordsAppended made = done ++ [r] ∧ octetsSent made ++ left = k.echoes (done ++ [r]) ∧
      k.appendFault done.length = none ∧ k.readBackFault done.length = none := by
  cases h with
  | aside early => cases early
  | sending appended sent sound fine => exact ⟨appended, sent, sound, fine⟩

end Stands

/-- What holds along a run of the connection `start` after the exchanges `made`. -/
structure Following (k : Circumstances) (start : Connection) (made : List Exchange)
    (c : Connection) : Prop where
  account : Account start made c
  supply : octetsReceived made <+: k.stream
  room : ∀ w e, k.sendFault = some (w, e) → (octetsSent made).length ≤ w
  untouched : octetsReceived made = [] →
    c.phase.Idle ∧ c.buffer = start.buffer ∧ recordsAppended made = []
  drained : octetsReceived made ≠ [] → c.phase.Idle → delimiter ∉ c.buffer.bytes
  progress : ∃ done, k.Clear done ∧ Stands k made done c.phase

namespace Following

variable {k : Circumstances} {start c c' : Connection} {made : List Exchange} {x : Exchange}
  {done : List Bytes} {r content left : Bytes}

lemma reopened (k : Circumstances) (c : Connection) : Following k c [] c.reopened where
  account := .reopened c
  supply := List.nil_prefix
  room := fun _ _ _ => Nat.zero_le _
  untouched := fun _ => ⟨trivial, rfl, rfl⟩
  drained := fun touched => absurd rfl touched
  progress := ⟨[], k.clear_nil, .aside rfl (by simp) rfl rfl⟩

/-- Octets have come in when a record is under way. -/
lemma touched (h : Following k start made c) (busy : ¬ c.phase.Idle) :
    octetsReceived made ≠ [] := fun none => busy (h.untouched none).1

/-- An exchange that moves no octet while no record is under way, before and after. -/
lemma resting (h : Following k start made c) {phase : Phase}
    (account : Account start (made ++ [x]) (c.moveTo phase)) (quiet : x.Quiet)
    (was : c.phase.Idle) (idle : phase.Idle)
    (progress : ∃ done, k.Clear done ∧ Stands k (made ++ [x]) done phase) :
    Following k start (made ++ [x]) (c.moveTo phase) := by
  obtain ⟨hrecv, hsent, happ, -⟩ := quiet
  have hreceived : octetsReceived (made ++ [x]) = octetsReceived made := by simp [hrecv]
  refine ⟨account, hreceived ▸ h.supply, by simpa [hsent] using h.room, ?_, ?_, progress⟩
  · intro none
    obtain ⟨-, hbuffer, hnone⟩ := h.untouched (hreceived ▸ none)
    exact ⟨idle, hbuffer, by simpa [happ] using hnone⟩
  · intro some _
    exact h.drained (hreceived ▸ some) was

/-- An exchange that brings in and sends out nothing while a record is under way, before and
after. -/
lemma busy (h : Following k start made c) (account : Account start (made ++ [x]) c')
    (received : x.delivered = []) (sent : x.sent = []) (was : ¬ c.phase.Idle)
    (busy : ¬ c'.phase.Idle)
    (progress : ∃ done, k.Clear done ∧ Stands k (made ++ [x]) done c'.phase) :
    Following k start (made ++ [x]) c' := by
  have hreceived : octetsReceived (made ++ [x]) = octetsReceived made := by simp [received]
  refine ⟨account, hreceived ▸ h.supply, by simpa [sent] using h.room, ?_, ?_, progress⟩
  · exact fun none => absurd (hreceived ▸ none) (h.touched was)
  · exact fun _ idle => absurd idle busy

/-- The next record is taken up, or there is none. -/
lemma proceed (account : Account start made c.proceed) (supply : octetsReceived made <+: k.stream)
    (room : ∀ w e, k.sendFault = some (w, e) → (octetsSent made).length ≤ w)
    (touched : octetsReceived made ≠ []) (clear : k.Clear done)
    (appended : recordsAppended made = done) (sent : octetsSent made = k.echoes done) :
    Following k start made c.proceed := by
  refine ⟨account, supply, room, fun none => absurd none touched, ?_, done, clear, ?_⟩
  · intro _ idle
    apply proceed_drained c
    unfold Connection.proceed at idle ⊢
    split at idle
    · exact idle.elim
    · trivial
  · refine .aside ?_ (proceed_open c) appended sent
    unfold Connection.proceed
    split <;> rfl

/-- An echo goes on, or the record is done with. -/
lemma sendRest (account : Account start made (c.sendRest r content left))
    (supply : octetsReceived made <+: k.stream)
    (room : ∀ w e, k.sendFault = some (w, e) → (octetsSent made).length ≤ w)
    (touched : octetsReceived made ≠ []) (clear : k.Clear done)
    (appended : recordsAppended made = done ++ [r])
    (sent : octetsSent made ++ left = k.echoes (done ++ [r]))
    (sound : k.appendFault done.length = none) (fine : k.readBackFault done.length = none) :
    Following k start made (c.sendRest r content left) := by
  cases left with
  | nil =>
    rw [List.append_nil] at sent
    have fits : k.overflow? (k.echoes (done ++ [r])).length = none := by
      unfold Circumstances.overflow?
      split
      · rename_i w e fault
        have := room w e fault
        rw [sent] at this
        exact if_neg (by omega)
      · rfl
    exact proceed account supply room touched (clear.snoc sound fine fits) appended sent
  | cons b bs =>
    exact ⟨account, supply, room, fun none => absurd none touched, fun _ idle => idle.elim, done,
      clear, .sending appended sent sound fine⟩

/-- Sending that fails at the limit of the peer leaves just what the peer takes. -/
lemma settle_of_limit {cause : Option IoError}
    (sent : octetsSent made ++ left = k.echoes (done ++ [r])) (more : left ≠ [])
    (sound : k.appendFault done.length = none) (fine : k.readBackFault done.length = none)
    (fault : k.sendFault = some ((octetsSent made).length, cause)) (todo : List Bytes) :
    k.settle done (r :: todo) = ⟨.failed (.send (cause.getD .shortWrite)), done ++ [r], done.length,
      octetsSent made⟩ := by
  have hlength := List.length_pos_iff.mpr more
  have hover : k.overflow? (k.echoes (done ++ [r])).length
      = some ((octetsSent made).length, cause.getD .shortWrite) := by
    rw [Circumstances.overflow?, fault, ← sent, List.length_append]
    exact if_pos (by omega)
  have htake : (k.echoes (done ++ [r])).take (octetsSent made).length = octetsSent made := by
    rw [← sent, List.take_left]
  simp only [settle, sound, fine, hover, htake]

/-- An exchange that gives up the record under way, which was appended. -/
lemma breaksOff (h : Following k start made c) {ending : Ending}
    (account : Account start (made ++ [x]) (c.moveTo (.closed ending))) (quiet : x.Quiet)
    (was : ¬ c.phase.Idle) (late : ending.uncounted = 1) (clear : k.Clear done)
    (appended : recordsAppended made = done ++ [r])
    (last : ∀ todo, k.settle done (r :: todo)
      = ⟨ending, done ++ [r], done.length, octetsSent made⟩) :
    Following k start (made ++ [x]) (c.moveTo (.closed ending)) := by
  obtain ⟨hrecv, hsent, happ, -⟩ := quiet
  have busy : ¬ (Phase.closed ending).Idle := fun idle => by
    have early := idle.keeps.2
    omega
  refine h.busy account hrecv hsent was busy
    ⟨done, clear, .brokeOff (r := r) late ?_ fun todo => ?_⟩
  · simpa [happ] using appended
  · simpa [hsent] using last todo

/-- An allowed exchange keeps what holds along a run. -/
theorem step (h : Following k start made c) (hs : Step c x c') (ha : k.Allows made x) :
    Following k start (made ++ [x]) c' := by
  have account := h.account.step hs
  have quiet {y : Exchange} (hd : y.delivered = []) :
      octetsReceived (made ++ [y]) = octetsReceived made := by simp [hd]
  obtain ⟨done, clear, stands⟩ := h.progress
  cases hs with
  | stopBeforeReceive | stopBetweenRecords => cases ha
  | goOn phase | receiveInterrupted phase =>
    have was : c.phase.Idle := by rw [phase]; trivial
    rw [phase] at stands
    obtain ⟨-, -, appended, sent⟩ := stands
    refine h.resting account ⟨rfl, rfl, rfl, rfl⟩ was trivial
      ⟨done, clear, .aside rfl (by simp) ?_ ?_⟩
    · simpa [Exchange.appended?] using appended
    · simpa [Exchange.sent] using sent
  | peerClosed phase =>
    have was : c.phase.Idle := by rw [phase]; trivial
    rw [phase] at stands
    obtain ⟨-, -, appended, sent⟩ := stands
    cases ha with
    | receive more => exact absurd rfl more
    | peerClosed all whole =>
      refine h.resting account ⟨rfl, rfl, rfl, rfl⟩ was trivial
        ⟨done, clear, .ended trivial ((quiet rfl).trans all) ?_ ?_⟩
      · simpa [Exchange.appended?] using appended
      · simp [settle, whole, sent, Exchange.sent]
  | receiveFailed phase final =>
    have was : c.phase.Idle := by rw [phase]; trivial
    rw [phase] at stands
    obtain ⟨-, -, appended, sent⟩ := stands
    cases ha with
    | receiveInterrupted again => exact absurd again final
    | receiveFailed all broken =>
      refine h.resting account ⟨rfl, rfl, rfl, rfl⟩ was trivial
        ⟨done, clear, .ended trivial ((quiet rfl).trans all) ?_ ?_⟩
      · simpa [Exchange.appended?] using appended
      · simp [settle, broken, sent, Exchange.sent]
  | receive phase more =>
    rw [phase] at stands
    obtain ⟨-, -, appended, sent⟩ := stands
    cases ha with
    | peerClosed => exact absurd rfl more
    | receive _ _ next =>
      refine proceed account ?_ ?_ ?_ clear ?_ ?_
      · simpa [Exchange.delivered] using next
      · simpa [Exchange.sent] using h.room
      · simp [Exchange.delivered, more]
      · simpa [Exchange.appended?] using appended
      · simpa [Exchange.sent] using sent
  | vet phase =>
    have was : ¬ c.phase.Idle := by simp [phase, Phase.Idle]
    rw [phase] at stands
    obtain ⟨-, -, appended, sent⟩ := stands
    refine h.busy account rfl rfl was (fun idle => idle) ⟨done, clear, .aside rfl (by simp) ?_ ?_⟩
    · simpa [Exchange.appended?] using appended
    · simpa [Exchange.sent] using sent
  | append phase =>
    have was : ¬ c.phase.Idle := by simp [phase, Phase.Idle]
    rw [phase] at stands
    obtain ⟨-, -, appended, sent⟩ := stands
    cases ha with
    | append sound =>
      rw [appended] at sound
      refine h.busy account rfl rfl was (fun idle => idle) ⟨done, clear, .appended ?_ ?_ sound⟩
      · simp [Exchange.appended?, appended]
      · simpa [Exchange.sent] using sent
  | appendFailed phase =>
    have was : ¬ c.phase.Idle := by simp [phase, Phase.Idle]
    rw [phase] at stands
    obtain ⟨-, -, appended, sent⟩ := stands
    cases ha with
    | appendFailed fault =>
      rw [appended] at fault
      refine h.busy account rfl rfl was (fun idle => idle)
        ⟨done, clear, .gaveUp trivial ?_ fun r todo => ?_⟩
      · simpa [Exchange.appended?] using appended
      · simp [settle, fault, sent, Exchange.sent]
  | readBack phase =>
    have was : ¬ c.phase.Idle := by simp [phase, Phase.Idle]
    have reads := h.account.length_readBacks phase
    rw [phase] at stands
    obtain ⟨appended, sent, sound⟩ := stands.of_readingBack
    cases ha with
    | readBack fine =>
      rw [appended, List.length_append, List.length_singleton, Nat.add_right_cancel_iff] at reads
      refine sendRest account ?_ ?_ ?_ clear ?_ ?_ sound (reads ▸ fine)
      · simpa [Exchange.delivered] using h.supply
      · simpa [Exchange.sent] using h.room
      · simpa [Exchange.delivered] using h.touched was
      · simpa [Exchange.appended?] using appended
      · simp [Exchange.sent, sent, echoes_snoc, logAfter, appended]
  | @readBackFailed r e phase =>
    have was : ¬ c.phase.Idle := by simp [phase, Phase.Idle]
    have reads := h.account.length_readBacks phase
    rw [phase] at stands
    obtain ⟨appended, sent, sound⟩ := stands.of_readingBack
    cases ha with
    | readBackFailed fault =>
      rw [appended, List.length_append, List.length_singleton, Nat.add_right_cancel_iff] at reads
      rw [← reads] at fault
      refine h.breaksOff account ⟨rfl, rfl, rfl, rfl⟩ was rfl clear appended fun todo => ?_
      simp [settle, sound, fault, sent]
  | send phase more =>
    have was : ¬ c.phase.Idle := by simp [phase, Phase.Idle]
    rw [phase] at stands
    obtain ⟨appended, sent, sound, fine⟩ := stands.of_sending
    cases ha with
    | refused => exact absurd rfl more
    | send _ short room =>
      refine sendRest account ?_ ?_ ?_ clear ?_ ?_ sound fine
      · simpa [Exchange.delivered] using h.supply
      · simpa [Exchange.sent, short] using room
      · simpa [Exchange.delivered] using h.touched was
      · simpa [Exchange.appended?] using appended
      · simpa [Exchange.sent] using sent
  | sendInterrupted phase =>
    have was : ¬ c.phase.Idle := by simp [phase, Phase.Idle]
    rw [phase] at stands
    obtain ⟨appended, sent, sound, fine⟩ := stands.of_sending
    refine h.busy account rfl rfl was was ⟨done, clear, phase ▸ .sending ?_ ?_ sound fine⟩
    · simpa [Exchange.appended?] using appended
    · simpa [Exchange.sent] using sent
  | @refused r content left phase =>
    have was : ¬ c.phase.Idle := by simp [phase, Phase.Idle]
    have more := h.account.left_ne_nil phase
    rw [phase] at stands
    obtain ⟨appended, sent, sound, fine⟩ := stands.of_sending
    cases ha with
    | send nonzero => exact absurd rfl nonzero
    | refused fault =>
      exact h.breaksOff account ⟨rfl, rfl, rfl, rfl⟩ was rfl clear appended
        (settle_of_limit sent more sound fine fault)
  | @sendFailed r content left e phase final =>
    have was : ¬ c.phase.Idle := by simp [phase, Phase.Idle]
    have more := h.account.left_ne_nil phase
    rw [phase] at stands
    obtain ⟨appended, sent, sound, fine⟩ := stands.of_sending
    cases ha with
    | sendInterrupted again => exact absurd again final
    | sendFailed fault =>
      exact h.breaksOff account ⟨rfl, rfl, rfl, rfl⟩ was rfl clear appended
        (settle_of_limit sent more sound fine fault)

end Following

namespace Circumstances

variable {k : Circumstances} {start c : Connection} {trace : List Exchange} {ending : Ending}

/-- What holds along a run holds at its end. -/
theorem Run.following (run : k.Run start trace c ending) : Following k start trace c := by
  refine replay?_induct (P := fun made d => k.AllowsAll [] made → Following k start made d)
    ?_ (fun _ => .reopened k start) run.replay run.allowed
  intro made d x d' ih hs allowed
  obtain ⟨before, last⟩ := allowsAll_append.mp allowed
  exact (ih before).step hs last.1

/-- Records that have left the buffer, the last one under way, are the first of the tasks. -/
lemma tasks_of_split {b : RecordBuffer} {done : List Bytes} {r rest : Bytes}
    (framed : ∀ q ∈ done ++ [r], IsRecord q) (some : k.stream ≠ [])
    (octets : b.bytes ++ k.stream = (done ++ [r]).flatten ++ rest) :
    ∃ todo, (k.tasks b).1 = done ++ r :: todo := by
  refine ⟨(RecordLog.records rest).1, ?_⟩
  rw [tasks, if_neg some, octets, records_flatten framed, List.append_assoc, List.singleton_append]

/-- What a run leaves behind is what dealing with one record at a time does. The buffer too, unless
the run ended with a record under way. -/
theorem Run.outcome (run : k.Run start trace c ending) :
    let o := k.settle [] (k.tasks start.buffer).1
    ending = o.ending ∧ recordsAppended trace = o.appended ∧
      c.records = start.records + o.echoed ∧ octetsSent trace = o.sent ∧
      ((Phase.closed ending).Idle → c.buffer.bytes = (k.tasks start.buffer).2) := by
  intro o
  have h := run.following
  have hphase : c.phase = .closed ending := by
    have ended := run.ended
    unfold ending? at ended
    split at ended <;> simp_all
  obtain ⟨done, clear, stands⟩ := h.progress
  obtain ⟨held, hheld, octets⟩ := h.account.octets
  obtain ⟨rest, hrest⟩ := h.supply
  have framed := h.account.framed
  have counted := h.account.counted
  rw [hphase] at stands hheld counted
  have stream : start.buffer.bytes ++ k.stream
      = (recordsAppended trace).flatten ++ held ++ (c.buffer.bytes ++ rest) := by
    rw [← hrest, ← List.append_assoc, octets, List.append_assoc]
  have some (late : ¬ (Phase.closed ending).Idle) : k.stream ≠ [] := by
    have touched := h.touched (by rwa [hphase])
    simp [← hrest, touched]
  cases stands with
  | aside early opened => exact absurd rfl (opened ending)
  | ended idle all appended last =>
    obtain ⟨keeps, early⟩ := Phase.Idle.keeps idle
    obtain rfl : held = [] := Decidable.byContradiction fun hne => keeps (hheld.2.mp hne)
    -- The stream has come in whole, and nothing left in the buffer ends a record.
    have htasks : k.tasks start.buffer = (done, c.buffer.bytes) := by
      unfold tasks
      split
      · rename_i none
        obtain ⟨-, hbuffer, hnone⟩ := h.untouched (all.trans none)
        rw [hbuffer, ← appended, hnone]
      · rename_i some
        have dry := h.drained (by rwa [all]) (by rwa [hphase])
        rw [← all, octets, List.append_nil, records_flatten_append framed dry, appended]
    have ho : o = ⟨ending, done, done.length, octetsSent trace⟩ := by
      have gone := clear []
      rw [List.append_nil] at gone
      simp only [o, htasks, gone, last]
    rw [ho, htasks]
    rw [appended] at counted
    exact ⟨rfl, appended, by simpa [Phase.uncounted, early] using counted, rfl, fun _ => rfl⟩
  | gaveUp drops appended last =>
    have late : ¬ (Phase.closed ending).Idle := fun idle => idle.keeps.1 drops
    have record : IsRecord held := hheld.1.resolve_left (hheld.2.mpr drops)
    rw [appended] at framed stream counted
    have framed' : ∀ q ∈ done ++ [held], IsRecord q := by
      simpa [or_imp, forall_and, record] using framed
    obtain ⟨todo, htasks⟩ := tasks_of_split framed' (some late) (by simpa using stream)
    have ho : o = ⟨ending, done, done.length, octetsSent trace⟩ := by
      simp only [o, htasks]
      rw [clear, last]
    rw [ho]
    refine ⟨rfl, appended, ?_, rfl, fun idle => absurd idle late⟩
    simpa [Phase.uncounted, Ending.uncounted_of_drops drops] using counted
  | @brokeOff _ r late appended last =>
    have busy : ¬ (Phase.closed ending).Idle := fun idle => by
      have early := idle.keeps.2
      omega
    obtain rfl : held = [] := Decidable.byContradiction fun hne => by
      have early := Ending.uncounted_of_drops (hheld.2.mp hne)
      omega
    rw [appended] at framed stream counted
    obtain ⟨todo, htasks⟩ := tasks_of_split framed (some busy) (by simpa using stream)
    have ho : o = ⟨ending, done ++ [r], done.length, octetsSent trace⟩ := by
      simp only [o, htasks]
      rw [clear, last]
    rw [ho]
    refine ⟨rfl, appended, ?_, rfl, fun idle => absurd idle busy⟩
    rw [List.length_append, List.length_singleton, ← Nat.add_assoc] at counted
    simpa [Phase.uncounted, late] using counted

/-- Serving ends with the stream or is given up over a record. -/
lemma settle_ending (k : Circumstances) (done todo : List Bytes) :
    (k.settle done todo).ending.GivesUp ∨ (Phase.closed (k.settle done todo).ending).Idle := by
  induction todo generalizing done with
  | nil =>
    right
    cases hbroken : k.broken <;> simp [settle, hbroken, Phase.Idle]
  | cons r todo ih =>
    unfold settle
    split
    · exact .inl trivial
    · split
      · exact .inl trivial
      · split
        · exact .inl trivial
        · exact ih (done ++ [r])

/-- How the network cuts the traffic cannot be told from what serving leaves behind, whatever fails.
Two runs on one stream with the same failures have the same result, the same log, the same count
and the same octets sent. The same is left in the buffer, unless a record was given up, when the
rest of the last receive is. -/
theorem fragmentation_invisible {trace₁ trace₂ : List Exchange} {c₁ c₂ : Connection}
    {ending₁ ending₂ : Ending} (run₁ : k.Run start trace₁ c₁ ending₁)
    (run₂ : k.Run start trace₂ c₂ ending₂) :
    ending₁ = ending₂ ∧ k.logAfter trace₁ = k.logAfter trace₂ ∧ c₁.records = c₂.records ∧
      octetsSent trace₁ = octetsSent trace₂ ∧
      (¬ ending₁.GivesUp → c₁.pending = c₂.pending) := by
  obtain ⟨hending₁, happended₁, hrecords₁, hsent₁, hbuffer₁⟩ := run₁.outcome
  obtain ⟨hending₂, happended₂, hrecords₂, hsent₂, hbuffer₂⟩ := run₂.outcome
  refine ⟨hending₁.trans hending₂.symm, ?_, hrecords₁.trans hrecords₂.symm,
    hsent₁.trans hsent₂.symm, fun kept => ?_⟩
  · rw [logAfter, logAfter, happended₁, happended₂]
  · have idle : (Phase.closed ending₁).Idle := by
      rw [hending₁] at kept ⊢
      exact (settle_ending k _ _).resolve_left kept
    have idle₂ : (Phase.closed ending₂).Idle := by rwa [hending₂, ← hending₁]
    rw [pending, pending, RecordBuffer.size, RecordBuffer.size, hbuffer₁ idle, hbuffer₂ idle₂]

/-- The peer takes seven octets and resets the connection in the midst of the second echo, whether
the records come at once or piecemeal. -/
theorem fragmentation_invisible_reset :
    let k : Circumstances := {
      log := [108, 10], stream := [97, 10, 98, 10], sendFault := some (7, some .connectionReset) }
    let c : Connection := { id := 0, buffer := ⟨[120]⟩ }
    let early : List Exchange :=
      [⟨.readFlag, .flag false⟩, ⟨.receive receiveLimit, .received (.ok [97, 10, 98, 10])⟩,
       ⟨.readFlag, .flag false⟩, ⟨.append [120, 97, 10], .appended (.ok ())⟩,
       ⟨.readBack, .content (.ok [108, 10, 120, 97, 10])⟩,
       ⟨.send [108, 10, 120, 97, 10], .accepted (.ok 5)⟩,
       ⟨.readFlag, .flag false⟩, ⟨.append [98, 10], .appended (.ok ())⟩,
       ⟨.readBack, .content (.ok [108, 10, 120, 97, 10, 98, 10])⟩,
       ⟨.send [108, 10, 120, 97, 10, 98, 10], .accepted (.ok 2)⟩,
       ⟨.send [120, 97, 10, 98, 10], .accepted (.error .connectionReset)⟩]
    let late : List Exchange :=
      [⟨.readFlag, .flag false⟩, ⟨.receive receiveLimit, .received (.error (.plain .interrupted))⟩,
       ⟨.readFlag, .flag false⟩, ⟨.receive receiveLimit, .received (.ok [97, 10])⟩,
       ⟨.readFlag, .flag false⟩, ⟨.append [120, 97, 10], .appended (.ok ())⟩,
       ⟨.readBack, .content (.ok [108, 10, 120, 97, 10])⟩,
       ⟨.send [108, 10, 120, 97, 10], .accepted (.ok 3)⟩,
       ⟨.send [97, 10], .accepted (.ok 2)⟩,
       ⟨.readFlag, .flag false⟩, ⟨.receive receiveLimit, .received (.ok [98, 10])⟩,
       ⟨.readFlag, .flag false⟩, ⟨.append [98, 10], .appended (.ok ())⟩,
       ⟨.readBack, .content (.ok [108, 10, 120, 97, 10, 98, 10])⟩,
       ⟨.send [108, 10, 120, 97, 10, 98, 10], .accepted (.ok 1)⟩,
       ⟨.send [10, 120, 97, 10, 98, 10], .accepted (.error (.plain .interrupted))⟩,
       ⟨.send [10, 120, 97, 10, 98, 10], .accepted (.ok 1)⟩,
       ⟨.send [120, 97, 10, 98, 10], .accepted (.error .connectionReset)⟩]
    let ending : Ending := .failed (.send .connectionReset)
    ∃ c₁ c₂, k.Run c early c₁ ending ∧ k.Run c late c₂ ending ∧
      octetsSent early = octetsSent late ∧ c₁.records = c₂.records ∧ c₁.records = 1 := by
  intro k c early late ending
  let closed : Connection := { id := 0, records := 1, phase := .closed ending }
  have fits {n : Nat} (hn : n ≤ 7) : ∀ w e, k.sendFault = some (w, e) → n ≤ w := by
    intro w e h
    cases h
    exact hn
  have interrupted : (IoError.plain .interrupted).isInterrupted := by decide
  have run₁ : k.Run c early closed ending := by
    refine ⟨by decide, rfl, .unset, .receive (by decide) (by decide) (by decide), .unset,
      .append rfl, .readBack rfl, .send (by decide) (by decide) (fits (by decide)), .unset,
      .append rfl, .readBack rfl, .send (by decide) (by decide) (fits (by decide)), ?_, trivial⟩
    exact .sendFailed rfl
  have run₂ : k.Run c late closed ending := by
    refine ⟨by decide, rfl, .unset, .receiveInterrupted interrupted, .unset,
      .receive (by decide) (by decide) (by decide), .unset, .append rfl, .readBack rfl,
      .send (by decide) (by decide) (fits (by decide)),
      .send (by decide) (by decide) (fits (by decide)), .unset,
      .receive (by decide) (by decide) (by decide), .unset, .append rfl, .readBack rfl,
      .send (by decide) (by decide) (fits (by decide)), .sendInterrupted interrupted,
      .send (by decide) (by decide) (fits (by decide)), ?_, trivial⟩
    exact .sendFailed rfl
  obtain ⟨-, -, hrecords, hsent, -⟩ := fragmentation_invisible run₁ run₂
  exact ⟨closed, closed, run₁, run₂, hsent, hrecords, rfl⟩

end Circumstances

end RecordLog.Connection
