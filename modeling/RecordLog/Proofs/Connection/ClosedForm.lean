import RecordLog.Proofs.Connection.Account
import RecordLog.Proofs.Connection.Faultless

/-! What faultless serving amounts to. The log grows by the records of the stream, the peer is sent
the whole log after each of them, and both hold whenever the connection is about to receive. -/
namespace RecordLog

/-- The contents of a log after each of some records has been added. -/
def growth (log : Bytes) : List Bytes → List Bytes
  | [] => []
  | r :: rs => (log ++ r) :: growth (log ++ r) rs

lemma growth_snoc (log : Bytes) (rs : List Bytes) (r : Bytes) :
    growth log (rs ++ [r]) = growth log rs ++ [log ++ rs.flatten ++ r] := by
  induction rs generalizing log with
  | nil => simp [growth]
  | cons q rs ih => simp [growth, ih]

lemma growth_length (log : Bytes) (rs : List Bytes) : (growth log rs).length = rs.length := by
  induction rs generalizing log with
  | nil => rfl
  | cons r rs ih => rw [growth, List.length_cons, List.length_cons, ih]

namespace Connection

/-- No record is under way. -/
def Phase.AtRest : Phase → Prop
  | polling | receiving | closed .peerClosed => True
  | _ => False

/-- The content that the next read-back is to find in a log that holds `log`. -/
def Phase.due (log : Bytes) : Phase → List Bytes
  | readingBack _ => [log]
  | _ => []

/-- At rest the buffer holds no record. -/
def Drained (c : Connection) : Prop := c.phase.AtRest → delimiter ∉ c.buffer.bytes

lemma proceed_drained (c : Connection) : c.proceed.Drained := by
  unfold proceed
  split
  · intro h
    exact h.elim
  · rename_i hnone
    exact fun _ => RecordBuffer.next?_eq_none.mp hnone

lemma sendRest_drained (c : Connection) (r content left : Bytes) :
    (c.sendRest r content left).Drained := by
  cases left with
  | nil => exact proceed_drained _
  | cons b bs => exact fun h => h.elim

lemma Drained.step {c c' : Connection} {x : Exchange} (h : c.Drained) (hs : Step c x c') :
    c'.Drained := by
  cases hs with
  | receive => exact proceed_drained _
  | readBack => exact sendRest_drained _ _ _ _
  | send => exact sendRest_drained _ _ _ _
  | sendInterrupted => exact h
  | goOn phase | peerClosed phase | receiveInterrupted phase =>
    intro _
    exact h (by rw [phase]; trivial)
  | _ => exact fun h => h.elim

@[simp] lemma proceed_due (c : Connection) (log : Bytes) : c.proceed.phase.due log = [] := by
  unfold proceed
  split <;> rfl

@[simp] lemma sendRest_due (c : Connection) (r content left log : Bytes) :
    (c.sendRest r content left).phase.due log = [] := by
  cases left with
  | nil => exact proceed_due _ log
  | cons b bs => rfl

lemma proceed_open (c : Connection) (ending : Ending) : c.proceed.phase ≠ .closed ending := by
  unfold proceed
  split <;> simp

lemma sendRest_open (c : Connection) (r content left : Bytes) (ending : Ending) :
    (c.sendRest r content left).phase ≠ .closed ending := by
  cases left with
  | nil => exact proceed_open _ ending
  | cons b bs => simp [sendRest]

/-- The state of faultless serving after the exchanges `made`, for a log that was `log` and a peer
that would deliver `stream`. -/
structure Serving (start : Connection) (before : Surroundings) (log : Bytes) (c : Connection)
    (w : Surroundings) (made : List Exchange) : Prop where
  run : start.reopened.replay? made = some c
  clean : w.Faultless (log ++ (recordsAppended made).flatten)
  store : w.store = before.store
  supply : octetsReceived made ++ w.script.stream = before.script.stream
  drained : c.Drained
  reads : readBacks made ++ c.phase.due (log ++ (recordsAppended made).flatten)
    = growth log (recordsAppended made)
  ends : ∀ ending, c.phase = .closed ending → ending = .peerClosed ∧ w.script.stream = []

namespace Serving

variable {start c : Connection} {before w : Surroundings} {log : Bytes} {made : List Exchange}

lemma reopened (hc : delimiter ∉ start.buffer.bytes) (hw : before.Faultless log) :
    Serving start before log start.reopened before [] where
  run := rfl
  clean := by simpa [recordsAppended] using hw
  store := rfl
  supply := by simp [octetsReceived]
  drained := fun _ => hc
  reads := rfl
  ends := by simp

/-- At rest all records received so far have been appended and echoed in full. -/
theorem at_rest (h : Serving start before log c w made) (rest : c.phase.AtRest) :
    RecordLog.records (start.buffer.bytes ++ octetsReceived made)
        = (recordsAppended made, c.buffer.bytes) ∧
      octetsSent made = (growth log (recordsAppended made)).flatten ∧
      c.records = start.records + (recordsAppended made).length := by
  have account := replay_account h.run
  have hreads := h.reads
  obtain ⟨held, hheld, hsum⟩ := account.octets
  obtain ⟨echoed, contents, part, hunsent, hread, hrecords, hsends⟩ := account.echoes
  obtain ⟨rfl, rfl, rfl, hdue⟩ : held = [] ∧ contents = [] ∧ part = [] ∧
      c.phase.due (log ++ (recordsAppended made).flatten) = [] := by
    cases hphase : c.phase <;> rw [hphase] at rest hheld hunsent <;>
      simp_all [Phase.AtRest, Phase.InHand, Phase.Unsent, Phase.due]
    rename_i ending
    cases ending <;> simp_all [Ending.DropsRecord, Ending.Unsent]
  rw [hdue, List.append_nil] at hreads
  rw [List.append_nil] at hread hsends hsum
  refine ⟨?_, ?_, ?_⟩
  · rw [hsum]
    exact records_flatten_append account.framed (h.drained rest)
  · rw [hsends, ← hread, hreads]
  · rw [hrecords, ← hread, hreads, growth_length]

/-- An exchange with faultless surroundings keeps the state. -/
theorem step {w' : Surroundings} {q : Request} {reply : Reply} {c' : Connection}
    (h : Serving start before log c w made) (hq : c.phase.request? = some q)
    (hr : c.resume? reply = some c')
    (ha : w.Answered (log ++ (recordsAppended made).flatten) ⟨q, reply⟩ w') :
    Serving start before log c' w' (made ++ [⟨q, reply⟩]) := by
  have hs := Step.of_resume? hq hr
  have hreads := h.reads
  refine ⟨replay?_snoc h.run hq hr, ?_, ha.store.trans h.store, ?_, h.drained.step hs, ?_, ?_⟩
  · rw [recordsAppended_snoc, List.flatten_append, ← List.append_assoc]
    exact ha.after
  · rw [octetsReceived_snoc, List.append_assoc, ha.supply]
    exact h.supply
  · cases hs with
    | append phase =>
      rw [phase] at hreads
      simp only [Phase.due, List.append_nil] at hreads
      simp [Exchange.appended?, Exchange.readBack?, Phase.due, growth_snoc, hreads]
    | readBack phase =>
      rw [phase] at hreads
      rw [ha.content _ rfl, sendRest_due]
      simpa [Exchange.appended?, Exchange.readBack?, Phase.due] using hreads
    | receive phase =>
      rw [phase] at hreads
      rw [proceed_due]
      simpa [Exchange.appended?, Exchange.readBack?, Phase.due] using hreads
    | send phase =>
      rw [phase] at hreads
      rw [sendRest_due]
      simpa [Exchange.appended?, Exchange.readBack?, Phase.due] using hreads
    | goOn phase | peerClosed phase | receiveInterrupted phase | vet phase
    | sendInterrupted phase =>
      rw [phase] at hreads
      simpa [Exchange.appended?, Exchange.readBack?, Phase.due, phase] using hreads
    | stopBeforeReceive | stopBetweenRecords => exact (ha.unset rfl).elim
    | receiveFailed _ final | sendFailed _ final => exact (ha.sound final).elim
    | appendFailed | readBackFailed | refused => exact (ha.sound trivial).elim
  · intro ending hclosed
    cases hs with
    | peerClosed =>
      have hsupply := ha.supply
      rw [ha.ended rfl] at hsupply
      exact ⟨by simpa [eq_comm] using hclosed, (List.append_eq_nil_iff.mp hsupply).2⟩
    | receive => exact (proceed_open _ _ hclosed).elim
    | readBack => exact (sendRest_open _ _ _ _ _ hclosed).elim
    | send => exact (sendRest_open _ _ _ _ _ hclosed).elim
    | sendInterrupted phase => simp [phase] at hclosed
    | goOn | receiveInterrupted | vet | append => simp at hclosed
    | stopBeforeReceive | stopBetweenRecords => exact (ha.unset rfl).elim
    | receiveFailed _ final | sendFailed _ final => exact (ha.sound final).elim
    | appendFailed | readBackFailed | refused => exact (ha.sound trivial).elim

/-- What goes out is never empty. -/
lemma send_nonempty {bytes : Bytes} (h : Serving start before log c w made)
    (hq : c.phase.request? = some (.send bytes)) : bytes ≠ [] := by
  cases hphase : c.phase <;> simp_all [Phase.request?]
  exact (replay_account h.run).left_ne_nil hphase

end Serving

/-- An element of a list with one more at its end is the last or comes before. -/
lemma snoc_eq_append_cons {α : Type} {made first rest : List α} {x y : α}
    (h : made ++ [y] = first ++ x :: rest) :
    (first = made ∧ x = y) ∨ ∃ rest', made = first ++ x :: rest' := by
  rcases List.eq_nil_or_concat rest with rfl | ⟨rest', z, rfl⟩
  · obtain ⟨rfl, hxy⟩ := List.append_inj' h rfl
    exact .inl ⟨rfl, (List.singleton_inj.mp hxy).symm⟩
  · rw [List.concat_eq_append, ← List.cons_append, ← List.append_assoc] at h
    exact .inr ⟨rest', (List.append_inj' h rfl).1⟩

/-- The state that faultless serving ends in, and what was sent before each receive. -/
lemma serve_serving {c : Connection} {w : Surroundings} {log : Bytes}
    (hc : delimiter ∉ c.buffer.bytes) (hw : w.Faultless log) :
    Serving c w log (c.serve w).connection (c.serve w).surroundings (c.serve w).trace ∧
      ∀ first x rest, (c.serve w).trace = first ++ x :: rest → x.request = .receive receiveLimit →
        octetsSent first =
          (growth log (RecordLog.records (c.buffer.bytes ++ octetsReceived first)).1).flatten := by
  refine (serve_induct (P := fun d v made => Serving c w log d v made ∧
    ∀ first x rest, made = first ++ x :: rest → x.request = .receive receiveLimit →
      octetsSent first
        = (growth log (RecordLog.records (c.buffer.bytes ++ octetsReceived first)).1).flatten)
    ?_ ⟨.reopened hc hw, by simp⟩).1
  intro d v made q d' h hq hr
  obtain ⟨hserving, hbefore⟩ := h
  have ha := Surroundings.answer_answered hserving.clean hq
    fun bytes hb => hserving.send_nonempty (hb ▸ hq)
  refine ⟨hserving.step hq hr (ha.report _), fun first x rest hsplit hx => ?_⟩
  rcases snoc_eq_append_cons hsplit with ⟨rfl, rfl⟩ | ⟨rest', hmade⟩
  · have hrest : d.phase.AtRest := by
      cases hphase : d.phase <;> simp_all [Phase.request?, Phase.AtRest]
    obtain ⟨hcut, hsent, -⟩ := hserving.at_rest hrest
    rw [hcut, hsent]
  · exact hbefore first x rest' hmade hx

/-- Serving without faults has a closed form. It ends when the peer closes, whatever the sizes of
receives and sends and wherever they are interrupted. The log has grown by the records of the
stream, the peer was sent the log after each of them, the tail stays buffered, and before every
receive just the echoes of the records received by then have been sent. -/
theorem serve_closed_form {c : Connection} {w : Surroundings} {log : Bytes}
    (hc : delimiter ∉ c.buffer.bytes) (hw : w.Faultless log) :
    let done := c.serve w
    let cut := RecordLog.records (c.buffer.bytes ++ w.script.stream)
    done.connection.ending? = some .peerClosed ∧
    octetsReceived done.trace = w.script.stream ∧
    w.store.readAll done.surroundings.host = .ok (log ++ cut.1.flatten) ∧
    octetsSent done.trace = (growth log cut.1).flatten ∧
    done.connection.records = c.records + cut.1.length ∧
    done.connection.pending = cut.2.length ∧
    ∀ first x rest, done.trace = first ++ x :: rest → x.request = .receive receiveLimit →
      octetsSent first
        = (growth log (RecordLog.records (c.buffer.bytes ++ octetsReceived first)).1).flatten := by
  intro done cut
  obtain ⟨h, hbefore⟩ := serve_serving hc hw
  obtain ⟨ending, hclosed⟩ := (serve_replay c w).2
  obtain ⟨rfl, hstream⟩ := h.ends ending hclosed
  have hsupply := h.supply
  rw [hstream, List.append_nil] at hsupply
  obtain ⟨hcut, hsent, hrecords⟩ := h.at_rest (by rw [hclosed]; trivial)
  rw [hsupply] at hcut
  have hcut' : cut = (recordsAppended done.trace, done.connection.buffer.bytes) := hcut
  have hreads := h.clean.holds.reads
  rw [h.store] at hreads
  rw [hcut']
  refine ⟨?_, hsupply, hreads, hsent, hrecords, rfl, hbefore⟩
  have hphase : done.connection.phase = .closed .peerClosed := hclosed
  simp only [ending?, hphase]

/-- A record that comes in two pieces with an interruption between them, its echo cut short. -/
theorem serve_closed_form_interrupted :
    let log : Bytes := [120, 10]
    let files : FileSystem := {
      entries := [([], .directory FileSystem.newDirectoryMode),
        ([[108]], .file FileSystem.newFileMode log)]
      workingDirectory := [] }
    let script : Script := {
      items := [.deliver [97], .fail (.plain .interrupted), .deliver [10, 98]]
      plan := [(1, .fail (.plain .interrupted)), (2, .cap 1)] }
    let w : Surroundings := { host := { files }, store := ⟨[108]⟩, script }
    let c : Connection := { id := 0 }
    delimiter ∉ c.buffer.bytes ∧ w.Faultless log ∧
      (c.serve w).connection.ending? = some .peerClosed ∧
      w.store.readAll (c.serve w).surroundings.host = .ok [120, 10, 97, 10] ∧
      octetsSent (c.serve w).trace = [120, 10, 97, 10] ∧ (c.serve w).connection.pending = 1 := by
  intro log files script w c
  have hfile : w.store.InFile w.host.files ⟨[], some [108], false⟩ FileSystem.newFileMode log := by
    have found : w.host.files.lookup [[108]] = some (.file FileSystem.newFileMode log) := rfl
    refine ⟨⟨by decide, by decide, by decide, ?_⟩, rfl, found, rfl, rfl⟩
    refine .named ⟨rfl, by decide, by decide, by decide, by decide⟩ fun target link => ?_
    exact absurd (found.symm.trans link) (by simp)
  have hw : w.Faultless log := by
    refine ⟨rfl, hfile.holds, ⟨?_, ?_, by decide⟩⟩
    · simp [w, script, Item.Faultless, IoError.isInterrupted, IoError.kind]
    · simp [w, script, WriteAction.Faultless, IoError.isInterrupted, IoError.kind]
  have hc : delimiter ∉ c.buffer.bytes := by decide
  obtain ⟨hend, -, hlog, hsent, -, hpending, -⟩ := serve_closed_form hc hw
  exact ⟨hc, hw, hend, hlog, hsent, hpending⟩

end Connection

end RecordLog
