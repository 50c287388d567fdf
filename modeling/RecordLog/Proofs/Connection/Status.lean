import RecordLog.Proofs.Connection.Trace

/-! What an observer sees of a connection. Its status goes round: it receives, and then each record
is appended and echoed, one record after another, before it receives again. Every question has the
status that goes with it, and a connection that has been served is closed. Its receives are seen
with the number of octets that were sent before each. -/
namespace RecordLog.Connection

/-- The statuses that follow one another. -/
inductive Status.Next : Status → Status → Prop
  | receive : Next .receiving .receiving
  | append : Next .receiving .appending
  | echo : Next .appending .echoing
  | send : Next .echoing .echoing
  | appendAnother : Next .echoing .appending
  | receiveAgain : Next .echoing .receiving
  | close {s : Status} (opened : s ≠ .closed) : Next s .closed

/-- The statuses in which a question is asked. The flag is looked at in two of them, according to
what came before the look. -/
def Request.AskedIn : Request → Status → Prop
  | readFlag, s => s = .receiving ∨ s = .echoing
  | receive _, s => s = .receiving
  | append _, s => s = .appending
  | readBack, s | send _, s => s = .echoing

/-- A look at the flag keeps a status in which there can be one. -/
def Phase.Keeps : Phase → Prop
  | vetting _ kept => kept = .receiving ∨ kept = .echoing
  | _ => True

variable {c d : Connection} {x : Exchange} {trace before after : List Exchange} {sent n : Nat}
  {result : Except IoError Bytes}

/-- The next record keeps the status, and without one the connection receives. -/
lemma proceed_status (c : Connection) :
    c.proceed.phase.status = c.phase.status ∨ c.proceed.phase.status = .receiving := by
  unfold proceed
  split
  · exact .inl rfl
  · exact .inr rfl

lemma proceed_keeps (h : c.phase.status = .receiving ∨ c.phase.status = .echoing) :
    c.proceed.phase.Keeps := by
  unfold proceed
  split
  · exact h
  · trivial

/-- While it is echoing a connection goes on sending, or to its next record, or to receiving. -/
lemma sendRest_status (h : c.phase.status = .echoing) (record content left : Bytes) :
    (c.sendRest record content left).phase.Keeps ∧
      Status.Next .echoing (c.sendRest record content left).phase.status := by
  cases left with
  | nil =>
    refine ⟨proceed_keeps (.inr h), ?_⟩
    obtain same | again := proceed_status { c with records := c.records + 1 }
    · rw [sendRest, finishRecord, same, h]
      exact .send
    · rw [sendRest, finishRecord, again]
      exact .receiveAgain
  | cons b bs => exact ⟨trivial, .send⟩

theorem Step.status (h : Step c x d) (keeps : c.phase.Keeps) :
    d.phase.Keeps ∧ x.request.AskedIn c.phase.status ∧
      Status.Next c.phase.status d.phase.status := by
  cases h with
  | stopBeforeReceive phase =>
    rw [phase]
    exact ⟨trivial, .inl rfl, .close (by simp [Phase.status])⟩
  | goOn phase =>
    rw [phase]
    exact ⟨trivial, .inl rfl, .receive⟩
  | peerClosed phase | receiveFailed phase =>
    rw [phase]
    exact ⟨trivial, rfl, .close (by simp [Phase.status])⟩
  | @receive bytes phase =>
    have hstatus : c.phase.status = .receiving := by rw [phase]; rfl
    refine ⟨proceed_keeps (.inl hstatus), hstatus, ?_⟩
    obtain same | again := proceed_status { c with buffer := c.buffer.extend bytes }
    · rw [same, hstatus]
      exact .receive
    · rw [again, hstatus]
      exact .receive
  | receiveInterrupted phase =>
    rw [phase]
    exact ⟨trivial, rfl, .receive⟩
  | stopBetweenRecords phase =>
    rw [phase] at keeps ⊢
    refine ⟨trivial, keeps, .close ?_⟩
    rintro rfl
    obtain hkept | hkept := keeps <;> cases hkept
  | vet phase =>
    rw [phase] at keeps ⊢
    refine ⟨trivial, keeps, ?_⟩
    obtain rfl | rfl := keeps
    · exact .append
    · exact .appendAnother
  | append phase =>
    rw [phase]
    exact ⟨trivial, rfl, .echo⟩
  | appendFailed phase | readBackFailed phase | refused phase | sendFailed phase =>
    rw [phase]
    exact ⟨trivial, rfl, .close (by simp [Phase.status])⟩
  | readBack phase | send phase =>
    have hstatus : c.phase.status = .echoing := by rw [phase]; rfl
    obtain ⟨hkeeps, hnext⟩ := sendRest_status hstatus _ _ _
    exact ⟨hkeeps, hstatus, hstatus ▸ hnext⟩
  | sendInterrupted phase =>
    rw [phase]
    exact ⟨trivial, rfl, .send⟩

lemma replay_keeps (h : c.replay? before = some d) (keeps : c.phase.Keeps) : d.phase.Keeps := by
  induction before generalizing c with
  | nil => exact Option.some.inj h ▸ keeps
  | cons x before ih =>
    obtain ⟨e, hstep, hrest⟩ := replay?_cons h
    exact ih hrest (hstep.status keeps).1

/-- In every run each question is asked in a status that goes with it, and the status after the
answer is one that can follow. -/
theorem replay_status (h : c.reopened.replay? (before ++ x :: after) = some d) :
    ∃ e e', c.reopened.replay? before = some e ∧ Step e x e' ∧ e'.replay? after = some d ∧
      x.request.AskedIn e.phase.status ∧ Status.Next e.phase.status e'.phase.status := by
  obtain ⟨e, hbefore, hrest⟩ := replay?_append.mp h
  obtain ⟨e', hstep, hafter⟩ := replay?_cons hrest
  obtain ⟨-, hasked, hnext⟩ := hstep.status (replay_keeps hbefore trivial)
  exact ⟨e, e', hbefore, hstep, hafter, hasked, hnext⟩

/-- A connection that has been served is closed, however that ended. -/
theorem serve_status (c : Connection) (w : Surroundings) :
    (c.serve w).connection.phase.status = .closed := by
  obtain ⟨-, ending, hclosed⟩ := serve_replay c w
  rw [hclosed]
  rfl

lemma receivesAfter_append : receivesAfter sent (before ++ after) =
    receivesAfter sent before ++ receivesAfter (sent + (octetsSent before).length) after := by
  induction before generalizing sent with
  | nil => rfl
  | cons x before ih =>
    obtain ⟨request, reply⟩ := x
    have hsent : octetsSent (⟨request, reply⟩ :: before) =
        Exchange.sent ⟨request, reply⟩ ++ octetsSent before := rfl
    rw [hsent, List.length_append, ← Nat.add_assoc, List.cons_append, receivesAfter, receivesAfter]
    cases reply with
    | received result =>
      have hnone : Exchange.sent ⟨request, .received result⟩ = [] := by cases request <;> rfl
      rw [hnone]
      exact congrArg ((sent, result) :: ·) ih
    | _ => exact ih

lemma exists_of_mem_receivesAfter (h : (n, result) ∈ receivesAfter sent trace) :
    ∃ before request after, trace = before ++ ⟨request, .received result⟩ :: after ∧
      n = sent + (octetsSent before).length := by
  induction trace generalizing sent with
  | nil => cases h
  | cons x trace ih =>
    obtain ⟨request, reply⟩ := x
    have later {sent'} (hsent : sent' = sent + (Exchange.sent ⟨request, reply⟩).length)
        (h : (n, result) ∈ receivesAfter sent' trace) : ∃ before request' after,
          ⟨request, reply⟩ :: trace = before ++ ⟨request', .received result⟩ :: after ∧
            n = sent + (octetsSent before).length := by
      obtain ⟨before, request', after, rfl, rfl⟩ := ih h
      refine ⟨⟨request, reply⟩ :: before, request', after, rfl, ?_⟩
      rw [hsent, Nat.add_assoc, ← List.length_append]
      rfl
    rw [receivesAfter] at h
    cases reply with
    | received found =>
      obtain h | h := List.mem_cons.mp h
      · cases h
        exact ⟨[], request, trace, rfl, rfl⟩
      · exact later (by cases request <;> rfl) h
    | _ => exact later rfl h

/-- What is seen of the receives is every receive, with the octets sent before it. -/
theorem mem_receives : (n, result) ∈ receives trace ↔ ∃ before request after,
    trace = before ++ ⟨request, .received result⟩ :: after ∧ n = (octetsSent before).length := by
  constructor
  · intro h
    obtain ⟨before, request, after, htrace, hn⟩ := exists_of_mem_receivesAfter h
    exact ⟨before, request, after, htrace, hn.trans (Nat.zero_add _)⟩
  · rintro ⟨before, request, after, rfl, rfl⟩
    rw [receives, receivesAfter_append, Nat.zero_add, receivesAfter]
    exact List.mem_append_right _ List.mem_cons_self

/-- Two records in one receive: the second look at the flag comes while the connection is still
echoing. -/
example : let c : Connection := { id := 0, phase := .receiving }
    [.received (.ok [97, 10, 10]), .flag false, .appended (.ok ()), .content (.ok [97, 10]),
      .accepted (.ok 2)].foldlM (fun c reply => c.resume? reply) c =
        some { c with buffer := ⟨[]⟩, records := 1, phase := .vetting [10] .echoing } := by
  decide

end RecordLog.Connection
