import RecordLog.Proofs.Server.Sharing

/-! Each worker is what its exchanges have made of it. A worker starts with nothing exchanged, and
whatever a run does to it is in the history of the run. -/
namespace RecordLog.Server

open Connection (Exchange Request Reply octetsSent)

variable {s s' : Server} {m : Move} {i : Nat} {w w' : Worker Session} {made : List Exchange}
  {deeds : List Deed}

/-- The worker has made these exchanges. -/
structure Served (w : Worker Session) (made : List Exchange) : Prop where
  run : ({ id := w.id } : Connection).replay? made = some w.task.connection
  sent : w.task.sent = octetsSent made
  unbegun : w.task.stage = .starting → made = []

/-- Beside its connection an answer changes a session by what the client takes. -/
lemma Answer.session {q : Request} {reply : Reply} {x : Session} {host : Host}
    {lock : Option Thread} (h : s.Answer i w q reply x host lock) :
    x.stage = w.task.stage ∧ x.sent = w.task.sent ++ Exchange.sent ⟨q, reply⟩ := by
  cases h with
  | flag | append | readBack => exact ⟨rfl, (List.append_nil _).symm⟩
  | receive found =>
    unfold Session.receive? at found
    split at found
    · cases found
      exact ⟨rfl, (List.append_nil _).symm⟩
    · cases found
      exact ⟨rfl, (List.append_nil _).symm⟩
    · split at found <;> cases found
      exact ⟨rfl, (List.append_nil _).symm⟩
  | send found =>
    unfold Session.send? at found
    split at found
    · cases found
      exact ⟨rfl, (List.append_nil _).symm⟩
    · split at found <;> cases found
      · exact ⟨rfl, rfl⟩
      · exact ⟨rfl, (List.append_nil _).symm⟩

lemma Answer.appended {record : Bytes} {reply : Reply} {x : Session} {host : Host}
    {lock : Option Thread} (h : s.Answer i w (.append record) reply x host lock) :
    reply = .appended (s.store.append record s.host).1 := by
  cases h
  rfl

lemma Answer.content {reply : Reply} {x : Session} {host : Host} {lock : Option Thread}
    (h : s.Answer i w .readBack reply x host lock) :
    reply = .content (s.store.readAll s.host) := by
  cases h
  rfl

lemma Served.newcomer (id : Nat) (a : Arrival) : Served { id, task := .ofArrival a id } [] :=
  ⟨rfl, rfl, fun _ => rfl⟩

/-- Whatever happens to a worker, it has made the exchanges it has made. -/
lemma Served.progress {x : Option Exchange} (h : Served w made) (hp : Progress s m i w x w') :
    Served w' (made ++ x.toList) := by
  cases hp with
  | exchange mine going stage answer step =>
    obtain ⟨hstage, hsent⟩ := answer.session
    obtain ⟨hasks, hresume⟩ := step.resumes
    refine ⟨Connection.replay?_snoc h.run hasks hresume, ?_, fun hstart => ?_⟩
    · simp only [Option.toList_some, Connection.octetsSent_snoc, hsent, h.sent]
    · simp only [hstage, stage] at hstart
      cases hstart
  | greet | leave => exact ⟨by simpa using h.run, by simpa using h.sent, fun h => by cases h⟩
  | rest | finish | deliver | grant | shut => simpa using ⟨h.run, h.sent, h.unbegun⟩

/-- Only the acceptor starts workers. -/
lemma registers_other (h : m ≠ .thread .acceptor) : s.registers m = 0 := by
  cases m with
  | thread t =>
    cases t with
    | acceptor => exact (h rfl).elim
    | _ => rfl
  | _ => rfl

/-- A worker that is not there exchanges nothing. It comes to be when its client is registered. -/
theorem newcomer_of_step? (h : s.step? m = some s') (missing : s.crew.workers[i]? = none) :
    (s.deed? m).bind (·.exchange? i) = none ∧ ∀ w, s'.crew.workers[i]? = some w →
      ∃ a, m = .thread .acceptor ∧ s.acceptor = .registering a ∧ s.registers m = 1 ∧
        i = s.crew.workers.length ∧
        w = { id := s.crew.registry.nextKey, task := .ofArrival a s.crew.registry.nextKey } := by
  have hlength := (Step.of_step? h).length
  have hle := List.getElem?_eq_none_iff.mp missing
  constructor
  · cases m with
    | thread t =>
      cases t with
      | worker j =>
        by_cases hij : j = i
        · subst hij
          simp [deed?, exchange?, missing]
        · cases hx : s.exchange? j <;> simp [deed?, hx, Deed.exchange?, hij]
      | acceptor | annotator =>
        simp only [deed?]
        split <;> rfl
      | coordinator => rfl
    | _ => rfl
  · intro w hw
    by_cases hm : m = .thread .acceptor
    · subst hm
      obtain ⟨-, hsame⟩ | ⟨a, hphase, hone, hmore⟩ := acceptor_workers h
      · rw [hsame, missing] at hw
        cases hw
      · rw [hmore, List.getElem?_append_right hle] at hw
        obtain ⟨hi, rfl⟩ := List.getElem?_eq_some_iff.mp hw
        simp only [List.length_singleton] at hi
        refine ⟨a, rfl, hphase, hone, by omega, ?_⟩
        simp
    · rw [registers_other hm] at hlength
      have hlt := (List.getElem?_eq_some_iff.mp hw).1
      omega

/-- Who makes an exchange is serving and has asked for it. -/
lemma exchanged_cases {x : Exchange} (h : s.step? m = some s')
    (hd : s.deed? m = some (.exchanged i x)) : ∃ w session host lock,
      s.crew.workers[i]? = some w ∧ w.task.connection.phase.request? = some x.request ∧
        s.Answer i w x.request x.reply session host lock := by
  have hx : (s.deed? m).bind (·.exchange? i) = some x := by simp [hd, Deed.exchange?]
  cases hw : s.crew.workers[i]? with
  | none =>
    rw [(newcomer_of_step? h hw).1] at hx
    cases hx
  | some w =>
    obtain ⟨w', -, hprogress⟩ := Progress.of_step? h hw
    rw [hx] at hprogress
    cases hprogress with
    | exchange mine going stage answer step =>
      exact ⟨w, _, _, _, rfl, step.resumes.1, answer⟩

/-- The history of a run tells what each worker has exchanged. -/
structure Chronicle (s : Server) (deeds : List Deed) : Prop where
  served : ∀ i w, s.crew.workers[i]? = some w → Served w (exchanges i deeds)
  absent : ∀ i, s.crew.workers[i]? = none → exchanges i deeds = []

namespace Chronicle

lemma fresh (host : Host) (store : LogStore) (address : SocketAddress) (annotator : Annotator)
    (clock : Clock) : Chronicle (Server.fresh host store address annotator clock) [] where
  served := by simp [Server.fresh]
  absent := fun _ _ => rfl

/-- A move adds its deed. -/
theorem step (h : Chronicle s deeds) (taken : s.step? m = some s') :
    Chronicle s' (deeds ++ (s.deed? m).toList) := by
  constructor
  · intro i w' hw'
    rw [exchanges_snoc]
    cases hw : s.crew.workers[i]? with
    | some w =>
      obtain ⟨w'', hw'', hprogress⟩ := Progress.of_step? taken hw
      obtain rfl := Option.some.inj (hw'.symm.trans hw'')
      exact (h.served i w hw).progress hprogress
    | none =>
      obtain ⟨hquiet, hnew⟩ := newcomer_of_step? taken hw
      obtain ⟨a, -, -, -, -, rfl⟩ := hnew w' hw'
      rw [hquiet, h.absent i hw]
      exact .newcomer _ a
  · intro i hw'
    rw [exchanges_snoc]
    cases hw : s.crew.workers[i]? with
    | some w =>
      obtain ⟨w'', hw'', -⟩ := Progress.of_step? taken hw
      rw [hw'] at hw''
      cases hw''
    | none => rw [(newcomer_of_step? taken hw).1, h.absent i hw]; rfl

/-- A whole run is told by its history. -/
theorem run {s₀ : Server} {moves : List Move} (start : Chronicle s₀ [])
    (hrun : s₀.run? moves = some s) : Chronicle s (s₀.history moves) := by
  refine run_induct (P := fun made s => Chronicle s (s₀.history made)) ?_ start hrun
  intro made m rest s₁ s₂ _ hmade h hstep
  rw [history_snoc hmade]
  exact h.step hstep

end Chronicle

end RecordLog.Server
