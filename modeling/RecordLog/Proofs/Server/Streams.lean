import RecordLog.Proofs.Connection.ClosedForm
import RecordLog.Proofs.Server.Chronicle

/-! What clients send. A worker receives its client's stream piece by piece, and all of it if it
goes on to the end of the stream and nobody closes the socket before. -/
namespace RecordLog

namespace Connection

lemma ending?_eq_some {c : Connection} {e : Ending} :
    c.ending? = some e ↔ c.phase = .closed e := by
  unfold ending?
  split <;> simp_all

lemma ending?_of_request {c : Connection} {q : Request} (h : c.phase.request? = some q) :
    c.ending? = none := by
  unfold ending?
  split
  · rename_i hphase
    rw [hphase] at h
    cases h
  · rfl

lemma ending?_proceed (c : Connection) : c.proceed.ending? = none := by
  unfold proceed
  split <;> rfl

lemma ending?_sendRest (c : Connection) (r content left : Bytes) :
    (c.sendRest r content left).ending? = none := by
  cases left with
  | nil => exact ending?_proceed _
  | cons b bs => rfl

/-- The end of the stream ends a connection, and so does a failure or the flag. -/
lemma Step.ending {c c' : Connection} {x : Exchange} (h : Step c x c') :
    c'.ending? = none ∨ (c'.ending? = some .peerClosed ∧ x.reply = .received (.ok [])) ∨
      x.reply = .flag true ∨ x.Fails := by
  cases h with
  | stopBeforeReceive | stopBetweenRecords => exact .inr (.inr (.inl rfl))
  | peerClosed => exact .inr (.inl ⟨rfl, rfl⟩)
  | receiveFailed _ final | sendFailed _ final => exact .inr (.inr (.inr final))
  | appendFailed | readBackFailed | refused => exact .inr (.inr (.inr trivial))
  | goOn | receiveInterrupted | vet | append => exact .inl rfl
  | receive => exact .inl (ending?_proceed _)
  | readBack | send => exact .inl (ending?_sendRest _ _ _ _)
  | sendInterrupted phase => exact .inl (ending?_of_request (by rw [phase]; rfl))

end Connection

namespace Server

open Connection (Exchange Request Reply octetsReceived)

/-- What the client of worker `i` adds in a move to what receives will find. The first of it comes
when the client is registered. -/
def offers (i : Nat) (s : Server) : Move → List (Except IoError Bytes)
  | .thread .acceptor =>
    match s.acceptor with
    | .registering a =>
      if s.registers (.thread .acceptor) = 1 ∧ i = s.crew.workers.length then a.inbound else []
    | _ => []
  | .deliver j r => if j = i ∧ i < s.crew.workers.length then [r] else []
  | _ => []

/-- All that the client of worker `i` puts up for receives in a run. -/
def offered (i : Nat) : Server → List Move → List (Except IoError Bytes) := collect (offers i)

/-- The octets that are found up to the end of the stream. -/
def stream : List (Except IoError Bytes) → Bytes
  | [] | .ok [] :: _ => []
  | .ok bytes :: rest => bytes ++ stream rest
  | .error _ :: rest => stream rest

variable {s s' : Server} {m : Move} {i : Nat} {w w' : Worker Session} {made : List Exchange}
  {found : List (Except IoError Bytes)}

lemma stream_ok {bytes : Bytes} (h : bytes ≠ []) (rest : List (Except IoError Bytes)) :
    stream (.ok bytes :: rest) = bytes ++ stream rest := by
  cases bytes with
  | nil => exact (h rfl).elim
  | cons b bs => rfl

/-- What was found and not received is what a worker will receive. -/
structure Supplied (w : Worker Session) (made : List Exchange)
    (found : List (Except IoError Bytes)) : Prop where
  going : w.task.connection.ending? = none → ∀ more,
    stream (found ++ more) = octetsReceived made ++ stream (w.task.inbound ++ more)
  closed : w.task.connection.ending? = some .peerClosed → ∀ more,
    stream (found ++ more) = octetsReceived made

/-- A receive takes what it yields from the stream. -/
lemma receive?_stream {x x' : Session} {limit : Nat} {r : Except IoError Bytes}
    (h : x.receive? false limit = some (r, x')) (positive : limit ≠ 0)
    (more : List (Except IoError Bytes)) :
    (∃ e, r = .error e ∧ stream (x.inbound ++ more) = stream (x'.inbound ++ more)) ∨
      (r = .ok [] ∧ stream (x.inbound ++ more) = []) ∨
      ∃ bytes, bytes ≠ [] ∧ r = .ok bytes ∧
        stream (x.inbound ++ more) = bytes ++ stream (x'.inbound ++ more) := by
  unfold Session.receive? at h
  split at h
  · rename_i bytes rest hinbound
    cases h
    simp only [hinbound]
    by_cases hbytes : bytes = []
    · exact .inr (.inl ⟨by simp [hbytes], by simp [hbytes, stream]⟩)
    · refine .inr (.inr ⟨_, by simp [hbytes, positive], rfl, ?_⟩)
      rw [List.cons_append, stream_ok hbytes]
      split
      · rename_i hle
        rw [List.take_of_length_le hle]
      · rename_i hlt
        have hleft : bytes.drop limit ≠ [] := by simpa using hlt
        rw [List.cons_append, stream_ok hleft, ← List.append_assoc, List.take_append_drop]
  · rename_i e rest hinbound
    cases h
    exact .inl ⟨e, rfl, by simp [hinbound, stream]⟩
  · simp at h

lemma Answer.inbound {q : Request} {reply : Reply} {x : Session} {host : Host}
    {lock : Option Thread} (h : s.Answer i w q reply x host lock)
    (other : ∀ r, reply ≠ .received r) : x.inbound = w.task.inbound := by
  cases h with
  | receive => exact (other _ rfl).elim
  | send found =>
    unfold Session.send? at found
    split at found
    · cases found
      rfl
    · split at found <;> cases found <;> rfl
  | _ => rfl

/-- A worker that comes to be has received nothing. -/
lemma Supplied.newcomer (id : Nat) (a : Arrival) :
    Supplied { id, task := .ofArrival a id } [] a.inbound :=
  ⟨fun _ _ => rfl, fun h => by cases h⟩

lemma offers_none (hw : s.crew.workers[i]? = some w) (undelivered : ∀ r, m ≠ .deliver i r) :
    offers i s m = [] := by
  have hlt := (List.getElem?_eq_some_iff.mp hw).1
  unfold offers
  split
  · split
    · rw [if_neg (by omega)]
    · rfl
  · rename_i j r
    refine if_neg fun hmine => undelivered r ?_
    rw [hmine.1]
  · rfl

lemma offers_deliver (hw : s.crew.workers[i]? = some w) (r : Except IoError Bytes) :
    offers i s (.deliver i r) = [r] := by
  simp [offers, (List.getElem?_eq_some_iff.mp hw).1]

/-- What a client puts up is there for its worker. -/
lemma offers_missing (h : s.step? m = some s') (missing : s'.crew.workers[i]? = none) :
    offers i s m = [] := by
  have hlength := (Step.of_step? h).length
  have hle := List.getElem?_eq_none_iff.mp missing
  unfold offers
  split
  · split
    · refine if_neg fun hmine => ?_
      omega
    · rfl
  · refine if_neg fun hmine => ?_
    omega
  · rfl

lemma offers_newcomer {a : Arrival} (phase : s.acceptor = .registering a)
    (registers : s.registers (.thread .acceptor) = 1) :
    offers s.crew.workers.length s (.thread .acceptor) = a.inbound := by
  simp [offers, phase, registers]

/-- A receive from an open socket. -/
lemma Supplied.receive {limit : Nat} {r : Except IoError Bytes} {x : Session} {c : Connection}
    (h : Supplied w made found) (spared : w.shut = false)
    (hfound : w.task.receive? w.shut limit = some (r, x))
    (step : w.task.connection.Step ⟨.receive limit, .received r⟩ c)
    (last : c.ending? = some .peerClosed → r = .ok []) :
    Supplied { w with task := { x with connection := c } }
      (made ++ [⟨.receive limit, .received r⟩]) found := by
  have hgoing := h.going (Connection.ending?_of_request step.resumes.1)
  have hpositive : limit ≠ 0 := by
    cases step <;> decide
  rw [spared] at hfound
  have htakes := receive?_stream hfound hpositive
  refine ⟨fun hopen more => ?_, fun hclosed more => ?_⟩
  · obtain ⟨e, rfl, hsame⟩ | ⟨rfl, -⟩ | ⟨bytes, -, rfl, htaken⟩ := htakes more
    · rw [hgoing, hsame]
      simp [Exchange.delivered]
    · cases step with
      | peerClosed => cases hopen
      | receive _ more => exact (more rfl).elim
    · rw [hgoing, htaken]
      simp [Exchange.delivered]
  · obtain rfl := last hclosed
    obtain ⟨e, he, -⟩ | ⟨-, hend⟩ | ⟨bytes, hbytes, hr, -⟩ := htakes more
    · cases he
    · rw [hgoing, hend]
      simp [Exchange.delivered]
    · exact (hbytes (Except.ok.inj hr).symm).elim

/-- As long as its socket is open, a worker gets from its client's stream what it does not know. -/
lemma Supplied.progress {x : Option Exchange} (h : Supplied w made found)
    (hw : s.crew.workers[i]? = some w) (hp : Progress s m i w x w')
    (spared : w.task.connection.ending? = none → w.shut = false)
    (sound : ∀ y, x = some y → y.reply ≠ .flag true ∧ ¬ y.Fails) :
    Supplied w' (made ++ x.toList) (found ++ offers i s m) := by
  cases hp with
  | rest undelivered =>
    rw [offers_none hw undelivered]
    simpa using ⟨h.going, h.closed⟩
  | deliver mine =>
    rename_i r
    rw [mine, offers_deliver hw]
    refine ⟨fun hopen more => ?_, fun hclosed more => ?_⟩
    · simpa using h.going hopen (r :: more)
    · simpa using h.closed hclosed (r :: more)
  | greet mine | leave mine | grant mine | shut mine =>
    rw [offers_none hw (by simp [mine])]
    simpa using ⟨h.going, h.closed⟩
  | finish mine =>
    rw [offers_none hw (by rintro r rfl; simp at mine)]
    simpa using ⟨h.going, h.closed⟩
  | exchange mine going stage answer step =>
    rename_i q reply x host lock c
    obtain ⟨hunset, hsound⟩ := sound _ rfl
    have hopen := Connection.ending?_of_request step.resumes.1
    have hgoing := h.going hopen
    rw [offers_none hw (by simp [mine]), List.append_nil]
    have hlast : c.ending? = some .peerClosed → reply = .received (.ok []) := by
      intro hclosed
      obtain hnone | ⟨-, hreply⟩ | hset | hfails := step.ending
      · rw [hclosed] at hnone
        cases hnone
      · exact hreply
      · exact (hunset hset).elim
      · exact (hsound hfails).elim
    by_cases hreceived : ∃ r, reply = .received r
    · cases answer with
      | receive hfound =>
        refine h.receive (spared hopen) hfound step fun hclosed => ?_
        exact Reply.received.inj (hlast hclosed)
      | flag | append | readBack | send =>
        obtain ⟨r, hr⟩ := hreceived
        cases hr
    · have hinbound := answer.inbound fun r hr => hreceived ⟨r, hr⟩
      have hquiet : Exchange.delivered ⟨q, reply⟩ = [] := by
        unfold Exchange.delivered
        split
        · rename_i heq
          exact (hreceived ⟨_, congrArg Exchange.reply heq⟩).elim
        · rfl
      refine ⟨fun _ more => ?_, fun hclosed => (hreceived ⟨_, hlast hclosed⟩).elim⟩
      simpa [hquiet, hinbound] using hgoing more

/-- The coordinator has set the flag. -/
def Coordinator.IsPastFlag : Coordinator → Prop
  | waiting | triggering => False
  | _ => True

/-- No socket is forced closed before the flag is set. -/
structure Warned (s : Server) : Prop where
  flag : s.coordinator.IsPastFlag → s.flag.triggered
  shut : ∀ (i : Nat) w, s.crew.workers[i]? = some w → w.shut → s.flag.triggered

namespace Warned

lemma fresh (host : Host) (store : LogStore) (address : SocketAddress) (annotator : Annotator)
    (clock : Clock) : Warned (Server.fresh host store address annotator clock) where
  flag := False.elim
  shut := by simp [Server.fresh]

lemma set (h : Warned s) (taken : s.step? (.thread .coordinator) = some s') :
    s'.flag.triggered := by
  cases hphase : s.coordinator with
  | triggering =>
    simp only [step?, stepThread, stepCoordinator, hphase] at taken
    cases taken
    rfl
  | waiting => simp [step?, stepThread, stepCoordinator, hphase] at taken
  | _ => exact flag_of_step? taken (h.flag (by rw [hphase]; trivial))

theorem step (h : Warned s) (taken : s.step? m = some s') : Warned s' := by
  constructor
  · by_cases hm : m = .thread .coordinator
    · subst hm
      exact fun _ => h.set taken
    · obtain hsame | ⟨-, hnext⟩ := (shares_of_step? taken).2.coordinator hm
      · rw [hsame]
        exact fun hpast => flag_of_step? taken (h.flag hpast)
      · rw [hnext]
        exact False.elim
  · intro i w' hw' hshut
    cases hw : s.crew.workers[i]? with
    | none =>
      obtain ⟨a, -, -, -, -, rfl⟩ := (newcomer_of_step? taken hw).2 w' hw'
      cases hshut
    | some w =>
      obtain ⟨w'', hw'', hprogress⟩ := Progress.of_step? taken hw
      obtain rfl := Option.some.inj (hw'.symm.trans hw'')
      generalize (s.deed? m).bind _ = x at hprogress
      cases hprogress with
      | shut _ closing => exact flag_of_step? taken (h.flag (by rw [closing]; trivial))
      | _ => exact flag_of_step? taken (h.shut i _ hw hshut)

end Warned

end Server

end RecordLog
