import RecordLog.Proofs.Results
import RecordLog.Proofs.Server.Chronicle
import RecordLog.Proofs.Server.Waiting
import RecordLog.Server.Clients

/-! What clients do to a server is a run of it, whatever they do. So all that holds after any run
holds of a scene: a shutdown that comes to rest is over, and what a client has read is what its
worker has sent, in order and from the start. -/
namespace RecordLog

namespace Server

/-- A server comes to another by moves. -/
def Leads (s s' : Server) : Prop := ∃ moves, s.run? moves = some s'

variable {s s' s'' : Server} {m : Move} {i n : Nat}

namespace Leads

lemma refl (s : Server) : s.Leads s := ⟨[], rfl⟩

lemma of_step (h : s.step? m = some s') : s.Leads s' := ⟨[m], run?_cons.mpr ⟨s', h, rfl⟩⟩

lemma trans : s.Leads s' → s'.Leads s'' → s.Leads s'' := by
  rintro ⟨early, hearly⟩ ⟨late, hlate⟩
  exact ⟨early ++ late, by rw [run?_append, hearly, Option.bind_some, hlate]⟩

end Leads

lemma advance?_move (h : s.advance? = some s') : ∃ m, s.step? m = some s' := by
  simp only [advance?, Option.orElse_eq_orElse, Option.orElse_eq_or, Option.or_eq_some_iff] at h
  obtain h | ⟨-, h⟩ := h
  · obtain ⟨t, -, ht⟩ := List.exists_of_findSome?_eq_some h
    exact ⟨.thread t, ht⟩
  · obtain ⟨⟨i, n⟩, -, hgrant⟩ := Option.bind_eq_some_iff.mp h
    exact ⟨_, hgrant⟩

/-- Letting all threads run is a run. -/
theorem settle_leads (n : Nat) (s : Server) : s.Leads (s.settle n) := by
  induction n generalizing s with
  | zero => exact .refl s
  | succ n ih =>
    rw [settle]
    split
    · exact .refl s
    · rename_i s' h
      obtain ⟨m, hm⟩ := advance?_move h
      exact (Leads.of_step hm).trans (ih s')

/-- Once a server has come to rest it does not matter how many steps more it may take. -/
theorem settle_of_le {k : Nat} (rest : (s.settle n).advance? = none) (h : n ≤ k) :
    s.settle k = s.settle n := by
  induction n generalizing s k with
  | zero =>
    cases k with
    | zero => rfl
    | succ k =>
      have hnone : s.advance? = none := rest
      simp only [settle, hnone]
  | succ n ih =>
    obtain ⟨k, rfl⟩ : ∃ j, k = j + 1 := ⟨k - 1, by omega⟩
    rw [settle, settle]
    rw [settle] at rest
    cases hnext : s.advance? with
    | none => rfl
    | some s' =>
      rw [hnext] at rest
      exact ih rest (by omega)

/-- A server that has come to rest has no thread that could go on. -/
lemma stepThread_rest (rest : s.advance? = none) (t : Thread) : s.stepThread t = none := by
  simp only [advance?, Option.orElse_eq_orElse, Option.orElse_eq_or, Option.or_eq_none_iff] at rest
  have hnone := List.findSome?_eq_none_iff.mp rest.1
  by_cases ht : t ∈ s.threads
  · exact hnone t ht
  · cases t with
    | worker i =>
      have hi : s.crew.workers[i]? = none := by
        apply List.getElem?_eq_none_iff.mpr
        simpa [threads] using ht
      simp [stepThread, stepWorker, hi]
    | _ => simp [threads] at ht

/-- A shutdown that has begun and come to rest is over. -/
theorem Orderly.over_of_rest (h : Orderly s) (begun : s.coordinator ≠ .waiting)
    (rest : s.advance? = none) : ∃ joined, s.coordinator = .finished joined := by
  cases hgoing : s.outcome? with
  | some joined => exact ⟨joined, outcome?_eq_some.mp hgoing⟩
  | none =>
    obtain ⟨t, s', -, hstep⟩ := h.coordinator_moves begun hgoing
    have hrest : s.step? (.thread t) = none := stepThread_rest rest t
    rw [hrest] at hstep
    cases hstep

/-- A coordinator that has begun never waits again. -/
lemma Leads.begun (h : s.Leads s') (begun : s.coordinator ≠ .waiting) :
    s'.coordinator ≠ .waiting := by
  obtain ⟨moves, hrun⟩ := h
  refine run_induct (P := fun _ s => s.coordinator ≠ .waiting) ?_ begun hrun
  intro _ m _ s₁ s₂ _ _ hbegun hstep
  by_cases hm : m = .thread .coordinator
  · subst hm
    cases CoordinatorStep.of_step hstep with
    | lockRegistry phase | lockStore phase => simp [phase]
    | _ => simp [report, reportJoined, removeLog]
  · obtain hsame | ⟨hwaiting, -⟩ := (shares_of_step? hstep).2.coordinator hm
    · rwa [hsame]
    · exact (hbegun hwaiting).elim

/-- The octets that the client of a worker has been sent. -/
def sentTo (s : Server) (i : Nat) : Bytes := s.crew.workers[i]?.elim [] (·.task.sent)

/-- What has been sent stays sent. -/
lemma Leads.sent (h : s.Leads s') (i : Nat) : s.sentTo i <+: s'.sentTo i := by
  obtain ⟨moves, hrun⟩ := h
  refine run_induct (P := fun _ s' => s.sentTo i <+: s'.sentTo i) ?_ (List.prefix_refl _) hrun
  intro _ m _ s₁ s₂ _ _ hsent hstep
  refine hsent.trans ?_
  cases hw : s₁.crew.workers[i]? with
  | none => simp [sentTo, hw]
  | some w =>
    obtain ⟨w', hw', hprogress⟩ := Progress.of_step? hstep hw
    simp only [sentTo, hw, hw', Option.elim_some]
    generalize (s₁.deed? m).bind _ = x at hprogress
    cases hprogress with
    | exchange _ _ _ answer _ =>
      rw [answer.session.2]
      exact List.prefix_append _ _
    | _ => exact List.prefix_refl _

/-- Clients are sent what the connections of their workers send. -/
theorem sentTo_history {host : Host} {store : LogStore} {address : SocketAddress}
    {annotator : Annotator} {clock : Clock} {moves : List Move}
    (hrun : (fresh host store address annotator clock).run? moves = some s) (i : Nat) :
    s.sentTo i = Connection.octetsSent
      (exchanges i ((fresh host store address annotator clock).history moves)) := by
  have hchronicle := (Chronicle.fresh host store address annotator clock).run hrun
  cases hw : s.crew.workers[i]? with
  | none =>
    rw [sentTo, hw, hchronicle.absent i hw]
    rfl
  | some w =>
    rw [sentTo, hw]
    exact (hchronicle.served i w hw).sent

end Server

namespace Scene
open Server

variable {c c' : Scene} {k : Client} {name : String} {data : Bytes}

lemma settle_leads (c : Scene) : c.server.Leads c.settle.server := Server.settle_leads _ _

lemma move_leads (c : Scene) (m : Move) : c.server.Leads (c.move m).server := by
  have hmove : c.server.Leads ((c.server.step? m).getD c.server) := by
    cases h : c.server.step? m with
    | none => exact .refl _
    | some s => exact .of_step h
  exact hmove.trans (Server.settle_leads _ _)

lemma connect_leads (h : c.connect name = .ok (k, c')) : c.server.Leads c'.server := by
  unfold connect at h
  obtain ⟨_, -, h⟩ := bind_eq_ok.mp h
  cases h
  exact move_leads c _

lemma send_leads (c : Scene) (k : Client) (bytes : Bytes) :
    c.server.Leads (c.send k bytes).server := by
  unfold send
  split
  · exact .refl _
  · exact move_leads c _

lemma sends_leads (loads : List Bytes) (c : Scene) (k : Client) :
    c.server.Leads (loads.foldl (fun c bytes => c.send k bytes) c).server := by
  induction loads generalizing c with
  | nil => exact .refl _
  | cons bytes loads ih => exact (send_leads c k bytes).trans (ih _)

/-- A visit is a run. -/
theorem visit_leads {bytes : Bytes} {times : Nat} (h : c.visit bytes times = .ok (data, c')) :
    c.server.Leads c'.server := by
  unfold visit at h
  obtain ⟨⟨k, c₁⟩, hconnect, h⟩ := bind_eq_ok.mp h
  cases h
  exact ((connect_leads hconnect).trans (sends_leads _ c₁ k)).trans (move_leads _ _)

lemma shutdown_leads (c : Scene) : c.server.Leads c.shutdown.server := move_leads c _

/-- Letting time pass is a run, however long it takes. -/
theorem runUntil_leads (limit : Nat) (enough : Scene → Bool) (c : Scene) :
    c.server.Leads (c.runUntil limit enough).server := by
  have hgo : ∀ n (c : Scene), c.server.Leads (runUntil.go limit enough n c).server := by
    intro n
    induction n with
    | zero => exact fun c => .refl _
    | succ n ih =>
      intro c
      rw [runUntil.go]
      split
      · exact .refl _
      · exact (move_leads c _).trans (ih _)
  exact hgo stepLimit c

/-- A scene whose server has been started at some time. -/
def Live (c : Scene) : Prop :=
  ∃ host store address annotator clock, (fresh host store address annotator clock).Leads c.server

lemma Live.leads (live : c.Live) (h : c.server.Leads c'.server) : c'.Live := by
  obtain ⟨host, store, address, annotator, clock, hstart⟩ := live
  exact ⟨host, store, address, annotator, clock, hstart.trans h⟩

/-- A scene that comes to rest after it has been shut down has shut down indeed: all threads have
ended, so every client has been served, and new ones are turned away. -/
theorem shutdown_over (live : c.Live) (rest : c.shutdown.server.advance? = none) :
    (∃ joined, c.shutdown.server.outcome? = some joined) ∧
      (∀ k, k.worker < c.shutdown.server.crew.workers.length → c.shutdown.isServed k = true) ∧
      c.shutdown.server.annotator.isStopped = true ∧ c.shutdown.refuses = true := by
  obtain ⟨host, store, address, annotator, clock, moves, hrun⟩ := live.leads (shutdown_leads c)
  have hbegun : c.shutdown.server.coordinator ≠ .waiting := by
    have hasked : ((c.server.step? .shutdown).getD c.server).coordinator ≠ .waiting := by
      simp only [step?]
      split
      · simp
      · assumption
    exact (Server.settle_leads _ _).begun hasked
  obtain ⟨joined, hdone⟩ :=
    ((Orderly.fresh host store address annotator clock).run hrun).over_of_rest hbegun rest
  obtain ⟨hsound, -⟩ := (Sound.fresh host store address annotator clock).run hrun
  obtain ⟨-, hended, hsilent, -⟩ := hsound.over hdone
  refine ⟨⟨joined, outcome?_eq_some.mpr hdone⟩, ?_, hsilent, ?_⟩
  · intro k hk
    exact Crew.isComplete_iff.mpr
      ⟨_, List.getElem?_eq_getElem hk, hended _ (List.getElem_mem hk)⟩
  · have hgone : c.shutdown.server.address ∉ c.shutdown.network.held := by
      simp [shutdown, release, Network.release]
    simp only [refuses, Network.connect, hgone, if_false]
    split <;> rfl

/-- What a client has read: so many octets of those it has been sent, from the start. -/
structure HasRead (c : Scene) (k : Client) (data : Bytes) : Prop where
  known : data = (c.server.sentTo k.worker).take k.received
  within : k.received ≤ (c.server.sentTo k.worker).length

lemma unread_eq (c : Scene) (k : Client) :
    c.unread k = (c.server.sentTo k.worker).drop k.received := rfl

/-- Whatever happens then, a client has read what it has read. -/
lemma HasRead.leads (h : c.HasRead k data) (hleads : c.server.Leads c'.server) :
    c'.HasRead k data := by
  obtain ⟨rest, hsent⟩ := hleads.sent k.worker
  obtain ⟨rfl, within⟩ := h
  constructor
  · rw [← hsent, List.take_append_of_le_length within]
  · rw [← hsent, List.length_append]
    omega

/-- A read goes on where the last one ended, and finds no more than there is. -/
theorem HasRead.read (h : c.HasRead k data) (n : Nat) : ∃ more c',
    c.read k n = (more, c') ∧ c'.server = c.server ∧ more.length ≤ n ∧
      c'.HasRead { k with received := k.received + more.length } (data ++ more) := by
  obtain ⟨rfl, within⟩ := h
  have hnext : ∀ (sent : List UInt8) r, sent.take r ++ (sent.drop r).take n =
      sent.take (r + ((sent.drop r).take n).length) := by
    intro sent r
    rw [List.take_add]
    congr 1
    rw [List.take_eq_take_iff, List.length_take]
    omega
  refine ⟨_, _, rfl, rfl, List.length_take_le .., hnext _ _, ?_⟩
  have hmore := List.length_take_le' n (c.unread k)
  rw [unread_eq, List.length_drop] at hmore
  exact Nat.add_le_of_le_sub' within hmore

/-- A visitor reads all that it is sent. -/
theorem visit_reads {bytes : Bytes} {times : Nat} (h : c.visit bytes times = .ok (data, c')) :
    data = c'.server.sentTo c.server.crew.workers.length := by
  unfold visit at h
  obtain ⟨⟨k, c₁⟩, hconnect, h⟩ := bind_eq_ok.mp h
  cases h
  unfold connect at hconnect
  obtain ⟨_, -, hconnect⟩ := bind_eq_ok.mp hconnect
  cases hconnect
  exact List.drop_zero

end Scene

end RecordLog
