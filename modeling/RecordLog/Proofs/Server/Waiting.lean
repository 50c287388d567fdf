import Mathlib.Logic.Relation
import RecordLog.Proofs.Server.Sharing
import RecordLog.Proofs.Server.Shutdown

/-! Who waits for whom. A thread waits for another that has a lock it wants, or that it is to join.
Before the coordinator joins a thread it has done what ends that thread's waiting for clients, so a
shutdown under way never comes to a halt. -/
namespace RecordLog.Server

/-- A thread cannot go on before another has taken a step. -/
inductive WaitsFor (s : Server) : Thread → Thread → Prop
  | store {t holder} (wants : s.WantsStore t) (held : s.storeLock = some holder)
    (other : holder ≠ t) : WaitsFor s t holder
  | registry {t holder} (wants : s.WantsRegistry t) (held : s.registryLock = some holder)
    (other : holder ≠ t) : WaitsFor s t holder
  | reaped {m left count} (phase : s.acceptor = .joining (m :: left) count)
    (going : s.crew.isComplete m.worker = false) : WaitsFor s .acceptor (.worker m.worker)
  | acceptor (phase : s.coordinator = .joiningAcceptor) (going : s.acceptor ≠ .stopped) :
    WaitsFor s .coordinator .acceptor
  | worker {m left joined} (phase : s.coordinator = .joiningWorkers (m :: left) joined)
    (going : s.crew.isComplete m.worker = false) : WaitsFor s .coordinator (.worker m.worker)
  | annotator {joined} (phase : s.coordinator = .joiningAnnotator joined)
    (going : s.annotator.isStopped = false) : WaitsFor s .coordinator .annotator

/-- The thread, or one that it waits for in the end, can take a step. -/
def Moves (s : Server) (t : Thread) : Prop :=
  ∃ t' s', Relation.ReflTransGen s.WaitsFor t t' ∧ s.step? (.thread t') = some s'

/-- What keeps a shutdown from halting. Whoever has a lock is about to use it, and whoever is being
joined has ended or has nothing left to wait for outside. -/
structure Orderly (s : Server) : Prop where
  store : ∀ t, s.storeLock = some t → s.WantsStore t
  registry : ∀ t, s.registryLock = some t → s.WantsRegistry t
  listening : s.coordinator = .joiningAcceptor → s.listening = false
  cancelled : ∀ joined, s.coordinator = .joiningAnnotator joined → s.annotator.cancelled
  reaped : ∀ i ∈ s.acceptor.left, ∃ w, s.crew.workers[i]? = some w ∧ w.isComplete
  forced : ∀ i ∈ s.coordinator.left, ∃ w, s.crew.workers[i]? = some w ∧ (w.isComplete ∨ w.shut)
  registered : ∀ i ∈ s.crew.registered, i < s.crew.workers.length

variable {s s' : Server} {m : Move} {t : Thread} {i : Nat} {work : Server → Server}

lemma underStoreLock_ready (h : s.storeLock = none ∨ s.storeLock = some t) :
    ∃ s', s.underStoreLock t work = some s' := by
  obtain h | h := h <;> simp [underStoreLock, h]

lemma underRegistryLock_ready (h : s.registryLock = none ∨ s.registryLock = some t) :
    ∃ s', s.underRegistryLock t work = some s' := by
  obtain h | h := h <;> simp [underRegistryLock, h]

lemma stepWorker_serving {w : Worker Session} (hw : s.crew.workers[i]? = some w)
    (going : w.isComplete = false) (stage : w.task.stage = .serving) :
    s.stepWorker i = s.stepServing i w := by
  simp [stepWorker, hw, going, stage]

/-- A thread that wants the store takes a step unless another has the lock. -/
lemma WantsStore.ready (wants : s.WantsStore t)
    (h : s.storeLock = none ∨ s.storeLock = some t) : ∃ s', s.stepThread t = some s' := by
  cases wants with
  | worker found going stage asks shared =>
    rw [stepThread, stepWorker_serving found going stage, stepServing]
    rename_i q
    cases q with
    | append record =>
      simp only [asks]
      exact underStoreLock_ready h
    | readBack =>
      simp only [asks]
      exact underStoreLock_ready h
    | readFlag | receive limit | send bytes => exact shared.elim
  | annotator phase =>
    simp only [stepThread, stepAnnotator, phase]
    exact underStoreLock_ready h
  | coordinator phase =>
    simp only [stepThread, stepCoordinator, phase]
    exact underStoreLock_ready h

lemma WantsRegistry.ready (wants : s.WantsRegistry t)
    (h : s.registryLock = none ∨ s.registryLock = some t) : ∃ s', s.stepThread t = some s' := by
  cases wants with
  | registering phase | reaping phase =>
    simp only [stepThread, stepAcceptor, phase]
    exact underRegistryLock_ready h
  | closing phase =>
    simp only [stepThread, stepCoordinator, phase]
    exact underRegistryLock_ready h

lemma Moves.of_step (h : ∃ s', s.stepThread t = some s') : s.Moves t := by
  obtain ⟨s', hstep⟩ := h
  exact ⟨t, s', .refl, hstep⟩

lemma Moves.of_waits {t' : Thread} (waits : s.WaitsFor t t') (h : s.Moves t') : s.Moves t := by
  obtain ⟨last, s', hpath, hstep⟩ := h
  exact ⟨last, s', .head waits hpath, hstep⟩

/-- A thread that waits for another takes no step. -/
theorem WaitsFor.blocked {t' : Thread} (h : s.WaitsFor t t') : s.stepThread t = none := by
  cases h with
  | store wants held other =>
    have hlocked : ∀ work, s.underStoreLock t work = none := by
      intro work
      simp [underStoreLock, held, other]
    cases wants with
    | worker found going stage asks shared =>
      rw [stepThread, stepWorker_serving found going stage, stepServing]
      rename_i q
      cases q with
      | append record => simp only [asks, hlocked]
      | readBack => simp only [asks, hlocked]
      | readFlag | receive limit | send bytes => exact shared.elim
    | annotator phase => simp only [stepThread, stepAnnotator, phase, hlocked]
    | coordinator phase => simp only [stepThread, stepCoordinator, phase, hlocked]
  | registry wants held other =>
    have hlocked : ∀ work, s.underRegistryLock t work = none := by
      intro work
      simp [underRegistryLock, held, other]
    cases wants with
    | registering phase | reaping phase => simp only [stepThread, stepAcceptor, phase, hlocked]
    | closing phase => simp only [stepThread, stepCoordinator, phase, hlocked]
  | reaped phase going => simp [stepThread, stepAcceptor, phase, going]
  | acceptor phase going =>
    simp only [stepThread, stepCoordinator, phase]
  | worker phase going => simp [stepThread, stepCoordinator, phase, going]
  | annotator phase going => simp [stepThread, stepCoordinator, phase, going]

/-- What a worker has reached stays with it: its end, and the closing of its socket. -/
lemma Progress.lasting {w w' : Worker Session} {x : Option Connection.Exchange}
    (h : Progress s m i w x w') :
    (w.isComplete → w'.isComplete) ∧ (w.shut → w'.shut) := by
  cases h with
  | finish => exact ⟨fun _ => rfl, id⟩
  | shut => exact ⟨id, fun _ => rfl⟩
  | _ => exact ⟨id, id⟩

/-- The coordinator makes sure that the listening is over before it joins the acceptor, and that the
annotator is cancelled before it joins that. -/
lemma coordinator_prepares (h : s.stepCoordinator = some s') :
    (s'.coordinator = .joiningAcceptor → s'.listening = false) ∧
      ∀ joined, s'.coordinator = .joiningAnnotator joined → s'.annotator.cancelled := by
  cases CoordinatorStep.of_step h with
  | deafen => exact ⟨fun _ => rfl, by simp⟩
  | cancel => exact ⟨by simp, fun _ _ => rfl⟩
  | lockRegistry phase | lockStore phase => simp [phase]
  | trigger | joinAcceptor | close | join | joined | joinAnnotator | remove =>
    refine ⟨fun h => ?_, fun _ h => ?_⟩ <;> cases h

namespace Orderly

lemma fresh (host : Host) (store : LogStore) (address : SocketAddress) (annotator : Annotator)
    (clock : Clock) : Orderly (Server.fresh host store address annotator clock) where
  store := by simp [Server.fresh]
  registry := by simp [Server.fresh]
  listening := by simp [Server.fresh]
  cancelled := by simp [Server.fresh]
  reaped := by simp [Server.fresh, Acceptor.left]
  forced := by simp [Server.fresh, Coordinator.left]
  registered := by simp [Server.fresh, Crew.registered, SlotTable.values, SlotTable.toList,
    SlotTable.empty]

/-- Nobody is taken out to be reaped who goes on, and nobody to be joined whose socket is open. -/
lemma step_joins {n k : Nat} (h : Orderly s) (hs : Step s n k s') (taken : s.step? m = some s') :
    (∀ i ∈ s'.acceptor.left, ∃ w, s'.crew.workers[i]? = some w ∧ w.isComplete) ∧
    (∀ i ∈ s'.coordinator.left,
      ∃ w, s'.crew.workers[i]? = some w ∧ (w.isComplete ∨ w.shut)) ∧
    ∀ i ∈ s'.crew.registered, i < s'.crew.workers.length := by
  have reaped : ∀ i ∈ s.acceptor.left, ∃ w, s'.crew.workers[i]? = some w ∧ w.isComplete := by
    intro i hi
    obtain ⟨w, hw, hended⟩ := h.reaped i hi
    obtain ⟨w', hw', hprogress⟩ := Progress.of_step? taken hw
    exact ⟨w', hw', hprogress.lasting.1 hended⟩
  have forced : ∀ i ∈ s.coordinator.left,
      ∃ w, s'.crew.workers[i]? = some w ∧ (w.isComplete ∨ w.shut) := by
    intro i hi
    obtain ⟨w, hw, hclosed⟩ := h.forced i hi
    obtain ⟨w', hw', hprogress⟩ := Progress.of_step? taken hw
    exact ⟨w', hw', hclosed.imp hprogress.lasting.1 hprogress.lasting.2⟩
  cases hs with
  | aside kept acceptor coordinator crew =>
    rw [acceptor, coordinator, Crew.registered, crew.registry, crew.length]
    exact ⟨reaped, forced, h.registered⟩
  | accept _ coordinator crew running idle =>
    rw [coordinator, idle.2]
    exact ⟨fun i hi => absurd hi List.not_mem_nil, forced, crew ▸ h.registered⟩
  | register _ coordinator crew running idle =>
    rw [coordinator, idle.2]
    refine ⟨fun i hi => absurd hi List.not_mem_nil, forced, fun i hi => ?_⟩
    rw [crew, Crew.mem_registered_spawn] at hi
    rw [crew, Crew.spawn_length]
    obtain rfl | hold := hi
    · omega
    · have := h.registered i hold
      omega
  | reap _ coordinator crew reaping acceptor =>
    rw [coordinator]
    refine ⟨fun i hi => ?_, forced, fun i hi => ?_⟩
    · rw [acceptor] at hi
      obtain ⟨w, hw, hended⟩ := Crew.isComplete_iff.mp (Crew.takeComplete_ended hi)
      exact ⟨w, crew ▸ hw, hended⟩
    · rw [crew] at hi ⊢
      exact h.registered i (Crew.registered_of_takeComplete hi)
  | reclaim _ coordinator crew joining ended acceptor =>
    rw [coordinator, acceptor]
    rw [joining] at reaped
    exact ⟨fun i hi => reaped i (List.mem_cons_of_mem _ hi), forced, crew ▸ h.registered⟩
  | prepare _ acceptor crew early next =>
    have hleft : s'.coordinator.left = [] := by
      obtain hbefore | ⟨-, hclosing⟩ := next
      · exact (Coordinator.early hbefore).2.1
      · rw [hclosing]
        rfl
    rw [acceptor, hleft]
    exact ⟨reaped, fun i hi => absurd hi List.not_mem_nil, crew ▸ h.registered⟩
  | takeAll _ acceptor crew closing coordinator =>
    rw [acceptor]
    refine ⟨reaped, fun i hi => ?_, fun i hi => ?_⟩
    · rw [coordinator, Coordinator.left, Crew.takeAll_worker] at hi
      have hlt := h.registered i hi
      have hw : s.crew.workers[i]? = some s.crew.workers[i] := List.getElem?_eq_getElem hlt
      rw [crew, Crew.takeAll_getElem?, hw]
      by_cases hended : (s.crew.workers[i]).isComplete
      · exact ⟨_, rfl, .inl (by simp [hended])⟩
      · exact ⟨_, rfl, .inr (by simp [hi, hended])⟩
    · rw [crew, Crew.registered_nil Crew.takeAll_registry] at hi
      exact absurd hi List.not_mem_nil
  | join _ acceptor crew joining ended coordinator =>
    rw [acceptor, coordinator]
    rw [joining] at forced
    exact ⟨reaped, fun i hi => forced i (List.mem_cons_of_mem _ hi), crew ▸ h.registered⟩
  | windUp _ acceptor crew before after =>
    rw [acceptor, after.2]
    exact ⟨reaped, fun i hi => absurd hi List.not_mem_nil, crew ▸ h.registered⟩

/-- A move keeps all this. -/
theorem step (h : Orderly s) (taken : s.step? m = some s') : Orderly s' := by
  obtain ⟨hshares, hminds⟩ := shares_of_step? taken
  obtain ⟨hreaped, hforced, hregistered⟩ := h.step_joins (Step.of_step? taken) taken
  refine ⟨?_, ?_, ?_, ?_, hreaped, hforced, hregistered⟩
  · exact hshares.store.holder h.store fun t other spared => WantsStore.keep taken other spared
  · exact hshares.registry.holder h.registry fun t other _ => WantsRegistry.keep taken other
  · intro hphase
    by_cases hm : m = .thread .coordinator
    · subst hm
      exact (coordinator_prepares taken).1 hphase
    · obtain hsame | ⟨-, hnext⟩ := hminds.coordinator hm
      · exact hminds.listening (h.listening (hsame ▸ hphase))
      · rw [hphase] at hnext
        cases hnext
  · intro joined hphase
    by_cases hm : m = .thread .coordinator
    · subst hm
      exact (coordinator_prepares taken).2 joined hphase
    · obtain hsame | ⟨-, hnext⟩ := hminds.coordinator hm
      · exact hminds.cancelled (h.cancelled joined (hsame ▸ hphase))
      · rw [hphase] at hnext
        cases hnext

/-- A whole run keeps all this. -/
theorem run {moves : List Move} (h : Orderly s) (hrun : s.run? moves = some s') : Orderly s' :=
  run_induct (P := fun _ s => Orderly s) (fun _ _ _ _ _ _ _ hs hstep => hs.step hstep) h hrun

/-- Whoever has the lock of the store takes a step, so whoever wants it moves. -/
lemma store_moves (h : Orderly s) (wants : s.WantsStore t) : s.Moves t := by
  cases hlock : s.storeLock with
  | none => exact .of_step (wants.ready (.inl hlock))
  | some holder =>
    have hholder : s.Moves holder := .of_step ((h.store holder hlock).ready (.inr hlock))
    by_cases hmine : holder = t
    · exact hmine ▸ hholder
    · exact .of_waits (.store wants hlock hmine) hholder

lemma registry_moves (h : Orderly s) (wants : s.WantsRegistry t) : s.Moves t := by
  cases hlock : s.registryLock with
  | none => exact .of_step (wants.ready (.inl hlock))
  | some holder =>
    have hholder : s.Moves holder := .of_step ((h.registry holder hlock).ready (.inr hlock))
    by_cases hmine : holder = t
    · exact hmine ▸ hholder
    · exact .of_waits (.registry wants hlock hmine) hholder

/-- Once nobody listens any more the acceptor does not wait for clients. -/
lemma acceptor_moves (h : Orderly s) (deaf : s.listening = false) (going : s.acceptor ≠ .stopped) :
    s.Moves .acceptor := by
  cases hphase : s.acceptor with
  | polling | refused cause => exact .of_step (by simp [stepThread, stepAcceptor, hphase])
  | accepting => exact .of_step (by simp [stepThread, stepAcceptor, hphase, deaf])
  | registering a => exact h.registry_moves (.registering hphase)
  | reaping => exact h.registry_moves (.reaping hphase)
  | joining left count =>
    cases left with
    | nil => exact .of_step (by simp [stepThread, stepAcceptor, hphase])
    | cons m left =>
      obtain ⟨w, hw, hended⟩ := h.reaped m.worker (by simp [hphase, Acceptor.left])
      have hcomplete : s.crew.isComplete m.worker := Crew.isComplete_iff.mpr ⟨w, hw, hended⟩
      exact .of_step (by simp [stepThread, stepAcceptor, hphase, hcomplete])
  | stopped => exact (going hphase).elim

/-- A worker whose socket has been forced closed does not wait for its client. -/
lemma worker_moves {w : Worker Session} (h : Orderly s) (hw : s.crew.workers[i]? = some w)
    (going : w.isComplete = false) (shut : w.shut) : s.Moves (.worker i) := by
  cases hstage : w.task.stage with
  | starting | finishing => exact .of_step (by simp [stepThread, stepWorker, hw, going, hstage])
  | serving =>
    cases hq : w.task.connection.phase.request? with
    | none =>
      exact .of_step (by simp [stepThread, stepWorker_serving hw going hstage, stepServing, hq])
    | some q =>
      cases q with
      | readFlag =>
        exact .of_step (by simp [stepThread, stepWorker_serving hw going hstage, stepServing, hq])
      | receive limit =>
        have hreceive : ∃ found, w.task.receive? w.shut limit = some found := by
          unfold Session.receive?
          split <;> simp [shut]
        obtain ⟨found, hfound⟩ := hreceive
        exact .of_step (by
          simp [stepThread, stepWorker_serving hw going hstage, stepServing, hq, hfound])
      | send bytes =>
        have hsend : w.task.send? w.shut bytes = some (.error .brokenPipe, w.task) := by
          simp [Session.send?, shut]
        exact .of_step (by
          simp [stepThread, stepWorker_serving hw going hstage, stepServing, hq, hsend])
      | append record => exact h.store_moves (.worker hw going hstage hq trivial)
      | readBack => exact h.store_moves (.worker hw going hstage hq trivial)

/-- A cancelled annotator does not wait for its deadline. -/
lemma annotator_moves (h : Orderly s) (cancelled : s.annotator.cancelled)
    (going : s.annotator.isStopped = false) : s.Moves .annotator := by
  cases hphase : s.annotator.phase with
  | waiting =>
    exact .of_step (by simp [stepThread, stepAnnotator, hphase, Annotator.resume?, cancelled])
  | vetting => exact .of_step (by simp [stepThread, stepAnnotator, hphase])
  | appending => exact h.store_moves (.annotator hphase)
  | stopped why => simp [Annotator.isStopped, hphase] at going

/-- A coordinator that has begun moves until the shutdown is over. -/
lemma coordinator_moves (h : Orderly s) (begun : s.coordinator ≠ .waiting)
    (going : s.outcome? = none) : s.Moves .coordinator := by
  cases hphase : s.coordinator with
  | waiting => exact (begun hphase).elim
  | finished joined => simp [outcome?, hphase] at going
  | triggering | closingListener | cancelling joined =>
    exact .of_step (by simp [stepThread, stepCoordinator, hphase])
  | joiningAcceptor =>
    by_cases hstopped : s.acceptor = .stopped
    · exact .of_step (by simp [stepThread, stepCoordinator, hphase, hstopped])
    · exact .of_waits (.acceptor hphase hstopped) (h.acceptor_moves (h.listening hphase) hstopped)
  | closingWorkers => exact h.registry_moves (.closing hphase)
  | joiningWorkers left joined =>
    cases left with
    | nil => exact .of_step (by simp [stepThread, stepCoordinator, hphase])
    | cons m left =>
      obtain ⟨w, hw, hclosed⟩ := h.forced m.worker (by simp [hphase, Coordinator.left])
      have hcomplete : s.crew.isComplete m.worker = w.isComplete := by simp [Crew.isComplete, hw]
      cases hended : w.isComplete with
      | true =>
        exact .of_step (by simp [stepThread, stepCoordinator, hphase, hcomplete, hended])
      | false =>
        have hshut : w.shut := by simpa [hended] using hclosed
        exact .of_waits (.worker hphase (hcomplete.trans hended)) (h.worker_moves hw hended hshut)
  | joiningAnnotator joined =>
    cases hstopped : s.annotator.isStopped with
    | true => exact .of_step (by simp [stepThread, stepCoordinator, hphase, hstopped])
    | false =>
      exact .of_waits (.annotator hphase hstopped)
        (h.annotator_moves (h.cancelled joined hphase) hstopped)
  | removing joined => exact h.store_moves (.coordinator hphase)

end Orderly

/-- A shutdown that has begun and not returned is never stuck: the coordinator can take a step, or
one of the threads it waits for in the end can, whatever the clients do. -/
theorem shutdown_never_halts {host : Host} {store : LogStore} {address : SocketAddress}
    {annotator : Annotator} {clock : Clock} {moves : List Move} {s : Server}
    (hrun : (fresh host store address annotator clock).run? moves = some s)
    (begun : s.coordinator ≠ .waiting) (going : s.outcome? = none) :
    ∃ t s', Relation.ReflTransGen s.WaitsFor .coordinator t ∧ s.step? (.thread t) = some s' :=
  ((Orderly.fresh host store address annotator clock).run hrun).coordinator_moves begun going

/-- The coordinator comes to join a worker that has been waiting for its client. -/
def idleClient : List Move :=
  let accepts : Move := .thread .acceptor
  let coordinates : Move := .thread .coordinator
  let works : Move := .thread (.worker 0)
  [.arrive (.ok { peer := .v4 .any 0 }), accepts, accepts, accepts, accepts, works, works,
    .shutdown, coordinates, coordinates, accepts, accepts, accepts, accepts, coordinates,
    coordinates, coordinates]

theorem shutdown_never_halts_idle_client : ∃ s, loggedServer.run? idleClient = some s ∧
    s.step? (.thread .coordinator) = none ∧
    ∃ t s', Relation.ReflTransGen s.WaitsFor .coordinator t ∧ s.step? (.thread t) = some s' := by
  obtain ⟨s, hrun, hphase, hblocked⟩ : ∃ s, loggedServer.run? idleClient = some s ∧
      s.coordinator = .joiningWorkers [⟨0, 0⟩] 1 ∧ s.step? (.thread .coordinator) = none :=
    ⟨_, rfl, rfl, rfl⟩
  exact ⟨s, hrun, hblocked,
    shutdown_never_halts hrun (by simp [hphase]) (by simp [outcome?, hphase])⟩

end RecordLog.Server
