import Mathlib.Tactic.Lemma
import RecordLog.Server.Step

/-! What each thread can do in a step, one constructor for each way. A thread at a lock takes it in
one step, and works and lets go in the next. -/
namespace RecordLog

/-- The answer is made under the lock of the store. -/
def Connection.Request.UsesStore : Connection.Request → Prop
  | append _ | readBack => True
  | _ => False

namespace Server

open Connection (Exchange Request Reply)

variable {s s' : Server} {t : Thread} {i : Nat} {w : Worker Session} {work : Server → Server}

lemma underStoreLock_eq_some (h : s.underStoreLock t work = some s') :
    (s.storeLock = none ∧ s' = { s with storeLock := some t }) ∨
      s.storeLock = some t ∧ s' = { work s with storeLock := none } := by
  unfold underStoreLock at h
  split at h
  · exact .inl ⟨‹_›, (Option.some.inj h).symm⟩
  · rename_i holder hholder
    split at h
    · rename_i ht
      exact .inr ⟨ht ▸ hholder, (Option.some.inj h).symm⟩
    · cases h

lemma underRegistryLock_eq_some (h : s.underRegistryLock t work = some s') :
    (s.registryLock = none ∧ s' = { s with registryLock := some t }) ∨
      s.registryLock = some t ∧ s' = { work s with registryLock := none } := by
  unfold underRegistryLock at h
  split at h
  · exact .inl ⟨‹_›, (Option.some.inj h).symm⟩
  · rename_i holder hholder
    split at h
    · rename_i ht
      exact .inr ⟨ht ▸ hholder, (Option.some.inj h).symm⟩
    · cases h

inductive AcceptorStep (s : Server) : Server → Prop
  | poll (phase : s.acceptor = .polling) (unset : ¬ s.flag.triggered) :
    AcceptorStep s { s with acceptor := .accepting }
  | stop (phase : s.acceptor = .polling) (flag : s.flag.triggered) : AcceptorStep s s.stopAcceptor
  | deaf (phase : s.acceptor = .accepting) :
    AcceptorStep s { s with acceptor := .refused acceptRefused }
  | accept {a rest} (phase : s.acceptor = .accepting) (listens : s.listening)
    (arrivals : s.arrivals = .ok a :: rest) :
    AcceptorStep s { s with arrivals := rest, acceptor := .registering a }
  | fail {e rest} (phase : s.acceptor = .accepting) (arrivals : s.arrivals = .error e :: rest) :
    AcceptorStep s { s with arrivals := rest, acceptor := .refused e }
  | retry {e} (phase : s.acceptor = .refused e) (unset : ¬ s.flag.triggered) :
    AcceptorStep s ({ s with acceptor := .polling }.report
      [event .error "Failed to accept connection" [("error", e.message)]])
  | giveUp {e} (phase : s.acceptor = .refused e) (flag : s.flag.triggered) :
    AcceptorStep s s.stopAcceptor
  | lock (phase : (∃ a, s.acceptor = .registering a) ∨ s.acceptor = .reaping)
    (free : s.registryLock = none) : AcceptorStep s { s with registryLock := some .acceptor }
  | register {a} (phase : s.acceptor = .registering a) (held : s.registryLock = some .acceptor)
    (able : a.obstacle = none) : AcceptorStep s { register a s with registryLock := none }
  | refuse {a e} (phase : s.acceptor = .registering a) (held : s.registryLock = some .acceptor)
    (obstacle : a.obstacle = some e) : AcceptorStep s { register a s with registryLock := none }
  | reap (phase : s.acceptor = .reaping) (held : s.registryLock = some .acceptor) :
    AcceptorStep s { reap s with registryLock := none }
  | join {m left count} (phase : s.acceptor = .joining (m :: left) count)
    (ended : s.crew.isComplete m.worker) :
    AcceptorStep s
      ({ s with acceptor := .joining left count, reaped := s.reaped + 1 }.reportJoined m)
  | reclaimed {count} (phase : s.acceptor = .joining [] count) :
    AcceptorStep s ({ s with acceptor := .polling }.report (if count = 0 then [] else
      [event .debug "Reclaimed finished workers" [("reaped", toString count)]]))

theorem AcceptorStep.of_step (h : s.stepAcceptor = some s') : AcceptorStep s s' := by
  unfold stepAcceptor at h
  cases hphase : s.acceptor with
  | polling =>
    simp only [hphase] at h
    split at h <;> cases h
    · exact .stop hphase ‹_›
    · exact .poll hphase ‹_›
  | accepting =>
    simp only [hphase] at h
    split at h
    · cases h
      exact .deaf hphase
    · rename_i hlistens
      split at h <;> cases h
      · exact .accept hphase (by simpa using hlistens) ‹_›
      · exact .fail hphase ‹_›
  | refused e =>
    simp only [hphase] at h
    split at h <;> cases h
    · exact .giveUp hphase ‹_›
    · exact .retry hphase ‹_›
  | registering a =>
    simp only [hphase] at h
    obtain ⟨hfree, rfl⟩ | ⟨hheld, rfl⟩ := underRegistryLock_eq_some h
    · exact .lock (.inl ⟨a, hphase⟩) hfree
    · cases hobstacle : a.obstacle with
      | none => exact .register hphase hheld hobstacle
      | some e => exact .refuse hphase hheld hobstacle
  | reaping =>
    simp only [hphase] at h
    obtain ⟨hfree, rfl⟩ | ⟨hheld, rfl⟩ := underRegistryLock_eq_some h
    · exact .lock (.inr hphase) hfree
    · exact .reap hphase hheld
  | joining left count =>
    cases left with
    | nil =>
      simp only [hphase] at h
      cases h
      exact .reclaimed hphase
    | cons m left =>
      simp only [hphase] at h
      split at h <;> cases h
      exact .join hphase ‹_›
  | stopped => simp [hphase] at h

inductive AnnotatorStep (s : Server) : Server → Prop
  | wake {a} (phase : s.annotator.phase = .waiting)
    (woken : s.annotator.resume? (.woken s.clock.now) = some a) :
    AnnotatorStep s { s with annotator := a }
  | vet (phase : s.annotator.phase = .vetting) :
    AnnotatorStep s ({ s with annotator := s.annotator.resume (.flag s.flag.triggered) }.report
      (if s.flag.triggered then [Annotator.sawShutdown] else []))
  | lock (phase : s.annotator.phase = .appending) (free : s.storeLock = none) :
    AnnotatorStep s { s with storeLock := some .annotator }
  | append {result host} (phase : s.annotator.phase = .appending)
    (held : s.storeLock = some .annotator)
    (appended : s.store.append (Bytes.ofString s.clock.record) s.host = (result, host)) :
    AnnotatorStep s { { s with host, annotator := s.annotator.resume (.appended result) }.report
      [Annotator.attempted s.clock.record result] with storeLock := none }

theorem AnnotatorStep.of_step (h : s.stepAnnotator = some s') : AnnotatorStep s s' := by
  unfold stepAnnotator at h
  cases hphase : s.annotator.phase with
  | waiting =>
    simp only [hphase] at h
    obtain ⟨a, ha, rfl⟩ := Option.map_eq_some_iff.mp h
    exact .wake hphase ha
  | vetting =>
    simp only [hphase] at h
    cases h
    exact .vet hphase
  | appending =>
    simp only [hphase] at h
    obtain ⟨hfree, rfl⟩ | ⟨hheld, rfl⟩ := underStoreLock_eq_some h
    · exact .lock hphase hfree
    · exact .append hphase hheld rfl
  | stopped why => simp [hphase] at h

inductive CoordinatorStep (s : Server) : Server → Prop
  | trigger (phase : s.coordinator = .triggering) :
    CoordinatorStep s ({ s with
      flag := s.flag.trigger.2, coordinator := .closingListener }.report
        (if s.flag.trigger.1 then [] else [event .debug "Shutdown already in progress" []]))
  | deafen (phase : s.coordinator = .closingListener) :
    CoordinatorStep s { s with
      listening := false, arrivals := [], coordinator := .joiningAcceptor }
  | joinAcceptor (phase : s.coordinator = .joiningAcceptor) (stopped : s.acceptor = .stopped) :
    CoordinatorStep s { s with coordinator := .closingWorkers }
  | lockRegistry (phase : s.coordinator = .closingWorkers) (free : s.registryLock = none) :
    CoordinatorStep s { s with registryLock := some .coordinator }
  | close (phase : s.coordinator = .closingWorkers) (held : s.registryLock = some .coordinator) :
    CoordinatorStep s { s with
      crew := s.crew.takeAll.2
      coordinator := .joiningWorkers s.crew.takeAll.1 s.crew.takeAll.1.length
      registryLock := none }
  | join {m left joined} (phase : s.coordinator = .joiningWorkers (m :: left) joined)
    (ended : s.crew.isComplete m.worker) :
    CoordinatorStep s ({ s with coordinator := .joiningWorkers left joined }.reportJoined m)
  | joined {joined} (phase : s.coordinator = .joiningWorkers [] joined) :
    CoordinatorStep s ({ s with coordinator := .cancelling joined }.report
      [event .debug "Joined connection workers" [("joined", toString joined)]])
  | cancel {joined} (phase : s.coordinator = .cancelling joined) :
    CoordinatorStep s { s with
      annotator := s.annotator.cancel, coordinator := .joiningAnnotator joined }
  | joinAnnotator {joined} (phase : s.coordinator = .joiningAnnotator joined)
    (stopped : s.annotator.isStopped) :
    CoordinatorStep s ({ s with coordinator := .removing joined }.report s.annotator.joined)
  | lockStore {joined} (phase : s.coordinator = .removing joined) (free : s.storeLock = none) :
    CoordinatorStep s { s with storeLock := some .coordinator }
  | remove {joined} (phase : s.coordinator = .removing joined)
    (held : s.storeLock = some .coordinator) :
    CoordinatorStep s { removeLog joined s with storeLock := none }

theorem CoordinatorStep.of_step (h : s.stepCoordinator = some s') : CoordinatorStep s s' := by
  unfold stepCoordinator at h
  cases hphase : s.coordinator with
  | waiting | finished joined => simp [hphase] at h
  | triggering =>
    simp only [hphase] at h
    cases h
    exact .trigger hphase
  | closingListener =>
    simp only [hphase] at h
    cases h
    exact .deafen hphase
  | joiningAcceptor =>
    simp only [hphase] at h
    split at h <;> cases h
    exact .joinAcceptor hphase ‹_›
  | closingWorkers =>
    simp only [hphase] at h
    obtain ⟨hfree, rfl⟩ | ⟨hheld, rfl⟩ := underRegistryLock_eq_some h
    · exact .lockRegistry hphase hfree
    · exact .close hphase hheld
  | joiningWorkers left joined =>
    cases left with
    | nil =>
      simp only [hphase] at h
      cases h
      exact .joined hphase
    | cons m left =>
      simp only [hphase] at h
      split at h <;> cases h
      exact .join hphase ‹_›
  | cancelling joined =>
    simp only [hphase] at h
    cases h
    exact .cancel hphase
  | joiningAnnotator joined =>
    simp only [hphase] at h
    split at h <;> cases h
    exact .joinAnnotator hphase ‹_›
  | removing joined =>
    simp only [hphase] at h
    obtain ⟨hfree, rfl⟩ | ⟨hheld, rfl⟩ := underStoreLock_eq_some h
    · exact .lockStore hphase hfree
    · exact .remove hphase hheld

/-- How a question of worker `i` is answered: the answer, and its session, the host and the holder
of the store's lock then. -/
inductive Answer (s : Server) (i : Nat) (w : Worker Session) :
    Request → Reply → Session → Host → Option Thread → Prop
  | flag : Answer s i w .readFlag (.flag s.flag.triggered) w.task s.host s.storeLock
  | receive {limit r x} (found : w.task.receive? w.shut limit = some (r, x)) :
    Answer s i w (.receive limit) (.received r) x s.host s.storeLock
  | append {record} (held : s.storeLock = some (.worker i)) :
    Answer s i w (.append record) (.appended (s.store.append record s.host).1) w.task
      (s.store.append record s.host).2 none
  | readBack (held : s.storeLock = some (.worker i)) :
    Answer s i w .readBack (.content (s.store.readAll s.host)) w.task s.host none
  | send {bytes r x} (found : w.task.send? w.shut bytes = some (r, x)) :
    Answer s i w (.send bytes) (.accepted r) x s.host s.storeLock

/-- A step of worker `i`, with the exchange that it makes. -/
inductive WorkerStep (s : Server) (i : Nat) (w : Worker Session) : Option Exchange → Server → Prop
  | greet (stage : w.task.stage = .starting) :
    WorkerStep s i w none
      ((s.updateSession i ({ · with stage := .serving })).report [greeting w.task])
  | lock {q} (stage : w.task.stage = .serving) (asks : w.task.connection.phase.request? = some q)
    (shared : q.UsesStore) (free : s.storeLock = none) :
    WorkerStep s i w none { s with storeLock := some (.worker i) }
  | exchange {q reply x host lock} (stage : w.task.stage = .serving)
    (asks : w.task.connection.phase.request? = some q)
    (answer : s.Answer i w q reply x host lock) :
    WorkerStep s i w (some ⟨q, reply⟩)
      (resumeWorker i x reply { s with host, storeLock := lock })
  | leave (stage : w.task.stage = .serving) (closed : w.task.connection.phase.request? = none) :
    WorkerStep s i w none
      ((s.updateSession i ({ · with stage := .finishing })).report (abortion w.task))
  | finish (stage : w.task.stage = .finishing) :
    WorkerStep s i w none ({ s with crew := s.crew.finish i .returned }.report [farewell w.task])

theorem serving_step (stage : w.task.stage = .serving) (h : s.stepServing i w = some s') :
    ∃ x, WorkerStep s i w x s' := by
  unfold stepServing at h
  dsimp only at h
  cases hq : w.task.connection.phase.request? with
  | none =>
    simp only [hq] at h
    cases h
    exact ⟨_, .leave stage hq⟩
  | some q =>
    cases q with
    | readFlag =>
      simp only [hq] at h
      cases h
      exact ⟨_, .exchange stage hq .flag⟩
    | receive limit =>
      simp only [hq] at h
      obtain ⟨⟨r, x⟩, hfound, rfl⟩ := Option.map_eq_some_iff.mp h
      exact ⟨_, .exchange stage hq (.receive hfound)⟩
    | append record =>
      simp only [hq] at h
      obtain ⟨hfree, rfl⟩ | ⟨hheld, rfl⟩ := underStoreLock_eq_some h
      · exact ⟨_, .lock stage hq trivial hfree⟩
      · exact ⟨_, .exchange stage hq (.append hheld)⟩
    | readBack =>
      simp only [hq] at h
      obtain ⟨hfree, rfl⟩ | ⟨hheld, rfl⟩ := underStoreLock_eq_some h
      · exact ⟨_, .lock stage hq trivial hfree⟩
      · exact ⟨_, .exchange stage hq (.readBack hheld)⟩
    | send bytes =>
      simp only [hq] at h
      obtain ⟨⟨r, x⟩, hfound, rfl⟩ := Option.map_eq_some_iff.mp h
      exact ⟨_, .exchange stage hq (.send hfound)⟩

theorem WorkerStep.of_step (h : s.stepWorker i = some s') : ∃ w x, s.crew.workers[i]? = some w ∧
    w.isComplete = false ∧ WorkerStep s i w x s' := by
  unfold stepWorker at h
  split at h
  · cases h
  · rename_i w hw
    split at h
    · cases h
    · rename_i hgoing
      have hstep : ∃ x, WorkerStep s i w x s' := by
        cases hstage : w.task.stage with
        | serving =>
          simp only [hstage] at h
          exact serving_step hstage h
        | starting =>
          simp only [hstage] at h
          cases h
          exact ⟨_, .greet hstage⟩
        | finishing =>
          simp only [hstage] at h
          cases h
          exact ⟨_, .finish hstage⟩
      obtain ⟨x, hx⟩ := hstep
      exact ⟨w, x, hw, by simpa using hgoing, hx⟩

end Server

end RecordLog
