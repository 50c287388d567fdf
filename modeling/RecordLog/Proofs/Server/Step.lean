import RecordLog.Proofs.Crew
import RecordLog.Proofs.LogStore.Content
import RecordLog.Proofs.Server.Threads

/-! What a move of a server can do to its acceptor, its coordinator and its crew. Whatever else
happens stands aside: it ends workers or the annotator's thread at most. -/
namespace RecordLog.Server

/-- Workers that the acceptor has taken out and not yet joined. -/
def Acceptor.left : Acceptor → List Nat
  | joining left _ => left.map (·.worker)
  | _ => []

/-- What the acceptor's reaping is going to return. -/
def Acceptor.count : Acceptor → Nat
  | joining _ count => count
  | _ => 0

/-- The acceptor runs and has taken nobody out. -/
def Acceptor.IsFree : Acceptor → Prop
  | joining _ _ | stopped => False
  | _ => True

lemma Acceptor.free {a : Acceptor} (h : a.IsFree) : a ≠ .stopped ∧ a.left = [] ∧ a.count = 0 := by
  cases a <;> simp_all [IsFree, left, count]

/-- Workers that the coordinator has taken out and not yet joined. -/
def Coordinator.left : Coordinator → List Nat
  | joiningWorkers left _ => left.map (·.worker)
  | _ => []

/-- What the shutdown is going to return. -/
def Coordinator.joined? : Coordinator → Option Nat
  | joiningWorkers _ joined | cancelling joined | joiningAnnotator joined | removing joined
  | finished joined => some joined
  | _ => none

/-- The acceptor has been joined. -/
def Coordinator.IsPastAcceptor : Coordinator → Prop
  | waiting | triggering | closingListener | joiningAcceptor => False
  | _ => True

/-- The annotator has been joined. -/
def Coordinator.IsPastAnnotator : Coordinator → Prop
  | removing _ | finished _ => True
  | _ => False

/-- Connections that a move registers. -/
def registers (s : Server) : Move → Nat
  | .thread .acceptor =>
    match s.acceptor with
    | .registering a => if s.registryLock = some .acceptor ∧ a.obstacle = none then 1 else 0
    | _ => 0
  | _ => 0

/-- What a reaping that a move ends returns. -/
def reapReturns (s : Server) : Move → Nat
  | .thread .acceptor =>
    match s.acceptor with
    | .joining [] count => count
    | _ => 0
  | _ => 0

/-- The store is the same, and a thread of the annotator that has ended stays so. -/
structure Keeps (s s' : Server) : Prop where
  store : s'.store = s.store
  annotator : s.annotator.isStopped → s'.annotator.isStopped

/-- A move that registers so many connections, while a reaping returns so many workers. -/
inductive Step (s : Server) : Nat → Nat → Server → Prop
  | aside {s'} (kept : s.Keeps s') (acceptor : s'.acceptor = s.acceptor)
    (coordinator : s'.coordinator = s.coordinator) (crew : s.crew.Ages s'.crew) :
    Step s 0 0 s'
  | accept {s' n} (kept : s.Keeps s') (coordinator : s'.coordinator = s.coordinator)
    (crew : s'.crew = s.crew) (running : s.acceptor ≠ .stopped)
    (idle : s.acceptor.left = [] ∧ s'.acceptor.left = [])
    (returned : s.acceptor.count = n ∧ s'.acceptor.count = 0) :
    Step s 0 n s'
  | register {s' task} (kept : s.Keeps s') (coordinator : s'.coordinator = s.coordinator)
    (crew : s'.crew = (s.crew.spawn task).2) (running : s.acceptor ≠ .stopped)
    (idle : s.acceptor.left = [] ∧ s'.acceptor.left = [])
    (quiet : s.acceptor.count = 0 ∧ s'.acceptor.count = 0) :
    Step s 1 0 s'
  | reap {s'} (kept : s.Keeps s') (coordinator : s'.coordinator = s.coordinator)
    (crew : s'.crew = s.crew.takeComplete.2) (reaping : s.acceptor = .reaping)
    (acceptor : s'.acceptor = .joining s.crew.takeComplete.1 s.crew.takeComplete.1.length) :
    Step s 0 0 s'
  | reclaim {s' m left count} (kept : s.Keeps s') (coordinator : s'.coordinator = s.coordinator)
    (crew : s'.crew = s.crew) (joining : s.acceptor = .joining (m :: left) count)
    (ended : s.crew.isComplete m.worker) (acceptor : s'.acceptor = .joining left count) :
    Step s 0 0 s'
  | prepare {s'} (kept : s.Keeps s') (acceptor : s'.acceptor = s.acceptor)
    (crew : s'.crew = s.crew) (early : ¬ s.coordinator.IsPastAcceptor)
    (next : ¬ s'.coordinator.IsPastAcceptor ∨
      s.acceptor = .stopped ∧ s'.coordinator = .closingWorkers) :
    Step s 0 0 s'
  | takeAll {s'} (kept : s.Keeps s') (acceptor : s'.acceptor = s.acceptor)
    (crew : s'.crew = s.crew.takeAll.2) (closing : s.coordinator = .closingWorkers)
    (coordinator :
      s'.coordinator = .joiningWorkers s.crew.takeAll.1 s.crew.takeAll.1.length) :
    Step s 0 0 s'
  | join {s' m left joined} (kept : s.Keeps s') (acceptor : s'.acceptor = s.acceptor)
    (crew : s'.crew = s.crew) (joining : s.coordinator = .joiningWorkers (m :: left) joined)
    (ended : s.crew.isComplete m.worker)
    (coordinator : s'.coordinator = .joiningWorkers left joined) :
    Step s 0 0 s'
  | windUp {s' joined} (kept : s.Keeps s') (acceptor : s'.acceptor = s.acceptor)
    (crew : s'.crew = s.crew)
    (before : s.coordinator.joined? = some joined ∧ s.coordinator.left = [])
    (after : s'.coordinator.joined? = some joined ∧ s'.coordinator.left = [])
    (silent : s'.coordinator.IsPastAnnotator →
      s.coordinator.IsPastAnnotator ∨ s'.annotator.isStopped)
    (removed : s'.coordinator = .finished joined →
      s.coordinator = .removing joined ∧ s'.host.files = (s.store.remove s.host).2.files) :
    Step s 0 0 s'

lemma Step.keeps {s s' : Server} {n k : Nat} (h : Step s n k s') : s.Keeps s' := by
  cases h <;> assumption

/-- A worker more for every connection that is registered. -/
lemma Step.length {s s' : Server} {n k : Nat} (h : Step s n k s') :
    s'.crew.workers.length = s.crew.workers.length + n := by
  cases h with
  | aside _ _ _ crew => exact crew.length
  | register _ _ crew => rw [crew, Crew.spawn_length]
  | takeAll _ _ crew => rw [crew, Crew.takeAll_workers.1, Nat.add_zero]
  | reap _ _ crew => exact congrArg (·.workers.length) crew
  | accept _ _ crew | reclaim _ _ crew | prepare _ _ crew | join _ _ crew | windUp _ _ crew =>
    rw [crew, Nat.add_zero]

variable {s s' : Server}

/-- Taking a lock stands aside. -/
lemma Step.of_same (kept : s.Keeps s') (acceptor : s'.acceptor = s.acceptor)
    (coordinator : s'.coordinator = s.coordinator) (crew : s'.crew = s.crew) : Step s 0 0 s' :=
  .aside kept acceptor coordinator (crew ▸ .refl _)

theorem acceptor_step (h : s.stepAcceptor = some s') :
    Step s (s.registers (.thread .acceptor)) (s.reapReturns (.thread .acceptor)) s' := by
  cases AcceptorStep.of_step h with
  | poll phase | stop phase | deaf phase | accept phase | fail phase | retry phase | giveUp phase =>
    obtain ⟨running, idle, quiet⟩ := Acceptor.free (by rw [phase]; trivial : s.acceptor.IsFree)
    simp only [registers, reapReturns, phase]
    exact .accept ⟨rfl, id⟩ rfl rfl running ⟨idle, rfl⟩ ⟨quiet, rfl⟩
  | lock phase free =>
    have hregisters : s.registers (.thread .acceptor) = 0 := by
      obtain ⟨a, phase⟩ | phase := phase <;> simp [registers, phase, free]
    have hreturns : s.reapReturns (.thread .acceptor) = 0 := by
      obtain ⟨a, phase⟩ | phase := phase <;> simp [reapReturns, phase]
    rw [hregisters, hreturns]
    exact .of_same ⟨rfl, id⟩ rfl rfl rfl
  | register phase held able =>
    rename_i a
    obtain ⟨running, idle, quiet⟩ := Acceptor.free (by rw [phase]; trivial : s.acceptor.IsFree)
    have crew : (register a s).crew = (s.crew.spawn (Session.ofArrival a)).2 := by
      simp only [register, able, report, Crew.spawnIf]
    simp only [registers, reapReturns, phase, held, able, and_self, if_true]
    exact .register ⟨rfl, id⟩ rfl crew running ⟨idle, rfl⟩ ⟨quiet, rfl⟩
  | refuse phase held obstacle =>
    rename_i a e
    obtain ⟨running, idle, quiet⟩ := Acceptor.free (by rw [phase]; trivial : s.acceptor.IsFree)
    have crew : (register a s).crew = s.crew := by
      simp only [register, obstacle, report, Crew.spawnIf]
    simp only [registers, reapReturns, phase, obstacle, reduceCtorEq, and_false, if_false]
    exact .accept ⟨rfl, id⟩ rfl crew running ⟨idle, rfl⟩ ⟨quiet, rfl⟩
  | reap phase =>
    simp only [registers, reapReturns, phase]
    exact .reap ⟨rfl, id⟩ rfl rfl phase rfl
  | join phase ended =>
    simp only [registers, reapReturns, phase]
    exact .reclaim ⟨rfl, id⟩ rfl rfl phase ended rfl
  | reclaimed phase =>
    simp only [registers, reapReturns, phase]
    exact .accept ⟨rfl, id⟩ rfl rfl (by simp [phase]) ⟨by rw [phase]; rfl, rfl⟩
      ⟨by rw [phase]; rfl, rfl⟩

/-- The first moves of the coordinator change nothing else that matters here. -/
theorem coordinator_step (h : s.stepCoordinator = some s') : Step s 0 0 s' := by
  cases CoordinatorStep.of_step h with
  | trigger phase | deafen phase =>
    exact .prepare ⟨rfl, id⟩ rfl rfl (by simp [phase, Coordinator.IsPastAcceptor]) (.inl id)
  | joinAcceptor phase stopped =>
    exact .prepare ⟨rfl, id⟩ rfl rfl (by simp [phase, Coordinator.IsPastAcceptor])
      (.inr ⟨stopped, rfl⟩)
  | lockRegistry | lockStore => exact .of_same ⟨rfl, id⟩ rfl rfl rfl
  | close phase => exact .takeAll ⟨rfl, id⟩ rfl rfl phase rfl
  | join phase ended => exact .join ⟨rfl, id⟩ rfl rfl phase ended rfl
  | joined phase | cancel phase =>
    exact .windUp ⟨rfl, id⟩ rfl rfl (by rw [phase]; exact ⟨rfl, rfl⟩) ⟨rfl, rfl⟩ False.elim
      (fun h => by cases h)
  | joinAnnotator phase stopped =>
    exact .windUp ⟨rfl, id⟩ rfl rfl (by rw [phase]; exact ⟨rfl, rfl⟩) ⟨rfl, rfl⟩
      (fun _ => .inr stopped) (fun h => by cases h)
  | remove phase =>
    have silent : s.coordinator.IsPastAnnotator := by
      rw [phase]
      trivial
    exact .windUp ⟨rfl, id⟩ rfl rfl (by rw [phase]; exact ⟨rfl, rfl⟩) ⟨rfl, rfl⟩
      (fun _ => .inl silent) fun _ => ⟨phase, Host.report_files _ _⟩

/-- The thread of the annotator works for itself, until it ends. -/
theorem annotator_step (h : s.stepAnnotator = some s') : Step s 0 0 s' := by
  cases AnnotatorStep.of_step h with
  | lock => exact .of_same ⟨rfl, id⟩ rfl rfl rfl
  | wake phase | vet phase | append phase =>
    have going : s.annotator.isStopped → False := by simp [Annotator.isStopped, phase]
    exact .aside ⟨rfl, fun h => (going h).elim⟩ rfl rfl (.refl _)

lemma updateSession_ages (s : Server) (i : Nat) (f : Session → Session) :
    s.crew.Ages (s.updateSession i f).crew := Crew.update_ages i fun _ => id

lemma resumeWorker_ages (s : Server) (i : Nat) (x : Session) (reply : Connection.Reply) :
    s.crew.Ages (resumeWorker i x reply s).crew :=
  s.updateSession_ages i fun _ =>
    { x with connection := (x.connection.resume? reply).getD x.connection }

/-- Updating a session stands aside. -/
lemma Step.of_session {i : Nat} {f : Session → Session} {es : List Event} :
    Step s 0 0 ((s.updateSession i f).report es) :=
  .aside ⟨rfl, id⟩ rfl rfl (s.updateSession_ages i f)

theorem worker_step {i : Nat} (h : s.stepWorker i = some s') : Step s 0 0 s' := by
  obtain ⟨w, x, hw, going, hs⟩ := WorkerStep.of_step h
  cases hs with
  | greet | leave => exact .of_session
  | lock => exact .of_same ⟨rfl, id⟩ rfl rfl rfl
  | exchange stage asks answer =>
    cases answer <;> exact .aside ⟨rfl, id⟩ rfl rfl (resumeWorker_ages _ i _ _)
  | finish => exact .aside ⟨rfl, id⟩ rfl rfl (Crew.finish_ages i .returned)

/-- What any move does. -/
theorem Step.of_step? {m : Move} (h : s.step? m = some s') :
    Step s (s.registers m) (s.reapReturns m) s' := by
  cases m with
  | thread t =>
    cases t with
    | acceptor => exact acceptor_step h
    | worker i => exact worker_step h
    | annotator => exact annotator_step h
    | coordinator => exact coordinator_step h
  | arrive result =>
    simp only [step?] at h
    split at h
    · obtain rfl := Option.some.inj h
      exact .of_same ⟨rfl, id⟩ rfl rfl rfl
    · cases h
  | deliver i result =>
    obtain rfl := Option.some.inj h
    exact .aside ⟨rfl, id⟩ rfl rfl (s.updateSession_ages i _)
  | grant i result =>
    obtain rfl := Option.some.inj h
    exact .aside ⟨rfl, id⟩ rfl rfl (s.updateSession_ages i _)
  | panic i =>
    simp only [step?] at h
    split at h
    · split at h
      · cases h
      · obtain rfl := Option.some.inj h
        exact .aside ⟨rfl, id⟩ rfl rfl (Crew.finish_ages i .panicked)
    · cases h
  | tick now =>
    obtain rfl := Option.some.inj h
    exact .of_same ⟨rfl, id⟩ rfl rfl rfl
  | shutdown =>
    simp only [step?] at h
    split at h
    · rename_i hwaiting
      obtain rfl := Option.some.inj h
      exact .prepare ⟨rfl, id⟩ rfl rfl (by simp [hwaiting, Coordinator.IsPastAcceptor]) (.inl id)
    · cases h
  | change c =>
    obtain rfl := Option.some.inj h
    exact .of_same ⟨rfl, id⟩ rfl rfl rfl

end RecordLog.Server
