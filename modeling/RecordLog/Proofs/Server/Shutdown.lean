import RecordLog.Proofs.LogStore.Removal
import RecordLog.Proofs.Server.Joining

/-! What is left when a server has been shut down. The acceptor alone registers workers, and the
coordinator waits for the acceptor before it closes the registry, and for all workers and the
annotator before it removes the log. -/
namespace RecordLog.Server

/-- Nobody else makes an entry at `path` during a run. -/
def OthersSpare (path : Bytes) (s : Server) : List Move → Prop
  | [] => True
  | m :: moves =>
    (∀ c, m = .change c → s.host.files.present path = false →
      (s.host.change c).2.files.present path = false) ∧
    ∀ s' ∈ s.step? m, OthersSpare path s' moves

variable {s s' : Server} {registered returned joined : Nat}

/-- When the shutdown has returned, everybody has ended. -/
theorem Sound.over (h : Sound s registered returned) (done : s.coordinator = .finished joined) :
    s.acceptor = .stopped ∧ (∀ w ∈ s.crew.workers, w.isComplete) ∧ s.annotator.isStopped ∧
      registered = joined + returned := by
  have hstopped : s.acceptor = .stopped := h.closed (by rw [done]; trivial)
  obtain ⟨hsize, hcount⟩ := h.late joined (by rw [done]; rfl)
  refine ⟨hstopped, fun w hw => ?_, h.silent (by rw [done]; trivial), hcount⟩
  obtain ⟨i, hi, rfl⟩ := List.getElem_of_mem hw
  have hknown := h.known i hi
  rw [Crew.registered_nil hsize, hstopped, done] at hknown
  obtain hended | hnone | hnone | hnone := hknown
  · obtain ⟨w, hw, hend⟩ := Crew.isComplete_iff.mp hended
    rw [List.getElem?_eq_getElem hi] at hw
    exact Option.some.inj hw ▸ hend
  · exact absurd hnone List.not_mem_nil
  · exact absurd hnone List.not_mem_nil
  · exact absurd hnone List.not_mem_nil

/-- Where everybody has ended no thread takes a step. -/
lemma stepThread_over (hstopped : s.acceptor = .stopped)
    (hended : ∀ w ∈ s.crew.workers, w.isComplete) (hsilent : s.annotator.isStopped)
    (done : s.coordinator = .finished joined) (t : Thread) : s.stepThread t = none := by
  cases t with
  | acceptor => simp [stepThread, stepAcceptor, hstopped]
  | coordinator => simp [stepThread, stepCoordinator, done]
  | worker i =>
    simp only [stepThread, stepWorker]
    split
    · rfl
    · rename_i w hw
      rw [if_pos (hended w (List.mem_of_getElem? hw))]
  | annotator =>
    simp only [stepThread, stepAnnotator]
    split
    all_goals simp_all [Annotator.isStopped]

/-- A move where no thread takes a step leaves the coordinator, and touches files only as a change
from outside. -/
lemma step_over {m : Move} (joined : Nat) (still : ∀ t, s.stepThread t = none)
    (h : s.step? m = some s') :
    (s.coordinator = .finished joined → s'.coordinator = .finished joined) ∧
      (s'.host.files = s.host.files ∨ ∃ c, m = .change c ∧ s'.host = (s.host.change c).2) := by
  cases m with
  | thread t =>
    rw [step?, still t] at h
    cases h
  | arrive result =>
    simp only [step?] at h
    split at h
    · obtain rfl := Option.some.inj h
      exact ⟨id, .inl rfl⟩
    · cases h
  | deliver i result =>
    obtain rfl := Option.some.inj h
    exact ⟨id, .inl rfl⟩
  | grant i result =>
    obtain rfl := Option.some.inj h
    exact ⟨id, .inl rfl⟩
  | panic i =>
    simp only [step?] at h
    split at h
    · split at h
      · cases h
      · obtain rfl := Option.some.inj h
        exact ⟨id, .inl rfl⟩
    · cases h
  | tick now =>
    obtain rfl := Option.some.inj h
    exact ⟨id, .inl rfl⟩
  | shutdown =>
    simp only [step?] at h
    split at h
    · rename_i hwaiting
      obtain rfl := Option.some.inj h
      exact ⟨fun done => by simp [hwaiting] at done, .inl rfl⟩
    · cases h
  | change c =>
    obtain rfl := Option.some.inj h
    exact ⟨id, .inr ⟨c, rfl, rfl⟩⟩

/-- After its end a server stays ended, and a missing file stays missing as long as nobody else
makes it. -/
lemma run_over {moves : List Move} (path : Bytes)
    (h : Sound s registered returned) (done : s.coordinator = .finished joined)
    (hrun : s.run? moves = some s') :
    s'.coordinator = .finished joined ∧ (s.OthersSpare path moves →
      s.host.files.present path = false → s'.host.files.present path = false) := by
  induction moves generalizing s registered returned with
  | nil =>
    obtain rfl : s = s' := Option.some.inj hrun
    exact ⟨done, fun _ => id⟩
  | cons m moves ih =>
    obtain ⟨s₁, hfirst, hrest⟩ := run?_cons.mp hrun
    obtain ⟨hstopped, hended, hsilent, -⟩ := h.over done
    obtain ⟨hdone, hfiles⟩ :=
      step_over joined (stepThread_over hstopped hended hsilent done) hfirst
    obtain ⟨hlast, hmissing⟩ := ih (h.step (Step.of_step? hfirst)) (hdone done) hrest
    refine ⟨hlast, fun hspare habsent => hmissing (hspare.2 s₁ hfirst) ?_⟩
    obtain hsame | ⟨c, hc, hchange⟩ := hfiles
    · rw [hsame]
      exact habsent
    · rw [hchange]
      exact hspare.1 c hc habsent

lemma outcome?_eq_some : s.outcome? = some joined ↔ s.coordinator = .finished joined := by
  unfold outcome?
  split <;> simp_all

/-- The last move of a shutdown removes the log. -/
lemma Step.removed {n k : Nat} (hs : Step s n k s') (going : s.outcome? = none)
    (done : s'.outcome? = some joined) :
    s'.coordinator = .finished joined ∧ s'.host.files = (s.store.remove s.host).2.files := by
  have hgoing : ∀ other, s.coordinator ≠ .finished other := by
    rintro other hother
    rw [outcome?_eq_some.mpr hother] at going
    cases going
  have hdone : s'.coordinator = .finished joined := outcome?_eq_some.mp done
  cases hs with
  | aside _ _ coordinator | accept _ coordinator | register _ coordinator | reap _ coordinator
  | reclaim _ coordinator => exact absurd (coordinator.symm.trans hdone) (hgoing joined)
  | prepare _ _ _ _ next =>
    obtain hbefore | ⟨-, hclosing⟩ := next
    · rw [hdone] at hbefore
      exact (hbefore trivial).elim
    · rw [hdone] at hclosing
      cases hclosing
  | takeAll _ _ _ _ coordinator | join _ _ _ _ _ coordinator =>
    rw [hdone] at coordinator
    cases coordinator
  | windUp _ _ _ _ after _ removed =>
    rw [hdone] at after
    obtain rfl : joined = _ := Option.some.inj after.1
    exact ⟨hdone, (removed hdone).2⟩

/-- Nothing survives a shutdown. Let it return in the course of a run. From then on the acceptor,
every worker there ever was and the annotator have ended and no thread takes a step any more; if
the log could be removed it stays away as long as nobody else makes it; and what the shutdown and
all reapings returned adds up to the connections that were registered. -/
theorem shutdown_leaves_nothing {host : Host} {store : LogStore} {address : SocketAddress}
    {annotator : Annotator} {clock : Clock} {before after : List Move} {m : Move}
    {s₁ s₂ s : Server} {joined : Nat}
    (hbefore : (fresh host store address annotator clock).run? before = some s₁)
    (going : s₁.outcome? = none) (returns : s₁.step? m = some s₂)
    (done : s₂.outcome? = some joined) (hafter : s₂.run? after = some s) :
    let s₀ := fresh host store address annotator clock
    let moves := before ++ m :: after
    s.outcome? = some joined ∧ s.acceptor = .stopped ∧
    (∀ w ∈ s.crew.workers, w.isComplete) ∧ s.annotator.isStopped ∧
    (∀ t, s.stepThread t = none) ∧
    ((store.remove s₁.host).1 = .ok () → s₂.OthersSpare store.path after →
      s.host.files.present store.path = false) ∧
    s.crew.workers.length = s₀.total registers moves ∧
    joined + s₀.total reapReturns moves = s₀.total registers moves := by
  intro s₀ moves
  have hs₀ := Sound.fresh host store address annotator clock
  have hstep := Step.of_step? returns
  obtain ⟨hs₁, hstore⟩ := hs₀.run hbefore
  have hs₂ := hs₁.step hstep
  obtain ⟨hfinished, hremoved⟩ := hstep.removed going done
  obtain ⟨hlast, hmissing⟩ := run_over store.path hs₂ hfinished hafter
  have hrun : s₀.run? moves = some s := by
    rw [run?_append, hbefore]
    exact run?_cons.mpr ⟨s₂, returns, hafter⟩
  obtain ⟨hs, -⟩ := hs₀.run hrun
  obtain ⟨hstopped, hended, hsilent, hcount⟩ := hs.over hlast
  rw [Nat.zero_add, Nat.zero_add] at hcount
  refine ⟨by rw [outcome?, hlast], hstopped, hended, hsilent,
    stepThread_over hstopped hended hsilent hlast, ?_, by simpa using hs.length, hcount.symm⟩
  intro hok hspare
  refine hmissing hspare ?_
  have hpath : s₁.store = store := hstore
  rw [hremoved, hpath]
  exact LogStore.absent_of_remove hok

/-- A log in a file right below the root. -/
def loggedFiles : FileSystem where
  entries := [([], .directory FileSystem.newDirectoryMode),
    ([[108]], .file FileSystem.newFileMode [120, 10])]
  workingDirectory := []

def loggedServer : Server :=
  fresh { files := loggedFiles } ⟨[108]⟩ (.v4 .any 0) { period := 1, deadline := 1 } {}

/-- Two clients, up to the removal of the log. The first closes and its worker is reaped; the second
is accepted before the flag is set and registered after it. -/
def lateArrival : List Move :=
  let client : Except IoError Arrival := .ok { peer := .v4 .any 0 }
  let accepts : Move := .thread .acceptor
  let coordinates : Move := .thread .coordinator
  let works (i : Nat) : Move := .thread (.worker i)
  [.arrive client, accepts, accepts, accepts, accepts, works 0, .deliver 0 (.ok []), works 0,
    works 0, works 0, works 0, accepts, accepts, accepts, accepts, .arrive client, accepts, accepts,
    .shutdown, coordinates, accepts, accepts, coordinates, accepts, accepts, accepts, accepts,
    coordinates, coordinates, coordinates, works 1, works 1, works 1, works 1, coordinates,
    coordinates, coordinates, .thread .annotator, coordinates, coordinates]

theorem shutdown_leaves_nothing_late_arrival :
    let moves := lateArrival ++ .thread .coordinator :: [.tick 1]
    ∃ s, loggedServer.run? moves = some s ∧ s.outcome? = some 1 ∧ s.crew.workers.length = 2 ∧
      (∀ w ∈ s.crew.workers, w.isComplete) ∧ 1 + loggedServer.total reapReturns moves = 2 ∧
      loggedFiles.present [108] ∧ s.host.files.present [108] = false := by
  have finds : loggedFiles.Finds .keep [108] ⟨[], some [108], false⟩ :=
    ⟨by decide, by decide, by decide,
      .named ⟨rfl, by decide, by decide, by decide, by decide⟩ fun _ _ => rfl⟩
  have found : loggedFiles.lookup [[108]] = some (.file FileSystem.newFileMode [120, 10]) := rfl
  have hfind := FileSystem.find_eq_ok_iff.mpr ⟨finds, found.symm⟩
  have hunlink : loggedFiles.unlink [108] = .ok (loggedFiles.erase [[108]]) := by
    rw [FileSystem.unlink, hfind]
    rfl
  obtain ⟨s₁, s₂, s, hbefore, going, returns, done, hafter, hfiles, hrun, hlength⟩ :
      ∃ s₁ s₂ s, loggedServer.run? lateArrival = some s₁ ∧ s₁.outcome? = none ∧
        s₁.step? (.thread .coordinator) = some s₂ ∧ s₂.outcome? = some 1 ∧
        s₂.run? [.tick 1] = some s ∧ s₁.host.files = loggedFiles ∧
        loggedServer.run? (lateArrival ++ .thread .coordinator :: [.tick 1]) = some s ∧
        s.crew.workers.length = 2 :=
    ⟨_, _, _, rfl, rfl, rfl, rfl, rfl, rfl, rfl, rfl⟩
  have hspare : s₂.OthersSpare [108] [.tick 1] := by
    refine ⟨fun c hc => ?_, fun _ _ => trivial⟩
    cases hc
  obtain ⟨hdone, -, hended, -, -, habsent, hcount, hsum⟩ :=
    shutdown_leaves_nothing hbefore going returns done hafter
  refine ⟨s, hrun, hdone, hlength, hended, ?_, ?_, habsent ?_ hspare⟩
  · rw [← hlength, hcount]
    exact hsum
  · exact FileSystem.present_iff.mpr ⟨_, _, finds, found, .inl rfl⟩
  · have hsame : s₁.host.files.unlink [108] = .ok (loggedFiles.erase [[108]]) := by
      rw [hfiles, hunlink]
    rw [LogStore.remove, hsame]

end RecordLog.Server
