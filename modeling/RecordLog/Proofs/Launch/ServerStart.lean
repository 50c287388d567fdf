import RecordLog.Launch
import RecordLog.Proofs.Launch.Attempt

/-! Starting a server on a listener and a store: the ways in which it ends, one for each call that
the system can refuse, and one for a first firing that is too far away to be told. -/
namespace RecordLog.Launch

/-- What has to go through before the annotator's first firing is told. -/
def timerCalls : List SystemCall := [.localAddress, .cloneListener, .timer]

/-- What has to go through before the server serves. -/
def serverCalls : List SystemCall := .acceptorThread :: .annotatorThread :: timerCalls

/-- Where starting a server leads from a machine. -/
inductive Started (m : Machine) (period : Nat) : Except Failure Server → Machine → Prop
  | early {call cause e} (before : call ∈ timerCalls) (refused : m.refuses call = some cause) :
    Started m period (.error (.server e)) m
  | untold (permitted : ∀ call ∈ timerCalls, m.refuses call = none)
      (far : Annotator.start? m.clock period = none) : Started m period (.error .panic) m
  | noAnnotator {a cause e} (permitted : ∀ call ∈ timerCalls, m.refuses call = none)
      (told : Annotator.start? m.clock period = some a)
      (refused : m.refuses .annotatorThread = some cause) :
    Started m period (.error (.server e)) m
  | noAcceptor {a cause e m'} (permitted : ∀ call ∈ .annotatorThread :: timerCalls,
        m.refuses call = none)
      (told : Annotator.start? m.clock period = some a)
      (refused : m.refuses .acceptorThread = some cause)
      (threads : m'.process.threads = .annotator :: m.process.threads)
      (forked : m'.forked = m.forked) : Started m period (.error (.server e)) m'
  | serves {a s m'} (permitted : ∀ call ∈ serverCalls, m.refuses call = none)
      (told : Annotator.start? m.clock period = some a)
      (threads : m'.process.threads = .acceptor :: .annotator :: m.process.threads)
      (forked : m'.forked = m.forked) : Started m period (.ok s) m'

variable {m m' : Machine} {address : SocketAddress} {store : LogStore} {period : Nat}
  {r : Except Failure Server}

theorem Started.of_run (h : (startServer address store period).run m = (r, m')) :
    Started m period r m' := by
  unfold startServer at h
  obtain ⟨cause, refused, rfl, rfl⟩ | ⟨hlocal, h⟩ := Attempt.of_run_permit_bind h
  · exact .early (by simp [timerCalls]) refused
  obtain ⟨cause, refused, rfl, rfl⟩ | ⟨hclone, h⟩ := Attempt.of_run_permit_bind h
  · exact .early (by simp [timerCalls]) refused
  obtain ⟨cause, refused, rfl, rfl⟩ | ⟨htimer, h⟩ := Attempt.of_run_permit_bind h
  · exact .early (by simp [timerCalls]) refused
  have permitted : ∀ call ∈ timerCalls, m.refuses call = none := by
    simp [timerCalls, hlocal, hclone, htimer]
  rw [Attempt.run_bind, Attempt.run_get] at h
  dsimp only at h
  cases told : Annotator.start? m.clock period with
  | none =>
    rw [told] at h
    obtain ⟨rfl, rfl⟩ := Prod.mk.inj h
    exact .untold permitted told
  | some a =>
    rw [told] at h
    obtain ⟨cause, refused, rfl, rfl⟩ | ⟨hannotator, h⟩ := Attempt.of_run_permit_bind h
    · exact .noAnnotator permitted told refused
    have permitted : ∀ call ∈ .annotatorThread :: timerCalls, m.refuses call = none :=
      List.forall_mem_cons.mpr ⟨hannotator, permitted⟩
    rw [Attempt.run_bind, Attempt.run_begin] at h
    dsimp only at h
    rw [Attempt.run_bind, Attempt.run_report] at h
    dsimp only at h
    rw [Attempt.run_bind, Attempt.run_get] at h
    dsimp only at h
    cases refused : m.refuses .acceptorThread with
    | some cause =>
      simp only [refused] at h
      rw [Attempt.run_bind, Attempt.run_get] at h
      dsimp only at h
      obtain ⟨host, reported⟩ := Attempt.run_forM_report _ _
      rw [Attempt.run_bind, reported] at h
      obtain ⟨rfl, rfl⟩ := Prod.mk.inj h
      exact .noAcceptor permitted told refused rfl rfl
    | none =>
      simp only [refused] at h
      obtain ⟨rfl, rfl⟩ := Prod.mk.inj h
      exact .serves (List.forall_mem_cons.mpr ⟨refused, permitted⟩) told rfl rfl

end RecordLog.Launch
