import RecordLog.Annotator
import RecordLog.LogStore
import RecordLog.ShutdownFlag

/-! An annotator and its store with nobody else about, so that every deadline is met on time. -/
namespace RecordLog.Annotator

structure Station where
  host : Host
  store : LogStore
  clock : Clock := {}
  flag : ShutdownFlag := {}

namespace Station

/-- One firing at the present time, with all that follows until the thread waits again. -/
def fire (s : Station) (a : Annotator) : Annotator × Station :=
  let a := (a.resume (.woken s.clock.now)).resume (.flag s.flag.triggered)
  match a.phase with
  | .appending =>
    let record := s.clock.record
    let (result, host) := s.store.append (Bytes.ofString record) s.host
    (a.resume (.appended result), { s with host := host.report (attempted record result) })
  | .stopped .shutdown => (a, { s with host := s.host.report sawShutdown })
  | _ => (a, s)

theorem fire_deadline (s : Station) (a : Annotator) :
    (s.fire a).1.deadline = (a.resume (.woken s.clock.now)).deadline := by
  simp only [fire]
  split <;> simp

/-- The time of the next firing, if it comes no later than `limit`. -/
def due? (s : Station) (a : Annotator) (limit : Nat) : Option Nat :=
  let time := max s.clock.now a.deadline
  if a.phase = .waiting ∧ ¬ a.cancelled ∧ 0 < a.period ∧ time ≤ limit then some time else none

theorem due?_deadline {s : Station} {a : Annotator} {limit time : Nat}
    (h : s.due? a limit = some time) :
    a.deadline ≤ limit ∧
      a.deadline < (({ s with clock := s.clock.advance time } : Station).fire a).1.deadline := by
  unfold due? at h
  simp only [Option.ite_none_right_eq_some, Option.some.injEq] at h
  obtain ⟨⟨hphase, hc, hp, hle⟩, rfl⟩ := h
  refine ⟨by omega, ?_⟩
  have hdue : a.deadline ≤ max s.clock.now (max s.clock.now a.deadline) := by omega
  rw [fire_deadline]
  simpa [resume, resume?, hphase, hc, Clock.advance, hdue] using lt_nextDeadline hp

/-- All firings up to a time, unless there is enough before. -/
def runUntil (limit : Nat) (enough : Station → Bool) (s : Station) (a : Annotator) :
    Annotator × Station :=
  if enough s then (a, s)
  else
    match h : s.due? a limit with
    | none => (a, { s with clock := s.clock.advance limit })
    | some time =>
      have := due?_deadline h
      let fired := ({ s with clock := s.clock.advance time } : Station).fire a
      runUntil limit enough fired.2 fired.1
  termination_by limit + 1 - a.deadline

/-- Cancels an annotator and waits for its thread. -/
def cancel (s : Station) (a : Annotator) : Annotator × Station :=
  let a := a.cancel.resume (.woken s.clock.now)
  (a, { s with host := a.joined.foldl Host.report s.host })

end Station

end RecordLog.Annotator
