import Mathlib.Algebra.GroupWithZero.Nat
import Mathlib.Data.List.Nodup
import RecordLog.Proofs.Crew.Sweeping

/-! The accounts of the registry. Whoever has been started is registered, or on the way in, or has
been taken out and joined, and nobody is in two of these places. -/
namespace RecordLog.Crew

variable {τ : Type}

namespace Stage

/-- A worker on the way into the registry. -/
def started : Stage → List Nat
  | starting worker => [worker]
  | _ => []

/-- Members out of the registry that have not been joined. -/
def held : Stage → List Member
  | removing _ out => out
  | joining left _ => left
  | _ => []

/-- What the sweep under way will return for the members taken out so far. -/
def due : Stage → Nat
  | removing _ out => out.length
  | joining _ count => count
  | _ => 0

end Stage

namespace Move

def starts : Move τ → Bool
  | call (.spawn (.ok _)) => true
  | _ => false

def proceeds : Move τ → Bool
  | proceed => true
  | _ => false

end Move

/-- A worker at work after a change was at work before it. -/
lemma going_of_update {c : Crew τ} {i j : Nat} {f : Worker τ → Worker τ} {w' : Worker τ}
    (hid : ∀ w, (f w).id = w.id) (hending : ∀ w, (f w).ending = none → w.ending = none)
    (hw' : (c.update i f).workers[j]? = some w') (going : w'.ending = none) :
    ∃ w, c.workers[j]? = some w ∧ w.ending = none ∧ w.id = w'.id := by
  by_cases hij : i = j
  · subst hij
    rw [update, List.getElem?_modify_eq] at hw'
    obtain ⟨w, hw, rfl⟩ := Option.map_eq_some_iff.mp hw'
    exact ⟨w, hw, hending w going, (hid w).symm⟩
  · exact ⟨w', (update_other hij f).symm.trans hw', going, rfl⟩

namespace Calls

variable {s₀ s s' : Calls τ} {move : Move τ} {moves : List (Move τ)}

/-- Where the id of a worker that has not ended is in use. -/
inductive Keeps (s : Calls τ) (i id : Nat) : Prop
  | entry (held : s.crew.registry.get? id = some i)
  | start (started : i ∈ s.stage.started) (next : id = s.crew.registry.nextKey)
  | out (held : ⟨id, i⟩ ∈ s.stage.held)

/-- A call is under way as its stage says. -/
inductive Course (s : Calls τ) : Prop
  | idle (stage : s.stage = .idle)
  | starting {i : Nat} (stage : s.stage = .starting i)
  | sweeping {which : Sweep} {s₀ : Calls τ} {out done : List Member}
    (sweep : Sweeping which s₀ s out done)

lemma Course.step (h : Course s) (hs : Step s move s')
    (hired : ∀ i ∈ s.crew.registered, i < s.crew.workers.length) : Course s' := by
  cases hcall : move.isCall with
  | true =>
    cases hs with
    | refused => exact h
    | start => exact .starting rfl
    | begin => exact .sweeping (.begin s _)
    | _ => cases hcall
  | false =>
    cases h with
    | sweeping sweep =>
      obtain ⟨out, done, hnext⟩ := sweep.step hs hcall hired
      exact .sweeping hnext
    | idle hidle =>
      cases hs with
      | finish => exact .idle hidle
      | refused | start | begin => cases hcall
      | _ => simp_all
    | starting hstart =>
      cases hs with
      | finish => exact .starting hstart
      | register => exact .idle rfl
      | refused | start | begin => cases hcall
      | _ => simp_all

/-- In a sweep the next key to take out has an entry. -/
lemma Course.next (h : Course s) {key : Nat} {keys : List Nat} {out : List Member}
    (stage : s.stage = .removing (key :: keys) out) :
    ∃ worker, s.crew.registry.get? key = some worker := by
  cases h with
  | idle hidle => simp_all
  | starting hstart => simp_all
  | sweeping sweep =>
    obtain ⟨m, -, rfl, -, -, hheld⟩ := sweep.next stage
    exact ⟨m.worker, hheld⟩

/-- What holds after every step. -/
structure Sound (s : Calls τ) : Prop where
  course : Course s
  keeps : ∀ i w, s.crew.workers[i]? = some w → w.ending = none → s.Keeps i w.id
  free : ∀ m ∈ s.stage.held, s.crew.registry.get? m.id = none
  distinct : (s.stage.held.map (·.id)).Nodup
  everyone : (s.stage.started ++ s.crew.registered ++ s.taken.map (·.worker)).Perm
    (List.range s.crew.workers.length)
  taken : s.taken = s.joined ++ s.stage.held
  ended : ∀ m ∈ s.joined, s.crew.isComplete m.worker
  total : s.results.sum + s.stage.due = s.taken.length

namespace Sound

lemma fresh : Sound ({} : Calls τ) where
  course := .idle rfl
  keeps := by simp
  free := by simp [Stage.held]
  distinct := .nil
  everyone := .refl _
  taken := rfl
  ended := by simp
  total := rfl

lemma hired (h : Sound s) {i : Nat} (hi : i ∈ s.crew.registered) : i < s.crew.workers.length :=
  List.mem_range.mp (h.everyone.subset (by simp [hi]))

/-- Two workers at work have different ids. -/
lemma ids (h : Sound s) {i j : Nat} {w w' : Worker τ} (hi : s.crew.workers[i]? = some w)
    (hj : s.crew.workers[j]? = some w') (going : w.ending = none) (going' : w'.ending = none)
    (same : w.id = w'.id) : i = j := by
  have hki := h.keeps i w hi going
  have hkj := h.keeps j w' hj going'
  rw [← same] at hkj
  -- The next key is free, and so are the keys of those handed out: an id is in use in one place.
  cases hki with
  | entry hentry =>
    cases hkj with
    | entry hentry' => exact Option.some.inj (hentry.symm.trans hentry')
    | start _ hnext => simp [hnext] at hentry
    | out hout => simp [h.free _ hout] at hentry
  | start hstart hnext =>
    cases hkj with
    | entry hentry' => simp [hnext] at hentry'
    | start hstart' =>
      cases hstage : s.stage <;> simp_all [Stage.started]
    | out hout => cases hstage : s.stage <;> simp_all [Stage.started, Stage.held]
  | out hout =>
    cases hkj with
    | entry hentry' => simp [h.free _ hout] at hentry'
    | start hstart' => cases hstage : s.stage <;> simp_all [Stage.started, Stage.held]
    | out hout' => exact congrArg Member.worker (List.inj_on_of_nodup_map h.distinct hout hout' rfl)

/-- Workers may age and the stage may change, as long as nobody goes in or out. -/
lemma age {crew : Crew τ} {stage : Stage} {seen : List (Member × Bool)} (h : Sound s)
    (course : Course { s with crew, stage, seen }) (ages : s.crew.Ages crew)
    (going : ∀ (i : Nat) (w' : Worker τ), crew.workers[i]? = some w' → w'.ending = none →
      ∃ w : Worker τ, s.crew.workers[i]? = some w ∧ w.ending = none ∧ w.id = w'.id)
    (started : stage.started = s.stage.started) (held : stage.held = s.stage.held)
    (due : stage.due = s.stage.due) : Sound { s with crew, stage, seen } where
  course := course
  keeps := by
    intro i w' hw' going'
    obtain ⟨w, hw, hgoing, hid⟩ := going i w' hw' going'
    rw [← hid]
    cases h.keeps i w hw hgoing with
    | entry hentry => exact .entry (by rw [ages.registry, hentry])
    | start hstart hnext => exact .start (started ▸ hstart) (by rw [ages.registry, hnext])
    | out hout => exact .out (held ▸ hout)
  free := by
    intro m hm
    rw [ages.registry]
    exact h.free m (held ▸ hm)
  distinct := by
    rw [held]
    exact h.distinct
  everyone := by
    rw [started, registered, ages.registry, ages.length]
    exact h.everyone
  taken := by
    rw [held]
    exact h.taken
  ended := fun m hm => ages.complete _ (h.ended m hm)
  total := by
    rw [due]
    exact h.total

/-- The stage may change alone. -/
lemma moveTo {stage : Stage} {seen : List (Member × Bool)} (h : Sound s)
    (course : Course { s with stage, seen })
    (started : stage.started = s.stage.started) (held : stage.held = s.stage.held)
    (due : stage.due = s.stage.due) : Sound { s with stage, seen } :=
  h.age course (.refl _) (fun _ w' hw' going' => ⟨w', hw', going', rfl⟩) started held due

lemma start (h : Sound s) {task : Nat → τ} (idle : s.stage = .idle) :
    Sound (s.begin (.spawn (.ok task))) := by
  obtain ⟨crew, stage, seen, taken, joined, results⟩ := s
  obtain rfl : stage = .idle := idle
  exact {
    course := .starting rfl
    keeps := by
      intro i w hw going
      simp only [begin] at hw
      obtain hi | rfl | hi := Nat.lt_trichotomy i crew.workers.length
      · rw [List.getElem?_append_left hi] at hw
        cases h.keeps i w hw going with
        | entry hentry => exact .entry hentry
        | start hstart => cases hstart
        | out hout => cases hout
      · simp only [List.getElem?_concat_length, Option.some.injEq] at hw
        subst hw
        exact .start (List.mem_singleton.mpr rfl) rfl
      · rw [List.getElem?_eq_none (by simpa using Nat.succ_le_of_lt hi)] at hw
        cases hw
    free := by simp [begin, Stage.held]
    distinct := .nil
    everyone := by
      simp only [begin, Stage.started, registered, List.length_append, List.length_singleton,
        List.range_succ, List.singleton_append]
      exact (h.everyone.cons _).trans (List.perm_append_singleton _ _).symm
    taken := h.taken
    ended := by
      intro m hm
      obtain ⟨w, hw, hend⟩ := isComplete_iff.mp (h.ended m hm)
      obtain ⟨hi, -⟩ := List.getElem?_eq_some_iff.mp hw
      exact isComplete_iff.mpr ⟨w, (List.getElem?_append_left hi).trans hw, hend⟩
    total := h.total }

lemma register (h : Sound s) {worker : Nat} (starting : s.stage = .starting worker) :
    Sound { s with
      crew := { s.crew with registry := (s.crew.registry.insert worker).2 }, stage := .idle } := by
  obtain ⟨crew, stage, seen, taken, joined, results⟩ := s
  obtain rfl : stage = .starting worker := starting
  exact {
    course := .idle rfl
    keeps := by
      intro i w hw going
      refine .entry ?_
      rw [SlotTable.get?_insert]
      cases h.keeps i w hw going with
      | entry hentry =>
        have hne : w.id ≠ crew.registry.nextKey := by
          intro hnext
          simp [hnext] at hentry
        rw [if_neg hne, hentry]
      | start hstart hnext => rw [if_pos hnext, List.mem_singleton.mp hstart]
      | out hout => cases hout
    free := by simp [Stage.held]
    distinct := .nil
    everyone := by
      have hinsert := SlotTable.values_insert_perm crew.registry worker
      exact (hinsert.append_right _).trans h.everyone
    taken := h.taken
    ended := h.ended
    total := h.total }

lemma remove (h : Sound s) {key : Nat} {keys : List Nat} {out : List Member}
    (removing : s.stage = .removing (key :: keys) out)
    (course : Course (s.remove key keys out)) : Sound (s.remove key keys out) := by
  obtain ⟨worker, hheld⟩ := h.course.next removing
  rw [remove_eq hheld] at course ⊢
  obtain ⟨crew, stage, seen, taken, joined, results⟩ := s
  obtain rfl : stage = .removing (key :: keys) out := removing
  exact {
    course := course
    keeps := by
      intro i w hw going
      cases h.keeps i w hw going with
      | entry hentry =>
        by_cases hid : w.id = key
        · obtain rfl : worker = i := Option.some.inj (hheld.symm.trans (hid ▸ hentry))
          exact .out (by simp [Stage.held, hid])
        · exact .entry (by rw [SlotTable.get?_erase, if_neg hid, hentry])
      | start hstart => cases hstart
      | out hout => exact .out (List.mem_append_left _ hout)
    free := by
      intro m hm
      rw [SlotTable.get?_erase]
      by_cases hid : m.id = key
      · exact if_pos hid
      · rw [if_neg hid]
        obtain hold | hnew := List.mem_append.mp hm
        · exact h.free m hold
        · exact absurd (congrArg Member.id (List.mem_singleton.mp hnew)) hid
    distinct := by
      have hnew : ∀ m ∈ out, m.id ≠ key := by
        intro m hm hid
        have hnone := h.free m hm
        rw [hid, hheld] at hnone
        cases hnone
      rw [Stage.held, List.map_append, List.nodup_append]
      refine ⟨h.distinct, by simp, ?_⟩
      simpa using hnew
    everyone := by
      have herase := SlotTable.values_erase_perm hheld
      have hswap : ((crew.registry.erase key).values ++
          (taken ++ [(⟨key, worker⟩ : Member)]).map (·.worker)).Perm
          (crew.registered ++ taken.map (·.worker)) := by
        rw [List.map_append, List.map_singleton, ← List.append_assoc]
        exact (List.perm_append_singleton _ _).trans (herase.append_right _)
      exact hswap.trans h.everyone
    taken := (congrArg (· ++ [_]) h.taken).trans (List.append_assoc ..)
    ended := h.ended
    total := by
      have htotal : results.sum + out.length = taken.length := h.total
      simp only [Stage.due, List.length_append, List.length_singleton]
      omega }

lemma join (h : Sound s) {m : Member} {left : List Member} {count : Nat}
    (joining : s.stage = .joining (m :: left) count) (ended : s.crew.isComplete m.worker)
    (course : Course { s with stage := .joining left count, joined := s.joined ++ [m] }) :
    Sound { s with stage := .joining left count, joined := s.joined ++ [m] } := by
  obtain ⟨crew, stage, seen, taken, joined, results⟩ := s
  obtain rfl : stage = .joining (m :: left) count := joining
  exact {
    course := course
    keeps := by
      intro i w hw going
      cases h.keeps i w hw going with
      | entry hentry => exact .entry hentry
      | start hstart => cases hstart
      | out hout =>
        obtain rfl | hleft := List.mem_cons.mp hout
        · obtain ⟨w', hw', hend⟩ := isComplete_iff.mp ended
          obtain rfl : w = w' := Option.some.inj (hw.symm.trans hw')
          simp [Worker.isComplete, going] at hend
        · exact .out hleft
    free := fun m' hm' => h.free m' (List.mem_cons_of_mem m hm')
    distinct := (List.nodup_cons.mp h.distinct).2
    everyone := h.everyone
    taken := h.taken.trans (List.append_cons ..)
    ended := by
      intro m' hm'
      obtain hold | hnew := List.mem_append.mp hm'
      · exact h.ended m' hold
      · exact List.mem_singleton.mp hnew ▸ ended
    total := h.total }

lemma answer (h : Sound s) {count : Nat} (joining : s.stage = .joining [] count) :
    Sound { s with stage := .idle, results := s.results ++ [count] } := by
  obtain ⟨crew, stage, seen, taken, joined, results⟩ := s
  obtain rfl : stage = .joining [] count := joining
  exact {
    course := .idle rfl
    keeps := by
      intro i w hw going
      cases h.keeps i w hw going with
      | entry hentry => exact .entry hentry
      | start hstart => cases hstart
      | out hout => cases hout
    free := by simp [Stage.held]
    distinct := .nil
    everyone := h.everyone
    taken := h.taken
    ended := h.ended
    total := by
      have htotal : results.sum + count = taken.length := h.total
      simpa [Stage.due] using htotal }

lemma look (h : Sound s) {which : Sweep} {m : Member} {left : List Member} {marked : List Nat}
    (stage : s.stage = .looking which (m :: left) marked)
    (course : Course (s.look which m left marked)) : Sound (s.look which m left marked) := by
  refine h.age course (watched_ages which m) ?_ (by rw [stage]; rfl) (by rw [stage]; rfl)
    (by rw [stage]; rfl)
  intro i w' hw' going
  split at hw'
  · exact going_of_update (f := ({ · with shut := true })) (fun _ => rfl) (fun _ => id) hw' going
  · exact ⟨w', hw', going, rfl⟩

lemma finish (h : Sound s) {i : Nat} {ending : Worker.Ending}
    (course : Course { s with crew := s.crew.finish i ending }) :
    Sound { s with crew := s.crew.finish i ending } := by
  refine h.age course (finish_ages i ending) ?_ rfl rfl rfl
  intro j w' hw' going
  refine going_of_update (f := fun w => { w with ending := w.ending <|> some ending })
    (fun _ => rfl) ?_ hw' going
  intro w hend
  cases hw : w.ending with
  | none => rfl
  | some e => simp [hw] at hend

theorem step (h : Sound s) (hs : Step s move s') : Sound s' := by
  have hcourse := h.course.step hs fun _ => h.hired
  cases hs with
  | refused => exact h
  | start idle => exact h.start idle
  | begin idle => exact h.moveTo hcourse (by rw [idle]; rfl) (by rw [idle]; rfl) (by rw [idle]; rfl)
  | register stage => exact h.register stage
  | look stage => exact h.look stage hcourse
  | choose stage =>
    exact h.moveTo hcourse (by rw [stage]; rfl) (by rw [stage]; rfl) (by rw [stage]; rfl)
  | remove stage => exact h.remove stage hcourse
  | handOut stage =>
    exact h.moveTo hcourse (by rw [stage]; rfl) (by rw [stage]; rfl) (by rw [stage]; rfl)
  | join stage ended => exact h.join stage ended hcourse
  | answer stage => exact h.answer stage
  | finish held going => exact h.finish hcourse

end Sound

end Calls

end RecordLog.Crew
