import RecordLog.Proofs.Crew.Accounts

/-! Runs of calls on the registry, with workers that end at any moment: who is in it, who has left
it, and what each sweep takes, joins and returns. -/
namespace RecordLog.Crew

variable {τ : Type}

/-- The parts of a sweep that lie behind. -/
def Stage.phase : Stage → Nat
  | looking .. => 0
  | removing .. => 1
  | joining .. => 2
  | idle | starting _ | broken => 3

lemma Sweep.mem_chosen_finished {seen : List (Member × Bool)} {m : Member} :
    m ∈ finished.chosen seen ↔ (m, true) ∈ seen := by
  simp [chosen]

namespace Calls

variable {s₀ s s' : Calls τ} {move : Move τ} {moves : List (Move τ)} {which : Sweep}
  {out done : List Member}

/-- Grows by one with every step of a sweep. -/
def pace (s : Calls τ) : Nat :=
  s.seen.length + s.taken.length + s.joined.length + s.stage.phase

lemma Sweeping.pace (h : Sweeping which s₀ s out done) (hs : Step s move s')
    (within : move.isCall = false) :
    s'.pace = s.pace + if move.proceeds then 1 else 0 := by
  cases hs with
  | refused | start | begin => cases within
  | register stage =>
    have hreached := h.reached
    rw [stage] at hreached
    exact hreached.elim
  | look stage =>
    simp only [Calls.pace, Calls.look, Move.proceeds, stage, Stage.phase, List.length_append,
      List.length_singleton, if_true]
    omega
  | remove stage =>
    obtain ⟨m, -, rfl, -, -, hheld⟩ := h.next stage
    simp only [Calls.pace, remove_eq hheld, Move.proceeds, stage, Stage.phase, List.length_append,
      List.length_singleton, if_true]
    omega
  | choose stage | handOut stage | join stage | answer stage =>
    simp only [Calls.pace, Move.proceeds, stage, Stage.phase, List.length_append,
      List.length_singleton, if_true]
    try omega
  | finish => rfl

lemma Step.length (hs : Step s move s') :
    s'.crew.workers.length = s.crew.workers.length + if move.starts then 1 else 0 := by
  cases hs with
  | start => simp [Calls.begin, Move.starts]
  | look => exact (watched_ages _ _).length
  | remove =>
    simp only [Calls.remove, Move.starts]
    split <;> rfl
  | finish => exact (finish_ages _ _).length
  | _ => rfl

namespace Sound

theorem run (h : Sound s) (hrun : s.run? moves = some s') :
    Sound s' ∧ s'.crew.workers.length = s.crew.workers.length + moves.countP Move.starts := by
  induction moves generalizing s with
  | nil =>
    obtain rfl : s = s' := Option.some.inj hrun
    exact ⟨h, rfl⟩
  | cons move moves ih =>
    obtain ⟨s₁, hfirst, hrest⟩ := run?_cons.mp hrun
    have hs := Step.of_step? hfirst
    obtain ⟨hsound, hlength⟩ := ih (h.step hs) hrest
    rw [hs.length] at hlength
    refine ⟨hsound, ?_⟩
    rw [List.countP_cons, hlength]
    omega

/-- A call waits for nothing but the end of a worker. -/
lemma goes (h : Sound s) : s.stage = .idle ∨ (s.step? .proceed).isSome ∨
    ∃ m left count, s.stage = .joining (m :: left) count ∧ ¬ s.crew.isComplete m.worker := by
  cases h.course with
  | idle stage => exact .inl stage
  | starting stage => exact .inr (.inl (by simp [step?, proceed?, stage]))
  | sweeping sweep =>
    have hreached := sweep.reached
    cases hstage : s.stage with
    | idle => exact .inl rfl
    | starting | broken =>
      rw [hstage] at hreached
      exact hreached.elim
    | looking which left marked => cases left <;> simp [step?, proceed?, hstage]
    | removing keys out => cases keys <;> simp [step?, proceed?, hstage]
    | joining left count =>
      cases left with
      | nil => simp [step?, proceed?, hstage]
      | cons m left =>
        by_cases hm : s.crew.isComplete m.worker
        · simp [step?, proceed?, hstage, hm]
        · exact .inr (.inr ⟨m, left, count, rfl, hm⟩)

end Sound

namespace Sweeping

theorem run (h : Sweeping which s₀ s out done) (hsound : Sound s)
    (within : ∀ move ∈ moves, move.isCall = false) (hrun : s.run? moves = some s') :
    ∃ out done, Sweeping which s₀ s' out done ∧
      s'.pace = s.pace + moves.countP Move.proceeds := by
  induction moves generalizing s out done with
  | nil =>
    obtain rfl : s = s' := Option.some.inj hrun
    exact ⟨out, done, h, rfl⟩
  | cons move moves ih =>
    obtain ⟨s₁, hfirst, hrest⟩ := run?_cons.mp hrun
    have hs := Step.of_step? hfirst
    have hcall := within move (List.mem_cons_self ..)
    obtain ⟨out₁, done₁, h₁⟩ := h.step hs hcall fun _ => hsound.hired
    obtain ⟨out₂, done₂, h₂, hpace⟩ := ih h₁ (hsound.step hs)
      (fun move hmove => within move (List.mem_cons_of_mem _ hmove)) hrest
    rw [h.pace hs hcall] at hpace
    refine ⟨out₂, done₂, h₂, ?_⟩
    rw [List.countP_cons, hpace]
    omega

/-- The looks go through the entries in their order, and only who is chosen by them is taken out, in
that order again, and joined. -/
lemma prefixes (h : Sweeping which s₀ s out done) :
    s.seen.map (·.1) <+: s₀.crew.entries ∧ out <+: which.chosen s.seen ∧ done <+: out := by
  have hreached := h.reached
  cases hstage : s.stage with
  | starting | broken =>
    rw [hstage] at hreached
    exact hreached.elim
  | looking which' left marked =>
    rw [hstage] at hreached
    obtain ⟨-, hseen, -, rfl, rfl⟩ := hreached
    exact ⟨⟨left, hseen⟩, List.nil_prefix, List.nil_prefix⟩
  | removing keys out' =>
    rw [hstage] at hreached
    obtain ⟨-, rfl, hseen, rest, hrest, -⟩ := hreached
    exact ⟨hseen ▸ List.prefix_rfl, ⟨rest, hrest⟩, List.nil_prefix⟩
  | joining left count =>
    rw [hstage] at hreached
    obtain ⟨hleft, hout, hseen, -⟩ := hreached
    exact ⟨hseen ▸ List.prefix_rfl, hout ▸ List.prefix_rfl, ⟨left, hleft⟩⟩
  | idle =>
    rw [hstage] at hreached
    obtain ⟨rfl, hout, hseen⟩ := hreached
    exact ⟨hseen ▸ List.prefix_rfl, hout ▸ List.prefix_rfl, List.prefix_rfl⟩

lemma returned (h : Sweeping which s₀ s out done) (idle : s.stage = .idle) :
    s.seen.map (·.1) = s₀.crew.entries ∧ out = which.chosen s.seen ∧ done = out ∧
      s.results = s₀.results ++ [out.length] := by
  have hreached := h.reached
  have hresults := h.results
  rw [idle] at hreached hresults
  obtain ⟨hdone, hout, hseen⟩ := hreached
  exact ⟨hseen, hout, hdone, hresults⟩

/-- Everyone is out before the first is joined. -/
lemma emptied (h : Sweeping .all s₀ s out done)
    (later : s.stage = .idle ∨ (∃ left count, s.stage = .joining left count) ∨ done ≠ []) :
    s.seen.map (·.1) = s₀.crew.entries ∧ s.crew.registry.size = 0 := by
  have hreached := h.reached
  obtain ⟨hseen, hout⟩ : s.seen.map (·.1) = s₀.crew.entries ∧ out = Sweep.all.chosen s.seen := by
    cases hstage : s.stage with
    | idle =>
      rw [hstage] at hreached
      exact ⟨hreached.2.2, hreached.2.1⟩
    | joining left count =>
      rw [hstage] at hreached
      exact ⟨hreached.2.2.1, hreached.2.1⟩
    | _ => simp_all [Reached]
  refine ⟨hseen, SlotTable.size_eq_zero fun key => ?_⟩
  rw [h.registry]
  split
  · rfl
  · rename_i hkept
    cases hheld : s₀.crew.registry.get? key with
    | none => rfl
    | some worker =>
      have hentry : (⟨key, worker⟩ : Member) ∈ out := by
        rw [hout, Sweep.chosen, hseen]
        exact mem_entries.mpr hheld
      exact absurd (List.mem_map_of_mem hentry) hkept

/-- Nobody is taken out at work while others go on. -/
lemma out_ended (h : Sweeping .finished s₀ s out done) {m : Member} (hm : m ∈ out) :
    s.crew.isComplete m.worker :=
  h.marked m (Sweep.mem_chosen_finished.mp (h.prefixes.2.1.subset hm))

/-- So such a sweep never waits. -/
lemma goes (h : Sweeping .finished s₀ s out done) (hsound : Sound s) :
    s.stage = .idle ∨ (s.step? .proceed).isSome := by
  obtain hidle | hgoes | ⟨m, left, count, hstage, hm⟩ := hsound.goes
  · exact .inl hidle
  · exact .inr hgoes
  · have hreached := h.reached
    rw [hstage] at hreached
    have hout : m ∈ out := hreached.1 ▸ by simp
    exact absurd (h.out_ended hout) hm

/-- A member that had ended before is seen to have ended. -/
lemma chosen_of_ended (h : Sweeping which s₀ s out done) (idle : s.stage = .idle) {m : Member}
    (hm : m ∈ s₀.crew.entries) (ended : s₀.crew.isComplete m.worker) : m ∈ out := by
  obtain ⟨hseen, hout, -, -⟩ := h.returned idle
  rw [← hseen] at hm
  rw [hout]
  cases which with
  | all => exact hm
  | finished =>
    obtain ⟨⟨m, mark⟩, hlook, rfl⟩ := List.mem_map.mp hm
    cases mark with
    | false => exact absurd ended (h.unmarked m hlook)
    | true => exact Sweep.mem_chosen_finished.mpr hlook

lemma steps_le (h : Sweeping which s₀ s out done) {n : Nat}
    (hpace : s.pace = (s₀.begin (.sweep which)).pace + n) : n ≤ 3 * s₀.crew.registry.size + 3 := by
  obtain ⟨hseen, hout, hdone⟩ := h.prefixes
  have hentries : s₀.crew.entries.length = s₀.crew.registry.size := members_length _
  have hlooks := hseen.length_le
  have houts := hout.length_le
  have hjoins := hdone.length_le
  have hchosen := (which.chosen_sublist s.seen).length_le
  have hphase : s.stage.phase ≤ 3 := by cases s.stage <;> simp [Stage.phase]
  have hbegin : (s₀.begin (.sweep which)).pace = s₀.taken.length + s₀.joined.length := by
    simp [Calls.pace, Calls.begin, Stage.phase]
  rw [List.length_map] at hlooks hchosen
  rw [hbegin, Calls.pace, h.taken, h.joined, List.length_append, List.length_append] at hpace
  omega

end Sweeping

/-- The accounts between two calls. -/
structure Settled (moves : List (Move τ)) (s : Calls τ) : Prop where
  /-- Whoever has been taken out has been joined. -/
  joined : s.joined = s.taken
  /-- Everyone is an entry or has been taken out, and nobody both. -/
  everyone :
    (s.crew.registered ++ s.taken.map (·.worker)).Perm (List.range s.crew.workers.length)
  /-- The starts that succeeded are the entries and what the sweeps have returned. -/
  total : moves.countP Move.starts = s.crew.registry.size + s.results.sum
  /-- A start that fails changes nothing. -/
  refused : ∀ e, s.step? (.call (.spawn (.error e))) = some s

/-- A sweep that began on `s₀` and has returned, having taken out `out` and joined `done`. -/
structure Returned (which : Sweep) (s₀ s : Calls τ) (out done : List Member) : Prop where
  /-- Every entry was looked at once. -/
  looks : s.seen.map (·.1) = s₀.crew.entries
  /-- Those that the looks chose are out, and all of them are joined. -/
  takes : out = which.chosen s.seen
  joins : done = out
  /-- Their number is returned. -/
  results : s.results = s₀.results ++ [out.length]
  /-- Whoever had ended before is among them. -/
  ended : ∀ m ∈ s₀.crew.entries, s₀.crew.isComplete m.worker → m ∈ out

/-- A sweep that began on `s₀` and has come to `s` by these moves, having taken out `out` and joined
`done`. -/
structure Underway (which : Sweep) (s₀ s : Calls τ) (during : List (Move τ))
    (out done : List Member) : Prop extends Swept which s₀ s out done where
  /-- It looks at the entries in their order, each of them once. -/
  looks : s.seen.map (·.1) <+: s₀.crew.entries
  /-- It takes out whom the looks choose, and joins those, all in that order. -/
  takes : out <+: which.chosen s.seen
  joins : done <+: out
  steps : during.countP Move.proceeds ≤ 3 * s₀.crew.registry.size + 3
  returned : s.stage = .idle → Returned which s₀ s out done
  /-- If it is after those that have ended, it takes out nobody at work and never waits. -/
  patient : which = .finished → (∀ m ∈ out, s.crew.isComplete m.worker) ∧
    (s.stage = .idle ∨ (s.step? .proceed).isSome)
  /-- If it is after all, the registry is empty before the first is joined. -/
  emptied : which = .all →
    s.stage = .idle ∨ (∃ left count, s.stage = .joining left count) ∨ done ≠ [] →
      s.seen.map (·.1) = s₀.crew.entries ∧ s.crew.registry.size = 0

/-- What holds of the registry after these moves. -/
structure Accounted (moves : List (Move τ)) (s : Calls τ) : Prop where
  /-- A call waits for nothing but the end of a worker. -/
  goes : s.stage = .idle ∨ (s.step? .proceed).isSome ∨
    ∃ m left count, s.stage = .joining (m :: left) count ∧ ¬ s.crew.isComplete m.worker
  /-- Workers at work have different ids. -/
  ids : ∀ (i j : Nat) (w w' : Worker τ), s.crew.workers[i]? = some w →
    s.crew.workers[j]? = some w' → w.ending = none → w'.ending = none → i ≠ j → w.id ≠ w'.id
  started : s.crew.workers.length = moves.countP Move.starts
  /-- Nobody is taken out twice. -/
  once : (s.taken.map (·.worker)).Nodup
  /-- Those that are taken out are joined in their order, each after its end. -/
  joins : s.joined <+: s.taken
  ended : ∀ m ∈ s.joined, s.crew.isComplete m.worker
  between : s.stage = .idle → Settled moves s
  /-- A worker can return or panic at any moment, which marks it and leaves the rest as it is. -/
  finish : ∀ (i : Nat) (w : Worker τ) (ending : Worker.Ending),
    s.crew.workers[i]? = some w → w.ending = none →
    ∃ s', s.step? (.finish i ending) = some s' ∧ s'.crew.isComplete i ∧
      s'.crew.registry = s.crew.registry ∧ s'.stage = s.stage ∧ s'.results = s.results
  /-- What a sweep does from here on, wherever it stands. -/
  sweep : ∀ which during s', s.stage = .idle → (∀ move ∈ during, move.isCall = false) →
    s.run? (.call (.sweep which) :: during) = some s' →
    ∃ out done, Underway which s s' during out done

lemma Sound.settled (h : Sound s) (started : s.crew.workers.length = moves.countP Move.starts)
    (idle : s.stage = .idle) : Settled moves s := by
  have htaken := h.taken
  have heveryone := h.everyone
  have htotal := h.total
  rw [idle] at htaken heveryone htotal
  have hsize : s.crew.registry.size + s.taken.length = s.crew.workers.length := by
    simpa [registered_length, Stage.started] using heveryone.length_eq
  exact {
    joined := (htaken.trans (List.append_nil _)).symm
    everyone := heveryone
    total := by
      rw [← started, ← hsize, ← htotal]
      rfl
    refused := fun e => if_pos idle }

lemma Sweeping.underway {during : List (Move τ)} (h : Sweeping which s₀ s out done)
    (hsound : Sound s)
    (hpace : s.pace = (s₀.begin (.sweep which)).pace + during.countP Move.proceeds) :
    Underway which s₀ s during out done := by
  obtain ⟨hseen, hout, hdone⟩ := h.prefixes
  refine {
    toSwept := h.toSwept
    looks := hseen
    takes := hout
    joins := hdone
    steps := h.steps_le hpace
    returned := fun idle => ?_
    patient := ?_
    emptied := ?_ }
  · obtain ⟨hall, hchosen, hjoined, hresults⟩ := h.returned idle
    exact ⟨hall, hchosen, hjoined, hresults, fun m => h.chosen_of_ended idle⟩
  · rintro rfl
    exact ⟨fun m => h.out_ended, h.goes hsound⟩
  · rintro rfl
    exact h.emptied

/-- The accounts of the registry, in any run of calls by one thread at a time and of workers that
end. A call waits for nothing but the end of a worker. Workers at work have different ids. Everyone
is taken out once and joined once, after it has ended; between two calls those out of the registry
are joined, the others are its entries, and a start that fails changes nothing. A worker can return
or panic at any moment, which marks it and leaves the rest as it is.

A sweep of all members or of those that have ended looks at every entry once. It takes out and joins
exactly those that the looks choose, in at most so many steps; who had ended before is among them. A
sweep of those that have ended takes out nobody at work and never waits; one of all has forced the
socket of everyone without a mark closed, and emptied the registry, before it joins the first. -/
theorem registry_accounts {moves : List (Move τ)} {s : Calls τ}
    (hrun : ({} : Calls τ).run? moves = some s) : Accounted moves s := by
  obtain ⟨h, hlength⟩ := Sound.fresh.run hrun
  rw [List.length_nil, Nat.zero_add] at hlength
  refine {
    goes := h.goes
    ids := ?_
    started := hlength
    once := (List.nodup_append.mp (h.everyone.nodup_iff.mpr List.nodup_range)).2.1
    joins := ⟨_, h.taken.symm⟩
    ended := h.ended
    between := h.settled hlength
    finish := ?_
    sweep := ?_ }
  · intro i j w w' hi hj going going' hij same
    exact hij (h.ids hi hj going going' same)
  · intro i w ending hw going
    obtain ⟨id, task, ending', shut⟩ := w
    obtain rfl : ending' = none := going
    exact ⟨{ s with crew := s.crew.finish i ending }, by simp [step?, hw],
      isComplete_iff.mpr ⟨_, update_self hw _, rfl⟩, rfl, rfl, rfl⟩
  · intro which during s' idle within hsweep
    obtain ⟨s₁, hbegin, hduring⟩ := run?_cons.mp hsweep
    obtain rfl : s.begin (.sweep which) = s₁ := by simpa [step?, idle] using hbegin
    have h₁ : Sound (s.begin (.sweep which)) := h.step (.begin idle)
    obtain ⟨hsound, -⟩ := h₁.run hduring
    obtain ⟨out, done, hsweeping, hpace⟩ := (Sweeping.begin s which).run h₁ within hduring
    exact ⟨out, done, hsweeping.underway hsound hpace⟩

/-- Two workers are started, and the first of them, which panics while the second has no entry yet,
is reaped; the second ends after the look at it. A start fails. Two more follow, the first under the
id that is free again. -/
def reusedId : List (Move Nat) :=
  let start : Move Nat := .call (.spawn (.ok id))
  [start, .proceed, start, .finish 0 .panicked, .proceed,
    .call (.spawn (.error (.plain .brokenPipe))), .call (.sweep .finished), .proceed, .proceed,
    .finish 1 .returned, .proceed, .proceed, .proceed, .proceed, .proceed, start, .proceed, start,
    .proceed]

/-- All that are left are taken out; the two without a mark end after their sockets are closed. -/
def lastSweep : List (Move Nat) :=
  List.replicate 8 .proceed ++ [.finish 3 .panicked, .finish 2 .returned] ++
    List.replicate 4 .proceed

theorem registry_accounts_reused_id : ∃ s s' : Calls Nat,
    ({} : Calls Nat).run? reusedId = some s ∧
    s.run? (.call (.sweep .all) :: lastSweep) = some s' ∧
    s.crew.workers.map (·.id) = [0, 1, 0, 2] ∧ s.results = [1] ∧
    reusedId.countP Move.starts = s.crew.registry.size + 1 ∧
    s'.seen = [(⟨0, 2⟩, false), (⟨1, 1⟩, true), (⟨2, 3⟩, false)] ∧
    s'.taken = s.taken ++ [⟨0, 2⟩, ⟨1, 1⟩, ⟨2, 3⟩] ∧ s'.joined = s'.taken ∧
    s'.results = [1, 3] ∧ s'.crew.registry.size = 0 ∧ s'.crew.isShut 3 := by
  obtain ⟨s, s', hrun, hsweep, hidle, hidle', hids, hresults, hseen, hjoined⟩ :
      ∃ s s' : Calls Nat, ({} : Calls Nat).run? reusedId = some s ∧
        s.run? (.call (.sweep .all) :: lastSweep) = some s' ∧ s.stage = .idle ∧ s'.stage = .idle ∧
        s.crew.workers.map (·.id) = [0, 1, 0, 2] ∧ s.results = [1] ∧
        s'.seen = [(⟨0, 2⟩, false), (⟨1, 1⟩, true), (⟨2, 3⟩, false)] ∧ s'.joined = s'.taken :=
    ⟨_, _, rfl, rfl, rfl, rfl, rfl, rfl, rfl, rfl⟩
  have within : ∀ move ∈ lastSweep, move.isCall = false := by
    simp [lastSweep, Move.isCall]
  have accounted := registry_accounts hrun
  have hcount := (accounted.between hidle).total
  obtain ⟨out, done, underway⟩ := accounted.sweep .all lastSweep s' hidle within hsweep
  obtain ⟨-, rfl, -, hresults', -⟩ := underway.returned hidle'
  rw [hresults] at hcount hresults'
  rw [hseen] at hresults'
  refine ⟨s, s', hrun, hsweep, hids, hresults, hcount, hseen, ?_, hjoined, hresults',
    (underway.emptied rfl (.inl hidle')).2, underway.shut rfl ⟨2, 3⟩ (by simp [hseen])⟩
  rw [underway.taken, hseen]
  rfl

end Calls

end RecordLog.Crew
