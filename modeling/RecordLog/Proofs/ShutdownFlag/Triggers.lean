import RecordLog.Proofs.ShutdownFlag.Separation

/-! Threads that make, clone, trigger and read flags as they like. In every family that is triggered
just the first trigger wins; a flag reads as set from then on, whenever it was cloned; and no family
hears of another. -/
namespace RecordLog.FlagTable

/-- What a thread was answered, with what it is about to be answered in front. -/
def Caller.told (t : Caller) : List (Call × Answer) :=
  match t.stage with
  | .answered c answer => (c, answer) :: t.answers
  | .idle | .called _ => t.answers

namespace Calls

/-- Threads that have made no call, and no flags. -/
def fresh (threads : Nat) : Calls where
  callers := .replicate threads {}

/-- The accesses of one thread, newest first. -/
def own (thread : Nat) (history : List Access) : List (Call × Answer) :=
  (history.filter (·.thread = thread)).map fun a => (a.call, a.answer)

/-- A thread between two calls may make any call on flags that were made, and one that is in a call
may go on with it. -/
def Allows (s : Calls) : Move → Prop
  | .call i c => (∃ t ∈ s.callers[i]?, t.stage = .idle) ∧ ∀ j ∈ c.flag?, j < s.table.handles.length
  | .proceed i => ∃ t ∈ s.callers[i]?, t.stage ≠ .idle

/-- What holds of the flags whatever the threads did, in terms of the accesses so far. -/
structure Coherent (s : Calls) : Prop where
  /-- Each thread is told what its own accesses were answered, in their order. -/
  told : ∀ i t, s.callers[i]? = some t → t.told = own i s.history
  /-- A flag that is made was not there before, and one that is no clone is kin to none of those. -/
  made : ∀ later a earlier i, s.history = later ++ a :: earlier → a.answer = .made i →
    ∀ b ∈ earlier, ∀ j, b.Names j → i ≠ j ∧ (a.call = .create → ¬ Kin s.history i j)
  /-- In a family that was triggered the first trigger wins, and no other. -/
  winner : ∀ i, Triggered s.history (Kin s.history i) → ∃ later a earlier,
    s.history = later ++ a :: earlier ∧ a.Triggers (Kin s.history i) ∧ a.answer = .won true ∧
      ¬ Triggered earlier (Kin s.history i) ∧
      ∀ b ∈ later, b.Triggers (Kin s.history i) → b.answer = .won false
  /-- Reading a flag tells whether a member of its family was triggered before. -/
  seen : ∀ later a earlier i, s.history = later ++ a :: earlier → a.call = .read i →
    ∃ set, a.answer = .seen set ∧ (set = true ↔ Triggered earlier (Kin s.history i))
  now : ∀ i < s.table.handles.length, ∃ set, s.table.isTriggered? i = some set ∧
    (set = true ↔ Triggered s.history (Kin s.history i))
  /-- Under other numbers, what happened to a family could have happened with no other flags. -/
  alone : ∀ i, ∃ number : Nat → Nat,
    (∀ j k, Kin s.history i j → Kin s.history i k → j < k → number j < number k) ∧
    ∃ u, After ((concerning (Kin s.history i) s.history).map (·.rename number)) u
  /-- What is accessed from now on comes after all this, and no flag is ever unset. -/
  lasting : ∀ moves s', s.run? moves = some s' → s.history <:+ s'.history ∧
    ∀ i, s.table.isTriggered? i = some true → s'.table.isTriggered? i = some true
  /-- No thread waits for another. -/
  going : ∀ move, s.Allows move → ∃ s', s.step? move = some s'

/-- The ways a move goes. -/
inductive Step (s : Calls) : Move → Calls → Prop
  | start {i c answers} (idle : s.callers[i]? = some { stage := .idle, answers })
    (made : ∀ j ∈ c.flag?, j < s.table.handles.length) :
    Step s (.call i c) (s.update i { stage := .called c, answers })
  | access {i c answers answer table}
    (called : s.callers[i]? = some { stage := .called c, answers })
    (answered : s.table.answer? c = some (answer, table)) :
    Step s (.proceed i) { s.update i { stage := .answered c answer, answers } with
      table, history := ⟨i, c, answer⟩ :: s.history }
  | finish {i c answer answers}
    (answered : s.callers[i]? = some { stage := .answered c answer, answers }) :
    Step s (.proceed i) (s.update i { answers := (c, answer) :: answers })

/-- What is known of thread `i`. -/
structure Fits (table : FlagTable) (history : List Access) (i : Nat) (t : Caller) : Prop where
  told : t.told = own i history
  made : ∀ c, t.stage = .called c → ∀ j ∈ c.flag?, j < table.handles.length

structure Sound (s : Calls) : Prop where
  after : After s.history s.table
  fits : ∀ i t, s.callers[i]? = some t → Fits s.table s.history i t

variable {s s' : Calls} {move : Move} {moves : List Move}

theorem Step.of_step? (h : s.step? move = some s') : Step s move s' := by
  cases move with
  | call i c =>
    rw [step?] at h
    split at h
    · rename_i answers idle
      split at h
      · rename_i made
        obtain rfl := Option.some.inj h
        exact .start idle made
      · cases h
    · cases h
  | proceed i =>
    rw [step?] at h
    split at h
    · rename_i c answers called
      obtain ⟨⟨answer, table⟩, answered, rfl⟩ := Option.map_eq_some_iff.mp h
      exact .access called answered
    · rename_i c answer answers answered
      obtain rfl := Option.some.inj h
      exact .finish answered
    · cases h

lemma fits_update {table : FlagTable} {history : List Access} {i : Nat} {t : Caller}
    (new : Fits table history i t)
    (others : ∀ j u, j ≠ i → s.callers[j]? = some u → Fits table history j u) :
    ∀ j u, (s.callers.set i t)[j]? = some u → Fits table history j u := by
  intro j u hu
  by_cases hij : j = i
  · subst hij
    obtain ⟨hj, hget⟩ := List.getElem?_eq_some_iff.mp hu
    obtain rfl : t = u := by simpa using hget
    exact new
  · rw [List.getElem?_set_ne (Ne.symm hij)] at hu
    exact others j u hij hu

lemma own_cons_self (i : Nat) (c : Call) (answer : Answer) (history : List Access) :
    own i (⟨i, c, answer⟩ :: history) = (c, answer) :: own i history := by
  simp [own]

lemma own_cons_other {a : Access} {i : Nat} (h : i ≠ a.thread) (history : List Access) :
    own i (a :: history) = own i history := by
  simp [own, Ne.symm h]

namespace Sound

lemma fresh (threads : Nat) : Sound (fresh threads) where
  after := .nil
  fits := by
    intro i t ht
    obtain ⟨-, rfl⟩ := List.mem_replicate.mp (List.mem_of_getElem? ht)
    exact ⟨rfl, by rintro c ⟨⟩⟩

theorem step (h : Sound s) (hs : Step s move s') : Sound s' := by
  cases hs with
  | start idle made =>
    refine ⟨h.after, fits_update ⟨(h.fits _ _ idle).told, ?_⟩ fun j u _ => h.fits j u⟩
    rintro c ⟨⟩
    exact made
  | access called answered =>
    have kept := (answer?_eq_some.mp answered).handles_kept.length_le
    refine ⟨.cons h.after answered, fits_update ⟨?_, by rintro c ⟨⟩⟩ fun j u hij hu => ⟨?_, ?_⟩⟩
    · rw [own_cons_self, ← (h.fits _ _ called).told]
      rfl
    · rw [own_cons_other (by exact hij), (h.fits j u hu).told]
    · intro c hcalled k hk
      exact Nat.lt_of_lt_of_le ((h.fits j u hu).made c hcalled k hk) kept
  | finish answered =>
    refine ⟨h.after, fits_update ⟨(h.fits _ _ answered).told, ?_⟩ fun j u _ => h.fits j u⟩
    rintro c ⟨⟩

theorem run (h : Sound s) (hs : s.run? moves = some s') : Sound s' := by
  induction moves generalizing s with
  | nil =>
    obtain rfl := Option.some.inj hs
    exact h
  | cons move moves ih =>
    rw [run?, List.foldlM_cons] at hs
    obtain ⟨next, hfirst, hrest⟩ := Option.bind_eq_some_iff.mp hs
    exact ih (h.step (.of_step? hfirst)) hrest

lemma going (h : Sound s) (allowed : s.Allows move) : ∃ s', s.step? move = some s' := by
  cases move with
  | call i c =>
    obtain ⟨⟨⟨stage, answers⟩, ht, rfl⟩, made⟩ := allowed
    have idle : s.callers[i]? = some ⟨.idle, answers⟩ := ht
    exact ⟨s.update i ⟨.called c, answers⟩, by simp only [step?, idle, if_pos made]⟩
  | proceed i =>
    obtain ⟨⟨stage, answers⟩, ht, busy⟩ := allowed
    have here : s.callers[i]? = some ⟨stage, answers⟩ := ht
    cases stage with
    | idle => exact absurd rfl busy
    | called c =>
      have closed := (FlagTable.Sound.of_after h.after).closed
      obtain ⟨answer, table, hanswer⟩ := closed.answers ((h.fits i _ here).made c rfl)
      simp [step?, here, answer?_eq_some.mpr hanswer]
    | answered c answer => simp [step?, here]

end Sound

lemma Step.lasting (hs : Step s move s') : s.history <:+ s'.history ∧
    ∀ i, s.table.isTriggered? i = some true → s'.table.isTriggered? i = some true := by
  cases hs with
  | start | finish => exact ⟨List.suffix_rfl, fun _ => id⟩
  | access _ answered =>
    exact ⟨List.suffix_cons _ _, fun _ => (answer?_eq_some.mp answered).lasting⟩

lemma run_lasting (hs : s.run? moves = some s') : s.history <:+ s'.history ∧
    ∀ i, s.table.isTriggered? i = some true → s'.table.isTriggered? i = some true := by
  induction moves generalizing s with
  | nil =>
    obtain rfl := Option.some.inj hs
    exact ⟨List.suffix_rfl, fun _ => id⟩
  | cons move moves ih =>
    rw [run?, List.foldlM_cons] at hs
    obtain ⟨next, hfirst, hrest⟩ := Option.bind_eq_some_iff.mp hs
    obtain ⟨grown, set⟩ := (Step.of_step? hfirst).lasting
    obtain ⟨grown', set'⟩ := ih hrest
    exact ⟨grown.trans grown', fun i hi => set' i (set i hi)⟩

/-- However many threads make, clone, trigger and read flags, in whatever order: in every family
that is triggered just the first trigger wins; a flag reads as set just if its family was triggered
before, through whichever member, and whenever the flag itself was cloned; other families make no
difference; and no flag is ever unset. -/
theorem one_trigger_wins {threads : Nat} (h : (fresh threads).run? moves = some s) :
    Coherent s := by
  have sound := (Sound.fresh threads).run h
  exact {
    told := fun i t ht => (sound.fits i t ht).told
    made := fun _ _ _ _ hsplit hanswer _ hb _ => sound.after.made hsplit hanswer hb
    winner := fun _ => sound.after.winner
    seen := fun _ _ _ _ => sound.after.seen
    now := fun _ => sound.after.now
    alone := sound.after.alone
    lasting := fun _ _ => run_lasting
    going := fun _ => sound.going }

/-- Two threads trigger a flag and its clone at once while there is another flag. The flag is cloned
once more, and read through that clone. -/
theorem one_trigger_wins_late_clone :
    let moves : List Move := [.call 0 .create, .proceed 0, .proceed 0, .call 0 (.clone 0),
      .call 1 .create, .proceed 0, .proceed 1, .proceed 0, .proceed 1, .call 0 (.trigger 0),
      .call 1 (.trigger 1), .proceed 1, .proceed 0, .proceed 0, .proceed 1, .call 0 (.clone 1),
      .call 1 (.read 2), .proceed 0, .proceed 0, .proceed 1, .proceed 1, .call 0 (.read 3),
      .proceed 0]
    ∃ s, (fresh 2).run? moves = some s ∧
      s.history.reverse.map (fun a => (a.thread, a.call, a.answer)) = [(0, .create, .made 0),
        (0, .clone 0, .made 1), (1, .create, .made 2), (1, .trigger 1, .won true),
        (0, .trigger 0, .won false), (0, .clone 1, .made 3), (1, .read 2, .seen false),
        (0, .read 3, .seen true)] ∧
      Triggered s.history (Kin s.history 3) ∧ ¬ Kin s.history 3 2 ∧ Coherent s := by
  intro moves
  let earlier : List Access := [⟨0, .clone 0, .made 1⟩, ⟨0, .create, .made 0⟩]
  let later : List Access := [⟨0, .read 3, .seen true⟩, ⟨1, .read 2, .seen false⟩,
    ⟨0, .clone 1, .made 3⟩, ⟨0, .trigger 0, .won false⟩, ⟨1, .trigger 1, .won true⟩]
  let s : Calls := {
    callers := [
      { stage := .answered (.read 3) (.seen true)
        answers := [(.clone 1, .made 3), (.trigger 0, .won false), (.clone 0, .made 1),
          (.create, .made 0)] },
      { answers := [(.read 2, .seen false), (.trigger 1, .won true), (.create, .made 2)] }]
    table := ⟨[⟨true⟩, ⟨false⟩], [0, 0, 1, 0]⟩
    history := later ++ ⟨1, .create, .made 2⟩ :: earlier }
  have hrun : (fresh 2).run? moves = some s := by decide
  have coherent := one_trigger_wins hrun
  have hclone : Kin s.history 3 1 :=
    .symm _ _ (.rel _ _ ⟨⟨0, .clone 1, .made 3⟩, by decide, rfl, rfl⟩)
  have apart : ¬ Kin s.history 2 1 :=
    (coherent.made later _ earlier 2 rfl rfl ⟨0, .clone 0, .made 1⟩ (by decide) 1 (.inr rfl)).2 rfl
  refine ⟨s, hrun, by decide, ⟨⟨1, .trigger 1, .won true⟩, by decide, 1, hclone, rfl⟩, ?_, coherent⟩
  intro hkin
  exact apart (.trans _ _ _ (.symm _ _ hkin) hclone)

end Calls

end RecordLog.FlagTable
