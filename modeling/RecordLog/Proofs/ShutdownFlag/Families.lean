import Mathlib.Data.List.Induction
import Mathlib.Logic.Relation
import RecordLog.Proofs.ShutdownFlag

/-! Flags connected by cloning are a family: they share a cell, and nobody else does. What a call
on a member is told hangs on the triggers of its family before it, and on nothing else. -/
namespace RecordLog.FlagTable

/-- The access uses flag `i`, or makes it. -/
def Access.Names (a : Access) (i : Nat) : Prop := a.call.flag? = some i ∨ a.answer = .made i

/-- The access triggers a member of the family. -/
def Access.Triggers (a : Access) (family : Nat → Prop) : Prop :=
  ∃ i, family i ∧ a.call = .trigger i

/-- Flag `j` was made as a clone of flag `i`. -/
def Cloned (history : List Access) (i j : Nat) : Prop :=
  ∃ a ∈ history, a.call = .clone i ∧ a.answer = .made j

/-- Flags connected by cloning. -/
def Kin (history : List Access) : Nat → Nat → Prop := Relation.EqvGen (Cloned history)

def Triggered (history : List Access) (family : Nat → Prop) : Prop :=
  ∃ a ∈ history, a.Triggers family

/-- These accesses, newest first, were answered one after another, and have left the flags so. -/
inductive After : List Access → FlagTable → Prop
  | nil : After [] {}
  | cons {history t t'} {a : Access} (before : After history t)
    (answered : t.answer? a.call = some (a.answer, t')) : After (a :: history) t'

/-- What the flags show of the accesses to them. -/
structure Sound (history : List Access) (t : FlagTable) : Prop where
  closed : t.Closed
  named : ∀ a ∈ history, ∀ i, a.Names i → i < t.handles.length
  cloned : ∀ i j, Cloned history i j → t.handles[i]? = t.handles[j]?
  joined : ∀ i j cell, t.handles[i]? = some cell → t.handles[j]? = some cell → Kin history i j
  triggered : ∀ cell flag, t.cells[cell]? = some flag →
    (flag.triggered = true ↔ Triggered history (t.handles[·]? = some cell))

variable {history earlier later : List Access} {t t' t₀ : FlagTable} {a : Access}
  {i j cell : Nat} {flag : ShutdownFlag} {family : Nat → Prop}

@[simp] lemma Access.names_mk (thread : Nat) (c : Call) (answer : Answer) :
    Names ⟨thread, c, answer⟩ i ↔ c.flag? = some i ∨ answer = .made i := .rfl

@[simp] lemma Access.triggers_mk (thread : Nat) (c : Call) (answer : Answer) :
    Triggers ⟨thread, c, answer⟩ family ↔ ∃ i, family i ∧ c = .trigger i := .rfl

lemma Kin.cons (h : Kin history i j) (a : Access) : Kin (a :: history) i j :=
  Relation.EqvGen.mono (fun _ _ ⟨b, hb, hclone⟩ => ⟨b, List.mem_cons_of_mem a hb, hclone⟩) i j h

lemma triggered_cons :
    Triggered (a :: history) family ↔ a.Triggers family ∨ Triggered history family := by
  simp [Triggered]

lemma Triggered.congr {other : Nat → Prop}
    (h : ∀ a ∈ history, ∀ i, a.Names i → (family i ↔ other i)) :
    Triggered history family ↔ Triggered history other := by
  have named {a : Access} {i : Nat} (hcall : a.call = .trigger i) : a.Names i :=
    .inl (by rw [hcall]; rfl)
  constructor
  · rintro ⟨a, ha, i, hi, hcall⟩
    exact ⟨a, ha, i, (h a ha i (named hcall)).mp hi, hcall⟩
  · rintro ⟨a, ha, i, hi, hcall⟩
    exact ⟨a, ha, i, (h a ha i (named hcall)).mpr hi, hcall⟩

lemma Step.named (h : Step t a.call a.answer t') (hi : a.Names i) : i < t'.handles.length := by
  obtain ⟨thread, call, answer⟩ := a
  cases h with
  | create =>
    obtain rfl : t.handles.length = i := by simpa using hi
    simp
  | @clone j cell handle =>
    obtain rfl | rfl : j = i ∨ t.handles.length = i := by simpa using hi
    · simpa using Nat.lt_succ_of_lt (List.getElem?_eq_some_iff.mp handle).1
    · simp
  | @trigger j cell flag handle | @read j cell flag handle =>
    obtain rfl : j = i := by simpa using hi
    exact (List.getElem?_eq_some_iff.mp handle).1

/-- A flag is kin to one from before with its cell, unless the call has made it and the cell. -/
lemma Step.kin_before (step : Step t a.call a.answer t') (history : List Access)
    (handle : t'.handles[i]? = some cell) :
    (∃ j, t.handles[j]? = some cell ∧ Kin (a :: history) i j) ∨
      a.call = .create ∧ i = t.handles.length ∧ cell = t.cells.length := by
  obtain ⟨thread, call, answer⟩ := a
  cases step with
  | create =>
    obtain old | ⟨rfl, rfl⟩ := getElem?_snoc_eq_some.mp handle
    · exact .inl ⟨i, old, .refl i⟩
    · exact .inr ⟨rfl, rfl, rfl⟩
  | @clone j other source =>
    obtain old | ⟨rfl, rfl⟩ := getElem?_snoc_eq_some.mp handle
    · exact .inl ⟨i, old, .refl i⟩
    · exact .inl ⟨j, source, .symm _ _ (.rel _ _ ⟨_, List.mem_cons_self, rfl, rfl⟩)⟩
  | trigger | read => exact .inl ⟨i, handle, .refl i⟩

namespace Sound

section
variable (sound : Sound history t) (step : Step t a.call a.answer t')
include sound step

lemma step_cloned (h : Cloned (a :: history) i j) : t'.handles[i]? = t'.handles[j]? := by
  obtain ⟨b, hb, hcall, hanswer⟩ := h
  obtain rfl | hold := List.mem_cons.mp hb
  · rw [hcall, hanswer] at step
    cases step with
    | @clone i cell handle =>
      rw [List.getElem?_concat_length]
      exact getElem?_kept (List.prefix_append _ _) handle
  · have hi := sound.named b hold i (.inl (by rw [hcall]; rfl))
    have hj := sound.named b hold j (.inr hanswer)
    rw [getElem?_longer step.handles_kept hi, getElem?_longer step.handles_kept hj]
    exact sound.cloned i j ⟨b, hold, hcall, hanswer⟩

lemma step_joined (hi : t'.handles[i]? = some cell) (hj : t'.handles[j]? = some cell) :
    Kin (a :: history) i j := by
  -- A cell from before and a new one are never the same, so both flags go back to flags from
  -- before, or both are the new one.
  obtain ⟨i₀, hi₀, ki⟩ | ⟨-, rfl, rfl⟩ := step.kin_before history hi
  · obtain ⟨j₀, hj₀, kj⟩ | ⟨-, rfl, rfl⟩ := step.kin_before history hj
    · have old := (sound.joined i₀ j₀ cell hi₀ hj₀).cons a
      exact .trans _ _ _ (.trans _ _ _ ki old) (.symm _ _ kj)
    · exact absurd hi₀ sound.closed.unused
  · obtain ⟨j₀, hj₀, -⟩ | ⟨-, rfl, -⟩ := step.kin_before history hj
    · exact absurd hj₀ sound.closed.unused
    · exact .refl _

lemma step_triggered (held : t'.cells[cell]? = some flag) :
    flag.triggered = true ↔ Triggered (a :: history) (t'.handles[·]? = some cell) := by
  have before : Triggered history (t'.handles[·]? = some cell) ↔
      Triggered history (t.handles[·]? = some cell) := by
    refine Triggered.congr fun b hb i hi => ?_
    rw [getElem?_longer step.handles_kept (sound.named b hb i hi)]
  rw [triggered_cons, before]
  obtain ⟨thread, call, answer⟩ := a
  cases step with
  | create =>
    obtain old | ⟨rfl, rfl⟩ := getElem?_snoc_eq_some.mp held
    · simp [sound.triggered cell flag old]
    · have unused : ¬ Triggered history (t.handles[·]? = some t.cells.length) := by
        rintro ⟨b, -, i, hi, -⟩
        exact sound.closed.unused hi
      simp [unused]
  | clone => simp [sound.triggered cell flag held]
  | @trigger i other old handle held' =>
    by_cases hcell : other = cell
    · subst hcell
      rw [held_set held' ⟨true⟩] at held
      obtain rfl := Option.some.inj held
      simp [handle]
    · have same : t.cells[cell]? = some flag := by simpa [hcell] using held
      simp [handle, hcell, sound.triggered cell flag same]
  | read => simp [sound.triggered cell flag held]

end

theorem of_after (h : After history t) : Sound history t := by
  induction h with
  | nil => exact ⟨by simp [Closed], by simp, by simp [Cloned], by simp, by simp⟩
  | @cons history t t' a before answered sound =>
    have step := answer?_eq_some.mp answered
    exact {
      closed := step.closed sound.closed
      named := by
        intro b hb i hi
        obtain rfl | hold := List.mem_cons.mp hb
        · exact step.named hi
        · exact Nat.lt_of_lt_of_le (sound.named b hold i hi) step.handles_kept.length_le
      cloned := fun _ _ => sound.step_cloned step
      joined := fun _ _ _ => sound.step_joined step
      triggered := fun _ _ => sound.step_triggered step }

lemma same_handle (sound : Sound history t) (h : Kin history i j) :
    t.handles[i]? = t.handles[j]? := by
  induction h with
  | rel i j hclone => exact sound.cloned i j hclone
  | refl => rfl
  | symm i j _ ih => exact ih.symm
  | trans i j k _ _ ihi ihj => exact ihi.trans ihj

theorem kin_iff (sound : Sound history t) (handle : t.handles[i]? = some cell) :
    Kin history i j ↔ t.handles[j]? = some cell :=
  ⟨fun h => (sound.same_handle h).symm.trans handle, sound.joined i j cell handle⟩

end Sound

lemma Kin.family_eq (h : Kin history i j) : Kin history i = Kin history j := by
  funext k
  exact propext ⟨fun hk => .trans _ _ _ (.symm _ _ h) hk, fun hk => .trans _ _ _ h hk⟩

/-- If a family was triggered, there was a first time. -/
lemma Triggered.first (h : Triggered history family) : ∃ later a earlier,
    history = later ++ a :: earlier ∧ a.Triggers family ∧ ¬ Triggered earlier family := by
  induction history with
  | nil => simp [Triggered] at h
  | cons b history ih =>
    by_cases before : Triggered history family
    · obtain ⟨later, a, earlier, rfl, hfirst⟩ := ih before
      exact ⟨b :: later, a, earlier, rfl, hfirst⟩
    · exact ⟨[], b, history, rfl, (triggered_cons.mp h).resolve_right before, before⟩

namespace After

lemma split (h : After (later ++ a :: earlier) t) : ∃ t₀ t₁, After earlier t₀ ∧
    Step t₀ a.call a.answer t₁ ∧ t₁.handles <+: t.handles := by
  induction later generalizing t with
  | nil =>
    cases h with
    | cons before answered => exact ⟨_, t, before, answer?_eq_some.mp answered, List.prefix_rfl⟩
  | cons b later ih =>
    cases h with
    | cons before answered =>
      obtain ⟨t₀, t₁, hearlier, step, kept⟩ := ih before
      exact ⟨t₀, t₁, hearlier, step, kept.trans (answer?_eq_some.mp answered).handles_kept⟩

/-- At any time a flag is set just if its family was triggered before. -/
lemma triggered_iff (h : After history t) (before : After earlier t₀)
    (kept : t₀.handles <+: t.handles) (handle : t₀.handles[i]? = some cell)
    (held : t₀.cells[cell]? = some flag) :
    flag.triggered = true ↔ Triggered earlier (Kin history i) := by
  have sound := Sound.of_after before
  rw [sound.triggered cell flag held]
  refine Triggered.congr fun b hb j hj => ?_
  rw [(Sound.of_after h).kin_iff (getElem?_kept kept handle),
    getElem?_longer kept (sound.named b hb j hj)]

theorem won (h : After history t) (hsplit : history = later ++ a :: earlier)
    (triggers : a.Triggers (Kin history i)) :
    ∃ first, a.answer = .won first ∧ (first = true ↔ ¬ Triggered earlier (Kin history i)) := by
  obtain ⟨j, hkin, hcall⟩ := triggers
  obtain ⟨t₀, t₁, before, step, kept⟩ := split (hsplit ▸ h)
  have kept₀ := step.handles_kept.trans kept
  obtain ⟨thread, call, answer⟩ := a
  obtain rfl : call = .trigger j := hcall
  cases step with
  | @trigger _ cell flag handle held =>
    refine ⟨!flag.triggered, rfl, ?_⟩
    rw [hkin.family_eq, ← h.triggered_iff before kept₀ handle held]
    simp

theorem seen (h : After history t) (hsplit : history = later ++ a :: earlier)
    (hcall : a.call = .read i) :
    ∃ set, a.answer = .seen set ∧ (set = true ↔ Triggered earlier (Kin history i)) := by
  obtain ⟨t₀, t₁, before, step, kept⟩ := split (hsplit ▸ h)
  have kept₀ := step.handles_kept.trans kept
  obtain ⟨thread, call, answer⟩ := a
  obtain rfl : call = .read i := hcall
  cases step with
  | @read _ cell flag handle held =>
    exact ⟨flag.triggered, rfl, h.triggered_iff before kept₀ handle held⟩

/-- A flag that is made was not there before, and if it is no clone it is kin to no flag there. -/
theorem made (h : After history t) (hsplit : history = later ++ a :: earlier)
    (hanswer : a.answer = .made i) {b : Access} (hb : b ∈ earlier) (hj : b.Names j) :
    i ≠ j ∧ (a.call = .create → ¬ Kin history i j) := by
  obtain ⟨t₀, t₁, before, step, kept⟩ := split (hsplit ▸ h)
  have old := (Sound.of_after before).named b hb j hj
  obtain ⟨thread, call, answer⟩ := a
  obtain rfl : answer = .made i := hanswer
  cases step with
  | clone => exact ⟨(Nat.ne_of_lt old).symm, by rintro ⟨⟩⟩
  | create =>
    refine ⟨(Nat.ne_of_lt old).symm, fun _ hkin => ?_⟩
    have new : t.handles[t₀.handles.length]? = some t₀.cells.length :=
      getElem?_kept kept List.getElem?_concat_length
    have same := ((Sound.of_after h).kin_iff new).mp hkin
    rw [getElem?_longer ((List.prefix_append _ _).trans kept) old] at same
    exact (Sound.of_after before).closed.unused same

theorem now (h : After history t) (hi : i < t.handles.length) :
    ∃ set, t.isTriggered? i = some set ∧
      (set = true ↔ Triggered history (Kin history i)) := by
  have handle := List.getElem?_eq_getElem hi
  obtain ⟨flag, held⟩ := (Sound.of_after h).closed.held handle
  exact ⟨flag.triggered, isTriggered?_eq_some.mpr ⟨_, flag, handle, held, rfl⟩,
    h.triggered_iff h List.prefix_rfl handle held⟩

/-- What all flags show is whose families were triggered. -/
theorem readings_iff (h : After history t) :
    t.readings[i]? = some true ↔ i < t.handles.length ∧ Triggered history (Kin history i) := by
  rw [(Sound.of_after h).closed.readings]
  constructor
  · intro hset
    obtain ⟨cell, flag, handle, -⟩ := isTriggered?_eq_some.mp hset
    have hi := (List.getElem?_eq_some_iff.mp handle).1
    obtain ⟨set, hread, hiff⟩ := h.now hi
    exact ⟨hi, hiff.mp (Option.some.inj (hread.symm.trans hset))⟩
  · rintro ⟨hi, triggered⟩
    obtain ⟨set, hread, hiff⟩ := h.now hi
    rw [hread, hiff.mpr triggered]

lemma unique (h : After history t) (h' : After history t') : t = t' := by
  induction h generalizing t' with
  | nil =>
    cases h'
    rfl
  | cons _ answered ih =>
    cases h' with
    | cons before' answered' =>
      obtain rfl := ih before'
      exact (Prod.mk.inj (Option.some.inj (answered.symm.trans answered'))).2

/-- Triggers of one flag by any threads, in the order in which they get there, are the race that
`race?` runs: one of them wins, unless the flag was set before. -/
theorem race {value : Bool} (h : After (later ++ earlier) t') (before : After earlier t)
    (seen : t.isTriggered? i = some value) (all : ∀ a ∈ later, a.call = .trigger i) :
    t.race? i later.length = some (later.countP (·.answer = .won true), t') ∧
      later.countP (·.answer = .won true) = if value then 0 else min later.length 1 := by
  have hrace : t.race? i later.length = some (later.countP (·.answer = .won true), t') := by
    induction later using List.reverseRecOn generalizing earlier t value with
    | nil =>
      obtain rfl := before.unique h
      simp [race?, seen]
    | append_singleton newer a ih =>
      -- The last in the list came first.
      rw [List.append_assoc, List.singleton_append] at h
      obtain ⟨t₀, t₁, before₀, step, -⟩ := split h
      obtain rfl := before.unique before₀
      have next : After (a :: earlier) t₁ := .cons before (answer?_eq_some.mpr step)
      have hcall := all a (by simp)
      obtain ⟨thread, call, answer⟩ := a
      obtain rfl : call = .trigger i := hcall
      cases step with
      | @trigger _ cell flag handle held =>
        have set : isTriggered? ⟨t.cells.set cell ⟨true⟩, t.handles⟩ i = some true :=
          isTriggered?_eq_some.mpr ⟨cell, ⟨true⟩, handle, held_set held _, rfl⟩
        have hrest := ih h next set fun b hb => all b (List.mem_append_left _ hb)
        cases hflag : flag.triggered <;>
          simp [race?, trigger?, ShutdownFlag.trigger, handle, held, hrest, hflag]
  obtain ⟨t'', hcount⟩ := race?_eq seen later.length
  exact ⟨hrace, (Prod.mk.inj (Option.some.inj (hrace.symm.trans hcount))).1⟩

/-- In a family that was triggered the first trigger wins, and no other. -/
theorem winner (h : After history t) (triggered : Triggered history (Kin history i)) :
    ∃ later a earlier, history = later ++ a :: earlier ∧ a.Triggers (Kin history i) ∧
      a.answer = .won true ∧ ¬ Triggered earlier (Kin history i) ∧
      ∀ b ∈ later, b.Triggers (Kin history i) → b.answer = .won false := by
  obtain ⟨later, a, earlier, hsplit, triggers, first⟩ := triggered.first
  obtain ⟨won, hanswer, hwon⟩ := h.won hsplit triggers
  refine ⟨later, a, earlier, hsplit, triggers, by rw [hanswer, hwon.mpr first], first, ?_⟩
  intro b hb htriggers
  -- The first trigger is among what came before `b`.
  obtain ⟨newer, older, rfl⟩ := List.append_of_mem hb
  have hsplit' : history = newer ++ b :: (older ++ a :: earlier) := by simpa using hsplit
  obtain ⟨lost, hlost, hiff⟩ := h.won hsplit' htriggers
  have again : Triggered (older ++ a :: earlier) (Kin history i) := ⟨a, by simp, triggers⟩
  cases lost with
  | false => exact hlost
  | true => exact absurd again (hiff.mp rfl)

end After

end RecordLog.FlagTable
