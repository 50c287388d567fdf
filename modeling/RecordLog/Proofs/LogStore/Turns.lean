import Mathlib.Data.List.Forall2
import RecordLog.LogStore.Turns
import RecordLog.Proofs.LogStore.Content

/-! Writers that take turns on a log. Nothing comes between the append of a turn and its reading, so
every reading ends with the writer's own record, and it extends all that was read before it. -/
namespace RecordLog.LogStore

namespace Writer

/-- Two readings with a turn of the writer in between. -/
def Extends (w : Writer) (old new : Bytes) : Prop :=
  old <+: new ∧ old.length + w.record.length ≤ new.length

/-- A writer that has read only what the log held on the way to `log`. -/
structure Sound (log : Bytes) (w : Writer) : Prop where
  /-- The newest reading comes first; the log was empty before all of them. -/
  rising : (w.readings ++ [[]]).Pairwise fun new old => w.Extends old new
  current : ∀ r ∈ w.readings, r <+: log
  own : ∀ r ∈ w.readings, w.record <:+ r

/-- A writer after `n` chances of a turn, which have taken the log from `log` to `log'`. -/
structure Later (log : Bytes) (n : Nat) (log' : Bytes) (w w' : Writer) : Prop where
  record : w'.record = w.record
  turns : w'.turns = w.turns - n
  total : w'.turns + w'.readings.length = w.turns + w.readings.length
  sound : w.Sound log → w'.Sound log'

variable {log mid log' : Bytes} {w w' w'' : Writer} {m n : Nat}

lemma Sound.unread (unread : w.readings = []) (log : Bytes) : w.Sound log := by
  constructor <;> simp [unread]

lemma Sound.mono (sound : w.Sound log) (grown : log <+: log') : w.Sound log' where
  rising := sound.rising
  current r hr := (sound.current r hr).trans grown
  own := sound.own

/-- A reading of the log with the record just appended extends all earlier ones. -/
lemma Sound.read (sound : w.Sound log) (turns : Nat) :
    Sound (log ++ w.record) ⟨w.record, turns, (log ++ w.record) :: w.readings⟩ where
  rising := by
    refine List.pairwise_cons.mpr ⟨fun old hold => ?_, sound.rising⟩
    have hcurrent : old <+: log := by
      obtain hr | hempty := List.mem_append.mp hold
      · exact sound.current old hr
      · obtain rfl := List.mem_singleton.mp hempty
        exact List.nil_prefix
    refine ⟨hcurrent.trans (List.prefix_append _ _), ?_⟩
    rw [List.length_append]
    exact Nat.add_le_add_right hcurrent.length_le _
  current := by
    intro r hr
    obtain rfl | hold := List.mem_cons.mp hr
    · exact List.prefix_rfl
    · exact (sound.current r hold).trans (List.prefix_append _ _)
  own := by
    intro r hr
    obtain rfl | hold := List.mem_cons.mp hr
    · exact List.suffix_append _ _
    · exact sound.own r hold

/-- What the writers check of their readings. -/
theorem Sound.grows (sound : w.Sound log) : w.grows = true := by
  have rising : ([] :: w.readings.reverse).Pairwise w.Extends := by
    have := List.pairwise_reverse.mpr sound.rising
    rwa [List.reverse_append, List.reverse_singleton, List.singleton_append] at this
  rw [Writer.grows, List.all_eq_true]
  rintro ⟨old, new⟩ hpair
  obtain ⟨i, hi, heq⟩ := List.mem_iff_getElem.mp hpair
  rw [List.getElem_zip] at heq
  obtain ⟨rfl, rfl⟩ := Prod.mk.inj heq
  have hlast : i < w.readings.reverse.length := by
    rw [List.length_zip] at hi
    omega
  have hnext := List.pairwise_iff_getElem.mp rising i (i + 1) (Nat.lt_succ_of_lt hlast)
    (Nat.succ_lt_succ hlast) (Nat.lt_succ_self i)
  rw [List.getElem_cons_succ] at hnext
  rw [Bool.and_eq_true, List.isPrefixOf_iff_prefix, decide_eq_true_eq]
  exact hnext

namespace Later

lemma rest (done : w.turns = 0) (grown : log <+: log') : Later log 1 log' w w where
  record := rfl
  turns := by omega
  total := rfl
  sound sound := sound.mono grown

lemma trans (first : Later log m mid w w') (second : Later mid n log' w' w'') :
    Later log (n + m) log' w w'' where
  record := second.record.trans first.record
  turns := by rw [second.turns, first.turns, Nat.sub_sub, Nat.add_comm]
  total := second.total.trans first.total
  sound sound := second.sound (first.sound sound)

/-- Others may take their turns before and after. -/
lemma frame {before : Bytes} (later : Later mid 1 log' w w') (earlier : before <+: mid)
    {after : Bytes} (grown : log' <+: after) : Later before 1 after w w' where
  record := later.record
  turns := later.turns
  total := later.total
  sound sound := (later.sound (sound.mono earlier)).mono grown

end Later

/-- What a turn adds to the log. -/
def share (w : Writer) : Bytes := if w.turns = 0 then [] else w.record

end Writer

/-- What `n` rounds add to the log. -/
def shares (writers : List Writer) (n : Nat) : Bytes :=
  (List.range n).flatMap fun k => (writers.filter (k < ·.turns)).flatMap Writer.record

variable {s : LogStore} {h : Host} {log log' : Bytes} {writers done : List Writer} {n : Nat}

lemma Holds.turn (held : s.Holds h log) (w : Writer) :
    s.Holds (w.turn s h).2 (log ++ w.share) ∧ w.Later log 1 (log ++ w.share) (w.turn s h).1 := by
  obtain ⟨record, turns, readings⟩ := w
  cases turns with
  | zero =>
    have hshare : Writer.share ⟨record, 0, readings⟩ = [] := rfl
    rw [hshare, List.append_nil]
    exact ⟨held, .rest rfl List.prefix_rfl⟩
  | succ turns =>
    obtain ⟨happend, hheld⟩ := held.append record
    have hturn : Writer.turn s ⟨record, turns + 1, readings⟩ h =
        (⟨record, turns, (log ++ record) :: readings⟩, (s.append record h).2) := by
      rcases hadd : s.append record h with ⟨added, h'⟩
      rw [hadd] at happend hheld
      obtain rfl : added = .ok () := happend
      simp only [Writer.turn, hadd, hheld.reads]
    rw [hturn]
    refine ⟨hheld, rfl, rfl, ?_, fun sound => sound.read turns⟩
    simp only [List.length_cons]
    omega

lemma flatMap_share (writers : List Writer) :
    writers.flatMap Writer.share = (writers.filter (0 < ·.turns)).flatMap Writer.record := by
  induction writers with
  | nil => rfl
  | cons w writers ih =>
    by_cases hturns : w.turns = 0
    · simp [Writer.share, hturns, ih]
    · simp [Writer.share, hturns, Nat.pos_of_ne_zero hturns, ih]

/-- In a round everybody has a turn in order. -/
theorem Holds.round (held : s.Holds h log) (writers : List Writer) :
    ∃ done h', s.round writers h = (done, h') ∧
      s.Holds h' (log ++ writers.flatMap Writer.share) ∧
      List.Forall₂ (Writer.Later log 1 (log ++ writers.flatMap Writer.share)) writers done := by
  induction writers generalizing h log with
  | nil => exact ⟨[], h, rfl, by simpa using held, .nil⟩
  | cons w writers ih =>
    obtain ⟨hheld, hlater⟩ := held.turn w
    obtain ⟨done, h', hround, hheld', hrest⟩ := ih hheld
    rw [List.append_assoc, ← List.flatMap_cons] at hheld' hrest
    refine ⟨(w.turn s h).1 :: done, h', by simp only [LogStore.round, hround], hheld', ?_⟩
    refine .cons (hlater.frame List.prefix_rfl ?_) (hrest.imp fun w w' hw => ?_)
    · rw [List.flatMap_cons, ← List.append_assoc]
      exact List.prefix_append _ _
    · exact hw.frame (List.prefix_append _ _) List.prefix_rfl

lemma forall₂_trans {α : Type} {R S T : α → α → Prop} {xs ys zs : List α}
    (compose : ∀ x y z, R x y → S y z → T x z) (first : List.Forall₂ R xs ys)
    (second : List.Forall₂ S ys zs) : List.Forall₂ T xs zs := by
  induction first generalizing zs with
  | nil =>
    cases second
    exact .nil
  | cons hx _ ih =>
    cases second with
    | cons hy hrest => exact .cons (compose _ _ _ hx hy) (ih hrest)

/-- A round later there is one round less to come. -/
lemma shares_succ (later : List.Forall₂ (Writer.Later log 1 log') writers done) (n : Nat) :
    shares writers (n + 1) = writers.flatMap Writer.share ++ shares done n := by
  have hrest : ∀ k, (writers.filter (k + 1 < ·.turns)).flatMap Writer.record =
      (done.filter (k < ·.turns)).flatMap Writer.record := by
    intro k
    induction later with
    | nil => rfl
    | @cons w w' writers done hw _ ih =>
      have hturns : k + 1 < w.turns ↔ k < w'.turns := by
        have := hw.turns
        omega
      by_cases hk : k < w'.turns
      · simp [hk, hturns.mpr hk, hw.record, ih]
      · simp [hk, mt hturns.mp hk, ih]
  rw [flatMap_share, shares, shares, List.range_succ_eq_map, List.flatMap_cons, List.flatMap_map]
  simp only [Nat.succ_eq_add_one, hrest]

theorem Holds.rounds (held : s.Holds h log) (writers : List Writer) (n : Nat) :
    ∃ done h', s.rounds n writers h = (done, h') ∧ s.Holds h' (log ++ shares writers n) ∧
      List.Forall₂ (Writer.Later log n (log ++ shares writers n)) writers done := by
  induction n generalizing h log writers with
  | zero =>
    have hshares : shares writers 0 = [] := rfl
    rw [hshares, List.append_nil]
    exact ⟨writers, h, rfl, held, List.forall₂_same.mpr fun w _ => ⟨rfl, rfl, rfl, id⟩⟩
  | succ n ih =>
    obtain ⟨after, h₁, hround, hheld, hfirst⟩ := held.round writers
    obtain ⟨done, h', hrounds, hheld', hrest⟩ := ih hheld after
    rw [List.append_assoc, ← shares_succ hfirst] at hheld' hrest
    refine ⟨done, h', by simp only [LogStore.rounds, hround, hrounds], hheld',
      forall₂_trans (fun _ _ _ hw hw' => hw.trans hw') hfirst hrest⟩

/-- No number is above the largest. -/
lemma le_foldl_max (ns : List Nat) (start : Nat) :
    start ≤ ns.foldl max start ∧ ∀ n ∈ ns, n ≤ ns.foldl max start := by
  induction ns generalizing start with
  | nil => simp
  | cons n ns ih =>
    obtain ⟨hstart, hrest⟩ := ih (max start n)
    rw [List.foldl_cons]
    refine ⟨by omega, fun m hm => ?_⟩
    obtain rfl | hm := List.mem_cons.mp hm
    · omega
    · exact hrest m hm

/-- Writers that start on a log that holds `log` and have read nothing of it go on until nobody has
a turn left. The log grows by their records, round by round. Each of them has read as often as it
had turns; every reading ends with its own record and extends, by a record at least, those before
it. -/
theorem takeTurns_grows (held : s.Holds h log) (unread : ∀ w ∈ writers, w.readings = []) :
    ∃ done h' log', s.takeTurns writers h = (done, h') ∧ s.Holds h' log' ∧
      log' = log ++ shares writers ((writers.map Writer.turns).foldl max 0) ∧
      List.Forall₂ (fun w w' => w'.record = w.record ∧ w'.turns = 0 ∧
        w'.readings.length = w.turns ∧ w'.Sound log' ∧ w'.grows = true) writers done := by
  obtain ⟨done, h', hrounds, hheld, hlater⟩ :=
    held.rounds writers ((writers.map Writer.turns).foldl max 0)
  have hall := (List.forall₂_and_left _ _).mpr ⟨fun w (hw : w ∈ writers) => hw, hlater⟩
  refine ⟨done, h', _, hrounds, hheld, rfl, hall.imp fun w w' ⟨hw, later⟩ => ?_⟩
  have hleft : w'.turns = 0 := by
    have hmost := (le_foldl_max (writers.map Writer.turns) 0).2 _ (List.mem_map_of_mem hw)
    have hturns := later.turns
    omega
  have hcount : w'.readings.length = w.turns := by
    have htotal := later.total
    simp only [unread w hw, List.length_nil] at htotal
    omega
  have sound := later.sound (.unread (unread w hw) log)
  exact ⟨later.record, hleft, hcount, sound, sound.grows⟩

end RecordLog.LogStore
