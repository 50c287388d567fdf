import Mathlib.Data.List.Induction
import RecordLog.Proofs.Results
import RecordLog.Settings.Spelling

/-! Choices made one after the other, and what the options hold then: the value that was chosen for
each of them, once at most. -/
namespace RecordLog.Settings

open CommandLine (Refusal once pathValue textValue numberValue)

lemma applyAll_cons (o : Options) (c : Choice) (cs : List Choice) :
    Choice.applyAll o (c :: cs) = (c.apply o).bind (Choice.applyAll · cs) := rfl

lemma applyAll_append (o : Options) (cs later : List Choice) : Choice.applyAll o (cs ++ later) =
    (Choice.applyAll o cs).bind (Choice.applyAll · later) := by
  rw [Choice.applyAll, List.foldlM_append]
  rfl

@[simp] lemma applyAll_nil (o : Options) : Choice.applyAll o [] = .ok o := rfl

@[simp] lemma applyAll_singleton (o : Options) (c : Choice) :
    Choice.applyAll o [c] = c.apply o := by
  rw [applyAll_cons]
  cases c.apply o <;> rfl

/-- The value that is chosen for an option. -/
def chosen (n : OptionName) (cs : List Choice) : Option Bytes :=
  (cs.find? (·.option = n)).map Choice.value

/-- An option holds what was given for it, read as what it is to be, or was not given. -/
def Options.Holds (o : Options) (given : Option Bytes) : OptionName → Prop
  | .config => Option.Rel (fun bs path => pathValue bs = .ok path) given o.config
  | .daemon => o.daemon = given.isSome
  | .listen => Option.Rel (fun bs text => textValue bs = .ok text) given o.listen
  | .dataFile => Option.Rel (fun bs path => pathValue bs = .ok path) given o.dataFile
  | .interval => Option.Rel (fun bs n => numberValue bs = .ok n) given o.interval
  | .logLevel => Option.Rel (fun bs text => textValue bs = .ok text) given o.logLevel
  | .logFile => Option.Rel (fun bs path => pathValue bs = .ok path) given o.logFile

lemma chosen_snoc (n : OptionName) (cs : List Choice) (c : Choice) : chosen n (cs ++ [c]) =
    (chosen n cs).or (if c.option = n then some c.value else none) := by
  unfold chosen
  rw [List.find?_append]
  cases cs.find? (·.option = n) with
  | some first => rfl
  | none =>
    by_cases h : c.option = n <;> simp [h]

lemma chosen_eq_none {n : OptionName} {cs : List Choice} :
    chosen n cs = none ↔ n ∉ cs.map Choice.option := by
  simp [chosen]

/-- What is set once was not set before, and now holds what was read. -/
lemma once_set {α β : Type} {given : Option Bytes} {old : Option α} {b : β} {value : Bytes}
    {read : Bytes → Except Refusal α} {put : Option α → β}
    (held : Option.Rel (fun bs a => read bs = .ok a) given old)
    (h : (once old read value).map put = .ok b) :
    ∃ a, read value = .ok a ∧ given = none ∧ b = put (some a) := by
  cases held with
  | some => cases h
  | none =>
    obtain ⟨_, hnew, rfl⟩ := map_eq_ok.mp h
    obtain ⟨a, hread, rfl⟩ := map_eq_ok.mp hnew
    exact ⟨a, hread, rfl, rfl⟩

section Set
variable {o o' : Options} {n k : OptionName} {value : Bytes} {given : Option Bytes}

lemma daemon_set (h : OptionName.daemon.set o value = .ok o') :
    o.daemon = false ∧ o' = { o with daemon := true } := by
  have hset : (if o.daemon then .error .argumentConflict else .ok { o with daemon := true } :
      Except Refusal Options) = .ok o' := h
  split at hset
  · cases hset
  · rename_i unset
    exact ⟨by simpa using unset, (Except.ok.inj hset).symm⟩

/-- An option is set at most once. -/
lemma holds_set (held : o.Holds given n) (h : n.set o value = .ok o') :
    given = none ∧ o'.Holds (some value) n := by
  cases n with
  | daemon =>
    obtain ⟨unset, rfl⟩ := daemon_set h
    have hgiven : o.daemon = given.isSome := held
    exact ⟨by simpa [unset] using hgiven, rfl⟩
  | _ =>
    obtain ⟨a, hread, hgiven, rfl⟩ := once_set held h
    exact ⟨hgiven, .some hread⟩

/-- Setting an option leaves the others as they are. -/
lemma holds_of_set (h : n.set o value = .ok o') (other : k ≠ n) :
    o'.Holds given k = o.Holds given k := by
  cases n with
  | daemon =>
    obtain ⟨-, rfl⟩ := daemon_set h
    cases k <;> first | rfl | exact absurd rfl other
  | _ =>
    obtain ⟨a, -, rfl⟩ := map_eq_ok.mp h
    cases k <;> first | rfl | exact absurd rfl other

end Set

/-- Choices made one after the other are of different options, and each is held. -/
theorem applyAll_holds {cs : List Choice} {o : Options} (h : Choice.applyAll {} cs = .ok o) :
    (cs.map Choice.option).Nodup ∧ ∀ n, o.Holds (chosen n cs) n := by
  induction cs using List.reverseRecOn generalizing o with
  | nil =>
    obtain rfl := Except.ok.inj h
    refine ⟨List.nodup_nil, fun n => ?_⟩
    cases n with
    | daemon => rfl
    | _ => exact .none
  | append_singleton cs c ih =>
    rw [applyAll_append] at h
    obtain ⟨o₁, hcs, h⟩ := bind_eq_ok.mp h
    rw [applyAll_singleton] at h
    obtain ⟨distinct, holds⟩ := ih hcs
    obtain ⟨fresh, held⟩ := holds_set (holds c.option) h
    refine ⟨?_, fun n => ?_⟩
    · rw [List.map_append, List.nodup_append]
      refine ⟨distinct, by simp, ?_⟩
      rintro n hmem k hk rfl
      obtain rfl : n = c.option := by simpa using hk
      exact chosen_eq_none.mp fresh hmem
    · rw [chosen_snoc]
      by_cases same : c.option = n
      · subst same
        rwa [fresh, if_pos rfl]
      · rw [if_neg same, Option.or_none, holds_of_set h (Ne.symm same)]
        exact holds n

end RecordLog.Settings
