import RecordLog.Proofs.Settings.Choices

/-! Reading a command line. Arguments that are accepted spell some choices one after the other, and
the options hold the values of those choices and no others. -/
namespace RecordLog.Settings

open CommandLine (Action Refusal State)

/-- Arguments that make these choices, perhaps with a double dash after them. -/
def Made (cs : List Choice) (args : List Bytes) : Prop :=
  ∃ front tail, args = front ++ tail ∧ Spelled cs front ∧ (tail = [] ∨ tail = [[45, 45]])

/-- An argument that spells these choices whatever follows it. -/
def Spells (cs : List Choice) (arg : Bytes) : Prop :=
  ∀ later rest, Spelled later rest → Spelled (cs ++ later) (arg :: rest)

/-- An argument that spells these choices and one more, whose value is the next argument. -/
def Announces (cs : List Choice) (n : OptionName) (arg : Bytes) : Prop :=
  ∀ value later rest, Spelled later rest →
    Spelled (cs ++ { option := n, value } :: later) (arg :: value :: rest)

lemma Made.nil : Made [] [] := ⟨[], [], rfl, .nil, .inl rfl⟩

lemma Made.dashes : Made [] [[45, 45]] := ⟨[], [[45, 45]], rfl, .nil, .inr rfl⟩

lemma Spells.made {cs later : List Choice} {arg : Bytes} {rest : List Bytes} (h : Spells cs arg)
    (made : Made later rest) : Made (cs ++ later) (arg :: rest) := by
  obtain ⟨front, tail, rfl, spelled, htail⟩ := made
  exact ⟨arg :: front, tail, rfl, h later front spelled, htail⟩

lemma Announces.made {cs later : List Choice} {n : OptionName} {arg value : Bytes}
    {rest : List Bytes} (h : Announces cs n arg) (made : Made later rest) :
    Made (cs ++ { option := n, value } :: later) (arg :: value :: rest) := by
  obtain ⟨front, tail, rfl, spelled, htail⟩ := made
  exact ⟨arg :: value :: front, tail, rfl, h value later front spelled, htail⟩

section Spellings
variable {n : OptionName} {name : UInt8} {value : Bytes}

lemma Spells.long (takes : n.takesValue = true) (value : Bytes) :
    Spells [{ option := n, value }] (45 :: 45 :: n.long ++ 61 :: value) := by
  intro later rest spelled
  have written : [45 :: 45 :: n.long ++ 61 :: value] ∈
      Choice.longSpellings { option := n, value } := by
    simp [Choice.longSpellings, takes]
  exact .long written spelled

lemma Announces.long (takes : n.takesValue = true) : Announces [] n (45 :: 45 :: n.long) := by
  intro value later rest spelled
  have written : [45 :: 45 :: n.long, value] ∈ Choice.longSpellings { option := n, value } := by
    simp [Choice.longSpellings, takes]
  exact .long written spelled

lemma Spells.longDaemon : Spells [.daemon] (45 :: 45 :: OptionName.daemon.long) := by
  intro later rest spelled
  have written : [45 :: 45 :: OptionName.daemon.long] ∈ Choice.daemon.longSpellings := by
    simp [Choice.longSpellings, Choice.daemon, OptionName.takesValue]
  exact .long written spelled

/-- What follows a dash, alone or behind the short name of the daemon option. -/
lemma Spells.short {c : Choice} {first : Bytes} (written : (first, []) ∈ c.shortSpellings) :
    Spells [c] (45 :: first) ∧ Spells [.daemon, c] (45 :: 'd'.toUInt8 :: first) :=
  ⟨fun _ _ spelled => .short written spelled, fun _ _ spelled => .bundled written spelled⟩

lemma Announces.short (takes : n.takesValue = true) (hname : n.short? = some name) :
    Announces [] n [45, name] ∧ Announces [.daemon] n [45, 'd'.toUInt8, name] := by
  have written : ∀ value, ([name], [value]) ∈ Choice.shortSpellings { option := n, value } := by
    intro value
    simp [Choice.shortSpellings, hname, takes]
  exact ⟨fun value _ _ spelled => .short (written value) spelled,
    fun value _ _ spelled => .bundled (written value) spelled⟩

end Spellings

/-! The state of a reading -/

/-- The state of a reading with these options, an option that has been met but not set yet, and its
value if that has been met too. -/
def reading (o : Options) (held : Option (OptionName × Option Bytes)) (trailing : Bool) :
    State Options where
  settings := o
  pending := held.map fun (n, value) => ⟨fun value o => n.set o value, value⟩
  operands := []
  trailing

/-- The options once the held one is set. -/
def settled (o : Options) : Option (OptionName × Option Bytes) → Except Refusal Options
  | none => .ok o
  | some (_, none) => .error .invalidValue
  | some (n, some value) => n.set o value

lemma settle_reading (o : Options) (held : Option (OptionName × Option Bytes)) (trailing : Bool) :
    (reading o held trailing).settle = (settled o held).map (reading · none trailing) := by
  rcases held with _ | ⟨n, _ | value⟩ <;> rfl

lemma switch_cases {s : CommandLine.Switch Options} (h : s ∈ Options.grammar.switches) :
    (∃ n : OptionName, s = { short := n.short?, long := some n.long, action := n.action }) ∨
      s.action = .help ∨ s.action = .version := by
  obtain hmem | hmem := List.mem_append.mp h
  · obtain ⟨n, -, rfl⟩ := List.mem_map.mp hmem
    exact .inl ⟨n, rfl⟩
  · obtain rfl | rfl : s = _ ∨ s = _ := by simpa using hmem
    · exact .inr (.inl rfl)
    · exact .inr (.inr rfl)

lemma grammar_long? {name : Bytes} {a : Action Options} (h : Options.grammar.long? name = some a) :
    (∃ n : OptionName, n.long = name ∧ a = n.action) ∨ a = .help ∨ a = .version := by
  obtain ⟨s, hfind, rfl⟩ := Option.map_eq_some_iff.mp h
  have hname := List.find?_some hfind
  obtain ⟨n, rfl⟩ | other := switch_cases (List.mem_of_find?_eq_some hfind)
  · exact .inl ⟨n, by simpa using hname, rfl⟩
  · exact .inr other

lemma grammar_short? {name : UInt8} {a : Action Options}
    (h : Options.grammar.short? name = some a) :
    (∃ n : OptionName, n.short? = some name ∧ a = n.action) ∨ a = .help ∨ a = .version := by
  obtain ⟨s, hfind, rfl⟩ := Option.map_eq_some_iff.mp h
  have hname := List.find?_some hfind
  obtain ⟨n, rfl⟩ | other := switch_cases (List.mem_of_find?_eq_some hfind)
  · exact .inl ⟨n, by simpa using hname, rfl⟩
  · exact .inr other

lemma action_value {n : OptionName} {set : Bytes → Options → Except Refusal Options}
    (h : Action.value set = n.action) :
    n.takesValue = true ∧ set = fun value o => n.set o value := by
  unfold OptionName.action at h
  split at h
  · rename_i takes
    cases h
    exact ⟨takes, rfl⟩
  · cases h

lemma action_flag {n : OptionName} {set : Options → Except Refusal Options}
    (h : Action.flag set = n.action) : n = .daemon ∧ set = fun o => n.set o [] := by
  unfold OptionName.action at h
  split at h
  · cases h
  · rename_i takes
    cases h
    exact ⟨by simpa [OptionName.takesValue] using takes, rfl⟩

section Steps
variable {o : Options} {held : Option (OptionName × Option Bytes)} {trailing : Bool}
  {s' : State Options} {n : OptionName} {value : Bytes}

lemma await_reading
    (h : (reading o held trailing).await (fun value o => n.set o value) = .ok s') :
    ∃ o₁, settled o held = .ok o₁ ∧ s' = reading o₁ (some (n, none)) trailing := by
  rw [State.await, settle_reading] at h
  obtain ⟨s, hs, rfl⟩ := map_eq_ok.mp h
  obtain ⟨o₁, before, rfl⟩ := map_eq_ok.mp hs
  exact ⟨o₁, before, rfl⟩

lemma accept_reading
    (h : (reading o held trailing).accept (fun value o => n.set o value) value = .ok s') :
    ∃ o₁ o', settled o held = .ok o₁ ∧ n.set o₁ value = .ok o' ∧ s' = reading o' none trailing := by
  rw [State.accept, settle_reading] at h
  obtain ⟨s, hs, h⟩ := bind_eq_ok.mp h
  obtain ⟨o₁, before, rfl⟩ := map_eq_ok.mp hs
  obtain ⟨o', applied, h⟩ := bind_eq_ok.mp h
  exact ⟨o₁, o', before, applied, (Except.ok.inj h).symm⟩

lemma raise_reading (h : (reading o held trailing).raise (fun o => n.set o value) = .ok s') :
    ∃ o₁ o', settled o held = .ok o₁ ∧ n.set o₁ value = .ok o' ∧ s' = reading o' none trailing :=
  accept_reading h

lemma stop_ne_ok (s : State Options) (r : Refusal) : s.stop r ≠ .ok s' := by
  rw [State.stop]
  cases s.settle <;> simp [bind, Except.bind]

end Steps

/-- What reading one argument comes to. -/
inductive Took (o : Options) (held : Option (OptionName × Option Bytes)) (arg : Bytes) :
    State Options → Prop
  | dashes (two : arg = [45, 45]) : Took o held arg (reading o held true)
  | value {n} (waits : held = some (n, none)) :
    Took o held arg (reading o (some (n, some arg)) false)
  | set {o₁ o' cs} (before : settled o held = .ok o₁) (spells : Spells cs arg)
    (applied : Choice.applyAll o₁ cs = .ok o') : Took o held arg (reading o' none false)
  | announce {o₁ o' cs n} (before : settled o held = .ok o₁) (announces : Announces cs n arg)
    (applied : Choice.applyAll o₁ cs = .ok o') :
    Took o held arg (reading o' (some (n, none)) false)

section
variable {o : Options} {held : Option (OptionName × Option Bytes)} {s' : State Options}

lemma took_plain {arg : Bytes} (h : (reading o held false).plain arg = .ok s') :
    Took o held arg s' := by
  rcases held with _ | ⟨n, _ | value⟩
  · cases h
  · obtain rfl := Except.ok.inj h
    exact .value rfl
  · cases h

lemma took_long {name : Bytes} {attached : Option Bytes}
    (h : (reading o held false).long Options.grammar name attached = .ok s') :
    Took o held (45 :: 45 :: (name ++ attached.elim [] (61 :: ·))) s' := by
  unfold State.long at h
  split at h
  next => cases h
  next set value hg =>
    obtain ⟨n, rfl, ha⟩ | ha | ha := grammar_long? hg
    · obtain ⟨takes, rfl⟩ := action_value ha
      obtain ⟨o₁, o', before, applied, rfl⟩ := accept_reading h
      exact .set before (.long takes value) ((applyAll_singleton _ _).trans applied)
    · cases ha
    · cases ha
  next set hg =>
    obtain ⟨n, rfl, ha⟩ | ha | ha := grammar_long? hg
    · obtain ⟨takes, rfl⟩ := action_value ha
      obtain ⟨o₁, before, rfl⟩ := await_reading h
      rw [Option.elim_none, List.append_nil]
      exact .announce before (.long takes) rfl
    · cases ha
    · cases ha
  next => cases h
  next set hg =>
    obtain ⟨n, rfl, ha⟩ | ha | ha := grammar_long? hg
    · obtain ⟨rfl, rfl⟩ := action_flag ha
      obtain ⟨o₁, o', before, applied, rfl⟩ := raise_reading h
      rw [Option.elim_none, List.append_nil]
      exact .set before .longDaemon ((applyAll_singleton _ _).trans applied)
    · cases ha
    · cases ha
  next => exact (stop_ne_ok _ _ h).elim
  next => exact (stop_ne_ok _ _ h).elim

/-- What short names come to: an option with its value, or with the value to come, or the daemon
option with more names behind it. -/
inductive Shorts (o : Options) (held : Option (OptionName × Option Bytes)) (s' : State Options) :
    Bytes → Prop
  | value {n name rest value o₁ o'} (before : settled o held = .ok o₁)
    (written : (name :: rest, []) ∈ Choice.shortSpellings { option := n, value })
    (applied : n.set o₁ value = .ok o') (state : s' = reading o' none false) :
    Shorts o held s' (name :: rest)
  | awaits {n name o₁} (before : settled o held = .ok o₁) (takes : n.takesValue = true)
    (short : n.short? = some name) (state : s' = reading o₁ (some (n, none)) false) :
    Shorts o held s' [name]
  | daemon {rest o₁ o'} (before : settled o held = .ok o₁)
    (applied : Choice.daemon.apply o₁ = .ok o')
    (more : (reading o' none false).shorts Options.grammar rest = .ok s') :
    Shorts o held s' ('d'.toUInt8 :: rest)

lemma Shorts.of_shorts {name : UInt8} {rest : Bytes}
    (h : (reading o held false).shorts Options.grammar (name :: rest) = .ok s') :
    Shorts o held s' (name :: rest) := by
  unfold State.shorts at h
  split at h
  next => cases h
  next set hg =>
    obtain ⟨n, hname, ha⟩ | ha | ha := grammar_short? hg
    · obtain ⟨rfl, rfl⟩ := action_flag ha
      obtain rfl : 'd'.toUInt8 = name := Option.some.inj hname
      obtain ⟨s₁, hraise, more⟩ := bind_eq_ok.mp h
      obtain ⟨o₁, o', before, applied, rfl⟩ := raise_reading hraise
      exact .daemon before applied more
    · cases ha
    · cases ha
  next => exact (stop_ne_ok _ _ h).elim
  next => exact (stop_ne_ok _ _ h).elim
  next set hg =>
    obtain ⟨n, hname, ha⟩ | ha | ha := grammar_short? hg
    · obtain ⟨takes, rfl⟩ := action_value ha
      split at h
      · obtain ⟨o₁, before, rfl⟩ := await_reading h
        exact .awaits before takes hname rfl
      · obtain ⟨o₁, o', before, applied, rfl⟩ := accept_reading h
        exact .value before (by simp [Choice.shortSpellings, hname, takes]) applied rfl
      · obtain ⟨o₁, o', before, applied, rfl⟩ := accept_reading h
        exact .value before (by simp [Choice.shortSpellings, hname, takes]) applied rfl
    · cases ha
    · cases ha

lemma took_shorts {name : UInt8} {rest : Bytes}
    (h : (reading o held false).shorts Options.grammar (name :: rest) = .ok s') :
    Took o held (45 :: name :: rest) s' := by
  cases Shorts.of_shorts h with
  | value before written applied state =>
    subst state
    exact .set before (Spells.short written).1 ((applyAll_singleton _ _).trans applied)
  | awaits before takes short state =>
    subst state
    exact .announce before (Announces.short takes short).1 rfl
  | @daemon _ o₁ o' before raised more =>
    have hfirst : Choice.applyAll o₁ [.daemon] = .ok o' := (applyAll_singleton _ _).trans raised
    cases rest with
    | nil =>
      obtain rfl := Except.ok.inj more
      have written : (['d'.toUInt8], []) ∈ Choice.daemon.shortSpellings := by decide
      exact .set before (Spells.short written).1 hfirst
    | cons name rest =>
      cases Shorts.of_shorts more with
      | @value n _ _ value _ _ settled' written applied state =>
        subst state
        obtain rfl := Except.ok.inj settled'
        refine .set before (Spells.short written).2 ?_
        rw [applyAll_cons, raised]
        exact (applyAll_singleton _ _).trans applied
      | awaits settled' takes short state =>
        subst state
        obtain rfl := Except.ok.inj settled'
        exact .announce before (Announces.short takes short).2 hfirst
      | daemon settled' again _ =>
        obtain rfl := Except.ok.inj settled'
        -- The daemon option is not given twice.
        obtain ⟨-, rfl⟩ := daemon_set raised
        cases (daemon_set again).1

theorem Took.of_argument {arg : Bytes}
    (h : State.argument Options.grammar (reading o held false) arg = .ok s') :
    Took o held arg s' := by
  unfold State.argument at h
  rw [if_neg (by simp [reading])] at h
  split at h
  · obtain rfl := Except.ok.inj h
    exact .dashes rfl
  · rename_i body two
    split at h
    · simpa using took_long h
    · rename_i b value hbody
      have whole := List.takeWhile_append_dropWhile (p := fun c => decide (c ≠ 61)) (l := body)
      have hb := List.head?_dropWhile_not (fun c => decide (c ≠ 61)) body
      rw [hbody] at whole hb
      obtain rfl : b = 61 := by simpa using hb
      have took := took_long h
      rwa [Option.elim_some, whole] at took
  · exact took_shorts h
  · exact took_plain h

end

/-! Whole command lines -/

/-- The options at the end of a reading that is under way. -/
def finish (s : State Options) (args : List Bytes) : Except Refusal Options := do
  let s ← args.foldlM (State.argument Options.grammar) s
  let s ← s.settle
  .ok s.settings

lemma finish_nil (o : Options) (held : Option (OptionName × Option Bytes)) (trailing : Bool) :
    finish (reading o held trailing) [] = settled o held := by
  rcases held with _ | ⟨n, _ | value⟩
  · rfl
  · rfl
  · change ((n.set o value).map _).bind _ = n.set o value
    cases n.set o value <;> rfl

lemma finish_cons {s : State Options} {arg : Bytes} {args : List Bytes} {o : Options}
    (h : finish s (arg :: args) = .ok o) :
    ∃ s', State.argument Options.grammar s arg = .ok s' ∧ finish s' args = .ok o := by
  rw [finish, List.foldlM_cons] at h
  obtain ⟨s₁, hread, hend⟩ := bind_eq_ok.mp h
  obtain ⟨s', hstep, hread⟩ := bind_eq_ok.mp hread
  exact ⟨s', hstep, bind_eq_ok.mpr ⟨s₁, hread, hend⟩⟩

/-- After a double dash there is nothing more. -/
lemma finish_trailing {o final : Options} {held : Option (OptionName × Option Bytes)}
    {args : List Bytes} (h : finish (reading o held true) args = .ok final) :
    args = [] ∧ settled o held = .ok final := by
  cases args with
  | nil => exact ⟨rfl, (finish_nil o held true).symm.trans h⟩
  | cons arg args =>
    obtain ⟨s', hstep, -⟩ := finish_cons h
    rcases held with _ | ⟨n, _ | value⟩ <;> cases hstep

/-- The choice that is held once its value is there. -/
def owed : Option (OptionName × Bytes) → List Choice
  | none => []
  | some (n, value) => [{ option := n, value }]

lemma settled_owed (o : Options) (held : Option (OptionName × Bytes)) :
    settled o (held.map fun (n, value) => (n, some value)) = Choice.applyAll o (owed held) := by
  cases held with
  | none => rfl
  | some held =>
    obtain ⟨n, value⟩ := held
    exact (applyAll_singleton o { option := n, value }).symm

/-- What is left of a command line spells choices, the first value being that of an option that
still waits for it. -/
theorem finish_spells (args : List Bytes) :
    (∀ o held final, finish (reading o (held.map fun (n, value) => (n, some value)) false) args =
        .ok final →
      ∃ cs, Made cs args ∧ Choice.applyAll o (owed held ++ cs) = .ok final) ∧
    ∀ o n final, finish (reading o (some (n, none)) false) args = .ok final →
      ∃ value rest cs, args = value :: rest ∧ Made cs rest ∧
        Choice.applyAll o ({ option := n, value } :: cs) = .ok final := by
  -- An announced option takes the next argument whatever it is, so the two go together.
  induction args with
  | nil =>
    refine ⟨fun o held final h => ⟨[], .nil, ?_⟩, fun o n final h => ?_⟩
    · rw [finish_nil, settled_owed] at h
      rwa [List.append_nil]
    · cases h
  | cons arg args ih =>
    obtain ⟨ihHeld, ihWaiting⟩ := ih
    refine ⟨fun o held final h => ?_, fun o n final h => ?_⟩
    · obtain ⟨s', hstep, h⟩ := finish_cons h
      cases Took.of_argument hstep with
      | dashes two =>
        obtain ⟨rfl, hsettled⟩ := finish_trailing h
        rw [settled_owed] at hsettled
        exact ⟨[], two ▸ .dashes, by rwa [List.append_nil]⟩
      | value waits =>
        obtain ⟨held, -, habs⟩ := Option.map_eq_some_iff.mp waits
        cases habs
      | set before spells applied =>
        obtain ⟨later, made, hlater⟩ := ihHeld _ none final h
        rw [settled_owed] at before
        refine ⟨_, spells.made made, ?_⟩
        rw [applyAll_append, before, Except.bind, applyAll_append, applied]
        exact hlater
      | announce before announces applied =>
        obtain ⟨value, rest, later, rfl, made, hlater⟩ := ihWaiting _ _ final h
        rw [settled_owed] at before
        refine ⟨_, announces.made made, ?_⟩
        rw [applyAll_append, before, Except.bind, applyAll_append, applied]
        exact hlater
    · obtain ⟨s', hstep, h⟩ := finish_cons h
      cases Took.of_argument hstep with
      | dashes =>
        obtain ⟨-, habs⟩ := finish_trailing h
        cases habs
      | value waits =>
        cases waits
        obtain ⟨cs, made, hcs⟩ := ihHeld o (some (n, arg)) final h
        exact ⟨arg, args, cs, rfl, made, hcs⟩
      | set before => cases before
      | announce before => cases before

/-- An accepted command line spells choices that make the options it is read as. -/
theorem parse_spells {args : List Bytes} {o : Options} (h : Options.parse args = .ok o) :
    ∃ cs, Made cs args ∧ Choice.applyAll {} cs = .ok o := by
  have hfinish : finish (reading {} none false) args = .ok o := by
    rw [Options.parse, CommandLine.Grammar.read] at h
    change (args.foldlM (State.argument Options.grammar) (reading {} none false) >>= _) = _ at h
    obtain ⟨s, hread, h⟩ := bind_eq_ok.mp h
    obtain ⟨s', hs, h⟩ := bind_eq_ok.mp h
    refine bind_eq_ok.mpr ⟨s, hread, bind_eq_ok.mpr ⟨s', hs, ?_⟩⟩
    split at h
    · exact h
    · cases h
  exact (finish_spells args).1 {} none o hfinish

/-- An accepted command line spells choices of different options, and the options it is read as hold
their values. -/
theorem parse_reads {args : List Bytes} {o : Options} (h : Options.parse args = .ok o) :
    ∃ cs, Made cs args ∧ (cs.map Choice.option).Nodup ∧ ∀ n, o.Holds (chosen n cs) n := by
  obtain ⟨cs, made, applied⟩ := parse_spells h
  exact ⟨cs, made, applyAll_holds applied⟩

end RecordLog.Settings
