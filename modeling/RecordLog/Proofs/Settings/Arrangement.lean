import Mathlib.Data.List.TakeWhile
import RecordLog.Proofs.Settings.Reading
import RecordLog.Proofs.Text.Decimal
import RecordLog.Settings

/-! Choices arranged and spelled in any way. However they are written down, a command line of valid
choices of different options is accepted, and the options it is read as hold just the values that
were chosen. -/
namespace RecordLog.Settings

open CommandLine (Grammar Refusal State once pathValue textValue numberValue maxNumber)

/-- A number written in decimal digits. -/
def IsDecimal (value : Bytes) (n : Nat) : Prop :=
  ∃ digits : List Char, digits ≠ [] ∧ (∀ c ∈ digits, c.isDigit) ∧
    Utf8.decode? value = some (String.ofList digits) ∧ Nat.ofDigitChars 10 digits 0 = n

lemma IsDecimal.unique {value : Bytes} {n k : Nat} (hn : IsDecimal value n)
    (hk : IsDecimal value k) : n = k := by
  obtain ⟨digits, -, -, hdigits, rfl⟩ := hn
  obtain ⟨digits', -, -, hdigits', rfl⟩ := hk
  have same : digits = digits' :=
    String.ofList_injective (Option.some.inj (hdigits.symm.trans hdigits'))
  rw [same]

/-- A value of the kind that an option takes. -/
def OptionName.Suits (value : Bytes) : OptionName → Prop
  | listen | logLevel => (Utf8.decode? value).isSome
  | interval => ∃ n ≤ maxNumber, IsDecimal value n
  | config | daemon | dataFile | logFile => True

/-- A choice with a plain value of the right kind. -/
structure Choice.Valid (c : Choice) : Prop where
  plain : c.hasPlainValue
  suits : c.option.Suits c.value

/-- An option holds exactly the value that was given for it, or was not given. -/
def Options.HoldsExactly (o : Options) (given : Option Bytes) : OptionName → Prop
  | .config => o.config = given
  | .daemon => o.daemon = given.isSome
  | .listen => Option.Rel (fun bs text => Utf8.decode? bs = some text) given o.listen
  | .dataFile => o.dataFile = given
  | .interval => Option.Rel IsDecimal given o.interval
  | .logLevel => Option.Rel (fun bs text => Utf8.decode? bs = some text) given o.logLevel
  | .logFile => o.logFile = given

/-! Reading values -/

lemma pathValue_eq_ok {bs path : Bytes} : pathValue bs = .ok path ↔ bs ≠ [] ∧ bs = path := by
  cases bs <;> simp [pathValue]

lemma textValue_eq_ok {bs : Bytes} {text : String} :
    textValue bs = .ok text ↔ Utf8.decode? bs = some text := by
  unfold textValue
  cases Utf8.decode? bs <;> simp

lemma numberValue_of_isDecimal {value : Bytes} {n : Nat} (h : IsDecimal value n)
    (small : n ≤ maxNumber) : numberValue value = .ok n := by
  obtain ⟨digits, nonempty, isDigit, decoded, rfl⟩ := h
  have hread : Decimal.read? digits = some (Nat.ofDigitChars 10 digits 0) := by
    rw [Decimal.read?, if_neg (by simpa using nonempty), Decimal.readFrom_digits isDigit]
  rw [numberValue, textValue_eq_ok.mpr decoded]
  simp only [bind, Except.bind, String.toList_ofList]
  have unsigned : ∀ rest, digits = '+' :: rest → False := by
    rintro rest rfl
    exact absurd (isDigit '+' (by simp)) (by decide)
  simp only [hread, if_pos small]

/-! Setting options -/

lemma once_put {α β : Type} {read : Bytes → Except Refusal α} {put : Option α → β}
    {old : Option α} {value : Bytes} {a : α} (h : read value = .ok a)
    (unset : Option.Rel (fun bs a => read bs = .ok a) none old) :
    (once old read value).map put = .ok (put (some a)) := by
  cases unset
  rw [once, if_neg (by simp), h]
  rfl

/-- A plain value begins with neither a dash nor an equals sign. -/
lemma plain_value {c : Choice} (plain : c.hasPlainValue) (takes : c.option.takesValue = true) :
    ∃ b bs, c.value = b :: bs ∧ b ≠ 45 ∧ b ≠ 61 := by
  obtain ⟨n, _ | ⟨b, bs⟩⟩ := c
  · simp [Choice.hasPlainValue, takes] at plain
  · simp only [Choice.hasPlainValue, Bool.and_eq_true, bne_iff_ne] at plain
    exact ⟨b, bs, rfl, plain⟩

lemma Choice.Valid.nonempty {c : Choice} (valid : c.Valid) (takes : c.option.takesValue = true) :
    c.value ≠ [] := by
  obtain ⟨b, bs, hvalue, -⟩ := plain_value valid.plain takes
  simp [hvalue]

/-- A valid choice of an option that was not given yet is accepted. -/
lemma Choice.Valid.apply_ok {o : Options} {c : Choice} (valid : c.Valid)
    (unset : o.Holds none c.option) : ∃ o', c.apply o = .ok o' := by
  obtain ⟨n, value⟩ := c
  have nonempty := valid.nonempty
  have suits := valid.suits
  cases n with
  | daemon =>
    have unset : o.daemon = false := unset
    exact ⟨_, if_neg (by simp [unset])⟩
  | config | dataFile | logFile =>
    exact ⟨_, once_put (pathValue_eq_ok.mpr ⟨nonempty rfl, rfl⟩) unset⟩
  | listen | logLevel =>
    obtain ⟨text, decoded⟩ := Option.isSome_iff_exists.mp suits
    exact ⟨_, once_put (textValue_eq_ok.mpr decoded) unset⟩
  | interval =>
    obtain ⟨n, small, decimal⟩ := suits
    exact ⟨_, once_put (numberValue_of_isDecimal decimal small) unset⟩

/-- Valid choices of different options are accepted one after the other. -/
lemma applyAll_ok {cs : List Choice} (distinct : (cs.map Choice.option).Nodup)
    (valid : ∀ c ∈ cs, c.Valid) : ∃ o, Choice.applyAll {} cs = .ok o := by
  induction cs using List.reverseRecOn with
  | nil => exact ⟨{}, rfl⟩
  | append_singleton cs c ih =>
    rw [List.map_append, List.nodup_append] at distinct
    obtain ⟨before, -, fresh⟩ := distinct
    obtain ⟨o, ho⟩ := ih before fun d hd => valid d (List.mem_append_left _ hd)
    have unset : chosen c.option cs = none :=
      chosen_eq_none.mpr fun hmem => fresh _ hmem c.option (by simp) rfl
    obtain ⟨o', ho'⟩ := (valid c (by simp)).apply_ok (unset ▸ (applyAll_holds ho).2 c.option)
    exact ⟨o', by rw [applyAll_append, ho]; exact (applyAll_singleton o c).trans ho'⟩

/-! What the options hold -/

lemma chosen_eq_some {n : OptionName} {value : Bytes} {cs : List Choice}
    (distinct : (cs.map Choice.option).Nodup) :
    chosen n cs = some value ↔ { option := n, value } ∈ cs := by
  induction cs with
  | nil => simp [chosen]
  | cons c cs ih =>
    obtain ⟨k, v⟩ := c
    obtain ⟨fresh, distinct⟩ := List.nodup_cons.mp distinct
    by_cases same : k = n
    · subst same
      have absent : ∀ v, { option := k, value := v } ∉ cs := fun v hmem =>
        fresh (List.mem_map.mpr ⟨_, hmem, rfl⟩)
      simp [chosen, absent, eq_comm]
    · have later : chosen n ({ option := k, value := v } :: cs) = chosen n cs := by
        simp [chosen, same]
      rw [later, ih distinct]
      simp [Ne.symm same]

/-- The order of the choices does not show in what is chosen. -/
lemma chosen_perm {cs cs' : List Choice} (order : cs.Perm cs')
    (distinct : (cs.map Choice.option).Nodup) (n : OptionName) : chosen n cs = chosen n cs' := by
  have distinct' := (order.map Choice.option).nodup_iff.mp distinct
  apply Option.ext
  intro value
  rw [chosen_eq_some distinct, chosen_eq_some distinct', order.mem_iff]

/-- A value is read in one way only. -/
lemma rel_functional {α : Type} {read : Bytes → Except Refusal α} {given : Option Bytes}
    {a b : Option α} (ha : Option.Rel (fun bs a => read bs = .ok a) given a)
    (hb : Option.Rel (fun bs a => read bs = .ok a) given b) : a = b := by
  cases ha with
  | none => cases hb; rfl
  | some ha =>
    cases hb with
    | some hb => exact congrArg some (Except.ok.inj (ha.symm.trans hb))

/-- Options that hold the same are the same. -/
lemma eq_of_holds {o o' : Options} {given : OptionName → Option Bytes}
    (h : ∀ n, o.Holds (given n) n) (h' : ∀ n, o'.Holds (given n) n) : o = o' := by
  obtain ⟨_, daemon⟩ := o
  obtain ⟨_, daemon'⟩ := o'
  obtain rfl : daemon = daemon' := (h .daemon).trans (h' .daemon).symm
  obtain rfl := rel_functional (h .config) (h' .config)
  obtain rfl := rel_functional (h .listen) (h' .listen)
  obtain rfl := rel_functional (h .dataFile) (h' .dataFile)
  obtain rfl := rel_functional (h .interval) (h' .interval)
  obtain rfl := rel_functional (h .logLevel) (h' .logLevel)
  obtain rfl := rel_functional (h .logFile) (h' .logFile)
  rfl

/-! Reading what was spelled -/

lemma OptionName.long_inj {n k : OptionName} : n.long = k.long ↔ n = k := by
  refine ⟨fun h => ?_, congrArg _⟩
  revert h
  cases n <;> cases k <;> decide +kernel

lemma grammar_long (n : OptionName) : Options.grammar.long? n.long = some n.action := by
  have hfind : OptionName.all.find? (fun k => some k.long = some n.long) = some n := by
    simp only [Option.some.injEq, OptionName.long_inj]
    cases n <;> rfl
  rw [Grammar.long?, Options.grammar, List.find?_append, List.find?_map]
  simp only [Function.comp_def]
  rw [hfind]
  rfl

/-- No short name is the dash. -/
lemma grammar_short {n : OptionName} {name : UInt8} (h : n.short? = some name) :
    Options.grammar.short? name = some n.action ∧ name ≠ 45 := by
  cases n <;> cases h <;> exact ⟨rfl, by decide⟩

section Arguments
variable {o : Options} {held : Option (OptionName × Option Bytes)}

lemma argument_plain {b : UInt8} {bs : Bytes} (nodash : b ≠ 45) :
    State.argument Options.grammar (reading o held false) (b :: bs) =
      (reading o held false).plain (b :: bs) :=
  State.argument_operand _ _ fun _ _ h => nodash (List.cons.inj h).1

lemma argument_short {b : UInt8} {bs : Bytes} (nodash : b ≠ 45) :
    State.argument Options.grammar (reading o held false) (45 :: b :: bs) =
      (reading o held false).shorts Options.grammar (b :: bs) := by
  unfold State.argument
  rw [if_neg (by simp [reading])]
  split
  next h => exact absurd (List.cons.inj (List.cons.inj h).2).1 nodash
  next h => exact absurd (List.cons.inj (List.cons.inj h).2).1 nodash
  next h =>
    cases h
    rfl
  next other => exact absurd rfl (other b bs)

/-- The first equals sign ends a long name. -/
lemma argument_long {body : Bytes} (named : body ≠ []) :
    (body.dropWhile (· ≠ 61) = [] →
      State.argument Options.grammar (reading o held false) (45 :: 45 :: body) =
        (reading o held false).long Options.grammar body none) ∧
    ∀ value, body.dropWhile (· ≠ 61) = 61 :: value →
      State.argument Options.grammar (reading o held false) (45 :: 45 :: body) =
        (reading o held false).long Options.grammar (body.takeWhile (· ≠ 61)) (some value) := by
  obtain ⟨b, bs, rfl⟩ := List.exists_cons_of_ne_nil named
  refine ⟨fun h => ?_, fun value h => ?_⟩ <;>
    (unfold State.argument; rw [if_neg (by simp [reading])]; simp only [h])

/-- No long name holds an equals sign. -/
lemma long_unbroken (n : OptionName) : n.long ≠ [] ∧ ∀ b ∈ n.long, decide (b ≠ 61) = true := by
  cases n <;> decide +kernel

end Arguments

/-- A reading under way that comes to these options once the held value is set. -/
def ComesTo (s : State Options) (o : Options) : Prop :=
  ∃ o₀ held, s = reading o₀ held false ∧ settled o₀ held = .ok o

section Steps
variable {s : State Options} {o o' : Options} {c : Choice} {n : OptionName}

lemma ComesTo.start : ComesTo { settings := {}, operands := Options.grammar.operands } {} :=
  ⟨{}, none, rfl, rfl⟩

lemma ComesTo.settle (h : ComesTo s o) : s.settle = .ok (reading o none false) := by
  obtain ⟨o₀, held, rfl, hsettled⟩ := h
  rw [settle_reading, hsettled]
  rfl

lemma ComesTo.accept (h : ComesTo s o) (applied : c.apply o = .ok o') :
    ∃ s', s.accept (fun value o => c.option.set o value) c.value = .ok s' ∧ ComesTo s' o' := by
  refine ⟨reading o' none false, ?_, o', none, rfl, rfl⟩
  have applied : c.option.set o c.value = .ok o' := applied
  rw [State.accept, h.settle]
  change (c.option.set o c.value).bind _ = _
  rw [applied]
  rfl

/-- A value after its option is held until the next option is met. -/
lemma ComesTo.await (h : ComesTo s o) (plain : c.hasPlainValue) (takes : c.option.takesValue = true)
    (applied : c.apply o = .ok o') :
    ∃ s', (s.await fun value o => c.option.set o value).bind
        (State.argument Options.grammar · c.value) = .ok s' ∧ ComesTo s' o' := by
  refine ⟨reading o (some (c.option, some c.value)) false, ?_, o, _, rfl, applied⟩
  rw [State.await, h.settle]
  change State.argument Options.grammar (reading o (some (c.option, none)) false) c.value = _
  obtain ⟨b, bs, hvalue, nodash, -⟩ := plain_value plain takes
  rw [hvalue, argument_plain nodash]
  rfl

/-- The option without a value is set at once. -/
lemma ComesTo.raise (h : ComesTo s o) (takes : c.option.takesValue = false)
    (applied : c.apply o = .ok o') :
    ∃ s', s.raise (fun o => c.option.set o []) = .ok s' ∧ ComesTo s' o' := by
  obtain ⟨n, value⟩ := c
  obtain rfl : n = .daemon := by simpa [OptionName.takesValue] using takes
  have applied : Choice.daemon.apply o = .ok o' := applied
  exact h.accept applied

lemma action_of_takes (takes : n.takesValue = true) :
    n.action = .value fun value o => n.set o value := if_pos takes

lemma action_of_not_takes (takes : n.takesValue = false) :
    n.action = .flag fun o => n.set o [] := if_neg (by simp [takes])

lemma ComesTo.long {args : List Bytes} (h : ComesTo s o) (plain : c.hasPlainValue)
    (applied : c.apply o = .ok o') (written : args ∈ c.longSpellings) :
    ∃ s', args.foldlM (State.argument Options.grammar) s = .ok s' ∧ ComesTo s' o' := by
  obtain ⟨o₀, held, rfl, -⟩ := id h
  obtain ⟨named, unbroken⟩ := long_unbroken c.option
  have alone : State.argument Options.grammar (reading o₀ held false)
      (45 :: 45 :: c.option.long) = _ :=
    (argument_long named).1 (List.dropWhile_eq_nil_iff.mpr unbroken)
  cases takes : c.option.takesValue with
  | false =>
    obtain rfl : args = [45 :: 45 :: c.option.long] := by
      simpa [Choice.longSpellings, takes] using written
    obtain ⟨s', hs', comes⟩ := h.raise takes applied
    refine ⟨s', ?_, comes⟩
    simp only [List.foldlM_cons, alone, State.long, grammar_long, action_of_not_takes takes, hs']
    rfl
  | true =>
    have hwritten : args = [45 :: 45 :: c.option.long, c.value] ∨
        args = [45 :: 45 :: c.option.long ++ 61 :: c.value] := by
      simpa [Choice.longSpellings, takes] using written
    obtain rfl | rfl := hwritten
    · obtain ⟨s', hs', comes⟩ := h.await plain takes applied
      refine ⟨s', ?_, comes⟩
      simp only [List.foldlM_cons, alone, State.long, grammar_long, action_of_takes takes,
        List.foldlM_nil, bind_pure]
      exact hs'
    · obtain ⟨s', hs', comes⟩ := h.accept applied
      refine ⟨s', ?_, comes⟩
      have body : c.option.long ++ 61 :: c.value ≠ [] := by simp
      have hdrop : (c.option.long ++ 61 :: c.value).dropWhile (· ≠ 61) = 61 :: c.value := by
        rw [List.dropWhile_append_of_pos unbroken]
        rfl
      have attached : State.argument Options.grammar (reading o₀ held false)
          (45 :: 45 :: (c.option.long ++ 61 :: c.value)) = _ :=
        (argument_long body).2 c.value hdrop
      have htake : (c.option.long ++ 61 :: c.value).takeWhile (· ≠ 61) = c.option.long := by
        rw [List.takeWhile_append_of_pos unbroken]
        simp
      simp only [List.foldlM_cons, List.cons_append, attached, htake, State.long, grammar_long,
        action_of_takes takes, hs']
      rfl

/-- What follows a dash, and the arguments after it. -/
lemma ComesTo.short {first : Bytes} {more : List Bytes} (h : ComesTo s o) (plain : c.hasPlainValue)
    (applied : c.apply o = .ok o') (written : (first, more) ∈ c.shortSpellings) :
    ∃ s', (s.shorts Options.grammar first).bind
        (more.foldlM (State.argument Options.grammar)) = .ok s' ∧ ComesTo s' o' := by
  unfold Choice.shortSpellings at written
  cases hname : c.option.short? with
  | none => simp [hname] at written
  | some name =>
    obtain ⟨known, -⟩ := grammar_short hname
    cases takes : c.option.takesValue with
    | false =>
      obtain ⟨rfl, rfl⟩ : first = [name] ∧ more = [] := by simpa [hname, takes] using written
      obtain ⟨s', hs', comes⟩ := h.raise takes applied
      refine ⟨s', ?_, comes⟩
      rw [State.shorts, known, action_of_not_takes takes]
      simp only [hs']
      rfl
    | true =>
      simp only [hname, takes, if_true, List.mem_cons, Prod.mk.injEq, List.not_mem_nil,
        or_false] at written
      obtain ⟨rfl, rfl⟩ | ⟨rfl, rfl⟩ | ⟨rfl, rfl⟩ := written
      · obtain ⟨s', hs', comes⟩ := h.await plain takes applied
        refine ⟨s', ?_, comes⟩
        rw [State.shorts, known, action_of_takes takes]
        simp only [List.foldlM_cons, List.foldlM_nil, bind_pure]
        exact hs'
      · obtain ⟨s', hs', comes⟩ := h.accept applied
        refine ⟨s', ?_, comes⟩
        obtain ⟨b, bs, hvalue, -, noequals⟩ := plain_value plain takes
        have some : c.value = [] → False := by simp [hvalue]
        have attached : ∀ value, c.value = 61 :: value → False := by simp [hvalue, noequals]
        simp only [State.shorts, known, action_of_takes takes, hs']
        rfl
      · obtain ⟨s', hs', comes⟩ := h.accept applied
        refine ⟨s', ?_, comes⟩
        rw [State.shorts, known, action_of_takes takes]
        simp only [hs']
        rfl

end Steps

/-- The first argument of a short spelling, alone or with the daemon option in front. -/
lemma argument_dash {s : State Options} {o : Options} {c : Choice} {first : Bytes}
    {more : List Bytes} (h : ComesTo s o) (written : (first, more) ∈ c.shortSpellings) :
    State.argument Options.grammar s (45 :: first) = s.shorts Options.grammar first ∧
      State.argument Options.grammar s (45 :: 'd'.toUInt8 :: first) =
        (s.raise fun o => OptionName.daemon.set o []).bind (·.shorts Options.grammar first) := by
  obtain ⟨o₀, held, rfl, -⟩ := h
  refine ⟨?_, argument_short (by decide)⟩
  unfold Choice.shortSpellings at written
  cases hname : c.option.short? with
  | none => simp [hname] at written
  | some name =>
    obtain ⟨rest, rfl⟩ : ∃ rest, first = name :: rest := by
      cases takes : c.option.takesValue with
      | false => exact ⟨[], by simp_all⟩
      | true =>
        simp only [hname, takes, if_true, List.mem_cons, Prod.mk.injEq, List.not_mem_nil,
          or_false] at written
        obtain ⟨rfl, -⟩ | ⟨rfl, -⟩ | ⟨rfl, -⟩ := written <;> exact ⟨_, rfl⟩
    exact argument_short (grammar_short hname).2

/-- Reading a spelling of choices makes them one after the other. -/
theorem ComesTo.spelled {cs : List Choice} {args : List Bytes} (spelled : Spelled cs args)
    {s : State Options} {o o' : Options} (h : ComesTo s o) (plain : ∀ c ∈ cs, c.hasPlainValue)
    (applied : Choice.applyAll o cs = .ok o') :
    ∃ s', args.foldlM (State.argument Options.grammar) s = .ok s' ∧ ComesTo s' o' := by
  induction spelled generalizing s o with
  | nil =>
    obtain rfl := Except.ok.inj applied
    exact ⟨s, rfl, h⟩
  | @long c cs args rest written later ih =>
    obtain ⟨o₁, hc, applied⟩ := bind_eq_ok.mp (applyAll_cons o c cs ▸ applied)
    obtain ⟨s₁, hs₁, h₁⟩ := h.long (plain c (by simp)) hc written
    obtain ⟨s', hs', h'⟩ := ih h₁ (fun d hd => plain d (by simp [hd])) applied
    refine ⟨s', ?_, h'⟩
    rw [List.foldlM_append]
    exact bind_eq_ok.mpr ⟨s₁, hs₁, hs'⟩
  | @short c cs first more rest written later ih =>
    obtain ⟨o₁, hc, applied⟩ := bind_eq_ok.mp (applyAll_cons o c cs ▸ applied)
    obtain ⟨s₁, hs₁, h₁⟩ := h.short (plain c (by simp)) hc written
    obtain ⟨s', hs', h'⟩ := ih h₁ (fun d hd => plain d (by simp [hd])) applied
    refine ⟨s', ?_, h'⟩
    rw [List.foldlM_append, List.foldlM_cons, (argument_dash h written).1]
    exact bind_eq_ok.mpr ⟨s₁, hs₁, hs'⟩
  | @bundled c cs first more rest written later ih =>
    obtain ⟨o₁, hd, applied⟩ := bind_eq_ok.mp (applyAll_cons o .daemon (c :: cs) ▸ applied)
    obtain ⟨o₂, hc, applied⟩ := bind_eq_ok.mp (applyAll_cons o₁ c cs ▸ applied)
    obtain ⟨s₁, hs₁, h₁⟩ := h.raise rfl hd
    obtain ⟨s₂, hs₂, h₂⟩ := h₁.short (plain c (by simp)) hc written
    obtain ⟨s', hs', h'⟩ := ih h₂ (fun d hd => plain d (by simp [hd])) applied
    refine ⟨s', ?_, h'⟩
    obtain ⟨s₃, hs₃, hs₂⟩ := bind_eq_ok.mp hs₂
    rw [List.foldlM_append, List.foldlM_cons, (argument_dash h written).2]
    have hfirst := (bind_eq_ok (f := (State.shorts Options.grammar · first))).mpr ⟨s₁, hs₁, hs₃⟩
    exact bind_eq_ok.mpr ⟨s₂, bind_eq_ok.mpr ⟨s₃, hfirst, hs₂⟩, hs'⟩

/-- A spelling of plain choices is read as the choices that it spells. -/
theorem parse_of_spelled {cs : List Choice} {args : List Bytes} {o : Options}
    (spelled : Spelled cs args) (plain : ∀ c ∈ cs, c.hasPlainValue)
    (applied : Choice.applyAll {} cs = .ok o) : Options.parse args = .ok o := by
  obtain ⟨s, hs, h⟩ := ComesTo.start.spelled spelled plain applied
  rw [Options.parse, Grammar.read]
  refine bind_eq_ok.mpr ⟨s, hs, bind_eq_ok.mpr ⟨_, h.settle, ?_⟩⟩
  rfl

/-- What was read from suitable values are those values. -/
lemma holdsExactly_of_holds {o : Options} {given : Option Bytes} {n : OptionName}
    (held : o.Holds given n) (suits : ∀ value ∈ given, n.Suits value) :
    o.HoldsExactly given n := by
  have path : ∀ {held : Option Bytes},
      Option.Rel (fun bs path => pathValue bs = .ok path) given held → held = given := by
    rintro _ (⟨hread⟩ | _)
    · rw [(pathValue_eq_ok.mp hread).2]
    · rfl
  have text : ∀ {held : Option String},
      Option.Rel (fun bs text => textValue bs = .ok text) given held →
        Option.Rel (fun bs text => Utf8.decode? bs = some text) given held := by
    rintro _ (⟨hread⟩ | _)
    · exact .some (textValue_eq_ok.mp hread)
    · exact .none
  cases n with
  | config | dataFile | logFile => exact path held
  | listen | logLevel => exact text held
  | daemon => exact held
  | interval =>
    have held : Option.Rel (fun bs n => numberValue bs = .ok n) given o.interval := held
    change Option.Rel IsDecimal given o.interval
    generalize o.interval = read at held ⊢
    cases held with
    | none => exact .none
    | some hread =>
      obtain ⟨n, small, decimal⟩ := suits _ rfl
      obtain rfl := Except.ok.inj ((numberValue_of_isDecimal decimal small).symm.trans hread)
      exact .some decimal

/-- Neither the order of valid choices of different options nor the way each of them is spelled
shows in what is loaded. The options are read as holding the values that were chosen. -/
theorem load_of_arranged {cs cs' : List Choice} {args args' : List Bytes}
    (distinct : (cs.map Choice.option).Nodup) (valid : ∀ c ∈ cs, c.Valid) (order : cs.Perm cs')
    (spelled : Spelled cs args) (spelled' : Spelled cs' args') :
    ∃ o, Options.parse args = .ok o ∧ Options.parse args' = .ok o ∧
      (∀ n, o.HoldsExactly (chosen n cs) n) ∧ ∀ fs, load args fs = load args' fs := by
  have distinct' := (order.map Choice.option).nodup_iff.mp distinct
  have valid' : ∀ c ∈ cs', c.Valid := fun c hc => valid c (order.mem_iff.mpr hc)
  obtain ⟨o, ho⟩ := applyAll_ok distinct valid
  obtain ⟨o', ho'⟩ := applyAll_ok distinct' valid'
  obtain rfl : o = o' := eq_of_holds (applyAll_holds ho).2 fun n =>
    chosen_perm order distinct n ▸ (applyAll_holds ho').2 n
  have parsed := parse_of_spelled spelled (fun c hc => (valid c hc).plain) ho
  have parsed' := parse_of_spelled spelled' (fun c hc => (valid' c hc).plain) ho'
  refine ⟨o, parsed, parsed', fun n => ?_, fun fs => ?_⟩
  · refine holdsExactly_of_holds ((applyAll_holds ho).2 n) fun value hvalue => ?_
    exact (valid _ ((chosen_eq_some distinct).mp hvalue)).suits
  · rw [load, load, parsed, parsed']

/-- The daemon option bundled with another one and last of all, and a value that holds an equals
sign. -/
theorem load_of_arranged_bundled :
    let text := Bytes.ofString
    let cs : List Choice := [.daemon, ⟨.listen, text "a=b"⟩, ⟨.interval, text "007"⟩]
    let args := ["-dl", "a=b", "--interval=007"].map text
    let args' := ["-i007", "--listen=a=b", "--daemon"].map text
    Spelled cs args ∧ Spelled cs.reverse args' ∧
      ∃ o, Options.parse args = .ok o ∧ Options.parse args' = .ok o ∧ o.daemon = true ∧
        o.listen = some "a=b" ∧ o.interval = some 7 ∧ ∀ fs, load args fs = load args' fs := by
  intro text cs args args'
  have spelled : Spelled cs args := by
    have hargs : args = (45 :: 'd'.toUInt8 :: text "l") :: [text "a=b"] ++
        ([text "--interval=007"] ++ []) := by decide +kernel
    rw [hargs]
    exact .bundled (by decide +kernel) (.long (by decide +kernel) .nil)
  have spelled' : Spelled cs.reverse args' := by
    have hargs : args' = (45 :: text "i007") :: [] ++ ([text "--listen=a=b"] ++
        ([text "--daemon"] ++ [])) := by decide +kernel
    rw [hargs]
    exact .short (by decide +kernel) (.long (by decide +kernel) (.long (by decide +kernel) .nil))
  have decoded : Utf8.decode? (text "a=b") = some "a=b" := by decide +kernel
  have decimal : IsDecimal (text "007") 7 :=
    ⟨['0', '0', '7'], by simp, by simp, by decide +kernel, rfl⟩
  have valid : ∀ c ∈ cs, c.Valid := by
    rintro c hc
    obtain rfl | rfl | rfl : c = .daemon ∨ c = ⟨.listen, text "a=b"⟩ ∨
        c = ⟨.interval, text "007"⟩ := by simpa [cs] using hc
    · exact ⟨by decide, trivial⟩
    · exact ⟨by decide +kernel, Option.isSome_iff_exists.mpr ⟨_, decoded⟩⟩
    · exact ⟨by decide +kernel, 7, by decide, decimal⟩
  obtain ⟨o, parsed, parsed', holds, loads⟩ :=
    load_of_arranged (by decide) valid (List.reverse_perm cs).symm spelled spelled'
  have listen : Option.Rel (fun bs read => Utf8.decode? bs = some read) (some (text "a=b"))
      o.listen := holds .listen
  have interval : Option.Rel IsDecimal (some (text "007")) o.interval := holds .interval
  refine ⟨spelled, spelled', o, parsed, parsed', holds .daemon, ?_, ?_, loads⟩
  · generalize o.listen = read at listen ⊢
    cases listen with
    | some h => exact h.symm.trans decoded
  · generalize o.interval = read at interval ⊢
    cases interval with
    | some h => exact congrArg some (h.unique decimal)

end RecordLog.Settings
