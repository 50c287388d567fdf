import Mathlib.Data.List.Nodup
import Mathlib.Data.List.Perm.Basic
import Mathlib.Tactic.Lemma
import RecordLog.Toml.Document

/-! Documents as they are read. No table in them has a key twice, so that the order of its entries
says nothing. -/
namespace RecordLog.Toml

/-- No table in the value has a key twice. -/
inductive Value.Tidy : Value → Prop
  | string {text} : Tidy (.string text)
  | integer {n} : Tidy (.integer n)
  | float : Tidy .float
  | boolean {b} : Tidy (.boolean b)
  | dateTime : Tidy .dateTime
  | array {items} (each : ∀ v ∈ items, Tidy v) : Tidy (.array items)
  | table {origin entries} (distinct : (entries.map Prod.fst).Nodup)
      (each : ∀ e ∈ entries, Tidy e.2) : Tidy (.table origin entries)
  | tables {elements} (distinct : ∀ es ∈ elements, (es.map Prod.fst).Nodup)
      (each : ∀ es ∈ elements, ∀ e ∈ es, Tidy e.2) : Tidy (.tables elements)

namespace Entries

/-- The same of the content of a table. -/
structure Tidy (es : Entries) : Prop where
  distinct : (es.map Prod.fst).Nodup
  each : ∀ e ∈ es, e.2.Tidy

lemma lookup_eq_none {es : Entries} {key : String} :
    es.lookup key = none ↔ key ∉ es.map Prod.fst := by
  rw [List.lookup_eq_none_iff, List.mem_map]
  constructor
  · rintro missing ⟨e, he, rfl⟩
    simpa using missing e he
  · intro missing e he
    exact bne_iff_ne.mpr fun same => missing ⟨e, he, same.symm⟩

lemma mem_of_lookup {es : Entries} {key : String} {v : Value} (h : es.lookup key = some v) :
    (key, v) ∈ es := by
  obtain ⟨before, after, rfl, -⟩ := List.lookup_eq_some_iff.mp h
  simp

lemma lookup_of_mem {es : Entries} (distinct : (es.map Prod.fst).Nodup) {key : String} {v : Value}
    (h : (key, v) ∈ es) : es.lookup key = some v := by
  obtain ⟨before, after, rfl⟩ := List.append_of_mem h
  refine List.lookup_eq_some_iff.mpr ⟨before, after, rfl, fun e he => ?_⟩
  rw [List.map_append, List.map_cons, List.nodup_append] at distinct
  exact bne_iff_ne.mpr fun same =>
    distinct.2.2 e.1 (List.mem_map_of_mem he) key List.mem_cons_self same.symm

/-- What a key has does not depend on the order. -/
lemma lookup_perm {es es' : Entries} (distinct : (es.map Prod.fst).Nodup) (perm : es.Perm es')
    (key : String) : es.lookup key = es'.lookup key := by
  apply Option.ext
  intro v
  have distinct' : (es'.map Prod.fst).Nodup := (perm.map Prod.fst).nodup_iff.mp distinct
  constructor
  · exact fun h => lookup_of_mem distinct' (perm.mem_iff.mp (mem_of_lookup h))
  · exact fun h => lookup_of_mem distinct (perm.mem_iff.mpr (mem_of_lookup h))

namespace Tidy

variable {es es' : Entries} {key : String} {v : Value}

lemma nil : Tidy [] := ⟨List.nodup_nil, by simp⟩

lemma lookup (h : es.Tidy) (found : es.lookup key = some v) : v.Tidy :=
  h.each _ (mem_of_lookup found)

lemma put (h : es.Tidy) (hv : v.Tidy) : (es.put key v).Tidy := by
  unfold Entries.put
  split
  · constructor
    · have keys : (es.map fun e => (e.1, if e.1 = key then v else e.2)).map Prod.fst =
          es.map Prod.fst := by simp
      rw [keys]
      exact h.distinct
    · intro e he
      obtain ⟨old, hold, rfl⟩ := List.mem_map.mp he
      dsimp only
      split
      · exact hv
      · exact h.each old hold
  · rename_i missing
    have new : key ∉ es.map Prod.fst :=
      lookup_eq_none.mp (Option.not_isSome_iff_eq_none.mp missing)
    constructor
    · rw [List.map_append, List.nodup_append]
      refine ⟨h.distinct, by simp, ?_⟩
      rintro k hk k' hnew rfl
      obtain rfl : k = key := List.mem_singleton.mp hnew
      exact new hk
    · intro e he
      obtain he | he := List.mem_append.mp he
      · exact h.each e he
      · obtain rfl := List.mem_singleton.mp he
        exact hv

lemma table (h : es.Tidy) (origin : Origin) : (Value.table origin es).Tidy :=
  .table h.distinct h.each

end Tidy

variable {made : Origin} {change : Origin → Entries → Option Entries}

/-- A change deep down keeps a document tidy if it keeps the table tidy that it changes. -/
lemma descend_tidy (keeps : ∀ origin es es', es.Tidy → change origin es = some es' → es'.Tidy)
    {path : List String} {origin : Origin} {es es' : Entries} (h : es.Tidy)
    (changed : descend made change origin path es = some es') : es'.Tidy := by
  induction path generalizing origin es es' with
  | nil => exact keeps origin es es' h changed
  | cons key path ih =>
    unfold descend at changed
    split at changed
    · obtain ⟨sub, hsub, rfl⟩ := Option.map_eq_some_iff.mp changed
      exact h.put ((ih .nil hsub).table made)
    · cases changed
    · rename_i old sub _ found
      split at changed
      · cases changed
      · obtain ⟨sub', hsub, rfl⟩ := Option.map_eq_some_iff.mp changed
        cases h.lookup found with
        | table distinct each => exact h.put ((ih ⟨distinct, each⟩ hsub).table old)
    · rename_i elements found
      split at changed
      · cases changed
      · rename_i last hlast
        obtain ⟨last', hsub, rfl⟩ := Option.map_eq_some_iff.mp changed
        cases h.lookup found with
        | tables distinct each =>
          -- Only the last table of the row changes.
          have member := List.mem_of_getLast? hlast
          have tidy : Entries.Tidy last' := ih ⟨distinct _ member, each _ member⟩ hsub
          refine h.put (.tables ?_ ?_)
          · intro es hes
            obtain hes | hes := List.mem_append.mp hes
            · exact distinct es ((List.dropLast_sublist _).subset hes)
            · obtain rfl := List.mem_singleton.mp hes
              exact tidy.distinct
          · intro es hes
            obtain hes | hes := List.mem_append.mp hes
            · exact each es ((List.dropLast_sublist _).subset hes)
            · obtain rfl := List.mem_singleton.mp hes
              exact tidy.each
    · cases changed

section
variable {es es' : Entries} {path : List String} {key : String} {v : Value}

lemma assign_tidy (h : es.Tidy) (hv : v.Tidy) (added : es.assign path key v = some es') :
    es'.Tidy := by
  refine descend_tidy (fun origin es es' h changed => ?_) h added
  split at changed
  · cases changed
  · split at changed
    · cases changed
    · exact Option.some.inj changed ▸ h.put hv

lemma openTable_tidy (h : es.Tidy) (opened : es.openTable path key = some es') : es'.Tidy := by
  refine descend_tidy (fun origin es es' h changed => ?_) h opened
  split at changed
  · exact Option.some.inj changed ▸ h.put (Tidy.nil.table .header)
  · rename_i sub found
    cases h.lookup found with
    | table distinct each => exact Option.some.inj changed ▸ h.put (.table distinct each)
  · cases changed

lemma openElement_tidy (h : es.Tidy) (opened : es.openElement path key = some es') :
    es'.Tidy := by
  refine descend_tidy (fun origin es es' h changed => ?_) h opened
  split at changed
  · refine Option.some.inj changed ▸ h.put (.tables ?_ ?_) <;> simp
  · rename_i elements found
    cases h.lookup found with
    | tables distinct each =>
      refine Option.some.inj changed ▸ h.put (.tables ?_ ?_)
      · simpa [or_imp, forall_and] using distinct
      · simpa [or_imp, forall_and] using each
  · cases changed

end

end Entries

section Readers
variable {item : Reader Value} {cs rest : List Char}

/-- Whatever is read is tidy. -/
def TidyReader (item : Reader Value) : Prop :=
  ∀ cs v rest, item cs = some (v, rest) → v.Tidy

lemma scalar_tidy : TidyReader scalar := by
  intro cs v rest h
  unfold scalar at h
  split at h
  · cases h
  split at h
  · obtain ⟨s, -, hs⟩ := Option.map_eq_some_iff.mp h
    cases hs
    exact .string
  split at h
  · cases h
    exact .boolean
  · cases h
    exact .boolean
  split at h
  · cases h
    exact .dateTime
  split at h
  · cases h
    exact .float
  · obtain ⟨n, -, hn⟩ := Option.map_eq_some_iff.mp h
    cases hn
    exact .integer

lemma arrayFrom_tidy (tidy : TidyReader item) {found vs : List Value}
    (before : ∀ v ∈ found, v.Tidy) (h : arrayFrom item found cs = some (vs, rest)) :
    ∀ v ∈ vs, v.Tidy := by
  fun_induction arrayFrom item found cs with
  | case1 found cs =>
    cases h
    simpa using before
  | case3 found cs v rest' rest'' close _ read =>
    cases h
    simpa [or_imp, forall_and] using And.intro before (tidy _ _ _ read)
  | case4 found cs v rest' more comma _ _ read ih =>
    exact ih (List.forall_mem_cons.mpr ⟨tidy _ _ _ read, before⟩) h
  | case2 | case5 | case6 => cases h

lemma assignment_tidy (tidy : TidyReader item) {a : Assignment}
    (h : assignment item cs = some (a, rest)) : a.value.Tidy := by
  obtain ⟨⟨parts, cs₁⟩, -, h⟩ := Option.bind_eq_some_iff.mp h
  obtain ⟨cs₂, -, h⟩ := Option.bind_eq_some_iff.mp h
  obtain ⟨⟨v, cs₃⟩, hv, h⟩ := Option.bind_eq_some_iff.mp h
  obtain ⟨a', ha, h⟩ := Option.bind_eq_some_iff.mp h
  cases h
  obtain ⟨key, -, rfl⟩ := Option.map_eq_some_iff.mp ha
  exact tidy _ _ _ hv

lemma inlineFrom_tidy (tidy : TidyReader item) {found es : Entries}
    (before : found.Tidy) (h : inlineFrom item found cs = some (es, rest)) : es.Tidy := by
  fun_induction inlineFrom item found cs with
  | case3 found cs a rest' read found' added =>
    cases h
    exact Entries.assign_tidy before (assignment_tidy tidy read) added
  | case4 found cs a rest' read found' added more comma _ ih =>
    exact ih (Entries.assign_tidy before (assignment_tidy tidy read) added) h
  | case1 | case2 | case5 | case6 => cases h

lemma value_tidy (depth : Nat) : TidyReader (value depth) := by
  induction depth with
  | zero => exact scalar_tidy
  | succ depth ih =>
    intro cs v rest h
    unfold value at h
    split at h
    · obtain ⟨⟨vs, rest'⟩, hvs, h⟩ := Option.map_eq_some_iff.mp h
      cases h
      exact .array (arrayFrom_tidy ih (by simp) hvs)
    · obtain ⟨⟨es, rest'⟩, hes, h⟩ := Option.map_eq_some_iff.mp h
      cases h
      unfold inlineTable at hes
      split at hes
      · cases hes
        exact Entries.Tidy.nil.table .inline
      · exact (inlineFrom_tidy ih .nil hes).table .inline
    · exact scalar_tidy _ _ _ h

end Readers

/-- What a statement assigns is tidy. -/
def Statement.Tidy : Statement → Prop
  | assign a => a.value.Tidy
  | header _ _ | elementHeader _ _ => True

lemma statement_tidy {cs rest : List Char} {s : Statement} (h : statement cs = some (s, rest)) :
    s.Tidy := by
  unfold statement at h
  split at h
  · obtain ⟨⟨parts, cs₁⟩, -, h⟩ := Option.bind_eq_some_iff.mp h
    obtain ⟨cs₂, -, h⟩ := Option.bind_eq_some_iff.mp h
    obtain ⟨cs₃, -, h⟩ := Option.bind_eq_some_iff.mp h
    obtain ⟨s', hs, h⟩ := Option.bind_eq_some_iff.mp h
    cases h
    obtain ⟨key, -, rfl⟩ := Option.map_eq_some_iff.mp hs
    trivial
  · obtain ⟨⟨parts, cs₁⟩, -, h⟩ := Option.bind_eq_some_iff.mp h
    obtain ⟨cs₂, -, h⟩ := Option.bind_eq_some_iff.mp h
    obtain ⟨s', hs, h⟩ := Option.bind_eq_some_iff.mp h
    cases h
    obtain ⟨key, -, rfl⟩ := Option.map_eq_some_iff.mp hs
    trivial
  · obtain ⟨⟨a, cs₁⟩, ha, h⟩ := Option.map_eq_some_iff.mp h
    cases h
    exact assignment_tidy (value_tidy maxDepth) ha

lemma statementsFrom_tidy {cs : List Char} {found all : List Statement}
    (before : ∀ s ∈ found, s.Tidy) (h : statementsFrom found cs = some all) :
    ∀ s ∈ all, s.Tidy := by
  fun_induction statementsFrom found cs with
  | case1 found cs =>
    cases h
    simpa using before
  | case3 found cs found' rest shorter _ line read ih =>
    refine ih ?_ h
    dsimp only [line] at read
    split at read
    · obtain ⟨rest', -, same⟩ := Option.map_eq_some_iff.mp read
      cases same
      exact before
    · obtain ⟨⟨s, cs₁⟩, hs, read⟩ := Option.bind_eq_some_iff.mp read
      obtain ⟨cs₂, -, read⟩ := Option.bind_eq_some_iff.mp read
      cases read
      exact List.forall_mem_cons.mpr ⟨statement_tidy hs, before⟩
  | case2 | case4 => cases h

lemma Builder.add_tidy {b b' : Builder} {s : Statement} (h : b.root.Tidy) (hs : s.Tidy)
    (added : b.add s = some b') : b'.root.Tidy := by
  cases s with
  | assign a =>
    obtain ⟨root, hroot, rfl⟩ := Option.map_eq_some_iff.mp added
    exact Entries.descend_tidy (fun _ _ _ h changed => Entries.assign_tidy h hs changed) h hroot
  | header path key =>
    obtain ⟨root, hroot, rfl⟩ := Option.map_eq_some_iff.mp added
    exact Entries.openTable_tidy h hroot
  | elementHeader path key =>
    obtain ⟨root, hroot, rfl⟩ := Option.map_eq_some_iff.mp added
    exact Entries.openElement_tidy h hroot

lemma Builder.addAll_tidy {all : List Statement} {b b' : Builder} (h : b.root.Tidy)
    (tidy : ∀ s ∈ all, s.Tidy) (added : all.foldlM Builder.add b = some b') : b'.root.Tidy := by
  induction all generalizing b with
  | nil => exact Option.some.inj added ▸ h
  | cons s all ih =>
    obtain ⟨hs, tidy⟩ := List.forall_mem_cons.mp tidy
    obtain ⟨b₁, first, added⟩ := Option.bind_eq_some_iff.mp added
    exact ih (b.add_tidy h hs first) tidy added

/-- What is read as a document is tidy. -/
theorem parse_tidy {cs : List Char} {root : Entries} (h : parse cs = some root) : root.Tidy := by
  obtain ⟨all, read, h⟩ := Option.bind_eq_some_iff.mp h
  obtain ⟨b, built, h⟩ := Option.bind_eq_some_iff.mp h
  obtain rfl := Option.some.inj h
  exact Builder.addAll_tidy .nil (statementsFrom_tidy (by simp) read) built

end RecordLog.Toml
