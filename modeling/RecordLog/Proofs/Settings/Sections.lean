import Mathlib.Tactic.Lemma
import Mathlib.Tactic.Simproc.ExistsAndEq
import RecordLog.Settings

/-! Which documents decode to a configuration file, and to which. Each section has known entries,
in an order, and each of them has a kind. -/
namespace RecordLog

namespace Toml.Value

/-- The items of an array, which a row of tables is as well. -/
def items? : Value → Option (List Value)
  | array items => some items
  | tables elements => some (elements.map (table .header))
  | _ => none

end Toml.Value

namespace Settings

open Toml (Value Entries)

/-- What a known entry has to be. -/
inductive Kind
  | text
  | integer (low high : Int)

def Kind.Admits : Kind → Value → Prop
  | text, v => ∃ s, v = .string s
  | integer low high, v => ∃ n, v = .integer n ∧ low ≤ n ∧ n ≤ high

structure Field where
  name : String
  kind : Kind

/-- A section and its known entries in their order. -/
structure Part where
  key : String
  fields : List Field

namespace Part

def server : Part :=
  ⟨"server", [⟨"listen", .text⟩, ⟨"backlog", .integer (-2147483648) 2147483647⟩]⟩

def store : Part := ⟨"store", [⟨"path", .text⟩]⟩

def annotator : Part := ⟨"annotator", [⟨"interval_secs", .integer 0 Toml.maxInteger⟩]⟩

def logging : Part := ⟨"logging", [⟨"level", .text⟩, ⟨"file", .text⟩]⟩

/-- What a document may have for a section. A table has its known entries by name and an array by
position; a date counts as an empty section. -/
inductive Fits (p : Part) : Option Value → Prop
  | absent : Fits p none
  | dateTime : Fits p (some .dateTime)
  | table {origin entries} (known : ∀ f ∈ p.fields, ∀ v, entries.lookup f.name = some v →
      f.kind.Admits v) : Fits p (some (.table origin entries))
  | array {v items} (listed : Value.items? v = some items)
      (known : ∀ (i : Nat) (f : Field), p.fields[i]? = some f →
        ∀ v, items[i]? = some v → f.kind.Admits v) :
    Fits p (some v)

end Part

/-- All sections of a configuration file. -/
def parts : List Part := [.server, .store, .annotator, .logging]

/-- What a section holds for an entry, given by its position and its name. -/
def held? (part : Option Value) (i : Nat) (name : String) : Option Value :=
  (fields? part).bind fun field => field i name

/-- What a document holds for a field of a section, given by its position and its name. -/
def field? (root : Entries) (part : String) (i : Nat) (name : String) : Option Value :=
  (fields? (root.lookup part)).bind fun field => field i name

section Held
variable {i : Nat} {name : String}

@[simp] lemma held?_table (origin : Toml.Origin) (entries : Entries) :
    held? (some (.table origin entries)) i name = entries.lookup name := rfl

lemma fields?_items {v : Value} {items : List Value} (listed : v.items? = some items) :
    fields? (some v) = some fun i _ => items[i]? := by
  cases v with
  | array | tables =>
    obtain rfl := Option.some.inj listed
    simp [fields?]
  | _ => cases listed

lemma held?_items {v : Value} {items : List Value} (listed : v.items? = some items) :
    held? (some v) i name = items[i]? := by
  rw [held?, fields?_items listed, Option.bind_some]

end Held

/-- A section fits if it can hold entries and what it holds for the known ones has their kind. -/
lemma Part.fits_iff {p : Part} {part : Option Value} : p.Fits part ↔ (fields? part).isSome ∧
    ∀ i f, p.fields[i]? = some f → ∀ v, held? part i f.name = some v → f.kind.Admits v := by
  constructor
  · intro h
    cases h with
    | absent | dateTime => exact ⟨rfl, fun _ _ _ _ held => by cases held⟩
    | table known =>
      exact ⟨rfl, fun i f hfield v held => known f (List.mem_of_getElem? hfield) v held⟩
    | array listed known =>
      refine ⟨by rw [fields?_items listed]; rfl, fun i f hfield v held => ?_⟩
      rw [held?_items listed] at held
      exact known i f hfield v held
  · rintro ⟨shape, known⟩
    cases part with
    | none => exact .absent
    | some v =>
      cases v with
      | table origin entries =>
        refine .table fun f hfield v found => ?_
        obtain ⟨i, hi⟩ := List.getElem?_of_mem hfield
        exact known i f hi v found
      | array items => exact .array rfl known
      | tables elements =>
        refine .array rfl fun i f hfield v found => known i f hfield v ?_
        rwa [held?_items rfl]
      | dateTime => exact .dateTime
      | _ => cases shape

/-- The entries of a list one by one, with their positions. -/
lemma forall_getElem?_cons {α : Type} {a : α} {l : List α} {P : Nat → α → Prop} :
    (∀ i x, (a :: l)[i]? = some x → P i x) ↔ P 0 a ∧ ∀ i x, l[i]? = some x → P (i + 1) x := by
  constructor
  · exact fun h => ⟨h 0 a rfl, fun i x hx => h (i + 1) x hx⟩
  · rintro ⟨first, rest⟩ i x hx
    cases i with
    | zero => exact Option.some.inj hx ▸ first
    | succ i => exact rest i x hx

/-- An entry reads as what is there, or as its default, if what is there can be read. -/
lemma entry_eq_some_iff {α : Type} {default a : α} {read : Value → Option α} {v : Option Value} :
    entry default read v = some a ↔ (∀ x, v = some x → (read x).isSome) ∧
      (v.bind read).getD default = a := by
  cases v with
  | none => simp [entry]
  | some v =>
    cases hread : read v <;> simp [entry, hread]

section Kinds
variable {v : Value} {low high : Int}

@[simp] lemma text?_isSome : (text? v).isSome ↔ Kind.text.Admits v := by
  cases v <;> simp [text?, Kind.Admits]

lemma bounded?_eq_some {n : Int} :
    bounded? low high v = some n ↔ v = .integer n ∧ low ≤ n ∧ n ≤ high := by
  cases v with
  | integer k =>
    rw [bounded?]
    grind
  | _ => simp [bounded?]

@[simp] lemma bounded?_isSome :
    (bounded? low high v).isSome ↔ (Kind.integer low high).Admits v := by
  simp only [Option.isSome_iff_exists, bounded?_eq_some, Kind.Admits]

end Kinds

/-- What is in a document for the settings, with defaults for what is missing. -/
def File.written (root : Entries) : File where
  server := {
    listen := ((field? root "server" 0 "listen").bind text?).getD "0.0.0.0:9000"
    backlog := ((field? root "server" 1 "backlog").bind
      (bounded? (-2147483648) 2147483647)).getD 10 }
  store := { path := ((field? root "store" 0 "path").bind text?).getD "/var/tmp/echologdata" }
  annotator := {
    intervalSecs := ((field? root "annotator" 0 "interval_secs").bind fun v =>
      (bounded? 0 Toml.maxInteger v).map Int.toNat).getD 10 }
  logging := {
    level := ((field? root "logging" 0 "level").bind text?).getD plainLevel
    file := (field? root "logging" 1 "file").bind text? }

/-- An entry without a default of its own is missing where nothing is. -/
lemma getD_bind_map_some {α β : Type} (read : α → Option β) (v : Option α) :
    (v.bind fun x => (read x).map some).getD none = v.bind read := by
  cases v with
  | none => rfl
  | some v => cases h : read v <;> simp [h]

section Sections
variable {part : Option Value}

lemma serverSection_eq_some_iff {s : ServerSection} : serverSection part = some s ↔
    Part.server.Fits part ∧ s = {
      listen := ((held? part 0 "listen").bind text?).getD "0.0.0.0:9000"
      backlog := ((held? part 1 "backlog").bind (bounded? (-2147483648) 2147483647)).getD 10 } := by
  rw [Part.fits_iff, serverSection]
  cases hfields : fields? part with
  | none => simp
  | some field =>
    simp [Part.server, forall_getElem?_cons, held?, hfields, Option.bind_eq_some_iff,
      entry_eq_some_iff, and_assoc, eq_comm (a := s)]

lemma storeSection_eq_some_iff {s : StoreSection} : storeSection part = some s ↔
    Part.store.Fits part ∧ s = {
      path := ((held? part 0 "path").bind text?).getD "/var/tmp/echologdata" } := by
  rw [Part.fits_iff, storeSection]
  cases hfields : fields? part with
  | none => simp
  | some field =>
    simp [Part.store, forall_getElem?_cons, held?, hfields, Option.bind_eq_some_iff,
      entry_eq_some_iff, eq_comm (a := s)]

lemma annotatorSection_eq_some_iff {s : AnnotatorSection} : annotatorSection part = some s ↔
    Part.annotator.Fits part ∧ s = {
      intervalSecs := ((held? part 0 "interval_secs").bind fun v =>
        (bounded? 0 Toml.maxInteger v).map Int.toNat).getD 10 } := by
  rw [Part.fits_iff, annotatorSection]
  cases hfields : fields? part with
  | none => simp
  | some field =>
    simp [Part.annotator, forall_getElem?_cons, held?, hfields, Option.bind_eq_some_iff,
      entry_eq_some_iff, eq_comm (a := s)]

lemma loggingSection_eq_some_iff {s : LoggingSection} : loggingSection part = some s ↔
    Part.logging.Fits part ∧ s = {
      level := ((held? part 0 "level").bind text?).getD plainLevel
      file := (held? part 1 "file").bind text? } := by
  rw [Part.fits_iff, loggingSection]
  cases hfields : fields? part with
  | none => simp
  | some field =>
    simp [Part.logging, forall_getElem?_cons, held?, hfields, Option.bind_eq_some_iff,
      entry_eq_some_iff, and_assoc, eq_comm (a := s), getD_bind_map_some, plainLevel]

end Sections

/-- A document decodes exactly if every section of it fits, to what is in it. -/
lemma File.ofEntries_eq_some_iff {root : Entries} {file : File} :
    File.ofEntries root = some file ↔
      (∀ p ∈ parts, p.Fits (root.lookup p.key)) ∧ file = File.written root := by
  simp only [File.ofEntries, Option.bind_eq_bind, Option.bind_eq_some_iff,
    serverSection_eq_some_iff, storeSection_eq_some_iff, annotatorSection_eq_some_iff,
    loggingSection_eq_some_iff, Option.some.injEq, and_assoc, exists_and_left, ↓existsAndEq,
    true_and, parts, List.mem_cons, List.not_mem_nil, or_false, forall_eq_or_imp, forall_eq,
    eq_comm (a := file)]
  exact Iff.rfl

end Settings

end RecordLog
