/-! The value tree of a TOML document and how assignments and headers build it. A table remembers
how it came to be, because that decides what may still be added to it. -/
namespace RecordLog.Toml

/-- How a table came to be. -/
inductive Origin
  /-- Written in braces: complete as it stands. -/
  | inline
  /-- Opened by a header of its own. -/
  | header
  /-- Named on the way in a header; a header may still open it. -/
  | implied
  /-- Named on the way in a dotted key; only dotted keys and deeper headers add to it. -/
  | dotted
  deriving DecidableEq, Repr

inductive Value
  | string (text : String)
  | integer (n : Int)
  | float
  | boolean (b : Bool)
  | dateTime
  | array (items : List Value)
  | table (origin : Origin) (entries : List (String × Value))
  /-- Tables opened one after the other by double headers. -/
  | tables (elements : List (List (String × Value)))

namespace Value

/-! Equality is decided by going through both trees at once. -/

mutual

def same : Value → Value → Bool
  | .string a, .string b => a = b
  | .integer a, .integer b => a = b
  | .float, .float => true
  | .boolean a, .boolean b => a = b
  | .dateTime, .dateTime => true
  | .array a, .array b => sameItems a b
  | .table o a, .table p b => o = p && sameEntries a b
  | .tables a, .tables b => sameElements a b
  | _, _ => false
  termination_by structural v => v

def sameItems : List Value → List Value → Bool
  | [], [] => true
  | v :: vs, w :: ws => same v w && sameItems vs ws
  | _, _ => false
  termination_by structural vs => vs

def sameEntries : List (String × Value) → List (String × Value) → Bool
  | [], [] => true
  | (j, v) :: es, (k, w) :: fs => j = k && same v w && sameEntries es fs
  | _, _ => false
  termination_by structural es => es

def sameElements : List (List (String × Value)) → List (List (String × Value)) → Bool
  | [], [] => true
  | es :: more, fs :: rest => sameEntries es fs && sameElements more rest
  | _, _ => false
  termination_by structural es => es

end

mutual

theorem same_iff (v : Value) : ∀ w, same v w = true ↔ v = w :=
  match v with
  | .string _ | .integer _ | .float | .boolean _ | .dateTime => fun w => by cases w <;> simp [same]
  | .array items => fun w => by cases w <;> simp [same, sameItems_iff items]
  | .table _ entries => fun w => by cases w <;> simp [same, sameEntries_iff entries]
  | .tables elements => fun w => by cases w <;> simp [same, sameElements_iff elements]
  termination_by structural v

theorem sameItems_iff (vs : List Value) : ∀ ws, sameItems vs ws = true ↔ vs = ws :=
  match vs with
  | [] => fun ws => by cases ws <;> simp [sameItems]
  | v :: vs => fun ws => by cases ws <;> simp [sameItems, same_iff v, sameItems_iff vs]
  termination_by structural vs

theorem sameEntries_iff (es : List (String × Value)) :
    ∀ fs, sameEntries es fs = true ↔ es = fs :=
  match es with
  | [] => fun fs => by cases fs <;> simp [sameEntries]
  | (_, v) :: es => fun fs => by
    cases fs <;> simp [sameEntries, same_iff v, sameEntries_iff es, Prod.ext_iff]
  termination_by structural es

theorem sameElements_iff (es : List (List (String × Value))) :
    ∀ fs, sameElements es fs = true ↔ es = fs :=
  match es with
  | [] => fun fs => by cases fs <;> simp [sameElements]
  | es :: more => fun fs => by
    cases fs <;> simp [sameElements, sameEntries_iff es, sameElements_iff more]
  termination_by structural es

end

end Value

instance : DecidableEq Value := fun _ _ => decidable_of_iff _ (Value.same_iff _ _)

/-- The content of a table. -/
abbrev Entries := List (String × Value)

namespace Entries

def put (es : Entries) (key : String) (v : Value) : Entries :=
  if (es.lookup key).isSome then es.map fun (k, old) => (k, if k = key then v else old)
  else es ++ [(key, v)]

/-- Goes down a path and changes the table found there, which is given with its origin. Missing
tables are made with the origin `made`; a dotted key does not enter a table that has a header. -/
def descend (made : Origin) (change : Origin → Entries → Option Entries) (origin : Origin) :
    List String → Entries → Option Entries
  | [], es => change origin es
  | key :: path, es =>
    match es.lookup key with
    | none => (descend made change made path []).map fun sub => es.put key (.table made sub)
    | some (.table .inline _) => none
    | some (.table old sub) =>
      if made = .dotted ∧ old = .header then none
      else (descend made change old path sub).map fun sub => es.put key (.table old sub)
    | some (.tables elements) =>
      match elements.getLast? with
      | none => none
      | some last =>
        (descend made change .header path last).map fun last =>
          es.put key (.tables (elements.dropLast ++ [last]))
    | some _ => none

/-- `path.key = v` inside a table: the key must be new, and the table on the path must be one that
dotted keys have made. -/
def assign (es : Entries) (path : List String) (key : String) (v : Value) : Option Entries :=
  descend .dotted (fun origin es =>
    if decide (origin = .dotted) = path.isEmpty then none
    else if (es.lookup key).isSome then none
    else some (es.put key v)) .header path es

/-- `[path.key]`: opens a table that is new or was only implied. -/
def openTable (es : Entries) (path : List String) (key : String) : Option Entries :=
  descend .implied (fun _ es =>
    match es.lookup key with
    | none => some (es.put key (.table .header []))
    | some (.table .implied sub) => some (es.put key (.table .header sub))
    | some _ => none) .header path es

/-- `[[path.key]]`: adds a table to the row of that name. -/
def openElement (es : Entries) (path : List String) (key : String) : Option Entries :=
  descend .implied (fun _ es =>
    match es.lookup key with
    | none => some (es.put key (.tables [[]]))
    | some (.tables elements) => some (es.put key (.tables (elements ++ [[]])))
    | some _ => none) .header path es

/-- Changes the table that the last header opened. -/
def within (es : Entries) (current : List String) (change : Entries → Option Entries) :
    Option Entries :=
  descend .implied (fun _ es => change es) .header current es

end Entries

end RecordLog.Toml
