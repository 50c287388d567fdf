import RecordLog.Toml.Number
import RecordLog.Toml.Value

/-! TOML documents: values, lines, and the tree that the lines build. -/
namespace RecordLog.Toml

/-- How deep values may lie within each other. -/
def maxDepth : Nat := 79

/-- A key path and its value as written, split before its last part. -/
structure Assignment where
  path : List String
  key : String
  value : Value

def Assignment.of (parts : List String) (value : Value) : Option Assignment :=
  parts.getLast?.map fun key => ⟨parts.dropLast, key, value⟩

/-- Items of an array after the opening bracket, each read by `item`. -/
def arrayFrom (item : Reader Value) (found : List Value) (cs : List Char) :
    Option (List Value × List Char) :=
  match skipFiller cs with
  | ']' :: rest => some (found.reverse, rest)
  | start =>
    match item start with
    | none => none
    | some (v, rest) =>
      match skipFiller rest with
      | ']' :: rest => some ((v :: found).reverse, rest)
      | ',' :: more =>
        if more.length < cs.length then arrayFrom item (v :: found) more else none
      | _ => none
  termination_by cs.length

/-- Key, equals sign and value, each read value by `item`. -/
def assignment (item : Reader Value) (cs : List Char) : Option (Assignment × List Char) := do
  let (parts, rest) ← key cs
  let rest ← expectChar '=' rest
  let (v, rest) ← item (skipBlanks rest)
  let a ← Assignment.of parts v
  some (a, rest)

/-- Assignments of an inline table, at least one, up to the closing brace. -/
def inlineFrom (item : Reader Value) (found : Entries) (cs : List Char) :
    Option (Entries × List Char) :=
  match assignment item cs with
  | none => none
  | some (a, rest) =>
    match found.assign a.path a.key a.value with
    | none => none
    | some found =>
      match skipBlanks rest with
      | '\x7d' :: rest => some (found, rest)
      | ',' :: more => if more.length < cs.length then inlineFrom item found more else none
      | _ => none
  termination_by cs.length

def inlineTable (item : Reader Value) (cs : List Char) : Option (Entries × List Char) :=
  match skipBlanks cs with
  | '\x7d' :: rest => some ([], rest)
  | start => inlineFrom item [] start

/-- A value that holds no other values. -/
def scalar (cs : List Char) : Option (Value × List Char) :=
  match cs with
  | [] => none
  | c :: _ =>
    if c = '"' ∨ c = '\'' then (string cs).map fun (s, rest) => (.string s, rest)
    else match cs with
      | 't' :: 'r' :: 'u' :: 'e' :: rest => some (.boolean true, rest)
      | 'f' :: 'a' :: 'l' :: 's' :: 'e' :: rest => some (.boolean false, rest)
      | _ =>
        match dateTime cs with
        | some ((), rest) => some (.dateTime, rest)
        | none =>
          match float cs with
          | some ((), rest) => some (.float, rest)
          | none => (integer cs).map fun (n, rest) => (.integer n, rest)

/-- A value with at most `depth` levels of arrays and inline tables. -/
def value : Nat → Reader Value
  | 0 => scalar
  | depth + 1 => fun cs =>
    match cs with
    | '[' :: rest => (arrayFrom (value depth) [] rest).map fun (vs, rest) => (.array vs, rest)
    | '\x7b' :: rest =>
      (inlineTable (value depth) rest).map fun (es, rest) => (.table .inline es, rest)
    | cs => scalar cs

/-- One line that says something. -/
inductive Statement
  | assign (a : Assignment)
  | header (path : List String) (key : String)
  | elementHeader (path : List String) (key : String)

def Statement.header? (element : Bool) (parts : List String) : Option Statement :=
  parts.getLast?.map fun key =>
    if element then elementHeader parts.dropLast key else header parts.dropLast key

/-- A header or an assignment, without what follows it on the line. -/
def statement : Reader Statement
  | '[' :: '[' :: cs => do
    let (parts, rest) ← key cs
    let rest ← expectChar ']' rest
    let rest ← expectChar ']' rest
    let s ← Statement.header? true parts
    some (s, rest)
  | '[' :: cs => do
    let (parts, rest) ← key cs
    let rest ← expectChar ']' rest
    let s ← Statement.header? false parts
    some (s, rest)
  | cs => (assignment (value maxDepth) cs).map fun (a, rest) => (.assign a, rest)

/-- All lines, after the statements already found. -/
def statementsFrom (found : List Statement) (cs : List Char) : Option (List Statement) :=
  match skipBlanks cs with
  | [] => some found.reverse
  | start =>
    let line : Option (List Statement × List Char) :=
      if start.head? = some '#' ∨ start.head? = some '\n' ∨ start.head? = some '\r' then
        (endLine? start).map (found, ·)
      else do
        let (s, rest) ← statement start
        let rest ← endLine? rest
        some (s :: found, rest)
    match line with
    | none => none
    | some (found, rest) => if rest.length < cs.length then statementsFrom found rest else none
  termination_by cs.length

/-- The tree so far and the path of the table that assignments go to. -/
structure Builder where
  root : Entries := []
  current : List String := []

def Builder.add (b : Builder) : Statement → Option Builder
  | .assign a =>
    (b.root.within b.current (·.assign a.path a.key a.value)).map fun root => { b with root }
  | .header path key => (b.root.openTable path key).map (⟨·, path ++ [key]⟩)
  | .elementHeader path key => (b.root.openElement path key).map (⟨·, path ++ [key]⟩)

/-- The root table of a document; a byte order mark in front does not count. -/
def parse (cs : List Char) : Option Entries := do
  let cs := if cs.head? = some '\uFEFF' then cs.drop 1 else cs
  let statements ← statementsFrom [] cs
  let b ← statements.foldlM Builder.add ({} : Builder)
  some b.root

end RecordLog.Toml
