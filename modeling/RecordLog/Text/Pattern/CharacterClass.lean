import RecordLog.Text.Blank
import RecordLog.Text.Pattern.Escape

/-! Classes of characters in regular expressions: items and ranges in square brackets, which may
stand in one another, with operations between them. -/
namespace RecordLog.Pattern

/-- Passes over what does not count. -/
def skip (m : Modes) (cs : List Char) : List Char :=
  if !m.verbose then cs else go false cs
where
  go (comment : Bool) : List Char → List Char
    | [] => []
    | c :: cs =>
      if comment then go (c ≠ '\n') cs
      else if Text.isBlank c then go false cs
      else if c = '#' then go true cs
      else c :: cs

/-- The start of a class, after its bracket: a caret for all other characters, hyphens, and a
closing bracket in the first place, which stand for themselves. -/
def classStart? (m : Modes) (cs : List Char) : Option (List Char) :=
  let afterCaret := match skip m cs with
    | '^' :: cs => if m.unicode then some (skip m cs) else none
    | cs => some cs
  match afterCaret with
  | none => none
  | some (']' :: cs) => some (skip m cs)
  | some cs => some (hyphens cs)
where
  hyphens : List Char → List Char
    | '-' :: cs => hyphens cs
    | cs => cs

def classNames : List String :=
  ["alnum", "alpha", "ascii", "blank", "cntrl", "digit", "graph", "lower", "print", "punct",
   "space", "upper", "word", "xdigit"]

/-- A class given by its name, after the first bracket of `[:name:]`. -/
def named? : List Char → Option (List Char)
  | ':' :: cs =>
    let body := match cs with
      | '^' :: cs => cs
      | cs => cs
    let name := body.takeWhile (· ≠ ':')
    match body.drop name.length with
    | ':' :: ']' :: rest => if classNames.contains (String.ofList name) then some rest else none
    | _ => none
  | _ => none

/-- One item: a character, or a class, which is `none`. -/
def classItem? (m : Modes) : List Char → Option (Option Char × List Char)
  | [] => none
  | '\\' :: cs =>
    match escape m cs with
    | some (.literal c, rest) => some (some c, rest)
    | some (.asciiClass, rest) => some (none, rest)
    | _ => none
  | c :: cs => if m.unicode || c ≤ '\x7f' then some (some c, cs) else none

/-- An item or a range, whose first character must not come after its last. A hyphen before a
bracket or another hyphen makes no range. -/
def classRange? (m : Modes) (cs : List Char) : Option (List Char) := do
  let (first, rest) ← classItem? m cs
  let rest := skip m rest
  match rest with
  | '-' :: more =>
    let more := skip m more
    match more with
    | ']' :: _ | '-' :: _ => some rest
    | _ =>
      match first, ← classItem? m more with
      | some a, (some b, rest) => if a ≤ b then some rest else none
      | _, _ => none
  | _ => some rest

/-- What follows a class that is read from inside `depth` other classes. -/
def classRest? (m : Modes) (depth : Nat) (cs : List Char) : Option (List Char) :=
  match cs with
  | [] => none
  | c :: cs =>
    let next : Option (Nat × List Char) := match c, cs with
      | '[', cs =>
        match named? cs with
        | some rest => some (depth, rest)
        | none => (classStart? m cs).map (depth + 1, ·)
      | '&', '&' :: rest | '-', '-' :: rest | '~', '~' :: rest => some (depth, rest)
      | ']', rest => some (depth - 1, rest)
      | c, cs => (classRange? m (c :: cs)).map (depth, ·)
    match next with
    | none => none
    | some (d, rest) =>
      if c = ']' ∧ depth = 0 then some rest
      else
        let rest := skip m rest
        if rest.length < (c :: cs).length then classRest? m d rest else none
  termination_by cs.length
  decreasing_by assumption

/-- What follows a class, from behind its opening bracket. -/
def characterClass? (m : Modes) (cs : List Char) : Option (List Char) := do
  if !m.takesLiterals then none
  else classRest? m 0 (skip m (← classStart? m cs))

end RecordLog.Pattern
