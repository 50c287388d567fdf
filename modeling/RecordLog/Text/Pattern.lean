import RecordLog.Text.Alphanumeric
import RecordLog.Text.Pattern.CharacterClass

/-! Regular expressions, as far as to tell which texts are some. A brace always opens a count that
is never closed, because the texts at hand hold no closing brace. -/
namespace RecordLog.Pattern

structure State where
  modes : Modes := {}
  /-- The modes outside of each open group, innermost first. -/
  outer : List Modes := []
  /-- Whether there is something that can be repeated. -/
  operand : Bool := false
  names : List (List Char) := []

/-- Letters that change modes, with a hyphen before those that are switched off, up to the end of
the list. No letter stands twice, and some letter follows the hyphen. -/
def flags? (m : Modes) (off : Bool) (seen : List Char) :
    List Char → Option (Modes × List Char × List Char)
  | [] => none
  | c :: cs =>
    if c = ':' ∨ c = ')' then if seen.head? = some '-' then none else some (m, seen, c :: cs)
    else if c = '-' then if off then none else flags? m true (c :: seen) cs
    else if seen.contains c ∨ !(['i', 'm', 's', 'u', 'x', 'U', 'R'].contains c) then none
    else
      let m := match c with
        | 'i' => { m with insensitive := !off }
        | 'u' => { m with unicode := !off }
        | 'x' => { m with verbose := !off }
        | _ => m
      flags? m off (c :: seen) cs

def State.enter (s : State) (m : Modes) : State :=
  { s with modes := m, outer := s.modes :: s.outer, operand := false }

/-- The name of a group, which no other group has. -/
def groupName? (s : State) (cs : List Char) : Option (State × List Char) :=
  let name := cs.takeWhile (· ≠ '>')
  let mayStand (c : Char) : Bool := isAlphanumeric c || ['_', '.', '[', ']'].contains c
  let mayStart := name.head?.any fun c => c = '_' || (isAlphanumeric c && !c.isDigit)
  match cs.drop name.length with
  | _ :: rest =>
    if mayStart && name.all mayStand && !s.names.contains name then
      some ({ s with names := name :: s.names }.enter s.modes, rest)
    else none
  | [] => none

/-- What follows an opening parenthesis. There is no looking around. -/
def group? (s : State) : List Char → Option (State × List Char)
  | '?' :: '=' :: _ | '?' :: '!' :: _ | '?' :: '<' :: '=' :: _ | '?' :: '<' :: '!' :: _ => none
  | '?' :: 'P' :: '<' :: cs | '?' :: '<' :: cs => groupName? s cs
  | '?' :: cs =>
    match flags? s.modes false [] cs with
    | some (m, _, ':' :: rest) => some (s.enter m, rest)
    | some (m, _ :: _, ')' :: rest) => some ({ s with modes := m, operand := false }, rest)
    | _ => none
  | cs => some (s.enter s.modes, cs)

def State.atom (s : State) : State := { s with operand := true }

/-- Reads one part of an expression. -/
def step (s : State) : List Char → Option (State × List Char)
  | [] => none
  | '(' :: cs => group? s (skip s.modes cs)
  | ')' :: cs =>
    match s.outer with
    | [] => none
    | m :: outer => some ({ s with modes := m, outer }.atom, cs)
  | '|' :: cs => some ({ s with operand := false }, cs)
  | '*' :: cs | '+' :: cs | '?' :: cs =>
    if !s.operand then none
    else match cs with
      | '?' :: cs => some (s, cs)
      | cs => some (s, cs)
  | '{' :: _ => none
  | '[' :: cs => (characterClass? s.modes cs).map (s.atom, ·)
  | '.' :: cs => if s.modes.unicode then some (s.atom, cs) else none
  | '^' :: cs | '$' :: cs => some (s.atom, cs)
  | '\\' :: cs =>
    match escape s.modes cs with
    | none => none
    | some (.literal _, rest) => if s.modes.takesLiterals then some (s.atom, rest) else none
    | some (_, rest) => some (s.atom, rest)
  | _ :: cs => if s.modes.takesLiterals then some (s.atom, cs) else none

/-- Whether what is left completes an expression. -/
def completes (s : State) (cs : List Char) : Bool :=
  match cs with
  | [] => s.outer.isEmpty
  | c :: cs =>
    match step s (c :: cs) with
    | none => false
    | some (s, rest) =>
      let rest := skip s.modes rest
      if rest.length < (c :: cs).length then completes s rest else false
  termination_by cs.length
  decreasing_by assumption

def isValid (cs : List Char) : Bool := completes {} cs

end RecordLog.Pattern
