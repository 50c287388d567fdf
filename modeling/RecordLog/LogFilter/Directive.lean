import RecordLog.LogFilter.Threshold
import RecordLog.Text.Pattern
import RecordLog.Text.Utf8

/-! Directives of an event filter. A directive is a level, a target, or a target and a level with
an equals sign between; behind the target may stand, in brackets, a span and, in braces, a field
and a value for it. Blanks at the ends do not count when a directive is taken apart, but its parts
are cut from the text with them, so that blanks in front shift every part to the left. -/
namespace RecordLog

structure FieldMatch where
  name : String
  /-- The pattern that the value has to fit. -/
  value : Option String := none
  deriving DecidableEq, Repr

structure Directive where
  target : Option String := none
  span : Option String := none
  field : Option FieldMatch := none
  threshold : Threshold := .everything
  deriving DecidableEq, Repr

inductive DirectiveError
  | malformed
  /-- A part begins or ends inside of a character, which the program does not survive. -/
  | insideCharacter
  deriving DecidableEq, Repr

namespace FieldMatch

/-- A number as in `1.5e-3`, or the name of a number that is not finite. -/
def isNumber (cs : List Char) : Bool :=
  let tail := cs.dropWhile Char.isDigit
  let rest := match tail with
    | '.' :: ds => ds.dropWhile Char.isDigit
    | cs => cs
  let hasDigits := (cs.take (cs.length - rest.length)).any Char.isDigit
  let exponent := match rest with
    | [] => true
    | e :: '+' :: ds | e :: '-' :: ds | e :: ds =>
      (e = 'e' || e = 'E') && !ds.isEmpty && ds.all Char.isDigit
  (hasDigits && exponent) || ["inf", "infinity", "nan"].contains (String.ofList cs).toLower

/-- A value is a number with a plus sign or a pattern, which takes in all other numbers. -/
def isValue (cs : List Char) : Bool :=
  match cs with
  | '+' :: ds => isNumber ds
  | cs => Pattern.isValid cs

/-- A name, and a value after an equals sign; what stands after another one does not count. -/
def parse (text : String) : Except DirectiveError FieldMatch :=
  match text.toList.splitOn '=' with
  | name :: value :: _ =>
    if isValue value then .ok { name := String.ofList name, value := some (String.ofList value) }
    else .error .malformed
  | _ => if text.isEmpty then .error .malformed else .ok { name := text }

end FieldMatch

namespace Directive

/-- What is being read, with the place where it began. -/
inductive Phase
  | start
  | name (first : Nat)
  | span (first : Nat)
  | field (first : Nat)
  | fieldDone
  | bracketDone
  | level (first : Nat)
  deriving DecidableEq, Repr

/-- Whether a character begins at a place, or the text ends there. -/
def isBoundary (bs : Bytes) (place : Nat) : Bool :=
  bs[place]?.all fun b => b < 0x80 || 0xC0 ≤ b

/-- The part of a text between two places. -/
def cut (whole : Bytes) (first last : Nat) : Except DirectiveError String :=
  if isBoundary whole first && isBoundary whole last then
    .ok (Utf8.lossy ((whole.take last).drop first))
  else .error .insideCharacter

def mayStart (c : Char) : Bool := isAlphanumeric c || ['-', ':', '_'].contains c

/-- The directive and the phase after a character at a place. -/
def step (whole : Bytes) (d : Directive) (phase : Phase) (place : Nat) (c : Char) :
    Except DirectiveError (Directive × Phase) :=
  match phase, c with
  | .start, '[' => .ok (d, .span (place + 1))
  | .start, c => if mayStart c then .ok (d, .name place) else .error .malformed
  | .name first, '=' =>
    (cut whole first place).map fun name => ({ d with target := some name }, .level (place + 1))
  | .name first, '[' =>
    (cut whole first place).map fun name => ({ d with target := some name }, .span (place + 1))
  | .name first, _ => .ok (d, .name first)
  | .span first, ']' =>
    (cut whole first place).map fun name => ({ d with span := some name }, .bracketDone)
  | .span first, '{' =>
    (cut whole first place).map fun name =>
      ({ d with span := if name.isEmpty then none else some name }, .field (place + 1))
  | .span first, _ => .ok (d, .span first)
  | .field first, '}' => do
    let field ← FieldMatch.parse (← cut whole first place)
    .ok ({ d with field := some field }, .fieldDone)
  | .field first, _ => .ok (d, .field first)
  | .fieldDone, ']' => .ok (d, .bracketDone)
  | .bracketDone, '=' => .ok (d, .level (place + 1))
  | .level first, _ => .ok (d, .level first)
  | _, _ => .error .malformed

/-- Completes a directive at the end of its text. A name alone is a level or else a target. -/
def finish (whole : Bytes) (d : Directive) : Phase → Except DirectiveError Directive
  | .name first => (cut whole first whole.length).map fun name =>
    match Threshold.parse? name with
    | some threshold => { d with threshold }
    | none => { d with target := some name }
  | .level first => do
    let level ← cut whole first whole.length
    if level.isEmpty then .ok d
    else match Threshold.parse? level with
      | some threshold => .ok { d with threshold }
      | none => .error .malformed
  | .bracketDone => .ok d
  | _ => .error .malformed

def parse (text : String) : Except DirectiveError Directive := do
  let whole := Bytes.ofString text
  let ((d, phase), _) ← (Text.trim text.toList).foldlM (fun ((d, phase), place) c =>
    (step whole d phase place c).map fun next => (next, place + c.utf8Size))
    ((({} : Directive), Phase.start), 0)
  d.finish whole phase

/-- Events are reported outside of spans, so a directive for a span or for a value of a field, of
which only spans keep track, is for no event. -/
def appliesTo (d : Directive) (e : Event) : Bool :=
  d.span.isNone && (d.field.all fun f => f.value.isNone && e.hasField f.name)
    && d.target.all fun t => t.toList.isPrefixOf e.target.toList

/-- Whether `b` is at least as special as `a`: by the length of the target, then by having a field,
then by its name. -/
def yields (a b : Directive) : Bool :=
  let reach (d : Directive) : Nat := d.target.elim 0 (·.utf8ByteSize + 1)
  reach a < reach b || (reach a = reach b &&
    match a.field, b.field with
    | none, _ => true
    | some _, none => false
    | some f, some g => !(g.name < f.name))

end Directive

end RecordLog
