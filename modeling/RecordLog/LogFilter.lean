import RecordLog.LogFilter.Directive

/-! Which events are written. A filter is a list of directives separated by commas; for each event
the most special one of those that apply decides, and where none applies nothing is written. -/
namespace RecordLog

structure LogFilter where
  directives : List Directive
  deriving DecidableEq, Repr

namespace LogFilter

def pieces (text : String) : List String :=
  ((text.toList.splitOn ',').map String.ofList).filter (· ≠ "")

/-- A filter of well-formed directives only. -/
def parse (text : String) : Except DirectiveError LogFilter :=
  ((pieces text).mapM Directive.parse).map fun directives => ⟨directives⟩

/-- Directives that make no sense are passed over. If none is left, only errors are written. -/
def lenient (text : String) : Except DirectiveError LogFilter := do
  let found ← (pieces text).mapM fun piece =>
    match Directive.parse piece with
    | .ok d => .ok [d]
    | .error .malformed => .ok []
    | .error .insideCharacter => .error .insideCharacter
  let directives := found.flatten
  .ok ⟨if directives.isEmpty then [{ threshold := ⟨some .error⟩ }] else directives⟩

/-- The filter that the environment asks for; where it asks for none that makes sense, the one
that the settings name. -/
def choose (environment : Option String) (setting : String) : Except DirectiveError LogFilter :=
  match environment with
  | none => lenient setting
  | some text =>
    match parse text with
    | .error .malformed => lenient setting
    | result => result

/-- Of two directives that are equally special the later decides. -/
def deciding? (f : LogFilter) (e : Event) : Option Directive :=
  (f.directives.filter (·.appliesTo e)).foldl (fun best d =>
    if best.all (·.yields d) then some d else best) none

def passes (f : LogFilter) (e : Event) : Bool :=
  (f.deciding? e).any (·.threshold.passes e.level)

end LogFilter

end RecordLog
