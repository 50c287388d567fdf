import RecordLog.CommandLine
import RecordLog.Host
import RecordLog.LogFilter

/-! The companion program, which makes a file hold a given text. -/
namespace RecordLog

namespace Writer

open CommandLine (Refusal Grammar pathValue textValue)

structure Request where
  path : Bytes := []
  text : String := ""
  deriving DecidableEq, Repr

def grammar : Grammar Request where
  switches := [
    { short := some 'h'.toNat.toUInt8, long := some (Bytes.ofString "help"), action := .help }]
  operands := [
    fun bs r => (pathValue bs).map fun path => { r with path },
    fun bs r => (textValue bs).map fun text => { r with text }]

def event (level : Level) (message : String) (fields : List (String × String)) : Event :=
  { level, target := "writer", message, fields }

/-- What a run leaves. -/
structure Result where
  exitCode : Nat
  /-- Whether something was told on standard error. -/
  complains : Bool
  /-- The events that were written. -/
  shown : List Event
  files : FileSystem

/-- The exit code of a run, whether it complains, and its surroundings afterwards. -/
def work (args : List Bytes) (h : Host) : Nat × Bool × Host :=
  match grammar.read {} args with
  | .error .displayHelp => (0, false, h)
  | .error _ =>
    (1, true, h.report (event .error "Invalid arguments, expected <writefile> <writestr>" []))
  | .ok r =>
    let path := Utf8.lossy r.path
    let h := h.report (event .debug s!"Writing {r.text} to {path}" [])
    match h.files.overwrite r.path (Bytes.ofString r.text) with
    | (.ok (), files) => (0, false, { h with files })
    | (.error e, files) =>
      (1, false, { h with files }.report (event .error "Failed to write file"
        [("path", path), ("error", e.message)]))

/-- The level of events shown where the environment asks for none. -/
def plainLevel : String := "info"

/-- A run with these program arguments and the event filter that the environment asks for. -/
def run (args : List Bytes) (environment : Option String) (h : Host) : Result :=
  match LogFilter.choose environment plainLevel with
  | .error _ => ⟨101, true, [], h.files⟩
  | .ok filter =>
    let (exitCode, complains, h) := work args h
    ⟨exitCode, complains, h.events.filter filter.passes, h.files⟩

end Writer

end RecordLog
