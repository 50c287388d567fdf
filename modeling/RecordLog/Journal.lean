/-! Diagnostic events. An event has a level, the part of the program it comes from, a message and
named values; its line shows all but the part. Written one after another, events make a journal. -/
namespace RecordLog

/-- Importance of an event, most important first. -/
inductive Level
  | error | warn | info | debug | trace
  deriving DecidableEq, Repr

namespace Level

def name : Level → String
  | error => "ERROR"
  | warn => "WARN"
  | info => "INFO"
  | debug => "DEBUG"
  | trace => "TRACE"

/-- A larger rank is less important. -/
def rank : Level → Nat
  | error => 1
  | warn => 2
  | info => 3
  | debug => 4
  | trace => 5

end Level

structure Event where
  level : Level
  target : String
  message : String
  fields : List (String × String) := []
  deriving DecidableEq, Repr

namespace Event

/-- Every event has its message as a field too. -/
def hasField (e : Event) (name : String) : Bool :=
  name = "message" || e.fields.any (·.1 = name)

/-- Characters that terminals may take for commands are shown by their numbers. -/
def shown (c : Char) : String :=
  match c with
  | '\x07' => "\\x07"
  | '\x08' => "\\x08"
  | '\x0c' => "\\x0c"
  | '\x1b' => "\\x1b"
  | '\x7f' => "\\x7f"
  | c =>
    if '\x80' ≤ c && c ≤ '\u009f' then
      "\\u\x7b" ++ String.ofList (Nat.toDigits 16 c.toNat) ++ "\x7d"
    else c.toString

/-- Level, message and `name=value` for each field, one blank between each two. Only in the message
are characters replaced. -/
def line (e : Event) : String :=
  let message := String.join (e.message.toList.map shown)
  " ".intercalate (e.level.name :: message :: e.fields.map fun (name, value) => s!"{name}={value}")

end Event

namespace Journal

/-- A carriage return before the end of a line belongs to it. -/
def lines (text : String) : List String :=
  (text.splitOn "\n").map fun l =>
    if l.endsWith "\r" then (l.dropEnd 1).toString else l

def isEntry (line : String) : Bool :=
  [Level.error, .warn, .info, .debug, .trace].any fun l => line.startsWith (l.name ++ " ")

/-- The lines of a text that begin with a level, as all events do. Line ends within an event make
further lines, which are entries if they begin with a level too. -/
def entries (text : String) : List String := (lines text).filter isEntry

end Journal

end RecordLog
