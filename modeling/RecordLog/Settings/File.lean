import RecordLog.Toml.Document

/-! The configuration file: four sections with known keys, each with a default. Anything else in
the document is passed over. -/
namespace RecordLog.Settings

open Toml (Value Entries)

structure ServerSection where
  listen : String := "0.0.0.0:9000"
  backlog : Int := 10
  deriving DecidableEq, Repr

structure StoreSection where
  path : String := "/var/tmp/echologdata"
  deriving DecidableEq, Repr

structure AnnotatorSection where
  intervalSecs : Nat := 10
  deriving DecidableEq, Repr

structure LoggingSection where
  level : String := "info"
  file : Option String := none
  deriving DecidableEq, Repr

structure File where
  server : ServerSection := {}
  store : StoreSection := {}
  annotator : AnnotatorSection := {}
  logging : LoggingSection := {}
  deriving DecidableEq, Repr

/-- The entries of a section by position and by name. A section is a table, or an array of its
entries in order; a date holds nothing known and counts as a table without entries. -/
def fields? : Option Value → Option (Nat → String → Option Value)
  | none => some fun _ _ => none
  | some (.table _ entries) => some fun _ name => entries.lookup name
  | some (.array items) => some fun i _ => items[i]?
  | some (.tables elements) => some fun i _ => elements[i]?.map (.table .header)
  | some .dateTime => some fun _ _ => none
  | some _ => none

def text? : Value → Option String
  | .string s => some s
  | _ => none

/-- An integer between two bounds. -/
def bounded? (low high : Int) : Value → Option Int
  | .integer n => if low ≤ n ∧ n ≤ high then some n else none
  | _ => none

/-- An entry read by `read`, or its default where it is missing. -/
def entry {α : Type} (default : α) (read : Value → Option α) : Option Value → Option α
  | none => some default
  | some v => read v

def serverSection (v : Option Value) : Option ServerSection := do
  let field ← fields? v
  let defaults : ServerSection := {}
  let listen ← entry defaults.listen text? (field 0 "listen")
  let backlog ← entry defaults.backlog (bounded? (-2147483648) 2147483647) (field 1 "backlog")
  some { listen, backlog }

def storeSection (v : Option Value) : Option StoreSection := do
  let field ← fields? v
  let defaults : StoreSection := {}
  let path ← entry defaults.path text? (field 0 "path")
  some { path }

def annotatorSection (v : Option Value) : Option AnnotatorSection := do
  let field ← fields? v
  let defaults : AnnotatorSection := {}
  let secs ← entry defaults.intervalSecs
    (fun v => (bounded? 0 Toml.maxInteger v).map Int.toNat) (field 0 "interval_secs")
  some { intervalSecs := secs }

def loggingSection (v : Option Value) : Option LoggingSection := do
  let field ← fields? v
  let defaults : LoggingSection := {}
  let level ← entry defaults.level text? (field 0 "level")
  let file ← entry defaults.file (fun v => (text? v).map some) (field 1 "file")
  some { level, file }

/-- The settings of a document. -/
def File.ofEntries (root : Entries) : Option File := do
  let server ← serverSection (root.lookup "server")
  let store ← storeSection (root.lookup "store")
  let annotator ← annotatorSection (root.lookup "annotator")
  let logging ← loggingSection (root.lookup "logging")
  some { server, store, annotator, logging }

/-- The settings that a text spells out. -/
def File.parse (text : String) : Option File := (Toml.parse text.toList).bind File.ofEntries

end RecordLog.Settings
