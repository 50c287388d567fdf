import RecordLog.FileSystem.Operations
import RecordLog.Settings.File
import RecordLog.Settings.Options

/-! The settings the server runs with. An option on the command line wins over the configuration
file, which wins over the default. -/
namespace RecordLog

structure Settings where
  listen : String
  backlog : Int
  dataFile : Bytes
  /-- Seconds between timestamps. -/
  interval : Nat
  daemon : Bool
  logLevel : String
  logFile : Option Bytes
  deriving DecidableEq, Repr

/-- Why there are no settings. -/
inductive SettingsError
  | usage (r : CommandLine.Refusal)
  | fileRead (path : Bytes) (cause : IoError)
  /-- The parser's own words are not part of the message. -/
  | malformed (path : Bytes)
  | zeroInterval
  deriving DecidableEq, Repr

namespace SettingsError

def message : SettingsError → String
  | usage _ => ""
  | fileRead path cause =>
    s!"Failed to read config file '{Utf8.lossy path}': {cause.message}"
  | malformed path => s!"Failed to parse config file '{Utf8.lossy path}': "
  | zeroInterval => "Timestamp interval must be at least 1 second"

end SettingsError

namespace Settings

/-- The level that counts as not given on the command line. -/
def plainLevel : String := "info"

/-- Settings from options and a configuration file. -/
def resolve (o : Options) (file : File) : Except SettingsError Settings :=
  let interval := o.interval.getD file.annotator.intervalSecs
  if interval = 0 then .error .zeroInterval
  else
    let level := o.logLevel.getD plainLevel
    .ok {
      listen := o.listen.getD file.server.listen
      backlog := file.server.backlog
      dataFile := o.dataFile.getD (Bytes.ofString file.store.path)
      interval
      daemon := o.daemon
      logLevel := if level ≠ plainLevel then level else file.logging.level
      logFile := o.logFile <|> file.logging.file.map Bytes.ofString }

/-- The configuration file at a path, from what reading it gave. -/
def fileOf (path : Bytes) : Except IoError Bytes → Except SettingsError File
  | .error e => .error (.fileRead path e)
  | .ok content =>
    match Utf8.decode? content with
    | none => .error (.fileRead path .notText)
    | some text =>
      match File.parse text with
      | none => .error (.malformed path)
      | some file => .ok file

/-- Settings from options and the file they name, if they name one. -/
def complete (o : Options) (content : Bytes → Except IoError Bytes) :
    Except SettingsError Settings := do
  match o.config with
  | some path => resolve o (← fileOf path (content path))
  | none => resolve o {}

/-- Settings from program arguments and the files of a file system. -/
def load (args : List Bytes) (fs : FileSystem) : Except SettingsError Settings :=
  match Options.parse args with
  | .error r => .error (.usage r)
  | .ok o => complete o fs.contentOf

end Settings

end RecordLog
