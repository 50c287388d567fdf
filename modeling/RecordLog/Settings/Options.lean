import RecordLog.CommandLine

/-! The options of the server program. -/
namespace RecordLog.Settings

open CommandLine (Action Refusal Grammar once pathValue textValue numberValue)

structure Options where
  config : Option Bytes := none
  daemon : Bool := false
  listen : Option String := none
  dataFile : Option Bytes := none
  interval : Option Nat := none
  logLevel : Option String := none
  logFile : Option Bytes := none
  deriving DecidableEq, Repr

inductive OptionName
  | config | daemon | listen | dataFile | interval | logLevel | logFile
  deriving DecidableEq, Repr

namespace OptionName

def all : List OptionName := [config, daemon, listen, dataFile, interval, logLevel, logFile]

def long : OptionName → Bytes
  | config => Bytes.ofString "config"
  | daemon => Bytes.ofString "daemon"
  | listen => Bytes.ofString "listen"
  | dataFile => Bytes.ofString "data-file"
  | interval => Bytes.ofString "interval"
  | logLevel => Bytes.ofString "log-level"
  | logFile => Bytes.ofString "log-file"

def short? : OptionName → Option UInt8
  | config => some 'c'.toUInt8
  | daemon => some 'd'.toUInt8
  | listen => some 'l'.toUInt8
  | dataFile => some 'f'.toUInt8
  | interval => some 'i'.toUInt8
  | logLevel | logFile => none

def takesValue (n : OptionName) : Bool := n != daemon

/-- Gives an option its value. No option is given twice, and the daemon option takes none. -/
def set (o : Options) (value : Bytes) : OptionName → Except Refusal Options
  | config => (once o.config pathValue value).map fun config => { o with config }
  | daemon => if o.daemon then .error .argumentConflict else .ok { o with daemon := true }
  | listen => (once o.listen textValue value).map fun listen => { o with listen }
  | dataFile => (once o.dataFile pathValue value).map fun dataFile => { o with dataFile }
  | interval => (once o.interval numberValue value).map fun interval => { o with interval }
  | logLevel => (once o.logLevel textValue value).map fun logLevel => { o with logLevel }
  | logFile => (once o.logFile pathValue value).map fun logFile => { o with logFile }

def action (n : OptionName) : Action Options :=
  if n.takesValue then .value fun value o => n.set o value else .flag fun o => n.set o []

end OptionName

namespace Options

def grammar : Grammar Options where
  switches :=
    (OptionName.all.map fun n => { short := n.short?, long := some n.long, action := n.action }) ++
    [{ short := some 'h'.toUInt8, long := some (Bytes.ofString "help"), action := .help },
     { short := some 'V'.toUInt8, long := some (Bytes.ofString "version"), action := .version }]

def parse (args : List Bytes) : Except Refusal Options := grammar.read {} args

end Options

end RecordLog.Settings
