import RecordLog.IoError.Kind
import RecordLog.IoError.SystemText

/-! Failed input and output. An error is a number of the operating system, a kind, or a kind with
a text of its own; `message` is the one place that words it. -/
namespace RecordLog

inductive IoError
  | os (errno : Int)
  | plain (kind : IoError.Kind)
  | described (kind : IoError.Kind) (text : String)
  deriving DecidableEq, Repr

namespace IoError

def kind : IoError → Kind
  | os errno => kindOf errno
  | plain k => k
  | described k _ => k

/-- System errors end with their number, others show their own text or the phrase of their kind. -/
def message : IoError → String
  | os errno => s!"{textOf errno} (os error {errno})"
  | plain k => k.phrase
  | described _ text => text

/-- An interrupted call is tried again by every loop that meets one. -/
def isInterrupted (e : IoError) : Bool := e.kind = .interrupted

/-- The path holds an octet that no path may hold. -/
def nulInPath : IoError := described .invalidInput "file name contained an unexpected NUL byte"

/-- The peer takes no more octets although some are left. -/
def shortWrite : IoError := described .writeZero "failed to write whole buffer"

/-- The path is empty where it has to lead somewhere. -/
def emptyPath : IoError := described .invalidInput "cannot make an empty path absolute"

/-- A file that should hold text does not. -/
def notText : IoError := described .invalidData "stream did not contain valid UTF-8"

def notPermitted : IoError := os 1
def notFound : IoError := os 2
def tooManyLinks : IoError := os 40
def notEmpty : IoError := os 39
def nameTooLong : IoError := os 36
def noSpace : IoError := os 28
def invalidArgument : IoError := os 22
def isDirectory : IoError := os 21
def notDirectory : IoError := os 20
def alreadyExists : IoError := os 17
def busy : IoError := os 16
def permissionDenied : IoError := os 13
def outOfMemory : IoError := os 12
def brokenPipe : IoError := os 32
def addressInUse : IoError := os 98
def connectionReset : IoError := os 104
def networkUnreachable : IoError := os 101
def connectionRefused : IoError := os 111

end IoError

end RecordLog
