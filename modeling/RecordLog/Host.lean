import RecordLog.FileSystem.Operations
import RecordLog.Journal

/-! The surroundings of the program: the files it works on and the events it has reported. -/
namespace RecordLog

structure Host where
  files : FileSystem
  /-- Newest first. -/
  journal : List Event := []

namespace Host

def report (h : Host) (e : Event) : Host := { h with journal := e :: h.journal }

/-- Changes the files, unless the operation fails. -/
def change (h : Host) (op : FileSystem → Except IoError FileSystem) : Except IoError Unit × Host :=
  match op h.files with
  | .error e => (.error e, h)
  | .ok files => (.ok (), { h with files })

/-- Events in the order they were reported. -/
def events (h : Host) : List Event := h.journal.reverse

end Host

end RecordLog
