import RecordLog.Host
import RecordLog.Text.Utf8

/-! The shared log: one file that grows by whole records. A store holds nothing but the path of
its file and opens it anew for every call, so stores on one path share one log. -/
namespace RecordLog

structure LogStore where
  path : Bytes
  deriving DecidableEq, Repr

namespace LogStore

def event (level : Level) (message : String) (fields : List (String × String)) : Event :=
  { level, target := "echolog::storage", message, fields }

def initialized (path : Bytes) : Event :=
  event .info "Initializing log store" [("path", Utf8.lossy path)]

def discarded (path : Bytes) : Event :=
  event .info "Discarded stale log file" [("path", Utf8.lossy path)]

/-- A store on `path`. A file left there by an earlier run goes. -/
def create (path : Bytes) (h : Host) : Except IoError LogStore × Host :=
  let ready (h : Host) : Except IoError LogStore × Host :=
    (.ok ⟨path⟩, h.report (initialized path))
  match h.files.unlink path with
  | .ok files => ready ({ h with files }.report (discarded path))
  | .error e => if e.kind = .notFound then ready h else (.error e, h)

/-- Adds one record at the end of the log, making the file if it is missing. What the file has
taken of a record that fails stays there. -/
def append (s : LogStore) (record : Bytes) (h : Host) : Except IoError Unit × Host :=
  match h.files.openAppend s.path with
  | .error e => (.error e, h)
  | .ok (loc, opened) =>
    match opened.write loc record with
    | (.error e, files) => (.error e, { h with files })
    | (.ok (), files) =>
      (.ok (), { h with files }.report
        (event .trace "Appended record" [("bytes", toString record.length)]))

/-- The whole log; a log without a file is empty. -/
def readAll (s : LogStore) (h : Host) : Except IoError Bytes :=
  match h.files.openRead s.path with
  | .error e => if e.kind = .notFound then .ok [] else .error e
  | .ok loc => h.files.read loc

/-- Removes the file of the log, if there is one. -/
def remove (s : LogStore) (h : Host) : Except IoError Unit × Host :=
  match h.files.unlink s.path with
  | .ok files =>
    (.ok (), { h with files }.report
      (event .debug "Removed log file" [("path", Utf8.lossy s.path)]))
  | .error e => if e.kind = .notFound then (.ok (), h) else (.error e, h)

end LogStore

end RecordLog
