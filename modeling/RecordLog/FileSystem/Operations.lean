import RecordLog.FileSystem.Walk
import RecordLog.Text.Decimal

/-! What a process does to files. An operation that fails changes nothing, so each one either
answers with a new file system or with an error. Writing is the exception: what the system has taken
before it refuses the rest stays. -/
namespace RecordLog.FileSystem

/-- Adding and removing names takes write and search permission on their directory, which must not
be one of those the system keeps. -/
def mayChange (fs : FileSystem) (dir : Location) : Bool :=
  !processes.isPrefixOf dir && fs.permitsAt dir .write && fs.permitsAt dir .search

/-- The answer to whoever may not add a name to a directory. -/
def addRefusal (dir : Location) : IoError :=
  if processes.isPrefixOf dir then .notFound else .permissionDenied

/-- The answer to whoever may not remove a name from a directory. -/
def removeRefusal (dir : Location) : IoError :=
  if processes.isPrefixOf dir then .notPermitted else .permissionDenied

/-- Opens a file for writing at its end, making it if it is missing. -/
def openAppend (fs : FileSystem) (path : Bytes) : Except IoError (Location × FileSystem) := do
  let (place, entry) ← fs.find .create path
  match entry with
  | none =>
    if fs.mayChange place.directory then
      .ok (place.location, fs.insert place.location (.file newFileMode []))
    else .error (addRefusal place.directory)
  | some e =>
    if e.isDirectory then .error .isDirectory
    else if fs.permits e .write then .ok (place.location, fs)
    else .error .permissionDenied

/-- Drops the content of an open file. -/
def truncate (fs : FileSystem) (loc : Location) : FileSystem :=
  match fs.lookup loc with
  | some (.file mode _) => fs.insert loc (.file mode [])
  | _ => fs

/-- The octets that the system looks at when a process sets its number. -/
def numberWidth : Nat := 12

def maxPoints : Nat := 1000

/-- The number that a process sets with these octets: blanks may stand on either side of it. -/
def points? (bytes : Bytes) : Option Nat :=
  let isBlank (b : UInt8) : Bool := b = 32 || (9 ≤ b && b ≤ 13)
  let digits := ((bytes.dropWhile isBlank).reverse.dropWhile isBlank).reverse
  (Decimal.read? (digits.map fun b => Char.ofNat b.toNat)).filter (· ≤ maxPoints)

/-- Offers octets to an open file, at its end. The system answers how many of them it takes. -/
def take (fs : FileSystem) (loc : Location) (bytes : Bytes) : Except IoError (Nat × FileSystem) :=
  match fs.lookup loc with
  | some (.file mode content) => .ok (bytes.length, fs.insert loc (.file mode (content ++ bytes)))
  | some (.device .null) => .ok (bytes.length, fs)
  | some (.device .full) => .error .noSpace
  | some (.device (.killPriority _)) =>
    let taken := bytes.take numberWidth
    match points? taken with
    | some points => .ok (taken.length, fs.insert loc (.device (.killPriority points)))
    | none => .error .invalidArgument
  | some (.directory _) => .error .isDirectory
  | _ => .error (.os 9)

/-- Writes at the end of an open file until the system has taken all octets or refuses some. -/
def write (fs : FileSystem) (loc : Location) (bytes : Bytes) : Except IoError Unit × FileSystem :=
  if bytes = [] then (.ok (), fs)
  else match fs.take loc bytes with
    | .error e => (.error e, fs)
    | .ok (0, fs) => (.error .shortWrite, fs)
    | .ok (taken + 1, fs) => fs.write loc (bytes.drop (taken + 1))
  termination_by bytes.length
  decreasing_by
    have := List.length_pos_iff.mpr ‹bytes ≠ []›
    rw [List.length_drop]
    omega

/-- Opens anything for reading. -/
def openRead (fs : FileSystem) (path : Bytes) : Except IoError Location := do
  let (place, entry) ← fs.find .follow path
  match entry with
  | none => .error .notFound
  | some e =>
    if place.slash && !e.isDirectory then .error .notDirectory
    else if fs.permits e .read then .ok place.location
    else .error .permissionDenied

/-- Reads an open file to its end. The full device never ends, so no memory holds its content. -/
def read (fs : FileSystem) (loc : Location) : Except IoError Bytes :=
  match fs.lookup loc with
  | some (.file _ content) => .ok content
  | some (.device .null) => .ok []
  | some (.device .full) => .error .outOfMemory
  | some (.device (.killPriority points)) => .ok (Bytes.ofString s!"{points}\n")
  | some (.directory _) => .error .isDirectory
  | _ => .error (.os 9)

/-- The whole content behind a path. -/
def contentOf (fs : FileSystem) (path : Bytes) : Except IoError Bytes := do
  fs.read (← fs.openRead path)

/-- Makes a file hold exactly these octets, making it if it is missing. What it has taken before it
refuses the rest stays. -/
def overwrite (fs : FileSystem) (path bytes : Bytes) : Except IoError Unit × FileSystem :=
  match fs.openAppend path with
  | .error e => (.error e, fs)
  | .ok (loc, opened) => (opened.truncate loc).write loc bytes

/-- The same, unless it fails. -/
def replaceFile (fs : FileSystem) (path bytes : Bytes) : Except IoError FileSystem :=
  let (written, files) := fs.overwrite path bytes
  written.map fun () => files

/-- Adds octets at the end of a file. -/
def extendFile (fs : FileSystem) (path bytes : Bytes) : Except IoError FileSystem := do
  let (loc, fs) ← fs.openAppend path
  let (written, fs) := fs.write loc bytes
  written.map fun () => fs

/-- Removes a name that is no directory; a link goes, its target stays. -/
def unlink (fs : FileSystem) (path : Bytes) : Except IoError FileSystem := do
  let (place, entry) ← fs.find .keep path
  if place.name.isNone then .error .isDirectory
  else match entry with
    | none => .error .notFound
    | some e =>
      if place.slash then .error (if e.isDirectory then .isDirectory else .notDirectory)
      else if !fs.mayChange place.directory then .error (removeRefusal place.directory)
      else if e.isDirectory then .error .isDirectory
      else .ok (fs.erase place.location)

def makeDirectory (fs : FileSystem) (path : Bytes) : Except IoError FileSystem := do
  let (place, entry) ← fs.find .keep path
  if place.name.isNone ∨ entry.isSome then .error .alreadyExists
  else if fs.mayChange place.directory then
    .ok (fs.insert place.location (.directory newDirectoryMode))
  else .error (addRefusal place.directory)

/-- What a path that ends in dots or at the root answers where a name is to be removed. -/
def lastNameError (path : Bytes) : IoError :=
  match (Path.ofBytes path).names.getLast? with
  | none => .busy
  | some name => if name = Path.dot then .invalidArgument else .notEmpty

def removeDirectory (fs : FileSystem) (path : Bytes) : Except IoError FileSystem := do
  let (place, entry) ← fs.find .keep path
  if place.name.isNone then .error (lastNameError path)
  else match entry with
    | none => .error .notFound
    | some e =>
      if !fs.mayChange place.directory then .error .permissionDenied
      else if !e.isDirectory then .error .notDirectory
      else if !(fs.children place.location).isEmpty then .error .notEmpty
      else .ok (fs.erase place.location)

/-- Gives an entry another name, replacing what has that name if the two are of one sort. -/
def rename (fs : FileSystem) (source target : Bytes) : Except IoError FileSystem := do
  let (src, srcEntry) ← fs.find .keep source
  let (dst, dstEntry) ← fs.find .keep target
  if src.name.isNone ∨ dst.name.isNone then .error .busy
  else match srcEntry with
    | none => .error .notFound
    | some e =>
      if !e.isDirectory ∧ (src.slash ∨ dst.slash) then .error .notDirectory
      else if src.location = dst.location then .ok fs
      else if src.location.isPrefixOf dst.location then .error .invalidArgument
      else if dst.location.isPrefixOf src.location then .error .notEmpty
      else if !fs.mayChange src.directory ∨ !fs.mayChange dst.directory then
        .error .permissionDenied
      else if e.isDirectory ∧ src.directory ≠ dst.directory ∧ !fs.permits e .write then
        .error .permissionDenied
      else match dstEntry with
        | none => .ok (fs.relocate src.location dst.location)
        | some old =>
          if e.isDirectory ∧ !old.isDirectory then .error .notDirectory
          else if !e.isDirectory ∧ old.isDirectory then .error .isDirectory
          else if !(fs.children dst.location).isEmpty then .error .notEmpty
          else .ok (fs.relocate src.location dst.location)

def symlink (fs : FileSystem) (target path : Bytes) : Except IoError FileSystem := do
  if target.contains Bytes.nul then throw .nulInPath
  if target.length > Path.maxLength then throw .nameTooLong
  if target.isEmpty then throw .notFound
  let (place, entry) ← fs.find .keep path
  if place.name.isNone ∨ entry.isSome then .error .alreadyExists
  else if place.slash then .error .notFound
  else if fs.mayChange place.directory then .ok (fs.insert place.location (.link target))
  else .error (addRefusal place.directory)

def setMode (fs : FileSystem) (path : Bytes) (mode : Mode) : Except IoError FileSystem := do
  let (place, entry) ← fs.find .follow path
  match entry with
  | none => .error .notFound
  | some e =>
    if place.slash && !e.isDirectory then .error .notDirectory
    else match e with
      | .file _ content => .ok (fs.insert place.location (.file mode content))
      | .directory _ => .ok (fs.insert place.location (.directory mode))
      | _ => .ok fs

/-- Whether the path names an entry; a link counts as itself unless a slash follows it. -/
def present (fs : FileSystem) (path : Bytes) : Bool :=
  let last := if (Path.ofBytes path).slash then .follow else .keep
  match fs.find last path with
  | .ok (place, some e) => !place.slash || e.isDirectory
  | _ => false

end RecordLog.FileSystem
