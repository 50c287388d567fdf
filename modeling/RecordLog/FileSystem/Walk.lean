import RecordLog.FileSystem.Basic
import RecordLog.IoError

/-! Following a path. Every name but the last must lead to a directory that may be searched;
symbolic links on the way are replaced by their targets, at most forty of them. -/
namespace RecordLog.FileSystem

/-- What to do when the last name is a symbolic link. -/
inductive LastLink
  | keep
  | follow
  /-- Follow it to a file that may have to be made, which a trailing slash rules out at once. -/
  | create
  deriving DecidableEq, Repr

/-- Where a path leads: a name in a directory, or the directory itself if the path ends in dots or
at the root. The name need not exist. -/
structure Place where
  directory : Location
  name : Option Name
  slash : Bool
  deriving DecidableEq, Repr

def Place.location (p : Place) : Location := p.directory ++ p.name.toList

def maxLinks : Nat := 40

/-- Follows names from a directory. Where a symbolic link is met, `follow` goes on from where its
target starts. -/
def walkWith (fs : FileSystem) (last : LastLink)
    (follow : Location → List Name → Bool → Except IoError Place) :
    Location → List Name → Bool → Except IoError Place
  | dir, [], slash => .ok ⟨dir, none, slash⟩
  | dir, name :: rest, slash =>
    if !fs.permitsAt dir .search then .error .permissionDenied
    else if name = Path.dot then walkWith fs last follow dir rest slash
    else if name = Path.dotdot then walkWith fs last follow dir.dropLast rest slash
    else if rest = [] ∧ last = .create ∧ slash then .error .isDirectory
    else if name.length > Path.maxName then .error .nameTooLong
    else match fs.lookup (dir ++ [name]) with
      | some (.link target) =>
        if rest = [] ∧ last = .keep then .ok ⟨dir, some name, slash⟩
        else
          let path := Path.ofBytes target
          let start := if path.absolute then [] else dir
          if rest = [] then follow start path.names (slash || path.slash)
          else follow start (path.names ++ rest) slash
      | found =>
        if rest = [] then .ok ⟨dir, some name, slash⟩
        else match found with
          | none => .error .notFound
          | some (.directory _) => walkWith fs last follow (dir ++ [name]) rest slash
          | some _ => .error .notDirectory

/-- Follows names from a directory, and so many links on the way. -/
def walk (fs : FileSystem) (last : LastLink) :
    Nat → Location → List Name → Bool → Except IoError Place
  | 0 => walkWith fs last fun _ _ _ => .error .tooManyLinks
  | links + 1 => walkWith fs last (walk fs last links)

section
variable {fs : FileSystem} {last : LastLink} {links : Nat} {dir : Location} {name : Name}
  {rest : List Name} {slash : Bool}

theorem walk_nil : fs.walk last links dir [] slash = .ok ⟨dir, none, slash⟩ := by
  cases links <;> rfl

/-- The names one after the other. -/
theorem walk_cons : fs.walk last links dir (name :: rest) slash =
    if !fs.permitsAt dir .search then .error .permissionDenied
    else if name = Path.dot then fs.walk last links dir rest slash
    else if name = Path.dotdot then fs.walk last links dir.dropLast rest slash
    else if rest = [] ∧ last = .create ∧ slash then .error .isDirectory
    else if name.length > Path.maxName then .error .nameTooLong
    else match fs.lookup (dir ++ [name]) with
      | some (.link target) =>
        if rest = [] ∧ last = .keep then .ok ⟨dir, some name, slash⟩
        else match links with
          | 0 => .error .tooManyLinks
          | links + 1 =>
            let path := Path.ofBytes target
            let start := if path.absolute then [] else dir
            if rest = [] then fs.walk last links start path.names (slash || path.slash)
            else fs.walk last links start (path.names ++ rest) slash
      | found =>
        if rest = [] then .ok ⟨dir, some name, slash⟩
        else match found with
          | none => .error .notFound
          | some (.directory _) => fs.walk last links (dir ++ [name]) rest slash
          | some _ => .error .notDirectory := by
  cases links with
  | zero => simp only [walk, walkWith, ite_self]
  | succ links => rfl

end

attribute [irreducible] walk

/-- Where a path leads from the working directory. -/
def locate (fs : FileSystem) (last : LastLink) (path : Bytes) : Except IoError Place :=
  if path.contains Bytes.nul then .error .nulInPath
  else if path.length > Path.maxLength then .error .nameTooLong
  else if path.isEmpty then .error .notFound
  else
    let p := Path.ofBytes path
    walk fs last maxLinks (if p.absolute then [] else fs.workingDirectory) p.names p.slash

/-- A place with the entry found there, if any. -/
def find (fs : FileSystem) (last : LastLink) (path : Bytes) :
    Except IoError (Place × Option Entry) :=
  (fs.locate last path).map fun place => (place, fs.lookup place.location)

end RecordLog.FileSystem
