import RecordLog.FileSystem.Path

/-! A file system as a finite map from locations to entries, seen by one process. -/
namespace RecordLog

inductive Device
  /-- Takes everything and holds nothing. -/
  | null
  /-- Has no room for a single octet. -/
  | full
  /-- How readily the system ends this process when memory runs out, a number to read and set. -/
  | killPriority (points : Nat)
  deriving DecidableEq, Repr

/-- The permission bits. -/
abbrev Mode := Nat

inductive Entry
  | file (mode : Mode) (content : Bytes)
  | directory (mode : Mode)
  | link (target : Bytes)
  | device (d : Device)
  deriving DecidableEq, Repr

/-- What a process may want to do with an entry. -/
inductive Access
  | read | write | search
  deriving DecidableEq, Repr

def Access.bit : Access → Nat
  | read => 4
  | write => 2
  | search => 1

def Entry.mode : Entry → Mode
  | file m _ | directory m => m
  | link _ => 0o777
  | device _ => 0o666

/-- The bits of the owner decide: the process owns every entry. -/
def Entry.grants (e : Entry) (a : Access) : Bool := (e.mode / 64 % 8) &&& a.bit = a.bit

def Entry.isDirectory : Entry → Bool
  | directory _ => true
  | _ => false

/-- Entries by location, and the process that looks at them. -/
structure FileSystem where
  entries : List (Location × Entry)
  workingDirectory : Location
  /-- A privileged process is not held up by permission bits. -/
  privileged : Bool := true
  deriving DecidableEq, Repr

namespace FileSystem

def newFileMode : Mode := 0o644

def newDirectoryMode : Mode := 0o755

def lookup (fs : FileSystem) (loc : Location) : Option Entry := fs.entries.lookup loc

def insert (fs : FileSystem) (loc : Location) (e : Entry) : FileSystem :=
  { fs with entries := (loc, e) :: fs.entries.filter (·.1 ≠ loc) }

def erase (fs : FileSystem) (loc : Location) : FileSystem :=
  { fs with entries := fs.entries.filter (·.1 ≠ loc) }

theorem lookup_filter (es : List (Location × Entry)) (loc other : Location) :
    (es.filter (·.1 ≠ loc)).lookup other = if other = loc then none else es.lookup other := by
  induction es with
  | nil => simp
  | cons e es ih =>
    obtain ⟨l, e⟩ := e
    by_cases hl : l = loc
    · subst hl
      by_cases ho : other = l
      · simpa [ho] using ih
      · simpa [ho, List.lookup_cons, beq_eq_false_iff_ne.mpr ho] using ih
    · by_cases ho : other = l
      · subst ho; simp [hl]
      · simpa [hl, List.lookup_cons, beq_eq_false_iff_ne.mpr ho] using ih

@[simp] theorem lookup_insert (fs : FileSystem) (loc other : Location) (e : Entry) :
    (fs.insert loc e).lookup other = if other = loc then some e else fs.lookup other := by
  by_cases h : other = loc
  · simp [insert, lookup, h]
  · simp only [insert, lookup, List.lookup_cons, beq_eq_false_iff_ne.mpr h, if_neg h]
    rw [lookup_filter, if_neg h]

@[simp] theorem lookup_erase (fs : FileSystem) (loc other : Location) :
    (fs.erase loc).lookup other = if other = loc then none else fs.lookup other := by
  simp only [erase, lookup, lookup_filter]

/-- Whether the process may use an entry this way. -/
def permits (fs : FileSystem) (e : Entry) (a : Access) : Bool := fs.privileged || e.grants a

/-- The same for the entry at a location; nothing is permitted where nothing is. -/
def permitsAt (fs : FileSystem) (loc : Location) (a : Access) : Bool :=
  (fs.lookup loc).any (fs.permits · a)

/-- Names and entries directly inside a directory. -/
def children (fs : FileSystem) (dir : Location) : List (Name × Entry) :=
  fs.entries.filterMap fun (loc, e) =>
    match loc.getLast? with
    | some name => if loc.dropLast = dir then some (name, e) else none
    | none => none

/-- Everything below a directory, locations relative to it. -/
def below (fs : FileSystem) (dir : Location) : List (Location × Entry) :=
  fs.entries.filterMap fun (loc, e) =>
    if dir.isPrefixOf loc ∧ loc ≠ dir then some (loc.drop dir.length, e) else none

/-- Moves an entry and everything below it. -/
def relocate (fs : FileSystem) (source target : Location) : FileSystem :=
  { fs with entries := (fs.entries.filter (·.1 ≠ target)).map fun (loc, e) =>
      (if source.isPrefixOf loc then target ++ loc.drop source.length else loc, e) }

/-- Where the system shows its processes. It keeps the names there itself. -/
def processes : Location := [Bytes.ofString "proc"]

/-- Empty directories from the root down to `dir`, where the process works, with the devices and
the usual places for temporary files beside them. -/
def fresh (dir : Location) : FileSystem where
  entries :=
    let text := Bytes.ofString
    let self := processes ++ [text "self"]
    let directories := [[], [text "dev"], [text "tmp"], [text "var"], [text "var", text "tmp"],
      processes, self]
    let chain := (List.range dir.length).map fun n => dir.take (n + 1)
    let extra := chain.filter (!directories.contains ·)
    (directories ++ extra).map (·, .directory newDirectoryMode)
      ++ [([text "dev", text "null"], .device .null), ([text "dev", text "full"], .device .full),
        (self ++ [text "oom_score_adj"], .device (.killPriority 0))]
  workingDirectory := dir

end FileSystem

end RecordLog
