import Mathlib.Tactic.Lemma
import RecordLog.FileSystem.Operations
import RecordLog.Proofs.Results

/-! Successful walks as derivations. `Leads` says step by step how names lead to a place, so that
what one file system leads to can be compared with what another does. -/
namespace RecordLog.FileSystem

section Fields
variable (fs : FileSystem) (loc : Location) (e : Entry)

@[simp] lemma insert_privileged : (fs.insert loc e).privileged = fs.privileged := rfl
@[simp] lemma insert_workingDirectory :
    (fs.insert loc e).workingDirectory = fs.workingDirectory := rfl
@[simp] lemma erase_privileged : (fs.erase loc).privileged = fs.privileged := rfl
@[simp] lemma erase_workingDirectory :
    (fs.erase loc).workingDirectory = fs.workingDirectory := rfl

end Fields

/-- `name` is looked up in `dir`, with `rest` to follow after it. -/
structure Visits (fs : FileSystem) (last : LastLink) (dir : Location) (name : Name)
    (rest : List Name) (slash : Bool) : Prop where
  search : fs.permitsAt dir .search
  not_dot : name ≠ Path.dot
  not_dotdot : name ≠ Path.dotdot
  not_made : ¬ (rest = [] ∧ last = .create ∧ slash)
  short : name.length ≤ Path.maxName

/-- Where the names of a link's target are followed from. -/
def linkStart (dir : Location) (target : Bytes) : Location :=
  if (Path.ofBytes target).absolute then [] else dir

inductive Leads (fs : FileSystem) (last : LastLink) :
    Nat → Location → List Name → Bool → Place → Prop
  | arrived {links dir slash} : Leads fs last links dir [] slash ⟨dir, none, slash⟩
  | dot {links dir rest slash p} (search : fs.permitsAt dir .search)
    (next : Leads fs last links dir rest slash p) :
    Leads fs last links dir (Path.dot :: rest) slash p
  | dotdot {links dir rest slash p} (search : fs.permitsAt dir .search)
    (next : Leads fs last links dir.dropLast rest slash p) :
    Leads fs last links dir (Path.dotdot :: rest) slash p
  | named {links dir name slash} (visits : fs.Visits last dir name [] slash)
    (stays : ∀ target, fs.lookup (dir ++ [name]) = some (.link target) → last = .keep) :
    Leads fs last links dir [name] slash ⟨dir, some name, slash⟩
  | enter {links dir name rest slash p mode} (visits : fs.Visits last dir name rest slash)
    (more : rest ≠ []) (found : fs.lookup (dir ++ [name]) = some (.directory mode))
    (next : Leads fs last links (dir ++ [name]) rest slash p) :
    Leads fs last links dir (name :: rest) slash p
  | follow {links dir name rest slash p target} (visits : fs.Visits last dir name rest slash)
    (more : rest ≠ []) (found : fs.lookup (dir ++ [name]) = some (.link target))
    (next : Leads fs last links (linkStart dir target) ((Path.ofBytes target).names ++ rest)
      slash p) :
    Leads fs last (links + 1) dir (name :: rest) slash p
  | followLast {links dir name slash p target} (visits : fs.Visits last dir name [] slash)
    (leaves : last ≠ .keep) (found : fs.lookup (dir ++ [name]) = some (.link target))
    (next : Leads fs last links (linkStart dir target) (Path.ofBytes target).names
      (slash || (Path.ofBytes target).slash) p) :
    Leads fs last (links + 1) dir [name] slash p

variable {fs : FileSystem} {last : LastLink} {links : Nat} {dir : Location} {names : List Name}
  {slash : Bool} {p : Place}

/-- Where a walk gets from what `follow` does at links, names lead if they lead from there on. -/
lemma Leads.of_walkWith {follow : Location → List Name → Bool → Except IoError Place}
    (onward : ∀ {dir names slash p}, follow dir names slash = .ok p →
      ∃ more, links = more + 1 ∧ Leads fs last more dir names slash p)
    (h : fs.walkWith last follow dir names slash = .ok p) :
    Leads fs last links dir names slash p := by
  induction names generalizing dir with
  | nil =>
    cases h
    exact .arrived
  | cons name rest ih =>
    rw [walkWith] at h
    split at h
    · cases h
    rename_i search
    have search : fs.permitsAt dir .search := by simpa using search
    split at h
    · rename_i hdot
      exact hdot ▸ .dot search (ih h)
    rename_i hdot
    split at h
    · rename_i hdotdot
      exact hdotdot ▸ .dotdot search (ih h)
    rename_i hdotdot
    split at h
    · cases h
    rename_i made
    split at h
    · cases h
    rename_i short
    have visits : fs.Visits last dir name rest slash :=
      ⟨search, hdot, hdotdot, made, Nat.not_lt.mp short⟩
    split at h
    · rename_i target found
      split at h
      · rename_i stays
        obtain ⟨rfl, rfl⟩ := stays
        cases h
        exact .named visits fun _ _ => rfl
      · rename_i leaves
        dsimp only at h
        split at h
        · rename_i done
          subst done
          obtain ⟨more, rfl, next⟩ := onward h
          exact .followLast visits (by simpa using leaves) found next
        · rename_i more
          obtain ⟨left, rfl, next⟩ := onward h
          exact .follow visits more found next
    · rename_i nolink
      split at h
      · rename_i done
        subst done
        cases h
        exact .named visits fun target found => (nolink target found).elim
      · rename_i more
        split at h
        · cases h
        · rename_i mode found
          exact .enter visits more found (ih h)
        · cases h

theorem Leads.of_walk (h : fs.walk last links dir names slash = .ok p) :
    Leads fs last links dir names slash p := by
  induction links generalizing dir names slash p with
  | zero =>
    rw [walk] at h
    exact .of_walkWith (fun refused => by cases refused) h
  | succ links ih =>
    rw [walk] at h
    exact .of_walkWith (fun hfollow => ⟨links, rfl, ih hfollow⟩) h

theorem Leads.walk_eq (h : Leads fs last links dir names slash p) :
    fs.walk last links dir names slash = .ok p := by
  induction h with
  | arrived => exact walk_nil
  | dot search _ ih => simp [walk_cons, search, ih]
  | dotdot search _ ih =>
    have hne : Path.dotdot ≠ Path.dot := by decide
    simp [walk_cons, search, ih, hne]
  | named visits stays =>
    obtain ⟨search, hdot, hdotdot, made, short⟩ := visits
    rw [walk_cons, if_neg (by simpa using search), if_neg hdot, if_neg hdotdot, if_neg made,
      if_neg (by omega)]
    split
    · rename_i target found
      simp [stays target found]
    · simp
  | enter visits more found _ ih =>
    obtain ⟨search, hdot, hdotdot, made, short⟩ := visits
    rw [walk_cons, if_neg (by simpa using search), if_neg hdot, if_neg hdotdot, if_neg made,
      if_neg (by omega), found]
    simpa [more] using ih
  | follow visits more found _ ih =>
    obtain ⟨search, hdot, hdotdot, made, short⟩ := visits
    rw [walk_cons, if_neg (by simpa using search), if_neg hdot, if_neg hdotdot, if_neg made,
      if_neg (by omega), found]
    simpa [more, linkStart] using ih
  | followLast visits leaves found _ ih =>
    obtain ⟨search, hdot, hdotdot, made, short⟩ := visits
    rw [walk_cons, if_neg (by simpa using search), if_neg hdot, if_neg hdotdot, if_neg made,
      if_neg (by omega), found]
    simpa [leaves, linkStart] using ih

/-- A walk succeeds just where its names lead. -/
theorem walk_eq_ok_iff :
    fs.walk last links dir names slash = .ok p ↔ Leads fs last links dir names slash p :=
  ⟨.of_walk, fun h => h.walk_eq⟩

/-- A path that may be followed leads to `p`. -/
structure Finds (fs : FileSystem) (last : LastLink) (path : Bytes) (p : Place) : Prop where
  clean : path.contains Bytes.nul = false
  short : path.length ≤ Path.maxLength
  nonempty : path ≠ []
  leads : Leads fs last maxLinks (if (Path.ofBytes path).absolute then [] else fs.workingDirectory)
    (Path.ofBytes path).names (Path.ofBytes path).slash p

/-- A path that may be followed at all is followed from where it starts. -/
lemma locate_eq_walk {path : Bytes} (clean : path.contains Bytes.nul = false)
    (short : path.length ≤ Path.maxLength) (nonempty : path ≠ []) : fs.locate last path =
      fs.walk last maxLinks (if (Path.ofBytes path).absolute then [] else fs.workingDirectory)
        (Path.ofBytes path).names (Path.ofBytes path).slash := by
  simp only [locate, clean, Bool.false_eq_true, if_false, Nat.not_lt.mpr short, List.isEmpty_iff,
    nonempty]

lemma locate_eq_ok_iff {path : Bytes} : fs.locate last path = .ok p ↔ fs.Finds last path p := by
  constructor
  · intro h
    unfold locate at h
    split at h
    · cases h
    · split at h
      · cases h
      · split at h
        · cases h
        · rename_i clean short nonempty
          exact ⟨by simpa using clean, by simpa using short, by simpa using nonempty,
            walk_eq_ok_iff.mp h⟩
  · rintro ⟨clean, short, nonempty, leads⟩
    rw [locate_eq_walk clean short nonempty, walk_eq_ok_iff.mpr leads]

theorem find_eq_ok_iff {path : Bytes} {entry : Option Entry} :
    fs.find last path = .ok (p, entry) ↔ fs.Finds last path p ∧ entry = fs.lookup p.location := by
  rw [find, map_eq_ok]
  constructor
  · rintro ⟨place, hplace, h⟩
    obtain ⟨rfl, rfl⟩ := Prod.mk.inj h
    exact ⟨locate_eq_ok_iff.mp hplace, rfl⟩
  · rintro ⟨hp, rfl⟩
    exact ⟨p, locate_eq_ok_iff.mpr hp, rfl⟩

/-- A path that leads where it led, and to what it led to, finds the same. -/
lemma find_congr {fs' : FileSystem} {path : Bytes}
    (locate : fs'.locate last path = fs.locate last path)
    (lookup : ∀ p, fs.Finds last path p → fs'.lookup p.location = fs.lookup p.location) :
    fs'.find last path = fs.find last path := by
  rw [find, find, locate]
  cases hp : fs.locate last path with
  | error e => rfl
  | ok p => simp only [Except.map, lookup p (locate_eq_ok_iff.mp hp)]

/-- What is at a path, a link counting as itself. -/
def entryAt (fs : FileSystem) (path : Bytes) : Option Entry :=
  match fs.find .keep path with
  | .ok (_, entry) => entry
  | .error _ => none

lemma entryAt_eq_some {fs : FileSystem} {path : Bytes} {e : Entry} :
    fs.entryAt path = some e ↔ ∃ p, fs.Finds .keep path p ∧ fs.lookup p.location = some e := by
  unfold entryAt
  constructor
  · intro h
    split at h
    · rename_i p entry hfind
      obtain ⟨hp, rfl⟩ := find_eq_ok_iff.mp hfind
      exact ⟨p, hp, h⟩
    · cases h
  · rintro ⟨p, hp, he⟩
    rw [find_eq_ok_iff.mpr ⟨hp, rfl⟩]
    exact he

end RecordLog.FileSystem
