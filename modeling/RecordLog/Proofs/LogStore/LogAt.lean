import RecordLog.Proofs.FileSystem.Sites
import RecordLog.Proofs.LogStore.Content
import RecordLog.Proofs.LogStore.Removal

/-! The log at a path, in a file or missing. Appending adds to it and clearing the path empties it,
while what happens at other paths leaves it alone. -/
namespace RecordLog

namespace FileSystem

variable {fs fs' fs'' : FileSystem} {paths : List Bytes} {path : Bytes}

namespace Missing

lemma entryAt (h : fs.Missing path) : fs.entryAt path = none := by
  rw [Option.eq_none_iff_forall_ne_some]
  intro e he
  obtain ⟨p, hp, he⟩ := entryAt_eq_some.mp he
  simp [h.lookup_eq hp] at he

/-- A missing file is missing for whoever wants to read it. -/
lemma openRead (h : fs.Missing path) :
    ∃ cause, fs.openRead path = .error cause ∧ cause.kind = .notFound := by
  have hfollow : fs.find .follow path = fs.find .keep path := by
    rw [find, find, locate_follow]
    intro p hp target hlink
    simp [h.lookup_eq hp] at hlink
  obtain ⟨cause, hfind, hcause⟩ | ⟨p, hfind, -⟩ := missing_iff.mp h
  · exact ⟨cause, by simp [FileSystem.openRead, hfollow, hfind, bind, Except.bind], hcause⟩
  · exact ⟨.notFound, by simp [FileSystem.openRead, hfollow, hfind, bind, Except.bind], by decide⟩

lemma congr (h : fs.Missing path) (found : fs'.find .keep path = fs.find .keep path) :
    fs'.Missing path := by
  rw [missing_iff, found]
  exact missing_iff.mp h

end Missing

/-- A path that is cleared is missing, and nothing else has changed. -/
lemma Cleared.missing (kept : OnlyFiles paths fs fs') (apart : fs.Apart paths)
    (hpath : path ∈ paths) (cleared : fs'.Cleared path fs'') :
    fs''.Missing path ∧ OnlyFiles [path] fs' fs'' := by
  obtain hunlink | ⟨hmissing, rfl⟩ := cleared
  · obtain ⟨p, e, hp, hname, -, he, hd, rfl⟩ := unlink_eq_ok hunlink
    have free : ¬ fs'.DirectoryAt p.location := by
      rintro ⟨e', he', hd'⟩
      obtain rfl := Option.some.inj (he.symm.trans he')
      simp [hd] at hd'
    have next : OnlyFiles [path] fs' (fs'.erase p.location) :=
      .of_sameBut hp free (.erase _ fs') (by simp)
    have hp' : (fs'.erase p.location).Finds .keep path p :=
      ((kept.trans apart hpath next).finds apart hpath).mpr ((kept.finds apart hpath).mp hp)
    refine ⟨missing_iff.mpr (.inr ⟨p, find_eq_ok_iff.mpr ⟨hp', ?_⟩, hname⟩), next⟩
    rw [lookup_erase, if_pos rfl]
  · exact ⟨hmissing, .refl _ _⟩

end FileSystem

namespace LogStore
open FileSystem

/-- The log at a path holds this: it is in a file, or has none and is empty. -/
inductive LogAt (fs : FileSystem) (path : Bytes) : Bytes → Prop
  | missing (h : fs.Missing path) : LogAt fs path []
  | file {p mode log} (keeps : fs.Finds .keep path p) (held : InFile ⟨path⟩ fs p mode log) :
    LogAt fs path log

namespace LogAt

variable {fs fs' : FileSystem} {path log record : Bytes} {h h' : Host}

lemma contentAt (held : LogAt fs path log) : fs.contentAt path = some log := by
  unfold FileSystem.contentAt
  cases held with
  | missing hmissing => rw [hmissing.entryAt]
  | file keeps held => rw [entryAt_eq_some.mpr ⟨_, keeps, held.found⟩]

lemma readAll (held : LogAt h.files path log) : (⟨path⟩ : LogStore).readAll h = .ok log := by
  cases held with
  | missing hmissing =>
    obtain ⟨cause, hopen, hcause⟩ := hmissing.openRead
    simp only [LogStore.readAll, hopen, if_pos hcause]
  | file keeps held => exact held.holds.reads

/-- A log stays as long as its path leads to the same file. -/
lemma congr (held : LogAt fs path log) (privileged : fs'.privileged = fs.privileged)
    (locate : ∀ last, fs'.locate last path = fs.locate last path)
    (lookup : ∀ p, fs.Finds .keep path p → fs'.lookup p.location = fs.lookup p.location) :
    LogAt fs' path log := by
  have finds : ∀ {last p}, fs.Finds last path p → fs'.Finds last path p := by
    intro last p hp
    rw [← locate_eq_ok_iff, locate last]
    exact locate_eq_ok_iff.mpr hp
  have permits : ∀ {e a}, fs.permits e a → fs'.permits e a := by
    intro e a
    rw [FileSystem.permits, FileSystem.permits, privileged]
    exact id
  cases held with
  | missing hmissing => exact .missing (hmissing.congr (find_congr (locate .keep) lookup))
  | file keeps held =>
    exact .file (finds keeps) ⟨finds held.finds, held.plain, (lookup _ keeps).trans held.found,
      permits held.readable, permits held.writable⟩

/-- The file of a log that can be opened for appending, whether it had one or not. -/
lemma opened (held : LogAt fs path log) {loc : Location}
    (hopen : fs.openAppend path = .ok (loc, fs')) : ∃ p mode, loc = p.location ∧
      fs.Finds .keep path p ∧ ¬ fs.DirectoryAt p.location ∧ fs'.Finds .keep path p ∧
        InFile ⟨path⟩ fs' p mode log ∧ SameBut p.location fs fs' := by
  cases held with
  | @file p mode log keeps held =>
    obtain ⟨rfl, rfl⟩ : p.location = loc ∧ fs = fs' := by
      simpa using held.openAppend.symm.trans hopen
    refine ⟨p, mode, rfl, keeps, ?_, keeps, held, .refl _ fs⟩
    rintro ⟨e, he, hd⟩
    obtain rfl := Option.some.inj (held.found.symm.trans he)
    cases hd
  | missing hmissing =>
    obtain ⟨p, hp, rfl, hcases⟩ := openAppend_cases hopen
    obtain ⟨q, hq, hsame⟩ := hp.follow_of_create.leads.keep_of_follow
    have keeps : fs.Finds .keep path q := ⟨hp.clean, hp.short, hp.nonempty, hq⟩
    have hnone := hmissing.lookup_eq keeps
    obtain rfl | ⟨target, hlink⟩ := hsame
    case inr => simp [hnone] at hlink
    obtain ⟨-, may, rfl⟩ | ⟨e, he, -⟩ := hcases
    · refine ⟨q, newFileMode, rfl, keeps, ?_, keeps.insert_file (.inl hnone),
        .made hp hnone may, .insert _ fs _⟩
      rintro ⟨e, he, -⟩
      simp [hnone] at he
    · simp [hnone] at he

/-- An append adds its record to the log at its path alone. It fails and changes nothing if the
file cannot be opened. -/
theorem append (held : LogAt h.files path log) {added : Except IoError Unit}
    (happend : (⟨path⟩ : LogStore).append record h = (added, h')) :
    (∃ e, added = .error e ∧ h.files.openAppend path = .error e) ∧ h' = h ∨
      added = .ok () ∧ (∃ opened, h.files.openAppend path = .ok opened) ∧
        LogAt h'.files path (log ++ record) ∧ OnlyFiles [path] h.files h'.files := by
  unfold LogStore.append at happend
  cases hopen : h.files.openAppend path with
  | error e =>
    simp only [hopen] at happend
    cases happend
    exact .inl ⟨⟨e, rfl, rfl⟩, rfl⟩
  | ok opened =>
    obtain ⟨loc, opened⟩ := opened
    obtain ⟨p, mode, rfl, keeps, free, keeps', inFile, same⟩ := held.opened hopen
    obtain ⟨files, hwrite, written, same', finds⟩ := inFile.write record
    simp only [hopen, hwrite] at happend
    cases happend
    refine .inr ⟨rfl, ⟨_, rfl⟩, .file (finds .keep p keeps') written, ?_⟩
    refine .of_sameBut keeps free (same.trans same') fun e he => ?_
    obtain rfl := Option.some.inj (written.found.symm.trans he)
    exact ⟨mode, _, rfl⟩

end LogAt

end LogStore

end RecordLog
