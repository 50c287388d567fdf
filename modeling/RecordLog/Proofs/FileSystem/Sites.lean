import RecordLog.Proofs.FileSystem.Trail
import RecordLog.Proofs.FileSystem.Transfer

/-! Files that come and go at a few paths. Where no path leads through the file of another, all of
them keep leading where they led, whatever is written there. -/
namespace RecordLog

def Entry.IsFile (e : Entry) : Prop := ∃ mode content, e = .file mode content

namespace FileSystem

/-- Where the file at a path is or would be: where the path leads, if there is no directory. -/
def site? (fs : FileSystem) (path : Bytes) : Option Location :=
  match fs.find .keep path with
  | .ok (place, entry) => if entry.any Entry.isDirectory then none else some place.location
  | .error _ => none

/-- The content at a path, a missing file being empty; none where something else than a file is. -/
def contentAt (fs : FileSystem) (path : Bytes) : Option Bytes :=
  match fs.entryAt path with
  | none => some []
  | some (.file _ content) => some content
  | some _ => none

/-- Each of the paths has a file of its own, and none leads through the file of another. -/
structure Apart (fs : FileSystem) (paths : List Bytes) : Prop where
  /-- If anything is there, it is a directory or a regular file. -/
  plain : ∀ path ∈ paths, ∀ e, fs.entryAt path = some e → e.isDirectory ∨ e.IsFile
  distinct : ∀ a ∈ paths, ∀ b ∈ paths, a ≠ b → ∀ loc, fs.site? a = some loc → fs.site? b ≠ some loc
  none_below : ∀ a ∈ paths, ∀ b ∈ paths, ∀ loc, fs.site? a = some loc → loc ∉ fs.wayTo b

/-- `fs'` is `fs` with other files at the paths. -/
structure OnlyFiles (paths : List Bytes) (fs fs' : FileSystem) : Prop where
  privileged : fs'.privileged = fs.privileged
  workingDirectory : fs'.workingDirectory = fs.workingDirectory
  elsewhere : ∀ loc, (∀ path ∈ paths, fs.site? path ≠ some loc) → fs'.lookup loc = fs.lookup loc
  files : ∀ loc e, fs'.lookup loc = some e → fs.lookup loc = some e ∨ e.IsFile

variable {fs fs' fs'' : FileSystem} {paths : List Bytes} {path other : Bytes} {loc : Location}
  {p : Place} {e : Entry} {last : LastLink}

def DirectoryAt (fs : FileSystem) (loc : Location) : Prop :=
  ∃ e, fs.lookup loc = some e ∧ e.isDirectory

lemma site?_eq_some : fs.site? path = some loc ↔
    ∃ p, fs.Finds .keep path p ∧ ¬ fs.DirectoryAt p.location ∧ loc = p.location := by
  unfold site?
  constructor
  · intro h
    split at h
    · rename_i p entry hfind
      obtain ⟨hp, rfl⟩ := find_eq_ok_iff.mp hfind
      split at h
      · cases h
      · rename_i hfree
        refine ⟨p, hp, ?_, (Option.some.inj h).symm⟩
        rintro ⟨e, he, hd⟩
        simp [he, hd] at hfree
    · cases h
  · rintro ⟨p, hp, hfree, rfl⟩
    rw [find_eq_ok_iff.mpr ⟨hp, rfl⟩]
    cases hentry : fs.lookup p.location with
    | none => rfl
    | some e => exact if_neg fun hd => hfree ⟨e, hentry, hd⟩

/-- A path leads to its site, or to a directory. -/
lemma Finds.site_or (hp : fs.Finds .keep path p) :
    fs.site? path = some p.location ∨ fs.DirectoryAt p.location := by
  by_cases hd : fs.DirectoryAt p.location
  · exact .inr hd
  · exact .inl (site?_eq_some.mpr ⟨p, hp, hd, rfl⟩)

/-- There is no directory at a site. -/
lemma DirectoryAt.not_site (hd : fs.DirectoryAt loc) : fs.site? path ≠ some loc := by
  intro h
  obtain ⟨p, -, hfree, rfl⟩ := site?_eq_some.mp h
  exact hfree hd

lemma plain_of_file_or_directory (h : ∀ e, fs.lookup loc = some e → e.isDirectory ∨ e.IsFile) :
    fs.Plain loc := by
  intro target he
  obtain hd | ⟨mode, content, hfile⟩ := h _ he
  · cases hd
  · cases hfile

namespace OnlyFiles

lemma refl (paths : List Bytes) (fs : FileSystem) : OnlyFiles paths fs fs :=
  ⟨rfl, rfl, fun _ _ => rfl, fun _ _ he => .inl he⟩

/-- What happens in the one place that a path leads to happens to the file at that path. -/
lemma of_sameBut (hp : fs.Finds .keep path p) (free : ¬ fs.DirectoryAt p.location)
    (same : SameBut p.location fs fs')
    (file : ∀ e, fs'.lookup p.location = some e → e.IsFile) : OnlyFiles [path] fs fs' where
  privileged := same.privileged
  workingDirectory := same.workingDirectory
  elsewhere loc hloc := by
    refine same.elsewhere loc fun heq => List.forall_mem_singleton.mp hloc ?_
    exact site?_eq_some.mpr ⟨p, hp, free, heq⟩
  files loc e he := by
    by_cases heq : loc = p.location
    · exact .inr (file e (heq ▸ he))
    · exact .inl (same.elsewhere loc heq ▸ he)

/-- A path leads to nothing but files and directories. -/
lemma ends (kept : OnlyFiles paths fs fs') (apart : fs.Apart paths) (hpath : path ∈ paths)
    (hp : fs.Finds .keep path p) (he : fs'.lookup p.location = some e) :
    e.isDirectory ∨ e.IsFile := by
  obtain hold | hfile := kept.files _ _ he
  · exact apart.plain path hpath e (entryAt_eq_some.mpr ⟨p, hp, hold⟩)
  · exact .inr hfile

/-- Every path leads where it led, or is refused as it was. -/
theorem locate (kept : OnlyFiles paths fs fs') (apart : fs.Apart paths) (hpath : path ∈ paths)
    (last : LastLink) : fs'.locate last path = fs.locate last path := by
  refine locate_congr kept.privileged kept.workingDirectory Iff.rfl (fun loc hloc => ?_)
    fun p hp => ?_
  · exact kept.elsewhere loc fun a ha hsite => apart.none_below a ha path hpath loc hsite hloc
  · exact ⟨plain_of_file_or_directory fun e he => (refl paths fs).ends apart hpath hp he,
      plain_of_file_or_directory fun e he => kept.ends apart hpath hp he⟩

lemma finds (kept : OnlyFiles paths fs fs') (apart : fs.Apart paths) (hpath : path ∈ paths) :
    fs'.Finds last path p ↔ fs.Finds last path p := by
  rw [← locate_eq_ok_iff, ← locate_eq_ok_iff, kept.locate apart hpath]

/-- Directories neither come nor go. -/
lemma directoryAt_iff (kept : OnlyFiles paths fs fs') :
    fs'.DirectoryAt loc ↔ fs.DirectoryAt loc := by
  constructor
  · rintro ⟨e, he, hd⟩
    obtain hold | ⟨mode, content, rfl⟩ := kept.files _ _ he
    · exact ⟨e, hold, hd⟩
    · cases hd
  · intro hdir
    obtain ⟨e, he, hd⟩ := hdir
    exact ⟨e, by rw [kept.elsewhere loc fun a _ => DirectoryAt.not_site ⟨e, he, hd⟩, he], hd⟩

theorem site (kept : OnlyFiles paths fs fs') (apart : fs.Apart paths) (hpath : path ∈ paths) :
    fs'.site? path = fs.site? path := by
  apply Option.ext
  intro loc
  simp only [site?_eq_some, kept.finds apart hpath, kept.directoryAt_iff]

/-- After files at the paths, other files at one of them. -/
theorem trans (kept : OnlyFiles paths fs fs') (apart : fs.Apart paths) (hpath : path ∈ paths)
    (next : OnlyFiles [path] fs' fs'') : OnlyFiles paths fs fs'' where
  privileged := next.privileged.trans kept.privileged
  workingDirectory := next.workingDirectory.trans kept.workingDirectory
  elsewhere loc hloc := by
    rw [next.elsewhere loc, kept.elsewhere loc hloc]
    rw [List.forall_mem_singleton, kept.site apart hpath]
    exact hloc path hpath
  files loc e he := by
    obtain hmid | hfile := next.files loc e he
    · exact kept.files loc e hmid
    · exact .inr hfile

theorem locate_other (kept : OnlyFiles paths fs fs') (apart : fs.Apart paths)
    (hpath : path ∈ paths) (next : OnlyFiles [path] fs' fs'') (hother : other ∈ paths)
    (last : LastLink) : fs''.locate last other = fs'.locate last other :=
  ((kept.trans apart hpath next).locate apart hother last).trans
    (kept.locate apart hother last).symm

/-- What another path leads to stays as it is. -/
theorem lookup_other (kept : OnlyFiles paths fs fs') (apart : fs.Apart paths)
    (hpath : path ∈ paths) (next : OnlyFiles [path] fs' fs'') (hother : other ∈ paths)
    (hne : other ≠ path) (hp : fs'.Finds .keep other p) :
    fs''.lookup p.location = fs'.lookup p.location := by
  refine next.elsewhere _ (List.forall_mem_singleton.mpr fun hsite => ?_)
  obtain hown | hd := hp.site_or
  · rw [kept.site apart hpath] at hsite
    rw [kept.site apart hother] at hown
    exact apart.distinct path hpath other hother (Ne.symm hne) _ hsite hown
  · exact hd.not_site hsite

/-- What a path finds stays as it is when another path's file comes or goes. -/
theorem find_other (kept : OnlyFiles paths fs fs') (apart : fs.Apart paths)
    (hpath : path ∈ paths) (next : OnlyFiles [path] fs' fs'') (hother : other ∈ paths)
    (hne : other ≠ path) : fs''.find .keep other = fs'.find .keep other :=
  find_congr (kept.locate_other apart hpath next hother .keep)
    fun _ hp => kept.lookup_other apart hpath next hother hne hp

end OnlyFiles

end FileSystem

end RecordLog
