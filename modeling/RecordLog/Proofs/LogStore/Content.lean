import RecordLog.LogStore
import RecordLog.Proofs.FileSystem.Transfer
import RecordLog.Proofs.Results

/-! The content of a log in its file. A log that can be read and opened for appending grows by
whole records, as long as nobody else changes the files. -/
namespace RecordLog

namespace FileSystem

/-- An open for appending makes a missing file and takes one that may be written. -/
theorem openAppend_cases {fs opened : FileSystem} {path : Bytes} {loc : Location}
    (h : fs.openAppend path = .ok (loc, opened)) : ∃ p, fs.Finds .create path p ∧ loc = p.location ∧
      ((fs.lookup p.location = none ∧ fs.mayChange p.directory ∧
          opened = fs.insert p.location (.file newFileMode [])) ∨
        ∃ e, fs.lookup p.location = some e ∧ fs.permits e .write ∧ opened = fs) := by
  unfold openAppend at h
  obtain ⟨⟨p, entry⟩, hfind, h⟩ := bind_eq_ok.mp h
  obtain ⟨hp, rfl⟩ := find_eq_ok_iff.mp hfind
  dsimp only at h
  split at h
  · rename_i missing
    split at h
    · rename_i may
      cases h
      exact ⟨p, hp, rfl, .inl ⟨missing, may, rfl⟩⟩
    · cases h
  · rename_i e present
    split at h
    · cases h
    · split at h
      · rename_i may
        cases h
        exact ⟨p, hp, rfl, .inr ⟨e, present, may, rfl⟩⟩
      · cases h

@[simp] theorem write_nil (fs : FileSystem) (loc : Location) :
    fs.write loc [] = (.ok (), fs) := by
  rw [write, if_pos rfl]

/-- A regular file takes whatever is offered at once. -/
theorem write_file {fs : FileSystem} {loc : Location} {mode : Mode} {content bytes : Bytes}
    (found : fs.lookup loc = some (.file mode content)) (some : bytes ≠ []) :
    fs.write loc bytes = (.ok (), fs.insert loc (.file mode (content ++ bytes))) := by
  obtain ⟨b, rest, rfl⟩ := List.exists_cons_of_ne_nil some
  rw [write, if_neg some, take, found]
  simp

lemma Finds.insert_file {fs : FileSystem} {last : LastLink} {path content : Bytes} {p : Place}
    {loc : Location} {mode : Mode} (h : fs.Finds last path p)
    (room : fs.lookup loc = none ∨ ∃ old, fs.lookup loc = some (.file mode old)) :
    (fs.insert loc (.file mode content)).Finds last path p :=
  ⟨h.clean, h.short, h.nonempty, h.leads.insert_file room⟩

lemma Finds.follow_of_create {fs : FileSystem} {path : Bytes} {p : Place}
    (h : fs.Finds .create path p) : fs.Finds .follow path p :=
  ⟨h.clean, h.short, h.nonempty, h.leads.follow_of_create⟩

/-- A file just made may be read and written. -/
lemma permits_new {fs : FileSystem} {a : Access} (ha : a ≠ .search) :
    fs.permits (.file newFileMode []) a := by
  have grants : (Entry.file newFileMode []).grants a = true := by
    cases a with
    | read => rfl
    | write => rfl
    | search => exact absurd rfl ha
  rw [FileSystem.permits, grants, Bool.or_true]

end FileSystem

/-- Reports leave the files alone. -/
lemma Host.report_files (es : List Event) (h : Host) :
    (es.foldl Host.report h).files = h.files := by
  induction es generalizing h with
  | nil => rfl
  | cons e es ih => exact ih (h.report e)

namespace LogStore
open FileSystem

/-- The log is in a file at `p` that may be read and written. -/
structure InFile (s : LogStore) (fs : FileSystem) (p : Place) (mode : Mode) (log : Bytes) :
    Prop where
  finds : fs.Finds .create s.path p
  plain : p.slash = false
  found : fs.lookup p.location = some (.file mode log)
  readable : fs.permits (.file mode log) .read
  writable : fs.permits (.file mode log) .write

/-- The log has this content and an append would find or make a regular file for it. -/
structure Holds (s : LogStore) (h : Host) (log : Bytes) : Prop where
  reads : s.readAll h = .ok log
  grows : ∃ loc opened mode content, h.files.openAppend s.path = .ok (loc, opened) ∧
    opened.lookup loc = some (.file mode content)

variable {s : LogStore} {h h' : Host} {fs : FileSystem} {p : Place} {mode : Mode} {log : Bytes}

/-- Only the files matter for the log. -/
lemma Holds.congr (held : s.Holds h log) (files : h'.files = h.files) : s.Holds h' log := by
  obtain ⟨reads, grows⟩ := held
  constructor
  · rw [← reads]
    simp only [readAll, files]
  · rwa [files]

namespace InFile

lemma openRead (held : s.InFile fs p mode log) : fs.openRead s.path = .ok p.location := by
  have hfind := find_eq_ok_iff.mpr ⟨held.finds.follow_of_create, held.found.symm⟩
  simp [FileSystem.openRead, hfind, bind, Except.bind, held.plain, held.readable]

lemma openAppend (held : s.InFile fs p mode log) :
    fs.openAppend s.path = .ok (p.location, fs) := by
  have hfind := find_eq_ok_iff.mpr ⟨held.finds, held.found.symm⟩
  simp [FileSystem.openAppend, hfind, bind, Except.bind, Entry.isDirectory, held.writable]

lemma read (held : s.InFile fs p mode log) : fs.read p.location = .ok log := by
  simp [FileSystem.read, held.found]

/-- A record written at the end stays readable and writable with all that was there before. -/
lemma grow (held : s.InFile fs p mode log) (record : Bytes) :
    s.InFile (fs.insert p.location (.file mode (log ++ record))) p mode (log ++ record) where
  finds := held.finds.insert_file (.inr ⟨log, held.found⟩)
  plain := held.plain
  found := by rw [lookup_insert, if_pos rfl]
  readable := held.readable
  writable := held.writable

/-- The file takes every record, and nothing else changes. An empty record is not even offered. -/
lemma write (held : s.InFile fs p mode log) (record : Bytes) : ∃ files,
    fs.write p.location record = (.ok (), files) ∧ s.InFile files p mode (log ++ record) ∧
      SameBut p.location fs files ∧
      ∀ last q, fs.Finds last s.path q → files.Finds last s.path q := by
  by_cases empty : record = []
  · subst empty
    exact ⟨fs, write_nil fs _, by rwa [List.append_nil], .refl _ fs, fun _ _ hq => hq⟩
  · exact ⟨_, write_file held.found empty, held.grow record, .insert _ fs _,
      fun _ _ hq => hq.insert_file (.inr ⟨log, held.found⟩)⟩

/-- A missing file that is made holds an empty log. -/
lemma made (hp : fs.Finds .create s.path p) (missing : fs.lookup p.location = none)
    (may : fs.mayChange p.directory) :
    s.InFile (fs.insert p.location (.file newFileMode [])) p newFileMode [] := by
  have hname : p.name.isSome := by
    cases hn : p.name with
    | some name => rfl
    | none =>
      have : p.location = p.directory := by simp [Place.location, hn]
      simp [mayChange, permitsAt, ← this, missing] at may
  exact ⟨hp.insert_file (.inl missing), hp.leads.slash_of_create hname,
    by rw [lookup_insert, if_pos rfl], permits_new (by decide), permits_new (by decide)⟩

lemma holds (held : s.InFile h.files p mode log) : s.Holds h log where
  reads := by
    simp only [readAll, held.openRead]
    exact held.read
  grows := ⟨_, _, mode, log, held.openAppend, held.found⟩

end InFile

/-- A log that is missing comes to be when it is opened for appending, and one in a file stays. -/
theorem Holds.open (held : s.Holds h log) : ∃ p opened mode,
    h.files.openAppend s.path = .ok (p.location, opened) ∧ s.InFile opened p mode log := by
  obtain ⟨reads, loc, opened, mode, content, hopen, hfile⟩ := held
  obtain ⟨p, hp, rfl, ⟨missing, may, rfl⟩ | ⟨e, found, may, rfl⟩⟩ := openAppend_cases hopen
  · refine ⟨p, _, newFileMode, hopen, ?_⟩
    have hlog : log = [] := by
      have hfind := find_eq_ok_iff.mpr ⟨hp.follow_of_create, missing.symm⟩
      have hread : s.readAll h = .ok [] := by
        simp only [readAll, FileSystem.openRead, hfind, bind, Except.bind]
        exact if_pos (by decide)
      exact Except.ok.inj (reads.symm.trans hread)
    subst hlog
    exact .made hp missing may
  · refine ⟨p, _, mode, hopen, ?_⟩
    have hfind := find_eq_ok_iff.mpr ⟨hp.follow_of_create, hfile.symm⟩
    have hread : h.files.openRead s.path = if p.slash then .error .notDirectory
        else if h.files.permits (.file mode content) .read then .ok p.location
        else .error .permissionDenied := by
      simp [FileSystem.openRead, hfind, bind, Except.bind, Entry.isDirectory]
    simp only [readAll, hread] at reads
    split at reads
    · rename_i e he
      have hkind : e.kind ≠ .notFound := by
        split at he
        · cases he; decide
        · split at he <;> cases he; decide
      simp [hkind] at reads
    · rename_i loc hloc
      obtain ⟨hslash, hmay, rfl⟩ : p.slash = false ∧
          h.files.permits (.file mode content) .read ∧ p.location = loc := by
        split at hloc
        · cases hloc
        · split at hloc <;> cases hloc
          simp_all
      obtain rfl : content = log := by simpa [FileSystem.read, hfile] using reads
      obtain rfl : e = .file mode content := Option.some.inj (found.symm.trans hfile)
      exact ⟨hp, hslash, hfile, hmay, may⟩

/-- An append to a log that holds `log` succeeds and adds the record at its end. -/
theorem Holds.append (held : s.Holds h log) (record : Bytes) :
    (s.append record h).1 = .ok () ∧ s.Holds (s.append record h).2 (log ++ record) := by
  obtain ⟨p, opened, mode, hopen, hfile⟩ := held.open
  obtain ⟨files, hwrite, written, -⟩ := hfile.write record
  simp only [LogStore.append, hopen, hwrite, true_and]
  exact written.holds

end LogStore

end RecordLog
