import RecordLog.LogStore
import RecordLog.Proofs.FileSystem.Transfer
import RecordLog.Proofs.Results

/-! Removing a log. Once its file is removed, or is found to be missing, its path names nothing. -/
namespace RecordLog

namespace FileSystem

variable {fs fs' : FileSystem} {path : Bytes} {p q : Place}

/-- A path leads to one place. -/
lemma Finds.unique {last : LastLink} (hp : fs.Finds last path p) (hq : fs.Finds last path q) :
    p = q := Except.ok.inj (hp.leads.walk_eq.symm.trans hq.leads.walk_eq)

lemma present_iff : fs.present path ↔ ∃ p e,
    fs.Finds (if (Path.ofBytes path).slash then .follow else .keep) path p ∧
      fs.lookup p.location = some e ∧ (p.slash = false ∨ e.isDirectory) := by
  unfold present
  constructor
  · intro h
    dsimp only at h
    split at h
    · rename_i p e hfind
      obtain ⟨hp, he⟩ := find_eq_ok_iff.mp hfind
      exact ⟨p, e, hp, he.symm, by simpa using h⟩
    · cases h
  · rintro ⟨p, e, hp, he, hslash⟩
    have hfind := find_eq_ok_iff.mpr ⟨hp, he.symm⟩
    simp only [hfind]
    simpa using hslash

/-- What is removed is there, no directory, and named without a slash after it. -/
lemma unlink_eq_ok (h : fs.unlink path = .ok fs') : ∃ p e, fs.Finds .keep path p ∧
    p.name.isSome ∧ p.slash = false ∧ fs.lookup p.location = some e ∧ e.isDirectory = false ∧
      fs' = fs.erase p.location := by
  unfold unlink at h
  obtain ⟨⟨p, entry⟩, hfind, h⟩ := bind_eq_ok.mp h
  obtain ⟨hp, hentry⟩ := find_eq_ok_iff.mp hfind
  dsimp only at h
  split at h
  · cases h
  · rename_i hname
    split at h
    · cases h
    · rename_i e
      split at h
      · cases h
      · rename_i hslash
        split at h
        · cases h
        · split at h <;> cases h
          rename_i hdirectory
          exact ⟨p, e, hp, by simpa [Option.isSome_iff_ne_none] using hname, by simpa using hslash,
            hentry.symm, by simpa using hdirectory, rfl⟩

@[simp] lemma removeRefusal_kind (dir : Location) :
    (removeRefusal dir).kind = .permissionDenied := by
  unfold removeRefusal
  split <;> rfl

/-- There is nothing that a removal could remove. -/
def Missing (fs : FileSystem) (path : Bytes) : Prop :=
  ∃ cause, fs.unlink path = .error cause ∧ cause.kind = .notFound

/-- A path is missing that leads nowhere, or to a name that nothing has. -/
lemma missing_iff : fs.Missing path ↔
    (∃ cause, fs.find .keep path = .error cause ∧ cause.kind = .notFound) ∨
      ∃ p, fs.find .keep path = .ok (p, none) ∧ p.name.isSome := by
  constructor
  · rintro ⟨cause, h, hcause⟩
    cases hfind : fs.find .keep path with
    | error e =>
      simp only [unlink, hfind, bind, Except.bind] at h
      cases h
      exact .inl ⟨cause, rfl, hcause⟩
    | ok found =>
      obtain ⟨p, entry⟩ := found
      simp only [unlink, hfind, bind, Except.bind] at h
      split at h
      · cases h
        exact absurd hcause (by decide)
      · rename_i hname
        split at h
        · exact .inr ⟨p, rfl, by simpa [Option.isSome_iff_ne_none] using hname⟩
        · split at h
          · split at h <;> cases h <;> exact absurd hcause (by decide)
          · split at h
            · cases h
              simp at hcause
            · split at h <;> cases h
              exact absurd hcause (by decide)
  · rintro (⟨cause, hfind, hcause⟩ | ⟨p, hfind, hname⟩)
    · exact ⟨cause, by simp [unlink, hfind, bind, Except.bind], hcause⟩
    · refine ⟨.notFound, ?_, by decide⟩
      simp [unlink, hfind, bind, Except.bind, Option.ne_none_iff_isSome.mpr hname]

/-- Only where nothing is found does a removal miss it. -/
lemma Missing.lookup_eq (h : fs.Missing path) (hp : fs.Finds .keep path p) :
    fs.lookup p.location = none := by
  have hfound := find_eq_ok_iff.mpr ⟨hp, rfl⟩
  obtain ⟨cause, hfind, -⟩ | ⟨q, hfind, -⟩ := missing_iff.mp h
  · cases hfind.symm.trans hfound
  · exact (Prod.mk.inj (Except.ok.inj (hfind.symm.trans hfound))).2.symm

/-- A path that has been removed names nothing. -/
theorem absent_of_unlink (h : fs.unlink path = .ok fs') : fs'.present path = false := by
  obtain ⟨p, -, hp, -, hslash, -, -, rfl⟩ := unlink_eq_ok h
  have hplain : (Path.ofBytes path).slash = false := hp.leads.slash_of_keep.symm.trans hslash
  rw [← Bool.not_eq_true, present_iff]
  rintro ⟨q, e, hq, he, -⟩
  rw [if_neg (by simp [hplain])] at hq
  have hq' : fs.Finds .keep path q := ⟨hq.clean, hq.short, hq.nonempty, hq.leads.of_erase⟩
  obtain rfl := hp.unique hq'
  simp at he

/-- A path that a removal does not find names nothing. -/
theorem Missing.absent (h : fs.Missing path) : fs.present path = false := by
  rw [← Bool.not_eq_true, present_iff]
  rintro ⟨p, e, hp, he, -⟩
  split at hp
  · obtain ⟨q, hq, hsame⟩ := hp.leads.keep_of_follow
    have hnone := h.lookup_eq ⟨hp.clean, hp.short, hp.nonempty, hq⟩
    obtain rfl | ⟨target, hlink⟩ := hsame
    · simp [hnone] at he
    · simp [hnone] at hlink
  · have hnone := h.lookup_eq hp
    simp [hnone] at he

/-- What is left when a removal goes through or has nothing to remove. -/
def Cleared (fs : FileSystem) (path : Bytes) (fs' : FileSystem) : Prop :=
  fs.unlink path = .ok fs' ∨ fs.Missing path ∧ fs' = fs

/-- There is something to remove, and the system keeps it. -/
def Refuses (fs : FileSystem) (path : Bytes) (e : IoError) : Prop :=
  fs.unlink path = .error e ∧ e.kind ≠ .notFound

lemma Cleared.not_refuses (h : fs.Cleared path fs') (e : IoError) : ¬ fs.Refuses path e := by
  rintro ⟨hrefused, hkind⟩
  obtain hunlink | ⟨⟨cause, hmissing, hcause⟩, -⟩ := h
  · cases hunlink.symm.trans hrefused
  · obtain rfl := Except.error.inj (hmissing.symm.trans hrefused)
    exact hkind hcause

theorem Cleared.absent (h : fs.Cleared path fs') : fs'.present path = false := by
  obtain hunlink | ⟨hmissing, rfl⟩ := h
  · exact absent_of_unlink hunlink
  · exact hmissing.absent

end FileSystem

namespace LogStore

variable {path : Bytes} {s : LogStore} {h h' : Host}

/-- Making a store clears its path. It fails and changes nothing if the system refuses that. -/
lemma create_cases {made : Except IoError LogStore} (hcreate : create path h = (made, h')) :
    (∃ e, made = .error e ∧ h.files.Refuses path e) ∧ h' = h ∨
      made = .ok ⟨path⟩ ∧ h.files.Cleared path h'.files := by
  unfold create at hcreate
  dsimp only at hcreate
  split at hcreate
  · rename_i files hunlink
    cases hcreate
    exact .inr ⟨rfl, .inl hunlink⟩
  · rename_i e hunlink
    split at hcreate
    · rename_i hkind
      cases hcreate
      exact .inr ⟨rfl, .inr ⟨⟨e, hunlink, hkind⟩, rfl⟩⟩
    · rename_i hkind
      cases hcreate
      exact .inl ⟨⟨e, rfl, hunlink, hkind⟩, rfl⟩

/-- Removing a log clears its path. It fails and changes nothing if the system refuses that. -/
lemma remove_cases {removed : Except IoError Unit} (hremove : s.remove h = (removed, h')) :
    (∃ e, removed = .error e ∧ h.files.Refuses s.path e) ∧ h' = h ∨
      removed = .ok () ∧ h.files.Cleared s.path h'.files := by
  unfold remove at hremove
  split at hremove
  · rename_i files hunlink
    cases hremove
    exact .inr ⟨rfl, .inl hunlink⟩
  · rename_i e hunlink
    split at hremove
    · rename_i hkind
      cases hremove
      exact .inr ⟨rfl, .inr ⟨⟨e, hunlink, hkind⟩, rfl⟩⟩
    · rename_i hkind
      cases hremove
      exact .inl ⟨⟨e, rfl, hunlink, hkind⟩, rfl⟩

lemma remove_missing (missing : h.files.Missing s.path) : s.remove h = (.ok (), h) := by
  obtain ⟨e, hunlink, hkind⟩ := missing
  simp only [remove, hunlink, if_pos hkind]

/-- A store that cannot be made leaves the host alone. -/
lemma create_failed {e : IoError} (failed : create path h = (.error e, h')) : h' = h := by
  obtain ⟨-, hsame⟩ | ⟨hmade, -⟩ := create_cases failed
  · exact hsame
  · cases hmade

/-- After a removal that does not fail there is no log. -/
theorem absent_of_remove (hok : (s.remove h).1 = .ok ()) :
    (s.remove h).2.files.present s.path = false := by
  obtain ⟨⟨e, hfailed, -⟩, -⟩ | ⟨-, hcleared⟩ := remove_cases (Prod.eta (s.remove h)).symm
  · cases hok.symm.trans hfailed
  · exact hcleared.absent

end LogStore

end RecordLog
