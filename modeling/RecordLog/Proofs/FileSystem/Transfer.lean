import RecordLog.Proofs.FileSystem.Walk

/-! Where the names of a path lead in two file systems, or in one with the last link treated
differently. A log that is written keeps its place, and a file that is removed leaves none. -/
namespace RecordLog.FileSystem

variable {fs : FileSystem} {last : LastLink} {links : Nat} {dir : Location} {names : List Name}
  {slash : Bool} {p : Place} {loc : Location} {mode : Mode} {content : Bytes}

/-- The two differ in no other place than this one. -/
structure SameBut (loc : Location) (fs fs' : FileSystem) : Prop where
  privileged : fs'.privileged = fs.privileged
  workingDirectory : fs'.workingDirectory = fs.workingDirectory
  elsewhere : ∀ l, l ≠ loc → fs'.lookup l = fs.lookup l

namespace SameBut

lemma refl (loc : Location) (fs : FileSystem) : SameBut loc fs fs := ⟨rfl, rfl, fun _ _ => rfl⟩

lemma insert (loc : Location) (fs : FileSystem) (e : Entry) : SameBut loc fs (fs.insert loc e) :=
  ⟨rfl, rfl, fun l hl => by rw [lookup_insert, if_neg hl]⟩

lemma erase (loc : Location) (fs : FileSystem) : SameBut loc fs (fs.erase loc) :=
  ⟨rfl, rfl, fun l hl => by rw [lookup_erase, if_neg hl]⟩

lemma trans {fs fs' fs'' : FileSystem} (h : SameBut loc fs fs') (h' : SameBut loc fs' fs'') :
    SameBut loc fs fs'' :=
  ⟨h'.privileged.trans h.privileged, h'.workingDirectory.trans h.workingDirectory,
    fun l hl => (h'.elsewhere l hl).trans (h.elsewhere l hl)⟩

end SameBut

/-- Writing a file where none or one of the same mode is leaves all permissions. -/
lemma permitsAt_insert_file {a : Access} (h : fs.permitsAt dir a)
    (room : fs.lookup loc = none ∨ ∃ old, fs.lookup loc = some (.file mode old)) :
    (fs.insert loc (.file mode content)).permitsAt dir a := by
  by_cases hd : dir = loc
  · subst hd
    obtain hnone | ⟨old, hold⟩ := room
    · simp [permitsAt, hnone] at h
    · have same : (Entry.file mode content).grants a = (Entry.file mode old).grants a := rfl
      simpa [permitsAt, hold, permits, same] using h
  · simpa [permitsAt, hd, permits] using h

/-- Writing a file where none or one of the same mode is leads all names where they led. -/
theorem Leads.insert_file (h : Leads fs last links dir names slash p)
    (room : fs.lookup loc = none ∨ ∃ old, fs.lookup loc = some (.file mode old)) :
    Leads (fs.insert loc (.file mode content)) last links dir names slash p := by
  have kept : ∀ {l : Location} {e : Entry}, fs.lookup l = some e → (∀ m c, e ≠ .file m c) →
      (fs.insert loc (.file mode content)).lookup l = some e := by
    intro l e hl he
    rw [lookup_insert, if_neg]
    · exact hl
    · rintro rfl
      obtain hnone | ⟨old, hold⟩ := room
      · simp [hnone] at hl
      · exact he mode old (Option.some.inj (hl.symm.trans hold))
  have visits : ∀ {dir name rest slash}, fs.Visits last dir name rest slash →
      (fs.insert loc (.file mode content)).Visits last dir name rest slash := by
    rintro dir name rest slash ⟨search, hdot, hdotdot, made, short⟩
    exact ⟨permitsAt_insert_file search room, hdot, hdotdot, made, short⟩
  induction h with
  | arrived => exact .arrived
  | dot search _ ih => exact .dot (permitsAt_insert_file search room) ih
  | dotdot search _ ih => exact .dotdot (permitsAt_insert_file search room) ih
  | named hv stays =>
    refine .named (visits hv) fun target found => ?_
    rw [lookup_insert] at found
    split at found
    · cases found
    · exact stays target found
  | enter hv more found _ ih => exact .enter (visits hv) more (kept found (by simp)) ih
  | follow hv more found _ ih => exact .follow (visits hv) more (kept found (by simp)) ih
  | followLast hv leaves found _ ih =>
    exact .followLast (visits hv) leaves (kept found (by simp)) ih

/-- A file made where nothing was gives no permission in another place. -/
lemma permitsAt_of_insert {a : Access} {e : Entry} (h : (fs.insert loc e).permitsAt dir a)
    (other : dir ≠ loc) : fs.permitsAt dir a := by
  simpa [permitsAt, other, permits] using h

/-- Where names lead once a file is made they led before, if they start outside of it: nothing
leads on from a file. -/
theorem Leads.of_insert_file (h : Leads (fs.insert loc (.file mode content)) last links dir names
    slash p) (missing : fs.lookup loc = none) (outside : ¬ loc <+: dir) :
    Leads fs last links dir names slash p := by
  have other : ∀ {dir : Location}, ¬ loc <+: dir → dir ≠ loc := by
    rintro dir hdir rfl
    exact hdir List.prefix_rfl
  have visits : ∀ {dir name rest slash}, ¬ loc <+: dir →
      (fs.insert loc (.file mode content)).Visits last dir name rest slash →
      fs.Visits last dir name rest slash := by
    rintro dir name rest slash hdir ⟨search, hdot, hdotdot, made, short⟩
    exact ⟨permitsAt_of_insert search (other hdir), hdot, hdotdot, made, short⟩
  have kept : ∀ {l : Location} {e : Entry}, (∀ m c, e ≠ .file m c) →
      (fs.insert loc (.file mode content)).lookup l = some e → l ≠ loc ∧ fs.lookup l = some e := by
    intro l e he hl
    rw [lookup_insert] at hl
    split at hl
    · exact absurd (Option.some.inj hl).symm (he mode content)
    · rename_i hne
      exact ⟨hne, hl⟩
  have start : ∀ {dir : Location} (target : Bytes),
      ¬ loc <+: dir → ¬ loc <+: linkStart dir target := by
    intro dir target hdir
    unfold linkStart
    split
    · rw [List.prefix_nil]
      rintro rfl
      exact hdir (List.nil_prefix)
    · exact hdir
  induction h with
  | arrived => exact .arrived
  | dot search _ ih => exact .dot (permitsAt_of_insert search (other outside)) (ih outside)
  | dotdot search _ ih =>
    refine .dotdot (permitsAt_of_insert search (other outside)) (ih fun within => ?_)
    exact outside (within.trans (List.dropLast_prefix _))
  | @named links dir name slash hv stays =>
    refine .named (visits outside hv) fun target found => stays target ?_
    rw [lookup_insert, if_neg, found]
    rintro rfl
    simp [missing] at found
  | enter hv more found _ ih =>
    obtain ⟨hne, found⟩ := kept (by simp) found
    refine .enter (visits outside hv) more found (ih fun within => ?_)
    obtain heq | hprefix := List.prefix_concat_iff.mp within
    · exact hne heq.symm
    · exact outside hprefix
  | follow hv more found _ ih =>
    exact .follow (visits outside hv) more (kept (by simp) found).2 (ih (start _ outside))
  | followLast hv leaves found _ ih =>
    exact .followLast (visits outside hv) leaves (kept (by simp) found).2 (ih (start _ outside))

lemma permitsAt_of_erase {a : Access} (h : (fs.erase loc).permitsAt dir a) :
    fs.permitsAt dir a := by
  by_cases hd : dir = loc
  · simp [permitsAt, hd] at h
  · simpa [permitsAt, hd, permits] using h

/-- Where names lead once an entry is gone they led before, a link at the end being kept. -/
theorem Leads.of_erase (h : Leads (fs.erase loc) .keep links dir names slash p) :
    Leads fs .keep links dir names slash p := by
  have kept : ∀ {l : Location} {e : Entry}, (fs.erase loc).lookup l = some e →
      fs.lookup l = some e := by
    intro l e hl
    rw [lookup_erase] at hl
    split at hl
    · cases hl
    · exact hl
  have visits : ∀ {dir name rest slash}, (fs.erase loc).Visits .keep dir name rest slash →
      fs.Visits .keep dir name rest slash := by
    rintro dir name rest slash ⟨search, hdot, hdotdot, made, short⟩
    exact ⟨permitsAt_of_erase search, hdot, hdotdot, made, short⟩
  induction h with
  | arrived => exact .arrived
  | dot search _ ih => exact .dot (permitsAt_of_erase search) ih
  | dotdot search _ ih => exact .dotdot (permitsAt_of_erase search) ih
  | named hv _ => exact .named (visits hv) fun _ _ => rfl
  | enter hv more found _ ih => exact .enter (visits hv) more (kept found) ih
  | follow hv more found _ ih => exact .follow (visits hv) more (kept found) ih
  | followLast _ leaves => exact absurd rfl leaves

/-- Where the process works does not matter once a walk is under way. -/
theorem Leads.elsewhere (h : Leads fs last links dir names slash p) (place : Location) :
    Leads { fs with workingDirectory := place } last links dir names slash p := by
  have visits : ∀ {dir name rest slash}, fs.Visits last dir name rest slash →
      Visits { fs with workingDirectory := place } last dir name rest slash := by
    rintro dir name rest slash ⟨search, hdot, hdotdot, made, short⟩
    exact ⟨search, hdot, hdotdot, made, short⟩
  induction h with
  | arrived => exact .arrived
  | dot search _ ih => exact .dot search ih
  | dotdot search _ ih => exact .dotdot search ih
  | named hv stays => exact .named (visits hv) stays
  | enter hv more found _ ih => exact .enter (visits hv) more found ih
  | follow hv more found _ ih => exact .follow (visits hv) more found ih
  | followLast hv leaves found _ ih => exact .followLast (visits hv) leaves found ih

/-- A file to be made is looked for where an existing one is. -/
theorem Leads.follow_of_create (h : Leads fs .create links dir names slash p) :
    Leads fs .follow links dir names slash p := by
  have visits : ∀ {dir name rest slash}, fs.Visits .create dir name rest slash →
      fs.Visits .follow dir name rest slash := by
    rintro dir name rest slash ⟨search, hdot, hdotdot, -, short⟩
    exact ⟨search, hdot, hdotdot, by simp, short⟩
  induction h with
  | arrived => exact .arrived
  | dot search _ ih => exact .dot search ih
  | dotdot search _ ih => exact .dotdot search ih
  | named hv stays => exact .named (visits hv) fun target found => by simpa using stays target found
  | enter hv more found _ ih => exact .enter (visits hv) more found ih
  | follow hv more found _ ih => exact .follow (visits hv) more found ih
  | followLast hv _ found _ ih => exact .followLast (visits hv) (by simp) found ih

/-- A file to be made has no slash after its name. -/
theorem Leads.slash_of_create (h : Leads fs .create links dir names slash p)
    (hp : p.name.isSome) : p.slash = false := by
  induction h with
  | arrived => simp at hp
  | named hv _ => simpa using hv.not_made
  | dot _ _ ih | dotdot _ _ ih | enter _ _ _ _ ih | follow _ _ _ _ ih | followLast _ _ _ _ ih =>
    exact ih hp

/-- The links that are followed on the way do not matter for a slash at the end of a path. -/
theorem Leads.slash_of_keep (h : Leads fs .keep links dir names slash p) : p.slash = slash := by
  induction h with
  | arrived => rfl
  | named => rfl
  | dot _ _ ih | dotdot _ _ ih | enter _ _ _ _ ih | follow _ _ _ _ ih => exact ih
  | followLast _ leaves => exact absurd rfl leaves

/-- Names that lead somewhere with a link at the end followed lead to the same place or to that
link with it kept. -/
theorem Leads.keep_of_follow (h : Leads fs .follow links dir names slash p) :
    ∃ q, Leads fs .keep links dir names slash q ∧
      (q = p ∨ ∃ target, fs.lookup q.location = some (.link target)) := by
  have visits : ∀ {dir name rest slash}, fs.Visits .follow dir name rest slash →
      fs.Visits .keep dir name rest slash := by
    rintro dir name rest slash ⟨search, hdot, hdotdot, -, short⟩
    exact ⟨search, hdot, hdotdot, by simp, short⟩
  induction h with
  | arrived => exact ⟨_, .arrived, .inl rfl⟩
  | dot search _ ih =>
    obtain ⟨q, hq, hqp⟩ := ih
    exact ⟨q, .dot search hq, hqp⟩
  | dotdot search _ ih =>
    obtain ⟨q, hq, hqp⟩ := ih
    exact ⟨q, .dotdot search hq, hqp⟩
  | named hv _ => exact ⟨_, .named (visits hv) fun _ _ => rfl, .inl rfl⟩
  | enter hv more found _ ih =>
    obtain ⟨q, hq, hqp⟩ := ih
    exact ⟨q, .enter (visits hv) more found hq, hqp⟩
  | follow hv more found _ ih =>
    obtain ⟨q, hq, hqp⟩ := ih
    exact ⟨q, .follow (visits hv) more found hq, hqp⟩
  | followLast hv _ found _ _ =>
    exact ⟨_, .named (visits hv) fun _ _ => rfl, .inr ⟨_, by simpa [Place.location] using found⟩⟩

end RecordLog.FileSystem
