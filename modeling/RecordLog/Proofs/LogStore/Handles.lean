import RecordLog.LogStore.Handles
import RecordLog.Proofs.LogStore.LogAt

/-! Stores on several paths, used in any order. Each path has one log, which all stores on it share
and no act on another path touches; what it holds follows from the answers alone. -/
namespace RecordLog.LogStore
open FileSystem

namespace Handles

/-- What is known of stores on some paths, by what they have answered. -/
structure Sound (paths : List Bytes) (start : FileSystem) (s : Handles) : Prop where
  files : OnlyFiles paths start s.host.files
  stores : ∀ store ∈ s.made, store.path ∈ paths ∧ (recordsAt store.path s.history).isSome
  logs : ∀ path ∈ paths, ∀ records, recordsAt path s.history = some records →
    LogAt s.host.files path records.flatten

/-- The system refuses what an act needs: the file of the log to be opened for appending, or what is
there to be removed. A log can always be read. -/
def Refused (fs : FileSystem) (e : IoError) : Act → Prop
  | .create path => fs.Refuses path e
  | .call store (.append _) => fs.openAppend store.path = .error e
  | .call _ .readAll => False
  | .call store .remove => fs.Refuses store.path e

/-- The ways an act goes. -/
inductive Turn (s : Handles) : Act → Answer → Handles → Prop
  | failed {act e} (refused : Refused s.host.files e act) :
    Turn s act (.failed e) (s.note act (.failed e) s.host)
  | created {path h} (cleared : s.host.files.Cleared path h.files) (missing : h.files.Missing path)
    (only : OnlyFiles [path] s.host.files h.files) :
    Turn s (.create path) .done { s.note (.create path) .done h with made := ⟨path⟩ :: s.made }
  | appended {store record records h} (opened : ∃ o, s.host.files.openAppend store.path = .ok o)
    (before : recordsAt store.path s.history = some records)
    (after : LogAt h.files store.path (records ++ [record]).flatten)
    (only : OnlyFiles [store.path] s.host.files h.files) :
    Turn s (.call store (.append record)) .done (s.note (.call store (.append record)) .done h)
  | read {store records} (before : recordsAt store.path s.history = some records) :
    Turn s (.call store .readAll) (.content records.flatten)
      (s.note (.call store .readAll) (.content records.flatten) s.host)
  | removed {store h} (made : store ∈ s.made) (cleared : s.host.files.Cleared store.path h.files)
    (missing : h.files.Missing store.path)
    (only : OnlyFiles [store.path] s.host.files h.files) :
    Turn s (.call store .remove) .done (s.note (.call store .remove) .done h)

variable {paths : List Bytes} {start : FileSystem} {s s' : Handles} {act : Act} {answer : Answer}
  {path : Bytes}

lemma Refused.unique {fs : FileSystem} {e e' : IoError} (h : Refused fs e act)
    (h' : Refused fs e' act) : e = e' := by
  cases act with
  | create path => exact Except.error.inj (h.1.symm.trans h'.1)
  | call store c =>
    cases c with
    | append record => exact Except.error.inj (Eq.trans (Eq.symm h) h')
    | readAll => exact h.elim
    | remove => exact Except.error.inj (h.1.symm.trans h'.1)

lemma recordsAt_other (h : act.path ≠ path) (answer : Answer) (earlier : List (Act × Answer)) :
    recordsAt path ((act, answer) :: earlier) = recordsAt path earlier := by
  simp [recordsAt, h]

lemma recordsAt_failed (act : Act) (e : IoError) (earlier : List (Act × Answer)) :
    recordsAt path ((act, .failed e) :: earlier) = recordsAt path earlier := by
  simp [recordsAt]

lemma recordsAt_isSome {earlier : List (Act × Answer)} (h : (recordsAt path earlier).isSome)
    (act : Act) (answer : Answer) : (recordsAt path ((act, answer) :: earlier)).isSome := by
  unfold recordsAt
  dsimp only
  split
  · cases act with
    | create path => rfl
    | call store c => cases c <;> simpa using h
  · exact h

namespace Turn

theorem of_step (sound : Sound paths start s) (apart : start.Apart paths)
    (hpath : act.path ∈ paths) (h : s.step? act = some s') : ∃ answer, Turn s act answer s' := by
  cases act with
  | create path =>
    rw [step?] at h
    generalize hcreate : LogStore.create path s.host = result at h
    obtain ⟨made, h'⟩ := result
    obtain ⟨⟨e, rfl, refused⟩, rfl⟩ | ⟨rfl, cleared⟩ := create_cases hcreate
    · obtain rfl := Option.some.inj h
      exact ⟨_, .failed refused⟩
    · obtain rfl := Option.some.inj h
      obtain ⟨missing, only⟩ := cleared.missing sound.files apart hpath
      exact ⟨_, .created cleared missing only⟩
  | call store c =>
    rw [step?] at h
    split at h
    case isFalse => cases h
    rename_i hmade
    obtain ⟨records, before⟩ := Option.isSome_iff_exists.mp (sound.stores store hmade).2
    have held := sound.logs store.path hpath records before
    cases c with
    | append record =>
      rw [Call.on] at h
      generalize happend : store.append record s.host = result at h
      obtain ⟨added, h'⟩ := result
      obtain rfl := Option.some.inj h
      obtain ⟨⟨e, rfl, refused⟩, rfl⟩ | ⟨rfl, opened, after, only⟩ := held.append happend
      · exact ⟨_, .failed refused⟩
      · exact ⟨_, .appended opened before (by simpa using after) only⟩
    | readAll =>
      have hread : store.readAll s.host = .ok records.flatten := held.readAll
      rw [Call.on, hread] at h
      obtain rfl := Option.some.inj h
      exact ⟨_, .read before⟩
    | remove =>
      rw [Call.on] at h
      generalize hremove : store.remove s.host = result at h
      obtain ⟨removed, h'⟩ := result
      obtain rfl := Option.some.inj h
      obtain ⟨⟨e, rfl, refused⟩, rfl⟩ | ⟨rfl, cleared⟩ := remove_cases hremove
      · exact ⟨_, .failed refused⟩
      · obtain ⟨missing, only⟩ := cleared.missing sound.files apart hpath
        exact ⟨_, .removed hmade cleared missing only⟩

lemma only (turn : Turn s act answer s') : OnlyFiles [act.path] s.host.files s'.host.files := by
  cases turn with
  | failed | read => exact .refl _ _
  | created _ _ only | appended _ _ _ only | removed _ _ _ only => exact only

/-- An act fails just where the system refuses what it needs. -/
lemma failed_iff (turn : Turn s act answer s') (e : IoError) :
    answer = .failed e ↔ Refused s.host.files e act := by
  cases turn with
  | failed refused =>
    constructor
    · rintro ⟨⟩
      exact refused
    · intro h
      rw [refused.unique h]
  | created cleared => simp [Refused, cleared.not_refuses]
  | appended opened =>
    obtain ⟨o, hopen⟩ := opened
    simp [Refused, hopen]
  | read => simp [Refused]
  | removed made cleared => simp [Refused, cleared.not_refuses]

lemma noted (turn : Turn s act answer s') : s'.history = (act, answer) :: s.history := by
  cases turn <;> rfl

/-- The log at the path of an act holds after it what the answers say. -/
lemma log (turn : Turn s act answer s') (sound : Sound paths start s) (hpath : act.path ∈ paths)
    {records : List Bytes} (h : recordsAt act.path s'.history = some records) :
    LogAt s'.host.files act.path records.flatten := by
  rw [turn.noted] at h
  cases turn with
  | failed refused =>
    rw [recordsAt_failed] at h
    exact sound.logs _ hpath _ h
  | created cleared missing =>
    obtain rfl : [] = records := by simpa [recordsAt, Act.path] using h
    exact .missing missing
  | appended opened before after =>
    obtain rfl : _ ++ [_] = records := by simpa [recordsAt, Act.path, before] using h
    exact after
  | @read store old before =>
    have h' : recordsAt store.path s.history = some records := by
      simpa [recordsAt, Act.path] using h
    exact sound.logs _ hpath _ h'
  | removed made cleared missing =>
    obtain ⟨old, before⟩ := Option.isSome_iff_exists.mp (sound.stores _ made).2
    obtain rfl : [] = records := by simpa [recordsAt, Act.path, before] using h
    exact .missing missing

end Turn

lemma Sound.initial (paths : List Bytes) (h : Host) : Sound paths h.files { host := h } where
  files := .refl _ _
  stores := by simp
  logs := by simp [recordsAt]

/-- Every act keeps the logs what the answers say they are. -/
theorem Sound.step (sound : Sound paths start s) (apart : start.Apart paths)
    (hpath : act.path ∈ paths) (turn : Turn s act answer s') : Sound paths start s' where
  files := sound.files.trans apart hpath turn.only
  stores := by
    have kept : ∀ store ∈ s.made,
        store.path ∈ paths ∧ (recordsAt store.path s'.history).isSome := by
      intro store hmade
      obtain ⟨hin, hsome⟩ := sound.stores store hmade
      exact ⟨hin, turn.noted ▸ recordsAt_isSome hsome act answer⟩
    cases turn with
    | created cleared missing =>
      rw [List.forall_mem_cons]
      exact ⟨⟨hpath, by simp [note, recordsAt, Act.path]⟩, kept⟩
    | _ => exact kept
  logs := by
    intro path hin records h
    by_cases hother : act.path = path
    · subst hother
      exact turn.log sound hpath h
    · rw [turn.noted, recordsAt_other hother] at h
      have only := turn.only
      refine (sound.logs path hin records h).congr only.privileged (fun last => ?_) fun p hp => ?_
      · exact sound.files.locate_other apart hpath only hin last
      · exact sound.files.lookup_other apart hpath only hin (Ne.symm hother) hp

theorem Sound.run {acts : List Act} (sound : Sound paths start s) (apart : start.Apart paths)
    (within : ∀ act ∈ acts, act.path ∈ paths) (h : s.run? acts = some s') :
    Sound paths start s' := by
  induction acts generalizing s with
  | nil =>
    obtain rfl := Option.some.inj h
    exact sound
  | cons act acts ih =>
    rw [run?, List.foldlM_cons] at h
    obtain ⟨next, hstep, hrest⟩ := Option.bind_eq_some_iff.mp h
    rw [List.forall_mem_cons] at within
    obtain ⟨answer, turn⟩ := Turn.of_step sound apart within.1 hstep
    exact ih (sound.step apart within.1 turn) within.2 hrest

/-- An act makes a store, or uses one that was made. -/
def Allows (s : Handles) : Act → Prop
  | .create _ => True
  | .call store _ => store ∈ s.made

lemma Allows.step (h : s.Allows act) : ∃ s', s.step? act = some s' := by
  cases act with
  | create path =>
    rw [step?]
    split <;> exact ⟨_, rfl⟩
  | call store c =>
    rw [step?, if_pos (by exact h)]
    exact ⟨_, rfl⟩

/-- What an act that is answered so does, and what it leaves alone. -/
structure Effect (paths : List Bytes) (s : Handles) (act : Act) (answer : Answer) (s' : Handles) :
    Prop where
  noted : s'.history = (act, answer) :: s.history
  /-- An act fails just where the system refuses what it needs, and then changes nothing. -/
  refused : ∀ e, answer = .failed e ↔ Refused s.host.files e act
  failed : ∀ e, answer = .failed e → s'.host = s.host ∧ s'.made = s.made
  /-- A store is made where nothing is left of what was there. -/
  discards : ∀ path, act = .create path → answer = .done →
    s'.made = ⟨path⟩ :: s.made ∧ s'.host.files.entryAt path = none
  reads : ∀ store, act = .call store .readAll → s'.host = s.host ∧
    (recordsAt store.path s.history).map (.content ·.flatten) = some answer
  /-- Removing once more goes through and changes nothing. -/
  again : ∀ store, act = .call store .remove → answer = .done →
    s'.step? act = some (s'.note act .done s'.host)
  /-- Nothing changes but the file at the path of the act. -/
  elsewhere : ∀ loc, s.host.files.site? act.path ≠ some loc →
    s'.host.files.lookup loc = s.host.files.lookup loc
  others : ∀ path ∈ paths, path ≠ act.path →
    s'.host.files.entryAt path = s.host.files.entryAt path

lemma Turn.effect (turn : Turn s act answer s') (sound : Sound paths start s)
    (apart : start.Apart paths) (hpath : act.path ∈ paths) : Effect paths s act answer s' where
  noted := turn.noted
  refused := turn.failed_iff
  failed := by
    rintro e rfl
    cases turn
    exact ⟨rfl, rfl⟩
  discards := by
    rintro path rfl rfl
    cases turn with
    | created cleared missing => exact ⟨rfl, missing.entryAt⟩
  reads := by
    rintro store rfl
    cases turn with
    | failed refused => exact refused.elim
    | read before => exact ⟨rfl, by rw [before]; rfl⟩
  again := by
    rintro store rfl rfl
    cases turn with
    | removed made cleared missing =>
      rw [step?, if_pos (by exact made), Call.on, remove_missing (by exact missing)]
      rfl
  elsewhere loc hloc := turn.only.elsewhere loc (List.forall_mem_singleton.mpr hloc)
  others path hin hne := by
    rw [entryAt, entryAt, sound.files.find_other apart hpath turn.only hin hne]

/-- Whatever acts went before, the log at each path holds just the records that were added to it
since a store was last made there or the log last removed, through whichever store; all stores read
just that. The next act, whatever it is, is answered; it touches no other path, and nothing at all
if it fails. -/
theorem logs_by_path {start : Host} {acts : List Act} (apart : start.files.Apart paths)
    (within : ∀ act ∈ acts, act.path ∈ paths) (h : run? { host := start } acts = some s) :
    (∀ store ∈ s.made, ∃ records, recordsAt store.path s.history = some records ∧
      s.host.files.contentAt store.path = some records.flatten ∧
        store.readAll s.host = .ok records.flatten) ∧
    ∀ act, act.path ∈ paths → s.Allows act →
      ∃ answer s', s.step? act = some s' ∧ Effect paths s act answer s' := by
  have sound := (Sound.initial paths start).run apart within h
  constructor
  · intro store hmade
    obtain ⟨hin, hsome⟩ := sound.stores store hmade
    obtain ⟨records, hrecords⟩ := Option.isSome_iff_exists.mp hsome
    have held := sound.logs store.path hin records hrecords
    exact ⟨records, hrecords, held.contentAt, held.readAll⟩
  · intro act hpath allowed
    obtain ⟨s', hstep⟩ := allowed.step
    obtain ⟨answer, turn⟩ := Turn.of_step sound apart hpath hstep
    exact ⟨answer, s', hstep, turn.effect sound apart hpath⟩

/-- Two stores on one path, where a file was left, one on a second path, and a directory in the
way of another. -/
theorem logs_by_path_shared :
    let files : FileSystem := {
      entries := [([], .directory newDirectoryMode), ([[97]], .file 0o600 [1]),
        ([[100]], .directory newDirectoryMode)]
      workingDirectory := [] }
    let paths : List Bytes := [[97], [98], [100]]
    let acts : List Act := [.create [97], .create [97], .create [98], .create [100],
      .call ⟨[97]⟩ (.append [1, 2]), .call ⟨[98]⟩ (.append [3]), .call ⟨[97]⟩ .remove,
      .call ⟨[97]⟩ (.append [4]), .call ⟨[97]⟩ (.append [5])]
    files.Apart paths ∧ (∀ act ∈ acts, act.path ∈ paths) ∧
      ∃ s, run? { host := { files } } acts = some s ∧
        s.made = [⟨[98]⟩, ⟨[97]⟩, ⟨[97]⟩] ∧
        (⟨[97]⟩ : LogStore).readAll s.host = .ok [4, 5] ∧
        (⟨[98]⟩ : LogStore).readAll s.host = .ok [3] ∧
        ∃ s', s.step? (.call ⟨[97]⟩ .remove) = some s' ∧
          s'.host.files.entryAt [98] = s.host.files.entryAt [98] := by
  intro files paths acts
  have apart : files.Apart paths := by
    have sites : paths.map files.site? = [some [[97]], some [[98]], none] := by decide +kernel
    have entries : paths.map files.entryAt =
        [some (.file 0o600 [1]), none, some (.directory newDirectoryMode)] := by decide +kernel
    have ways : paths.map files.wayTo = [[[]], [[]], [[]]] := by
      have names : (paths.map fun path => (Path.ofBytes path).names) =
          [[[97]], [[98]], [[100]]] := by decide +kernel
      simp only [paths, List.map_cons, List.map_nil, List.cons.injEq, and_true] at names
      simp [paths, wayTo, trail, names, files, Path.dot, Path.dotdot]
    simp only [paths, List.map_cons, List.map_nil, List.cons.injEq, and_true] at sites entries ways
    constructor <;> simp [paths, sites, entries, ways, Entry.isDirectory, Entry.IsFile]
  have within : ∀ act ∈ acts, act.path ∈ paths := by decide
  have hrun : ((run? { host := { files } } acts).map fun s =>
      (s.made, recordsAt [97] s.history, recordsAt [98] s.history)) =
        some ([⟨[98]⟩, ⟨[97]⟩, ⟨[97]⟩], some [[4], [5]], some [[3]]) := by
    decide +kernel
  obtain ⟨s, h, hs⟩ := Option.map_eq_some_iff.mp hrun
  obtain ⟨hmade, hfirst, hsecond⟩ : s.made = _ ∧ recordsAt [97] s.history = _ ∧
    recordsAt [98] s.history = _ := by simpa using hs
  obtain ⟨logs, next⟩ := logs_by_path apart within h
  have reads : ∀ path records, ⟨path⟩ ∈ s.made → recordsAt path s.history = some records →
      (⟨path⟩ : LogStore).readAll s.host = .ok records.flatten := by
    intro path records hin hrecords
    obtain ⟨found, hfound, -, hread⟩ := logs ⟨path⟩ hin
    obtain rfl : records = found := Option.some.inj (hrecords.symm.trans hfound)
    exact hread
  obtain ⟨_, s', hstep, effect⟩ := next (.call ⟨[97]⟩ .remove) (by decide) (by simp [Allows, hmade])
  exact ⟨apart, within, s, h, hmade, reads _ _ (by simp [hmade]) hfirst,
    reads _ _ (by simp [hmade]) hsecond, s', hstep, effect.others [98] (by decide) (by decide)⟩

end Handles

end RecordLog.LogStore
