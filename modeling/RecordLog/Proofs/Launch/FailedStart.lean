import RecordLog.Launch
import RecordLog.Proofs.Launch.Attempt
import RecordLog.Proofs.LogStore.Content
import RecordLog.Proofs.LogStore.Removal
import RecordLog.Proofs.Results

/-! Starts that fail before there is a server. They leave whatever is where the log would be, and
start no thread. -/
namespace RecordLog

namespace FileSystem

lemma absolute_rooted (base : Location) (path : Bytes) :
    (Path.ofBytes (base.absolute path)).absolute = true := by
  change decide ((base.absolute path).head? = some Bytes.slash) = true
  rw [decide_eq_true_eq]
  unfold Location.absolute
  dsimp only
  split <;> rfl

section
variable {fs fs' : FileSystem} {last : LastLink} {path content : Bytes} {p : Place} {loc : Location}
  {mode : Mode}

/-- Where a path from the root leads does not depend on where the process works. -/
lemma Finds.elsewhere (h : fs.Finds last path p) (rooted : (Path.ofBytes path).absolute = true)
    (place : Location) : Finds { fs with workingDirectory := place } last path p := by
  refine ⟨h.clean, h.short, h.nonempty, ?_⟩
  have hleads := h.leads.elsewhere place
  rw [if_pos rooted] at hleads ⊢
  exact hleads

lemma Finds.of_insert_file (h : (fs.insert loc (.file mode content)).Finds last path p)
    (rooted : (Path.ofBytes path).absolute = true) (missing : fs.lookup loc = none)
    (below : loc ≠ []) : fs.Finds last path p := by
  refine ⟨h.clean, h.short, h.nonempty, ?_⟩
  have hleads := h.leads
  rw [if_pos rooted] at hleads ⊢
  exact hleads.of_insert_file missing fun root => below (List.prefix_nil.mp root)

/-- The same entries are at the same paths from the root. -/
lemma entryAt_congr (entries : fs'.entries = fs.entries)
    (privileged : fs'.privileged = fs.privileged)
    (rooted : (Path.ofBytes path).absolute = true) : fs'.entryAt path = fs.entryAt path := by
  have elsewhere : ∀ {fs fs' : FileSystem}, fs'.entries = fs.entries →
      fs'.privileged = fs.privileged →
        ∀ e, fs.entryAt path = some e → fs'.entryAt path = some e := by
    rintro fs ⟨_, place, _⟩ rfl rfl e he
    obtain ⟨p, hp, he⟩ := entryAt_eq_some.mp he
    exact entryAt_eq_some.mpr ⟨p, hp.elsewhere rooted place, he⟩
  apply Option.ext
  intro e
  exact ⟨elsewhere entries.symm privileged.symm e, elsewhere entries privileged e⟩

/-- A new file is at no path from the root but those that lead to it. -/
lemma entryAt_insert_file (missing : fs.lookup loc = none) (below : loc ≠ [])
    (rooted : (Path.ofBytes path).absolute = true)
    (apart : ∀ q, fs.Finds .keep path q → loc ≠ q.location) :
    (fs.insert loc (.file mode content)).entryAt path = fs.entryAt path := by
  apply Option.ext
  intro e
  rw [entryAt_eq_some, entryAt_eq_some]
  constructor
  · rintro ⟨p, hp, he⟩
    have hp' := hp.of_insert_file rooted missing below
    rw [lookup_insert, if_neg (apart p hp').symm] at he
    exact ⟨p, hp', he⟩
  · rintro ⟨p, hp, he⟩
    refine ⟨p, hp.insert_file (.inl missing), ?_⟩
    rw [lookup_insert, if_neg (apart p hp).symm, he]

end

/-- Only below the root can a file be made. -/
lemma below_of_made {fs : FileSystem} {p : Place} (missing : fs.lookup p.location = none)
    (may : fs.mayChange p.directory) : p.location ≠ [] := by
  intro root
  have hdir : p.directory = [] := (List.append_eq_nil_iff.mp root).1
  rw [root] at missing
  simp [mayChange, permitsAt, hdir, missing] at may

end FileSystem

/-- There is no second listener on an address. -/
lemma Network.openListener_taken {n : Network} {listen : String} {backlog : Int}
    {asked : SocketAddress} {x : SocketAddress × Network}
    (parsed : SocketAddress.parse? listen = some asked) (port : asked.port ≠ 0)
    (held : n.held.any asked.conflicts = true) : n.openListener listen backlog ≠ .ok x := by
  obtain ⟨e, hbind⟩ : ∃ e, n.bind asked = .error e := by
    rw [Network.bind, if_neg port, if_pos held]
    split
    · exact ⟨_, rfl⟩
    · exact ⟨_, rfl⟩
  intro h
  simp only [Network.openListener, parsed, hbind, mapError_error, Bind.bind, Except.bind] at h
  split at h
  · cases h
  · split at h
    · cases h
    · split at h <;> cases h

namespace Launch

lemma daemonize_keeps : daemonize.Keeps := by
  unfold daemonize
  refine .bind (.permit _ _) fun _ => .bind .get fun _ => .bind (.report _) fun _ =>
    .bind (.modify ?forked) fun _ => .bind (.permit _ _) fun _ => .bind (.modify ?leads) fun _ =>
    .bind (.permit _ _) fun _ => .bind (.modify ?moves) fun _ => .bind (.permit _ _) fun _ =>
    .bind (.permit _ _) fun _ => .modify ?redirected
  all_goals exact fun _ => ⟨rfl, rfl, rfl⟩

lemma run_openListener (s : Settings) (m : Machine) : (openListener s).run m =
    match m.network.openListener s.listen s.backlog with
    | .ok (address, network) => (.ok address, { m with network })
    | .error e => (.error (.server e), m) := by
  rw [openListener, Attempt.run_bind, Attempt.run_get]
  dsimp only
  rw [Attempt.run_bind, Attempt.run_check]
  cases m.network.openListener s.listen s.backlog <;> rfl

lemma openListener_keeps (s : Settings) : (openListener s).Keeps := by
  intro m
  rw [run_openListener]
  split
  · exact ⟨rfl, rfl, rfl⟩
  · exact .refl m

/-- Making a path absolute only looks at the machine. There has to be a path, and a relative one
needs the place where the process works. -/
lemma absolute_cases {path : Bytes} {m m' : Machine} {r : Except Failure Bytes}
    (h : (absolute path).run m = (r, m')) : m' = m ∧
      ((∃ e, r = .error (.system e) ∧ ¬ (path ≠ [] ∧
          (path.head? ≠ some Bytes.slash → m.refuses .workingDirectory = none))) ∨
        r = .ok (Location.absolute m.host.files.workingDirectory path) ∧ path ≠ [] ∧
          (path.head? ≠ some Bytes.slash → m.refuses .workingDirectory = none)) := by
  unfold absolute at h
  by_cases empty : path = []
  · subst empty
    obtain ⟨rfl, rfl⟩ := Prod.mk.inj h
    exact ⟨rfl, .inl ⟨_, rfl, fun both => both.1 rfl⟩⟩
  rw [if_neg (by simpa using empty)] at h
  dsimp only at h
  by_cases rooted : path.head? = some Bytes.slash
  · rw [if_neg (Decidable.not_not.mpr rooted)] at h
    obtain ⟨rfl, rfl⟩ := Prod.mk.inj h
    exact ⟨rfl, .inr ⟨rfl, empty, fun relative => absurd rooted relative⟩⟩
  rw [if_pos rooted] at h
  obtain ⟨cause, refused, rfl, rfl⟩ | ⟨permitted, h⟩ := Attempt.of_run_permit_bind h
  · refine ⟨rfl, .inl ⟨_, rfl, fun both => ?_⟩⟩
    cases refused.symm.trans (both.2 rooted)
  · obtain ⟨rfl, rfl⟩ := Prod.mk.inj h
    exact ⟨rfl, .inr ⟨rfl, empty, fun _ => permitted⟩⟩

lemma absolute_keeps (path : Bytes) : (absolute path).Keeps := by
  intro m
  rw [(absolute_cases (Prod.eta ((absolute path).run m)).symm).1]
  exact .refl m

lemma settle_keeps (s : Settings) : (settle s).Keeps := by
  unfold settle
  refine .bind (.permit _ _) fun _ => .bind (absolute_keeps _) fun d => .bind (.report _) fun _ =>
    .bind (openListener_keeps s) fun a => ?_
  split
  · exact .bind daemonize_keeps fun _ => .pure _
  · exact .pure _

/-- What is settled is the path of the log seen from where the process was started, and an address
that the network gave. -/
lemma settle_eq_ok {s : Settings} {m m' : Machine} {a : SocketAddress} {d : Bytes}
    (h : (settle s).run m = (.ok (a, d), m')) :
    d = Location.absolute m.host.files.workingDirectory s.dataFile ∧
      ∃ network, m.network.openListener s.listen s.backlog = .ok (a, network) := by
  unfold settle at h
  obtain ⟨_, m₁, hpermit, h⟩ := Attempt.of_run_bind_ok h
  rw [Attempt.run_permit] at hpermit
  obtain ⟨-, rfl⟩ := Prod.mk.inj hpermit
  obtain ⟨path, m₂, hpath, h⟩ := Attempt.of_run_bind_ok h
  obtain ⟨same, ⟨e, failed, -⟩ | ⟨habsolute, -⟩⟩ := absolute_cases hpath
  · cases failed
  rw [same] at h
  obtain ⟨_, m₃, hreport, h⟩ := Attempt.of_run_bind_ok h
  obtain ⟨-, rfl⟩ := Prod.mk.inj ((Attempt.run_report _ _).symm.trans hreport)
  obtain ⟨address, m₄, hlisten, h⟩ := Attempt.of_run_bind_ok h
  have hsame : address = a ∧ path = d := by
    split at h
    · obtain ⟨_, m₅, -, h⟩ := Attempt.of_run_bind_ok h
      simpa using congrArg Prod.fst h
    · simpa using congrArg Prod.fst h
  obtain ⟨rfl, rfl⟩ := hsame
  refine ⟨Except.ok.inj habsolute, ?_⟩
  rw [run_openListener] at hlisten
  split at hlisten
  · rename_i address' network hopen
    obtain rfl : address' = address := Except.ok.inj (Prod.mk.inj hlisten).1
    exact ⟨network, hopen⟩
  · cases hlisten

lemma run_openDiagnostics (s : Settings) (m : Machine) : (openDiagnostics s).run m =
    match LogFilter.choose m.environment s.logLevel with
    | .error _ => (.error .panic, m)
    | .ok filter =>
      match s.logFile with
      | none => (.ok (), { m with filter })
      | some path =>
        match m.host.files.openAppend path with
        | .error e => (.error (.system e), { m with filter })
        | .ok (_, files) =>
          (.ok (), { m with filter, host.files := files, diagnostics := some path }) := by
  unfold openDiagnostics
  rw [Attempt.run_bind, Attempt.run_get]
  dsimp only
  rw [Attempt.run_bind, Attempt.run_check]
  cases LogFilter.choose m.environment s.logLevel with
  | error e => rfl
  | ok filter =>
    rw [mapError_ok]
    dsimp only
    rw [Attempt.run_bind, Attempt.run_modify]
    cases s.logFile with
    | none => rfl
    | some path =>
      dsimp only
      rw [Attempt.run_bind, Attempt.run_get]
      dsimp only
      rw [Attempt.run_bind, Attempt.run_check]
      cases m.host.files.openAppend path <;> rfl

/-- Opening the file for the diagnostics is all that happens to the files. -/
lemma openDiagnostics_leaves {s : Settings} {m m' : Machine} {r : Except Failure Unit}
    (h : (openDiagnostics s).run m = (r, m')) : m'.network = m.network ∧
      m'.process.threads = m.process.threads ∧ (m'.host.files = m.host.files ∨
        ∃ path loc, s.logFile = some path ∧
          m.host.files.openAppend path = .ok (loc, m'.host.files)) := by
  rw [run_openDiagnostics] at h
  split at h
  · cases h
    exact ⟨rfl, rfl, .inl rfl⟩
  split at h
  · cases h
    exact ⟨rfl, rfl, .inl rfl⟩
  · rename_i path hpath
    split at h
    · cases h
      exact ⟨rfl, rfl, .inl rfl⟩
    · rename_i opened
      cases h
      exact ⟨rfl, rfl, .inr ⟨path, _, hpath, opened⟩⟩

end Launch

/-- The diagnostics have no file, or one in another place than the log. -/
def Settings.Apart (s : Settings) (fs : FileSystem) : Prop :=
  ∀ path ∈ s.logFile, ∀ p q, fs.Finds .create path p →
    fs.Finds .keep (Location.absolute fs.workingDirectory s.dataFile) q → p.location ≠ q.location

namespace Launch

variable {args : List Bytes} {m m' : Machine} {f : Failure}

lemma run_loadSettings (args : List Bytes) (m : Machine) : (loadSettings args).run m =
    ((Settings.load args m.host.files).mapError .settings, m) := by
  rw [loadSettings, Attempt.run_bind, Attempt.run_get]
  exact Attempt.run_check _ _ m

/-- A server is started on what was prepared, and a start that cannot prepare it ends there. -/
lemma run_of_prepare (h : (prepare args).run m = (.error f, m')) : run args m = ⟨.error f, m'⟩ := by
  unfold run start
  rw [Attempt.run_bind, h]

/-- A store that cannot be made leaves everything as it is. -/
lemma createStore_leaves {path : Bytes} (h : (createStore path).run m = (.error f, m')) :
    m' = m := by
  unfold createStore at h
  rw [Attempt.run_bind, Attempt.run_get] at h
  dsimp only at h
  rw [Attempt.run_bind, Attempt.run_set] at h
  dsimp only at h
  rw [Attempt.run_check] at h
  obtain ⟨hfailed, rfl⟩ := Prod.mk.inj h
  cases hcreate : LogStore.create path m.host with
  | mk store host =>
    rw [hcreate] at hfailed
    cases store with
    | ok store => cases hfailed
    | error e => rw [LogStore.create_failed hcreate]

/-- What a start that cannot prepare a server has done to the files: it has made one for the
diagnostics at most. -/
theorem prepare_leaves (h : (prepare args).run m = (.error f, m')) :
    m'.process.threads = m.process.threads ∧
      m'.host.files.privileged = m.host.files.privileged ∧
      (m'.host.files.entries = m.host.files.entries ∨ ∃ s path p,
        Settings.load args m.host.files = .ok s ∧ s.logFile = some path ∧
        m.host.files.Finds .create path p ∧ m.host.files.lookup p.location = none ∧
        p.location ≠ [] ∧ m'.host.files.entries =
          (m.host.files.insert p.location (.file FileSystem.newFileMode [])).entries) := by
  unfold prepare at h
  obtain hload | ⟨s, m₁, hload, h⟩ := Attempt.of_run_bind_error h
  · rw [run_loadSettings] at hload
    obtain ⟨-, rfl⟩ := Prod.mk.inj hload
    exact ⟨rfl, rfl, .inl rfl⟩
  rw [run_loadSettings] at hload
  obtain ⟨loaded, rfl⟩ := Prod.mk.inj hload
  have hs := mapError_eq_ok.mp loaded
  -- After the diagnostics nothing more happens to the files and the threads.
  obtain ⟨m₂, r, hopen, keeps⟩ : ∃ m₂ r, (openDiagnostics s).run m = (r, m₂) ∧ m₂.Keeps m' := by
    obtain hopen | ⟨_, m₂, hopen, h⟩ := Attempt.of_run_bind_error h
    · exact ⟨m', _, hopen, .refl m'⟩
    refine ⟨m₂, _, hopen, ?_⟩
    have settled := settle_keeps s m₂
    obtain hsettle | ⟨⟨a, d⟩, m₃, hsettle, h⟩ := Attempt.of_run_bind_error h
    · rwa [hsettle] at settled
    rw [hsettle] at settled
    obtain hcreate | ⟨store, m₄, -, h⟩ := Attempt.of_run_bind_error h
    · rwa [createStore_leaves hcreate]
    · cases h
  obtain ⟨-, hthreads, hfiles⟩ := openDiagnostics_leaves hopen
  refine ⟨keeps.threads.trans hthreads, ?_⟩
  rw [keeps.privileged, keeps.entries]
  obtain hsame | ⟨path, loc, hpath, hopened⟩ := hfiles
  · rw [hsame]
    exact ⟨rfl, .inl rfl⟩
  obtain ⟨p, hp, -, ⟨missing, may, hmade⟩ | ⟨e, -, -, hsame⟩⟩ := FileSystem.openAppend_cases hopened
  · rw [hmade]
    have below := FileSystem.below_of_made missing may
    exact ⟨rfl, .inr ⟨s, path, p, hs, hpath, hp, missing, below, rfl⟩⟩
  · rw [hsame]
    exact ⟨rfl, .inl rfl⟩

/-- A start that fails before there is a server leaves whatever is where the log would be, and has
started no thread. No entry of the file system has changed but that of the file for the
diagnostics, which is another. And a start always fails so if another listener has its address. -/
theorem failed_start_keeps_log
    (apart : ∀ s, Settings.load args m.host.files = .ok s → s.Apart m.host.files) :
    (∀ f m', (prepare args).run m = (.error f, m') →
      run args m = ⟨.error f, m'⟩ ∧ m'.process.threads = m.process.threads ∧
      (∀ s, Settings.load args m.host.files = .ok s →
        let path := Location.absolute m.host.files.workingDirectory s.dataFile
        m'.host.files.entryAt path = m.host.files.entryAt path) ∧
      ∀ loc, (∀ s path p, Settings.load args m.host.files = .ok s → s.logFile = some path →
          m.host.files.Finds .create path p → p.location ≠ loc) →
        m'.host.files.lookup loc = m.host.files.lookup loc) ∧
    ∀ s asked, Settings.load args m.host.files = .ok s →
      SocketAddress.parse? s.listen = some asked → asked.port ≠ 0 →
      m.network.held.any asked.conflicts = true →
      ∃ f m', (prepare args).run m = (.error f, m') := by
  refine ⟨fun f m' h => ?_, fun s asked hs hasked hport held => ?_⟩
  · obtain ⟨threads, privileged, same | ⟨s, path, p, hs, hpath, hp, missing, below, made⟩⟩ :=
      prepare_leaves h
    · refine ⟨run_of_prepare h, threads, fun s _ => ?_, fun loc _ => ?_⟩
      · exact FileSystem.entryAt_congr same privileged (FileSystem.absolute_rooted _ _)
      · simp only [FileSystem.lookup, same]
    · refine ⟨run_of_prepare h, threads, fun s' hs' => ?_, fun loc elsewhere => ?_⟩
      · obtain rfl : s = s' := Except.ok.inj (hs.symm.trans hs')
        have rooted := FileSystem.absolute_rooted m.host.files.workingDirectory s.dataFile
        refine (FileSystem.entryAt_congr made privileged rooted).trans ?_
        exact FileSystem.entryAt_insert_file missing below rooted fun q =>
          apart s hs path hpath p q hp
      · have hne : loc ≠ p.location := (elsewhere s path p hs hpath hp).symm
        have hlookup := FileSystem.lookup_insert m.host.files p.location loc
          (.file FileSystem.newFileMode [])
        rw [if_neg hne] at hlookup
        simpa only [FileSystem.lookup, made] using hlookup
  · cases hrun : (prepare args).run m with
    | mk r m' =>
      cases r with
      | error f => exact ⟨f, m', rfl⟩
      | ok ready =>
        obtain ⟨s', m₁, hload, h⟩ := Attempt.of_run_bind_ok hrun
        rw [run_loadSettings, hs] at hload
        obtain ⟨hsame, rfl⟩ := Prod.mk.inj hload
        obtain rfl : s = s' := Except.ok.inj hsame
        obtain ⟨_, m₂, hopen, h⟩ := Attempt.of_run_bind_ok h
        obtain ⟨⟨a, d⟩, m₃, hsettle, -⟩ := Attempt.of_run_bind_ok h
        obtain ⟨-, network, hlisten⟩ := settle_eq_ok hsettle
        rw [(openDiagnostics_leaves hopen).1] at hlisten
        exact (Network.openListener_taken hasked hport held hlisten).elim

/-- A second start beside one that has the address, its diagnostics in a file next to the log. -/
theorem failed_start_keeps_log_second :
    let text := Bytes.ofString
    let args := ["-l", "127.0.0.1:9000", "-f", "/tmp/log", "--log-file", "/tmp/diag"].map text
    let log : Location := [text "tmp", text "log"]
    let first := SocketAddress.v4 ⟨127, 0, 0, 1⟩ 9000
    let m : Machine := {
      host := { files := (FileSystem.fresh [text "tmp"]).insert log (.file 0o644 (text "a\n")) }
      network := { held := [first] } }
    ∃ f m', (prepare args).run m = (.error f, m') ∧ run args m = ⟨.error f, m'⟩ ∧
      m'.process.threads = [] ∧ m'.host.files.lookup log = some (.file 0o644 (text "a\n")) ∧
      m'.host.files.entryAt (text "/tmp/log") = m.host.files.entryAt (text "/tmp/log") := by
  intro text args log first m
  have hload : (Settings.load args m.host.files).toOption = some {
      listen := "127.0.0.1:9000", backlog := 10, dataFile := text "/tmp/log", interval := 10,
      daemon := false, logLevel := "info", logFile := some (text "/tmp/diag") } := by
    decide +kernel
  generalize hs : Settings.load args m.host.files = loaded at hload
  obtain _ | s := loaded
  · cases hload
  obtain rfl := Option.some.inj hload
  have rooted : Location.absolute m.host.files.workingDirectory (text "/tmp/log") =
      text "/tmp/log" := by
    decide +kernel
  let files := [(text "/tmp/log", text "log"), (text "/tmp/diag", text "diag")]
  have finds : ∀ last, ∀ file ∈ files,
      m.host.files.Finds last file.1 ⟨[text "tmp"], some file.2, false⟩ := by
    intro last file hfile
    obtain ⟨hpath, clean, short, nonempty, hdot, hdotdot, hshort, hmode⟩ :=
      (by decide +kernel : ∀ file ∈ files,
        Path.ofBytes file.1 = ⟨true, [text "tmp", file.2], false⟩ ∧
          file.1.contains Bytes.nul = false ∧ file.1.length ≤ Path.maxLength ∧ file.1 ≠ [] ∧
          file.2 ≠ Path.dot ∧ file.2 ≠ Path.dotdot ∧ file.2.length ≤ Path.maxName ∧
          (m.host.files.lookup [text "tmp", file.2]).map Entry.mode ≠ some 0o777) file hfile
    have hdir : m.host.files.lookup [text "tmp"] =
        some (.directory FileSystem.newDirectoryMode) := by
      decide +kernel
    refine ⟨clean, short, nonempty, ?_⟩
    rw [hpath, if_pos rfl]
    refine .enter ⟨by decide +kernel, by decide +kernel, by decide +kernel, by simp,
      by decide +kernel⟩ (by simp) hdir ?_
    refine .named ⟨by decide +kernel, hdot, hdotdot, by simp, hshort⟩ fun target hlink => ?_
    exact (hmode (congrArg (Option.map Entry.mode) hlink)).elim
  have apart : ∀ s, Settings.load args m.host.files = .ok s → s.Apart m.host.files := by
    intro s' hs'
    obtain rfl := Except.ok.inj (hs.symm.trans hs')
    rintro path hpath p q hp hq
    obtain rfl := Option.some.inj hpath
    rw [rooted] at hq
    obtain rfl := hp.unique (finds .create (text "/tmp/diag", text "diag") (by simp [files]))
    obtain rfl := hq.unique (finds .keep (text "/tmp/log", text "log") (by simp [files]))
    decide +kernel
  obtain ⟨kept, taken⟩ := failed_start_keeps_log apart
  obtain ⟨f, m', h⟩ := taken _ first hs (by decide +kernel) (by decide) (by decide)
  obtain ⟨hrun, hthreads, hpath, hlookup⟩ := kept f m' h
  refine ⟨f, m', h, hrun, hthreads, ?_, rooted ▸ hpath _ hs⟩
  rw [hlookup log fun s' path p hs' hfile hp => ?_]
  · decide +kernel
  · obtain rfl := Except.ok.inj (hs.symm.trans hs')
    obtain rfl := Option.some.inj hfile
    obtain rfl := hp.unique (finds .create (text "/tmp/diag", text "diag") (by simp [files]))
    decide +kernel

end Launch

end RecordLog
