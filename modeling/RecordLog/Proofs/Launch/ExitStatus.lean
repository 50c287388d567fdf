import RecordLog.Proofs.Launch.FailedStart
import RecordLog.Proofs.Launch.ServerStart

/-! What the process that was started shows of a start that fails. Up to the fork it is the process
at work, and its status is the failure's. From the fork on its status is that of a success, and the
daemon alone has the failure's. -/
namespace RecordLog

/-- The calls and the time are as they were, which is all that the rest of a start asks of what it
does not change itself. -/
structure Machine.Steady (m m' : Machine) : Prop where
  refuses : m'.refuses = m.refuses
  clock : m'.clock = m.clock
  threads : m'.process.threads = m.process.threads

lemma Machine.Steady.trans {m m₁ m₂ : Machine} (h : m.Steady m₁) (h' : m₁.Steady m₂) :
    m.Steady m₂ :=
  ⟨h'.refuses.trans h.refuses, h'.clock.trans h.clock, h'.threads.trans h.threads⟩

/-- The root is never removed. -/
lemma FileSystem.refuses_root (fs : FileSystem) : fs.Refuses [Bytes.slash] .isDirectory := by
  have hpath : Path.ofBytes [Bytes.slash] = ⟨true, [], true⟩ := by decide +kernel
  have finds : fs.Finds .keep [Bytes.slash] ⟨[], none, true⟩ := by
    refine ⟨by decide, by decide, by simp, ?_⟩
    rw [hpath]
    exact .arrived
  have hfind := find_eq_ok_iff.mpr ⟨finds, rfl⟩
  refine ⟨?_, by decide⟩
  simp [unlink, hfind, bind, Except.bind]

/-- The default level makes sense. -/
lemma LogFilter.choose_plain : ∃ filter, choose none Settings.plainLevel = .ok filter := by
  have hpieces : pieces Settings.plainLevel = [Settings.plainLevel] := by decide +kernel
  have hparse : (Directive.parse Settings.plainLevel).toOption.isSome := by decide +kernel
  obtain ⟨d, hparse⟩ := Option.isSome_iff_exists.mp hparse
  change ∃ filter, lenient Settings.plainLevel = .ok filter
  rw [lenient, hpieces]
  simp [toOption_eq_some.mp hparse, bind, Except.bind, pure, Except.pure]

namespace Settings

/-- The files once the diagnostics have theirs, or `none` if they cannot have it. -/
def opened? (s : Settings) (fs : FileSystem) : Option FileSystem :=
  match s.logFile with
  | none => some fs
  | some path => (fs.openAppend path).toOption.map Prod.snd

/-- The files as the process that serves sees them: a daemon works at the root. -/
def seen (s : Settings) (fs : FileSystem) : FileSystem :=
  if s.daemon then { fs with workingDirectory := [] } else fs

lemma opened?_workingDirectory {s : Settings} {fs files : FileSystem}
    (h : s.opened? fs = some files) : files.workingDirectory = fs.workingDirectory := by
  unfold opened? at h
  split at h
  · rw [Option.some.inj h]
  · obtain ⟨opened, hopen, rfl⟩ := Option.map_eq_some_iff.mp h
    obtain ⟨p, -, -, ⟨-, -, made⟩ | ⟨-, -, -, same⟩⟩ :=
      FileSystem.openAppend_cases (toOption_eq_some.mp hopen)
    · rw [made]
      rfl
    · rw [same]

lemma resolve_ne_usage (o : Options) (file : File) (r : CommandLine.Refusal) :
    resolve o file ≠ .error (.usage r) := by
  unfold resolve
  dsimp only
  split <;> simp

lemma fileOf_ne_usage (path : Bytes) (content : Except IoError Bytes)
    (r : CommandLine.Refusal) : fileOf path content ≠ .error (.usage r) := by
  unfold fileOf
  split
  · simp
  · split
    · simp
    · split <;> simp

/-- Only the command line itself can be refused as one. -/
lemma complete_ne_usage (o : Options) (content : Bytes → Except IoError Bytes)
    (r : CommandLine.Refusal) : complete o content ≠ .error (.usage r) := by
  unfold complete
  split
  · rename_i path _
    cases hfile : fileOf path (content path) with
    | error e =>
      intro h
      obtain rfl : e = .usage r := Except.error.inj h
      exact fileOf_ne_usage path (content path) r hfile
    | ok file => exact resolve_ne_usage o file r
  · exact resolve_ne_usage o {} r

end Settings

namespace Launch

/-- What a daemon asks of the system after the fork. -/
def detachCalls : List SystemCall := [.newSession, .changeDirectory, .openNull, .redirect]

/-- All that the diagnostics need, and the files when they have it. -/
structure Diagnoses (m : Machine) (s : Settings) (files : FileSystem) : Prop where
  filtered : ∃ filter, LogFilter.choose m.environment s.logLevel = .ok filter
  opened : s.opened? m.host.files = some files

/-- The signals, the path of the log and the address are settled. -/
structure Settles (m : Machine) (s : Settings) : Prop where
  blocked : m.refuses .blockSignals = none
  named : s.dataFile ≠ []
  placed : s.dataFile.head? ≠ some Bytes.slash → m.refuses .workingDirectory = none
  listens : ∃ opened, m.network.openListener s.listen s.backlog = .ok opened

/-- All that comes before the fork goes through, and leaves these files. -/
structure Ready (args : List Bytes) (m : Machine) (s : Settings) (files : FileSystem) : Prop where
  loaded : Settings.load args m.host.files = .ok s
  diagnoses : Diagnoses m s files
  settles : Settles m s

/-- The fork and all that comes after it goes through, from these files on. -/
structure Finishes (m : Machine) (s : Settings) (files : FileSystem) : Prop where
  detaches : s.daemon = true → ∀ call ∈ .fork :: detachCalls, m.refuses call = none
  clears : ∃ rest, (s.seen files).Cleared
    (Location.absolute m.host.files.workingDirectory s.dataFile) rest
  permitted : ∀ call ∈ serverCalls, m.refuses call = none
  told : Annotator.start? m.clock (Clock.ofSeconds s.interval) ≠ none

/-- The command line asks for help or for the version. -/
def AsksHelp (args : List Bytes) : Prop :=
  Settings.Options.parse args = .error .displayHelp ∨
    Settings.Options.parse args = .error .displayVersion

/-- Where turning into a daemon leads. -/
inductive Detached (m : Machine) : Except Failure Unit → Machine → Prop
  | unforked {cause} (refused : m.refuses .fork = some cause) :
    Detached m (.error (.system cause)) m
  | stuck {call cause m'} (forks : m.refuses .fork = none) (after : call ∈ detachCalls)
      (refused : m.refuses call = some cause) (forked : m'.forked = true) :
    Detached m (.error (.system cause)) m'
  | detached {m'} (permitted : ∀ call ∈ .fork :: detachCalls, m.refuses call = none)
      (forked : m'.forked = true)
      (files : m'.host.files = { m.host.files with workingDirectory := [] }) :
    Detached m (.ok ()) m'

/-- Where settling the path and the address leads, with the fork of a daemon behind it. -/
inductive Settled (m : Machine) (s : Settings) :
    Except Failure (SocketAddress × Bytes) → Machine → Prop
  | unsettled {f m'} (failed : ¬ Settles m s) (code : f.exitCode ≠ 0)
      (forked : m'.forked = m.forked) : Settled m s (.error f) m'
  | unforked {f m'} (settles : Settles m s) (daemon : s.daemon = true)
      (refused : m.refuses .fork ≠ none) (code : f.exitCode ≠ 0)
      (forked : m'.forked = m.forked) : Settled m s (.error f) m'
  | stuck {f call m'} (settles : Settles m s) (daemon : s.daemon = true)
      (forks : m.refuses .fork = none) (after : call ∈ detachCalls)
      (refused : m.refuses call ≠ none) (code : f.exitCode ≠ 0) (forked : m'.forked = true) :
    Settled m s (.error f) m'
  | settled {address m'} (settles : Settles m s)
      (detaches : s.daemon = true → ∀ call ∈ .fork :: detachCalls, m.refuses call = none)
      (forked : m'.forked = (s.daemon || m.forked))
      (files : m'.host.files = s.seen m.host.files) :
    Settled m s (.ok (address, Location.absolute m.host.files.workingDirectory s.dataFile)) m'

/-- Where a start leads. -/
inductive Led (args : List Bytes) (m : Machine) : Except Failure Server → Machine → Prop
  | unready {f m'} (failed : ∀ s files, ¬ Ready args m s files)
      (code : f.exitCode = 0 ↔ AsksHelp args) (forked : m'.forked = m.forked)
      (threads : m'.process.threads = m.process.threads) : Led args m (.error f) m'
  | unforked {s files f m'} (ready : Ready args m s files) (daemon : s.daemon = true)
      (refused : m.refuses .fork ≠ none) (code : f.exitCode ≠ 0) (forked : m'.forked = m.forked)
      (threads : m'.process.threads = m.process.threads) : Led args m (.error f) m'
  | unfinished {s files f m'} (ready : Ready args m s files)
      (forks : s.daemon = true → m.refuses .fork = none) (failed : ¬ Finishes m s files)
      (code : f.exitCode ≠ 0) (forked : m'.forked = (s.daemon || m.forked))
      (threads : .acceptor ∈ m'.process.threads → .acceptor ∈ m.process.threads) :
    Led args m (.error f) m'
  | serves {s files server m'} (ready : Ready args m s files) (finishes : Finishes m s files)
      (forked : m'.forked = (s.daemon || m.forked))
      (threads : .acceptor ∈ m'.process.threads) : Led args m (.ok server) m'

variable {args : List Bytes} {m m' : Machine} {s : Settings}

lemma openDiagnostics_cases {r : Except Failure Unit} (h : (openDiagnostics s).run m = (r, m')) :
    (m.Steady m' ∧ m'.network = m.network ∧ m'.forked = m.forked) ∧
      ((∃ f, r = .error f ∧ f.exitCode ≠ 0 ∧ ∀ files, ¬ Diagnoses m s files) ∨
        r = .ok () ∧ Diagnoses m s m'.host.files) := by
  rw [run_openDiagnostics] at h
  split at h
  · rename_i e hfilter
    cases h
    refine ⟨⟨⟨rfl, rfl, rfl⟩, rfl, rfl⟩, .inl ⟨_, rfl, by decide, fun files hd => ?_⟩⟩
    obtain ⟨filter, hchosen⟩ := hd.filtered
    cases hfilter.symm.trans hchosen
  rename_i filter hfilter
  split at h
  · rename_i hfile
    cases h
    refine ⟨⟨⟨rfl, rfl, rfl⟩, rfl, rfl⟩, .inr ⟨rfl, ⟨filter, hfilter⟩, ?_⟩⟩
    simp only [Settings.opened?, hfile]
  rename_i path hfile
  split at h
  · rename_i e hopen
    cases h
    refine ⟨⟨⟨rfl, rfl, rfl⟩, rfl, rfl⟩,
      .inl ⟨_, rfl, by simp [Failure.exitCode], fun files hd => ?_⟩⟩
    have hopened := hd.opened
    simp [Settings.opened?, hfile, hopen, Except.toOption] at hopened
  · rename_i hopen
    cases h
    refine ⟨⟨⟨rfl, rfl, rfl⟩, rfl, rfl⟩, .inr ⟨rfl, ⟨filter, hfilter⟩, ?_⟩⟩
    simp [Settings.opened?, hfile, hopen, Except.toOption]

lemma Detached.of_run {r : Except Failure Unit} (h : daemonize.run m = (r, m')) :
    m.Steady m' ∧ Detached m r m' := by
  unfold daemonize at h
  obtain ⟨cause, refused, rfl, rfl⟩ | ⟨forks, h⟩ := Attempt.of_run_permit_bind h
  · exact ⟨⟨rfl, rfl, rfl⟩, .unforked refused⟩
  rw [Attempt.run_bind, Attempt.run_get] at h
  dsimp only at h
  rw [Attempt.run_bind, Attempt.run_report] at h
  dsimp only at h
  rw [Attempt.run_bind, Attempt.run_modify] at h
  dsimp only at h
  -- From here on it is the child that works, and what fails fails in it alone.
  obtain ⟨cause, refused, rfl, rfl⟩ | ⟨hsession, h⟩ := Attempt.of_run_permit_bind h
  · exact ⟨⟨rfl, rfl, rfl⟩, .stuck forks (by simp [detachCalls]) refused rfl⟩
  rw [Attempt.run_bind, Attempt.run_modify] at h
  dsimp only at h
  obtain ⟨cause, refused, rfl, rfl⟩ | ⟨hdirectory, h⟩ := Attempt.of_run_permit_bind h
  · exact ⟨⟨rfl, rfl, rfl⟩, .stuck forks (by simp [detachCalls]) refused rfl⟩
  rw [Attempt.run_bind, Attempt.run_modify] at h
  dsimp only at h
  obtain ⟨cause, refused, rfl, rfl⟩ | ⟨hnull, h⟩ := Attempt.of_run_permit_bind h
  · exact ⟨⟨rfl, rfl, rfl⟩, .stuck forks (by simp [detachCalls]) refused rfl⟩
  obtain ⟨cause, refused, rfl, rfl⟩ | ⟨hredirect, h⟩ := Attempt.of_run_permit_bind h
  · exact ⟨⟨rfl, rfl, rfl⟩, .stuck forks (by simp [detachCalls]) refused rfl⟩
  rw [Attempt.run_modify] at h
  obtain ⟨rfl, rfl⟩ := Prod.mk.inj h
  have permitted : ∀ call ∈ .fork :: detachCalls, m.refuses call = none := by
    simp only [detachCalls, List.forall_mem_cons]
    exact ⟨forks, hsession, hdirectory, hnull, hredirect, by simp⟩
  exact ⟨⟨rfl, rfl, rfl⟩, .detached permitted rfl rfl⟩

lemma Settled.of_run {r : Except Failure (SocketAddress × Bytes)}
    (h : (settle s).run m = (r, m')) : m.Steady m' ∧ Settled m s r m' := by
  have plain (e : IoError) : (Failure.system e).exitCode ≠ 0 := by simp [Failure.exitCode]
  unfold settle at h
  obtain ⟨cause, refused, rfl, rfl⟩ | ⟨blocked, h⟩ := Attempt.of_run_permit_bind h
  · refine ⟨⟨rfl, rfl, rfl⟩, .unsettled (fun hs => ?_) (plain _) rfl⟩
    cases refused.symm.trans hs.blocked
  rw [Attempt.run_bind] at h
  generalize habsolute : (absolute s.dataFile).run m = path at h
  obtain ⟨path, m₁⟩ := path
  obtain ⟨rfl, ⟨e, rfl, failed⟩ | ⟨rfl, named, placed⟩⟩ := absolute_cases habsolute
  · obtain ⟨rfl, rfl⟩ := Prod.mk.inj h
    exact ⟨⟨rfl, rfl, rfl⟩, .unsettled (fun hs => failed ⟨hs.named, hs.placed⟩) (plain _) rfl⟩
  dsimp only at h
  rw [Attempt.run_bind, Attempt.run_report] at h
  dsimp only at h
  rw [Attempt.run_bind, run_openListener] at h
  dsimp only at h
  cases hlisten : m₁.network.openListener s.listen s.backlog with
  | error e =>
    rw [hlisten] at h
    obtain ⟨rfl, rfl⟩ := Prod.mk.inj h
    refine ⟨⟨rfl, rfl, rfl⟩, .unsettled (fun hs => ?_) (by simp [Failure.exitCode]) rfl⟩
    obtain ⟨opened, hopened⟩ := hs.listens
    cases hlisten.symm.trans hopened
  | ok opened =>
    rw [hlisten] at h
    have settles : Settles m₁ s := ⟨blocked, named, placed, opened, hlisten⟩
    dsimp only at h
    cases daemon : s.daemon with
    | false =>
      rw [if_neg (by simp [daemon])] at h
      obtain ⟨rfl, rfl⟩ := Prod.mk.inj h
      exact ⟨⟨rfl, rfl, rfl⟩, .settled settles (by simp [daemon]) (by simp [daemon])
        (by simp [Settings.seen, daemon, Host.report])⟩
    | true =>
      rw [if_pos daemon, Attempt.run_bind] at h
      generalize hd : daemonize.run _ = detached at h
      obtain ⟨r', m₂⟩ := detached
      obtain ⟨⟨refuses, clock, threads⟩, hdetached⟩ := Detached.of_run hd
      have steady : m₁.Steady m₂ := ⟨refuses, clock, threads⟩
      cases hdetached with
      | unforked refused =>
        obtain ⟨rfl, rfl⟩ := Prod.mk.inj h
        exact ⟨steady, .unforked settles daemon (Option.ne_none_iff_exists'.mpr ⟨_, refused⟩)
          (plain _) rfl⟩
      | stuck forks after refused forked =>
        obtain ⟨rfl, rfl⟩ := Prod.mk.inj h
        exact ⟨steady, .stuck settles daemon forks after
          (Option.ne_none_iff_exists'.mpr ⟨_, refused⟩) (plain _) forked⟩
      | detached permitted forked files =>
        obtain ⟨rfl, rfl⟩ := Prod.mk.inj h
        exact ⟨steady, .settled settles (fun _ => permitted) (by simp [forked, daemon])
          (by simp [files, Settings.seen, daemon, Host.report])⟩

/-- What makes the settings fail decides whether the status is that of a failure. -/
lemma load_error_code {fs : FileSystem} {e : SettingsError}
    (h : Settings.load args fs = .error e) :
    (Failure.settings e).exitCode = 0 ↔ AsksHelp args := by
  unfold Settings.load at h
  unfold AsksHelp
  cases parsed : Settings.Options.parse args with
  | error r =>
    rw [parsed] at h
    obtain rfl := Except.error.inj h
    cases r <;> simp [Failure.exitCode, CommandLine.Refusal.exitCode]
  | ok o =>
    rw [parsed] at h
    cases e with
    | usage r => exact absurd h (Settings.complete_ne_usage o fs.contentOf r)
    | fileRead | malformed | zeroInterval => simp [Failure.exitCode]

lemma not_asksHelp {fs : FileSystem} (h : Settings.load args fs = .ok s) : ¬ AsksHelp args := by
  unfold Settings.load at h
  rintro (parsed | parsed)
  all_goals
    rw [parsed] at h
    cases h

lemma createStore_cases {path : Bytes} {r : Except Failure LogStore}
    (h : (createStore path).run m = (r, m')) : (m.Steady m' ∧ m'.forked = m.forked) ∧
      ((∃ f, r = .error f ∧ f.exitCode ≠ 0 ∧ ∀ rest, ¬ m.host.files.Cleared path rest) ∨
        ∃ store rest, r = .ok store ∧ m.host.files.Cleared path rest) := by
  unfold createStore at h
  rw [Attempt.run_bind, Attempt.run_get] at h
  dsimp only at h
  rw [Attempt.run_bind, Attempt.run_set] at h
  dsimp only at h
  rw [Attempt.run_check] at h
  cases hcreate : LogStore.create path m.host with
  | mk made host =>
    rw [hcreate] at h
    obtain ⟨rfl, rfl⟩ := Prod.mk.inj h
    refine ⟨⟨⟨rfl, rfl, rfl⟩, rfl⟩, ?_⟩
    obtain ⟨⟨e, rfl, refused⟩, -⟩ | ⟨rfl, cleared⟩ := LogStore.create_cases hcreate
    · exact .inl ⟨_, rfl, by simp [Failure.exitCode], fun rest hrest => hrest.not_refuses e refused⟩
    · exact .inr ⟨_, _, rfl, cleared⟩

lemma settles_congr (refuses : m'.refuses = m.refuses) (network : m'.network = m.network) :
    Settles m' s ↔ Settles m s := by
  constructor
  · rintro ⟨blocked, named, placed, listens⟩
    rw [refuses] at blocked placed
    exact ⟨blocked, named, placed, network ▸ listens⟩
  · rintro ⟨blocked, named, placed, listens⟩
    rw [← refuses] at blocked placed
    exact ⟨blocked, named, placed, network ▸ listens⟩

/-- A server that does not start lacks a call or the first firing, and has no acceptor. -/
lemma Started.fails {period : Nat} {f : Failure} (h : Started m period (.error f) m') :
    ¬ ((∀ call ∈ serverCalls, m.refuses call = none) ∧ Annotator.start? m.clock period ≠ none) ∧
      f.exitCode ≠ 0 ∧ m'.forked = m.forked ∧
      (.acceptor ∈ m'.process.threads → .acceptor ∈ m.process.threads) := by
  have fails {call : SystemCall} {cause : IoError} (refused : m.refuses call = some cause)
      (needed : call ∈ serverCalls) : ¬ ((∀ call ∈ serverCalls, m.refuses call = none) ∧
        Annotator.start? m.clock period ≠ none) := by
    rintro ⟨permitted, -⟩
    cases refused.symm.trans (permitted _ needed)
  cases h with
  | early before refused =>
    exact ⟨fails refused (by simp [serverCalls, before]), by simp [Failure.exitCode], rfl, id⟩
  | untold permitted far => exact ⟨fun both => both.2 far, by simp [Failure.exitCode], rfl, id⟩
  | noAnnotator permitted told refused =>
    exact ⟨fails refused (by simp [serverCalls]), by simp [Failure.exitCode], rfl, id⟩
  | noAcceptor permitted told refused threads forked =>
    refine ⟨fails refused (by simp [serverCalls]), by simp [Failure.exitCode], forked,
      fun ran => ?_⟩
    rw [threads] at ran
    exact (List.mem_cons.mp ran).resolve_left nofun

/-- The start as one sequence of its steps. -/
lemma start_eq (args : List Bytes) : start args =
    loadSettings args >>= fun s => openDiagnostics s >>= fun _ => settle s >>= fun x =>
      createStore x.2 >>= fun store => startServer x.1 store (Clock.ofSeconds s.interval) := by
  simp only [start, prepare, bind_assoc, pure_bind]

/-- The last two steps, on what was settled before. -/
lemma Led.of_last {m₁ : Machine} {files : FileSystem} {address : SocketAddress}
    {r : Except Failure Server} (ready : Ready args m s files)
    (detaches : s.daemon = true → ∀ call ∈ .fork :: detachCalls, m.refuses call = none)
    (steady : m.Steady m₁) (forked : m₁.forked = (s.daemon || m.forked))
    (hfiles : m₁.host.files = s.seen files)
    (h : (createStore (Location.absolute m.host.files.workingDirectory s.dataFile) >>= fun store =>
      startServer address store (Clock.ofSeconds s.interval)).run m₁ = (r, m')) :
    Led args m r m' := by
  have forks : s.daemon = true → m.refuses .fork = none := fun daemon =>
    detaches daemon _ List.mem_cons_self
  obtain ⟨e, hcreate, rfl⟩ | ⟨store, m₂, hcreate, h⟩ := Attempt.of_run_bind h
  all_goals
    obtain ⟨⟨steady₂, forked₂⟩, hstored⟩ := createStore_cases hcreate
    have steady := steady.trans steady₂
    rw [forked] at forked₂
    rw [hfiles] at hstored
  · obtain ⟨f, hf, code, failed⟩ | ⟨_, _, hok, -⟩ := hstored
    · obtain rfl := Except.error.inj hf
      refine .unfinished ready forks (fun finishes => ?_) code forked₂ (by simp [steady.threads])
      obtain ⟨rest, cleared⟩ := finishes.clears
      exact failed rest cleared
    · cases hok
  · obtain ⟨_, hf, -⟩ | ⟨_, rest, -, cleared⟩ := hstored
    · cases hf
    have started : Started m₂ (Clock.ofSeconds s.interval) r m' := Started.of_run h
    cases r with
    | error f =>
      obtain ⟨failed, code, forked', threads⟩ := started.fails
      rw [steady.refuses, steady.clock] at failed
      rw [steady.threads] at threads
      exact .unfinished ready forks (fun finishes => failed ⟨finishes.permitted, finishes.told⟩)
        code (forked'.trans forked₂) threads
    | ok server =>
      cases started with
      | serves permitted told threads forked' =>
        rw [steady.refuses] at permitted
        rw [steady.clock] at told
        exact .serves ready ⟨detaches, ⟨rest, cleared⟩, permitted, by simp [told]⟩
          (forked'.trans forked₂) (by simp [threads])

lemma Led.of_run {r : Except Failure Server} (h : (start args).run m = (r, m')) :
    Led args m r m' := by
  rw [start_eq, Attempt.run_bind, run_loadSettings] at h
  cases loaded : Settings.load args m.host.files with
  | error e =>
    rw [loaded] at h
    obtain ⟨rfl, rfl⟩ := Prod.mk.inj h
    refine .unready (fun s files ready => ?_) (load_error_code loaded) rfl rfl
    cases loaded.symm.trans ready.loaded
  | ok s =>
    rw [loaded] at h
    dsimp only [mapError_ok] at h
    have notHelp := not_asksHelp loaded
    rw [Attempt.run_bind] at h
    generalize hdiagnostics : (openDiagnostics s).run m = opened at h
    obtain ⟨r₁, m₁⟩ := opened
    obtain ⟨⟨steady₁, network, forked₁⟩, ⟨f, rfl, code, failed⟩ | ⟨rfl, diagnoses⟩⟩ :=
      openDiagnostics_cases hdiagnostics
    · obtain ⟨rfl, rfl⟩ := Prod.mk.inj h
      refine .unready (fun s' files ready => ?_) (iff_of_false code notHelp) forked₁
        steady₁.threads
      obtain rfl := Except.ok.inj (loaded.symm.trans ready.loaded)
      exact failed files ready.diagnoses
    dsimp only at h
    rw [Attempt.run_bind] at h
    generalize hsettle : (settle s).run m₁ = settled at h
    obtain ⟨r₂, m₂⟩ := settled
    obtain ⟨steady₂, hsettled⟩ := Settled.of_run hsettle
    have steady := steady₁.trans steady₂
    -- The diagnostics change nothing that settling asks for.
    have settles_iff : Settles m₁ s ↔ Settles m s := settles_congr steady₁.refuses network
    cases hsettled with
    | unsettled failed code forked =>
      obtain ⟨rfl, rfl⟩ := Prod.mk.inj h
      refine .unready (fun s' files ready => ?_) (iff_of_false code notHelp)
        (forked.trans forked₁) steady.threads
      obtain rfl := Except.ok.inj (loaded.symm.trans ready.loaded)
      exact failed (settles_iff.mpr ready.settles)
    | unforked settles daemon refused code forked =>
      obtain ⟨rfl, rfl⟩ := Prod.mk.inj h
      have ready : Ready args m s m₁.host.files := ⟨loaded, diagnoses, settles_iff.mp settles⟩
      rw [steady₁.refuses] at refused
      exact .unforked ready daemon refused code (forked.trans forked₁) steady.threads
    | stuck settles daemon forks after refused code forked =>
      obtain ⟨rfl, rfl⟩ := Prod.mk.inj h
      have ready : Ready args m s m₁.host.files := ⟨loaded, diagnoses, settles_iff.mp settles⟩
      rw [steady₁.refuses] at forks refused
      refine .unfinished ready (fun _ => forks) (fun finishes => ?_) code (by simp [forked, daemon])
        (by simp [steady.threads])
      exact refused (finishes.detaches daemon _ (List.mem_cons_of_mem _ after))
    | settled settles detaches forked files =>
      have ready : Ready args m s m₁.host.files := ⟨loaded, diagnoses, settles_iff.mp settles⟩
      rw [steady₁.refuses] at detaches
      rw [forked₁] at forked
      rw [Settings.opened?_workingDirectory diagnoses.opened] at h
      exact .of_last ready detaches steady forked files h

lemma Ready.unique {s' : Settings} {files files' : FileSystem} (h : Ready args m s files)
    (h' : Ready args m s' files') : s = s' ∧ files = files' := by
  obtain rfl := Except.ok.inj (h.loaded.symm.trans h'.loaded)
  exact ⟨rfl, Option.some.inj (h.diagnoses.opened.symm.trans h'.diagnoses.opened)⟩

namespace Led

variable {r : Except Failure Server} {f : Failure} {server : Server}

lemma idle_of_error (led : Led args m (.error f) m') (idle : .acceptor ∉ m.process.threads) :
    .acceptor ∉ m'.process.threads := by
  cases led with
  | unready _ _ _ threads | unforked _ _ _ _ _ threads => rwa [threads]
  | unfinished _ _ _ _ _ threads => exact fun ran => idle (threads ran)

lemma exitCode_iff (led : Led args m (.error f) m') : f.exitCode = 0 ↔ AsksHelp args := by
  cases led with
  | unready _ code => exact code
  | unforked ready _ _ code | unfinished ready _ _ code =>
    exact iff_of_false code (not_asksHelp ready.loaded)

lemma ok_iff (led : Led args m r m') :
    (∃ server, r = .ok server) ↔ ∃ s files, Ready args m s files ∧ Finishes m s files := by
  cases led with
  | unready failed =>
    refine iff_of_false (by simp) ?_
    rintro ⟨s, files, ready, -⟩
    exact failed s files ready
  | unforked ready daemon refused =>
    refine iff_of_false (by simp) ?_
    rintro ⟨s, files, ready', finishes⟩
    obtain ⟨rfl, rfl⟩ := ready.unique ready'
    exact refused (finishes.detaches daemon _ List.mem_cons_self)
  | unfinished ready forks failed =>
    refine iff_of_false (by simp) ?_
    rintro ⟨s, files, ready', finishes⟩
    obtain ⟨rfl, rfl⟩ := ready.unique ready'
    exact failed finishes
  | serves ready finishes => exact iff_of_true ⟨_, rfl⟩ ⟨_, _, ready, finishes⟩

lemma forked_iff (led : Led args m r m') (fresh : m.forked = false) : m'.forked = true ↔
    ∃ s files, Ready args m s files ∧ s.daemon = true ∧ m.refuses .fork = none := by
  have after {s : Settings} {files : FileSystem} (ready : Ready args m s files)
      (forks : s.daemon = true → m.refuses .fork = none)
      (forked : m'.forked = (s.daemon || m.forked)) : m'.forked = true ↔
        ∃ s files, Ready args m s files ∧ s.daemon = true ∧ m.refuses .fork = none := by
    rw [forked, fresh, Bool.or_false]
    refine ⟨fun daemon => ⟨s, files, ready, daemon, forks daemon⟩, ?_⟩
    rintro ⟨s', files', ready', daemon, -⟩
    obtain ⟨rfl, rfl⟩ := ready.unique ready'
    exact daemon
  cases led with
  | unready failed _ forked =>
    refine iff_of_false (by simp [forked, fresh]) ?_
    rintro ⟨s, files, ready, -⟩
    exact failed s files ready
  | unforked ready daemon refused _ forked =>
    refine iff_of_false (by simp [forked, fresh]) ?_
    rintro ⟨s, files, -, -, forks⟩
    exact refused forks
  | unfinished ready forks _ _ forked => exact after ready forks forked
  | serves ready finishes forked =>
    exact after ready (fun daemon => finishes.detaches daemon _ List.mem_cons_self) forked

end Led

/-- A start that fails has no acceptor, and the process at work then has the status of a failure
unless it was asked for help or for its version. It is the process that was started as long as none
is forked, which happens exactly if a daemon is asked for, all before the fork goes through and the
system permits the fork. After the fork the process that was started has ended well, whatever the
daemon comes to. -/
theorem exit_status (fresh : m.forked = false) (idle : .acceptor ∉ m.process.threads) :
    let o := run args m
    (∀ f, o.result = .error f → .acceptor ∉ o.machine.process.threads ∧
      (f.exitCode = 0 ↔ AsksHelp args) ∧ o.exitCode? = some f.exitCode ∧
      o.startedExitCode? = some (if o.machine.forked then 0 else f.exitCode)) ∧
    (∀ server, o.result = .ok server → .acceptor ∈ o.machine.process.threads ∧
      o.exitCode? = none ∧ o.startedExitCode? = if o.machine.forked then some 0 else none) ∧
    ((∃ server, o.result = .ok server) ↔
      ∃ s files, Ready args m s files ∧ Finishes m s files) ∧
    (o.machine.forked = true ↔
      ∃ s files, Ready args m s files ∧ s.daemon = true ∧ m.refuses .fork = none) ∧
    (o.startedExitCode? = some 0 ↔ o.machine.forked = true ∨ AsksHelp args) := by
  intro o
  have led : Led args m o.result o.machine := Led.of_run (Prod.eta ((start args).run m)).symm
  have hforked := led.forked_iff fresh
  refine ⟨fun f hf => ?_, fun server hserver => ?_, led.ok_iff, hforked, ?_⟩
  · rw [hf] at led
    refine ⟨led.idle_of_error idle, led.exitCode_iff, ?_, ?_⟩
    · simp only [Outcome.exitCode?, hf]
    · simp only [Outcome.startedExitCode?, Outcome.exitCode?, hf]
      split <;> rfl
  · rw [hserver] at led
    cases led with
    | serves _ _ _ threads =>
      exact ⟨threads, by simp only [Outcome.exitCode?, hserver],
        by simp only [Outcome.startedExitCode?, Outcome.exitCode?, hserver]⟩
  · unfold Outcome.startedExitCode?
    split
    · rename_i forked
      exact iff_of_true rfl (.inl forked)
    · rename_i unforked
      rw [or_iff_right unforked]
      unfold Outcome.exitCode?
      cases hresult : o.result with
      | error f =>
        rw [hresult] at led
        rw [Option.some_inj, led.exitCode_iff]
      | ok server =>
        rw [hresult] at led
        cases led with
        | serves ready => exact iff_of_false (by simp) (not_asksHelp ready.loaded)

/-- A daemon is asked for on an address that makes no sense. -/
theorem exit_status_no_address :
    let args := ["-l", "nowhere", "-d"].map Bytes.ofString
    let m : Machine := { host := { files := FileSystem.fresh [] } }
    ∃ f, (run args m).result = .error f ∧ (run args m).machine.forked = false ∧
      f.exitCode ≠ 0 ∧ (run args m).startedExitCode? = some f.exitCode := by
  intro args m
  obtain ⟨failing, -, goes, forks, -⟩ := @exit_status args m rfl (by simp [m])
  obtain ⟨s, loaded, hlisten⟩ := Option.map_eq_some_iff.mp (by decide +kernel :
    (Settings.load args m.host.files).toOption.map Settings.listen = some "nowhere")
  have loaded : Settings.load args m.host.files = .ok s := toOption_eq_some.mp loaded
  have unready (s' : Settings) (files : FileSystem) : ¬ Ready args m s' files := by
    intro ready
    obtain rfl := Except.ok.inj (loaded.symm.trans ready.loaded)
    obtain ⟨opened, hopened⟩ := ready.settles.listens
    have nowhere : SocketAddress.parse? s.listen = none := by
      rw [hlisten]
      decide +kernel
    simp only [Network.openListener, nowhere] at hopened
    cases hopened
  have unforked : (run args m).machine.forked = false := by
    rw [← Bool.not_eq_true, forks]
    rintro ⟨s', files, ready, -⟩
    exact unready s' files ready
  cases hresult : (run args m).result with
  | ok server =>
    obtain ⟨s', files, ready, -⟩ := goes.mp ⟨server, hresult⟩
    exact absurd ready (unready s' files)
  | error f =>
    obtain ⟨-, code, -, started⟩ := failing f hresult
    rw [unforked] at started
    exact ⟨f, rfl, unforked, fun zero => not_asksHelp loaded (code.mp zero), started⟩

/-- A daemon is asked for whose log would be where a directory is. -/
theorem daemon_fails_unseen :
    let args := ["-l", "127.0.0.1:9000", "-f", ".", "-d"].map Bytes.ofString
    let m : Machine := { host := { files := FileSystem.fresh [] } }
    ∃ f, (run args m).result = .error f ∧ f.exitCode ≠ 0 ∧ ¬ AsksHelp args ∧
      (run args m).startedExitCode? = some 0 := by
  intro args m
  let s : Settings := {
    listen := "127.0.0.1:9000", backlog := 10, dataFile := Bytes.ofString ".", interval := 10,
    daemon := true, logLevel := "info", logFile := none }
  have loaded : Settings.load args m.host.files = .ok s :=
    toOption_eq_some.mp (by decide +kernel)
  have ready : Ready args m s m.host.files := by
    refine ⟨loaded, ⟨LogFilter.choose_plain, rfl⟩,
      ⟨rfl, by decide +kernel, fun _ => rfl, ?_⟩⟩
    have hopened : (m.network.openListener s.listen s.backlog).toOption.isSome := by
      decide +kernel
    obtain ⟨opened, hopened⟩ := Option.isSome_iff_exists.mp hopened
    exact ⟨opened, toOption_eq_some.mp hopened⟩
  have unfinished : ¬ Finishes m s m.host.files := by
    intro finishes
    obtain ⟨rest, cleared⟩ := finishes.clears
    have root : Location.absolute m.host.files.workingDirectory s.dataFile = [Bytes.slash] := by
      decide +kernel
    rw [root] at cleared
    exact cleared.not_refuses .isDirectory (FileSystem.refuses_root _)
  have led : Led args m (run args m).result (run args m).machine :=
    Led.of_run (Prod.eta ((start args).run m)).symm
  have forked : (run args m).machine.forked = true :=
    (led.forked_iff rfl).mpr ⟨s, m.host.files, ready, rfl, rfl⟩
  cases hresult : (run args m).result with
  | ok server =>
    obtain ⟨s', files, ready', finishes⟩ := led.ok_iff.mp ⟨server, hresult⟩
    obtain ⟨rfl, rfl⟩ := ready.unique ready'
    exact absurd finishes unfinished
  | error f =>
    rw [hresult] at led
    have asksNot := not_asksHelp loaded
    exact ⟨f, rfl, fun zero => asksNot (led.exitCode_iff.mp zero), asksNot, if_pos forked⟩

end Launch

end RecordLog
