import RecordLog.Proofs.FileSystem.Walk
import RecordLog.Proofs.Settings.Reading
import RecordLog.Proofs.Settings.Sections

/-! Where each setting comes from: the command line, or else the configuration file, or else its
default. The level of the diagnostics differs: a given level that is the default one counts as not
given, so that a level in the file wins over it. -/
namespace RecordLog.Settings

open Toml (Value Entries)

/-- The document that the options name. Without a name there is nothing in it. -/
def Options.document? (o : Options) (fs : FileSystem) : Option Entries :=
  match o.config with
  | none => some []
  | some path => do
    let content ← (fs.contentOf path).toOption
    let text ← Utf8.decode? content
    Toml.parse text.toList

/-- What a document says about the settings that the command line can give as well. -/
structure Written where
  listen : Option String
  dataFile : Option String
  interval : Option Nat
  logLevel : Option String
  logFile : Option String
  deriving DecidableEq

/-- A document with these fields, each of them read as what it is to be. -/
structure Written.In (w : Written) (root : Entries) : Prop where
  listen : Option.Rel (fun v text => text? v = some text) (field? root "server" 0 "listen") w.listen
  dataFile : Option.Rel (fun v text => text? v = some text) (field? root "store" 0 "path")
    w.dataFile
  interval : Option.Rel (fun v n => (bounded? 0 Toml.maxInteger v).map Int.toNat = some n)
    (field? root "annotator" 0 "interval_secs") w.interval
  logLevel : Option.Rel (fun v text => text? v = some text) (field? root "logging" 0 "level")
    w.logLevel
  logFile : Option.Rel (fun v text => text? v = some text) (field? root "logging" 1 "file")
    w.logFile

/-- What is read is what the given value is read as. -/
lemma bind_eq_of_rel {α β : Type} {read : α → Option β} {v : Option α} {given : Option β}
    (h : Option.Rel (fun v a => read v = some a) v given) : v.bind read = given := by
  cases h with
  | none => rfl
  | some h => exact h

/-- Whatever is there can be read. -/
lemma rel_bind {α β : Type} {read : α → Option β} {v : Option α}
    (reads : ∀ x, v = some x → (read x).isSome) :
    Option.Rel (fun v a => read v = some a) v (v.bind read) := by
  cases v with
  | none => exact .none
  | some x =>
    obtain ⟨a, ha⟩ := Option.isSome_iff_exists.mp (reads x rfl)
    rw [Option.bind_some, ha]
    exact .some ha

/-- A file that decodes has what its document says, and defaults for the rest. -/
lemma File.ofEntries_written {root : Entries} {file : File} (h : File.ofEntries root = some file) :
    ∃ w : Written, w.In root ∧ file.server.listen = w.listen.getD "0.0.0.0:9000" ∧
      file.store.path = w.dataFile.getD "/var/tmp/echologdata" ∧
      file.annotator.intervalSecs = w.interval.getD 10 ∧
      file.logging.level = w.logLevel.getD plainLevel ∧ file.logging.file = w.logFile := by
  obtain ⟨fits, rfl⟩ := File.ofEntries_eq_some_iff.mp h
  have known {p : Part} (hp : p ∈ parts) := (Part.fits_iff.mp (fits p hp)).2
  have listen := known (p := .server) (by simp [parts]) 0 ⟨"listen", .text⟩ rfl
  have path := known (p := .store) (by simp [parts]) 0 ⟨"path", .text⟩ rfl
  have secs := known (p := .annotator) (by simp [parts]) 0
    ⟨"interval_secs", .integer 0 Toml.maxInteger⟩ rfl
  have level := known (p := .logging) (by simp [parts]) 0 ⟨"level", .text⟩ rfl
  have logFile := known (p := .logging) (by simp [parts]) 1 ⟨"file", .text⟩ rfl
  have text {v : Option Value} (admits : ∀ x, v = some x → Kind.text.Admits x) :
      ∀ x, v = some x → (text? x).isSome := fun x hx => text?_isSome.mpr (admits x hx)
  refine ⟨{
    listen := (field? root "server" 0 "listen").bind text?
    dataFile := (field? root "store" 0 "path").bind text?
    interval := (field? root "annotator" 0 "interval_secs").bind fun v =>
      (bounded? 0 Toml.maxInteger v).map Int.toNat
    logLevel := (field? root "logging" 0 "level").bind text?
    logFile := (field? root "logging" 1 "file").bind text? }, ⟨?_, ?_, ?_, ?_, ?_⟩,
    rfl, rfl, rfl, rfl, rfl⟩
  · exact rel_bind (text listen)
  · exact rel_bind (text path)
  · refine rel_bind fun x hx => ?_
    rw [Option.isSome_map]
    exact bounded?_isSome.mpr (secs x hx)
  · exact rel_bind (text level)
  · exact rel_bind (text logFile)

/-- Settings come from the options and the file that the document decodes to. -/
lemma load_eq_resolve {args : List Bytes} {fs : FileSystem} {o : Options} {root : Entries}
    {file : File} (parsed : Options.parse args = .ok o) (document : o.document? fs = some root)
    (decoded : File.ofEntries root = some file) : load args fs = resolve o file := by
  rw [load, parsed]
  change complete o fs.contentOf = resolve o file
  unfold Options.document? at document
  rw [complete]
  cases hconfig : o.config with
  | none =>
    simp only [hconfig] at document ⊢
    obtain rfl := Option.some.inj document
    obtain rfl : {} = file := Option.some.inj decoded
    rfl
  | some path =>
    simp only [hconfig] at document ⊢
    obtain ⟨content, hcontent, document⟩ := Option.bind_eq_some_iff.mp document
    obtain ⟨text, htext, hroot⟩ := Option.bind_eq_some_iff.mp document
    have hparse : File.parse text = some file := by
      rw [File.parse, hroot]
      exact decoded
    have hfile : fileOf path (fs.contentOf path) = .ok file := by
      cases hread : fs.contentOf path with
      | error e => simp [hread, Except.toOption] at hcontent
      | ok bytes =>
        obtain rfl : bytes = content := by simpa [hread, Except.toOption] using hcontent
        simp only [fileOf, htext, hparse]
    rw [hfile]
    rfl

/-- Settings that load are those of some options and of a file that some document decodes to. -/
lemma load_eq_ok {args : List Bytes} {fs : FileSystem} {s : Settings} (h : load args fs = .ok s) :
    ∃ o root file, Options.parse args = .ok o ∧ File.ofEntries root = some file ∧
      resolve o file = .ok s := by
  unfold load at h
  split at h
  · cases h
  rename_i o parsed
  unfold complete at h
  split at h
  · rename_i path hconfig
    obtain ⟨file, hfile, h⟩ := bind_eq_ok.mp h
    unfold fileOf at hfile
    split at hfile
    · cases hfile
    split at hfile
    · cases hfile
    split at hfile
    · cases hfile
    rename_i hparse
    obtain rfl := Except.ok.inj hfile
    obtain ⟨root, -, decoded⟩ := Option.bind_eq_some_iff.mp hparse
    exact ⟨o, root, _, parsed, decoded, h⟩
  · exact ⟨o, [], {}, parsed, rfl, h⟩

/-- A given level wins over the file unless it is the default one. -/
lemma level_eq (given written : Option String) :
    (if given.getD plainLevel ≠ plainLevel then given.getD plainLevel
      else written.getD plainLevel) =
      (given.filter (· ≠ plainLevel) <|> written).getD plainLevel := by
  cases given with
  | none => simp
  | some level => by_cases h : level = plainLevel <;> simp [h, Option.filter]

/-- Where that makes no difference. -/
lemma level_eq_iff (given written : Option String) :
    (given.filter (· ≠ plainLevel) <|> written).getD plainLevel =
        (given <|> written).getD plainLevel ↔
      (given = some plainLevel → ∀ level ∈ written, level = plainLevel) := by
  cases given with
  | none => simp
  | some level =>
    by_cases h : level = plainLevel
    · cases written <;> simp [h, Option.filter]
    · simp [h, Option.filter]

/-- A setting given on the command line is that of the command line whatever the file says. One
that is not is that of the file, if it is there, or else the default. -/
theorem load_precedence {args : List Bytes} {fs : FileSystem} {o : Options} {root : Entries}
    (parsed : Options.parse args = .ok o) (document : o.document? fs = some root)
    (decodes : (File.ofEntries root).isSome) :
    ∃ cs w, Made cs args ∧ (cs.map Choice.option).Nodup ∧ (∀ n, o.Holds (chosen n cs) n) ∧
      Written.In w root ∧
      (load args fs = .error .zeroInterval ↔ (o.interval <|> w.interval).getD 10 = 0) ∧
      ((o.interval <|> w.interval).getD 10 ≠ 0 → ∃ s, load args fs = .ok s ∧
        s.listen = (o.listen <|> w.listen).getD "0.0.0.0:9000" ∧
        s.dataFile = (o.dataFile <|> w.dataFile.map Bytes.ofString).getD
          (Bytes.ofString "/var/tmp/echologdata") ∧
        s.interval = (o.interval <|> w.interval).getD 10 ∧
        s.logFile = (o.logFile <|> w.logFile.map Bytes.ofString) ∧
        s.logLevel = (o.logLevel.filter (· ≠ plainLevel) <|> w.logLevel).getD plainLevel ∧
        (s.logLevel = (o.logLevel <|> w.logLevel).getD plainLevel ↔
          (o.logLevel = some plainLevel → ∀ level ∈ w.logLevel, level = plainLevel))) := by
  obtain ⟨file, decoded⟩ := Option.isSome_iff_exists.mp decodes
  obtain ⟨cs, made, distinct, holds⟩ := parse_reads parsed
  obtain ⟨w, inRoot, hlisten, hpath, hsecs, hlevel, hfile⟩ := File.ofEntries_written decoded
  have hinterval : o.interval.getD file.annotator.intervalSecs =
      (o.interval <|> w.interval).getD 10 := by
    rw [hsecs]
    cases o.interval <;> simp
  refine ⟨cs, w, made, distinct, holds, inRoot, ?_⟩
  rw [load_eq_resolve parsed document decoded, resolve, hinterval]
  refine ⟨?_, fun positive => ?_⟩
  · split
    · rename_i zero
      exact iff_of_true rfl zero
    · rename_i positive
      exact iff_of_false (by simp) positive
  · rw [if_neg positive]
    refine ⟨_, rfl, ?_, ?_, rfl, ?_, ?_, ?_⟩
    · rw [hlisten]
      cases o.listen <;> simp
    · rw [hpath]
      cases o.dataFile <;> cases w.dataFile <;> simp
    · rw [hfile]
    · rw [hlevel]
      exact level_eq _ _
    · rw [hlevel, ← level_eq_iff, ← level_eq]

/-- A given level that is the default one, and another one in the file. -/
theorem load_precedence_plain_level :
    let text := Bytes.ofString
    let args := ["-c", "cfg", "--log-level", "info"].map text
    let fs := (FileSystem.fresh []).insert [text "cfg"]
      (.file 0o644 (text "[logging]\nlevel = \"debug\"\n"))
    ∃ o root w s, Options.parse args = .ok o ∧ o.document? fs = some root ∧ Written.In w root ∧
      o.logLevel = some "info" ∧ w.logLevel = some "debug" ∧ load args fs = .ok s ∧
      s.logLevel = "debug" := by
  intro text args fs
  let content := text "[logging]\nlevel = \"debug\"\n"
  let o : Options := { config := some (text "cfg"), logLevel := some "info" }
  have parsed : Options.parse args = .ok o := by
    have h : (Options.parse args).toOption = some o := by decide +kernel
    cases hparse : Options.parse args with
    | error r => simp [hparse, Except.toOption] at h
    | ok o' => simpa [hparse, Except.toOption] using h
  -- The readers of arguments and documents compute here; the walk to the file is derived.
  have hlookup : fs.lookup [text "cfg"] = some (.file 0o644 content) := by decide +kernel
  have finds : fs.Finds .follow (text "cfg") ⟨[], some (text "cfg"), false⟩ := by
    have hpath : Path.ofBytes (text "cfg") = ⟨false, [text "cfg"], false⟩ := by decide +kernel
    refine ⟨by decide +kernel, by decide +kernel, by decide +kernel, ?_⟩
    rw [hpath, if_neg Bool.false_ne_true]
    refine .named ⟨by decide +kernel, by decide +kernel, by decide +kernel, by simp,
      by decide +kernel⟩ fun target hlink => ?_
    cases hlookup.symm.trans hlink
  have hcontent : fs.contentOf (text "cfg") = .ok content := by
    have hopen : fs.openRead (text "cfg") = .ok [text "cfg"] := by
      have permits : fs.permits (.file 0o644 content) .read = true := by decide +kernel
      rw [FileSystem.openRead, FileSystem.find_eq_ok_iff.mpr ⟨finds, hlookup.symm⟩]
      simp [bind, Except.bind, permits, FileSystem.Place.location]
    rw [FileSystem.contentOf, hopen]
    change fs.read [text "cfg"] = _
    rw [FileSystem.read, hlookup]
  have reads : ((Utf8.decode? content).bind fun t => (Toml.parse t.toList).bind fun root =>
      (File.ofEntries root).map fun _ => ((field? root "logging" 0 "level").bind text?,
        (field? root "annotator" 0 "interval_secs").isNone)) = some (some "debug", true) := by
    decide +kernel
  obtain ⟨t, ht, reads⟩ := Option.bind_eq_some_iff.mp reads
  obtain ⟨root, hroot, reads⟩ := Option.bind_eq_some_iff.mp reads
  obtain ⟨file, hfile, reads⟩ := Option.map_eq_some_iff.mp reads
  obtain ⟨hlevel, hsecs⟩ := Prod.mk.inj reads
  have document : o.document? fs = some root := by
    change (fs.contentOf (text "cfg")).toOption.bind _ = some root
    rw [hcontent]
    exact Option.bind_eq_some_iff.mpr
      ⟨content, rfl, Option.bind_eq_some_iff.mpr ⟨t, ht, hroot⟩⟩
  obtain ⟨cs, w, -, -, -, inRoot, -, loads⟩ :=
    load_precedence parsed document (by rw [hfile]; rfl)
  have hw : w.logLevel = some "debug" := (bind_eq_of_rel inRoot.logLevel).symm.trans hlevel
  have hinterval : w.interval = none := by
    rw [← bind_eq_of_rel inRoot.interval, Option.isNone_iff_eq_none.mp hsecs, Option.bind_none]
  obtain ⟨s, hs, -, -, -, -, hlog, -⟩ := loads (by rw [hinterval]; decide)
  exact ⟨o, root, w, s, parsed, document, inRoot, rfl, hw, hs, by rw [hlog, hw]; rfl⟩

end RecordLog.Settings
