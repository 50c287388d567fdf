import RecordLog.Proofs.LogStore.Content
import RecordLog.Proofs.Text.Utf8
import RecordLog.Writer

/-! What a run of the companion program leaves. It succeeds only if the file holds the text or help
was asked for, and a run that fails before it writes leaves all files as they were. -/
namespace RecordLog

namespace FileSystem

variable {fs fs' opened : FileSystem} {path bytes : Bytes} {loc : Location} {mode : Mode}
  {content : Bytes} {r : Except IoError Unit}

lemma take_sameBut {n : Nat} (h : fs.take loc bytes = .ok (n, fs')) : SameBut loc fs fs' := by
  unfold take at h
  split at h
  · cases h
    exact .insert loc fs _
  · cases h
    exact .refl loc fs
  · cases h
  · dsimp only at h
    split at h <;> cases h
    exact .insert loc fs _
  · cases h
  · cases h

/-- A write changes nothing but what it writes to. -/
lemma write_sameBut (fs : FileSystem) (loc : Location) (bytes : Bytes) :
    SameBut loc fs (fs.write loc bytes).2 := by
  fun_induction fs.write loc bytes with
  | case1 => exact .refl loc _
  | case2 => exact .refl loc _
  | case3 fs bytes some files taken => exact take_sameBut taken
  | case4 fs bytes some n files taken ih => exact (take_sameBut taken).trans ih

lemma truncate_sameBut (fs : FileSystem) (loc : Location) : SameBut loc fs (fs.truncate loc) := by
  unfold truncate
  split
  · exact .insert loc fs _
  · exact .refl loc fs

/-- A regular file that is opened holds just the new octets in the end. -/
lemma write_truncate (found : opened.lookup loc = some (.file mode content)) (bytes : Bytes) :
    ∃ files, (opened.truncate loc).write loc bytes = (.ok (), files) ∧
      files.lookup loc = some (.file mode bytes) := by
  have hempty : (opened.truncate loc).lookup loc = some (.file mode []) := by
    simp [truncate, found]
  by_cases empty : bytes = []
  · subst empty
    exact ⟨_, write_nil _ _, hempty⟩
  · exact ⟨_, write_file hempty empty, by simp⟩

/-- How an overwriting of the file at a path can go. -/
inductive Overwrites (fs : FileSystem) (path bytes : Bytes) :
    Except IoError Unit → FileSystem → Prop
  | refused {e} (fails : fs.openAppend path = .error e) :
    Overwrites fs path bytes (.error e) fs
  | file {p mode fs'} (finds : fs.Finds .create path p)
    (was : fs.lookup p.location = none ∧ mode = newFileMode ∨
      ∃ old, fs.lookup p.location = some (.file mode old))
    (holds : fs'.lookup p.location = some (.file mode bytes))
    (same : SameBut p.location fs fs') : Overwrites fs path bytes (.ok ()) fs'
  | other {p e r fs'} (finds : fs.Finds .create path p) (was : fs.lookup p.location = some e)
    (special : ∀ mode old, e ≠ .file mode old) (same : SameBut p.location fs fs') :
    Overwrites fs path bytes r fs'

theorem Overwrites.of_overwrite (h : fs.overwrite path bytes = (r, fs')) :
    Overwrites fs path bytes r fs' := by
  unfold overwrite at h
  split at h
  · rename_i fails
    cases h
    exact .refused fails
  · rename_i loc opened hopen
    have hsame := (truncate_sameBut opened loc).trans (write_sameBut _ loc bytes)
    rw [h] at hsame
    obtain ⟨p, finds, rfl, ⟨missing, -, rfl⟩ | ⟨e, found, -, rfl⟩⟩ := openAppend_cases hopen
    · obtain ⟨files, hwrite, holds⟩ :=
        write_truncate (lookup_insert fs p.location p.location _ ▸ if_pos rfl) bytes
      rw [hwrite] at h
      cases h
      exact .file finds (.inl ⟨missing, rfl⟩) holds ((SameBut.insert _ fs _).trans hsame)
    · by_cases hfile : ∃ mode old, e = .file mode old
      · obtain ⟨mode, old, rfl⟩ := hfile
        obtain ⟨files, hwrite, holds⟩ := write_truncate found bytes
        rw [hwrite] at h
        cases h
        exact .file finds (.inr ⟨old, found⟩) holds hsame
      · exact .other finds found (fun mode old heq => hfile ⟨mode, old, heq⟩) hsame

end FileSystem

namespace Writer
open CommandLine FileSystem

variable {args : List Bytes} {q : Request} {h : Host} {environment : Option String}

lemma foldlM_operands (operands : ∀ arg ∈ args, ∀ c cs, arg ≠ 45 :: c :: cs) (s : State Request) :
    args.foldlM (State.argument grammar) s = args.foldlM State.plain s := by
  induction args generalizing s with
  | nil => rfl
  | cons arg args ih =>
    obtain ⟨hfirst, hrest⟩ := List.forall_mem_cons.mp operands
    rw [List.foldlM_cons, List.foldlM_cons, State.argument_operand _ _ hfirst]
    exact congrArg _ (funext fun s => ih hrest s)

lemma pathValue_eq_ok {bs path : Bytes} : pathValue bs = .ok path ↔ bs = path ∧ path ≠ [] := by
  cases bs with
  | nil => simp [pathValue]
  | cons b bs =>
    simp only [pathValue, List.isEmpty_cons, Bool.false_eq_true, if_false, Except.ok.injEq]
    constructor
    · rintro rfl
      exact ⟨rfl, by simp⟩
    · exact fun h => h.1

lemma textValue_eq_ok {bs : Bytes} {text : String} :
    textValue bs = .ok text ↔ Utf8.decode? bs = some text := by
  unfold textValue
  cases Utf8.decode? bs <;> simp

/-- The path is looked at first, when the text is met. -/
lemma read_pair (a b : Bytes) :
    ([a, b].foldlM State.plain { settings := {}, operands := grammar.operands } >>= fun s =>
      s.settle >>= fun s =>
        if s.operands.isEmpty then .ok s.settings else .error .missingRequiredArgument) =
      pathValue a >>= fun path => textValue b >>= fun text => .ok ⟨path, text⟩ := by
  cases ha : pathValue a <;> cases hb : textValue b <;>
    simp [State.settle, State.plain, grammar, bind, Except.bind, pure, Except.pure, Except.map,
      ha, hb]

/-- Arguments none of which is an option must be a path and a text, and nothing more. -/
theorem read_eq_ok_iff (operands : ∀ arg ∈ args, ∀ c cs, arg ≠ 45 :: c :: cs) :
    grammar.read {} args = .ok q ↔
      ∃ value, args = [q.path, value] ∧ q.path ≠ [] ∧ Utf8.decode? value = some q.text := by
  rw [Grammar.read, foldlM_operands operands]
  rcases args with _ | ⟨a, _ | ⟨b, _ | ⟨c, rest⟩⟩⟩
  · simp [State.settle, grammar, bind, Except.bind, pure, Except.pure]
  · cases ha : pathValue a <;>
      simp [State.settle, State.plain, grammar, bind, Except.bind, pure, Except.pure, Except.map,
        ha]
  · rw [read_pair]
    constructor
    · intro hread
      obtain ⟨path, hpath, hread⟩ := bind_eq_ok.mp hread
      obtain ⟨text, htext, hread⟩ := bind_eq_ok.mp hread
      obtain ⟨rfl, named⟩ := pathValue_eq_ok.mp hpath
      cases hread
      exact ⟨b, rfl, named, textValue_eq_ok.mp htext⟩
    · rintro ⟨value, hargs, named, decoded⟩
      simp only [List.cons.injEq, and_true] at hargs
      obtain ⟨rfl, rfl⟩ := hargs
      exact bind_eq_ok.mpr ⟨_, pathValue_eq_ok.mpr ⟨rfl, named⟩,
        bind_eq_ok.mpr ⟨_, textValue_eq_ok.mpr decoded, rfl⟩⟩
  · cases ha : pathValue a <;>
      simp [State.settle, State.plain, grammar, bind, Except.bind, Except.map, ha]

/-- How a run ends. -/
inductive Ends (args : List Bytes) (environment : Option String) (h : Host) (r : Result) : Prop
  /-- The filter that the environment asks for cannot be read at all. -/
  | unfiltered {e} (choice : LogFilter.choose environment plainLevel = .error e)
    (code : r.exitCode = 101) (told : r.complains = true) (kept : r.files = h.files)
  | helped (asked : grammar.read {} args = .error .displayHelp) (code : r.exitCode = 0)
    (kept : r.files = h.files)
  | misused {e} (refused : grammar.read {} args = .error e) (code : r.exitCode = 1)
    (told : r.complains = true) (kept : r.files = h.files)
  | written {q : Request} (read : grammar.read {} args = .ok q) (code : r.exitCode = 0)
    (files : Overwrites h.files q.path (Bytes.ofString q.text) (.ok ()) r.files)
  | failed {q : Request} {e} (read : grammar.read {} args = .ok q) (code : r.exitCode = 1)
    (files : Overwrites h.files q.path (Bytes.ofString q.text) (.error e) r.files)
    (told : ∀ filter, LogFilter.choose environment plainLevel = .ok filter →
      let failure := event .error "Failed to write file"
        [("path", Utf8.lossy q.path), ("error", e.message)]
      filter.passes failure = true → failure ∈ r.shown)

lemma run_of_work {filter : LogFilter} {code : Nat} {complains : Bool} {h' : Host}
    (choice : LogFilter.choose environment plainLevel = .ok filter)
    (hwork : work args h = (code, complains, h')) :
    run args environment h = ⟨code, complains, h'.events.filter filter.passes, h'.files⟩ := by
  rw [run, choice]
  simp only [hwork]

lemma work_refused {e : Refusal} (other : e ≠ .displayHelp)
    (refused : grammar.read {} args = .error e) : work args h = (1, true, h.report
      (event .error "Invalid arguments, expected <writefile> <writestr>" [])) := by
  cases e with
  | displayHelp => exact (other rfl).elim
  | _ => rw [work, refused]

/-- The surroundings of a run that has understood its arguments. -/
def begun (q : Request) (h : Host) : Host :=
  h.report (event .debug s!"Writing {q.text} to {Utf8.lossy q.path}" [])

section
variable {files : FileSystem} (read : grammar.read {} args = .ok q)
include read

lemma work_written (wrote : h.files.overwrite q.path (Bytes.ofString q.text) = (.ok (), files)) :
    work args h = (0, false, { begun q h with files }) := by
  simp only [work, read, begun, Host.report, wrote]

lemma work_failed {e : IoError}
    (wrote : h.files.overwrite q.path (Bytes.ofString q.text) = (.error e, files)) :
    work args h = (1, false, { begun q h with files }.report (event .error "Failed to write file"
      [("path", Utf8.lossy q.path), ("error", e.message)])) := by
  simp only [work, read, begun, Host.report, wrote]

end

theorem run_ends (args : List Bytes) (environment : Option String) (h : Host) :
    Ends args environment h (run args environment h) := by
  cases choice : LogFilter.choose environment plainLevel with
  | error e =>
    rw [run, choice]
    exact .unfiltered choice rfl rfl rfl
  | ok filter =>
    cases read : grammar.read {} args with
    | error e =>
      by_cases help : e = .displayHelp
      · subst help
        have hwork : work args h = (0, false, h) := by rw [work, read]
        rw [run_of_work choice hwork]
        exact .helped read rfl rfl
      · rw [run_of_work choice (work_refused help read)]
        exact .misused read rfl rfl rfl
    | ok q =>
      rcases hwrote : h.files.overwrite q.path (Bytes.ofString q.text) with ⟨e | _, files⟩
      · rw [run_of_work choice (work_failed read hwrote)]
        refine .failed read rfl (.of_overwrite hwrote) ?_
        intro filter' choice' failure passes
        obtain rfl : filter = filter' := Except.ok.inj (choice.symm.trans choice')
        exact List.mem_filter.mpr ⟨List.mem_reverse.mpr List.mem_cons_self, passes⟩
      · rw [run_of_work choice (work_written read hwrote)]
        exact .written read rfl (.of_overwrite hwrote)

/-- A run that succeeds has shown help, or the text is what the file holds now and nothing else has
changed. Only what is no regular file may take a text without holding it. -/
theorem exitCode_zero (args : List Bytes) (environment : Option String) (h : Host) :
    let r := run args environment h
    r.exitCode = 0 → grammar.read {} args = .error .displayHelp ∧ r.files = h.files ∨
      ∃ q, grammar.read {} args = .ok q ∧
        Overwrites h.files q.path (Bytes.ofString q.text) (.ok ()) r.files := by
  intro r done
  cases run_ends args environment h with
  | unfiltered _ code | misused _ code | failed _ code =>
    rw [code] at done
    cases done
  | helped asked _ kept => exact .inl ⟨asked, kept⟩
  | written read _ files => exact .inr ⟨_, read, files⟩

/-- A path to a regular file that may be written, or where one may be made, and a text: the run
succeeds, and the file holds the text. -/
theorem run_writes {path : Bytes} {text : String} {p : Place} {opened : FileSystem} {mode : Mode}
    {content : Bytes} (named : path ≠ [])
    (operands : ∀ arg ∈ [path, Bytes.ofString text], ∀ c cs, arg ≠ 45 :: c :: cs)
    (filtered : ∃ filter, LogFilter.choose environment plainLevel = .ok filter)
    (opens : h.files.openAppend path = .ok (p.location, opened))
    (regular : opened.lookup p.location = some (.file mode content)) :
    (run [path, Bytes.ofString text] environment h).exitCode = 0 ∧
      (run [path, Bytes.ofString text] environment h).files.lookup p.location =
        some (.file mode (Bytes.ofString text)) := by
  have hread : grammar.read {} [path, Bytes.ofString text] = .ok ⟨path, text⟩ :=
    (read_eq_ok_iff operands).mpr ⟨_, rfl, named, Utf8.decode?_ofString text⟩
  obtain ⟨filter, choice⟩ := filtered
  obtain ⟨files, hwrite, holds⟩ := write_truncate regular (Bytes.ofString text)
  have hwrote : h.files.overwrite path (Bytes.ofString text) = (.ok (), files) := by
    rw [overwrite, opens]
    exact hwrite
  rw [run_of_work choice (work_written hread hwrote)]
  exact ⟨rfl, holds⟩

end Writer

end RecordLog
