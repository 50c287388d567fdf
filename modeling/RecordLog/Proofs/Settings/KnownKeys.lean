import RecordLog.Proofs.Settings.Precedence
import RecordLog.Proofs.Toml.Tidy

/-! What a configuration file cannot say. Only its known keys count: whatever else is in it, the
order in which it comes, and whether a section is a table or an array make no difference, and
neither does a setting that the command line gives. -/
namespace RecordLog.Settings

open Toml (Value Entries)

namespace Part

/-- What is there for a section can hold entries or not, and holds the same for the known ones. -/
structure Same (p : Part) (part part' : Option Value) : Prop where
  shape : (fields? part).isSome = (fields? part').isSome
  held : ∀ i f, p.fields[i]? = some f → held? part i f.name = held? part' i f.name

/-- Two ways to write a section that differ in nothing a reader of it looks for. -/
inductive Alike (p : Part) : Value → Value → Prop
  | refl {v} : Alike p v v
  | symm {v v'} (h : Alike p v v') : Alike p v' v
  | trans {v v₁ v'} (h : Alike p v v₁) (h' : Alike p v₁ v') : Alike p v v'
  /-- Entries of a table in another order, and the table opened in another way. -/
  | order {origin origin' entries entries'} (distinct : (entries.map Prod.fst).Nodup)
      (perm : entries.Perm entries') : Alike p (.table origin entries) (.table origin' entries')
  | unknown {origin entries name v} (new : ∀ f ∈ p.fields, f.name ≠ name) :
    Alike p (.table origin ((name, v) :: entries)) (.table origin entries)
  | extra {v v' items more} (listed : Value.items? v = some items)
      (listed' : Value.items? v' = some (items ++ more))
      (full : p.fields.length ≤ items.length) : Alike p v' v
  /-- An array of what the table has, as far as both go. -/
  | listed {v items origin entries} (listed : Value.items? v = some items)
      (same : ∀ (i : Nat) (f : Field), p.fields[i]? = some f →
        entries.lookup f.name = items[i]?) : Alike p v (.table origin entries)
  | dateTime {origin} : Alike p .dateTime (.table origin [])

variable {p : Part}

namespace Same

variable {part part₁ part' : Option Value}

lemma refl : p.Same part part := ⟨rfl, fun _ _ _ => rfl⟩

lemma symm (h : p.Same part part') : p.Same part' part :=
  ⟨h.shape.symm, fun i f hf => (h.held i f hf).symm⟩

lemma trans (h : p.Same part part₁) (h' : p.Same part₁ part') : p.Same part part' :=
  ⟨h.shape.trans h'.shape, fun i f hf => (h.held i f hf).trans (h'.held i f hf)⟩

lemma fits_iff (h : p.Same part part') : p.Fits part ↔ p.Fits part' := by
  have known : (∀ i f, p.fields[i]? = some f → ∀ v, held? part i f.name = some v →
      f.kind.Admits v) ↔ ∀ i f, p.fields[i]? = some f → ∀ v, held? part' i f.name = some v →
      f.kind.Admits v := by
    constructor
    · intro fits i f hf v held
      exact fits i f hf v ((h.held i f hf).trans held)
    · intro fits i f hf v held
      exact fits i f hf v ((h.held i f hf).symm.trans held)
  rw [Part.fits_iff, Part.fits_iff, h.shape, known]

end Same

lemma Alike.same {v v' : Value} (h : p.Alike v v') : p.Same (some v) (some v') := by
  induction h with
  | refl => exact .refl
  | symm _ ih => exact ih.symm
  | trans _ _ ih ih' => exact ih.trans ih'
  | order distinct perm => exact ⟨rfl, fun i f _ => Entries.lookup_perm distinct perm f.name⟩
  | @unknown origin entries name v new =>
    refine ⟨rfl, fun i f hf => ?_⟩
    have other : (f.name == name) = false := by simpa using new f (List.mem_of_getElem? hf)
    rw [held?_table, held?_table, List.lookup_cons, other]
  | @extra v v' items more listed listed' full =>
    refine ⟨by rw [fields?_items listed, fields?_items listed']; rfl, fun i f hf => ?_⟩
    have within : i < items.length := Nat.lt_of_lt_of_le (List.getElem?_eq_some_iff.mp hf).1 full
    rw [held?_items listed, held?_items listed', List.getElem?_append_left within]
  | listed listed same =>
    refine ⟨by rw [fields?_items listed]; rfl, fun i f hf => ?_⟩
    rw [held?_items listed, held?_table, same i f hf]
  | dateTime => exact ⟨rfl, fun _ _ _ => rfl⟩

/-- A section without entries is as good as none. -/
lemma Same.empty {origin : Toml.Origin} : p.Same (some (.table origin [])) none :=
  ⟨rfl, fun _ _ _ => rfl⟩

end Part

/-- Two documents that differ in nothing a reader of them looks for. -/
inductive Alike : Entries → Entries → Prop
  | refl {root} : Alike root root
  | symm {root root'} (h : Alike root root') : Alike root' root
  | trans {root root₁ root'} (h : Alike root root₁) (h' : Alike root₁ root') : Alike root root'
  | order {root root'} (distinct : (root.map Prod.fst).Nodup) (perm : root.Perm root') :
    Alike root root'
  | unknown {root key v} (new : ∀ p ∈ parts, p.key ≠ key) : Alike ((key, v) :: root) root
  /-- What is there for a key that no section has may be anything. -/
  | part {root key v v'} (alike : ∀ p ∈ parts, p.key = key → p.Alike v v') :
    Alike ((key, v) :: root) ((key, v') :: root)
  | empty {root key v} (missing : root.lookup key = none)
      (alike : ∀ p ∈ parts, p.key = key → p.Alike v (.table .header [])) :
    Alike ((key, v) :: root) root

lemma Alike.same {root root' : Entries} (h : Alike root root') :
    ∀ p ∈ parts, p.Same (root.lookup p.key) (root'.lookup p.key) := by
  induction h with
  | refl => exact fun p _ => .refl
  | symm _ ih => exact fun p hp => (ih p hp).symm
  | trans _ _ ih ih' => exact fun p hp => (ih p hp).trans (ih' p hp)
  | order distinct perm =>
    intro p _
    rw [Entries.lookup_perm distinct perm]
    exact .refl
  | @unknown root key v new =>
    intro p hp
    have other : (p.key == key) = false := by simpa using new p hp
    rw [List.lookup_cons, other]
    exact .refl
  | @part root key v v' alike =>
    intro p hp
    rw [List.lookup_cons, List.lookup_cons]
    by_cases h : p.key = key
    · rw [beq_iff_eq.mpr h]
      exact (alike p hp h).same
    · rw [beq_eq_false_iff_ne.mpr h]
      exact .refl
  | @empty root key v missing alike =>
    intro p hp
    rw [List.lookup_cons]
    by_cases h : p.key = key
    · rw [beq_iff_eq.mpr h, h, missing]
      exact (alike p hp h).same.trans .empty
    · rw [beq_eq_false_iff_ne.mpr h]
      exact .refl

/-- What decodes is decided by what the sections hold for the known entries. -/
lemma File.ofEntries_congr {root root' : Entries}
    (same : ∀ p ∈ parts, p.Same (root.lookup p.key) (root'.lookup p.key)) :
    File.ofEntries root = File.ofEntries root' := by
  have fits : (∀ p ∈ parts, p.Fits (root.lookup p.key)) ↔
      ∀ p ∈ parts, p.Fits (root'.lookup p.key) :=
    forall₂_congr fun p hp => (same p hp).fits_iff
  have written : File.written root = File.written root' := by
    have server := (same .server (by simp [parts])).held
    have listen : field? root "server" 0 "listen" = field? root' "server" 0 "listen" :=
      server 0 _ rfl
    have backlog : field? root "server" 1 "backlog" = field? root' "server" 1 "backlog" :=
      server 1 _ rfl
    have path : field? root "store" 0 "path" = field? root' "store" 0 "path" :=
      (same .store (by simp [parts])).held 0 _ rfl
    have secs : field? root "annotator" 0 "interval_secs" =
        field? root' "annotator" 0 "interval_secs" :=
      (same .annotator (by simp [parts])).held 0 _ rfl
    have logging := (same .logging (by simp [parts])).held
    have level : field? root "logging" 0 "level" = field? root' "logging" 0 "level" :=
      logging 0 _ rfl
    have file : field? root "logging" 1 "file" = field? root' "logging" 1 "file" :=
      logging 1 _ rfl
    rw [File.written, File.written, listen, backlog, path, secs, level, file]
  apply Option.ext
  intro file
  rw [File.ofEntries_eq_some_iff, File.ofEntries_eq_some_iff, fits, written]

/-- Files that say the same where the options leave them the word. A level is left to the file
where the options give the default one. -/
structure Options.Agree (o : Options) (file file' : File) : Prop where
  backlog : file.server.backlog = file'.server.backlog
  listen : o.listen = none → file.server.listen = file'.server.listen
  dataFile : o.dataFile = none → file.store.path = file'.store.path
  interval : o.interval = none → file.annotator.intervalSecs = file'.annotator.intervalSecs
  logLevel : o.logLevel.getD plainLevel = plainLevel → file.logging.level = file'.logging.level
  logFile : o.logFile = none → file.logging.file = file'.logging.file

lemma getD_congr {α : Type} {given : Option α} {a b : α} (h : given = none → a = b) :
    given.getD a = given.getD b := by
  cases given with
  | none => exact h rfl
  | some _ => rfl

lemma resolve_congr {o : Options} {file file' : File} (agree : o.Agree file file') :
    resolve o file = resolve o file' := by
  have level : (if o.logLevel.getD plainLevel ≠ plainLevel then o.logLevel.getD plainLevel
      else file.logging.level) = if o.logLevel.getD plainLevel ≠ plainLevel then
        o.logLevel.getD plainLevel else file'.logging.level := by
    split
    · rfl
    · rename_i plain
      exact agree.logLevel (Decidable.not_not.mp plain)
  have logFile : (o.logFile <|> file.logging.file.map Bytes.ofString) =
      (o.logFile <|> file'.logging.file.map Bytes.ofString) := by
    cases given : o.logFile with
    | none => rw [agree.logFile given]
    | some path => rfl
  unfold resolve
  dsimp only
  rw [getD_congr agree.listen, agree.backlog, getD_congr agree.interval, level, logFile,
    getD_congr fun missing => congrArg Bytes.ofString (agree.dataFile missing)]

lemma resolve_ends (o : Options) (file : File) :
    (∃ s, resolve o file = .ok s) ∨ resolve o file = .error .zeroInterval := by
  unfold resolve
  dsimp only
  split
  · exact .inr rfl
  · exact .inl ⟨_, rfl⟩

/-- A text that is a document decodes exactly if each section in it is missing, a date, a table or
an array, and has entries of the right kind where it has known ones; what is missing gets its
default. A document that is alike decodes to the same or not either. And two files that agree
wherever the command line leaves them the word load to the same settings, or to the same lack of
an interval. -/
theorem load_by_known_keys {text : String} {root : Entries}
    (parsed : Toml.parse text.toList = some root) :
    root.Tidy ∧
    (∀ file, File.parse text = some file ↔
      (∀ p ∈ parts, p.Fits (root.lookup p.key)) ∧ file = File.written root) ∧
    (∀ text' root', Toml.parse text'.toList = some root' → Alike root root' →
      File.parse text' = File.parse text) ∧
    ∀ args o fs fs' root' file file', Options.parse args = .ok o →
      o.document? fs = some root → o.document? fs' = some root' →
      File.ofEntries root = some file → File.ofEntries root' = some file' →
      o.Agree file file' → load args fs = load args fs' ∧
        ((∃ s, load args fs = .ok s) ∨ load args fs = .error .zeroInterval) := by
  have decodes : File.parse text = File.ofEntries root := by
    rw [File.parse, parsed, Option.bind_some]
  refine ⟨Toml.parse_tidy parsed, fun file => ?_, fun text' root' parsed' alike => ?_, ?_⟩
  · rw [decodes]
    exact File.ofEntries_eq_some_iff
  · rw [decodes, File.parse, parsed', Option.bind_some]
    exact (File.ofEntries_congr alike.same).symm
  · intro args o fs fs' root' file file' options document document' decoded decoded' agree
    rw [load_eq_resolve options document decoded, load_eq_resolve options document' decoded']
    exact ⟨resolve_congr agree, resolve_ends o file⟩

/-- A table after an unknown one, with an unknown entry, and the same as an array. -/
theorem load_by_known_keys_listed :
    let text := "[other]\n[logging]\nlevel = \"debug\"\nmore = 2\n"
    let listed := "logging = [\"debug\"]\n"
    ∃ root file, Toml.parse text.toList = some root ∧ root.Tidy ∧
      (∀ p ∈ parts, p.Fits (root.lookup p.key)) ∧ File.parse text = some file ∧
      file.logging.level = "debug" ∧ file.server = {} ∧ File.parse listed = some file := by
  intro text listed
  let root : Entries := [("other", .table .header []),
    ("logging", .table .header [("level", .string "debug"), ("more", .integer 2)])]
  let root' : Entries := [("logging", .array [.string "debug"])]
  have parsed : Toml.parse text.toList = some root := by decide +kernel
  have parsed' : Toml.parse listed.toList = some root' := by decide +kernel
  have decoded : File.parse text = some { logging := { level := "debug" } } := by
    decide +kernel
  have alike : Alike root root' := by
    refine .trans (.unknown (by decide)) (.part fun p hp hkey => ?_)
    simp only [parts, List.mem_cons, List.not_mem_nil, or_false] at hp
    obtain rfl | rfl | rfl | rfl := hp
    case inr.inr.inr =>
      exact .symm (.listed rfl (by simp [Part.logging, forall_getElem?_cons]))
    all_goals exact absurd hkey (by decide)
  obtain ⟨tidy, decodes, same, -⟩ := load_by_known_keys parsed
  exact ⟨root, _, parsed, tidy, ((decodes _).mp decoded).1, decoded, rfl, rfl,
    (same listed root' parsed' alike).trans decoded⟩

/-- A section that is neither a table nor an array, in a document that decodes. -/
theorem date_counts_as_section :
    ¬ ∀ (text : String) (root : Entries), Toml.parse text.toList = some root →
      ((File.parse text).isSome ↔ ∀ p ∈ parts, ∀ v, root.lookup p.key = some v →
        ((∃ origin entries, v = .table origin entries) ∨ v.items?.isSome) ∧ p.Fits (some v)) := by
  intro claimed
  let text := "server = 1979-05-27\n"
  have parsed : Toml.parse text.toList = some [("server", .dateTime)] := by decide +kernel
  have decoded : (File.parse text).isSome := by decide +kernel
  obtain ⟨⟨origin, entries, htable⟩ | hitems, -⟩ :=
    (claimed text _ parsed).mp decoded .server (by simp [parts]) .dateTime rfl
  · cases htable
  · cases hitems

end RecordLog.Settings
