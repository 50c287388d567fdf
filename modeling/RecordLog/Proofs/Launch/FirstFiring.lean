import RecordLog.Proofs.Launch.ServerStart
import RecordLog.Proofs.Settings.Precedence

/-! The first firing of the annotator. Settings never have an empty interval, but the interval may
reach beyond the last instant that the clock can tell, and then there is no server. -/
namespace RecordLog

namespace Settings

open CommandLine (maxNumber numberValue)

lemma numberValue_le {bs : Bytes} {n : Nat} (h : numberValue bs = .ok n) : n ≤ maxNumber := by
  obtain ⟨text, -, h⟩ := bind_eq_ok.mp h
  dsimp only at h
  generalize Decimal.read? _ = read at h
  cases read with
  | none => cases h
  | some k =>
    dsimp only at h
    split at h
    · rename_i small
      exact Except.ok.inj h ▸ small
    · cases h

/-- An interval on the command line has 64 bits. -/
lemma parse_interval_le {args : List Bytes} {o : Options} (parsed : Options.parse args = .ok o) :
    ∀ n ∈ o.interval, n ≤ maxNumber := by
  intro n hn
  obtain ⟨cs, -, -, holds⟩ := parse_reads parsed
  have held : Option.Rel (fun bs n => numberValue bs = .ok n) (chosen .interval cs) o.interval :=
    holds .interval
  rw [hn] at held
  generalize chosen .interval cs = given at held
  cases held with
  | some hread => exact numberValue_le hread

/-- An interval in a file has 63 bits. -/
lemma File.interval_le {root : Toml.Entries} {file : File} (h : File.ofEntries root = some file) :
    file.annotator.intervalSecs ≤ Clock.maxSeconds := by
  obtain ⟨-, rfl⟩ := File.ofEntries_eq_some_iff.mp h
  unfold File.written
  dsimp only
  generalize field? root "annotator" 0 "interval_secs" = held
  cases hread : held.bind fun v => (bounded? 0 Toml.maxInteger v).map Int.toNat with
  | none => decide
  | some n =>
    obtain ⟨v, -, hv⟩ := Option.bind_eq_some_iff.mp hread
    obtain ⟨i, hi, rfl⟩ := Option.map_eq_some_iff.mp hv
    obtain ⟨-, -, small⟩ := bounded?_eq_some.mp hi
    exact Int.toNat_le.mpr small

lemma resolve_interval {o : Options} {file : File} {s : Settings} (h : resolve o file = .ok s) :
    s.interval = o.interval.getD file.annotator.intervalSecs ∧ 0 < s.interval := by
  unfold resolve at h
  dsimp only at h
  split at h
  · cases h
  · rename_i positive
    obtain rfl := Except.ok.inj h
    exact ⟨rfl, Nat.pos_of_ne_zero positive⟩

end Settings

namespace Clock

/-- A stretch of whole seconds leaves the fraction of the second as it is. -/
lemma seconds_after (now secs : Nat) :
    (now + ofSeconds secs) / 1000000000 = now / 1000000000 + secs := by
  rw [ofSeconds, Nat.add_mul_div_right _ _ (by decide)]

end Clock

namespace Annotator

lemma start?_ofSeconds (clock : Clock) {secs : Nat} (some : 0 < secs) :
    start? clock (Clock.ofSeconds secs) =
      if clock.now / 1000000000 + secs ≤ Clock.maxSeconds then
        .some { period := Clock.ofSeconds secs, deadline := clock.now + Clock.ofSeconds secs }
      else none := by
  have lasting : Clock.ofSeconds secs ≠ 0 := by
    unfold Clock.ofSeconds
    omega
  rw [start?, Clock.deadline?, Clock.seconds_after, if_neg lasting]
  split <;> rfl

end Annotator

namespace Settings

/-- Whatever the command line and the file say, the interval is not empty and has 64 bits. -/
lemma load_interval {args : List Bytes} {fs : FileSystem} {s : Settings}
    (loaded : load args fs = .ok s) : 0 < s.interval ∧ s.interval ≤ CommandLine.maxNumber := by
  obtain ⟨o, root, file, parsed, decoded, resolved⟩ := load_eq_ok loaded
  obtain ⟨hinterval, positive⟩ := resolve_interval resolved
  refine ⟨positive, ?_⟩
  rw [hinterval]
  cases hgiven : o.interval with
  | none => exact Nat.le_trans (File.interval_le decoded) (by decide)
  | some n => exact parse_interval_le parsed n hgiven

end Settings

namespace Launch

namespace Started

variable {m m' : Machine} {period : Nat} {r : Except Failure Server}

/-- There is a server, or an error of the server, or a panic. -/
lemma ends (h : Started m period r m') :
    (∃ server, r = .ok server) ∨ (∃ e, r = .error (.server e)) ∨ r = .error .panic := by
  cases h with
  | early => exact .inr (.inl ⟨_, rfl⟩)
  | untold => exact .inr (.inr rfl)
  | noAnnotator => exact .inr (.inl ⟨_, rfl⟩)
  | noAcceptor => exact .inr (.inl ⟨_, rfl⟩)
  | serves => exact .inl ⟨_, rfl⟩

lemma panics_iff (h : Started m period r m') : r = .error .panic ↔
    Annotator.start? m.clock period = none ∧ ∀ call ∈ timerCalls, m.refuses call = none := by
  cases h with
  | early before refused =>
    refine iff_of_false (by simp) fun hboth => ?_
    rw [hboth.2 _ before] at refused
    cases refused
  | untold permitted far => exact iff_of_true rfl ⟨far, permitted⟩
  | noAnnotator permitted told | noAcceptor permitted told | serves permitted told =>
    refine iff_of_false (by simp) fun hboth => ?_
    rw [hboth.1] at told
    cases told

end Started

/-- The first firing is one interval after the start, which the clock can tell if its seconds have
63 bits. Then starting a server gives one or an error of the server. If they have more, it panics
unless the system refuses an earlier call. -/
theorem first_firing_told {args : List Bytes} {fs : FileSystem} {s : Settings}
    (loaded : Settings.load args fs = .ok s) (m : Machine) (address : SocketAddress)
    (store : LogStore) :
    let period := Clock.ofSeconds s.interval
    let seconds := m.clock.now / 1000000000 + s.interval
    let result := ((startServer address store period).run m).1
    0 < period ∧ s.interval ≤ CommandLine.maxNumber ∧
      (Annotator.start? m.clock period = none ↔ Clock.maxSeconds < seconds) ∧
      (∀ a, Annotator.start? m.clock period = some a → a.period = period ∧
        a.deadline = m.clock.now + period ∧ a.deadline / 1000000000 = seconds ∧
        a.phase = .waiting) ∧
      ((∃ server, result = .ok server) ∨ (∃ e, result = .error (.server e)) ∨
        result = .error .panic) ∧
      (result = .error .panic ↔
        Clock.maxSeconds < seconds ∧ ∀ call ∈ timerCalls, m.refuses call = none) := by
  intro period seconds result
  obtain ⟨positive, small⟩ := Settings.load_interval loaded
  have hstart := Annotator.start?_ofSeconds m.clock positive
  have untold : Annotator.start? m.clock period = none ↔ Clock.maxSeconds < seconds := by
    rw [hstart, ite_eq_right_iff]
    simp [seconds]
  have started : Started m period result _ := Started.of_run (Prod.eta _).symm
  refine ⟨Nat.mul_pos positive (by decide), small, untold, fun a ha => ?_, started.ends, ?_⟩
  · rw [hstart] at ha
    split at ha
    · obtain rfl := Option.some.inj ha
      exact ⟨rfl, rfl, Clock.seconds_after _ _, rfl⟩
    · cases ha
  · rw [started.panics_iff, untold]

/-- The largest interval on the command line, and a system that refuses nothing. -/
theorem first_firing_told_largest_interval :
    let text := Bytes.ofString
    let args := ["--interval", "18446744073709551615"].map text
    let m : Machine := { host := { files := FileSystem.fresh [] } }
    ∃ s, Settings.load args m.host.files = .ok s ∧ s.interval = CommandLine.maxNumber ∧
      Annotator.start? m.clock (Clock.ofSeconds s.interval) = none ∧
      ((startServer (.v4 ⟨127, 0, 0, 1⟩ 9000) ⟨text "/log"⟩ (Clock.ofSeconds s.interval)).run
        m).1 = .error .panic := by
  intro text args m
  obtain ⟨s, loaded, hinterval⟩ := Option.map_eq_some_iff.mp (by decide +kernel :
    (Settings.load args m.host.files).toOption.map Settings.interval = some CommandLine.maxNumber)
  have loaded : Settings.load args m.host.files = .ok s := toOption_eq_some.mp loaded
  obtain ⟨-, -, untold, -, -, panics⟩ :=
    first_firing_told loaded m (.v4 ⟨127, 0, 0, 1⟩ 9000) ⟨text "/log"⟩
  have far : Clock.maxSeconds < m.clock.now / 1000000000 + s.interval := by
    rw [hinterval]
    decide
  exact ⟨s, loaded, hinterval, untold.mpr far, panics.mpr ⟨far, fun _ _ => rfl⟩⟩

end Launch

end RecordLog
