import RecordLog.Proofs.Connection.Account
import RecordLog.Proofs.Server.Joining

/-! What is done in the course of a run: clients accepted, questions of workers answered, timestamps
appended. Beside it, what a move does to each worker, and what it does to the lock of the store, to
the files and to the flag. -/
namespace RecordLog.Server

open Connection (Exchange Request Reply)

inductive Deed
  | accepted (a : Arrival)
  /-- Worker `i` had its question answered. -/
  | exchanged (i : Nat) (x : Exchange)
  /-- The annotator appended a record, or failed to. -/
  | stamped (record : Bytes) (result : Except IoError Unit)

namespace Deed

/-- The exchange of worker `i`. -/
def exchange? (i : Nat) : Deed → Option Exchange
  | exchanged j x => if j = i then some x else none
  | _ => none

/-- A record that was to be appended, with the thread that tried to. -/
def write? : Deed → Option (Thread × Bytes)
  | exchanged i ⟨.append record, _⟩ => some (.worker i, record)
  | stamped record _ => some (.annotator, record)
  | _ => none

lemma exchange?_eq_some {d : Deed} {i : Nat} {x : Exchange} :
    d.exchange? i = some x ↔ d = exchanged i x := by
  cases d <;> simp [exchange?]

/-- Workers append by an exchange, and the annotator appends timestamps. -/
lemma write?_eq_some {d : Deed} {t : Thread} {record : Bytes} : d.write? = some (t, record) ↔
    (∃ i reply, t = .worker i ∧ d = exchanged i ⟨.append record, reply⟩) ∨
      ∃ result, t = .annotator ∧ d = stamped record result := by
  constructor
  · intro h
    unfold write? at h
    split at h <;> cases h
    · exact .inl ⟨_, _, rfl, rfl⟩
    · exact .inr ⟨_, rfl, rfl⟩
  · rintro (⟨i, reply, rfl, rfl⟩ | ⟨result, rfl, rfl⟩) <;> rfl

end Deed

/-- How a question of worker `i` is answered now, unless the worker has to wait. -/
def reply? (s : Server) (i : Nat) (w : Worker Session) : Request → Option Reply
  | .readFlag => some (.flag s.flag.triggered)
  | .receive limit => (w.task.receive? w.shut limit).map fun (r, _) => .received r
  | .append record =>
    if s.storeLock = some (.worker i) then some (.appended (s.store.append record s.host).1)
    else none
  | .readBack =>
    if s.storeLock = some (.worker i) then some (.content (s.store.readAll s.host)) else none
  | .send bytes => (w.task.send? w.shut bytes).map fun (r, _) => .accepted r

/-- The exchange that the next step of worker `i` makes. -/
def exchange? (s : Server) (i : Nat) : Option Exchange := do
  let w ← s.crew.workers[i]?
  if w.isComplete ∨ w.task.stage ≠ .serving then none
  else
    let q ← w.task.connection.phase.request?
    (s.reply? i w q).map (⟨q, ·⟩)

/-- What is done in a move. -/
def deed? (s : Server) : Move → Option Deed
  | .thread .acceptor =>
    match s.acceptor, s.listening, s.arrivals with
    | .accepting, true, .ok a :: _ => some (.accepted a)
    | _, _, _ => none
  | .thread (.worker i) => (s.exchange? i).map (.exchanged i)
  | .thread .annotator =>
    if s.annotator.phase = .appending ∧ s.storeLock = some .annotator then
      let record := Bytes.ofString s.clock.record
      some (.stamped record (s.store.append record s.host).1)
    else none
  | _ => none

/-- What `f` finds in the moves of a run, in order. -/
def collect {α : Type} (f : Server → Move → List α) (s : Server) : List Move → List α
  | [] => []
  | m :: moves => f s m ++ (s.step? m).elim [] fun s' => collect f s' moves

/-- All that is done in a run. -/
def history : Server → List Move → List Deed := collect fun s m => (s.deed? m).toList

/-- The exchanges of worker `i`. -/
def exchanges (i : Nat) (deeds : List Deed) : List Exchange := deeds.filterMap (·.exchange? i)

/-- The records that were to be appended, each with the thread that tried to. -/
def writes (deeds : List Deed) : List (Thread × Bytes) := deeds.filterMap Deed.write?

variable {s s' : Server} {m : Move} {i : Nat}

lemma run?_snoc {moves : List Move} :
    s.run? (moves ++ [m]) = some s' ↔ ∃ s₁, s.run? moves = some s₁ ∧ s₁.step? m = some s' := by
  rw [run?_append, Option.bind_eq_some_iff]
  constructor
  · rintro ⟨s₁, hmoves, hlast⟩
    obtain ⟨s₂, hstep, hnil⟩ := run?_cons.mp hlast
    obtain rfl : s₂ = s' := Option.some.inj hnil
    exact ⟨s₁, hmoves, hstep⟩
  · rintro ⟨s₁, hmoves, hstep⟩
    exact ⟨s₁, hmoves, run?_cons.mpr ⟨s', hstep, rfl⟩⟩

lemma collect_append {α : Type} (f : Server → Move → List α) {before : List Move}
    (after : List Move) (h : s.run? before = some s') :
    s.collect f (before ++ after) = s.collect f before ++ s'.collect f after := by
  induction before generalizing s with
  | nil =>
    obtain rfl : s = s' := Option.some.inj h
    rfl
  | cons m before ih =>
    obtain ⟨s₁, hfirst, hrest⟩ := run?_cons.mp h
    simp only [List.cons_append, collect, hfirst, Option.elim, ih hrest, List.append_assoc]

lemma collect_snoc {α : Type} (f : Server → Move → List α) {moves : List Move}
    (h : s.run? moves = some s') : s.collect f (moves ++ [m]) = s.collect f moves ++ f s' m := by
  rw [collect_append f [m] h]
  simp only [collect]
  cases s'.step? m <;> simp

lemma history_snoc {moves : List Move} (h : s.run? moves = some s') :
    s.history (moves ++ [m]) = s.history moves ++ (s'.deed? m).toList := collect_snoc _ h

/-- What is done in a run is done in one of its moves. -/
lemma history_split {moves : List Move} {before after : List Deed} {d : Deed}
    (h : s.run? moves = some s') (hd : s.history moves = before ++ d :: after) :
    ∃ early m late s₁ s₂, moves = early ++ m :: late ∧ s.run? early = some s₁ ∧
      s.history early = before ∧ s₁.step? m = some s₂ ∧ s₁.deed? m = some d := by
  induction moves generalizing s before with
  | nil => simp [history, collect] at hd
  | cons m moves ih =>
    obtain ⟨s₁, hstep, hrest⟩ := run?_cons.mp h
    have hhistory : ∀ moves, s.history (m :: moves) = (s.deed? m).toList ++ s₁.history moves := by
      intro moves
      simp only [history, collect, hstep, Option.elim]
    have later : ∀ before', (s.deed? m).toList ++ before' = before →
        s₁.history moves = before' ++ d :: after → ∃ early m' late s₂ s₃,
          m :: moves = early ++ m' :: late ∧ s.run? early = some s₂ ∧ s.history early = before ∧
            s₂.step? m' = some s₃ ∧ s₂.deed? m' = some d := by
      intro before' hbefore hlater
      obtain ⟨early, m', late, s₂, s₃, rfl, hearly, rfl, hmove, hdeed⟩ := ih hrest hlater
      exact ⟨m :: early, m', late, s₂, s₃, rfl, run?_cons.mpr ⟨s₁, hstep, hearly⟩,
        (hhistory early).trans hbefore, hmove, hdeed⟩
    rw [hhistory] at hd
    cases hnow : s.deed? m with
    | none => exact later before (by simp [hnow]) (by simpa [hnow] using hd)
    | some e =>
      cases before with
      | nil =>
        obtain ⟨rfl, -⟩ : e = d ∧ s₁.history moves = after := by simpa [hnow] using hd
        exact ⟨[], m, moves, s, s₁, rfl, rfl, rfl, hstep, hnow⟩
      | cons b before =>
        obtain ⟨rfl, hlater⟩ : e = b ∧ s₁.history moves = before ++ d :: after := by
          simpa [hnow] using hd
        exact later before (by simp [hnow]) hlater

lemma mem_history {made rest : List Move} {d : Deed} (h : s.run? made = some s')
    (hd : s'.deed? m = some d) : d ∈ s.history (made ++ m :: rest) := by
  rw [history, collect_append _ _ h, List.mem_append, collect, List.mem_append]
  exact .inr (.inl (by simp [hd]))

/-- The annotator appends the time of its moment. -/
lemma stamped_record {record : Bytes} {result : Except IoError Unit}
    (hd : s.deed? m = some (.stamped record result)) : record = Bytes.ofString s.clock.record := by
  cases m with
  | thread t =>
    cases t with
    | annotator =>
      obtain ⟨-, hstamped⟩ := Option.ite_none_right_eq_some.mp hd
      cases hstamped
      rfl
    | worker i =>
      obtain ⟨x, -, hx⟩ := Option.map_eq_some_iff.mp hd
      cases hx
    | acceptor =>
      simp only [deed?] at hd
      split at hd <;> cases hd
    | coordinator => cases hd
  | _ => cases hd

lemma mem_exchanges {i : Nat} {x : Exchange} {deeds : List Deed} :
    x ∈ exchanges i deeds ↔ .exchanged i x ∈ deeds := by
  rw [exchanges, List.mem_filterMap]
  constructor
  · rintro ⟨d, hd, hx⟩
    exact Deed.exchange?_eq_some.mp hx ▸ hd
  · exact fun hx => ⟨_, hx, Deed.exchange?_eq_some.mpr rfl⟩

lemma exchanges_snoc (i : Nat) (deeds : List Deed) (d : Option Deed) :
    exchanges i (deeds ++ d.toList) = exchanges i deeds ++ (d.bind (·.exchange? i)).toList := by
  rw [exchanges, List.filterMap_append]
  cases d with
  | none => rfl
  | some d => cases hd : d.exchange? i <;> simp [exchanges, hd]

lemma writes_snoc (deeds : List Deed) (d : Option Deed) :
    writes (deeds ++ d.toList) = writes deeds ++ (d.bind Deed.write?).toList := by
  rw [writes, List.filterMap_append]
  cases d with
  | none => rfl
  | some d => cases hd : d.write? <;> simp [writes, hd]

/-- What holds at the start and is kept by every move of a run holds at its end. -/
theorem run_induct {P : List Move → Server → Prop} {moves : List Move}
    (step : ∀ made m rest s₁ s₂, moves = made ++ m :: rest → s.run? made = some s₁ → P made s₁ →
      s₁.step? m = some s₂ → P (made ++ [m]) s₂)
    (start : P [] s) (run : s.run? moves = some s') : P moves s' := by
  have general : ∀ made rest s₁, moves = made ++ rest → s.run? made = some s₁ → P made s₁ →
      s₁.run? rest = some s' → P (made ++ rest) s' := by
    intro made rest
    induction rest generalizing made with
    | nil =>
      intro s₁ _ _ h hrest
      obtain rfl : s₁ = s' := Option.some.inj hrest
      rwa [List.append_nil]
    | cons m rest ih =>
      intro s₁ hmoves hmade h hrest
      obtain ⟨s₂, hstep, hrest⟩ := run?_cons.mp hrest
      have hsplit : moves = (made ++ [m]) ++ rest := by rw [hmoves, List.append_assoc]; rfl
      have hnext := step made m rest s₁ s₂ hmoves hmade h hstep
      have hlast := ih (made ++ [m]) s₂ hsplit (run?_snoc.mpr ⟨s₁, hmade, hstep⟩) hnext hrest
      rwa [List.append_assoc] at hlast
  exact general [] moves s rfl rfl start run

end RecordLog.Server
