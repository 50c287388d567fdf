import Mathlib.Data.List.Induction
import RecordLog.Proofs.Server.Shutdown
import RecordLog.Proofs.Server.Streams
import RecordLog.Proofs.Timestamp

/-! What clients see of each other. While nothing fails and everybody is served to the end, the log
is what all have written, in the order in which they got hold of it, and every echo is the log of
some moment after the record that it echoes. -/
namespace RecordLog

namespace Connection

/-- Served to the end of the stream, a connection has appended all its complete records and sent the
content it read back after each. -/
lemma replay_closed {id : Nat} {c : Connection} {made : List Exchange}
    (run : ({ id } : Connection).replay? made = some c) (closed : c.ending? = some .peerClosed) :
    (RecordLog.records (octetsReceived made)).1 = recordsAppended made ∧
      octetsSent made = (readBacks made).flatten ∧
      (readBacks made).length = (recordsAppended made).length := by
  have h : Account { id } made c := replay_account (c := { id }) run
  have hdrained : c.Drained := by
    have hstart : ({ id } : Connection).Drained := fun _ => List.not_mem_nil
    exact @replay?_induct (fun _ c => c.Drained) Drained.step [] _ _ _ hstart run
  have hphase := ending?_eq_some.mp closed
  obtain ⟨held, hheld, hsum⟩ := h.octets
  obtain ⟨echoed, contents, part, hunsent, hreads, hrecords, hsends⟩ := h.echoes
  have hcounted := h.counted
  rw [hphase] at hheld hunsent hcounted
  obtain rfl : held = [] := Classical.not_not.mp hheld.2.mp
  obtain ⟨rfl, rfl⟩ := hunsent
  have htail : delimiter ∉ c.buffer.bytes := hdrained (by rw [hphase]; trivial)
  rw [List.append_nil] at hreads hsends
  refine ⟨?_, by rw [hsends, hreads], ?_⟩
  · have hall : octetsReceived made = (recordsAppended made).flatten ++ c.buffer.bytes := by
      simpa using hsum
    rw [hall, records_flatten_append h.framed htail]
  · have hnone : (Phase.closed .peerClosed).uncounted = 0 := rfl
    rw [hreads]
    omega

/-- If nothing fails and the flag is never found set, the end is the end of the stream. -/
lemma replay_peerClosed {id : Nat} {c : Connection} {made : List Exchange} {e : Ending}
    (run : ({ id } : Connection).replay? made = some c)
    (sound : ∀ x ∈ made, x.reply ≠ .flag true ∧ ¬ x.Fails) (ended : c.ending? = some e) :
    e = .peerClosed := by
  have hstart : ∀ e, ({ id } : Connection).ending? = some e → e = .peerClosed := fun _ h => by
    cases h
  refine @replay?_induct (fun made c => (∀ x ∈ made, x.reply ≠ .flag true ∧ ¬ x.Fails) →
    ∀ e, c.ending? = some e → e = .peerClosed) ?_ [] _ _ _ (fun _ => hstart) run sound e ended
  intro made c x d _ hstep hsound e hended
  obtain ⟨hunset, hfine⟩ := hsound x (by simp)
  obtain hnone | ⟨hclosed, -⟩ | hset | hfails := hstep.ending
  · rw [hended] at hnone
    cases hnone
  · exact Option.some.inj (hended.symm.trans hclosed)
  · exact (hunset hset).elim
  · exact (hfine hfails).elim

end Connection

namespace Server

open Connection (Exchange Request Reply recordsAppended readBacks octetsReceived)

/-- The records of thread `t`, in order. -/
def recordsOf (t : Thread) (ws : List (Thread × Bytes)) : List Bytes :=
  ws.filterMap fun (u, record) => if u = t then some record else none

/-- All that was written, one record after another. -/
def logged (deeds : List Deed) : Bytes := ((writes deeds).map (·.2)).flatten

variable {s s' s₀ : Server} {m : Move} {i : Nat} {w : Worker Session} {deeds : List Deed}
  {moves : List Move}

/-- The call that was made failed for good. -/
def Deed.Fails : Deed → Prop
  | exchanged _ x => x.Fails
  | stamped _ (.error _) => True
  | _ => False

instance : DecidablePred Deed.Fails
  | .exchanged _ x => inferInstanceAs (Decidable x.Fails)
  | .stamped _ (.error _) => inferInstanceAs (Decidable True)
  | .accepted _ | .stamped _ (.ok _) => inferInstanceAs (Decidable False)

/-- Nothing fails, nobody else touches the files, and the flag is not set before everybody has been
served to the end. -/
structure Calm (s₀ : Server) (moves : List Move) : Prop where
  alone : ∀ c, .change c ∉ moves
  sound : ∀ d ∈ s₀.history moves, ¬ d.Fails
  patient : ∀ early late s, moves = early ++ late → s₀.run? early = some s → s.flag.triggered →
    ∀ w ∈ s.crew.workers, w.task.connection.ending?.isSome

lemma Calm.early {late : List Move} (h : Calm s₀ (moves ++ late))
    (hrun : s₀.run? moves = some s) : Calm s₀ moves where
  alone c hc := h.alone c (List.mem_append_left _ hc)
  sound d hd := by
    refine h.sound d ?_
    rw [history, collect_append _ _ hrun]
    exact List.mem_append_left _ hd
  patient early rest s hmoves hearly := h.patient early (rest ++ late) s
    (by rw [hmoves, List.append_assoc]) hearly

/-- A shutdown that has returned has returned for good. -/
lemma outcome?_of_step? (taken : s.step? m = some s') (kept : s'.outcome? = none) :
    s.outcome? = none := by
  cases hphase : s.outcome? with
  | none => rfl
  | some joined =>
    have hfinished := outcome?_eq_some.mp hphase
    have hlast : s'.coordinator = .finished joined := by
      by_cases hm : m = .thread .coordinator
      · subst hm
        simp [step?, stepThread, stepCoordinator, hfinished] at taken
      · obtain hsame | ⟨hwaiting, -⟩ := (shares_of_step? taken).2.coordinator hm
        · exact hsame.trans hfinished
        · rw [hfinished] at hwaiting
          cases hwaiting
    rw [outcome?_eq_some.mpr hlast] at kept
    cases kept

lemma outcome?_of_run? (hrun : s.run? moves = some s') (kept : s'.outcome? = none) :
    s.outcome? = none :=
  run_induct (P := fun _ s' => s'.outcome? = none → s.outcome? = none)
    (fun _ _ _ _ _ _ _ h hstep hkept => h (outcome?_of_step? hstep hkept)) id hrun kept

/-- The log holds what has been written, and workers know what their clients and the log have told
them. -/
structure Faithful (s : Server) (deeds : List Deed)
    (found : Nat → List (Except IoError Bytes)) : Prop where
  told : Chronicle s deeds
  warned : Warned s
  holds : s.store.Holds s.host (logged deeds)
  supplied : ∀ i w, s.crew.workers[i]? = some w → Supplied w (exchanges i deeds) (found i)
  missing : ∀ i, s.crew.workers[i]? = none → found i = []
  unset : ∀ i, ∀ x ∈ exchanges i deeds, x.reply ≠ .flag true
  own : ∀ i, recordsOf (.worker i) (writes deeds) = recordsAppended (exchanges i deeds)

namespace Faithful

variable {found : Nat → List (Except IoError Bytes)}

/-- Before the flag is set, a worker that asks for it finds it unset. -/
lemma exchange_unset {x : Exchange}
    (patient : s.flag.triggered → ∀ w ∈ s.crew.workers, w.task.connection.ending?.isSome)
    (taken : s.step? m = some s') (hd : s.deed? m = some (.exchanged i x)) :
    x.reply ≠ .flag true := by
  obtain ⟨w, session, host, lock, hw, hasks, hanswer⟩ := exchanged_cases taken hd
  obtain ⟨q, reply⟩ := x
  cases hanswer with
  | flag =>
    intro hset
    have hended := patient (Reply.flag.inj hset) w (List.mem_of_getElem? hw)
    rw [Connection.ending?_of_request hasks] at hended
    cases hended
  | _ => simp

/-- An append to a log that can grow succeeds. -/
lemma exchange_appended {x : Exchange} (h : Faithful s deeds found) (taken : s.step? m = some s')
    (hd : s.deed? m = some (.exchanged i x)) :
    (Deed.exchanged i x).write? = x.appended?.map (Thread.worker i, ·) := by
  obtain ⟨w, session, host, lock, hw, hasks, hanswer⟩ := exchanged_cases taken hd
  obtain ⟨q, reply⟩ := x
  cases q with
  | append record =>
    have hreply : reply = _ := hanswer.appended
    rw [hreply, (h.holds.append record).1]
    rfl
  | _ => rfl

/-- What is read back is what has been written. -/
lemma exchange_content {content : Bytes} (h : Faithful s deeds found)
    (taken : s.step? m = some s')
    (hd : s.deed? m = some (.exchanged i ⟨.readBack, .content (.ok content)⟩)) :
    content = logged deeds := by
  obtain ⟨w, session, host, lock, hw, hasks, hanswer⟩ := exchanged_cases taken hd
  have hread := Reply.content.inj hanswer.content
  rw [h.holds.reads] at hread
  exact Except.ok.inj hread

lemma logged_snoc (deeds : List Deed) (d : Option Deed) : logged (deeds ++ d.toList)
    = logged deeds ++ ((d.bind Deed.write?).toList.map (·.2)).flatten := by
  simp [logged, writes_snoc]

lemma holds_step (h : Faithful s deeds found) (taken : s.step? m = some s')
    (kept : s'.outcome? = none) (alone : ∀ c, m ≠ .change c) :
    s'.store.Holds s'.host (logged (deeds ++ (s.deed? m).toList)) := by
  have hfiles := (shares_of_step? taken).1.files
  rw [logged_snoc, (Step.of_step? taken).keeps.store]
  generalize (s.deed? m).bind Deed.write? = write at hfiles ⊢
  cases hfiles with
  | keep files => simpa using h.holds.congr files
  | write files => simpa using (h.holds.append _).2.congr files
  | remove files finished =>
    rw [outcome?_eq_some.mpr finished] at kept
    cases kept
  | change mine => exact (alone _ mine).elim

lemma supplied_step (h : Faithful s deeds found) (taken : s.step? m = some s')
    (sound : ∀ i x, s.deed? m = some (.exchanged i x) → ¬ x.Fails)
    (patient : s.flag.triggered → ∀ w ∈ s.crew.workers, w.task.connection.ending?.isSome)
    {w' : Worker Session} (hw' : s'.crew.workers[i]? = some w') :
    Supplied w' (exchanges i (deeds ++ (s.deed? m).toList)) (found i ++ offers i s m) := by
  rw [exchanges_snoc]
  cases hw : s.crew.workers[i]? with
  | some w =>
    obtain ⟨w'', hw'', hprogress⟩ := Progress.of_step? taken hw
    obtain rfl := Option.some.inj (hw'.symm.trans hw'')
    refine (h.supplied i w hw).progress hw hprogress (fun hopen => ?_) fun y hy => ?_
    · cases hshut : w.shut with
      | false => rfl
      | true =>
        have hended := patient (h.warned.shut i w hw hshut) w (List.mem_of_getElem? hw)
        rw [hopen] at hended
        cases hended
    · obtain ⟨d, hd, hx⟩ := Option.bind_eq_some_iff.mp hy
      obtain rfl := Deed.exchange?_eq_some.mp hx
      exact ⟨exchange_unset patient taken hd, sound i y hd⟩
  | none =>
    obtain ⟨hquiet, hnew⟩ := newcomer_of_step? taken hw
    obtain ⟨a, rfl, hphase, hone, rfl, rfl⟩ := hnew w' hw'
    rw [hquiet, h.told.absent _ hw, h.missing _ hw, offers_newcomer hphase hone]
    exact .newcomer _ a

lemma own_step (h : Faithful s deeds found) (taken : s.step? m = some s') :
    recordsOf (.worker i) (writes (deeds ++ (s.deed? m).toList))
      = recordsAppended (exchanges i (deeds ++ (s.deed? m).toList)) := by
  have hown := h.own i
  rw [recordsOf, recordsAppended] at hown
  rw [writes_snoc, exchanges_snoc, recordsOf, List.filterMap_append, recordsAppended,
    List.filterMap_append, hown, List.append_cancel_left_eq]
  cases hd : s.deed? m with
  | none => rfl
  | some d =>
    cases d with
    | accepted a => rfl
    | stamped record result => rfl
    | exchanged j x =>
      rw [Option.bind_some, h.exchange_appended taken hd, Option.bind_some, Deed.exchange?]
      by_cases hij : j = i
      · cases hx : x.appended? <;> simp [hij, hx]
      · cases hx : x.appended? <;> simp [hij]

theorem step (h : Faithful s deeds found) (taken : s.step? m = some s')
    (kept : s'.outcome? = none) (alone : ∀ c, m ≠ .change c)
    (sound : ∀ i x, s.deed? m = some (.exchanged i x) → ¬ x.Fails)
    (patient : s.flag.triggered → ∀ w ∈ s.crew.workers, w.task.connection.ending?.isSome) :
    Faithful s' (deeds ++ (s.deed? m).toList) fun i => found i ++ offers i s m where
  told := h.told.step taken
  warned := h.warned.step taken
  holds := h.holds_step taken kept alone
  supplied i w' hw' := h.supplied_step taken sound patient hw'
  missing i hw' := by
    have hw : s.crew.workers[i]? = none := by
      cases hw : s.crew.workers[i]? with
      | none => rfl
      | some w =>
        obtain ⟨w'', hw'', -⟩ := Progress.of_step? taken hw
        rw [hw'] at hw''
        cases hw''
    rw [h.missing i hw, offers_missing taken hw']
    rfl
  unset i x hx := by
    rw [exchanges_snoc, List.mem_append] at hx
    obtain hold | hnew := hx
    · exact h.unset i x hold
    · obtain ⟨d, hd, hx⟩ := Option.bind_eq_some_iff.mp (Option.mem_toList.mp hnew)
      obtain rfl := Deed.exchange?_eq_some.mp hx
      exact exchange_unset patient taken hd
  own i := h.own_step taken

lemma fresh {host : Host} {store : LogStore} (address : SocketAddress) (annotator : Annotator)
    (clock : Clock) (empty : store.Holds host []) :
    Faithful (Server.fresh host store address annotator clock) [] fun _ => [] where
  told := .fresh host store address annotator clock
  warned := .fresh host store address annotator clock
  holds := empty
  supplied := by simp [Server.fresh]
  missing := fun _ _ => rfl
  unset := by simp [exchanges]
  own := fun _ => rfl

/-- A calm run keeps all this. -/
theorem run (start : Faithful s₀ [] fun _ => []) (calm : Calm s₀ moves)
    (hrun : s₀.run? moves = some s) (kept : s.outcome? = none) :
    Faithful s (s₀.history moves) fun i => offered i s₀ moves := by
  refine run_induct (P := fun made s => s.outcome? = none →
    Faithful s (s₀.history made) fun i => offered i s₀ made) ?_ (fun _ => start) hrun kept
  intro made m rest s₁ s₂ hmoves hmade h hstep hkept
  have hoffered : (fun i => offered i s₀ (made ++ [m])) =
      fun i => offered i s₀ made ++ offers i s₁ m := funext fun i => collect_snoc _ hmade
  rw [history_snoc hmade, hoffered]
  refine (h (outcome?_of_step? hstep hkept)).step hstep hkept ?_ ?_ ?_
  · rintro c rfl
    exact calm.alone c (by simp [hmoves])
  · intro i x hd
    exact calm.sound _ (hmoves ▸ mem_history hmade hd)
  · exact calm.patient made (m :: rest) s₁ hmoves hmade

/-- Who writes is a worker or the annotator, and what is written is a record. -/
lemma writer {t : Thread} {record : Bytes} (h : Faithful s (s₀.history moves) found)
    (hrun : s₀.run? moves = some s) (hwrite : (t, record) ∈ writes (s₀.history moves)) :
    IsRecord record ∧ ((∃ i < s.crew.workers.length, t = .worker i) ∨
      t = .annotator ∧ ∃ clock : Clock, record = Bytes.ofString clock.record) := by
  obtain ⟨d, hd, hdwrite⟩ := List.mem_filterMap.mp hwrite
  obtain ⟨i, reply, rfl, rfl⟩ | ⟨result, rfl, rfl⟩ := Deed.write?_eq_some.mp hdwrite
  · have hmade := mem_exchanges.mpr hd
    cases hw : s.crew.workers[i]? with
    | none =>
      rw [h.told.absent i hw] at hmade
      cases hmade
    | some w =>
      have hown : record ∈ recordsOf (.worker i) (writes (s₀.history moves)) :=
        List.mem_filterMap.mpr ⟨_, hwrite, by simp⟩
      rw [h.own] at hown
      have haccount := Connection.replay_account (c := { id := w.id }) (h.told.served i w hw).run
      exact ⟨haccount.framed record hown, .inl ⟨i, (List.getElem?_eq_some_iff.mp hw).1, rfl⟩⟩
  · obtain ⟨before, after, hsplit⟩ := List.append_of_mem hd
    obtain ⟨early, m, late, s₁, s₂, -, -, -, -, hdeed⟩ := history_split hrun hsplit
    obtain rfl := stamped_record hdeed
    exact ⟨Timestamp.isRecord _ _, .inr ⟨rfl, s₁.clock, rfl⟩⟩

/-- A worker that has been served to the end has appended its client's records and echoed each. -/
lemma served_to_end (h : Faithful s deeds found)
    (sound : ∀ d ∈ deeds, ¬ d.Fails) (hw : s.crew.workers[i]? = some w)
    (ended : w.task.connection.ending?.isSome) :
    recordsOf (.worker i) (writes deeds) = (records (stream (found i))).1 ∧
      w.task.sent = (readBacks (exchanges i deeds)).flatten ∧
      (readBacks (exchanges i deeds)).length = (records (stream (found i))).1.length := by
  obtain ⟨hreplay, hsent, -⟩ := h.told.served i w hw
  obtain ⟨e, he⟩ := Option.isSome_iff_exists.mp ended
  obtain rfl := Connection.replay_peerClosed hreplay
    (fun x hx => ⟨h.unset i x hx, sound _ (mem_exchanges.mp hx)⟩) he
  obtain ⟨hrecords, hflat, hcount⟩ := Connection.replay_closed hreplay he
  have hstream := (h.supplied i w hw).closed he []
  rw [List.append_nil] at hstream
  rw [h.own, hstream, hrecords]
  exact ⟨rfl, hsent.trans hflat, hcount⟩

end Faithful

/-- Every echo of worker `i` is what was written before it was read back, and just one record of its
own client more has been written by then than echoed. -/
def EchoesLog (i : Nat) (deeds : List Deed) : Prop :=
  ∀ before content after,
    deeds = before ++ .exchanged i ⟨.readBack, .content (.ok content)⟩ :: after →
    content = logged before ∧ (recordsOf (.worker i) (writes before)).length
      = (readBacks (exchanges i before)).length + 1

/-- In a calm run all echoes are of this kind. -/
lemma Faithful.echoesLog (start : Faithful s₀ [] fun _ => []) (calm : Calm s₀ moves)
    (hrun : s₀.run? moves = some s) (kept : s.outcome? = none) (i : Nat) :
    EchoesLog i (s₀.history moves) := by
  intro before content after hsplit
  obtain ⟨early, m, late, s₁, s₂, rfl, hearly, rfl, hstep, hdeed⟩ := history_split hrun hsplit
  have hlate : s₁.run? (m :: late) = some s := by
    rwa [run?_append, hearly, Option.bind_some] at hrun
  have h := start.run (calm.early hearly) hearly (outcome?_of_run? hlate kept)
  refine ⟨h.exchange_content hstep hdeed, ?_⟩
  obtain ⟨w, -, -, -, hw, -⟩ := exchanged_cases hstep hdeed
  obtain ⟨w', hw', -⟩ := Progress.of_step? hstep hw
  have hserved := (h.told.step hstep).served i w' hw'
  rw [hdeed, exchanges_snoc, Option.bind_some, Deed.exchange?_eq_some.mpr rfl] at hserved
  rw [h.own]
  exact Connection.appended_before_readBack (c := { id := w'.id }) hserved.run rfl

/-- Records of a client lie between any two of its echoes, so each echo extends the ones before. -/
lemma EchoesLog.rising (h : EchoesLog i deeds) (framed : ∀ p ∈ writes deeds, p.2 ≠ []) :
    (readBacks (exchanges i deeds)).Pairwise (fun a b => a <+: b ∧ a ≠ b) ∧
      ∀ content ∈ readBacks (exchanges i deeds), ∃ early late, writes deeds = early ++ late ∧
        content = (early.map (·.2)).flatten ∧
        (recordsOf (.worker i) early).length ≤ (readBacks (exchanges i deeds)).length := by
  induction deeds using List.reverseRecOn with
  | nil => simp [exchanges, readBacks]
  | append_singleton deeds d ih =>
    have hwrites : writes (deeds ++ [d]) = writes deeds ++ d.write?.toList := writes_snoc deeds d
    have hreads : readBacks (exchanges i (deeds ++ [d]))
        = readBacks (exchanges i deeds) ++ ((d.exchange? i).bind Exchange.readBack?).toList := by
      have hexchanges : exchanges i (deeds ++ [d])
          = exchanges i deeds ++ (d.exchange? i).toList := exchanges_snoc i deeds d
      rw [hexchanges]
      cases d.exchange? i <;> simp [Connection.readBacks_snoc]
    obtain ⟨hrising, hechoes⟩ := ih
      (fun before content after hsplit =>
        h before content (after ++ [d]) (by rw [hsplit, List.append_assoc]; rfl))
      (fun p hp => framed p (by rw [hwrites]; exact List.mem_append_left _ hp))
    rw [hreads]
    cases hnew : (d.exchange? i).bind Exchange.readBack? with
    | none =>
      rw [Option.toList_none, List.append_nil]
      refine ⟨hrising, fun content hcontent => ?_⟩
      obtain ⟨early, late, hsplit, hflat, hcount⟩ := hechoes content hcontent
      exact ⟨early, late ++ d.write?.toList, by rw [hwrites, hsplit, List.append_assoc], hflat,
        hcount⟩
    | some content =>
      obtain ⟨x, hx, hread⟩ := Option.bind_eq_some_iff.mp hnew
      obtain rfl := Deed.exchange?_eq_some.mp hx
      obtain rfl := Exchange.readBack?_eq_some.mp hread
      obtain ⟨hcontent, hcount⟩ := h deeds content [] rfl
      have hsame : writes (deeds ++ [.exchanged i ⟨.readBack, .content (.ok content)⟩])
          = writes deeds := by
        rw [hwrites]
        exact List.append_nil _
      rw [hsame, Option.toList_some, List.pairwise_append]
      refine ⟨⟨hrising, List.pairwise_singleton _ _, fun old hold new hnew => ?_⟩, fun c hc => ?_⟩
      · obtain rfl := List.mem_singleton.mp hnew
        obtain ⟨early, late, hsplit, rfl, hbound⟩ := hechoes old hold
        have hgrown : new = (early.map (·.2)).flatten ++ (late.map (·.2)).flatten := by
          rw [hcontent, logged, hsplit, List.map_append, List.flatten_append]
        rw [hgrown]
        refine ⟨List.prefix_append _ _, fun heq => ?_⟩
        -- With nothing written in between there would be no record more to be echoed.
        cases late with
        | nil =>
          rw [hsplit, List.append_nil] at hcount
          omega
        | cons p late =>
          have hp := framed p (by rw [hsame, hsplit]; simp)
          have hnone := List.self_eq_append_right.mp heq
          simp [hp] at hnone
      · rw [List.length_append, List.length_singleton]
        obtain hold | hlast := List.mem_append.mp hc
        · obtain ⟨early, late, hsplit, hflat, hbound⟩ := hechoes c hold
          exact ⟨early, late, hsplit, hflat, by omega⟩
        · obtain rfl := List.mem_singleton.mp hlast
          exact ⟨writes deeds, [], (List.append_nil _).symm, hcontent, Nat.le_of_eq hcount⟩

/-- What clients see while nothing fails and everybody is served to the end. The log consists of
whole records, each written by a worker or the annotator; a client's are its complete records, in
its order. A client with `n` of them gets `n` echoes, each a proper beginning of the next. An echo
is what was written before it was read back, whoever wrote it, and nothing that was written later;
just as many of the client's own records are in it as echoes have been read back for it by then. -/
theorem echoes_consistent {host : Host} {store : LogStore} {address : SocketAddress}
    {annotator : Annotator} {clock : Clock} {moves : List Move} {s : Server}
    (empty : store.Holds host [])
    (calm : Calm (fresh host store address annotator clock) moves)
    (hrun : (fresh host store address annotator clock).run? moves = some s)
    (ended : ∀ w ∈ s.crew.workers, w.task.connection.ending?.isSome)
    (kept : s.outcome? = none) :
    let s₀ := fresh host store address annotator clock
    let deeds := s₀.history moves
    store.readAll s.host = .ok (logged deeds) ∧
    records (logged deeds) = ((writes deeds).map (·.2), []) ∧
    (∀ t record, (t, record) ∈ writes deeds → (∃ i < s.crew.workers.length, t = .worker i) ∨
      t = .annotator ∧ ∃ clock : Clock, record = Bytes.ofString clock.record) ∧
    (∀ i w, s.crew.workers[i]? = some w →
      recordsOf (.worker i) (writes deeds) = (records (stream (offered i s₀ moves))).1 ∧
      w.task.sent = (readBacks (exchanges i deeds)).flatten ∧
      (readBacks (exchanges i deeds)).length
        = (records (stream (offered i s₀ moves))).1.length ∧
      (readBacks (exchanges i deeds)).Pairwise fun a b => a <+: b ∧ a ≠ b) ∧
    ∀ i before content after,
      deeds = before ++ .exchanged i ⟨.readBack, .content (.ok content)⟩ :: after →
      content = logged before ∧ content <+: logged deeds ∧
      (recordsOf (.worker i) (writes before)).length
        = (readBacks (exchanges i before)).length + 1 := by
  intro s₀ deeds
  have start : Faithful s₀ [] fun _ => [] := .fresh address annotator clock empty
  have h := start.run calm hrun kept
  have hechoes : ∀ i, EchoesLog i deeds := Faithful.echoesLog start calm hrun kept
  have hframed : ∀ p ∈ writes deeds, IsRecord p.2 := fun p hp => (h.writer hrun hp).1
  have hstore : s.store = store := ((Sound.fresh host store address annotator clock).run hrun).2
  refine ⟨hstore ▸ h.holds.reads, ?_, fun t record hwrite => (h.writer hrun hwrite).2, ?_, ?_⟩
  · have hwhole : ∀ r ∈ (writes deeds).map (·.2), IsRecord r := by
      intro r hr
      obtain ⟨p, hp, rfl⟩ := List.mem_map.mp hr
      exact hframed p hp
    have htail : delimiter ∉ ([] : Bytes) := List.not_mem_nil
    simpa [logged] using records_flatten_append hwhole htail
  · intro i w hw
    obtain ⟨hown, hsent, hcount⟩ :=
      h.served_to_end calm.sound hw (ended w (List.mem_of_getElem? hw))
    exact ⟨hown, hsent, hcount, ((hechoes i).rising fun p hp => (hframed p hp).ne_nil).1⟩
  · intro i before content after hsplit
    obtain ⟨hcontent, hcount⟩ := hechoes i before content after hsplit
    refine ⟨hcontent, ?_, hcount⟩
    rw [hcontent, hsplit, logged, logged, writes, writes, List.filterMap_append, List.map_append,
      List.flatten_append]
    exact List.prefix_append _ _

/-- A server whose log is not there yet. -/
def emptyServer : Server :=
  let files : FileSystem :=
    { entries := [([], .directory FileSystem.newDirectoryMode)], workingDirectory := [] }
  fresh { files } ⟨[108]⟩ (.v4 .any 0) { period := 1, deadline := 1 } {}

/-- Two clients send a record each. The second one's is appended and echoed after the first one's is
appended and before it is echoed. -/
def sharedLog : List Move :=
  let client (b : UInt8) : Move :=
    .arrive (.ok {
      peer := .v4 .any 0, inbound := [.ok [b, 10], .ok []], answers := [.ok 1, .ok 9] })
  let accepts : List Move := List.replicate 14 (.thread .acceptor)
  let works (i n : Nat) : List Move := List.replicate n (.thread (.worker i))
  client 97 :: client 98 :: accepts ++ works 0 6 ++ works 1 14 ++ works 0 8

theorem echoes_consistent_shared_log : ∃ s, emptyServer.run? sharedLog = some s ∧
    let deeds := emptyServer.history sharedLog
    writes deeds = [(.worker 0, [97, 10]), (.worker 1, [98, 10])] ∧
      readBacks (exchanges 0 deeds) = [[97, 10, 98, 10]] ∧
      emptyServer.store.readAll s.host = .ok [97, 10, 98, 10] ∧
      (∀ i w, s.crew.workers[i]? = some w → w.task.sent = (readBacks (exchanges i deeds)).flatten) ∧
      s.crew.workers.length = 2 := by
  have hview : (emptyServer.run? sharedLog).map (fun s => (s.flag.triggered, s.outcome?,
      s.crew.workers.map (·.task.connection.ending?))) =
      some (false, none, [some .peerClosed, some .peerClosed]) := by decide +kernel
  obtain ⟨s, hrun, hs⟩ := Option.map_eq_some_iff.mp hview
  have hflag : s.flag.triggered = false := congrArg (·.1) hs
  have hkept : s.outcome? = none := congrArg (·.2.1) hs
  have hends : s.crew.workers.map (·.task.connection.ending?) =
    [some .peerClosed, some .peerClosed] := congrArg (·.2.2) hs
  have empty : emptyServer.store.Holds emptyServer.host [] := by
    refine ⟨by decide +kernel, [[108]], emptyServer.host.files.insert [[108]]
      (.file FileSystem.newFileMode []), FileSystem.newFileMode, [], ?_, rfl⟩
    decide +kernel
  have hwrites : writes (emptyServer.history sharedLog) =
      [(.worker 0, [97, 10]), (.worker 1, [98, 10])] := by decide +kernel
  have hreads : readBacks (exchanges 0 (emptyServer.history sharedLog)) = [[97, 10, 98, 10]] := by
    decide +kernel
  have hfine : (emptyServer.history sharedLog).all fun d => !decide d.Fails := by decide +kernel
  have ended : ∀ w ∈ s.crew.workers, w.task.connection.ending?.isSome := by
    intro w hw
    have hmem := List.mem_map_of_mem (f := (·.task.connection.ending?)) hw
    rw [hends] at hmem
    have hend : w.task.connection.ending? = some .peerClosed := by simpa using hmem
    rw [hend]
    rfl
  have calm : Calm emptyServer sharedLog := by
    refine ⟨by simp [sharedLog], fun d hd => ?_, fun early late s₁ hmoves hearly hset => ?_⟩
    · simpa using List.all_eq_true.mp hfine d hd
    · rw [hmoves, run?_append, hearly, Option.bind_some] at hrun
      have hlast := flag_of_run? hrun hset
      rw [hflag] at hlast
      cases hlast
  obtain ⟨hlog, -, -, hclients, -⟩ := echoes_consistent empty calm hrun ended hkept
  refine ⟨s, hrun, hwrites, hreads, ?_, fun i w hw => (hclients i w hw).2.1, ?_⟩
  · have hlogged : logged (emptyServer.history sharedLog) = [97, 10, 98, 10] := by
      simp [logged, hwrites]
    exact hlog.trans (congrArg Except.ok hlogged)
  · have hlength := congrArg List.length hends
    simpa using hlength

end Server

end RecordLog
