import Mathlib.Data.List.Nodup
import Mathlib.Data.List.Perm.Subperm
import RecordLog.Proofs.Server.Chronicle
import RecordLog.Proofs.Server.Shutdown

/-! What is still done once the flag is set. Everybody looks at the flag before a receive, an append
or an accept, so what has been begun is ended, and nothing of the kind is begun any more. -/
namespace RecordLog

namespace Connection

/-- A receive or an append. -/
def Request.isWork : Request → Bool
  | receive _ | append _ => true
  | _ => false

/-- The question that is open is for a receive or an append. -/
def Phase.isWork (p : Phase) : Bool := p.request?.any (·.isWork)

lemma proceed_idle (c : Connection) : c.proceed.phase.isWork = false := by
  unfold proceed
  split <;> rfl

lemma sendRest_idle (c : Connection) (r content left : Bytes) :
    (c.sendRest r content left).phase.isWork = false := by
  cases left with
  | nil => exact proceed_idle _
  | cons b bs => rfl

/-- Unless a connection has just found the flag unset, it asks for neither. -/
lemma Step.idle {c c' : Connection} {x : Exchange} (h : c.Step x c')
    (warned : x.reply ≠ .flag false) : c'.phase.isWork = false := by
  cases h with
  | goOn | vet => exact (warned rfl).elim
  | receive => exact proceed_idle _
  | readBack | send => exact sendRest_idle _ _ _ _
  | sendInterrupted phase =>
    rw [phase]
    rfl
  | _ => rfl

end Connection

namespace LogStore

/-- Appends one after another. -/
def appendAll (s : LogStore) (records : List Bytes) (h : Host) : Host :=
  records.foldl (fun h record => (s.append record h).2) h

variable {s : LogStore} {h h' : Host}

/-- Only the files matter for the files after an append. -/
lemma append_files (record : Bytes) (files : h'.files = h.files) :
    (s.append record h').2.files = (s.append record h).2.files := by
  unfold append
  rw [files]
  cases h.files.openAppend s.path with
  | error e => exact files
  | ok opened =>
    obtain ⟨loc, opened⟩ := opened
    rcases hwrite : opened.write loc record with ⟨_ | _, files⟩ <;> simp [hwrite, Host.report]

lemma remove_files (files : h'.files = h.files) :
    (s.remove h').2.files = (s.remove h).2.files := by
  unfold remove
  rw [files]
  cases h.files.unlink s.path with
  | ok left => rfl
  | error e =>
    dsimp only
    split <;> exact files

lemma appendAll_snoc (s : LogStore) (records : List Bytes) (record : Bytes) (h : Host) :
    s.appendAll (records ++ [record]) h = (s.append record (s.appendAll records h)).2 := by
  simp [appendAll]

/-- A log that can grow has all records at its end. -/
lemma Holds.appendAll {log : Bytes} (held : s.Holds h log) (records : List Bytes) :
    s.Holds (s.appendAll records h) (log ++ records.flatten) := by
  induction records generalizing h log with
  | nil => simpa [LogStore.appendAll] using held
  | cons record records ih => simpa [LogStore.appendAll] using ih (held.append record).2

end LogStore

namespace Server

open Connection (Exchange Request Reply)

/-- An accept that is begun and not over. -/
def Acceptor.begun : Acceptor → Nat
  | accepting => 1
  | _ => 0

def Deed.isAccepted : Deed → Bool
  | accepted _ => true
  | _ => false

def Deed.isStamped : Deed → Bool
  | stamped _ _ => true
  | _ => false

/-- A timestamp that is about to be appended. -/
def stampsBegun (a : Annotator) : Nat := if a.phase = .appending then 1 else 0

/-- The worker has begun to serve its connection and not ended. -/
def IsServing (w : Worker Session) : Prop := w.isComplete = false ∧ w.task.stage = .serving

instance (w : Worker Session) : Decidable (IsServing w) := inferInstanceAs (Decidable (_ ∧ _))

def serves (s : Server) (i : Nat) : Bool := s.crew.workers[i]?.any (IsServing ·)

/-- A receive or an append that the worker has begun and not ended. -/
def begun (w : Worker Session) : Nat :=
  if IsServing w ∧ w.task.connection.phase.isWork then 1 else 0

def workBegun (s : Server) (i : Nat) : Nat := s.crew.workers[i]?.elim 0 begun

/-- The receives and appends of worker `i`. -/
def workDone (i : Nat) (deeds : List Deed) : Nat :=
  (exchanges i deeds).countP (·.request.isWork)

variable {s s₁ s' : Server} {m : Move} {i : Nat} {w w' : Worker Session} {deeds : List Deed}

lemma begun_idle (h : w.task.connection.phase.isWork = false) : begun w = 0 :=
  if_neg fun hboth => by simp [h] at hboth

lemma begun_over (h : ¬ IsServing w) : begun w = 0 := if_neg fun hboth => h hboth.1

/-- A worker that has not begun to serve has not asked for anything. -/
lemma Served.polling {made : List Exchange} (h : Served w made)
    (start : w.task.stage = .starting) : w.task.connection.phase.isWork = false := by
  have hrun := h.run
  rw [h.unbegun start] at hrun
  rw [← Option.some.inj hrun]
  rfl

/-- Under the flag a worker ends what it has begun, and begins nothing. -/
lemma Progress.dwindles {made : List Exchange} {x : Option Exchange} (flag : s.flag.triggered)
    (h : Served w made) (hp : Progress s m i w x w') :
    x.toList.countP (·.request.isWork) + begun w' ≤ begun w := by
  cases hp with
  | rest | deliver | grant | shut => exact Nat.le_of_eq (Nat.zero_add _)
  | greet _ stage =>
    rw [begun_idle (w := { w with task := { w.task with stage := .serving } }) (h.polling stage)]
    exact Nat.zero_le _
  | leave =>
    rw [begun_over fun hserving => by cases hserving.2]
    exact Nat.zero_le _
  | finish =>
    rw [begun_over fun hserving => by cases hserving.1]
    exact Nat.zero_le _
  | exchange mine going stage answer step =>
    rename_i q reply x host lock c
    have hwarned : reply ≠ .flag false := by
      cases answer <;> simp [flag]
    have hafter : begun { w with task := { x with connection := c } } = 0 :=
      begun_idle (step.idle hwarned)
    have hbefore : begun w = if q.isWork then 1 else 0 := by
      simp [begun, IsServing, going, stage, Connection.Phase.isWork, step.resumes.1]
    rw [hafter, hbefore]
    simp [List.countP_cons]

lemma worker_dwindles (told : Chronicle s deeds) (flag : s.flag.triggered)
    (h : s.step? m = some s') (i : Nat) :
    (((s.deed? m).bind (·.exchange? i)).toList.countP (·.request.isWork)) + s'.workBegun i
      ≤ s.workBegun i := by
  cases hw : s.crew.workers[i]? with
  | some w =>
    obtain ⟨w', hw', hprogress⟩ := Progress.of_step? h hw
    simpa only [workBegun, hw, hw', Option.elim] using hprogress.dwindles flag (told.served i w hw)
  | none =>
    obtain ⟨hquiet, hnew⟩ := newcomer_of_step? h hw
    rw [hquiet]
    cases hw' : s'.crew.workers[i]? with
    | none => simp [workBegun, hw, hw']
    | some w' =>
      obtain ⟨a, -, -, -, -, rfl⟩ := hnew w' hw'
      have hidle : begun _ = 0 :=
          begun_idle ((Served.newcomer s.crew.registry.nextKey a).polling rfl)
      simp [workBegun, hw', hidle]

lemma acceptor_dwindles (flag : s.flag.triggered) (h : s.step? m = some s') :
    (s.deed? m).toList.countP Deed.isAccepted + s'.acceptor.begun ≤ s.acceptor.begun := by
  by_cases hm : m = .thread .acceptor
  · subst hm
    have hdeed : (s.deed? (.thread .acceptor)).toList.countP Deed.isAccepted
        ≤ s.acceptor.begun := by
      cases hphase : s.acceptor with
      | accepting =>
        refine Nat.le_trans List.countP_le_length ?_
        cases s.deed? (.thread .acceptor) <;> simp [Acceptor.begun]
      | _ => simp [deed?, hphase]
    have hafter : s'.acceptor.begun = 0 := by
      cases AcceptorStep.of_step h with
      | poll _ unset => exact (unset flag).elim
      | lock phase => obtain ⟨a, phase⟩ | phase := phase <;> simp [phase, Acceptor.begun]
      | _ => rfl
    rw [hafter]
    exact hdeed
  · have hquiet : (s.deed? m).toList.countP Deed.isAccepted = 0 := by
      cases m with
      | thread t =>
        cases t with
        | acceptor => exact (hm rfl).elim
        | worker j => cases hx : s.exchange? j <;> simp [deed?, hx, Deed.isAccepted]
        | annotator =>
          simp only [deed?]
          split <;> rfl
        | coordinator => rfl
      | _ => rfl
    refine Nat.le_of_eq ?_
    rw [hquiet, (shares_of_step? h).2.acceptor hm, Nat.zero_add]

lemma annotator_dwindles (flag : s.flag.triggered) (h : s.step? m = some s') :
    (s.deed? m).toList.countP Deed.isStamped + stampsBegun s'.annotator
      ≤ stampsBegun s.annotator := by
  by_cases hm : m = .thread .annotator
  · subst hm
    cases AnnotatorStep.of_step h with
    | wake phase woken =>
      rename_i a
      have hafter : a.phase ≠ .appending := by
        simp only [Annotator.resume?, phase] at woken
        split at woken
        · cases woken
          simp [Annotator.moveTo]
        · split at woken <;> cases woken
          simp
      simp [deed?, phase, stampsBegun, hafter]
    | vet phase =>
      simp [deed?, phase, stampsBegun, report, Annotator.resume, Annotator.resume?, flag,
        Annotator.moveTo]
    | lock phase free => simp [deed?, phase, free, stampsBegun]
    | append phase held =>
      simp [deed?, phase, held, stampsBegun, report, Annotator.resume, Annotator.resume?,
        Annotator.moveTo, List.countP_cons, Deed.isStamped]
  · have hquiet : (s.deed? m).toList.countP Deed.isStamped = 0 := by
      cases m with
      | thread t =>
        cases t with
        | annotator => exact (hm rfl).elim
        | worker j => cases hx : s.exchange? j <;> simp [deed?, hx, Deed.isStamped]
        | acceptor =>
          simp only [deed?]
          split <;> rfl
        | coordinator => rfl
      | _ => rfl
    refine Nat.le_of_eq ?_
    rw [hquiet, Nat.zero_add, stampsBegun, stampsBegun, (shares_of_step? h).2.annotator hm]

/-- What has been done since the flag was set is what had been begun then and is not begun still. -/
structure Dwindled (s₁ : Server) (deeds : List Deed) (s : Server) : Prop where
  flag : s.flag.triggered
  work : ∀ i, workDone i deeds + s.workBegun i ≤ s₁.workBegun i
  accepts : deeds.countP Deed.isAccepted + s.acceptor.begun ≤ s₁.acceptor.begun
  stamps : deeds.countP Deed.isStamped + stampsBegun s.annotator ≤ stampsBegun s₁.annotator

namespace Dwindled

lemma refl (flag : s.flag.triggered) : Dwindled s [] s where
  flag := flag
  work := fun _ => Nat.le_of_eq (Nat.zero_add _)
  accepts := Nat.le_of_eq (Nat.zero_add _)
  stamps := Nat.le_of_eq (Nat.zero_add _)

theorem step {told : List Deed} (h : Dwindled s₁ deeds s) (known : Chronicle s told)
    (taken : s.step? m = some s') : Dwindled s₁ (deeds ++ (s.deed? m).toList) s' := by
  refine ⟨flag_of_step? taken h.flag, fun i => ?_, ?_, ?_⟩
  · have hwork := worker_dwindles known h.flag taken i
    have hsofar := h.work i
    rw [workDone, exchanges_snoc, List.countP_append]
    rw [workDone] at hsofar
    omega
  · have hstep := acceptor_dwindles h.flag taken
    have hsofar := h.accepts
    rw [List.countP_append]
    omega
  · have hstep := annotator_dwindles h.flag taken
    have hsofar := h.stamps
    rw [List.countP_append]
    omega

theorem run {after : List Move} {told : List Deed} (flag : s₁.flag.triggered)
    (known : Chronicle s₁ told) (hrun : s₁.run? after = some s) :
    Dwindled s₁ (s₁.history after) s := by
  refine (run_induct (P := fun made s => Dwindled s₁ (s₁.history made) s ∧
    Chronicle s (told ++ s₁.history made)) ?_ ⟨.refl flag, ?_⟩ hrun).1
  · rintro made m rest s₂ s₃ - hmade ⟨h, hknown⟩ hstep
    rw [history_snoc hmade, ← List.append_assoc]
    exact ⟨h.step hknown hstep, hknown.step hstep⟩
  · exact (List.append_nil told).symm ▸ known

end Dwindled

/-- How often a thread can have tried to append. -/
def chances (deeds : List Deed) : Thread → Nat
  | .worker i => workDone i deeds
  | .annotator => deeds.countP Deed.isStamped
  | _ => 0

lemma count_writers (t : Thread) (deeds : List Deed) :
    ((writes deeds).map (·.1)).count t ≤ chances deeds t := by
  rw [List.count, List.countP_map, writes, List.countP_filterMap]
  have hmine : ∀ d : Deed, ((d.write?.map ((· == t) ∘ (·.1))).getD false) = true →
      ∃ record, d.write? = some (t, record) := by
    intro d hd
    cases hwrite : d.write? with
    | none => simp [hwrite] at hd
    | some write =>
      obtain ⟨t', record⟩ := write
      obtain rfl : t' = t := by simpa [hwrite] using hd
      exact ⟨record, rfl⟩
  cases t with
  | worker i =>
    rw [chances, workDone, exchanges, List.countP_filterMap]
    refine List.countP_mono_left fun d _ hd => ?_
    obtain ⟨record, hwrite⟩ := hmine d hd
    obtain ⟨j, reply, hj, rfl⟩ | ⟨result, hj, -⟩ := Deed.write?_eq_some.mp hwrite
    · cases hj
      simp [Deed.exchange?, Request.isWork]
    · cases hj
  | annotator =>
    refine List.countP_mono_left fun d _ hd => ?_
    obtain ⟨record, hwrite⟩ := hmine d hd
    obtain ⟨j, reply, hj, -⟩ | ⟨result, -, rfl⟩ := Deed.write?_eq_some.mp hwrite
    · cases hj
    · rfl
  | acceptor | coordinator =>
    refine Nat.le_of_eq (List.countP_eq_zero.mpr fun d _ hd => ?_)
    obtain ⟨record, hwrite⟩ := hmine d hd
    obtain ⟨j, reply, hj, -⟩ | ⟨result, hj, -⟩ := Deed.write?_eq_some.mp hwrite <;> cases hj

/-- The files are what the appends of a run have made of them, and the removal of the log after the
last of them. -/
lemma files_of_run {after : List Move} {registered returned : Nat}
    (sound : Sound s₁ registered returned) (spared : ∀ c, .change c ∉ after)
    (hrun : s₁.run? after = some s) :
    let grown := s₁.store.appendAll ((writes (s₁.history after)).map (·.2)) s₁.host
    s.host.files = grown.files ∨
      s.outcome?.isSome ∧ s.host.files = (s₁.store.remove grown).2.files := by
  let grown (made : List Move) : Host :=
    s₁.store.appendAll ((writes (s₁.history made)).map (·.2)) s₁.host
  refine (run_induct (P := fun made s => s.store = s₁.store ∧
    (∃ registered returned, Sound s registered returned) ∧ (s.host.files = (grown made).files ∨
      s.outcome?.isSome ∧ s.host.files = (s₁.store.remove (grown made)).2.files))
    ?_ ⟨rfl, ⟨_, _, sound⟩, .inl rfl⟩ hrun).2.2
  rintro made m rest s₂ s₃ hmoves hmade ⟨hstore, ⟨_, _, hsound⟩, hfiles⟩ hstep
  have hspared : ∀ c, m ≠ .change c := by
    rintro c rfl
    exact spared c (hmoves ▸ List.mem_append_right _ (List.mem_cons_self ..))
  have hkeeps := Step.of_step? hstep
  refine ⟨hkeeps.keeps.store.trans hstore, ⟨_, _, hsound.step hkeeps⟩, ?_⟩
  have hsnoc : (writes (s₁.history (made ++ [m]))).map (·.2) =
      (writes (s₁.history made)).map (·.2)
        ++ ((s₂.deed? m).bind Deed.write?).toList.map (·.2) := by
    rw [history_snoc hmade, writes_snoc, List.map_append]
  obtain hgrown | ⟨hdone, hremoved⟩ := hfiles
  · have hstep' := (shares_of_step? hstep).1.files
    simp only [grown, hsnoc]
    generalize (s₂.deed? m).bind Deed.write? = write at hstep' ⊢
    cases hstep' with
    | keep files =>
      refine .inl (files.trans ?_)
      simpa using hgrown
    | write files =>
      refine .inl (files.trans ?_)
      rw [Option.toList_some, List.map_singleton, LogStore.appendAll_snoc, hstore]
      exact LogStore.append_files _ hgrown
    | remove files finished =>
      refine .inr ⟨by rw [outcome?_eq_some.mpr finished]; rfl, files.trans ?_⟩
      rw [hstore]
      simpa using LogStore.remove_files hgrown
    | change mine => exact (hspared _ mine).elim
  -- After the removal no thread takes a step.
  · obtain ⟨joined, hjoined⟩ := Option.isSome_iff_exists.mp hdone
    have hfinished := outcome?_eq_some.mp hjoined
    obtain ⟨hstopped, hended, hsilent, -⟩ := hsound.over hfinished
    have hstill := stepThread_over hstopped hended hsilent hfinished
    obtain ⟨hlast, hsame | ⟨c, hc, -⟩⟩ := step_over joined hstill hstep
    · have hquiet : s₂.deed? m = none := by
        cases m with
        | thread t =>
          rw [step?, hstill t] at hstep
          cases hstep
        | _ => rfl
      refine .inr ⟨by rw [outcome?_eq_some.mpr (hlast hfinished)]; rfl, ?_⟩
      simp only [grown, hsnoc, hquiet]
      simpa [hsame] using hremoved
    · exact (hspared c hc).elim

lemma begun_le (w : Worker Session) : begun w ≤ if IsServing w then 1 else 0 := by
  by_cases h : IsServing w
  · rw [if_pos h, begun]
    split <;> omega
  · refine Nat.le_of_eq ?_
    rw [if_neg h, begun_over h]

lemma workBegun_le (s : Server) (i : Nat) : s.workBegun i ≤ if s.serves i then 1 else 0 := by
  cases hw : s.crew.workers[i]? with
  | none => simp [workBegun, hw]
  | some w => simpa [workBegun, serves, hw] using begun_le w

/-- Once the flag is set little is done. Of all receives and appends a worker that has begun to
serve by then does one at most, counting one that is still under way, and any other worker does
none. One client at most is accepted, and one timestamp appended. So whoever writes writes once, the
annotator or a worker that served then, and as long as nobody else changes the files the log grows
by these records at most. -/
theorem work_bounded_after_flag {host : Host} {store : LogStore} {address : SocketAddress}
    {annotator : Annotator} {clock : Clock} {before after : List Move} {s₁ s : Server}
    (hbefore : (fresh host store address annotator clock).run? before = some s₁)
    (flag : s₁.flag.triggered) (hafter : s₁.run? after = some s) :
    let deeds := s₁.history after
    (∀ i, workDone i deeds + s.workBegun i ≤ if s₁.serves i then 1 else 0) ∧
    deeds.countP Deed.isAccepted ≤ 1 ∧ deeds.countP Deed.isStamped ≤ 1 ∧
    ((writes deeds).map (·.1)).Nodup ∧
    (∀ t ∈ (writes deeds).map (·.1), t = .annotator ∨ ∃ i, t = .worker i ∧ s₁.serves i) ∧
    (writes deeds).length ≤ ((List.range s₁.crew.workers.length).filter s₁.serves).length + 1 ∧
    ((∀ c, .change c ∉ after) →
      let grown := store.appendAll ((writes deeds).map (·.2)) s₁.host
      (s.host.files = grown.files ∨
        s.outcome?.isSome ∧ s.host.files = (store.remove grown).2.files) ∧
      ∀ log, store.Holds s₁.host log → s.outcome? = none →
        store.readAll s.host = .ok (log ++ ((writes deeds).map (·.2)).flatten)) := by
  intro deeds
  obtain ⟨hsound, hstore⟩ := (Sound.fresh host store address annotator clock).run hbefore
  have hstore : s₁.store = store := hstore
  have htold := (Chronicle.fresh host store address annotator clock).run hbefore
  have hd : Dwindled s₁ deeds s := .run flag htold hafter
  have hwork : ∀ i, workDone i deeds + s.workBegun i ≤ if s₁.serves i then 1 else 0 :=
    fun i => Nat.le_trans (hd.work i) (s₁.workBegun_le i)
  have hstamps : deeds.countP Deed.isStamped ≤ 1 := by
    have hbegun : stampsBegun s₁.annotator ≤ 1 := by
      unfold stampsBegun
      split <;> omega
    have := hd.stamps
    omega
  have hwriter : ∀ t ∈ (writes deeds).map (·.1), t = .annotator ∨
      ∃ i, t = .worker i ∧ s₁.serves i := by
    intro t ht
    have hcount := Nat.lt_of_lt_of_le (List.count_pos_iff.mpr ht) (count_writers t deeds)
    cases t with
    | annotator => exact .inl rfl
    | worker i =>
      have hi := hwork i
      refine .inr ⟨i, rfl, ?_⟩
      simp only [chances] at hcount
      by_contra hnot
      rw [if_neg hnot] at hi
      omega
    | acceptor | coordinator => cases hcount
  have hnodup : ((writes deeds).map (·.1)).Nodup := by
    refine List.nodup_iff_count_le_one.mpr fun t => Nat.le_trans (count_writers t deeds) ?_
    cases t with
    | worker i =>
      have hi := hwork i
      simp only [chances]
      split at hi <;> omega
    | annotator => exact hstamps
    | acceptor | coordinator => exact Nat.zero_le _
  refine ⟨hwork, ?_, hstamps, hnodup, hwriter, ?_, fun hspared => ?_⟩
  · have hbegun : s₁.acceptor.begun ≤ 1 := by
      cases s₁.acceptor <;> simp [Acceptor.begun]
    have := hd.accepts
    omega
  · let serving := (List.range s₁.crew.workers.length).filter s₁.serves
    have hsub : (writes deeds).map (·.1) ⊆ .annotator :: serving.map Thread.worker := by
      intro t ht
      obtain rfl | ⟨i, rfl, hi⟩ := hwriter t ht
      · exact List.mem_cons_self ..
      · refine List.mem_cons_of_mem _ (List.mem_map_of_mem (List.mem_filter.mpr ⟨?_, hi⟩))
        cases hw : s₁.crew.workers[i]? with
        | none => simp [serves, hw] at hi
        | some w => exact List.mem_range.mpr (List.getElem?_eq_some_iff.mp hw).1
    have hle := (hnodup.subperm hsub).length_le
    simpa using hle
  · have hfiles := files_of_run hsound hspared hafter
    rw [hstore] at hfiles
    refine ⟨hfiles, fun log holds going => ?_⟩
    obtain hgrown | ⟨hdone, -⟩ := hfiles
    · exact ((holds.appendAll _).congr hgrown).reads
    · rw [going] at hdone
      cases hdone

/-- One client has sent two records and another is idle. Everybody is past the flag when it is
set. -/
def busyServer : List Move :=
  let accepts : Move := .thread .acceptor
  let works (i : Nat) : Move := .thread (.worker i)
  [.arrive (.ok { peer := .v4 .any 0, inbound := [.ok [97, 10, 98, 10]] }),
    .arrive (.ok { peer := .v4 .any 0 }), accepts, accepts, accepts, accepts, accepts, accepts,
    accepts, accepts, accepts, accepts, accepts, accepts, accepts, accepts, accepts, works 0,
    works 0, works 0, works 0, works 1, works 1, .tick 1, .thread .annotator, .thread .annotator,
    .shutdown, .thread .coordinator]

/-- A third client comes, the idle one's receive is interrupted, and the others append. -/
def windingDown : List Move :=
  let works (i : Nat) : Move := .thread (.worker i)
  [.arrive (.ok { peer := .v4 .any 0 }), .thread .acceptor,
    .deliver 1 (.error (.plain .interrupted)), works 1, works 1, works 1, works 0, works 0,
    .thread .annotator, .thread .annotator]

theorem work_bounded_after_flag_busy : ∃ s₁ s, loggedServer.run? busyServer = some s₁ ∧
    s₁.flag.triggered ∧ s₁.run? windingDown = some s ∧
    let deeds := s₁.history windingDown
    workDone 0 deeds = 1 ∧ workDone 1 deeds = 1 ∧ deeds.countP Deed.isAccepted = 1 ∧
      (writes deeds).map (·.1) = [.worker 0, .annotator] ∧ s.workBegun 0 = 0 ∧
      s.workBegun 1 = 0 := by
  obtain ⟨s₁, s, hbefore, flag, hafter, hserves, hserves', hfirst, hsecond, haccepted, hwriters⟩ :
      ∃ s₁ s, loggedServer.run? busyServer = some s₁ ∧ s₁.flag.triggered ∧
        s₁.run? windingDown = some s ∧ s₁.serves 0 ∧ s₁.serves 1 ∧
        workDone 0 (s₁.history windingDown) = 1 ∧ workDone 1 (s₁.history windingDown) = 1 ∧
        (s₁.history windingDown).countP Deed.isAccepted = 1 ∧
        (writes (s₁.history windingDown)).map (·.1) = [.worker 0, .annotator] :=
    ⟨_, _, rfl, rfl, rfl, rfl, rfl, rfl, rfl, rfl, rfl⟩
  obtain ⟨hwork, -⟩ := work_bounded_after_flag hbefore flag hafter
  have hleft := hwork 0
  have hleft' := hwork 1
  rw [if_pos hserves, hfirst] at hleft
  rw [if_pos hserves', hsecond] at hleft'
  exact ⟨s₁, s, hbefore, flag, hafter, hfirst, hsecond, haccepted, hwriters, by omega, by omega⟩

end Server

end RecordLog
