import Mathlib.Tactic.Lemma
import RecordLog.Connection.Serve

/-! Runs of a connection seen through their exchanges: what one exchange can do, what a trace
amounts to, and how serving in given surroundings makes a trace. -/
namespace RecordLog.Connection

@[simp] lemma moveTo_phase (c : Connection) (phase : Phase) : (c.moveTo phase).phase = phase := rfl
@[simp] lemma moveTo_buffer (c : Connection) (phase : Phase) :
    (c.moveTo phase).buffer = c.buffer := rfl
@[simp] lemma moveTo_records (c : Connection) (phase : Phase) :
    (c.moveTo phase).records = c.records := rfl
@[simp] lemma reopened_phase (c : Connection) : c.reopened.phase = .polling := rfl
@[simp] lemma reopened_buffer (c : Connection) : c.reopened.buffer = c.buffer := rfl
@[simp] lemma reopened_records (c : Connection) : c.reopened.records = c.records := rfl

/-- The exchanges a connection can make, each with the connection after it. -/
inductive Step (c : Connection) : Exchange → Connection → Prop
  | stopBeforeReceive (phase : c.phase = .polling) :
    Step c ⟨.readFlag, .flag true⟩ (c.moveTo (.closed .shutdownBeforeReceive))
  | goOn (phase : c.phase = .polling) : Step c ⟨.readFlag, .flag false⟩ (c.moveTo .receiving)
  | peerClosed (phase : c.phase = .receiving) :
    Step c ⟨.receive receiveLimit, .received (.ok [])⟩ (c.moveTo (.closed .peerClosed))
  | receive {bytes : Bytes} (phase : c.phase = .receiving) (more : bytes ≠ []) :
    Step c ⟨.receive receiveLimit, .received (.ok bytes)⟩
      { c with buffer := c.buffer.extend bytes }.proceed
  | receiveInterrupted {e : IoError} (phase : c.phase = .receiving) (again : e.isInterrupted) :
    Step c ⟨.receive receiveLimit, .received (.error e)⟩ (c.moveTo .polling)
  | receiveFailed {e : IoError} (phase : c.phase = .receiving) (final : ¬ e.isInterrupted) :
    Step c ⟨.receive receiveLimit, .received (.error e)⟩
      (c.moveTo (.closed (.failed (.receive e))))
  | stopBetweenRecords {r : Bytes} {kept : Status} (phase : c.phase = .vetting r kept) :
    Step c ⟨.readFlag, .flag true⟩ (c.moveTo (.closed .shutdownBetweenRecords))
  | vet {r : Bytes} {kept : Status} (phase : c.phase = .vetting r kept) :
    Step c ⟨.readFlag, .flag false⟩ (c.moveTo (.appending r))
  | append {r : Bytes} (phase : c.phase = .appending r) :
    Step c ⟨.append r, .appended (.ok ())⟩ (c.moveTo (.readingBack r))
  | appendFailed {r : Bytes} {e : IoError} (phase : c.phase = .appending r) :
    Step c ⟨.append r, .appended (.error e)⟩ (c.moveTo (.closed (.failed (.append e))))
  | readBack {r content : Bytes} (phase : c.phase = .readingBack r) :
    Step c ⟨.readBack, .content (.ok content)⟩ (c.sendRest r content content)
  | readBackFailed {r : Bytes} {e : IoError} (phase : c.phase = .readingBack r) :
    Step c ⟨.readBack, .content (.error e)⟩ (c.moveTo (.closed (.failed (.readBack e))))
  | refused {r content left : Bytes} (phase : c.phase = .sending r content left) :
    Step c ⟨.send left, .accepted (.ok 0)⟩ (c.moveTo (.closed (.failed (.send .shortWrite))))
  | send {r content left : Bytes} {n : Nat} (phase : c.phase = .sending r content left)
    (more : n ≠ 0) : Step c ⟨.send left, .accepted (.ok n)⟩ (c.sendRest r content (left.drop n))
  | sendInterrupted {r content left : Bytes} {e : IoError}
    (phase : c.phase = .sending r content left) (again : e.isInterrupted) :
    Step c ⟨.send left, .accepted (.error e)⟩ c
  | sendFailed {r content left : Bytes} {e : IoError}
    (phase : c.phase = .sending r content left) (final : ¬ e.isInterrupted) :
    Step c ⟨.send left, .accepted (.error e)⟩ (c.moveTo (.closed (.failed (.send e))))

/-- An answered question is one of these exchanges. -/
theorem Step.of_resume? {c c' : Connection} {q : Request} {reply : Reply}
    (hq : c.phase.request? = some q) (hr : c.resume? reply = some c') : Step c ⟨q, reply⟩ c' := by
  unfold resume? at hr
  split at hr <;> rename_i hphase <;> simp only [Option.some.injEq, reduceCtorEq] at hr <;>
    subst hr <;> rw [hphase] at hq <;>
    simp only [Phase.request?, Option.some.injEq] at hq <;> subst hq
  · rename_i set
    cases set
    · exact .goOn hphase
    · exact .stopBeforeReceive hphase
  · exact .peerClosed hphase
  · exact .receive hphase (by assumption)
  · rename_i e
    by_cases he : e.isInterrupted
    · simpa [he] using Step.receiveInterrupted hphase he
    · simpa [he] using Step.receiveFailed hphase he
  · rename_i set
    cases set
    · exact .vet hphase
    · exact .stopBetweenRecords hphase
  · exact .append hphase
  · exact .appendFailed hphase
  · exact .readBack hphase
  · exact .readBackFailed hphase
  · exact .refused hphase
  · exact .send hphase (by assumption)
  · rename_i e
    by_cases he : e.isInterrupted
    · simpa [he] using Step.sendInterrupted hphase he
    · simpa [he] using Step.sendFailed hphase he

/-- The connection asked for what it exchanges, and goes on from the answer. -/
lemma Step.resumes {c c' : Connection} {x : Exchange} (h : Step c x c') :
    c.phase.request? = some x.request ∧ c.resume? x.reply = some c' := by
  cases h with
  | receive phase more =>
    rename_i bytes
    obtain ⟨b, bs, rfl⟩ := List.exists_cons_of_ne_nil more
    simp [phase, Phase.request?, resume?]
  | send phase more =>
    rename_i n
    obtain ⟨n, rfl⟩ := Nat.exists_eq_succ_of_ne_zero more
    simp [phase, Phase.request?, resume?]
  | receiveInterrupted phase again | sendInterrupted phase again =>
    simp [phase, Phase.request?, resume?, again]
  | receiveFailed phase final | sendFailed phase final =>
    simp [phase, Phase.request?, resume?, final]
  | stopBeforeReceive phase | goOn phase | peerClosed phase | stopBetweenRecords phase | vet phase
  | append phase | appendFailed phase | readBack phase | readBackFailed phase | refused phase =>
    simp [phase, Phase.request?, resume?]

theorem replay?_cons {c c' : Connection} {x : Exchange} {xs : List Exchange}
    (h : c.replay? (x :: xs) = some c') : ∃ d, Step c x d ∧ d.replay? xs = some c' := by
  simp only [replay?, Option.ite_none_right_eq_some, Option.bind_eq_bind] at h
  obtain ⟨hq, hrest⟩ := h
  obtain ⟨d, hd, hxs⟩ := Option.bind_eq_some_iff.mp hrest
  exact ⟨d, .of_resume? hq hd, hxs⟩

theorem replay?_append {c c' : Connection} {xs ys : List Exchange} :
    c.replay? (xs ++ ys) = some c' ↔ ∃ d, c.replay? xs = some d ∧ d.replay? ys = some c' := by
  induction xs generalizing c with
  | nil => simp [replay?]
  | cons x xs ih =>
    simp only [List.cons_append, replay?]
    split
    · cases hd : c.resume? x.reply with
      | none => simp
      | some d => simpa using ih
    · simp

lemma replay?_snoc {c d d' : Connection} {made : List Exchange} {q : Request} {reply : Reply}
    (h : c.replay? made = some d) (hq : d.phase.request? = some q)
    (hr : d.resume? reply = some d') : c.replay? (made ++ [⟨q, reply⟩]) = some d' := by
  rw [replay?_append]
  exact ⟨d, h, by simp [replay?, hq, hr]⟩

/-- Nothing is exchanged after the end. -/
lemma replay?_closed {c c' : Connection} {ending : Ending} {xs : List Exchange}
    (hc : c.phase = .closed ending) (h : c.replay? xs = some c') : xs = [] := by
  cases xs with
  | nil => rfl
  | cons x xs =>
    obtain ⟨d, hstep, -⟩ := replay?_cons h
    cases hstep <;> simp_all

/-- What every step keeps, every run keeps. -/
theorem replay?_induct {P : List Exchange → Connection → Prop}
    (step : ∀ {made c x d}, P made c → Step c x d → P (made ++ [x]) d)
    {made xs : List Exchange} {c c' : Connection} (start : P made c)
    (run : c.replay? xs = some c') : P (made ++ xs) c' := by
  induction xs generalizing c made with
  | nil =>
    simp only [replay?, Option.some.injEq] at run
    subst run
    rwa [List.append_nil]
  | cons x xs ih =>
    obtain ⟨d, hstep, hrest⟩ := replay?_cons run
    have := ih (step start hstep) hrest
    rwa [List.append_assoc] at this

namespace Exchange

/-- The record that this exchange added to the log. -/
def appended? : Exchange → Option Bytes
  | ⟨.append record, .appended (.ok ())⟩ => some record
  | _ => none

/-- The content that this exchange read back. -/
def readBack? : Exchange → Option Bytes
  | ⟨.readBack, .content (.ok content)⟩ => some content
  | _ => none

lemma readBack?_eq_some {x : Exchange} {content : Bytes} :
    x.readBack? = some content ↔ x = ⟨.readBack, .content (.ok content)⟩ := by
  unfold readBack?
  split <;> simp_all

/-- The call failed for good. -/
def Fails : Exchange → Prop
  | ⟨_, .received (.error e)⟩ => ¬ e.isInterrupted
  | ⟨_, .appended (.error _)⟩ => True
  | ⟨_, .content (.error _)⟩ => True
  | ⟨_, .accepted (.ok 0)⟩ => True
  | ⟨_, .accepted (.error e)⟩ => ¬ e.isInterrupted
  | _ => False

instance : DecidablePred Fails
  | ⟨_, .received (.error e)⟩ | ⟨_, .accepted (.error e)⟩ =>
    inferInstanceAs (Decidable (¬ e.isInterrupted))
  | ⟨_, .appended (.error _)⟩ | ⟨_, .content (.error _)⟩ | ⟨_, .accepted (.ok 0)⟩ =>
    inferInstanceAs (Decidable True)
  | ⟨_, .flag _⟩ | ⟨_, .received (.ok _)⟩ | ⟨_, .appended (.ok _)⟩ | ⟨_, .content (.ok _)⟩
  | ⟨_, .accepted (.ok (_ + 1))⟩ => inferInstanceAs (Decidable False)

end Exchange

/-- Octets that came from the peer. -/
def octetsReceived (trace : List Exchange) : Bytes := trace.flatMap Exchange.delivered

/-- Octets that the peer took. -/
def octetsSent (trace : List Exchange) : Bytes := trace.flatMap Exchange.sent

/-- Records added to the log, in order. -/
def recordsAppended (trace : List Exchange) : List Bytes := trace.filterMap Exchange.appended?

/-- Contents of the log read back, in order. -/
def readBacks (trace : List Exchange) : List Bytes := trace.filterMap Exchange.readBack?

/-- The call that fails is the last one. -/
theorem eq_nil_of_fails {c c' : Connection} {before after : List Exchange} {x : Exchange}
    (run : c.replay? (before ++ x :: after) = some c') (hx : x.Fails) : after = [] := by
  obtain ⟨d, -, hrest⟩ := replay?_append.mp run
  obtain ⟨d', hstep, hafter⟩ := replay?_cons hrest
  have closed : ∃ ending, d'.phase = .closed ending := by
    cases hstep <;> simp_all [Exchange.Fails, moveTo]
  obtain ⟨ending, hd'⟩ := closed
  exact replay?_closed hd' hafter

/-- The surroundings after an exchange that took `c` to `c'` and was reported. -/
def Surroundings.after (w : Surroundings) (q : Request) (c c' : Connection) : Surroundings :=
  { (w.answer q).2 with host := (c.events c').foldl Host.report (w.answer q).2.host }

/-- An open connection can take any answer of the surroundings. -/
lemma resume?_answer {c : Connection} {q : Request} (w : Surroundings)
    (hq : c.phase.request? = some q) : ∃ c', c.resume? (w.answer q).1 = some c' := by
  obtain ⟨id, buffer, records, phase⟩ := c
  cases phase <;> simp only [Phase.request?, Option.some.injEq, reduceCtorEq] at hq <;> subst hq <;>
    simp only [Surroundings.answer, resume?]
  · exact ⟨_, rfl⟩
  · rcases (w.receive receiveLimit).1 with e | (_ | ⟨b, bs⟩) <;> exact ⟨_, rfl⟩
  · exact ⟨_, rfl⟩
  · rename_i record
    rcases (w.store.append record w.host).1 with e | ⟨⟩ <;> exact ⟨_, rfl⟩
  · rcases w.store.readAll w.host with e | content <;> exact ⟨_, rfl⟩
  · rename_i left
    rcases (w.send left).1 with e | (_ | n) <;> exact ⟨_, rfl⟩

/-- Serving always ends, and what every exchange with the surroundings keeps holds then. -/
theorem serve_induct {P : Connection → Surroundings → List Exchange → Prop} {c : Connection}
    {w : Surroundings}
    (step : ∀ {c w made q c'}, P c w made → c.phase.request? = some q →
      c.resume? (w.answer q).1 = some c' →
      P c' (w.after q c c') (made ++ [⟨q, (w.answer q).1⟩]))
    (start : P c.reopened w []) :
    P (c.serve w).connection (c.serve w).surroundings (c.serve w).trace ∧
      ∃ ending, (c.serve w).connection.phase = .closed ending := by
  have general : ∀ c w made, P c w made.reverse →
      P (serveFrom c w made).connection (serveFrom c w made).surroundings
        (serveFrom c w made).trace ∧
      ∃ ending, (serveFrom c w made).connection.phase = .closed ending := by
    intro c w made
    induction c, w, made using serveFrom.induct with
    | case1 c w made hq =>
      intro h
      rw [serveFrom]
      split
      · refine ⟨h, ?_⟩
        cases hphase : c.phase <;> simp_all [Phase.request?]
      · simp_all
    | case2 c w made q hq hc =>
      obtain ⟨c', hc'⟩ := resume?_answer w hq
      simp_all
    | case3 c w made q hq c' hc _ reported ih =>
      intro h
      have := ih (by rw [List.reverse_cons]; exact step h hq hc)
      rw [serveFrom]
      split
      · simp_all
      · rename_i q' hq'
        obtain rfl : q = q' := Option.some.inj (hq.symm.trans hq')
        split
        · simp_all
        · rename_i c'' hc''
          obtain rfl : c' = c'' := Option.some.inj (hc.symm.trans hc'')
          exact this
  exact general c.reopened w [] start

/-- The exchanges of a served connection make a run from its reopening to its end. -/
theorem serve_replay (c : Connection) (w : Surroundings) :
    c.reopened.replay? (c.serve w).trace = some (c.serve w).connection ∧
      ∃ ending, (c.serve w).connection.phase = .closed ending := by
  refine serve_induct (P := fun c' _ made => c.reopened.replay? made = some c') ?_ rfl
  intro d w made q d' h hq hd
  exact replay?_snoc h hq hd

end RecordLog.Connection
