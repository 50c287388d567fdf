import RecordLog.Proofs.Connection.Trace
import RecordLog.Proofs.LogStore.Content

/-! Surroundings in which nothing fails. Receives and sends may be interrupted and cut short as the
script likes, but nobody sets the flag or touches the files, and the log can be read and grown. -/
namespace RecordLog.Connection

/-- Some octets, or an interruption. -/
def Item.Faultless : Item → Prop
  | .deliver bytes => bytes ≠ []
  | .fail e => e.isInterrupted
  | .meanwhile _ => False

/-- A limit that lets some octets through, or an interruption. -/
def WriteAction.Faultless : WriteAction → Prop
  | .cap limit => limit ≠ 0
  | .fail e => e.isInterrupted
  | .refuse | .meanwhile _ => False

structure Script.Faultless (s : Script) : Prop where
  items : ∀ item ∈ s.items, item.Faultless
  plan : ∀ action ∈ s.plan, action.2.Faultless
  room : s.maxWrite ≠ some 0

def Item.octets : Item → Bytes
  | .deliver bytes => bytes
  | _ => []

/-- All octets that the peer has still to deliver. -/
def Script.stream (s : Script) : Bytes := s.rest ++ s.items.flatMap Item.octets

namespace Surroundings

/-- Nothing will fail, and the log has this content. -/
structure Faultless (w : Surroundings) (log : Bytes) : Prop where
  unset : w.flag.triggered = false
  holds : w.store.Holds w.host log
  script : w.script.Faultless

/-- What an exchange with faultless surroundings `w` that leaves `w'` can be. -/
structure Answered (w : Surroundings) (log : Bytes) (x : Exchange) (w' : Surroundings) : Prop where
  sound : ¬ x.Fails
  unset : x.reply ≠ .flag true
  content : ∀ read, x.reply = .content (.ok read) → read = log
  after : w'.Faultless (log ++ x.appended?.toList.flatten)
  store : w'.store = w.store
  supply : x.delivered ++ w'.script.stream = w.script.stream
  ended : x.reply = .received (.ok []) → w.script.stream = []

variable {w : Surroundings} {log : Bytes}

/-- Reports do not matter. -/
lemma Answered.report {x : Exchange} {w' : Surroundings} (h : w.Answered log x w')
    (es : List Event) :
    w.Answered log x { w' with host := es.foldl Host.report w'.host } where
  sound := h.sound
  unset := h.unset
  content := h.content
  after := ⟨h.after.unset, h.after.holds.congr (Host.report_files _ _), h.after.script⟩
  store := h.store
  supply := h.supply
  ended := h.ended

lemma nextItem_faultless (limit : Nat) {items : List Item} (hw : w.Faultless log)
    (hlimit : limit ≠ 0) (hitems : w.script.items = items) (hrest : w.script.rest = []) :
    (w.nextItem limit items).2.Faultless log ∧ (w.nextItem limit items).2.store = w.store ∧
      ((items = [] ∧ (w.nextItem limit items).1 = .ok [] ∧
          (w.nextItem limit items).2.script.stream = []) ∨
        (∃ e, (w.nextItem limit items).1 = .error e ∧ e.isInterrupted ∧
          (w.nextItem limit items).2.script.stream = w.script.stream) ∨
        ∃ bytes, bytes ≠ [] ∧ (w.nextItem limit items).1 = .ok bytes ∧
          bytes ++ (w.nextItem limit items).2.script.stream = w.script.stream) := by
  have hall := hw.script.items
  have hafter := hw.script
  cases items with
  | nil =>
    refine ⟨⟨hw.unset, hw.holds, by simp [nextItem], hafter.plan, hafter.room⟩, rfl,
      .inl ⟨rfl, rfl, ?_⟩⟩
    simp [nextItem, Script.stream, hrest]
  | cons item items =>
    rw [hitems, List.forall_mem_cons] at hall
    obtain ⟨hitem, hall⟩ := hall
    cases item with
    | deliver bytes =>
      refine ⟨⟨hw.unset, hw.holds, hall, hafter.plan, hafter.room⟩, rfl, .inr (.inr ?_)⟩
      have hbytes : bytes ≠ [] := hitem
      refine ⟨bytes.take limit, by simp [hlimit, hbytes], rfl, ?_⟩
      simp [nextItem, Script.stream, hrest, hitems, Item.octets, ← List.append_assoc]
    | fail e =>
      refine ⟨⟨hw.unset, hw.holds, hall, hafter.plan, hafter.room⟩, rfl, .inr (.inl ?_)⟩
      exact ⟨e, rfl, hitem, by simp [nextItem, Script.stream, hitems, Item.octets]⟩
    | meanwhile d => exact hitem.elim

lemma receive_answered (hw : w.Faultless log) :
    w.Answered log ⟨.receive receiveLimit, .received (w.receive receiveLimit).1⟩
      (w.receive receiveLimit).2 := by
  unfold receive
  split
  · rename_i hrest
    obtain ⟨hafter, hstore, h⟩ :=
      nextItem_faultless receiveLimit hw (by decide) rfl hrest
    have hafter' : (w.nextItem receiveLimit w.script.items).2.Faultless
        (log ++ ([] : List Bytes).flatten) := by simpa using hafter
    obtain ⟨hitems, hr, hsupply⟩ | ⟨e, hr, he, hsupply⟩ | ⟨bytes, hne, hr, hsupply⟩ := h
    · have hend : w.script.stream = [] := by simp [Script.stream, hrest, hitems]
      rw [hr]
      exact ⟨by simp [Exchange.Fails], by simp, by simp, hafter', hstore,
        by simp [Exchange.delivered, hsupply, hend], fun _ => hend⟩
    · rw [hr]
      exact ⟨by simp [Exchange.Fails, he], by simp, by simp, hafter', hstore,
        by simpa [Exchange.delivered], by simp⟩
    · rw [hr]
      exact ⟨by simp [Exchange.Fails], by simp, by simp, hafter', hstore,
        by simpa [Exchange.delivered], by simp [hne]⟩
  · rename_i rest hne
    have hscript := hw.script
    refine ⟨by simp [Exchange.Fails], by simp, by simp, ⟨hw.unset, ?_, hscript.items, hscript.plan,
      hscript.room⟩, rfl, ?_, ?_⟩
    · simpa [Exchange.appended?] using hw.holds
    · simp [Exchange.delivered, Script.stream, ← List.append_assoc]
    · intro hr
      exact (hne (by simpa [receiveLimit] using hr)).elim

lemma act_faultless {cap : Nat} {actions : List WriteAction} (hcap : cap ≠ 0)
    (hall : ∀ action ∈ actions, action.Faultless) :
    (act cap w actions).2 = w ∧ ((∃ n, n ≠ 0 ∧ (act cap w actions).1 = .ok n) ∨
      ∃ e, e.isInterrupted ∧ (act cap w actions).1 = .error e) := by
  induction actions generalizing cap with
  | nil => exact ⟨rfl, .inl ⟨cap, hcap, rfl⟩⟩
  | cons action actions ih =>
    rw [List.forall_mem_cons] at hall
    obtain ⟨haction, hall⟩ := hall
    cases action with
    | fail e => exact ⟨rfl, .inr ⟨e, haction, rfl⟩⟩
    | refuse => exact haction.elim
    | cap limit =>
      have hlimit : limit ≠ 0 := haction
      exact ih (by omega) hall
    | meanwhile d => exact haction.elim

lemma send_answered {bytes : Bytes} (hw : w.Faultless log) (hbytes : bytes ≠ []) :
    w.Answered log ⟨.send bytes, .accepted (w.send bytes).1⟩ (w.send bytes).2 := by
  have hscript := hw.script
  have hlength := List.length_pos_iff.mpr hbytes
  have hcap : w.script.maxWrite.elim bytes.length (min bytes.length) ≠ 0 := by
    have hroom := hscript.room
    cases hm : w.script.maxWrite with
    | none => simp only [Option.elim]; omega
    | some n =>
      have hn : n ≠ 0 := by simpa [hm] using hroom
      simp only [Option.elim]
      omega
  have hdue : ∀ action ∈ w.script.due, action.Faultless := by
    intro action haction
    obtain ⟨planned, hplanned, rfl⟩ := List.mem_map.mp haction
    exact hscript.plan planned (List.mem_filter.mp hplanned).1
  obtain ⟨hsame, hresult⟩ := act_faultless
    (w := { w with script.writes := w.script.writes + 1 }) hcap hdue
  simp only [send, hsame]
  refine ⟨?_, by simp, by simp, ⟨hw.unset, ?_, hscript.items, hscript.plan, hscript.room⟩, rfl, rfl,
    by simp⟩
  · obtain ⟨n, hn, hr⟩ | ⟨e, he, hr⟩ := hresult
    · rw [hr]
      obtain ⟨m, rfl⟩ := Nat.exists_eq_succ_of_ne_zero hn
      simp [Exchange.Fails]
    · rw [hr]
      simpa [Exchange.Fails] using he
  · simpa [Exchange.appended?] using hw.holds

/-- Faultless surroundings answer every question well and stay faultless. -/
theorem answer_answered {q : Request} (hw : w.Faultless log) {c : Connection}
    (hq : c.phase.request? = some q) (hsend : ∀ bytes, q = .send bytes → bytes ≠ []) :
    w.Answered log ⟨q, (w.answer q).1⟩ (w.answer q).2 := by
  cases q with
  | readFlag =>
    refine ⟨by simp [answer, Exchange.Fails], by simp [answer, hw.unset], by simp [answer], ?_, rfl,
      rfl, by simp [answer]⟩
    simpa [answer, Exchange.appended?] using hw
  | receive limit =>
    obtain rfl : limit = receiveLimit := by
      cases hphase : c.phase <;> simp_all [Phase.request?]
    exact receive_answered hw
  | append record =>
    obtain ⟨hr, hholds⟩ := hw.holds.append record
    refine ⟨by simp [answer, hr, Exchange.Fails], by simp [answer], by simp [answer],
      ⟨hw.unset, ?_, hw.script⟩, rfl, rfl, by simp [answer]⟩
    simpa [answer, hr, Exchange.appended?] using hholds
  | readBack =>
    have hr := hw.holds.reads
    refine ⟨by simp [answer, hr, Exchange.Fails], by simp [answer], by simp [answer, hr, eq_comm],
      ?_, rfl, rfl, by simp [answer]⟩
    simpa [answer, Exchange.appended?] using hw
  | send bytes => exact send_answered hw (hsend bytes rfl)

end Surroundings

end RecordLog.Connection
