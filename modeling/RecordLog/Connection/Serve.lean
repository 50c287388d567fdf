import RecordLog.Connection.Script

/-! Serving to the end. Every exchange uses up part of the script, takes a record off the buffer,
moves the record under way one stage on, or sends more of its echo, so serving always ends. -/
namespace RecordLog.Connection

def Item.weight : Item → Nat
  | .deliver bytes => bytes.length + 1
  | _ => 1

def totalWeight : List Item → Nat
  | [] => 0
  | item :: items => item.weight + totalWeight items

/-- What later receives can still find. -/
def Script.supply (s : Script) : Nat := s.rest.length + totalWeight s.items

/-- Planned actions that belong to later writes. -/
def Script.ahead (s : Script) : Nat := (s.plan.filter (s.writes < ·.1)).length

/-- Stages left before the next look at the buffer. -/
def Phase.rank : Phase → Nat
  | closed _ => 0
  | receiving => 1
  | polling => 2
  | sending .. => 3
  | readingBack _ => 4
  | appending _ => 5
  | vetting .. => 6

def Phase.unsent : Phase → Nat
  | sending _ _ left => left.length
  | _ => 0

/-- A connection in its surroundings, weighed by what is left to do. -/
def load (c : Connection) (w : Surroundings) : Nat × Nat × Nat × Nat × Nat :=
  (w.script.supply, c.buffer.size, c.phase.rank, w.script.ahead, c.phase.unsent)

/-- Order of loads, the first differing part deciding. -/
abbrev Lighter : Nat × Nat × Nat × Nat × Nat → Nat × Nat × Nat × Nat × Nat → Prop :=
  Prod.Lex (· < ·) (Prod.Lex (· < ·) (Prod.Lex (· < ·) (Prod.Lex (· < ·) (· < ·))))

theorem lighter_supply {a a' : Nat} {r r' : Nat × Nat × Nat × Nat} (h : a < a') :
    Lighter (a, r) (a', r') := .left _ _ h

theorem lighter_buffer {a a' b b' : Nat} {r r' : Nat × Nat × Nat} (ha : a ≤ a') (h : b < b') :
    Lighter (a, b, r) (a', b', r') := by
  rcases Nat.lt_or_eq_of_le ha with ha | rfl
  · exact .left _ _ ha
  · exact .right _ (.left _ _ h)

theorem lighter_rank {a a' b b' c c' : Nat} {r r' : Nat × Nat} (ha : a ≤ a') (hb : b ≤ b')
    (h : c < c') : Lighter (a, b, c, r) (a', b', c', r') := by
  rcases Nat.lt_or_eq_of_le hb with hb | rfl
  · exact lighter_buffer ha hb
  rcases Nat.lt_or_eq_of_le ha with ha | rfl
  · exact .left _ _ ha
  · exact .right _ (.right _ (.left _ _ h))

namespace Surroundings

theorem nextItem_supply (w : Surroundings) (limit : Nat) (items : List Item)
    (hrest : w.script.rest = []) :
    (w.nextItem limit items).2.script.supply ≤ totalWeight items ∧
      ((w.nextItem limit items).1 ≠ .ok [] →
        (w.nextItem limit items).2.script.supply < totalWeight items) := by
  induction items generalizing w with
  | nil => simp [nextItem, Script.supply, hrest]
  | cons item items ih =>
    cases item with
    | deliver bytes =>
      simp only [nextItem, Script.supply, totalWeight, Item.weight,
        List.length_drop]
      omega
    | fail e =>
      simp only [nextItem, Script.supply, totalWeight, Item.weight, hrest,
        List.length_nil]
      omega
    | meanwhile d =>
      have := ih (w.perform d) (by simpa using hrest)
      simp only [nextItem, totalWeight, Item.weight]
      exact ⟨by omega, fun h => by have := this.2 h; omega⟩

theorem receive_supply (w : Surroundings) :
    (w.receive receiveLimit).2.script.supply ≤ w.script.supply ∧
      ((w.receive receiveLimit).1 ≠ .ok [] →
        (w.receive receiveLimit).2.script.supply < w.script.supply) := by
  unfold receive
  split
  · rename_i h
    have := w.nextItem_supply receiveLimit w.script.items h
    simpa [Script.supply, h] using this
  · rename_i rest h
    have : 0 < w.script.rest.length := List.length_pos_iff.mpr h
    simp only [Script.supply, List.length_drop, receiveLimit]
    omega

theorem act_script (w : Surroundings) (cap : Nat) (actions : List WriteAction) :
    (act cap w actions).2.script = w.script := by
  induction actions generalizing w cap with
  | nil => rfl
  | cons a actions ih => cases a <;> simp [act, ih]

theorem act_error {w : Surroundings} {cap : Nat} {actions : List WriteAction} {e : IoError}
    (h : (act cap w actions).1 = .error e) : actions ≠ [] := by
  rintro rfl
  simp [act] at h

theorem send_supply (w : Surroundings) (bytes : Bytes) :
    (w.send bytes).2.script.supply = w.script.supply := by
  simp [send, act_script, Script.supply]

theorem send_ahead (w : Surroundings) (bytes : Bytes) :
    (w.send bytes).2.script.ahead ≤ w.script.ahead ∧
      (∀ e, (w.send bytes).1 = .error e → (w.send bytes).2.script.ahead < w.script.ahead) := by
  have split (plan : List (Nat × WriteAction)) (n : Nat) :
      (plan.filter (n + 1 < ·.1)).length + (plan.filter (·.1 = n + 1)).length
        = (plan.filter (n < ·.1)).length := by
    induction plan with
    | nil => rfl
    | cons p plan ih =>
      by_cases h1 : n + 1 < p.1
      · have h2 : ¬ p.1 = n + 1 := by omega
        have h3 : n < p.1 := by omega
        simp only [List.filter_cons_of_pos, List.filter_cons_of_neg, h1, h2, h3, decide_true,
          decide_false, Bool.false_eq_true, not_false_iff, List.length_cons]
        omega
      · by_cases h2 : p.1 = n + 1
        · have h3 : n < p.1 := by omega
          rw [List.filter_cons_of_neg (by simpa using h1),
            List.filter_cons_of_pos (by simpa using h2),
            List.filter_cons_of_pos (by simpa using h3)]
          simp only [List.length_cons]
          omega
        · have h3 : ¬ n < p.1 := by omega
          rw [List.filter_cons_of_neg (by simpa using h1),
            List.filter_cons_of_neg (by simpa using h2),
            List.filter_cons_of_neg (by simpa using h3)]
          exact ih
  have key := split w.script.plan w.script.writes
  simp only [send, act_script, Script.ahead]
  refine ⟨by omega, fun e he => ?_⟩
  have := List.length_pos_iff.mpr (act_error he)
  simp only [Script.due, List.length_map] at this
  omega

end Surroundings

theorem proceed_lighter {c : Connection} {a a' n n' u u' : Nat} {b : Nat} {r : Nat}
    (ha : a ≤ a') (hb : c.buffer.size ≤ b) (hr : 2 < r) :
    Lighter (a, c.proceed.buffer.size, c.proceed.phase.rank, n, u) (a', b, r, n', u') := by
  unfold proceed
  split
  · rename_i h
    exact lighter_buffer ha (Nat.lt_of_lt_of_le (RecordBuffer.next?_size h) hb)
  · exact lighter_rank ha hb hr

theorem resume_lighter {c c' : Connection} {w : Surroundings} {q : Request}
    (hq : c.phase.request? = some q) (hc : c.resume? (w.answer q).1 = some c') :
    Lighter (c'.load (w.answer q).2) (c.load w) := by
  obtain ⟨id, buffer, records, phase⟩ := c
  cases phase with
  | closed e => simp [Phase.request?] at hq
  | polling =>
    obtain rfl : q = .readFlag := by simpa [Phase.request?, eq_comm] using hq
    simp only [Surroundings.answer, resume?, Option.some.injEq] at hc
    subst hc
    refine lighter_rank (Nat.le_refl _) (Nat.le_refl _) ?_
    simp only [moveTo]
    split <;> decide
  | vetting record kept =>
    obtain rfl : q = .readFlag := by simpa [Phase.request?, eq_comm] using hq
    simp only [Surroundings.answer, resume?, Option.some.injEq] at hc
    subst hc
    refine lighter_rank (Nat.le_refl _) (Nat.le_refl _) ?_
    simp only [moveTo]
    split <;> simp [Phase.rank]
  | receiving =>
    obtain rfl : q = .receive receiveLimit := by simpa [Phase.request?, eq_comm] using hq
    obtain ⟨hle, hlt⟩ := w.receive_supply
    simp only [Surroundings.answer] at hc ⊢
    cases hr : (w.receive receiveLimit).1 with
    | error e => exact lighter_supply (hlt (by simp [hr]))
    | ok bytes =>
      cases bytes with
      | nil =>
        simp only [hr, resume?, Option.some.injEq] at hc
        subst hc
        exact lighter_rank hle (Nat.le_refl _) (by simp [moveTo, Phase.rank])
      | cons b bs => exact lighter_supply (hlt (by simp [hr]))
  | appending record =>
    obtain rfl : q = .append record := by simpa [Phase.request?, eq_comm] using hq
    simp only [Surroundings.answer] at hc ⊢
    refine lighter_rank (Nat.le_refl _) ?_ ?_ <;>
      cases hr : (w.store.append record w.host).1 <;>
        simp only [hr, resume?, Option.some.injEq] at hc <;> subst hc <;>
          simp [moveTo, Phase.rank]
  | readingBack record =>
    obtain rfl : q = .readBack := by simpa [Phase.request?, eq_comm] using hq
    simp only [Surroundings.answer] at hc ⊢
    cases hr : w.store.readAll w.host with
    | error e =>
      simp only [hr, resume?, Option.some.injEq] at hc
      subst hc
      exact lighter_rank (Nat.le_refl _) (Nat.le_refl _) (by simp [moveTo, Phase.rank])
    | ok content =>
      simp only [hr, resume?, Option.some.injEq] at hc
      subst hc
      cases content with
      | nil => exact proceed_lighter (Nat.le_refl _) (Nat.le_refl _) (by simp [Phase.rank])
      | cons b bs =>
        exact lighter_rank (Nat.le_refl _) (Nat.le_refl _) (by simp [sendRest, moveTo, Phase.rank])
  | sending record content left =>
    obtain rfl : q = .send left := by simpa [Phase.request?, eq_comm] using hq
    have hs := w.send_supply left
    obtain ⟨hle, hlt⟩ := w.send_ahead left
    simp only [Surroundings.answer] at hc ⊢
    have shut (e : ConnectionError) :
        Lighter (load ⟨id, buffer, records, .closed (.failed e)⟩ (w.send left).2)
          (load ⟨id, buffer, records, .sending record content left⟩ w) :=
      lighter_rank (Nat.le_of_eq hs) (Nat.le_refl _) (by simp [Phase.rank])
    cases hr : (w.send left).1 with
    | error e =>
      simp only [hr, resume?, Option.some.injEq] at hc
      subst hc
      split
      · have := hlt e hr
        simp only [load, hs]
        exact .right _ (.right _ (.right _ (.left _ _ this)))
      · exact shut _
    | ok n =>
      cases n with
      | zero =>
        simp only [hr, resume?, Option.some.injEq] at hc
        subst hc
        exact shut _
      | succ n =>
        simp only [hr, resume?, Option.some.injEq] at hc
        subst hc
        cases hd : left.drop (n + 1) with
        | nil => exact proceed_lighter (Nat.le_of_eq hs) (Nat.le_refl _) (by simp [Phase.rank])
        | cons b bs =>
          have hl : (b :: bs).length < left.length := by
            have := congrArg List.length hd
            simp only [List.length_drop, List.length_cons] at this ⊢
            omega
          simp only [load, hs, sendRest, moveTo, Phase.rank]
          refine .right _ (.right _ (.right _ ?_))
          rcases Nat.lt_or_eq_of_le hle with h | h
          · exact .left _ _ h
          · simp only [h]
            exact .right _ hl

/-- What a served connection leaves behind. -/
structure Served where
  connection : Connection
  surroundings : Surroundings
  trace : List Exchange

/-- Questions and answers from here to the end, after the exchanges already made, newest first. -/
def serveFrom (c : Connection) (w : Surroundings) (made : List Exchange) : Served :=
  match hq : c.phase.request? with
  | none => ⟨c, w, made.reverse⟩
  | some q =>
    match hc : c.resume? (w.answer q).1 with
    | none => ⟨c, w, made.reverse⟩
    | some c' =>
      have := resume_lighter hq hc
      let reported := (c.events c').foldl Host.report (w.answer q).2.host
      serveFrom c' { (w.answer q).2 with host := reported } (⟨q, (w.answer q).1⟩ :: made)
  termination_by c.load w
  decreasing_by exact this

/-- Serves a connection until its peer closes it, something fails or the flag is seen set. -/
def serve (c : Connection) (w : Surroundings) : Served := serveFrom c.reopened w []

end RecordLog.Connection
