import RecordLog.Crew.Calls
import RecordLog.Proofs.Crew

/-! One sweep of the registry, from the look at its first member to the return. Marks may be set
between any two of its steps; it is the looks that decide who is taken out and joined. -/
namespace RecordLog.Crew

variable {τ : Type} {c : Crew τ} {m : Member}

lemma mem_entries : m ∈ c.entries ↔ c.registry.get? m.id = some m.worker := by
  rw [← SlotTable.mem_toList]
  simp only [entries, members, List.mem_map, Prod.exists]
  constructor
  · rintro ⟨id, worker, h, rfl⟩
    exact h
  · intro h
    exact ⟨m.id, m.worker, h, rfl⟩

lemma entries_id_nodup : (c.entries.map (·.id)).Nodup := by
  have hkeys := c.registry.keys_nodup
  rwa [show c.entries.map (·.id) = c.registry.toList.map (·.1) by simp [entries, members]]

lemma entries_worker : c.entries.map (·.worker) = c.registered := members_worker _

def isShut (c : Crew τ) (i : Nat) : Bool := (c.workers[i]?).any (·.shut)

lemma isShut_iff {i : Nat} : c.isShut i ↔ ∃ w, c.workers[i]? = some w ∧ w.shut := by
  simp [isShut, Option.any_eq_true]

lemma isShut_update {i j : Nat} {f : Worker τ → Worker τ} (hf : ∀ w, w.shut → (f w).shut)
    (h : c.isShut i) : (c.update j f).isShut i := by
  obtain ⟨w, hw, hshut⟩ := isShut_iff.mp h
  by_cases hij : j = i
  · subst hij
    exact isShut_iff.mpr ⟨f w, update_self hw f, hf w hshut⟩
  · exact isShut_iff.mpr ⟨w, (update_other hij f).trans hw, hshut⟩

lemma isShut_shut {i : Nat} (h : i < c.workers.length) : (c.shut i).isShut i :=
  isShut_iff.mpr ⟨_, update_self (List.getElem?_eq_getElem h) _, rfl⟩

@[simp] lemma isComplete_shut (i : Nat) : (c.shut i).isComplete = c.isComplete := by
  funext j
  by_cases hij : i = j
  · subst hij
    cases hw : c.workers[i]? with
    | none => simp [isComplete, shut, update, hw]
    | some w => simp [isComplete, shut, update_self hw, hw, Worker.isComplete]
  · simp [isComplete, shut, update_other hij]

/-- The crew after a look at a member. -/
def watched (which : Sweep) (c : Crew τ) (m : Member) : Crew τ :=
  if which = .all && !c.isComplete m.worker then c.shut m.worker else c

@[simp] lemma isComplete_watched (which : Sweep) (m : Member) :
    (c.watched which m).isComplete = c.isComplete := by
  unfold watched
  split <;> simp

@[simp] lemma registry_watched (which : Sweep) (m : Member) :
    (c.watched which m).registry = c.registry := by
  unfold watched
  split <;> rfl

lemma watched_ages (which : Sweep) (m : Member) : c.Ages (c.watched which m) := by
  unfold watched
  split
  · exact update_ages m.worker fun _ hw => hw
  · exact .refl c

lemma isShut_watched {which : Sweep} {i : Nat} (h : c.isShut i) : (c.watched which m).isShut i := by
  unfold watched
  split
  · exact isShut_update (fun _ _ => rfl) h
  · exact h

/-- The members that a sweep is to take out, judged by its looks. -/
def Sweep.chosen : Sweep → List (Member × Bool) → List Member
  | finished, seen => (seen.filter (·.2)).map (·.1)
  | all, seen => seen.map (·.1)

lemma Sweep.chosen_sublist (which : Sweep) (seen : List (Member × Bool)) :
    (which.chosen seen).Sublist (seen.map (·.1)) := by
  cases which with
  | finished => exact List.filter_sublist.map _
  | all => exact .refl _

def Move.isCall : Move τ → Bool
  | .call _ => true
  | _ => false

namespace Calls

variable {s₀ s s' : Calls τ} {move : Move τ} {moves : List (Move τ)}

/-- All that a move can do. -/
inductive Step (s : Calls τ) : Move τ → Calls τ → Prop
  | refused {e : IoError} (idle : s.stage = .idle) : Step s (.call (.spawn (.error e))) s
  | start {task : Nat → τ} (idle : s.stage = .idle) :
    Step s (.call (.spawn (.ok task))) (s.begin (.spawn (.ok task)))
  | begin {which : Sweep} (idle : s.stage = .idle) :
    Step s (.call (.sweep which)) (s.begin (.sweep which))
  | register {worker : Nat} (stage : s.stage = .starting worker) :
    Step s .proceed { s with
      crew := { s.crew with registry := (s.crew.registry.insert worker).2 }, stage := .idle }
  | look {which : Sweep} {m : Member} {left : List Member} {marked : List Nat}
    (stage : s.stage = .looking which (m :: left) marked) :
    Step s .proceed (s.look which m left marked)
  | choose {which : Sweep} {marked : List Nat} (stage : s.stage = .looking which [] marked) :
    Step s .proceed { s with stage := .removing (which.keys s.crew marked) [] }
  | remove {key : Nat} {keys : List Nat} {out : List Member}
    (stage : s.stage = .removing (key :: keys) out) : Step s .proceed (s.remove key keys out)
  | handOut {out : List Member} (stage : s.stage = .removing [] out) :
    Step s .proceed { s with stage := .joining out out.length }
  | join {m : Member} {left : List Member} {count : Nat}
    (stage : s.stage = .joining (m :: left) count) (ended : s.crew.isComplete m.worker) :
    Step s .proceed { s with stage := .joining left count, joined := s.joined ++ [m] }
  | answer {count : Nat} (stage : s.stage = .joining [] count) :
    Step s .proceed { s with stage := .idle, results := s.results ++ [count] }
  | finish {i : Nat} {ending : Worker.Ending} {w : Worker τ} (held : s.crew.workers[i]? = some w)
    (going : w.ending = none) : Step s (.finish i ending) { s with crew := s.crew.finish i ending }

theorem Step.of_step? (h : s.step? move = some s') : Step s move s' := by
  cases move with
  | call c =>
    simp only [step?, Option.ite_none_right_eq_some, Option.some.injEq] at h
    obtain ⟨idle, rfl⟩ := h
    match c with
    | .spawn (.error e) => exact .refused idle
    | .spawn (.ok task) => exact .start idle
    | .sweep which => exact .begin idle
  | proceed =>
    simp only [step?, proceed?] at h
    split at h <;> rename_i hstage
    · exact Option.some.inj h ▸ .register hstage
    · exact Option.some.inj h ▸ .look hstage
    · exact Option.some.inj h ▸ .choose hstage
    · exact Option.some.inj h ▸ .remove hstage
    · exact Option.some.inj h ▸ .handOut hstage
    · simp only [Option.ite_none_right_eq_some, Option.some.injEq] at h
      exact h.2 ▸ .join hstage h.1
    · exact Option.some.inj h ▸ .answer hstage
    · cases h
    · cases h
  | finish i ending =>
    simp only [step?] at h
    split at h
    · rename_i hw
      exact Option.some.inj h ▸ .finish hw rfl
    · cases h

lemma run?_cons {s s'' : Calls τ} : s.run? (move :: moves) = some s'' ↔
    ∃ s', s.step? move = some s' ∧ s'.run? moves = some s'' := by
  rw [run?, List.foldlM_cons]
  exact Option.bind_eq_some_iff

/-- What a sweep that began on `s₀` has done: it has taken `out` out of the registry and joined
`done`. -/
structure Swept (which : Sweep) (s₀ s : Calls τ) (out done : List Member) : Prop where
  taken : s.taken = s₀.taken ++ out
  joined : s.joined = s₀.joined ++ done
  ended : ∀ m ∈ done, s.crew.isComplete m.worker
  /-- Nobody else leaves the registry, and nobody enters. -/
  registry : ∀ key, s.crew.registry.get? key =
    if key ∈ out.map (·.id) then none else s₀.crew.registry.get? key
  length : s.crew.workers.length = s₀.crew.workers.length
  complete : ∀ i, s₀.crew.isComplete i → s.crew.isComplete i
  marked : ∀ m, (m, true) ∈ s.seen → s.crew.isComplete m.worker
  unmarked : ∀ m, (m, false) ∈ s.seen → ¬ s₀.crew.isComplete m.worker
  shut : which = .all → ∀ m, (m, false) ∈ s.seen → s.crew.isShut m.worker

/-- How far it has come at a stage, after these looks at the entries. -/
def Reached (which : Sweep) (entries : List Member) (seen : List (Member × Bool))
    (out done : List Member) : Stage → Prop
  | .looking which' left marked => which' = which ∧ seen.map (·.1) ++ left = entries ∧
    marked = (Sweep.finished.chosen seen).map (·.id) ∧ out = [] ∧ done = []
  | .removing keys out' => out' = out ∧ done = [] ∧ seen.map (·.1) = entries ∧
    ∃ rest, out ++ rest = which.chosen seen ∧ keys = rest.map (·.id)
  | .joining left count => done ++ left = out ∧ out = which.chosen seen ∧
    seen.map (·.1) = entries ∧ count = out.length
  | .idle => done = out ∧ out = which.chosen seen ∧ seen.map (·.1) = entries
  | .starting _ | .broken => False

structure Sweeping (which : Sweep) (s₀ s : Calls τ) (out done : List Member) : Prop
    extends Swept which s₀ s out done where
  reached : Reached which s₀.crew.entries s.seen out done s.stage
  results : s.results = if s.stage = .idle then s₀.results ++ [out.length] else s₀.results
  untouched : out = [] → s.crew.registry = s₀.crew.registry

namespace Sweeping

variable {which : Sweep} {out done : List Member}

lemma begin (s : Calls τ) (which : Sweep) : Sweeping which s (s.begin (.sweep which)) [] [] where
  taken := (List.append_nil _).symm
  joined := (List.append_nil _).symm
  ended := by simp
  registry := by simp [Calls.begin]
  length := rfl
  complete := fun _ => id
  marked := by simp [Calls.begin]
  unmarked := by simp [Calls.begin]
  shut := by simp [Calls.begin]
  reached := ⟨rfl, rfl, rfl, rfl, rfl⟩
  results := rfl
  untouched := fun _ => rfl

/-- Workers age while the call stays where it is. -/
lemma age {crew : Crew τ} (h : Sweeping which s₀ s out done) (ages : s.crew.Ages crew)
    (shut : ∀ i, s.crew.isShut i → crew.isShut i) :
    Sweeping which s₀ { s with crew } out done where
  taken := h.taken
  joined := h.joined
  ended := fun m hm => ages.complete _ (h.ended m hm)
  registry := fun key => by rw [← h.registry key, ages.registry]
  length := ages.length.trans h.length
  complete := fun i hi => ages.complete i (h.complete i hi)
  marked := fun m hm => ages.complete _ (h.marked m hm)
  unmarked := h.unmarked
  shut := fun hall m hm => shut _ (h.shut hall m hm)
  reached := h.reached
  results := h.results
  untouched := fun hout => ages.registry.trans (h.untouched hout)

lemma finish (h : Sweeping which s₀ s out done) (i : Nat) (ending : Worker.Ending) :
    Sweeping which s₀ { s with crew := s.crew.finish i ending } out done :=
  h.age (finish_ages i ending) fun _ => isShut_update fun _ hw => hw

/-- The next key to take out has an entry, that of the next member chosen. -/
lemma next (h : Sweeping which s₀ s out done) {key : Nat} {keys : List Nat} {out' : List Member}
    (stage : s.stage = .removing (key :: keys) out') : ∃ m rest, key = m.id ∧
      keys = rest.map (·.id) ∧ out ++ m :: rest = which.chosen s.seen ∧
      s.crew.registry.get? m.id = some m.worker := by
  have hreached := h.reached
  rw [stage] at hreached
  obtain ⟨-, -, hseen, rest, hrest, hkeys⟩ := hreached
  cases rest with
  | nil => cases hkeys
  | cons m rest =>
    obtain ⟨rfl, rfl⟩ := List.cons.inj hkeys
    have hsub : (out ++ m :: rest).Sublist s₀.crew.entries :=
      hrest ▸ hseen ▸ which.chosen_sublist s.seen
    have hdistinct : ((out ++ m :: rest).map (·.id)).Nodup :=
      (hsub.map _).nodup entries_id_nodup
    have hnew : m.id ∉ out.map (·.id) := by
      rw [List.map_append, List.nodup_append] at hdistinct
      exact fun hmem => hdistinct.2.2 m.id hmem m.id (by simp) rfl
    -- Others have been taken out so far, so this entry is as it was when the sweep began.
    refine ⟨m, rest, rfl, rfl, hrest, ?_⟩
    rw [h.registry, if_neg hnew]
    exact mem_entries.mp (hsub.subset (by simp))

end Sweeping

lemma remove_eq {key worker : Nat} (held : s.crew.registry.get? key = some worker)
    (keys : List Nat) (out : List Member) : s.remove key keys out = { s with
      crew := { s.crew with registry := s.crew.registry.erase key }
      stage := .removing keys (out ++ [⟨key, worker⟩])
      taken := s.taken ++ [⟨key, worker⟩] } := by
  rw [remove, held]

namespace Sweeping

variable {which : Sweep} {out done : List Member}

lemma look (h : Sweeping which s₀ s out done) {which' : Sweep} {m : Member} {left : List Member}
    {marked : List Nat} (stage : s.stage = .looking which' (m :: left) marked)
    (hired : ∀ i ∈ s.crew.registered, i < s.crew.workers.length) :
    Sweeping which s₀ (s.look which' m left marked) out done := by
  have hreached := h.reached
  rw [stage] at hreached
  obtain ⟨rfl, hseen, rfl, rfl, rfl⟩ := hreached
  have hm : m.worker ∈ s.crew.registered := by
    have hentry : m ∈ s₀.crew.entries := by
      rw [← hseen]
      simp
    have hheld := mem_entries.mp hentry
    rw [← h.untouched rfl] at hheld
    exact SlotTable.mem_values.mpr ⟨m.id, hheld⟩
  have hresults := h.results
  rw [stage] at hresults
  have haged : Sweeping which' s₀ { s with crew := s.crew.watched which' m } [] [] :=
    h.age (watched_ages which' m) fun _ => isShut_watched
  have hlooks : ∀ m' mark, (m', mark) ∈ s.seen ++ [(m, s.crew.isComplete m.worker)] →
      (m', mark) ∈ s.seen ∨ m' = m ∧ mark = s.crew.isComplete m.worker := by
    simp
  exact { haged with
    marked := by
      intro m' hm'
      obtain hold | ⟨rfl, hmark⟩ := hlooks m' true hm'
      · exact haged.marked m' hold
      · exact (watched_ages which' m').complete _ hmark.symm
    unmarked := by
      intro m' hm'
      obtain hold | ⟨rfl, hmark⟩ := hlooks m' false hm'
      · exact h.unmarked m' hold
      · exact fun hbefore => Bool.false_ne_true (hmark.trans (h.complete _ hbefore))
    shut := by
      intro hall m' hm'
      obtain hold | ⟨rfl, hmark⟩ := hlooks m' false hm'
      · exact haged.shut hall m' hold
      · have hshut : s.crew.watched which' m' = s.crew.shut m'.worker := by
          simp [watched, hall, ← hmark]
        show (s.crew.watched which' m').isShut m'.worker
        rw [hshut]
        exact isShut_shut (hired _ hm)
    reached := by
      refine ⟨rfl, by simpa [Calls.look] using hseen, ?_, rfl, rfl⟩
      cases hmark : s.crew.isComplete m.worker <;> simp [Calls.look, Sweep.chosen, hmark]
    results := hresults }

lemma choose (h : Sweeping which s₀ s out done) {which' : Sweep} {marked : List Nat}
    (stage : s.stage = .looking which' [] marked) : Sweeping which s₀
      { s with stage := .removing (which'.keys s.crew marked) [] } out done := by
  have hreached := h.reached
  have hresults := h.results
  rw [stage] at hreached hresults
  obtain ⟨rfl, hseen, rfl, rfl, rfl⟩ := hreached
  rw [List.append_nil] at hseen
  have hentries : s.crew.entries = s₀.crew.entries := by
    rw [entries, entries, h.untouched rfl]
  have hkeys : which'.keys s.crew ((Sweep.finished.chosen s.seen).map (·.id))
      = (which'.chosen s.seen).map (·.id) := by
    cases which' with
    | finished => rfl
    | all => rw [Sweep.keys, Sweep.chosen, hentries, hseen]
  exact { h with
    reached := ⟨rfl, rfl, hseen, _, rfl, hkeys⟩
    results := hresults }

lemma remove (h : Sweeping which s₀ s out done) {key : Nat} {keys : List Nat} {out' : List Member}
    (stage : s.stage = .removing (key :: keys) out') :
    ∃ m, Sweeping which s₀ (s.remove key keys out') (out ++ [m]) done := by
  obtain ⟨m, rest, rfl, rfl, hrest, hheld⟩ := h.next stage
  have hreached := h.reached
  have hresults := h.results
  rw [stage] at hreached hresults
  obtain ⟨rfl, rfl, hseen, -⟩ := hreached
  refine ⟨m, ?_⟩
  rw [remove_eq hheld]
  exact { h with
    taken := by rw [h.taken, List.append_assoc]
    registry := by
      intro key
      rw [SlotTable.get?_erase, h.registry, List.map_append, List.map_singleton]
      by_cases hkey : key = m.id <;> simp [hkey]
    reached := ⟨rfl, rfl, hseen, rest, by simpa using hrest, rfl⟩
    results := hresults
    untouched := by simp }

lemma handOut (h : Sweeping which s₀ s out done) {out' : List Member}
    (stage : s.stage = .removing [] out') :
    Sweeping which s₀ { s with stage := .joining out' out'.length } out done := by
  have hreached := h.reached
  have hresults := h.results
  rw [stage] at hreached hresults
  obtain ⟨rfl, rfl, hseen, rest, hrest, hkeys⟩ := hreached
  obtain rfl := List.map_eq_nil_iff.mp hkeys.symm
  rw [List.append_nil] at hrest
  exact { h with
    reached := ⟨rfl, hrest, hseen, rfl⟩
    results := hresults }

lemma join (h : Sweeping which s₀ s out done) {m : Member} {left : List Member} {count : Nat}
    (stage : s.stage = .joining (m :: left) count) (ended : s.crew.isComplete m.worker) :
    Sweeping which s₀ { s with stage := .joining left count, joined := s.joined ++ [m] } out
      (done ++ [m]) := by
  have hreached := h.reached
  have hresults := h.results
  rw [stage] at hreached hresults
  obtain ⟨hleft, hout, hseen, hcount⟩ := hreached
  exact { h with
    joined := by rw [h.joined, List.append_assoc]
    ended := by
      intro m' hm'
      obtain hold | hnew := List.mem_append.mp hm'
      · exact h.ended m' hold
      · exact List.mem_singleton.mp hnew ▸ ended
    reached := ⟨by simpa using hleft, hout, hseen, hcount⟩
    results := hresults }

lemma answer (h : Sweeping which s₀ s out done) {count : Nat}
    (stage : s.stage = .joining [] count) :
    Sweeping which s₀ { s with stage := .idle, results := s.results ++ [count] } out done := by
  have hreached := h.reached
  have hresults := h.results
  rw [stage] at hreached hresults
  obtain ⟨hleft, hout, hseen, rfl⟩ := hreached
  rw [List.append_nil] at hleft
  exact { h with
    reached := ⟨hleft, hout, hseen⟩
    results := by
      rw [hresults]
      rfl }

theorem step (h : Sweeping which s₀ s out done) (hs : Step s move s') (within : move.isCall = false)
    (hired : ∀ i ∈ s.crew.registered, i < s.crew.workers.length) :
    ∃ out done, Sweeping which s₀ s' out done := by
  cases hs with
  | refused | start | begin => cases within
  | register stage =>
    have hreached := h.reached
    rw [stage] at hreached
    exact hreached.elim
  | look stage => exact ⟨out, done, h.look stage hired⟩
  | choose stage => exact ⟨out, done, h.choose stage⟩
  | remove stage =>
    obtain ⟨m, hnext⟩ := h.remove stage
    exact ⟨_, _, hnext⟩
  | handOut stage => exact ⟨out, done, h.handOut stage⟩
  | join stage ended => exact ⟨_, _, h.join stage ended⟩
  | answer stage => exact ⟨out, done, h.answer stage⟩
  | finish => exact ⟨out, done, h.finish _ _⟩

end Sweeping

end Calls

end RecordLog.Crew
