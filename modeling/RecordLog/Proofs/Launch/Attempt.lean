import Mathlib.Tactic.Lemma
import RecordLog.Machine

/-! Attempts run on a machine: what each kind of step does, how a sequence of them ends, and which
of them leave the files alone. -/
namespace RecordLog

namespace Attempt

variable {α β : Type} {m : Machine}

lemma run_bind (a : Attempt α) (f : α → Attempt β) (m : Machine) :
    (a >>= f).run m = match a.run m with
      | (.ok x, m') => (f x).run m'
      | (.error e, m') => (.error e, m') := by
  simp only [bind, ExceptT.bind, ExceptT.mk, ExceptT.run, StateT.bind]
  rcases a m with ⟨_ | _, m'⟩ <;> rfl

/-- A sequence fails where its first part fails, or goes on from where that leads. -/
lemma of_run_bind {a : Attempt α} {f : α → Attempt β} {r : Except Failure β} {m' : Machine}
    (h : (a >>= f).run m = (r, m')) : (∃ e, a.run m = (.error e, m') ∧ r = .error e) ∨
      ∃ x m₁, a.run m = (.ok x, m₁) ∧ (f x).run m₁ = (r, m') := by
  rw [run_bind] at h
  split at h
  · rename_i x m₁ hrun
    exact .inr ⟨x, m₁, hrun, h⟩
  · rename_i e m₁ hrun
    obtain ⟨rfl, rfl⟩ := Prod.mk.inj h
    exact .inl ⟨e, hrun, rfl⟩

lemma of_run_bind_ok {a : Attempt α} {f : α → Attempt β} {y : β} {m' : Machine}
    (h : (a >>= f).run m = (.ok y, m')) :
    ∃ x m₁, a.run m = (.ok x, m₁) ∧ (f x).run m₁ = (.ok y, m') := by
  obtain ⟨e, -, failed⟩ | goes := of_run_bind h
  · cases failed
  · exact goes

lemma of_run_bind_error {a : Attempt α} {f : α → Attempt β} {e : Failure} {m' : Machine}
    (h : (a >>= f).run m = (.error e, m')) : a.run m = (.error e, m') ∨
      ∃ x m₁, a.run m = (.ok x, m₁) ∧ (f x).run m₁ = (.error e, m') := by
  obtain ⟨e', hrun, same⟩ | goes := of_run_bind h
  · obtain rfl := Except.error.inj same
    exact .inl hrun
  · exact .inr goes

@[simp] lemma run_pure (x : α) (m : Machine) : (pure x : Attempt α).run m = (.ok x, m) := rfl

@[simp] lemma run_map (f : Except Failure α → Except Failure β) (a : Attempt α) (m : Machine) :
    (f <$> a.run) m = (f (a.run m).1, (a.run m).2) := rfl

@[simp] lemma run_throw (e : Failure) (m : Machine) :
    (throw e : Attempt α).run m = (.error e, m) := rfl

@[simp] lemma run_get (m : Machine) : (get : Attempt Machine).run m = (.ok m, m) := rfl

@[simp] lemma run_set (m' m : Machine) : (set m' : Attempt PUnit).run m = (.ok ⟨⟩, m') := rfl

@[simp] lemma run_modify (f : Machine → Machine) (m : Machine) :
    (modify f : Attempt PUnit).run m = (.ok ⟨⟩, f m) := rfl

@[simp] lemma run_report (e : Event) (m : Machine) :
    (report e).run m = (.ok (), { m with host := m.host.report e }) := rfl

@[simp] lemma run_check {ε : Type} (wrap : ε → Failure) (r : Except ε α) (m : Machine) :
    (check wrap r).run m = (r.mapError wrap, m) := by
  cases r <;> rfl

@[simp] lemma run_permit (call : SystemCall) (wrap : IoError → Failure) (m : Machine) :
    (permit call wrap).run m = ((m.refuses call).elim (.ok ()) (.error ∘ wrap), m) := by
  rw [permit, run_bind, run_get]
  cases h : m.refuses call <;> simp [h]

@[simp] lemma run_begin (t : Server.Thread) (m : Machine) : (begin t).run m =
    (.ok (), { m with process.threads := t :: m.process.threads }) := rfl

/-- Reports show on the host and nowhere else. -/
lemma run_forM_report (events : List Event) (m : Machine) :
    ∃ host, (events.forM report).run m = (.ok (), { m with host }) := by
  induction events generalizing m with
  | nil => exact ⟨m.host, rfl⟩
  | cons e events ih =>
    obtain ⟨host, hrun⟩ := ih { m with host := m.host.report e }
    refine ⟨host, ?_⟩
    change (report e >>= fun _ => events.forM report).run m = _
    rw [run_bind, run_report]
    exact hrun

/-- A call that the system refuses ends the attempt, and one that it permits changes nothing. -/
lemma of_run_permit_bind {call : SystemCall} {wrap : IoError → Failure} {f : Unit → Attempt α}
    {r : Except Failure α} {m' : Machine} (h : (permit call wrap >>= f).run m = (r, m')) :
    (∃ cause, m.refuses call = some cause ∧ r = .error (wrap cause) ∧ m' = m) ∨
      m.refuses call = none ∧ (f ()).run m = (r, m') := by
  rw [run_bind, run_permit] at h
  cases hcall : m.refuses call with
  | some cause =>
    simp only [hcall] at h
    obtain ⟨rfl, rfl⟩ := Prod.mk.inj h
    exact .inl ⟨cause, rfl, rfl, rfl⟩
  | none =>
    simp only [hcall] at h
    exact .inr ⟨rfl, h⟩

end Attempt

/-- No file has changed and no thread has started. -/
structure Machine.Keeps (m m' : Machine) : Prop where
  entries : m'.host.files.entries = m.host.files.entries
  privileged : m'.host.files.privileged = m.host.files.privileged
  threads : m'.process.threads = m.process.threads

lemma Machine.Keeps.refl (m : Machine) : m.Keeps m := ⟨rfl, rfl, rfl⟩

lemma Machine.Keeps.trans {m₁ m₂ m₃ : Machine} (h : m₁.Keeps m₂) (h' : m₂.Keeps m₃) :
    m₁.Keeps m₃ :=
  ⟨h'.entries.trans h.entries, h'.privileged.trans h.privileged, h'.threads.trans h.threads⟩

namespace Attempt

/-- Whatever comes of the attempt, no file changes and no thread starts. -/
def Keeps {α : Type} (a : Attempt α) : Prop := ∀ m : Machine, m.Keeps (a.run m).2

namespace Keeps

variable {α β : Type}

lemma bind {a : Attempt α} {f : α → Attempt β} (ha : a.Keeps) (hf : ∀ x, (f x).Keeps) :
    (a >>= f).Keeps := by
  intro m
  have hm := ha m
  rw [run_bind]
  split
  · rename_i x m₁ hrun
    rw [hrun] at hm
    exact hm.trans (hf x m₁)
  · rename_i e m₁ hrun
    rwa [hrun] at hm

lemma pure (x : α) : Keeps (Pure.pure x) := fun m => .refl m

lemma get : Keeps (MonadState.get : Attempt Machine) := fun m => .refl m

lemma permit (call : SystemCall) (wrap : IoError → Failure) : (permit call wrap).Keeps := by
  intro m
  rw [run_permit]
  exact .refl m

lemma report (e : Event) : (report e).Keeps := fun _ => ⟨rfl, rfl, rfl⟩

lemma modify {f : Machine → Machine} (h : ∀ m : Machine, m.Keeps (f m)) :
    Keeps (modify f : Attempt PUnit) := h

end Keeps

end Attempt

end RecordLog
