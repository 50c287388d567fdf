import RecordLog.Proofs.Server.Step

/-! Where the workers of a server are. One that has not ended is in the registry or among those that
the acceptor or the coordinator has taken out to join, and every registered connection is counted
once by whoever joins its worker. -/
namespace RecordLog

namespace Server

/-- A server just started. -/
def fresh (host : Host) (store : LogStore) (address : SocketAddress) (annotator : Annotator)
    (clock : Clock) : Server := { host, store, address, annotator, clock }

/-- The server after these moves, one after another. -/
def run? (s : Server) (moves : List Move) : Option Server := moves.foldlM step? s

lemma run?_cons {s s' : Server} {m : Move} {moves : List Move} :
    s.run? (m :: moves) = some s' ↔ ∃ s₁, s.step? m = some s₁ ∧ s₁.run? moves = some s' := by
  rw [run?, List.foldlM_cons]
  exact Option.bind_eq_some_iff

lemma run?_append (s : Server) (xs ys : List Move) :
    s.run? (xs ++ ys) = (s.run? xs).bind fun s' => s'.run? ys := List.foldlM_append ..

/-- What the moves of a run add up to. -/
def total (f : Server → Move → Nat) (s : Server) : List Move → Nat
  | [] => 0
  | m :: moves => f s m + (s.step? m).elim 0 fun s' => total f s' moves

/-- What holds after moves that registered so many connections while so many workers were returned
by reapings. Nobody is lost between the registry and the two threads that join workers. -/
structure Sound (s : Server) (registered returned : Nat) : Prop where
  length : s.crew.workers.length = registered
  known : ∀ i < s.crew.workers.length, s.crew.isComplete i ∨ i ∈ s.crew.registered ∨
    i ∈ s.acceptor.left ∨ i ∈ s.coordinator.left
  closed : s.coordinator.IsPastAcceptor → s.acceptor = .stopped
  early : s.coordinator.joined? = none →
    registered = s.crew.registry.size + s.acceptor.count + returned
  late : ∀ joined, s.coordinator.joined? = some joined →
    s.crew.registry.size = 0 ∧ registered = joined + returned
  silent : s.coordinator.IsPastAnnotator → s.annotator.isStopped

lemma Coordinator.early {c : Coordinator} (h : ¬ c.IsPastAcceptor) :
    c.joined? = none ∧ c.left = [] ∧ ¬ c.IsPastAnnotator := by
  cases c <;> simp_all [IsPastAcceptor, joined?, left, IsPastAnnotator]

lemma Coordinator.past_acceptor {c : Coordinator} {joined : Nat} (h : c.joined? = some joined) :
    c.IsPastAcceptor := by
  cases c <;> simp_all [IsPastAcceptor, joined?]

namespace Sound

variable {s s' : Server} {registered returned joined n k : Nat}

lemma fresh (host : Host) (store : LogStore) (address : SocketAddress) (annotator : Annotator)
    (clock : Clock) : Sound (Server.fresh host store address annotator clock) 0 0 where
  length := rfl
  known := by simp [Server.fresh]
  closed := False.elim
  early := fun _ => rfl
  late := by simp [Server.fresh, Coordinator.joined?]
  silent := False.elim

/-- While the acceptor runs the coordinator has taken nobody out. -/
lemma while_running (h : Sound s registered returned) (running : s.acceptor ≠ .stopped) :
    ¬ s.coordinator.IsPastAcceptor ∧
      registered = s.crew.registry.size + s.acceptor.count + returned ∧
      ∀ i < s.crew.workers.length,
        s.crew.isComplete i ∨ i ∈ s.crew.registered ∨ i ∈ s.acceptor.left := by
  have hpast : ¬ s.coordinator.IsPastAcceptor := fun hpast => running (h.closed hpast)
  obtain ⟨hjoined, hleft, -⟩ := Coordinator.early hpast
  refine ⟨hpast, h.early hjoined, fun i hi => ?_⟩
  have hknown := h.known i hi
  rw [hleft] at hknown
  simpa using hknown

/-- A step of the acceptor leaves only its own side to be looked at. -/
lemma of_running {registered' returned' : Nat} (h : Sound s registered returned)
    (running : s.acceptor ≠ .stopped) (coordinator : s'.coordinator = s.coordinator)
    (length : s'.crew.workers.length = registered')
    (count : registered' = s'.crew.registry.size + s'.acceptor.count + returned')
    (known : ∀ i < s'.crew.workers.length,
      s'.crew.isComplete i ∨ i ∈ s'.crew.registered ∨ i ∈ s'.acceptor.left) :
    Sound s' registered' returned' := by
  obtain ⟨hpast, -, -⟩ := h.while_running running
  obtain ⟨hjoined, hleft, hannotator⟩ := Coordinator.early hpast
  refine ⟨length, ?_, ?_, fun _ => count, ?_, ?_⟩
  · intro i hi
    rw [coordinator, hleft]
    simpa using known i hi
  · rw [coordinator]
    exact fun hlater => (hpast hlater).elim
  · rw [coordinator, hjoined]
    simp
  · rw [coordinator]
    exact fun hlater => (hannotator hlater).elim

lemma aside (h : Sound s registered returned) (kept : s.Keeps s')
    (acceptor : s'.acceptor = s.acceptor) (coordinator : s'.coordinator = s.coordinator)
    (crew : s.crew.Ages s'.crew) : Sound s' registered returned where
  length := crew.length.trans h.length
  known := by
    intro i hi
    rw [crew.length] at hi
    have hknown := h.known i hi
    rw [acceptor, coordinator, Crew.registered, crew.registry]
    exact hknown.imp (crew.complete i) id
  closed := by
    rw [acceptor, coordinator]
    exact h.closed
  early := by
    rw [acceptor, coordinator, crew.registry]
    exact h.early
  late := by
    rw [coordinator, crew.registry]
    exact h.late
  silent := by
    rw [coordinator]
    exact fun hpast => kept.annotator (h.silent hpast)

/-- The acceptor goes on without taking a worker out. -/
lemma accept (h : Sound s registered returned) (coordinator : s'.coordinator = s.coordinator)
    (crew : s'.crew = s.crew) (running : s.acceptor ≠ .stopped)
    (idle : s.acceptor.left = [] ∧ s'.acceptor.left = [])
    (count : s.acceptor.count = n ∧ s'.acceptor.count = 0) :
    Sound s' registered (returned + n) := by
  obtain ⟨-, hcount, hknown⟩ := h.while_running running
  refine h.of_running running coordinator (crew ▸ h.length) ?_ ?_
  · rw [crew, count.2]
    omega
  · rw [crew, idle.2]
    rwa [idle.1] at hknown

lemma register {task : Nat → Session} (h : Sound s registered returned)
    (coordinator : s'.coordinator = s.coordinator) (crew : s'.crew = (s.crew.spawn task).2)
    (running : s.acceptor ≠ .stopped) (idle : s.acceptor.left = [] ∧ s'.acceptor.left = [])
    (quiet : s.acceptor.count = 0 ∧ s'.acceptor.count = 0) :
    Sound s' (registered + 1) returned := by
  obtain ⟨-, hcount, hknown⟩ := h.while_running running
  refine h.of_running running coordinator ?_ ?_ ?_
  · rw [crew, Crew.spawn_length, h.length]
  · rw [crew, Crew.spawn_size, quiet.2]
    omega
  · intro i hi
    rw [crew, Crew.spawn_length] at hi
    rw [crew, idle.2, Crew.mem_registered_spawn]
    by_cases hlast : i = s.crew.workers.length
    · exact .inr (.inl (.inl hlast))
    · have hbefore := hknown i (by omega)
      rw [idle.1] at hbefore
      obtain hended | hregistered | hnone := hbefore
      · exact .inl (Crew.spawn_complete hended)
      · exact .inr (.inl (.inr hregistered))
      · exact absurd hnone List.not_mem_nil

lemma reap (h : Sound s registered returned) (coordinator : s'.coordinator = s.coordinator)
    (crew : s'.crew = s.crew.takeComplete.2) (reaping : s.acceptor = .reaping)
    (acceptor : s'.acceptor = .joining s.crew.takeComplete.1 s.crew.takeComplete.1.length) :
    Sound s' registered returned := by
  have running : s.acceptor ≠ .stopped := by simp [reaping]
  obtain ⟨-, hcount, hknown⟩ := h.while_running running
  have hsize := s.crew.takeComplete_size
  rw [reaping] at hcount hknown
  refine h.of_running running coordinator (crew ▸ h.length) ?_ ?_
  · rw [crew, acceptor]
    simp only [Acceptor.count] at hcount ⊢
    omega
  · intro i hi
    rw [crew] at hi
    rw [crew, acceptor]
    obtain hended | hregistered | hnone := hknown i hi
    · exact .inl hended
    · obtain htaken | hstays := Crew.mem_takeComplete hregistered
      · exact .inr (.inr htaken)
      · exact .inr (.inl hstays)
    · exact absurd hnone List.not_mem_nil

lemma reclaim {m : Member} {left : List Member} {count : Nat} (h : Sound s registered returned)
    (coordinator : s'.coordinator = s.coordinator) (crew : s'.crew = s.crew)
    (joining : s.acceptor = .joining (m :: left) count) (ended : s.crew.isComplete m.worker)
    (acceptor : s'.acceptor = .joining left count) : Sound s' registered returned := by
  have running : s.acceptor ≠ .stopped := by simp [joining]
  obtain ⟨-, hcount, hknown⟩ := h.while_running running
  rw [joining] at hcount hknown
  refine h.of_running running coordinator (crew ▸ h.length) ?_ ?_
  · rwa [crew, acceptor]
  · intro i hi
    rw [crew] at hi
    rw [crew, acceptor]
    obtain hended | hregistered | hmem := hknown i hi
    · exact .inl hended
    · exact .inr (.inl hregistered)
    · obtain rfl | hrest := List.mem_cons.mp hmem
      · exact .inl ended
      · exact .inr (.inr hrest)

/-- The coordinator has not come to the registry. -/
lemma prepare (h : Sound s registered returned) (acceptor : s'.acceptor = s.acceptor)
    (crew : s'.crew = s.crew) (early : ¬ s.coordinator.IsPastAcceptor)
    (next : ¬ s'.coordinator.IsPastAcceptor ∨
      s.acceptor = .stopped ∧ s'.coordinator = .closingWorkers) :
    Sound s' registered returned := by
  obtain ⟨hjoined, hleft, -⟩ := Coordinator.early early
  obtain ⟨hjoined', hleft', hannotator⟩ : s'.coordinator.joined? = none ∧
      s'.coordinator.left = [] ∧ ¬ s'.coordinator.IsPastAnnotator := by
    obtain hbefore | ⟨-, hclosing⟩ := next
    · exact Coordinator.early hbefore
    · rw [hclosing]
      exact ⟨rfl, rfl, id⟩
  refine ⟨crew ▸ h.length, ?_, ?_, ?_, ?_, ?_⟩
  · have hknown := h.known
    rw [crew, acceptor, hleft']
    rwa [hleft] at hknown
  · intro hpast
    obtain hbefore | ⟨hstopped, -⟩ := next
    · exact (hbefore hpast).elim
    · rw [acceptor, hstopped]
  · intro _
    rw [crew, acceptor]
    exact h.early hjoined
  · simp [hjoined']
  · exact fun hpast => (hannotator hpast).elim

/-- Everybody who is still registered is joined from now on. -/
lemma takeAll (h : Sound s registered returned) (acceptor : s'.acceptor = s.acceptor)
    (crew : s'.crew = s.crew.takeAll.2) (closing : s.coordinator = .closingWorkers)
    (coordinator :
      s'.coordinator = .joiningWorkers s.crew.takeAll.1 s.crew.takeAll.1.length) :
    Sound s' registered returned := by
  obtain ⟨hlength, hcomplete⟩ := s.crew.takeAll_workers
  have hstopped : s.acceptor = .stopped := h.closed (by rw [closing]; trivial)
  have hcount := h.early (by rw [closing]; rfl)
  rw [hstopped] at hcount
  refine ⟨?_, ?_, ?_, ?_, ?_, ?_⟩
  · rw [crew, hlength, h.length]
  · intro i hi
    rw [crew, hlength] at hi
    have hknown := h.known i hi
    rw [hstopped, closing] at hknown
    rw [crew, coordinator]
    obtain hended | hregistered | hnone | hnone := hknown
    · exact .inl (hcomplete i hended)
    · exact .inr (.inr (.inr (Crew.mem_takeAll hregistered)))
    · exact absurd hnone List.not_mem_nil
    · exact absurd hnone List.not_mem_nil
  · exact fun _ => acceptor.trans hstopped
  · rw [coordinator]
    simp [Coordinator.joined?]
  · intro joined hjoined
    rw [coordinator, Coordinator.joined?, Crew.takeAll_length, Option.some.injEq] at hjoined
    rw [crew, Crew.takeAll_registry]
    simp only [Acceptor.count] at hcount
    omega
  · rw [coordinator]
    exact False.elim

/-- The coordinator has joined a worker or goes on when there is none left to join. -/
lemma advance (h : Sound s registered returned) (kept : s.Keeps s')
    (acceptor : s'.acceptor = s.acceptor) (crew : s'.crew = s.crew)
    (before : s.coordinator.joined? = some joined) (after : s'.coordinator.joined? = some joined)
    (left : ∀ i ∈ s.coordinator.left, s.crew.isComplete i ∨ i ∈ s'.coordinator.left)
    (silent : s'.coordinator.IsPastAnnotator →
      s.coordinator.IsPastAnnotator ∨ s'.annotator.isStopped) :
    Sound s' registered returned := by
  refine ⟨crew ▸ h.length, ?_, ?_, ?_, ?_, ?_⟩
  · intro i hi
    rw [crew] at hi
    rw [crew, acceptor]
    obtain hended | hregistered | hacceptor | hleft := h.known i hi
    · exact .inl hended
    · exact .inr (.inl hregistered)
    · exact .inr (.inr (.inl hacceptor))
    · exact (left i hleft).imp id fun hmem => .inr (.inr hmem)
  · rw [acceptor]
    exact fun _ => h.closed (Coordinator.past_acceptor before)
  · simp [after]
  · intro other hother
    obtain rfl := Option.some.inj (after.symm.trans hother)
    rw [crew]
    exact h.late joined before
  · intro hpast
    obtain hpast | hstopped := silent hpast
    · exact kept.annotator (h.silent hpast)
    · exact hstopped

/-- A move keeps all this. -/
theorem step (h : Sound s registered returned) (hs : Step s n k s') :
    Sound s' (registered + n) (returned + k) := by
  cases hs with
  | aside kept acceptor coordinator crew => exact h.aside kept acceptor coordinator crew
  | accept _ coordinator crew running idle count =>
    exact h.accept coordinator crew running idle count
  | register _ coordinator crew running idle quiet =>
    exact h.register coordinator crew running idle quiet
  | reap _ coordinator crew reaping acceptor => exact h.reap coordinator crew reaping acceptor
  | reclaim _ coordinator crew joining ended acceptor =>
    exact h.reclaim coordinator crew joining ended acceptor
  | prepare _ acceptor crew early next => exact h.prepare acceptor crew early next
  | takeAll _ acceptor crew closing coordinator => exact h.takeAll acceptor crew closing coordinator
  | join kept acceptor crew joining ended coordinator =>
    refine h.advance kept acceptor crew (by rw [joining]; rfl) (by rw [coordinator]; rfl) ?_ ?_
    · rw [joining, coordinator]
      intro i hi
      obtain rfl | hrest := List.mem_cons.mp hi
      · exact .inl ended
      · exact .inr hrest
    · rw [coordinator]
      exact False.elim
  | windUp kept acceptor crew before after silent _ =>
    refine h.advance kept acceptor crew before.1 after.1 ?_ silent
    simp [before.2]

/-- A whole run keeps all this. -/
theorem run {moves : List Move} (h : Sound s registered returned)
    (hrun : s.run? moves = some s') :
    Sound s' (registered + s.total registers moves) (returned + s.total reapReturns moves) ∧
      s'.store = s.store := by
  induction moves generalizing s registered returned with
  | nil =>
    obtain rfl : s = s' := Option.some.inj hrun
    exact ⟨h, rfl⟩
  | cons m moves ih =>
    obtain ⟨s₁, hfirst, hrest⟩ := run?_cons.mp hrun
    have hstep := Step.of_step? hfirst
    obtain ⟨hsound, hstore⟩ := ih (h.step hstep) hrest
    refine ⟨?_, hstore.trans hstep.keeps.store⟩
    simpa only [total, hfirst, Option.elim, Nat.add_assoc] using hsound

end Sound

end Server

end RecordLog
