import RecordLog.Proofs.Server.Deeds

/-! What a move does to each worker. A worker takes steps of its own, gets its questions answered,
and is otherwise touched only by its client and by the coordinator, which forces its socket
closed. -/
namespace RecordLog.Server

open Connection (Exchange Request Reply)

variable {s s' : Server} {m : Move} {i : Nat} {w : Worker Session}

lemma exchange?_eq (hw : s.crew.workers[i]? = some w) (going : w.isComplete = false) :
    s.exchange? i = if w.task.stage = .serving then
      w.task.connection.phase.request?.bind fun q => (s.reply? i w q).map (⟨q, ·⟩) else none := by
  by_cases hstage : w.task.stage = .serving <;> simp [exchange?, hw, going, hstage]

lemma WorkerStep.made {x : Option Exchange} (hw : s.crew.workers[i]? = some w)
    (going : w.isComplete = false) (hs : WorkerStep s i w x s') : s.exchange? i = x := by
  rw [exchange?_eq hw going]
  cases hs with
  | greet stage | finish stage => rw [if_neg (by simp [stage])]
  | leave stage closed => rw [if_pos stage, closed, Option.bind_none]
  | lock stage asks shared free =>
    rename_i q
    rw [if_pos stage, asks, Option.bind_some]
    cases q with
    | append | readBack => simp [reply?, free]
    | readFlag | receive | send => exact shared.elim
  | exchange stage asks answer =>
    rw [if_pos stage, asks, Option.bind_some]
    cases answer with
    | flag => rfl
    | receive found | send found => simp [reply?, found]
    | append held | readBack held => simp [reply?, held]

/-- What a move does to a worker that is there, with the exchange that the worker makes. -/
inductive Progress (s : Server) (m : Move) (i : Nat) (w : Worker Session) :
    Option Exchange → Worker Session → Prop
  | rest (undelivered : ∀ r, m ≠ .deliver i r) : Progress s m i w none w
  | greet (mine : m = .thread (.worker i)) (stage : w.task.stage = .starting) :
    Progress s m i w none { w with task := { w.task with stage := .serving } }
  | exchange {q reply x host lock c} (mine : m = .thread (.worker i))
    (going : w.isComplete = false) (stage : w.task.stage = .serving)
    (answer : s.Answer i w q reply x host lock) (step : w.task.connection.Step ⟨q, reply⟩ c) :
    Progress s m i w (some ⟨q, reply⟩) { w with task := { x with connection := c } }
  | leave (mine : m = .thread (.worker i)) (stage : w.task.stage = .serving)
    (closed : w.task.connection.phase.request? = none) :
    Progress s m i w none { w with task := { w.task with stage := .finishing } }
  | finish {ending} (mine : m = .panic i ∨ m = .thread (.worker i) ∧ w.task.stage = .finishing)
    (going : w.isComplete = false) :
    Progress s m i w none { w with ending := some ending }
  | deliver {r} (mine : m = .deliver i r) :
    Progress s m i w none { w with task := { w.task with inbound := w.task.inbound ++ [r] } }
  | grant {r} (mine : m = .grant i r) :
    Progress s m i w none { w with task := { w.task with answers := w.task.answers ++ [r] } }
  | shut (mine : m = .thread .coordinator) (closing : s.coordinator = .closingWorkers) :
    Progress s m i w none { w with shut := true }

lemma receive?_connection {x x' : Session} {shut : Bool} {limit : Nat} {r : Except IoError Bytes}
    (h : x.receive? shut limit = some (r, x')) : x'.connection = x.connection := by
  unfold Session.receive? at h
  split at h
  · cases h
    rfl
  · cases h
    rfl
  · split at h <;> cases h
    rfl

lemma send?_connection {x x' : Session} {shut : Bool} {bytes : Bytes} {r : Except IoError Nat}
    (h : x.send? shut bytes = some (r, x')) : x'.connection = x.connection := by
  unfold Session.send? at h
  split at h
  · cases h
    rfl
  · split at h <;> cases h <;> rfl

/-- An answered connection goes on from where it was. -/
lemma Answer.resumes {q : Request} {reply : Reply} {x : Session} {host : Host}
    {lock : Option Thread} (h : s.Answer i w q reply x host lock)
    (asks : w.task.connection.phase.request? = some q) :
    ∃ c, x.connection.resume? reply = some c ∧ w.task.connection.Step ⟨q, reply⟩ c := by
  have same : x.connection = w.task.connection := by
    cases h with
    | receive found => exact receive?_connection found
    | send found => exact send?_connection found
    | _ => rfl
  have resumes : ∃ c, w.task.connection.resume? reply = some c := by
    cases hphase : w.task.connection.phase <;> rw [hphase] at asks <;>
      simp only [Connection.Phase.request?, Option.some.injEq, reduceCtorEq] at asks <;>
      subst asks <;> cases h <;> simp only [Connection.resume?, hphase]
    · exact ⟨_, rfl⟩
    · rename_i r _
      rcases r with e | (_ | ⟨b, bs⟩) <;> exact ⟨_, rfl⟩
    · exact ⟨_, rfl⟩
    · rcases (s.store.append _ s.host).1 with e | ⟨⟩ <;> exact ⟨_, rfl⟩
    · rcases s.store.readAll s.host with e | content <;> exact ⟨_, rfl⟩
    · rename_i r _
      rcases r with e | (_ | n) <;> exact ⟨_, rfl⟩
  obtain ⟨c, hc⟩ := resumes
  exact ⟨c, same ▸ hc, .of_resume? asks hc⟩

/-- A step of a worker makes its exchange and leaves the other workers alone. -/
lemma WorkerStep.progress {j : Nat} {v : Worker Session} {x : Option Exchange}
    (hv : s.crew.workers[j]? = some v) (going : v.isComplete = false)
    (hs : WorkerStep s j v x s') (hw : s.crew.workers[i]? = some w) :
    ∃ w', s'.crew.workers[i]? = some w' ∧
      Progress s (.thread (.worker j)) i w (if j = i then x else none) w' := by
  by_cases hij : j = i
  · subst hij
    obtain rfl : v = w := Option.some.inj (hv.symm.trans hw)
    rw [if_pos rfl]
    cases hs with
    | greet stage => exact ⟨_, Crew.update_self hw _, .greet rfl stage⟩
    | lock => exact ⟨v, hw, .rest (by simp)⟩
    | exchange stage asks answer =>
      obtain ⟨c, hresume, hstep⟩ := answer.resumes asks
      refine ⟨_, Crew.update_self hw _, ?_⟩
      rw [hresume]
      exact .exchange rfl going stage answer hstep
    | leave stage closed => exact ⟨_, Crew.update_self hw _, .leave rfl stage closed⟩
    | finish stage =>
      refine ⟨_, Crew.update_self hw _, ?_⟩
      have hending : v.ending = none := by simpa [Worker.isComplete] using going
      rw [hending]
      exact .finish (.inr ⟨rfl, stage⟩) going
  · rw [if_neg hij]
    refine ⟨w, ?_, .rest (by simp)⟩
    cases hs with
    | lock => exact hw
    | _ => exact (Crew.update_other hij _).trans hw

/-- The acceptor starts at most one worker, and changes none. -/
lemma acceptor_workers (h : s.stepAcceptor = some s') :
    (s.registers (.thread .acceptor) = 0 ∧ s'.crew.workers = s.crew.workers) ∨
      ∃ a, s.acceptor = .registering a ∧ s.registers (.thread .acceptor) = 1 ∧
        s'.crew.workers = s.crew.workers ++
          [{ id := s.crew.registry.nextKey,
             task := Session.ofArrival a s.crew.registry.nextKey }] := by
  cases AcceptorStep.of_step h with
  | poll phase | stop phase | deaf phase | accept phase | fail phase | retry phase | giveUp phase
  | reap phase | join phase | reclaimed phase =>
    exact .inl ⟨by simp [registers, phase], rfl⟩
  | lock phase free =>
    refine .inl ⟨?_, rfl⟩
    obtain ⟨a, phase⟩ | phase := phase <;> simp [registers, phase, free]
  | register phase held able =>
    refine .inr ⟨_, phase, by simp [registers, phase, held, able], ?_⟩
    simp [register, able, report, Crew.spawnIf, Crew.spawn]
  | refuse phase held obstacle =>
    refine .inl ⟨by simp [registers, phase, obstacle], ?_⟩
    simp only [register, obstacle, report, Crew.spawnIf]

/-- The coordinator changes workers only when it closes the registry. -/
lemma coordinator_workers (h : s.stepCoordinator = some s') :
    s'.crew.workers = s.crew.workers ∨
      s.coordinator = .closingWorkers ∧ s'.crew = s.crew.takeAll.2 := by
  cases CoordinatorStep.of_step h with
  | close phase => exact .inr ⟨phase, rfl⟩
  | _ => exact .inl rfl

lemma annotator_crew (h : s.stepAnnotator = some s') : s'.crew = s.crew := by
  cases AnnotatorStep.of_step h <;> rfl

/-- What any move does to a worker. -/
theorem Progress.of_step? (h : s.step? m = some s') (hw : s.crew.workers[i]? = some w) :
    ∃ w', s'.crew.workers[i]? = some w' ∧
      Progress s m i w ((s.deed? m).bind (·.exchange? i)) w' := by
  cases m with
  | thread t =>
    cases t with
    | acceptor =>
      have hnone : (s.deed? (.thread .acceptor)).bind (·.exchange? i) = none := by
        simp only [deed?]
        split <;> rfl
      rw [hnone]
      refine ⟨w, ?_, .rest (by simp)⟩
      obtain ⟨-, hworkers⟩ | ⟨a, -, -, hworkers⟩ := acceptor_workers h
      · rw [hworkers, hw]
      · rw [hworkers, List.getElem?_append_left (List.getElem?_eq_some_iff.mp hw).1, hw]
    | worker j =>
      obtain ⟨v, x, hv, going, hs⟩ := WorkerStep.of_step h
      obtain ⟨w', hw', hprogress⟩ := hs.progress hv going hw
      refine ⟨w', hw', ?_⟩
      have hmine : (s.deed? (.thread (.worker j))).bind (·.exchange? i)
          = if j = i then x else none := by
        simp only [deed?, hs.made hv going]
        cases x <;> simp [Deed.exchange?]
      rw [hmine]
      exact hprogress
    | annotator =>
      have hnone : (s.deed? (.thread .annotator)).bind (·.exchange? i) = none := by
        simp only [deed?]
        split <;> rfl
      rw [hnone]
      exact ⟨w, by rw [annotator_crew h, hw], .rest (by simp)⟩
    | coordinator =>
      obtain hworkers | ⟨hclosing, hcrew⟩ := coordinator_workers h
      · exact ⟨w, by rw [hworkers, hw], .rest (by simp)⟩
      · rw [hcrew, Crew.takeAll_getElem?, hw, Option.map_some]
        split
        · exact ⟨_, rfl, .shut rfl hclosing⟩
        · exact ⟨w, rfl, .rest (by simp)⟩
  | arrive result =>
    simp only [step?] at h
    split at h <;> cases h
    exact ⟨w, hw, .rest (by simp)⟩
  | deliver j r =>
    obtain rfl := Option.some.inj h
    by_cases hij : j = i
    · subst hij
      exact ⟨_, Crew.update_self hw _, .deliver rfl⟩
    · exact ⟨w, (Crew.update_other hij _).trans hw, .rest (by simp [hij])⟩
  | grant j r =>
    obtain rfl := Option.some.inj h
    by_cases hij : j = i
    · subst hij
      exact ⟨_, Crew.update_self hw _, .grant rfl⟩
    · exact ⟨w, (Crew.update_other hij _).trans hw, .rest (by simp)⟩
  | panic j =>
    simp only [step?] at h
    split at h
    · rename_i v hv
      split at h
      · cases h
      · rename_i hgoing
        obtain rfl := Option.some.inj h
        by_cases hij : j = i
        · subst hij
          obtain rfl : v = w := Option.some.inj (hv.symm.trans hw)
          have going : v.isComplete = false := by simpa using hgoing
          have hending : v.ending = none := by simpa [Worker.isComplete] using going
          refine ⟨_, Crew.update_self hw _, ?_⟩
          rw [hending]
          exact .finish (.inl rfl) going
        · exact ⟨w, (Crew.update_other hij _).trans hw, .rest (by simp)⟩
    · cases h
  | tick now =>
    obtain rfl := Option.some.inj h
    exact ⟨w, hw, .rest (by simp)⟩
  | shutdown =>
    simp only [step?] at h
    split at h <;> cases h
    exact ⟨w, hw, .rest (by simp)⟩
  | change c =>
    obtain rfl := Option.some.inj h
    exact ⟨w, hw, .rest (by simp)⟩

end RecordLog.Server
