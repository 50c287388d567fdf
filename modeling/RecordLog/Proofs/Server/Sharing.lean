import RecordLog.Proofs.Server.Workers

/-! What a move does to all that the threads share: the two locks, the files and the flag. Whoever
has a lock is about to work under it, since nobody else changes what a thread does next. -/
namespace RecordLog.Server

variable {s s' : Server} {m : Move} {i : Nat} {w : Worker Session}

/-- The next step of a thread is made under the lock of the store. -/
inductive WantsStore (s : Server) : Thread → Prop
  | worker {i w q} (found : s.crew.workers[i]? = some w) (going : w.isComplete = false)
    (stage : w.task.stage = .serving) (asks : w.task.connection.phase.request? = some q)
    (shared : q.UsesStore) : WantsStore s (.worker i)
  | annotator (phase : s.annotator.phase = .appending) : WantsStore s .annotator
  | coordinator {joined} (phase : s.coordinator = .removing joined) : WantsStore s .coordinator

/-- The next step of a thread is made under the lock of the registry. -/
inductive WantsRegistry (s : Server) : Thread → Prop
  | registering {a} (phase : s.acceptor = .registering a) : WantsRegistry s .acceptor
  | reaping (phase : s.acceptor = .reaping) : WantsRegistry s .acceptor
  | closing (phase : s.coordinator = .closingWorkers) : WantsRegistry s .coordinator

/-- What a move does to a lock, given who wants it before and after. -/
inductive LockStep (m : Move) (wants wants' : Thread → Prop) (held held' : Option Thread) : Prop
  | keep (same : held' = held) (idle : ∀ t, m = .thread t → ¬ wants t)
    (spared : ∀ i, m = .panic i → wants (.worker i) → held ≠ some (.worker i))
  | take {t} (free : held = none) (taken : held' = some t) (still : wants' t)
  | release {t} (mine : held = some t) (free : held' = none)

/-- What a move does to the files, with the record that it was to append. -/
inductive FileStep (s : Server) (m : Move) (s' : Server) : Option (Thread × Bytes) → Prop
  | keep (files : s'.host.files = s.host.files) : FileStep s m s' none
  | write {t record} (files : s'.host.files = (s.store.append record s.host).2.files) :
    FileStep s m s' (some (t, record))
  | remove {joined} (files : s'.host.files = (s.store.remove s.host).2.files)
    (finished : s'.coordinator = .finished joined) : FileStep s m s' none
  | change {c} (mine : m = .change c) (files : s'.host.files = (s.host.change c).2.files) :
    FileStep s m s' none

/-- What a move does to what the threads share. The flag is set by the coordinator alone. -/
structure Shares (s : Server) (m : Move) (s' : Server) : Prop where
  store : LockStep m s.WantsStore s'.WantsStore s.storeLock s'.storeLock
  registry : LockStep m s.WantsRegistry s'.WantsRegistry s.registryLock s'.registryLock
  files : FileStep s m s' ((s.deed? m).bind Deed.write?)
  flag : s'.flag = s.flag ∨
    m = .thread .coordinator ∧ s.coordinator = .triggering ∧ s'.flag.triggered = true

/-- Each thread goes on by itself, but for what the coordinator does to the others: it cancels the
annotator and ends the listening. -/
structure Minds (s : Server) (m : Move) (s' : Server) : Prop where
  acceptor : m ≠ .thread .acceptor → s'.acceptor = s.acceptor
  coordinator : m ≠ .thread .coordinator → s'.coordinator = s.coordinator ∨
    s.coordinator = .waiting ∧ s'.coordinator = .triggering
  annotator : m ≠ .thread .annotator → s'.annotator.phase = s.annotator.phase
  cancelled : s.annotator.cancelled → s'.annotator.cancelled
  listening : s.listening = false → s'.listening = false

/-- Whoever has a lock goes on wanting it until it lets go, if others leave the thread alone. -/
lemma LockStep.holder {wants wants' : Thread → Prop} {held held' : Option Thread}
    (h : LockStep m wants wants' held held') (before : ∀ t, held = some t → wants t)
    (frame : ∀ t, m ≠ .thread t → (∀ i, t = .worker i → m ≠ .panic i) → wants t → wants' t) :
    ∀ t, held' = some t → wants' t := by
  intro t ht
  cases h with
  | keep same idle spared =>
    rw [same] at ht
    refine frame t (fun hm => idle t hm (before t ht)) ?_ (before t ht)
    rintro i rfl hpanic
    exact spared i hpanic (before _ ht) ht
  | take free taken still =>
    obtain rfl := Option.some.inj (taken.symm.trans ht)
    exact still
  | release mine free =>
    rw [free] at ht
    cases ht

/-- Only the acceptor and the coordinator use the lock of the registry. -/
lemma LockStep.elsewhere (acceptor : m ≠ .thread .acceptor) (coordinator : m ≠ .thread .coordinator)
    (same : s'.registryLock = s.registryLock) :
    LockStep m s.WantsRegistry s'.WantsRegistry s.registryLock s'.registryLock := by
  refine .keep same (fun t ht hwants => ?_) (fun i _ hwants => by cases hwants)
  cases hwants with
  | registering | reaping => exact acceptor ht
  | closing => exact coordinator ht

/-- The deed of a worker writes what its exchange appends. -/
lemma write?_worker : (s.deed? (.thread (.worker i))).bind Deed.write?
    = (s.exchange? i).bind fun x => (Deed.exchanged i x).write? := by
  simp only [deed?]
  cases s.exchange? i <;> rfl

lemma WorkerStep.minds {x : Option Connection.Exchange} (hs : WorkerStep s i w x s') :
    Minds s (.thread (.worker i)) s' := by
  cases hs <;> exact ⟨fun _ => rfl, fun _ => .inl rfl, fun _ => rfl, id, id⟩

lemma WorkerStep.shares {x : Option Connection.Exchange} (hw : s.crew.workers[i]? = some w)
    (going : w.isComplete = false) (hs : WorkerStep s i w x s') :
    Shares s (.thread (.worker i)) s' := by
  have made := hs.made hw going
  have wants : ∀ t, Move.thread (.worker i) = .thread t → s.WantsStore t →
      w.task.stage = .serving ∧ ∃ q, w.task.connection.phase.request? = some q ∧ q.UsesStore := by
    rintro t ht hwants
    cases ht
    cases hwants with
    | worker found _ stage asks shared =>
      obtain rfl := Option.some.inj (found.symm.trans hw)
      exact ⟨stage, _, asks, shared⟩
  have apart : (∀ t, Move.thread (.worker i) = .thread t → ¬ s.WantsStore t) →
      (x.bind fun x => (Deed.exchanged i x).write?) = none →
      s'.storeLock = s.storeLock → s'.registryLock = s.registryLock →
      s'.host.files = s.host.files → s'.flag = s.flag → Shares s (.thread (.worker i)) s' := by
    intro idle quiet store registry files flag
    refine ⟨.keep store idle (fun _ h => by cases h), .elsewhere (by simp) (by simp) registry, ?_,
      .inl flag⟩
    rw [write?_worker, made, quiet]
    exact .keep files
  cases hs with
  | greet stage | finish stage =>
    refine apart (fun t ht hwants => ?_) rfl rfl rfl (Host.report_files _ _) rfl
    rw [(wants t ht hwants).1] at stage
    cases stage
  | leave stage closed =>
    refine apart (fun t ht hwants => ?_) rfl rfl rfl (Host.report_files _ _) rfl
    obtain ⟨-, q, asks, -⟩ := wants t ht hwants
    rw [closed] at asks
    cases asks
  | lock stage asks shared free =>
    refine ⟨.take free rfl (.worker hw going stage asks shared),
      .elsewhere (by simp) (by simp) rfl, ?_, .inl rfl⟩
    rw [write?_worker, made]
    exact .keep rfl
  | exchange stage asks answer =>
    cases answer with
    | append held =>
      refine ⟨.release held rfl, .elsewhere (by simp) (by simp) rfl, ?_, .inl rfl⟩
      rw [write?_worker, made]
      exact .write (Host.report_files _ _)
    | readBack held =>
      refine ⟨.release held rfl, .elsewhere (by simp) (by simp) rfl, ?_, .inl rfl⟩
      rw [write?_worker, made]
      exact .keep (Host.report_files _ _)
    | flag | receive | send =>
      refine apart (fun t ht hwants => ?_) rfl rfl rfl (Host.report_files _ _) rfl
      obtain ⟨-, q, asks', shared⟩ := wants t ht hwants
      obtain rfl := Option.some.inj (asks.symm.trans asks')
      exact shared.elim

lemma acceptor_shares (h : s.stepAcceptor = some s') :
    Shares s (.thread .acceptor) s' ∧ Minds s (.thread .acceptor) s' := by
  have hquiet : (s.deed? (.thread .acceptor)).bind Deed.write? = none := by
    simp only [deed?]
    split <;> rfl
  have apart : (∀ a, s.acceptor ≠ .registering a) → s.acceptor ≠ .reaping →
      s'.registryLock = s.registryLock →
      LockStep (.thread .acceptor) s.WantsRegistry s'.WantsRegistry s.registryLock
        s'.registryLock := by
    intro hregistering hreaping same
    refine .keep same (fun t ht hwants => ?_) (fun _ h => by cases h)
    cases ht
    cases hwants with
    | registering phase => exact hregistering _ phase
    | reaping phase => exact hreaping phase
  -- Beside its own affairs the acceptor touches the lock of the registry alone.
  have whole : s'.storeLock = s.storeLock → s'.host.files = s.host.files → s'.flag = s.flag →
      s'.coordinator = s.coordinator → s'.annotator = s.annotator →
      s'.listening = s.listening →
      LockStep (.thread .acceptor) s.WantsRegistry s'.WantsRegistry s.registryLock
        s'.registryLock →
      Shares s (.thread .acceptor) s' ∧ Minds s (.thread .acceptor) s' := by
    intro store files flag coordinator annotator listening registry
    refine ⟨⟨.keep store (fun t ht hwants => ?_) (fun _ h => by cases h), registry,
      hquiet ▸ .keep files, .inl flag⟩,
      fun h => (h rfl).elim, fun _ => .inl coordinator, fun _ => by rw [annotator],
      fun h => annotator ▸ h, fun h => listening ▸ h⟩
    cases ht
    cases hwants
  cases AcceptorStep.of_step h with
  | poll phase | stop phase | deaf phase | accept phase | fail phase | retry phase
  | giveUp phase =>
    exact whole rfl rfl rfl rfl rfl rfl (apart (by simp [phase]) (by simp [phase]) rfl)
  | join phase | reclaimed phase =>
    exact whole rfl (Host.report_files _ _) rfl rfl rfl rfl
      (apart (by simp [phase]) (by simp [phase]) rfl)
  | lock phase free =>
    refine whole rfl rfl rfl rfl rfl rfl (.take free rfl ?_)
    obtain ⟨a, phase⟩ | phase := phase
    · exact .registering phase
    · exact .reaping phase
  | register _ held | refuse _ held | reap _ held =>
    exact whole rfl rfl rfl rfl rfl rfl (.release held rfl)

/-- What the annotator does for itself leaves its cancellation. -/
lemma resume?_cancelled {a a' : Annotator} {reply : Annotator.Reply}
    (h : a.resume? reply = some a') : a'.cancelled = a.cancelled := by
  unfold Annotator.resume? at h
  split at h
  · split at h
    · cases h
      rfl
    · split at h <;> cases h
      rfl
  · cases h
    rfl
  · cases h
    rfl
  · cases h

lemma resume_cancelled (a : Annotator) (reply : Annotator.Reply) :
    (a.resume reply).cancelled = a.cancelled := by
  unfold Annotator.resume
  cases h : a.resume? reply with
  | none => rfl
  | some a' => exact resume?_cancelled h

lemma annotator_shares (h : s.stepAnnotator = some s') :
    Shares s (.thread .annotator) s' ∧ Minds s (.thread .annotator) s' := by
  have whole : s'.registryLock = s.registryLock → s'.acceptor = s.acceptor →
      s'.coordinator = s.coordinator → s'.annotator.cancelled = s.annotator.cancelled →
      s'.listening = s.listening → s'.flag = s.flag →
      LockStep (.thread .annotator) s.WantsStore s'.WantsStore s.storeLock s'.storeLock →
      FileStep s (.thread .annotator) s' ((s.deed? (.thread .annotator)).bind Deed.write?) →
      Shares s (.thread .annotator) s' ∧ Minds s (.thread .annotator) s' := by
    intro registry acceptor coordinator cancelled listening flag store files
    exact ⟨⟨store, .elsewhere (by simp) (by simp) registry, files, .inl flag⟩,
      fun _ => acceptor, fun _ => .inl coordinator, fun h => (h rfl).elim,
      fun h => cancelled.trans h, fun h => listening ▸ h⟩
  have apart : s.annotator.phase ≠ .appending → s'.storeLock = s.storeLock →
      LockStep (.thread .annotator) s.WantsStore s'.WantsStore s.storeLock s'.storeLock := by
    intro hphase same
    refine .keep same (fun t ht hwants => ?_) (fun _ h => by cases h)
    cases ht
    cases hwants with
    | annotator appending => exact hphase appending
  cases AnnotatorStep.of_step h with
  | wake phase woken =>
    refine whole rfl rfl rfl (resume?_cancelled woken) rfl rfl (apart (by simp [phase]) rfl) ?_
    simp only [deed?, phase, reduceCtorEq, false_and, if_false, Option.bind_none]
    exact .keep rfl
  | vet phase =>
    refine whole rfl rfl rfl (resume_cancelled _ _) rfl rfl (apart (by simp [phase]) rfl) ?_
    simp only [deed?, phase, reduceCtorEq, false_and, if_false, Option.bind_none]
    exact .keep (Host.report_files _ _)
  | lock phase free =>
    refine whole rfl rfl rfl rfl rfl rfl (.take free rfl (.annotator phase)) ?_
    simp only [deed?, free, reduceCtorEq, and_false, if_false, Option.bind_none]
    exact .keep rfl
  | append phase held appended =>
    refine whole rfl rfl rfl (resume_cancelled _ _) rfl rfl (.release held rfl) ?_
    simp only [deed?, phase, held, and_self, if_true, Option.bind_some, Deed.write?]
    exact .write ((Host.report_files _ _).trans (by rw [appended]))

lemma coordinator_shares (h : s.stepCoordinator = some s') :
    Shares s (.thread .coordinator) s' ∧ Minds s (.thread .coordinator) s' := by
  have whole : s'.acceptor = s.acceptor → s'.annotator.phase = s.annotator.phase →
      (s.annotator.cancelled → s'.annotator.cancelled) →
      (s.listening = false → s'.listening = false) →
      Shares s (.thread .coordinator) s' →
      Shares s (.thread .coordinator) s' ∧ Minds s (.thread .coordinator) s' := by
    intro acceptor annotator cancelled listening shares
    exact ⟨shares, fun _ => acceptor, fun h => (h rfl).elim, fun _ => annotator, cancelled,
      listening⟩
  have store : (∀ joined, s.coordinator ≠ .removing joined) → s'.storeLock = s.storeLock →
      LockStep (.thread .coordinator) s.WantsStore s'.WantsStore s.storeLock s'.storeLock := by
    intro hphase same
    refine .keep same (fun t ht hwants => ?_) (fun _ h => by cases h)
    cases ht
    cases hwants with
    | coordinator removing => exact hphase _ removing
  have registry : s.coordinator ≠ .closingWorkers → s'.registryLock = s.registryLock →
      LockStep (.thread .coordinator) s.WantsRegistry s'.WantsRegistry s.registryLock
        s'.registryLock := by
    intro hphase same
    refine .keep same (fun t ht hwants => ?_) (fun _ h => by cases h)
    cases ht
    cases hwants with
    | closing phase => exact hphase phase
  cases CoordinatorStep.of_step h with
  | trigger phase =>
    exact whole rfl rfl id id ⟨store (by simp [phase]) rfl, registry (by simp [phase]) rfl,
      .keep (Host.report_files _ _), .inr ⟨rfl, phase, rfl⟩⟩
  | deafen phase =>
    exact whole rfl rfl id (fun _ => rfl)
      ⟨store (by simp [phase]) rfl, registry (by simp [phase]) rfl, .keep rfl, .inl rfl⟩
  | cancel phase =>
    exact whole rfl rfl (fun _ => rfl) id
      ⟨store (by simp [phase]) rfl, registry (by simp [phase]) rfl, .keep rfl, .inl rfl⟩
  | joinAcceptor phase =>
    exact whole rfl rfl id id
      ⟨store (by simp [phase]) rfl, registry (by simp [phase]) rfl, .keep rfl, .inl rfl⟩
  | join phase | joined phase | joinAnnotator phase =>
    exact whole rfl rfl id id ⟨store (by simp [phase]) rfl, registry (by simp [phase]) rfl,
      .keep (Host.report_files _ _), .inl rfl⟩
  | lockRegistry phase free =>
    exact whole rfl rfl id id
      ⟨store (by simp [phase]) rfl, .take free rfl (.closing phase), .keep rfl, .inl rfl⟩
  | close phase held =>
    exact whole rfl rfl id id ⟨store (by simp [phase]) rfl, .release held rfl, .keep rfl, .inl rfl⟩
  | lockStore phase free =>
    exact whole rfl rfl id id
      ⟨.take free rfl (.coordinator phase), registry (by simp [phase]) rfl, .keep rfl, .inl rfl⟩
  | remove phase held =>
    exact whole rfl rfl id id ⟨.release held rfl, registry (by simp [phase]) rfl,
      .remove (Host.report_files _ _) rfl, .inl rfl⟩

/-- What any move does to what the threads share. -/
theorem shares_of_step? (h : s.step? m = some s') : Shares s m s' ∧ Minds s m s' := by
  cases m with
  | thread t =>
    cases t with
    | acceptor => exact acceptor_shares h
    | worker i =>
      obtain ⟨w, x, hw, going, hs⟩ := WorkerStep.of_step h
      exact ⟨hs.shares hw going, hs.minds⟩
    | annotator => exact annotator_shares h
    | coordinator => exact coordinator_shares h
  | panic i =>
    simp only [step?] at h
    split at h
    · split at h <;> cases h
      refine ⟨⟨?_, .elsewhere (by simp) (by simp) rfl, .keep rfl, .inl rfl⟩,
        fun _ => rfl, fun _ => .inl rfl, fun _ => rfl, id, id⟩
      by_cases hheld : s.storeLock = some (.worker i)
      · exact .release hheld (by simp [panicWorker, hheld])
      · refine .keep (by simp [panicWorker, hheld]) (fun t ht => by cases ht) fun j hj _ => ?_
        cases hj
        exact hheld
    · cases h
  | shutdown =>
    simp only [step?] at h
    split at h
    · rename_i hwaiting
      cases h
      exact ⟨⟨.keep rfl (fun t ht => by cases ht) (fun i hi => by cases hi),
        .elsewhere (by simp) (by simp) rfl, .keep rfl, .inl rfl⟩,
        fun _ => rfl, fun _ => .inr ⟨hwaiting, rfl⟩, fun _ => rfl, id, id⟩
    · cases h
  | arrive r =>
    simp only [step?] at h
    split at h <;> cases h
    exact ⟨⟨.keep rfl (fun t ht => by cases ht) (fun i hi => by cases hi),
      .elsewhere (by simp) (by simp) rfl, .keep rfl, .inl rfl⟩,
      fun _ => rfl, fun _ => .inl rfl, fun _ => rfl, id, id⟩
  | change c =>
    cases h
    exact ⟨⟨.keep rfl (fun t ht => by cases ht) (fun i hi => by cases hi),
      .elsewhere (by simp) (by simp) rfl, .change rfl rfl, .inl rfl⟩,
      fun _ => rfl, fun _ => .inl rfl, fun _ => rfl, id, id⟩
  | deliver | grant | tick =>
    cases h
    exact ⟨⟨.keep rfl (fun t ht => by cases ht) (fun i hi => by cases hi),
      .elsewhere (by simp) (by simp) rfl, .keep rfl, .inl rfl⟩,
      fun _ => rfl, fun _ => .inl rfl, fun _ => rfl, id, id⟩

/-- The flag stays set. -/
lemma flag_of_step? (h : s.step? m = some s') (flag : s.flag.triggered) : s'.flag.triggered := by
  obtain hsame | ⟨-, -, hset⟩ := (shares_of_step? h).1.flag
  · exact hsame ▸ flag
  · exact hset

lemma flag_of_run? {moves : List Move} (h : s.run? moves = some s') (flag : s.flag.triggered) :
    s'.flag.triggered :=
  run_induct (P := fun _ s' => s'.flag.triggered)
    (fun _ _ _ _ _ _ _ hflag hstep => flag_of_step? hstep hflag) flag h

/-- Nobody else changes whether a thread wants the lock of the store. -/
lemma WantsStore.keep {t : Thread} (h : s.step? m = some s') (other : m ≠ .thread t)
    (spared : ∀ i, t = .worker i → m ≠ .panic i) (wants : s.WantsStore t) : s'.WantsStore t := by
  obtain ⟨-, hminds⟩ := shares_of_step? h
  cases wants with
  | worker found going stage asks shared =>
    obtain ⟨w', hw', hprogress⟩ := Progress.of_step? h found
    generalize (s.deed? m).bind _ = x at hprogress
    cases hprogress with
    | rest | deliver | grant | shut => exact .worker hw' going stage asks shared
    | greet mine | exchange mine | leave mine => exact (other mine).elim
    | finish mine =>
      obtain hpanic | ⟨mine, -⟩ := mine
      · exact (spared _ rfl hpanic).elim
      · exact (other mine).elim
  | annotator phase => exact .annotator ((hminds.annotator other).trans phase)
  | coordinator phase =>
    obtain hsame | ⟨hwaiting, -⟩ := hminds.coordinator other
    · exact .coordinator (hsame.trans phase)
    · rw [phase] at hwaiting
      cases hwaiting

lemma WantsRegistry.keep {t : Thread} (h : s.step? m = some s') (other : m ≠ .thread t)
    (wants : s.WantsRegistry t) : s'.WantsRegistry t := by
  obtain ⟨-, hminds⟩ := shares_of_step? h
  cases wants with
  | registering phase => exact .registering ((hminds.acceptor other).trans phase)
  | reaping phase => exact .reaping ((hminds.acceptor other).trans phase)
  | closing phase =>
    obtain hsame | ⟨hwaiting, -⟩ := hminds.coordinator other
    · exact .closing (hsame.trans phase)
    · rw [phase] at hwaiting
      cases hwaiting

end RecordLog.Server
