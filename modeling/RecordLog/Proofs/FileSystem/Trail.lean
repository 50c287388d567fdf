import RecordLog.Proofs.FileSystem.Walk

/-! What following a path looks at. Two file systems that are alike there, and have no link where
the path ends, lead it to the same place or refuse it alike. -/
namespace RecordLog.FileSystem

/-- The locations that `names` lead through from `dir`, the one they end at left out. -/
def trail (fs : FileSystem) (links : Nat) (dir : Location) (names : List Name) : List Location :=
  match names with
  | [] => []
  | name :: rest =>
    dir ::
      if name = Path.dot then fs.trail links dir rest
      else if name = Path.dotdot then fs.trail links dir.dropLast rest
      else if rest = [] then []
      else (dir ++ [name]) ::
        match fs.lookup (dir ++ [name]) with
        | some (.directory _) => fs.trail links (dir ++ [name]) rest
        | some (.link target) =>
          match links with
          | 0 => []
          | links + 1 =>
            fs.trail links (linkStart dir target) ((Path.ofBytes target).names ++ rest)
        | _ => []
  termination_by (links, names.length)

/-- The locations that a path leads through, the one it ends at left out. -/
def wayTo (fs : FileSystem) (path : Bytes) : List Location :=
  fs.trail maxLinks (if (Path.ofBytes path).absolute then [] else fs.workingDirectory)
    (Path.ofBytes path).names

/-- There is no symbolic link at this location. -/
def Plain (fs : FileSystem) (loc : Location) : Prop :=
  ∀ target, fs.lookup loc ≠ some (.link target)

variable {fs fs' : FileSystem} {last last' : LastLink} {links : Nat} {dir : Location}
  {names : List Name} {slash : Bool} {path : Bytes}

lemma permitsAt_congr {loc : Location} (privileged : fs'.privileged = fs.privileged)
    (same : fs'.lookup loc = fs.lookup loc) (a : Access) :
    fs'.permitsAt loc a = fs.permitsAt loc a := by
  have hpermits : (fs'.permits · a) = (fs.permits · a) := by
    funext e
    rw [permits, permits, privileged]
  rw [permitsAt, permitsAt, same, hpermits]

/-- The last name of a path, not a dot and with no link behind it, ends the walk. -/
lemma walk_last {name : Name} (hdot : name ≠ Path.dot) (hdotdot : name ≠ Path.dotdot)
    (plain : fs.Plain (dir ++ [name])) : fs.walk last links dir [name] slash =
      if !fs.permitsAt dir .search then .error .permissionDenied
      else if last = .create ∧ slash then .error .isDirectory
      else if name.length > Path.maxName then .error .nameTooLong
      else .ok ⟨dir, some name, slash⟩ := by
  rw [walk_cons, if_neg hdot, if_neg hdotdot]
  simp only [true_and, if_true]
  split
  · rfl
  · split
    · rfl
    · split
      · rfl
      · split
        · rename_i target found
          exact (plain target found).elim
        · rfl

/-- From a name before the last, not a dot, a walk goes on by what is there. -/
lemma walk_onward {name : Name} {rest : List Name} (search : fs.permitsAt dir .search)
    (hdot : name ≠ Path.dot) (hdotdot : name ≠ Path.dotdot) (short : name.length ≤ Path.maxName)
    (more : rest ≠ []) (last : LastLink) : fs.walk last links dir (name :: rest) slash =
      match fs.lookup (dir ++ [name]) with
      | none => .error .notFound
      | some (.directory _) => fs.walk last links (dir ++ [name]) rest slash
      | some (.link target) =>
        match links with
        | 0 => .error .tooManyLinks
        | links + 1 => fs.walk last links (linkStart dir target)
            ((Path.ofBytes target).names ++ rest) slash
      | some _ => .error .notDirectory := by
  rw [walk_cons, if_neg (by simpa using search), if_neg hdot, if_neg hdotdot,
    if_neg fun made => more made.1, if_neg (Nat.not_lt.mpr short)]
  cases found : fs.lookup (dir ++ [name]) with
  | none => simp [more]
  | some e =>
    cases e with
    | link target => cases links <;> simp [more, linkStart]
    | _ => simp [more]

/-- Where the same is found all the way, and no link at the end, names end the same. Whether a link
there is to be kept or followed makes no difference then. -/
theorem walk_congr (privileged : fs'.privileged = fs.privileged)
    (created : last' = .create ↔ last = .create)
    (alike : ∀ loc ∈ fs.trail links dir names, fs'.lookup loc = fs.lookup loc)
    (ends : ∀ p, fs.walk .keep links dir names slash = .ok p →
      fs.Plain p.location ∧ fs'.Plain p.location) :
    fs'.walk last' links dir names slash = fs.walk last links dir names slash := by
  induction links, dir, names using trail.induct with
  | case1 links dir => rw [walk_nil, walk_nil]
  | case2 links dir name rest here up into out =>
    rw [trail, List.forall_mem_cons] at alike
    obtain ⟨alikeDir, alike⟩ := alike
    have hsearch := permitsAt_congr privileged alikeDir .search
    by_cases search : fs.permitsAt dir .search
    case neg => simp [walk_cons, hsearch, search]
    by_cases hdot : name = Path.dot
    · rw [if_pos hdot] at alike
      have hrest := here alike fun p hp => ends p (by simp [walk_cons, search, hdot, hp])
      simp [walk_cons, hsearch, search, hdot, hrest]
    by_cases hdotdot : name = Path.dotdot
    · rw [if_neg hdot, if_pos hdotdot] at alike
      subst hdotdot
      have hrest := up alike fun p hp => ends p (by simp [walk_cons, search, hdot, hp])
      simp [walk_cons, hsearch, search, hdot, hrest]
    by_cases short : name.length ≤ Path.maxName
    case neg => simp [walk_cons, hsearch, search, hdot, hdotdot, created, Nat.not_le.mp short]
    by_cases more : rest = []
    · -- What the last name stands for is not in the trail: only `ends` tells of it.
      subst more
      have hkeep : fs.walk .keep links dir [name] slash = .ok ⟨dir, some name, slash⟩ :=
        walk_eq_ok_iff.mpr (.named ⟨search, hdot, hdotdot, by simp, short⟩ fun _ _ => rfl)
      obtain ⟨plain, plain'⟩ := ends _ hkeep
      simp only [walk_last hdot hdotdot plain, walk_last hdot hdotdot plain', hsearch, created]
    rw [if_neg hdot, if_neg hdotdot, if_neg more, List.forall_mem_cons] at alike
    obtain ⟨alikeNext, alike⟩ := alike
    rw [walk_onward search hdot hdotdot short more] at ends ⊢
    rw [walk_onward (hsearch ▸ search) hdot hdotdot short more, alikeNext]
    cases found : fs.lookup (dir ++ [name]) with
    | none => rfl
    | some e =>
      rw [found] at alike ends
      cases e with
      | directory mode => exact into alike ends
      | link target =>
        cases links with
        | zero => rfl
        | succ links => exact out target alike ends
      | _ => rfl

/-- Either the system follows a path or it refuses the path for what it is. -/
lemma locate_cases (path : Bytes) :
    (∃ e, ∀ (fs : FileSystem) last, fs.locate last path = .error e) ∨
    (path.contains Bytes.nul = false ∧ path.length ≤ Path.maxLength ∧ path ≠ []) := by
  by_cases clean : path.contains Bytes.nul
  · exact .inl ⟨.nulInPath, fun fs last => by rw [locate, if_pos clean]⟩
  by_cases short : path.length ≤ Path.maxLength
  case neg =>
    refine .inl ⟨.nameTooLong, fun fs last => ?_⟩
    rw [locate, if_neg clean, if_pos (Nat.not_le.mp short)]
  by_cases nonempty : path = []
  · refine .inl ⟨.notFound, fun fs last => ?_⟩
    rw [locate, if_neg clean, if_neg (Nat.not_lt.mpr short), if_pos (by simp [nonempty])]
  · exact .inr ⟨by simpa using clean, short, nonempty⟩

theorem locate_congr (privileged : fs'.privileged = fs.privileged)
    (workingDirectory : fs'.workingDirectory = fs.workingDirectory)
    (created : last' = .create ↔ last = .create)
    (alike : ∀ loc ∈ fs.wayTo path, fs'.lookup loc = fs.lookup loc)
    (ends : ∀ p, fs.Finds .keep path p → fs.Plain p.location ∧ fs'.Plain p.location) :
    fs'.locate last' path = fs.locate last path := by
  obtain ⟨e, refused⟩ | ⟨clean, short, nonempty⟩ := locate_cases path
  · rw [refused, refused]
  · rw [locate_eq_walk clean short nonempty, locate_eq_walk clean short nonempty, workingDirectory]
    exact walk_congr privileged created alike fun p hp =>
      ends p ⟨clean, short, nonempty, walk_eq_ok_iff.mp hp⟩

/-- With no link at its end a path may have it kept or followed. -/
lemma locate_follow (ends : ∀ p, fs.Finds .keep path p → fs.Plain p.location) :
    fs.locate .follow path = fs.locate .keep path :=
  locate_congr rfl rfl (by simp) (fun _ _ => rfl) fun p hp => ⟨ends p hp, ends p hp⟩

end RecordLog.FileSystem
