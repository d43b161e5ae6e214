import Lifecycle.Proofs.Table.Removal

/-!
# The end of a process

The end of a process disowns its children one after another. `Disownable` is what the loop needs
of the children still to come, and `disown_eq` what the loop leaves.

`Departs t pid status r t'`: `t'` is `t` after the end of the process `pid` with the record `r`.
Each record is described on its own: the record of the process keeps its place if it has a parent,
its children are reclaimed or orphaned, and no other record changes. `depart_eq` says that the
critical section of a termination fails none of its checks, and `Departs.forest` that the forest
stays one.
-/

namespace Lifecycle

namespace Record

/-- The record of a process that has ended with `status`. -/
def ended (r : Record) (status : ExitStatus) : Record :=
  { r with state := .exited status, children := .empty, waiter := none, space := none }

/-- What becomes of the record of a child of a process that ends: it is reclaimed if the child has
ended, and else it loses its parent. -/
def orphaned (r : Record) : Option Record :=
  if r.isExited then none else some { r with parent := none }

theorem orphaned_eq_some_iff {r r' : Record} :
    r.orphaned = some r' ↔ r.state = .running ∧ r' = { r with parent := none } := by
  unfold orphaned
  split
  · next h =>
    refine ⟨fun h' => (nomatch h'), fun ⟨hs, _⟩ => ?_⟩
    simp [isExited, hs] at h
  · next h =>
    have hs : r.state = .running :=
      ProcessState.isExited_eq_false_iff.1 (Bool.eq_false_iff.2 h)
    simp [hs, eq_comm]

end Record

namespace Table

variable {t t' : Table} {k p pid : Pid} {r : Record} {status : ExitStatus}

/-! ## The loop over the children -/

/-- The child set without the children `cs`. -/
def dropAll (cs : List Pid) (s : PidSet) : PidSet := cs.foldl PidSet.remove s

theorem has_dropAll {cs : List Pid} {s : PidSet} :
    (dropAll cs s).has k = true ↔ s.has k = true ∧ k ∉ cs := by
  induction cs generalizing s with
  | nil => simp [dropAll]
  | cons c rest ih =>
    rw [dropAll, List.foldl_cons, ← dropAll, ih]
    simp only [PidSet.has_remove, Bool.and_eq_true, decide_eq_true_eq, List.mem_cons, not_or]
    exact ⟨fun ⟨⟨ne, hs⟩, hn⟩ => ⟨hs, Ne.symm ne, hn⟩, fun ⟨hs, ne, hn⟩ => ⟨⟨Ne.symm ne, hs⟩, hn⟩⟩

/-- What the loop needs: the children `cs` of `pid` are registered and different, and one that has
ended has given everything back. -/
structure Disownable (t : Table) (pid : Pid) (cs : List Pid) : Prop where
  nodup : cs.Nodup
  others : pid ∉ cs
  child : ∀ c ∈ cs, ∃ r, t.get? c = some r ∧ r.parent = some pid ∧
    (r.isExited = true → r.waiter = none ∧ r.space = none)
  counted : t.Counted
  allotted : t.Allotted

/-- What the loop leaves. -/
structure Disowned (t : Table) (pid : Pid) (cs : List Pid) (t' : Table) : Prop where
  get? : ∀ k, t'.get? k = if k ∈ cs then (t.get? k).bind Record.orphaned
    else (t.get? k).map (relink (some pid) (dropAll cs) k)
  counted : t'.Counted
  allotted : t'.Allotted
  bounds : t.SameBounds t'

/-- The table after one running child was disowned. -/
def orphan (t : Table) (pid c : Pid) : Table :=
  (t.adjust c (fun r => { r with parent := none })).forgetChild (some pid) c

theorem get?_orphan (t : Table) (pid c k : Pid) : (t.orphan pid c).get? k =
    ((if c = k then (t.get? k).map fun r => { r with parent := none } else t.get? k).map
      (relink (some pid) (·.remove c) k)) := by
  rw [orphan, get?_forgetChild, get?_adjust]

theorem sameBounds_orphan (t : Table) (pid c : Pid) : t.SameBounds (t.orphan pid c) :=
  (t.sameBounds_adjust c _).trans (sameBounds_forgetChild _ _ _)

theorem Counted.orphan (h : t.Counted) (pid c : Pid) : (t.orphan pid c).Counted := by
  unfold Counted Table.orphan
  rw [running_forgetChild, tally_forgetChild]
  refine h.trans (tally_adjust_of_state t.records c _ ?_).symm
  exact fun _ => rfl

theorem Allotted.orphan (h : t.Allotted) (pid c : Pid) : (t.orphan pid c).Allotted :=
  h.congr (pids_forgetChild _ _ _) fun k => by
    rw [get?_orphan]
    split
    · simp
    · simp

/-- One round of the loop: the child `c` is gone or orphaned, and the others wait as before. -/
theorem Disownable.next {c : Pid} {rest : List Pid} (h : t.Disownable pid (c :: rest))
    (hg : ∀ k, k ≠ c → t'.get? k = (t.get? k).map (relink (some pid) (·.remove c) k))
    (hc : t'.Counted) (ha : t'.Allotted) : t'.Disownable pid rest where
  nodup := (List.nodup_cons.1 h.nodup).2
  others := fun hm => h.others (List.mem_cons_of_mem _ hm)
  child := fun k hk => by
    have ne : k ≠ c := fun e => (List.nodup_cons.1 h.nodup).1 (e ▸ hk)
    have np : pid ≠ k := fun e => h.others (e ▸ List.mem_cons_of_mem _ hk)
    obtain ⟨r, hr, hp, hex⟩ := h.child k (List.mem_cons_of_mem _ hk)
    exact ⟨r, by rw [hg k ne, hr, Option.map_some, relink_of_ne _ np], hp, hex⟩
  counted := hc
  allotted := ha

theorem Disowned.cons {t₁ : Table} {c : Pid} {rest : List Pid} (hn : c ∉ rest) (np : pid ≠ c)
    (hg : ∀ k, k ≠ c → t₁.get? k = (t.get? k).map (relink (some pid) (·.remove c) k))
    (hc : t₁.get? c = (t.get? c).bind Record.orphaned) (hpr : pid ∉ rest)
    (hb : t.SameBounds t₁) (h : Disowned t₁ pid rest t') : Disowned t pid (c :: rest) t' where
  get? k := by
    rw [h.get? k]
    by_cases e : k = c
    · subst e
      rw [if_neg hn, if_pos List.mem_cons_self, hc]
      cases (t.get? k).bind Record.orphaned with
      | none => rfl
      | some q => rw [Option.map_some, relink_of_ne _ np]
    · rw [hg k e]
      simp only [List.mem_cons, e, false_or]
      split
      · next hk =>
        have np : pid ≠ k := fun e => hpr (e ▸ hk)
        cases t.get? k with
        | none => rfl
        | some q => rw [Option.map_some, relink_of_ne _ np]
      · cases t.get? k with
        | none => rfl
        | some q =>
          simp only [Option.map_some, Option.some.injEq, relink]
          split <;> rfl
  counted := h.counted
  allotted := h.allotted
  bounds := hb.trans h.bounds

theorem disown_eq {cs : List Pid} (h : t.Disownable pid cs) (spaces : List AddressSpace) :
    ∃ t', disown pid cs spaces t = ((none, spaces), t') ∧ Disowned t pid cs t' := by
  induction cs generalizing t with
  | nil =>
    refine ⟨t, rfl, fun k => ?_, h.counted, h.allotted, ⟨rfl, rfl, rfl⟩⟩
    cases hk : t.get? k <;> simp [relink, dropAll]
  | cons c rest ih =>
    obtain ⟨r, hr, hp, hex⟩ := h.child c List.mem_cons_self
    have hn := (List.nodup_cons.1 h.nodup).1
    have np : pid ≠ c := fun e => h.others (e ▸ List.mem_cons_self)
    have hpr : pid ∉ rest := fun hm => h.others (List.mem_cons_of_mem _ hm)
    unfold disown
    simp only [hr]
    by_cases he : r.isExited = true
    · obtain ⟨hw, hs⟩ := hex he
      rw [if_pos he, remove_eq h.counted hr hw]
      have hg : ∀ k, k ≠ c → (t.removed c r).get? k =
          (t.get? k).map (relink (some pid) (·.remove c) k) := by
        intro k ne
        rw [get?_removed, get?_withdraw, if_neg (Ne.symm ne), hp]
      obtain ⟨t', ht', hd⟩ := ih (h.next hg (h.counted.withdraw hr) (h.allotted.removed hr))
      refine ⟨t', by simpa [hs] using ht', hd.cons hn np hg ?_ hpr (t.sameBounds_removed c r)⟩
      rw [get?_removed, get?_withdraw, if_pos rfl, hr]
      simp [Record.orphaned, he]
    · rw [if_neg he]
      have hg : ∀ k, k ≠ c → (t.orphan pid c).get? k =
          (t.get? k).map (relink (some pid) (·.remove c) k) := by
        intro k ne
        rw [get?_orphan, if_neg (Ne.symm ne)]
      obtain ⟨t', ht', hd⟩ := ih (h.next hg (h.counted.orphan pid c) (h.allotted.orphan pid c))
      refine ⟨t', ht', hd.cons hn np hg ?_ hpr (t.sameBounds_orphan pid c)⟩
      rw [get?_orphan, if_pos rfl, hr, Option.map_some, Option.map_some, relink_of_ne _ np]
      simp [Record.orphaned, he]

/-! ## The critical section -/

/-- The table `t'` after the end of `pid`, which had the record `r` (module doc). -/
structure Departs (t : Table) (pid : Pid) (status : ExitStatus) (r : Record) (t' : Table) :
    Prop where
  was : t.get? pid = some r
  running : r.state = .running
  get? : ∀ k, t'.get? k =
    if pid = k then r.parent.map fun _ => r.ended status
    else if r.children.has k then (t.get? k).bind Record.orphaned
    else t.get? k
  counted : t'.Counted
  allotted : t'.Allotted
  bounds : t.SameBounds t'

/-- The process has ended, and its children are still to be disowned. -/
def exiting (t : Table) (pid : Pid) (r : Record) (status : ExitStatus) : Table :=
  { t.adjust pid fun _ => { r with state := .exited status, waiter := none, space := none } with
    running := t.running - 1 }

theorem get?_replace (hr : t.get? pid = some r) (q : Record) (k : Pid) :
    (t.adjust pid fun _ => q).get? k = if pid = k then some q else t.get? k := by
  rw [get?_adjust]
  split
  · next e => rw [← e, hr]; rfl
  · rfl

theorem get?_exiting (hr : t.get? pid = some r) (k : Pid) : (t.exiting pid r status).get? k =
    if pid = k then some { r with state := .exited status, waiter := none, space := none }
    else t.get? k := get?_replace hr _ k

theorem sameBounds_exiting (t : Table) (pid : Pid) (r : Record) (status : ExitStatus) :
    t.SameBounds (t.exiting pid r status) := ⟨rfl, rfl, rfl⟩

/-- A running process has got an exit status. -/
theorem Counted.ended {q : Record} (h : t.Counted) (hr : t.get? pid = some r)
    (hs : r.state = .running) (hq : q.isExited = true) :
    ({ t.adjust pid fun _ => q with running := t.running - 1 } : Table).Counted := by
  have := PidMap.tally_adjust (fun r : Record => !r.isExited) (fun _ => q) hr
  rw [hq] at this
  simp only [Record.isExited, hs, ProcessState.isExited_running, Bool.not_false, Bool.not_true,
    Bool.false_eq_true, ↓reduceIte] at this
  show t.running - 1 = _
  rw [h]
  exact (Nat.sub_eq_of_eq_add this.symm)

theorem Counted.exiting (h : t.Counted) (hr : t.get? pid = some r) (hs : r.state = .running) :
    (t.exiting pid r status).Counted := h.ended hr hs rfl

/-- The table after the running process `pid`, with the record `r`, has got its exit status. -/
def marked (t : Table) (pid : Pid) (r : Record) (status : ExitStatus) : Table :=
  { t.adjust pid fun _ => { r with state := .exited status } with running := t.running - 1 }

theorem get?_marked (hr : t.get? pid = some r) (k : Pid) : (t.marked pid r status).get? k =
    if pid = k then some { r with state := .exited status } else t.get? k := get?_replace hr _ k

/-- A running process gets its exit status. -/
theorem markExited_eq (h : t.Counted) (hr : t.get? pid = some r) (hs : r.state = .running)
    (status : ExitStatus) :
    t.markExited pid status =
      (.taken { r with state := .exited status }, t.marked pid r status) := by
  have hex : r.isExited = false := by simp [Record.isExited, hs]
  have hpos := h.running_pos hr hex
  simp only [markExited, hr, Record.setExited, hex, Bool.false_eq_true, ↓reduceIte]
  rw [lowerRunning_eq (t := t.adjust pid _) hpos]
  rfl

theorem Sound.disownable (h : t.Sound) (status : ExitStatus) (hr : t.get? pid = some r)
    (hs : r.state = .running) : (t.exiting pid r status).Disownable pid r.children.keys where
  nodup := PidMap.keys_nodup _
  others hm := by
    have hp := (h.forest.child_iff pid pid).1 ⟨r, hr, PidSet.mem_keys_iff_has.1 hm⟩
    exact h.forest.parent_ne hp rfl
  child c hc := by
    obtain ⟨q, hq, hp⟩ := h.forest.child_of_has hr (PidSet.mem_keys_iff_has.1 hc)
    have ne : pid ≠ c := h.forest.parent_ne ⟨q, hq, hp⟩
    exact ⟨q, by rw [get?_exiting hr, if_neg ne, hq], hp, fun he => (h.forest.exited hq he).2.2⟩
  counted := h.counted.exiting hr hs
  allotted := h.allotted.congr rfl fun k => by
    rw [get?_exiting hr]
    split
    · next e => rw [← e, hr]; rfl
    · rfl

/-- The records after the loop, before an orphan is reclaimed. -/
theorem get?_disowned (hr : t.get? pid = some r)
    (hd : Disowned (t.exiting pid r status) pid r.children.keys t')
    (hn : r.children.has pid = false) (k : Pid) : t'.get? k = if pid = k then some (r.ended status)
      else if r.children.has k then (t.get? k).bind Record.orphaned else t.get? k := by
  rw [hd.get? k, get?_exiting hr]
  simp only [PidSet.mem_keys_iff_has]
  by_cases e : pid = k
  · subst e
    have hall : dropAll r.children.keys r.children = .empty := PidSet.eq_empty fun c =>
      Bool.eq_false_iff.2 fun hc =>
        (has_dropAll.1 hc).2 (PidSet.mem_keys_iff_has.2 (has_dropAll.1 hc).1)
    simp [hn, relink, hall, Record.ended]
  · simp only [if_neg e]
    split
    · rfl
    · cases t.get? k with
      | none => rfl
      | some q => rw [Option.map_some, relink_of_ne _ e]

/-- The critical section of a termination fails none of its checks. -/
theorem depart_eq (status : ExitStatus) (h : t.Sound) (hr : t.running? pid = some r) : ∃ t',
    t.depart pid status = (.departed ⟨r.waiter, r.space.toList, t'.running = 0⟩, t') ∧
    Departs t pid status r t' := by
  obtain ⟨hg, hs⟩ := running?_eq_some_iff.1 hr
  have hn : r.children.has pid = false := Bool.eq_false_iff.2 fun hp =>
    h.forest.parent_ne ((h.forest.child_iff pid pid).1 ⟨r, hg, hp⟩) rfl
  obtain ⟨t₁, ht₁, hd⟩ :=
    disown_eq (h.disownable status hg hs) r.space.toList
  have hget := get?_disowned hg hd hn
  have hcut : (t.marked pid r status).adjust pid (fun r => { r with waiter := none, space := none })
      = t.exiting pid r status := by
    simp only [marked, adjust, exiting, PidMap.adjust_adjust]
  unfold depart
  simp only [hr, markExited_eq h.counted hg hs, hcut, ht₁]
  cases hp : r.parent with
  | some p =>
    refine ⟨t₁, by simp [reclaimOrphan], hg, hs, fun k => ?_, hd.counted, hd.allotted,
      (t.sameBounds_exiting pid r status).trans hd.bounds⟩
    rw [hget, hp]
    rfl
  | none =>
    have hr₁ : t₁.get? pid = some (r.ended status) := by rw [hget, if_pos rfl]
    refine ⟨t₁.removed pid (r.ended status), ?_, hg, hs, fun k => ?_, hd.counted.withdraw hr₁,
      hd.allotted.removed hr₁,
      ((t.sameBounds_exiting pid r status).trans hd.bounds).trans (t₁.sameBounds_removed pid _)⟩
    · rw [reclaimOrphan, remove_eq hd.counted hr₁ rfl]
      simp [Record.ended]
    · rw [get?_removed, get?_withdraw, hget, hp]
      split
      · rfl
      · simp only [Record.ended, hp]
        split
        · cases (t.get? k).bind Record.orphaned <;> simp
        · cases t.get? k <;> simp

/-! ## The forest after the end of a process -/

namespace Departs

/-- Where a record of the table after the end of `pid` comes from. -/
theorem origin (hd : Departs t pid status r t') {q : Record} (hq : t'.get? k = some q) :
    (k = pid ∧ q = r.ended status ∧ r.parent.isSome = true) ∨
    (k ≠ pid ∧ r.children.has k = true ∧ ∃ c, t.get? k = some c ∧ c.state = .running ∧
      q = { c with parent := none }) ∨
    (k ≠ pid ∧ r.children.has k = false ∧ t.get? k = some q) := by
  rw [hd.get?] at hq
  split at hq
  · next e =>
    obtain ⟨p, hp, rfl⟩ := Option.map_eq_some_iff.1 hq
    exact .inl ⟨e.symm, rfl, by rw [hp]; rfl⟩
  · next ne =>
    split at hq
    · next hc =>
      obtain ⟨c, hc', ho⟩ := Option.bind_eq_some_iff.1 hq
      obtain ⟨hs, rfl⟩ := Record.orphaned_eq_some_iff.1 ho
      exact .inr (.inl ⟨Ne.symm ne, hc, c, hc', hs, rfl⟩)
    · next hc => exact .inr (.inr ⟨Ne.symm ne, Bool.eq_false_iff.2 hc, hq⟩)

/-- A child of `pid` is in its child set, and nobody else is. -/
theorem has_iff (hd : Departs t pid status r t') (h : t.Forest) :
    r.children.has k = true ↔ t.HasParent k pid := by
  rw [← h.child_iff]
  refine ⟨fun hk => ⟨r, hd.was, hk⟩, fun ⟨q, hq, hk⟩ => ?_⟩
  rw [hd.was] at hq; cases hq
  exact hk

/-- All parent links but those to `pid` are left. -/
theorem hasParent_iff (hd : Departs t pid status r t') (h : t.Forest) :
    t'.HasParent k p ↔ t.HasParent k p ∧ p ≠ pid := by
  constructor
  · rintro ⟨q, hq, hp⟩
    rcases hd.origin hq with ⟨rfl, rfl, -⟩ | ⟨-, -, c, -, -, rfl⟩ | ⟨ne, hc, hk⟩
    · have hk : t.HasParent k p := ⟨r, hd.was, hp⟩
      exact ⟨hk, h.parent_ne hk⟩
    · cases hp
    · have hk : t.HasParent k p := ⟨q, hk, hp⟩
      refine ⟨hk, fun e => ?_⟩
      rw [(hd.has_iff h).2 (e ▸ hk)] at hc
      cases hc
  · rintro ⟨⟨q, hq, hp⟩, ne⟩
    by_cases e : pid = k
    · subst e
      rw [hd.was] at hq; cases hq
      exact ⟨r.ended status, by rw [hd.get?, if_pos rfl, hp]; rfl, hp⟩
    · have hc : ¬ r.children.has k = true := by
        intro hc
        obtain ⟨q', hq', hp'⟩ := (hd.has_iff h).1 hc
        rw [hq] at hq'; cases hq'
        rw [hp] at hp'; cases hp'
        exact ne rfl
      exact ⟨q, by rw [hd.get?, if_neg e, if_neg hc, hq], hp⟩

theorem hasChild_iff (hd : Departs t pid status r t') (h : t.Forest) :
    t'.HasChild p k ↔ t.HasChild p k ∧ p ≠ pid := by
  constructor
  · rintro ⟨q, hq, hk⟩
    rcases hd.origin hq with ⟨-, rfl, -⟩ | ⟨ne, -, c, hc, -, rfl⟩ | ⟨ne, -, hp⟩
    · cases hk
    · exact ⟨⟨c, hc, hk⟩, ne⟩
    · exact ⟨⟨q, hp, hk⟩, ne⟩
  · rintro ⟨⟨q, hq, hk⟩, ne⟩
    by_cases hc : r.children.has p = true
    · -- A child of `pid` that has children runs, so it stays.
      have hs : q.state = .running := by
        obtain ⟨q', hq', hs⟩ := h.parent_running ((h.child_iff p k).1 ⟨q, hq, hk⟩)
        rw [hq] at hq'; cases hq'
        exact hs
      refine ⟨{ q with parent := none }, ?_, hk⟩
      rw [hd.get?, if_neg (Ne.symm ne), if_pos hc, hq]
      exact Record.orphaned_eq_some_iff.2 ⟨hs, rfl⟩
    · exact ⟨q, by rw [hd.get?, if_neg (Ne.symm ne), if_neg hc, hq], hk⟩

theorem forest (hd : Departs t pid status r t') (h : t.Forest) : t'.Forest where
  pid_eq {k q} hq := by
    rcases hd.origin hq with ⟨rfl, rfl, -⟩ | ⟨-, -, c, hc, -, rfl⟩ | ⟨-, -, hk⟩
    · show r.pid = k
      exact h.pid_eq hd.was
    · show c.pid = k
      exact h.pid_eq hc
    · exact h.pid_eq hk
  child_iff p k := by rw [hd.hasChild_iff h, hd.hasParent_iff h, h.child_iff]
  parent_running {k p} hk := by
    obtain ⟨hk, ne⟩ := (hd.hasParent_iff h).1 hk
    obtain ⟨q, hq, hs⟩ := h.parent_running hk
    rw [hd.get?, if_neg (Ne.symm ne)]
    split
    · refine ⟨{ q with parent := none }, ?_, hs⟩
      rw [hq]
      exact Record.orphaned_eq_some_iff.2 ⟨hs, rfl⟩
    · exact ⟨q, hq, hs⟩
  exited {k q} hq he := by
    rcases hd.origin hq with ⟨-, rfl, hp⟩ | ⟨-, -, c, -, hs, rfl⟩ | ⟨-, -, hk⟩
    · exact ⟨hp, rfl, rfl, rfl⟩
    · simp [Record.isExited, hs] at he
    · exact h.exited hk he
  acyclic k hk := h.acyclic k (.mono (fun _ _ hp => ((hd.hasParent_iff h).1 hp).1) hk)

theorem sound (hd : Departs t pid status r t') (h : t.Sound) : t'.Sound :=
  ⟨hd.forest h.forest, hd.counted, hd.allotted⟩

end Departs

end Table

end Lifecycle
