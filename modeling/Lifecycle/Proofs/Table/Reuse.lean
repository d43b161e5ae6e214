import Lifecycle.Join
import Lifecycle.Proofs.ListLemmas
import Lifecycle.Proofs.Table.Commands

/-!
# Numbers that are not handed out again

As long as no allocation takes a recycled number, a PID that was handed out for good stays the PID
of one process. The counter may be set back by a roll-back, but only to the number of the record
that is rolled back, and that record is in the table: a number whose record was removed stays below
the counter (`Spent`).

* `Table.Unrecycled`: a stretch of commands in which no allocation takes a recycled number.
* `Table.Grants`, `Table.Removes`: a place in a sequence of commands where a PID is handed out, or
  its record removed.
* `RolledBack`: the record of a PID is later rolled back.
* `unrecycled_distinct`: in such a stretch no number is handed out again that was handed out for
  good, and a join of a removed process is refused.
-/

namespace Lifecycle

/-- Giving another number back leaves a number below the counter. -/
theorem PidAllocator.lt_next_unreserve {a : PidAllocator} {pid k : Pid}
    (h : k.number.toNat < a.next.toNat) (ne : pid ≠ k) :
    k.number.toNat < (a.unreserve pid).next.toNat := by
  unfold unreserve
  split
  · next last =>
    have hnext := toNat_rewound last
    have hlast : a.next.toNat = (pid.number.toNat + 1) % UInt32.size := by
      rw [← last, UInt32.toNat_add]
      rfl
    have hmod := Nat.mod_le (pid.number.toNat + 1) UInt32.size
    have hne : pid.number.toNat ≠ k.number.toNat := fun e => ne (Pid.toNat_inj.1 e)
    show _ < (a.next - 1).toNat
    omega
  · exact h

namespace Table

/-- The PID that was handed out, if one was. -/
def Reply.pid? : Reply → Option Pid
  | allocated (.ok pid) => some pid
  | _ => none

/-- The command takes the record of `pid` out. -/
def Command.takesOut (pid : Pid) : Command → Bool
  | remove k => k = pid
  | rollback k => k = pid
  | _ => false

/-- The first of the commands that takes the record of `pid` out is a roll-back. -/
def RolledBack (pid : Pid) (commands : List Command) : Prop :=
  commands.find? (·.takesOut pid) = some (.rollback pid)

instance (pid : Pid) (commands : List Command) : Decidable (RolledBack pid commands) :=
  inferInstanceAs (Decidable (_ = _))

/-- No allocation among the commands takes a recycled number. -/
def Unrecycled : Table → List Command → Prop
  | _, [] => True
  | t, c :: rest =>
    (∀ pid ∈ (t.perform c).1.pid?, pid ∉ t.pids.recycled) ∧ Unrecycled (t.perform c).2 rest

instance decUnrecycled : (t : Table) → (commands : List Command) →
    Decidable (t.Unrecycled commands)
  | _, [] => inferInstanceAs (Decidable True)
  | t, c :: rest =>
    have := decUnrecycled (t.perform c).2 rest
    inferInstanceAs (Decidable (_ ∧ _))

/-- An allocation among the commands hands out `pid`, and the commands `later` follow it. -/
def Grants (t : Table) (commands : List Command) (pid : Pid) (later : List Command) : Prop :=
  ∃ earlier parent name, commands = earlier ++ .allocate parent name :: later ∧
    ((t.after earlier).perform (.allocate parent name)).1 = .allocated (.ok pid)

/-- A removal among the commands takes the record of `pid` out, and the commands `later` follow
it. -/
def Removes (t : Table) (commands : List Command) (pid : Pid) (later : List Command) : Prop :=
  ∃ earlier r, commands = earlier ++ .remove pid :: later ∧
    ((t.after earlier).perform (.remove pid)).1 = .took (.taken r)

/-- `pid` was handed out, and there is no record of it any more. -/
def Spent (t : Table) (pid : Pid) : Prop :=
  t.get? pid = none ∧ pid.number.toNat < t.pids.next.toNat

variable {t t' : Table} {k pid : Pid} {r : Record} {c : Command} {reply : Reply}
  {commands later : List Command}

theorem RolledBack.append (h : RolledBack pid later) (rest : List Command) :
    RolledBack pid (later ++ rest) := by
  unfold RolledBack
  rw [List.find?_append, show later.find? _ = _ from h]
  rfl

theorem after_append (t : Table) (first second : List Command) :
    t.after (first ++ second) = (t.after first).after second := List.foldl_append

theorem unrecycled_append {first second : List Command} : t.Unrecycled (first ++ second) ↔
    t.Unrecycled first ∧ (t.after first).Unrecycled second := by
  induction first generalizing t with
  | nil => simp [Unrecycled, Table.after]
  | cons c rest ih => exact (and_congr_right fun _ => ih).trans and_assoc.symm

/-! ## One command -/

/-- A spent number stays spent. -/
theorem Performed.spent (h : t.Represented) (hp : Performed t c (reply, t'))
    (hn : ∀ k ∈ reply.pid?, k ∉ t.pids.recycled) (hs : t.Spent pid) : t'.Spent pid := by
  obtain ⟨hnone, hlt⟩ := hs
  have other : ∀ {k r}, t.get? k = some r → k ≠ pid := by
    rintro k r hr rfl
    rw [hnone] at hr
    cases hr
  cases hp with
  | refused | absent | exited => exact ⟨hnone, hlt⟩
  | allocated ha hpar =>
    rcases PidAllocator.alloc_eq_some ha with ⟨hle, rfl, rfl⟩ | ⟨-, rest, hrec, -⟩
    · -- The number handed out is the counter, and `pid` is below it.
      have hne : (⟨t.pids.next⟩ : Pid) ≠ pid := by
        rintro rfl
        exact Nat.lt_irrefl _ hlt
      have hnext := PidAllocator.toNat_next hle
      refine ⟨?_, ?_⟩
      · refine (get?_admitted t _ pid (h.allotted.parent_ne ha hpar)).trans ?_
        rw [show (Record.new _ _ _).pid = ⟨t.pids.next⟩ from rfl, if_neg hne, hnone]
        rfl
      · rw [pids_admitted]
        show _ < (t.pids.next + 1).toNat
        omega
    · refine absurd ?_ (hn _ rfl)
      rw [hrec]
      exact List.mem_cons_self
  | marked hr => exact ⟨by rw [get?_marked hr, if_neg (other hr), hnone], hlt⟩
  | removed hr =>
    refine ⟨?_, hlt⟩
    rw [get?_removed, get?_withdraw, if_neg (other hr), hnone]
    rfl
  | rolledBack hr =>
    refine ⟨?_, PidAllocator.lt_next_unreserve hlt (other hr)⟩
    rw [get?_rolledBack, get?_withdraw, if_neg (other hr), hnone]
    rfl

/-- A registered process stays so until a command takes its record out. -/
theorem Performed.registered (h : t.Represented) (hp : Performed t c (reply, t'))
    (hc : c.takesOut pid = false) (hr : (t.get? pid).isSome = true) :
    (t'.get? pid).isSome = true := by
  cases hp with
  | refused | absent | exited => exact hr
  | allocated ha hpar =>
    exact (isSome_get?_admitted (h.allotted.parent_ne ha hpar)).2 (.inr hr)
  | marked hq =>
    rw [get?_marked hq]
    split
    · rfl
    · exact hr
  | removed => exact (isSome_get?_withdraw t _ pid _).2 ⟨of_decide_eq_false hc, hr⟩
  | rolledBack => exact (isSome_get?_withdraw t _ pid _).2 ⟨of_decide_eq_false hc, hr⟩

/-- A removal of a registered process leaves its number spent. -/
theorem Performed.removed_spent (h : t.Represented) (hp : Performed t (.remove pid) (reply, t'))
    (hr : (t.get? pid).isSome = true) : t'.Spent pid := by
  cases hp with
  | absent he hn =>
    cases he
    rw [hn] at hr
    cases hr
  | removed =>
    refine ⟨?_, (h.allotted.below pid).2 (.inl hr)⟩
    rw [get?_removed, get?_withdraw, if_pos rfl]

theorem Performed.of_taken (hp : Performed t (.remove pid) (reply, t'))
    (hg : reply = .took (.taken r)) : (t.get? pid).isSome = true := by
  cases hp with
  | absent => cases hg
  | removed hr => rw [hr]; rfl

/-- A PID that is handed out and was not recycled is the number of the counter. -/
theorem Performed.granted {parent : Option Pid} {name : String} (h : t.Represented)
    (hp : Performed t (.allocate parent name) (reply, t'))
    (hg : reply = .allocated (.ok pid)) :
    (t'.get? pid).isSome = true ∧ t.get? pid = none ∧
      (pid ∉ t.pids.recycled → pid.number = t.pids.next) := by
  cases hp with
  | refused => cases hg
  | absent he => cases he
  | allocated ha hpar =>
    cases hg
    refine ⟨?_, h.allotted.alloc ha, fun hn => ?_⟩
    · exact (isSome_get?_admitted (h.allotted.parent_ne ha hpar)).2 (.inl rfl)
    · rcases PidAllocator.alloc_eq_some ha with ⟨-, rfl, -⟩ | ⟨-, rest, hrec, -⟩
      · rfl
      · refine absurd ?_ hn
        rw [hrec]
        exact List.mem_cons_self

/-- Nobody can join a process without a record. -/
theorem Represented.checkJoin_eq (h : t.Represented) (hn : t.get? pid = none) (caller : Pid)
    (task : TaskId) : t.checkJoin caller pid task = (.notChild, t) := by
  have hc : (t.get? caller).any (fun r => r.children.has pid) = false := by
    rw [Bool.eq_false_iff]
    intro hc
    obtain ⟨q, hq, hk⟩ := (Option.any_eq_true ..).1 hc
    obtain ⟨r, hr, -⟩ := h.child ⟨q, hq, hk⟩
    rw [hn] at hr
    cases hr
  rw [checkJoin, hc]
  rfl

/-- A join of it is refused. -/
theorem Represented.join_eq {kernel : Kernel} (h : t.Represented) (hn : t.get? pid = none)
    (hk : kernel.table = t) (caller : Pid) (task : TaskId) :
    ∃ effects, (Join.new caller pid task).step kernel =
      (kernel, effects, ⟨caller, pid, task, .finished (.error .invalidJoin)⟩) := by
  subst hk
  refine ⟨[.note (.notChild pid caller)], ?_⟩
  simp only [Join.step, Join.new, Join.goTo, h.checkJoin_eq hn caller task]

/-! ## Sequences of commands -/

section sequences

variable (h : t.Represented) (hw : t.Unawaited)
include h hw

theorem Spent.after (hu : t.Unrecycled commands) (hs : t.Spent pid) :
    (t.after commands).Spent pid := by
  induction commands generalizing t with
  | nil => exact hs
  | cons c rest ih =>
    have hs' := (perform_performed h hw c).spent h hu.1 hs
    exact ih (h.perform hw c) (hw.perform h c) hu.2 hs'

/-- A registered process that is not rolled back stays registered, or its number is spent. -/
theorem registered_or_spent (hu : t.Unrecycled later) (hr : (t.get? pid).isSome = true)
    (hn : ¬ RolledBack pid later) :
    ((t.after later).get? pid).isSome = true ∨ (t.after later).Spent pid := by
  induction later generalizing t with
  | nil => exact .inl hr
  | cons c rest ih =>
    have hp := perform_performed h hw c
    have h' := h.perform hw c
    have hw' := hw.perform h c
    by_cases hc : c.takesOut pid = true
    · -- The first command that takes the record out is a removal.
      have hrem : c = .remove pid := by
        cases c with
        | remove k => rw [of_decide_eq_true hc]
        | rollback k =>
          obtain rfl := of_decide_eq_true hc
          exact absurd (List.find?_cons_of_pos hc) hn
        | _ => cases hc
      subst hrem
      have hs := Spent.after h' hw' hu.2 (hp.removed_spent h hr)
      exact .inr hs
    · have hkept := hp.registered h (Bool.eq_false_iff.2 hc) hr
      refine ih h' hw' hu.2 hkept fun hrest => hn ?_
      exact (List.find?_cons_of_neg hc).trans hrest

/-- A registered process that is not rolled back stays below the counter. -/
theorem lt_next_after (hu : t.Unrecycled later) (hr : (t.get? pid).isSome = true)
    (hn : ¬ RolledBack pid later) : pid.number < (t.after later).pids.next := by
  have ht := (h.after hw later).1
  rw [UInt32.lt_iff_toNat_lt]
  rcases registered_or_spent h hw hu hr hn with hr | hs
  · exact (ht.allotted.below pid).2 (.inl hr)
  · exact hs.2

/-- A number that is handed out for good is not handed out again. -/
theorem granted_ne {mid rest : List Command} {parent parent' : Option Pid} {name name' : String}
    (hu : t.Unrecycled (.allocate parent name :: (mid ++ .allocate parent' name' :: rest)))
    (hg : (t.perform (.allocate parent name)).1 = .allocated (.ok pid))
    (hg' : ((t.after (.allocate parent name :: mid)).perform (.allocate parent' name')).1 =
      .allocated (.ok k))
    (hn : ¬ RolledBack pid mid) : pid ≠ k := by
  have hp := perform_performed h hw (.allocate parent name)
  have h' := h.perform hw (.allocate parent name)
  have hw' := hw.perform h (.allocate parent name)
  obtain ⟨hu, hu'⟩ := unrecycled_append.1 hu.2
  have hlt := lt_next_after h' hw' hu (hp.granted h hg).1 hn
  obtain ⟨hm, hmw, -⟩ := h'.after hw' mid
  have hp' := perform_performed hm hmw (.allocate parent' name')
  -- The second number is the counter, and the first one is below it.
  have hk := (hp'.granted hm hg').2.2 (hu'.1 k (congrArg Reply.pid? hg'))
  rintro rfl
  rw [hk] at hlt
  exact UInt32.lt_irrefl _ hlt

/-- What a place in a stretch of commands is like: the table is in order before the command and
after it, and the rest is a stretch. -/
theorem at_place {earlier : List Command} (hu : t.Unrecycled (earlier ++ c :: later)) :
    (t.after earlier).Represented ∧ Performed (t.after earlier) c ((t.after earlier).perform c) ∧
      ((t.after earlier).perform c).2.Represented ∧ ((t.after earlier).perform c).2.Unawaited ∧
      ((t.after earlier).perform c).2.Unrecycled later ∧
      t.after (earlier ++ c :: later) = ((t.after earlier).perform c).2.after later := by
  obtain ⟨h', hw', -⟩ := h.after hw earlier
  exact ⟨h', perform_performed h' hw' c, h'.perform hw' c, hw'.perform h' c,
    (unrecycled_append.1 hu).2.2, after_append ..⟩

/-- Two allocations that are never rolled back hand out different PIDs. -/
theorem Grants.ne {later' : List Command} (hu : t.Unrecycled commands)
    (hg : t.Grants commands pid later) (hg' : t.Grants commands k later') (hne : later ≠ later')
    (hn : ¬ RolledBack pid later) (hn' : ¬ RolledBack k later') : pid ≠ k := by
  obtain ⟨a, p, n, ha, hg⟩ := hg
  obtain ⟨b, p', n', hb, hg'⟩ := hg'
  rcases split_cases (ha.symm.trans hb) hne with ⟨mid, rfl, rfl⟩ | ⟨mid, rfl, rfl⟩
  · subst ha
    obtain ⟨h', hw', -⟩ := h.after hw a
    rw [after_append] at hg'
    exact granted_ne h' hw' (unrecycled_append.1 hu).2 hg hg' fun hr => hn (hr.append _)
  · subst hb
    obtain ⟨h', hw', -⟩ := h.after hw b
    rw [after_append] at hg
    exact (granted_ne h' hw' (unrecycled_append.1 hu).2 hg' hg fun hr => hn' (hr.append _)).symm

/-- A PID that is never rolled back stays below the counter. -/
theorem Grants.lt_next (hu : t.Unrecycled commands) (hg : t.Grants commands pid later)
    (hn : ¬ RolledBack pid later) : pid.number < (t.after commands).pids.next := by
  obtain ⟨a, p, n, rfl, hg⟩ := hg
  obtain ⟨h', hp, h'', hw'', hu'', hafter⟩ := at_place h hw hu
  rw [hafter]
  exact lt_next_after h'' hw'' hu'' (hp.granted h' hg).1 hn

/-- A number whose record was removed stays spent. -/
theorem Removes.spent (hu : t.Unrecycled commands) (hg : t.Removes commands pid later) :
    (t.after commands).Spent pid := by
  obtain ⟨a, r, rfl, hg⟩ := hg
  obtain ⟨h', hp, h'', hw'', hu'', hafter⟩ := at_place h hw hu
  rw [hafter]
  exact Spent.after h'' hw'' hu'' (hp.removed_spent h' (hp.of_taken hg))

end sequences

/-- In a stretch without recycled numbers: two allocations that are never rolled back hand out
different PIDs; a PID that is not rolled back stays below the counter; and a PID whose record was
removed is registered no more, so that every join of it is refused. The beginnings of a stretch are
stretches, so this holds at every moment of it. -/
theorem unrecycled_distinct (capacity : Nat) (range : PidRange) (commands : List Command)
    (hu : (new capacity range).Unrecycled commands) :
    let t := new capacity range
    (∀ pid pid' later later', t.Grants commands pid later → t.Grants commands pid' later' →
      later ≠ later' → ¬ RolledBack pid later → ¬ RolledBack pid' later' → pid ≠ pid') ∧
    (∀ pid later, t.Grants commands pid later → ¬ RolledBack pid later →
      pid.number < (t.after commands).pids.next) ∧
    ∀ pid later, t.Removes commands pid later → (t.after commands).get? pid = none ∧
      ∀ k : Kernel, k.table = t.after commands → ∀ caller task, ∃ effects,
        (Join.new caller pid task).step k =
          (k, effects, ⟨caller, pid, task, .finished (.error .invalidJoin)⟩) := by
  have h := represented_new capacity range
  have hw := unawaited_new capacity range
  refine ⟨fun pid pid' later later' hg hg' hne hn hn' => hg.ne h hw hu hg' hne hn hn',
    fun pid later hg hn => hg.lt_next h hw hu hn, fun pid later hg => ?_⟩
  have hgone := (hg.spent h hw hu).1
  exact ⟨hgone, fun k hk caller task => (h.after hw commands).1.join_eq hgone hk caller task⟩

/-- Two launches are under way at once and fail, the older one first. The next one gets the number
of the younger one, ends and is collected. -/
def failedLaunches : List Command :=
  [.allocate none "init", .allocate (some .root) "a", .allocate (some .root) "b", .rollback ⟨1⟩,
    .rollback ⟨2⟩, .allocate (some .root) "c", .markExited ⟨2⟩ .abnormal, .remove ⟨2⟩,
    .allocate (some .root) "d"]

/-- The collected number is not handed out again. -/
theorem failedLaunches_distinct :
    let t := new 8 .standard
    t.Unrecycled failedLaunches ∧ ∃ pid later later', t.Grants failedLaunches ⟨2⟩ later ∧
      ¬ RolledBack ⟨2⟩ later ∧ t.Grants failedLaunches pid later' ∧ ⟨2⟩ ≠ pid ∧
      (⟨2⟩ : Pid).number < (t.after failedLaunches).pids.next ∧
      (t.after failedLaunches).get? ⟨2⟩ = none := by
  have hu : (new 8 .standard).Unrecycled failedLaunches := by decide
  obtain ⟨hne, hlt, hgone⟩ := unrecycled_distinct 8 .standard failedLaunches hu
  have hc : (new 8 .standard).Grants failedLaunches ⟨2⟩ (failedLaunches.drop 6) :=
    ⟨failedLaunches.take 5, some .root, "c", rfl, by decide⟩
  have hd : (new 8 .standard).Grants failedLaunches ⟨3⟩ [] :=
    ⟨failedLaunches.take 8, some .root, "d", rfl, by decide⟩
  have hr : (new 8 .standard).Removes failedLaunches ⟨2⟩ (failedLaunches.drop 8) :=
    ⟨failedLaunches.take 7, _, rfl, rfl⟩
  have hn : ¬ RolledBack ⟨2⟩ (failedLaunches.drop 6) := by decide
  exact ⟨hu, ⟨3⟩, _, _, hc, hn, hd, hne _ _ _ _ hc hd (by decide) hn (by decide),
    hlt _ _ hc hn, (hgone _ _ hr).1⟩

end Table

end Lifecycle
