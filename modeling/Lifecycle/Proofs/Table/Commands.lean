import Lifecycle.Proofs.Table.Allocation
import Lifecycle.Proofs.Table.Departure

/-!
# Commands to the table

The table has four commands that change which records it holds and in what state they are, and
nothing stops a caller from giving them in any order, with any PIDs: a parent may leave before its
children, a process may be rolled back while it runs. Such a table is no forest. What the commands
keep all the same is `Table.Represented`.

* `Table.perform`: one command. `Performed` is what it can do, and `perform_performed` says that
  the only check it may fail is that of a second exit status, which changes nothing.
* `Table.after`: the table after a sequence of commands.
* `after_represented`: every sequence from the empty table keeps the records, the count and the
  numbers in order, and an allocation fails only when it must.
-/

namespace Lifecycle

namespace Table

/-- A command to the table. -/
inductive Command where
  | allocate (parent : Option Pid) (name : String)
  | markExited (pid : Pid) (status : ExitStatus)
  | remove (pid : Pid)
  | rollback (pid : Pid)
deriving DecidableEq, Inhabited

/-- The PID of the record that the command is to change. -/
def Command.target? : Command → Option Pid
  | allocate _ _ => none
  | markExited pid _ => some pid
  | remove pid => some pid
  | rollback pid => some pid

/-- The answer to a command. -/
inductive Reply where
  | allocated (outcome : Outcome Pid)
  | took (taken : Taken)
deriving DecidableEq, Inhabited

/-- The check that failed, if one did. -/
def Reply.fault? : Reply → Option Fault
  | allocated (.faulted fault) => some fault
  | took (.faulted fault _) => some fault
  | _ => none

/-- Carries out a command. -/
def perform (t : Table) : Command → Reply × Table
  | .allocate parent name => let (outcome, t) := t.allocate parent name; (.allocated outcome, t)
  | .markExited pid status => let (taken, t) := t.markExited pid status; (.took taken, t)
  | .remove pid => let (taken, t) := t.remove pid; (.took taken, t)
  | .rollback pid => let (taken, t) := t.rollback pid; (.took taken, t)

/-- The table after a sequence of commands. -/
def after (t : Table) (commands : List Command) : Table :=
  commands.foldl (fun t c => (t.perform c).2) t

/-- The records, the count and the numbers are in order (module doc). -/
structure Represented (t : Table) : Prop where
  own : ∀ {k r}, t.get? k = some r → r.pid = k
  counted : t.Counted
  allotted : t.Allotted
  child : ∀ {p k}, t.HasChild p k → t.HasParent k p
  room : t.count ≤ t.capacity

/-- No task waits for the end of a process. -/
def Unawaited (t : Table) : Prop := ∀ k r, t.get? k = some r → r.waiter = none

/-- What a command does: its answer, and the table it leaves. -/
inductive Performed (t : Table) : Command → Reply × Table → Prop where
  | refused {parent : Option Pid} {name : String} {e : ProcessError} :
      Performed t (.allocate parent name) (.allocated (.refused e), t)
  | allocated {parent : Option Pid} {name : String} {pid : Pid} {pids : PidAllocator} :
      t.pids.alloc = some (pid, pids) →
      (∀ p, parent = some p → ∃ r, t.get? p = some r ∧ r.state = .running) →
      t.count < t.capacity →
      Performed t (.allocate parent name)
        (.allocated (.ok pid), t.admitted pids (.new pid parent name))
  | absent {c : Command} {pid : Pid} : c.target? = some pid → t.get? pid = none →
      Performed t c (.took .absent, t)
  | exited {pid : Pid} {status : ExitStatus} {r : Record} : t.get? pid = some r →
      r.isExited = true →
      Performed t (.markExited pid status) (.took (.faulted (.statusWrittenTwice r.pid) r), t)
  | marked {pid : Pid} {status : ExitStatus} {r : Record} : t.get? pid = some r →
      r.state = .running →
      Performed t (.markExited pid status)
        (.took (.taken { r with state := .exited status }), t.marked pid r status)
  | removed {pid : Pid} {r : Record} : t.get? pid = some r →
      Performed t (.remove pid) (.took (.taken r), t.removed pid r)
  | rolledBack {pid : Pid} {r : Record} : t.get? pid = some r →
      Performed t (.rollback pid) (.took (.taken r), t.rolledBack pid r)

variable {t : Table} {k p pid : Pid} {r : Record} {pids : PidAllocator} {c : Command}
  {reply : Reply} {t' : Table}

/-- There are no other cases. -/
theorem perform_performed (h : t.Represented) (hw : t.Unawaited) (c : Command) :
    Performed t c (t.perform c) := by
  cases c with
  | allocate parent name =>
    simp only [perform]
    rcases allocate_eq h.allotted parent name with ⟨e, he⟩ | ⟨pid, pids, ha, hp, he⟩
    · rw [he]
      exact .refused
    · rw [he]
      exact .allocated ha hp (allocate_ok he).2
  | markExited pid status =>
    simp only [perform]
    cases hr : t.get? pid with
    | none =>
      simp only [markExited, hr]
      exact .absent rfl hr
    | some r =>
      by_cases hex : r.isExited = true
      · simp only [markExited, hr, Record.setExited, if_pos hex]
        exact .exited hr hex
      · have hs := ProcessState.isExited_eq_false_iff.1 (Bool.eq_false_iff.2 hex)
        rw [markExited_eq h.counted hr hs]
        exact .marked hr hs
  | remove pid =>
    simp only [perform]
    cases hr : t.get? pid with
    | none =>
      simp only [remove, unlink, hr]
      exact .absent rfl hr
    | some r =>
      rw [remove_eq h.counted hr (hw pid r hr)]
      exact .removed hr
  | rollback pid =>
    simp only [perform]
    cases hr : t.get? pid with
    | none =>
      simp only [rollback, unlink, hr]
      exact .absent rfl hr
    | some r =>
      rw [rollback_eq h.counted hr (hw pid r hr)]
      exact .rolledBack hr

/-! ## The number of records -/

theorem count_admitted (hf : t.get? r.pid = none) : (t.admitted pids r).count = t.count + 1 := by
  have hi : (t.records.insert r.pid r).size = t.count + 1 := PidMap.size_insert hf r
  unfold admitted register
  cases r.parent with
  | none => exact hi
  | some p => exact (PidMap.size_adjust ..).trans hi

theorem count_withdraw_le (t : Table) (pid : Pid) (r : Record) :
    (t.withdraw pid r).count ≤ t.count := by
  have he := PidMap.size_erase_le t.records pid
  unfold withdraw forgetChild
  cases r.parent with
  | none => exact he
  | some p => exact Nat.le_trans (Nat.le_of_eq (PidMap.size_adjust ..)) he

/-! ## One command -/

/-- Without the record of `pid`, whatever becomes of its number. -/
theorem Represented.withdraw (h : t.Represented) (hr : t.get? pid = some r)
    (ha : ({ t.withdraw pid r with pids := pids } : Table).Allotted) :
    ({ t.withdraw pid r with pids := pids } : Table).Represented where
  own {k q} hk := by
    have hk : (t.withdraw pid r).get? k = some q := hk
    rw [get?_withdraw] at hk
    split at hk
    · cases hk
    · obtain ⟨q₀, hq₀, rfl⟩ := Option.map_eq_some_iff.1 hk
      exact relink_pid.trans (h.own hq₀)
  counted := h.counted.withdraw hr
  allotted := ha
  child {p k} hc := by
    obtain ⟨-, hc, hn⟩ := hasChild_withdraw.1 (show (t.withdraw pid r).HasChild p k from hc)
    refine (hasParent_withdraw (t := t) (r := r)).2 ⟨fun e => ?_, h.child hc⟩
    -- The record taken out was struck off the child set of its parent.
    subst e
    obtain ⟨q, hq, hp⟩ := h.child hc
    obtain rfl := Option.some.inj (hr.symm.trans hq)
    exact hn ⟨hp, rfl⟩
  room := by
    show (t.withdraw pid r).count ≤ (t.withdraw pid r).capacity
    rw [(t.sameBounds_withdraw pid r).capacity]
    exact Nat.le_trans (count_withdraw_le t pid r) h.room

theorem Represented.admitted {parent : Option Pid} {name : String} (h : t.Represented)
    (ha : t.pids.alloc = some (pid, pids))
    (hp : ∀ p, parent = some p → ∃ q, t.get? p = some q ∧ q.state = .running)
    (hc : t.count < t.capacity) : (t.admitted pids (.new pid parent name)).Represented := by
  have hf : t.get? pid = none := h.allotted.alloc ha
  have hne : parent ≠ some pid := h.allotted.parent_ne ha hp
  refine ⟨fun hk => ?_, h.counted.admitted hf rfl, h.allotted.admitted ha hne, fun hk => ?_, ?_⟩
  · rw [get?_admitted t pids _ hne] at hk
    split at hk
    · next e => cases hk; exact e
    · obtain ⟨q, hq, rfl⟩ := Option.map_eq_some_iff.1 hk
      exact relink_pid.trans (h.own hq)
  · rcases (hasChild_admitted (r := .new pid parent name) hf hne rfl).1 hk with hk | ⟨hpar, hk, -⟩
    · exact (hasParent_admitted (r := .new pid parent name) hf hne).2 (.inr (h.child hk))
    · exact (hasParent_admitted (r := .new pid parent name) hf hne).2 (.inl ⟨hk, hpar⟩)
  · rw [count_admitted (r := .new pid parent name) hf, capacity_admitted]
    exact hc

theorem Represented.marked {status : ExitStatus} (h : t.Represented) (hr : t.get? pid = some r)
    (hs : r.state = .running) : (t.marked pid r status).Represented where
  own {k q} hk := by
    rw [get?_marked hr] at hk
    split at hk
    · next e => cases hk; exact (h.own hr).trans e
    · exact h.own hk
  counted := h.counted.ended hr hs rfl
  allotted := h.allotted.congr rfl fun k => by
    rw [get?_marked hr]
    split
    · next e => rw [← e, hr]; rfl
    · rfl
  child {p k} hc := by
    have hparent : ∀ a b, t.HasParent a b → (t.marked pid r status).HasParent a b := by
      rintro a b ⟨q, hq, hb⟩
      by_cases e : pid = a
      · subst e
        obtain rfl := Option.some.inj (hr.symm.trans hq)
        exact ⟨{ r with state := .exited status }, by rw [get?_marked hr, if_pos rfl], hb⟩
      · exact ⟨q, by rw [get?_marked hr, if_neg e, hq], hb⟩
    obtain ⟨q, hq, hk⟩ := hc
    rw [get?_marked hr] at hq
    split at hq
    · next e => cases hq; exact hparent k p (h.child ⟨r, e ▸ hr, hk⟩)
    · exact hparent k p (h.child ⟨q, hq, hk⟩)
  room := by
    show (t.records.adjust pid _).size ≤ t.capacity
    rw [PidMap.size_adjust]
    exact h.room

/-- A command keeps the table in order. -/
theorem Represented.performed (h : t.Represented) (hp : Performed t c (reply, t')) :
    t'.Represented := by
  cases hp with
  | refused | absent | exited => exact h
  | allocated ha hpar hc => exact h.admitted ha hpar hc
  | marked hr hs => exact h.marked hr hs
  | removed hr => exact h.withdraw hr (h.allotted.removed hr)
  | rolledBack hr => exact h.withdraw hr (h.allotted.rolledBack hr)

/-- No command makes a task wait. -/
theorem Unawaited.performed (h : t.Represented) (hw : t.Unawaited)
    (hp : Performed t c (reply, t')) : t'.Unawaited := by
  intro k q hq
  cases hp with
  | refused | absent | exited => exact hw k q hq
  | allocated ha hpar =>
    rw [get?_admitted t _ k (h.allotted.parent_ne ha hpar)] at hq
    split at hq
    · cases hq; rfl
    · obtain ⟨q₀, hq₀, rfl⟩ := Option.map_eq_some_iff.1 hq
      exact relink_waiter.trans (hw k q₀ hq₀)
  | @marked _ _ r hr =>
    rw [get?_marked hr] at hq
    split at hq
    · cases hq
      show r.waiter = none
      exact hw _ r hr
    · exact hw k q hq
  | removed | rolledBack =>
    simp only [get?_removed, get?_rolledBack, get?_withdraw] at hq
    split at hq
    · cases hq
    · obtain ⟨q₀, hq₀, rfl⟩ := Option.map_eq_some_iff.1 hq
      exact relink_waiter.trans (hw k q₀ hq₀)

/-- A command leaves the limits of the table as they are. -/
theorem Performed.limits (hp : Performed t c (reply, t')) :
    t'.capacity = t.capacity ∧ t'.pids.range = t.pids.range := by
  cases hp with
  | refused | absent | exited | marked => exact ⟨rfl, rfl⟩
  | allocated ha =>
    exact ⟨capacity_admitted, by rw [pids_admitted, PidAllocator.range_alloc ha]⟩
  | @removed pid r =>
    exact ⟨(t.sameBounds_removed pid r).capacity, rfl⟩
  | @rolledBack pid r =>
    exact ⟨(t.sameBounds_withdraw pid r).capacity, PidAllocator.range_unreserve _ _⟩

/-- The only check that may fail is that of a second exit status. -/
theorem Performed.fault {fault : Fault} (hp : Performed t c (reply, t'))
    (hf : reply.fault? = some fault) :
    ∃ pid status r, c = .markExited pid status ∧ t.get? pid = some r ∧ r.isExited = true ∧
      fault = .statusWrittenTwice r.pid ∧ t' = t := by
  cases hp with
  | exited hr hex =>
    cases hf
    exact ⟨_, _, _, rfl, hr, hex, rfl, rfl⟩
  | _ => cases hf

/-! ## Sequences of commands -/

theorem Represented.perform (h : t.Represented) (hw : t.Unawaited) (c : Command) :
    (t.perform c).2.Represented := h.performed (perform_performed h hw c)

theorem Unawaited.perform (h : t.Represented) (hw : t.Unawaited) (c : Command) :
    (t.perform c).2.Unawaited := hw.performed h (perform_performed h hw c)

/-- A sequence of commands keeps the table in order, and its limits. -/
theorem Represented.after (h : t.Represented) (hw : t.Unawaited) (commands : List Command) :
    (t.after commands).Represented ∧ (t.after commands).Unawaited ∧
      (t.after commands).capacity = t.capacity ∧
      (t.after commands).pids.range = t.pids.range := by
  induction commands generalizing t with
  | nil => exact ⟨h, hw, rfl, rfl⟩
  | cons c rest ih =>
    have hl := (perform_performed h hw c).limits
    obtain ⟨h', hw', hc, hr⟩ := ih (h.perform hw c) (hw.perform h c)
    exact ⟨h', hw', hc.trans hl.1, hr.trans hl.2⟩

theorem represented_new (capacity : Nat) (range : PidRange) : (new capacity range).Represented where
  own := fun h => nomatch h
  counted := rfl
  allotted := (sound_new capacity range).allotted
  child := fun ⟨_, h, _⟩ => nomatch h
  room := Nat.zero_le _

theorem unawaited_new (capacity : Nat) (range : PidRange) : (new capacity range).Unawaited :=
  fun _ _ h => nomatch h

/-- An allocation under a running parent, or without one, that finds room succeeds, unless every
number of the range is the PID of a record. -/
theorem Represented.allocate_total (h : t.Represented) {parent : Option Pid} (name : String)
    (hp : ∀ p, parent = some p → ∃ r, t.get? p = some r ∧ r.state = .running)
    (hc : t.count < t.capacity) :
    (∃ pid t', t.allocate parent name = (.ok pid, t')) ∨
      ∀ k, t.pids.range.Contains k → (t.get? k).isSome = true := by
  rcases allocate_eq h.allotted parent name with ⟨e, he⟩ | ⟨pid, pids, -, -, he⟩
  · refine .inr fun k hk => ?_
    have hpar : ¬ parent.any (fun p => (t.running? p).isNone) = true := by
      cases parent with
      | none => simp
      | some p =>
        obtain ⟨r, hr⟩ := hp p rfl
        simp [running?_eq_some_iff.2 hr]
    have hwhy := allocate_refused h.allotted he
    rw [if_neg hpar] at hwhy
    have hfull := hwhy.2.resolve_left (Nat.not_le.2 hc)
    obtain ⟨hnext, hrec⟩ := PidAllocator.alloc_eq_none_iff.1 (h.allotted.alloc_eq_none_iff.2 hfull)
    have hlt : k.number.toNat < t.pids.next.toNat :=
      Nat.lt_of_le_of_lt (UInt32.le_iff_toNat_le.1 hk) (UInt32.lt_iff_toNat_lt.1 hnext)
    refine ((h.allotted.below k).1 hlt).resolve_right ?_
    rw [hrec]
    exact List.not_mem_nil
  · exact .inl ⟨pid, _, he⟩

/-- After any sequence of commands the table is in order; the only check that a further command may
fail is that of a second exit status, which changes nothing; an allocation hands out the PID of no
record; and one that finds room, for no parent or a running one, fails only if every number of the
range is the PID of a record. -/
theorem after_represented (capacity : Nat) (range : PidRange) (commands : List Command) :
    let t := (new capacity range).after commands
    t.Represented ∧ t.capacity = capacity ∧ t.pids.range = range ∧
    (∀ c fault, (t.perform c).1.fault? = some fault →
      ∃ pid status r, c = .markExited pid status ∧ t.get? pid = some r ∧ r.isExited = true ∧
        fault = .statusWrittenTwice pid ∧ (t.perform c).2 = t) ∧
    (∀ parent name pid t', t.allocate parent name = (.ok pid, t') →
      t.get? pid = none ∧ range.Contains pid) ∧
    ∀ parent name, (∀ p, parent = some p → ∃ r, t.get? p = some r ∧ r.state = .running) →
      t.count < capacity → (∃ pid t', t.allocate parent name = (.ok pid, t')) ∨
        ∀ k, range.Contains k → (t.get? k).isSome = true := by
  obtain ⟨h, hw, hc, hr⟩ :=
    (represented_new capacity range).after (unawaited_new capacity range) commands
  have hr : ((new capacity range).after commands).pids.range = range := hr
  refine ⟨h, hc, hr, fun c fault hf => ?_, fun parent name pid t' he => ?_,
    fun parent name hp hroom => ?_⟩
  · obtain ⟨pid, status, r, rfl, hg, hex, rfl, ht⟩ := (perform_performed h hw c).fault hf
    exact ⟨pid, status, r, rfl, hg, hex, by rw [h.own hg], ht⟩
  · rcases allocate_eq h.allotted parent name with ⟨e, he'⟩ | ⟨pid', pids, ha, -, he'⟩
    · rw [he] at he'
      cases he'
    · rw [he] at he'
      cases he'
      exact ⟨h.allotted.alloc ha, hr ▸ h.allotted.contains ha⟩
  · have htotal := h.allocate_total name hp (Nat.lt_of_lt_of_eq hroom hc.symm)
    rw [hr] at htotal
    exact htotal

/-- When both numbers are used up, the larger one comes from the recycled ones and is rolled
back. -/
def rewoundTop : List Command :=
  [.allocate none "init", .allocate (some .root) "a", .markExited ⟨1⟩ .abnormal, .remove ⟨1⟩,
    .allocate (some .root) "b", .rollback ⟨1⟩]

/-- The counter hands that number out again. -/
theorem rewoundTop_represented :
    let t := (new 8 (.upTo 1)).after rewoundTop
    t.Represented ∧ t.pids.next = 1 ∧ t.pids.recycled = [] ∧
      ∃ pid t', t.allocate (some .root) "c" = (.ok pid, t') ∧ t.get? pid = none := by
  obtain ⟨h, -, -, -, hok, htotal⟩ := after_represented 8 (.upTo 1) rewoundTop
  have hp : ∀ p, some Pid.root = some p → ∃ r,
      ((new 8 (.upTo 1)).after rewoundTop).get? p = some r ∧ r.state = .running := by
    rintro p ⟨⟩
    exact ⟨_, rfl, rfl⟩
  refine ⟨h, rfl, rfl, ?_⟩
  rcases htotal (some .root) "c" hp (by decide) with ⟨pid, t', he⟩ | hall
  · exact ⟨pid, t', he, (hok _ _ _ _ he).1⟩
  · exact absurd (hall ⟨1⟩ (by decide)) (by decide)

end Table

end Lifecycle
