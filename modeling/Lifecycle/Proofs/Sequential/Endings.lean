import Mathlib.Data.List.Basic
import Lifecycle.Memory.Bytes
import Lifecycle.Proofs.ListLemmas
import Lifecycle.Proofs.Sequential.Failures
import Lifecycle.Proofs.Traffic.Idleness

/-!
# Processes end in any order

Several processes end, each with its own status.

* `Record.fate`: what becomes of one record. It does not depend on the order of the ends
  (`Table.Departs.fate` adds one process to those that end).
* `Books.Endings`: what the ends of all of them do, told from the books before.
* `Books.Reached.endings_commute`: two orders lead to the same books, and to which (`Converge`).
-/

namespace Lifecycle

/-- What becomes of the record `r` of `k` when the processes end that have a status in `s`. If the
parent is one of them, the record goes with the end of its own process, before or after, and is an
orphan else. If it is not, the record keeps the status for the parent, and goes if there is none. -/
def Record.fate (s : Pid → Option ExitStatus) (k : Pid) (r : Record) : Option Record :=
  if r.parent.any fun p => (s p).isSome then
    if (s k).isSome then none else r.orphaned
  else match s k with
    | none => some r
    | some status => r.parent.map fun _ => r.ended status

namespace Table

variable {t t' : Table} {pid k : Pid} {r : Record} {status : ExitStatus}
  {s s' : Pid → Option ExitStatus}

/-- The process `pid` ends first, and then those of `s`. -/
theorem Departs.fate (hd : Departs t pid status r t') (h : t.Forest) (hs : s pid = none)
    (hs' : ∀ k, s' k = if pid = k then some status else s k) (k : Pid) :
    (t'.get? k).bind (Record.fate s k) = (t.get? k).bind (Record.fate s' k) := by
  rw [hd.get?]
  by_cases e : pid = k
  · -- Its own record: it stays as long as the parent does.
    subst e
    rw [if_pos rfl, hd.was]
    cases hp : r.parent with
    | none => simp [Record.fate, hp, hs']
    | some p =>
      have ne : pid ≠ p := (h.parent_ne ⟨r, hd.was, hp⟩).symm
      cases hsp : s p with
      | none => simp [Record.fate, Record.ended, hp, hs, hs', hsp, ne]
      | some =>
        simp [Record.fate, Record.ended, Record.orphaned, Record.isExited, hp, hs, hs', hsp, ne]
  rw [if_neg e]
  have hk : s' k = s k := by rw [hs', if_neg e]
  cases hq : t.get? k with
  | none => simp
  | some q =>
    by_cases hp : q.parent = some pid
    · -- A child of it.
      rw [if_pos ((hd.has_iff h).2 ⟨q, hq, hp⟩)]
      have hself : s' pid = some status := by rw [hs', if_pos rfl]
      cases hsk : s k <;> cases he : q.isExited <;>
        simp [Record.fate, Record.orphaned, hp, hself, hk, hsk, he]
    · have hc : ¬ r.children.has k = true := by
        intro hc
        obtain ⟨q', hq', hp'⟩ := (hd.has_iff h).1 hc
        rw [hq] at hq'; cases hq'
        exact hp hp'
      have hany : (q.parent.any fun p => (s' p).isSome) = q.parent.any fun p => (s p).isSome := by
        cases hqp : q.parent with
        | none => rfl
        | some p =>
          have ne : pid ≠ p := fun e => hp (by rw [hqp, e])
          rw [Option.any_some, Option.any_some, hs', if_neg ne]
      rw [if_neg hc, Option.bind_some, Option.bind_some, Record.fate, Record.fate, hany, hk]

/-- The others go on, and whoever waits for one of them still does. -/
theorem Departs.others (hd : Departs t pid status r t') (ne : pid ≠ k) :
    (t'.running? k).isSome = (t.running? k).isSome ∧
    ((t.running? k).isSome = true →
      (t'.get? k).bind (·.waiter) = (t.get? k).bind (·.waiter)) := by
  rw [running?, running?, hd.get?, if_neg ne]
  split
  · cases hq : t.get? k with
    | none =>
      refine ⟨rfl, fun h => ?_⟩
      cases h
    | some q => cases he : q.isExited <;> simp_all [Record.orphaned, Record.isExited]
  · exact ⟨rfl, fun _ => rfl⟩

end Table

namespace Books

variable {μ : Type} [UserMemory μ] {config : Config} {range : PidRange} {w : Books} {a : Answers}
  {l l' : List (Pid × ExitStatus)}

/-- The end of a process with a status. It exits, or it is killed. -/
def ending (μ : Type) : Pid × ExitStatus → Invocation μ
  | (pid, .code code) => .exit pid code
  | (pid, .abnormal) => .kill pid

theorem invoke_ending (w : Books) (a : Answers) (pid : Pid) (status : ExitStatus) :
    w.invoke a (ending μ (pid, status)) = w.run a (.terminate ⟨pid, status, .departing⟩) := by
  cases status <;> rfl

/-- The tasks that wait for the ends. -/
def waiters (w : Books) (l : List (Pid × ExitStatus)) : List TaskId :=
  l.filterMap fun e => (w.kernel.table.get? e.1).bind (·.waiter)

/-- What the ends of the processes of `l` do, one after another (module doc). -/
structure Endings (config : Config) (range : PidRange) (w : Books) (l : List (Pid × ExitStatus))
    (out : List (Option Ended) × Books) : Prop where
  answers : out.1 = l.map fun e => some (.terminated e.2 (.ok ()))
  get? : ∀ k, out.2.kernel.table.get? k = (w.kernel.table.get? k).bind (Record.fate (l.lookup ·) k)
  woken : out.2.woken = w.woken ++ w.waiters l
  halts : out.2.halts =
    if l ≠ [] ∧ out.2.kernel.table.running = 0 ∧ config.haltWhenIdle then w.halts + 1 else w.halts
  standing : out.2.Standing config range
  nothing : l = [] → out.2 = w

section cons

variable {pid : Pid} {status : ExitStatus} {r : Record} {t : Table}
  {out : List (Option Ended) × Books}
  (h : w.Standing config range) (hd : Table.Departs w.kernel.table pid status r t)
  (hpid : pid ∉ l.map Prod.fst) (hr : ∀ e ∈ l, (w.kernel.table.running? e.1).isSome = true)
include hd hpid hr

/-- The processes that end later still run. -/
theorem running_departed : ∀ e ∈ l, (t.running? e.1).isSome = true := fun e he =>
  (hd.others fun hk => hpid (hk ▸ List.mem_map_of_mem he)).1.trans (hr e he)

theorem waiters_departed :
    w.waiters ((pid, status) :: l) = r.waiter.toList ++ (w.departed r t).waiters l := by
  have hl : (w.departed r t).waiters l = w.waiters l := List.filterMap_congr fun e he =>
    (hd.others fun hk => hpid (hk ▸ List.mem_map_of_mem he)).2 (hr e he)
  rw [hl, waiters, List.filterMap_cons, hd.was]
  cases hw : r.waiter <;> simp [hw, waiters]

include h

/-- The process `pid` ends first. -/
theorem Endings.cons (ih : Endings config range (w.departed r t) l out) :
    Endings config range w ((pid, status) :: l)
      (some (.terminated status (.ok ())) :: out.1, out.2) where
  answers := by rw [ih.answers, List.map_cons]
  get? k := by
    rw [ih.get?]
    refine hd.fate h.ready.sound.forest ?_ (fun k => ?_) k
    · refine List.lookup_eq_none_iff.2 fun e he => ?_
      exact bne_iff_ne.2 fun hk => hpid (hk ▸ List.mem_map_of_mem he)
    · rw [List.lookup_cons]
      by_cases e : pid = k
      · simp [e]
      · rw [if_neg e, beq_eq_false_iff_ne.2 (Ne.symm e)]
  woken := by
    rw [ih.woken, waiters_departed hd hpid hr]
    exact List.append_assoc ..
  halts := by
    have hc : w.kernel.config = config := h.ready.config_eq
    rw [ih.halts]
    cases l with
    | nil =>
      simp [ih.nothing rfl, departed, hc]
    | cons e rest =>
      -- The machine is halted only after the last end.
      have hpos : t.running ≠ 0 := by
        obtain ⟨q, hq⟩ := Option.isSome_iff_exists.1 (running_departed hd hpid hr e (.head _))
        obtain ⟨hq, hs⟩ := Table.running?_eq_some_iff.1 hq
        exact Nat.ne_of_gt (hd.counted.running_pos hq (by rw [Record.isExited, hs]; rfl))
      simp [departed, hpos]
  standing := ih.standing
  nothing hl := nomatch hl

end cons

theorem Standing.endings (h : w.Standing config range) (hn : (l.map Prod.fst).Nodup)
    (hr : ∀ e ∈ l, (w.kernel.table.running? e.1).isSome = true) :
    Endings config range w l (w.invokeAll a (l.map (ending μ))) := by
  induction l generalizing w with
  | nil =>
    refine ⟨rfl, fun k => ?_, (List.append_nil _).symm, (if_neg fun h => h.1 rfl).symm, h,
    fun _ => rfl⟩
    show w.kernel.table.get? k = _
    cases w.kernel.table.get? k with
    | none => rfl
    | some r => cases hp : r.parent <;> simp [Record.fate, hp]
  | cons e rest ih =>
    obtain ⟨pid, status⟩ := e
    obtain ⟨hpid, hrest⟩ := List.nodup_cons.1 hn
    obtain ⟨r, hpr⟩ := Option.isSome_iff_exists.1 (hr _ (.head _))
    obtain ⟨t, hd, hrun⟩ := h.run_terminate (a := a) status hpr
    have hr : ∀ e ∈ rest, (w.kernel.table.running? e.1).isSome = true := fun e he =>
      hr e (.tail _ he)
    rw [List.map_cons, invokeAll, invoke_ending, hrun]
    exact .cons h hd hpid hr
      (ih ((Done.departed hd).standing h) hrest (running_departed hd hpid hr))

/-- The same records, and all that goes with them. The same tasks were woken, in some order. -/
structure Agrees (w w' : Books) : Prop where
  records : w'.kernel.table.records = w.kernel.table.records
  running : w'.kernel.table.running = w.kernel.table.running
  pages : w'.pages = w.pages
  available : ∀ pid, w'.kernel.table.pids.Available pid ↔ w.kernel.table.pids.Available pid
  woken : w'.woken.Perm w.woken

theorem Endings.agrees {out out' : List (Option Ended) × Books}
    (h : Endings config range w l out) (h' : Endings config range w l' out') (hp : l'.Perm l)
    (hn : (l.map Prod.fst).Nodup) : out.2.Agrees out'.2 := by
  have hr : out'.2.kernel.table.records = out.2.kernel.table.records := PidMap.ext fun k => by
    show out'.2.kernel.table.get? k = out.2.kernel.table.get? k
    rw [h.get?, h'.get?, funext (lookup_perm hp hn)]
  refine ⟨hr, ?_, ?_, h.standing.available_congr h'.standing hr, ?_⟩
  · rw [h.standing.ready.sound.counted, h'.standing.ready.sound.counted, hr]
  · rw [h.standing.balanced, h'.standing.balanced, Table.heldPages, Table.spaces, hr]
    rfl
  · rw [h.woken, h'.woken]
    exact (hp.filterMap _).append_left _

/-- What two orders `l` and `l'` of the same ends lead to from `w` on. All of them are granted. Each
record becomes what `Record.fate` says, and the tasks that waited for the ends are woken. The
machine is halted once if nobody runs any more, and else not at all. -/
structure Converge (w : Books) (l l' : List (Pid × ExitStatus))
    (out out' : List (Option Ended) × Books) : Prop where
  answers : out.1 = l.map fun e => some (.terminated e.2 (.ok ()))
  answers' : out'.1 = l'.map fun e => some (.terminated e.2 (.ok ()))
  get? : ∀ k, out.2.kernel.table.get? k = (w.kernel.table.get? k).bind (Record.fate (l.lookup ·) k)
  woken : out.2.woken = w.woken ++ w.waiters l
  agrees : out.2.Agrees out'.2
  halts : out'.2.halts = out.2.halts
  halted : out.2.kernel.table.Idle → w.kernel.config.haltWhenIdle = true →
    out.2.halts = w.halts + 1
  silent : ¬ (out.2.kernel.table.Idle ∧ w.kernel.config.haltWhenIdle = true) →
    out.2.halts = w.halts

/-- Processes that run may end in any order. -/
theorem Reached.endings_commute (h : Reached μ config range w) (hl : l ≠ [])
    (hn : (l.map Prod.fst).Nodup) (hr : ∀ e ∈ l, (w.kernel.table.running? e.1).isSome = true)
    (hp : l'.Perm l) (a a' : Answers) :
    w.Converge l l' (w.invokeAll a (l.map (ending μ))) (w.invokeAll a' (l'.map (ending μ))) := by
  have he : Endings config range w l (w.invokeAll a (l.map (ending μ))) :=
    h.standing.endings hn hr
  have he' : Endings config range w l' (w.invokeAll a' (l'.map (ending μ))) :=
    h.standing.endings ((hp.map _).nodup_iff.2 hn) fun e he => hr e (hp.mem_iff.1 he)
  have ha := he.agrees he' hp hn
  have hl' : l' ≠ [] := fun e => hl (List.nil_perm.1 (e ▸ hp))
  have hi := he.standing.ready.sound.counted.idle_iff
  refine ⟨he.answers, he'.answers, he.get?, he.woken, ha, ?_, fun hx hc => ?_, fun hx => ?_⟩
  · rw [he.halts, he'.halts, ha.running]
    simp [hl, hl']
  · exact he.halts.trans (if_pos ⟨hl, hi.1 hx, h.standing.ready.config_eq ▸ hc⟩)
  · exact he.halts.trans (if_neg fun hn =>
      hx ⟨hi.2 hn.2.1, h.standing.ready.config_eq ▸ hn.2.2⟩)

/-- The root process waits for its first child, which waits for its own child. The second child of
the root process has ended. -/
def waitingFamily : Books :=
  let calls : List (Invocation Bytes) := [.boot "init", .exec .root "child" 0,
    .exec .root "child" 0, .exec ⟨1⟩ "grandchild" 0, .exit ⟨2⟩ 5, .join .root ⟨1⟩ ⟨8⟩,
    .join ⟨1⟩ ⟨3⟩ ⟨9⟩]
  ((new { suffix := none } .standard).invokeAll ⟨.ok default, .ok ()⟩ calls).2

/-- How those that run end, the parents first. -/
def waitingFamilyEnds : List (Pid × ExitStatus) :=
  [(.root, .abnormal), (⟨1⟩, .code 4), (⟨3⟩, .code 0)]

theorem waitingFamily_converge :
    waitingFamily.Converge waitingFamilyEnds waitingFamilyEnds.reverse
      (waitingFamily.invokeAll ⟨.error .notFound, .ok ()⟩ (waitingFamilyEnds.map (ending Bytes)))
      (waitingFamily.invokeAll ⟨.error .notFound, .ok ()⟩
        (waitingFamilyEnds.reverse.map (ending Bytes))) :=
  Reached.endings_commute (μ := Bytes) (.invokeAll .start _ _) (by decide) (by decide) (by decide)
    waitingFamilyEnds.reverse_perm _ _

end Books

end Lifecycle
