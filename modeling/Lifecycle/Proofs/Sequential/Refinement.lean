import Lifecycle.Proofs.Sequential.Reference

/-!
# The kernel refines the reference model

`Table.tree` is what the reference model holds of a table. A change of the table does to it what an
operation of the model does: `tree_admitted`, `tree_removed`, `tree_departs`.

* `Table.Shows`: what the table shows of its processes is a given tree.
* `Session.Lockstep`: a session answers a list of commands as the reference model does, and shows
  its tree before and after each of them.
* `Session.boot_lockstep`: every list of commands is answered so after the launch of the root
  process.
-/

namespace Lifecycle

open ProcessTree (Node)

/-- What the reference model holds of a record. -/
def Record.node (r : Record) : Node := ⟨r.parent, r.status?, r.children⟩

theorem Record.isRunning_node (r : Record) : r.node.isRunning = !r.isExited := by
  obtain ⟨_, _, _, s, _, _, _⟩ := r
  cases s <;> rfl

theorem Record.orphaned_node (r : Record) : r.node.orphaned = r.orphaned.map Record.node := by
  unfold ProcessTree.Node.orphaned Record.orphaned
  rw [r.isRunning_node]
  cases r.isExited <;> rfl

namespace Table

variable {t t' : Table} {k p pid caller child : Pid} {r : Record} {pids : PidAllocator}
  {status : ExitStatus} {m : ProcessTree}

/-- What the reference model holds of the table. -/
def tree (t : Table) : ProcessTree := t.records.map Record.node

theorem get?_tree (t : Table) (k : Pid) : t.tree.get? k = (t.get? k).map Record.node :=
  PidMap.get?_map _ _ _

theorem size_tree (t : Table) : t.tree.size = t.count := PidMap.size_map _ _

theorem runs_tree (t : Table) (pid : Pid) : t.tree.runs pid = (t.running? pid).isSome := by
  rw [ProcessTree.runs, get?_tree, running?]
  cases t.get? pid with
  | none => rfl
  | some r =>
    rw [Option.map_some, Option.any_some, r.isRunning_node, Option.filter_some]
    cases r.isExited <;> rfl

theorem isChild_tree (h : t.Forest) :
    t.tree.isChild caller child = true ↔ t.HasParent child caller := by
  rw [← h.child_iff, ProcessTree.isChild, get?_tree]
  cases hr : t.get? caller <;> simp [HasChild, hr, Record.node]

/-! ## The operations -/

theorem node_relink (g : PidSet → PidSet) : (relink (some p) g k r).node =
    if p = k then { r.node with children := g r.node.children } else r.node := by
  by_cases e : p = k
  · rw [relink, if_pos (congrArg some e), if_pos e]
    rfl
  · rw [relink_of_ne g e, if_neg e]

theorem tree_congr (h : t'.records = t.records) : t'.tree = t.tree := by
  rw [tree, h]
  rfl

/-- The model does not see the waiter, the address space and the name of a record. -/
theorem tree_adjust {f : Record → Record} (hf : Inner f) : (t.adjust pid f).tree = t.tree := by
  have hfn : Record.node ∘ f = Record.node := funext fun r => by
    simp only [Function.comp, Record.node, Record.status?, hf.parent, hf.state, hf.children]
  refine PidMap.ext fun k => ?_
  rw [get?_tree, get?_adjust, get?_tree]
  split
  · rw [Option.map_map, hfn]
  · rfl

theorem tree_admitted_root {name : String} :
    (t.admitted pids (.new pid none name)).tree = t.tree.insert pid ⟨none, none, .empty⟩ := by
  have hget : ∀ k, (t.admitted pids (.new pid none name)).get? k =
      if pid = k then some (.new pid none name) else (t.get? k).map (relink none (·.add pid) k) :=
    fun k => get?_admitted t pids k fun e => nomatch e
  refine PidMap.ext fun k => ?_
  rw [get?_tree, hget, PidMap.get?_insert, get?_tree]
  split
  · rfl
  · cases t.get? k <;> simp

theorem tree_admitted {parent : Pid} {name : String} (hp : parent ≠ pid) :
    (t.admitted pids (.new pid (some parent) name)).tree = t.tree.add parent pid := by
  have hget : ∀ k, (t.admitted pids (.new pid (some parent) name)).get? k =
      if pid = k then some (.new pid (some parent) name)
      else (t.get? k).map (relink (some parent) (·.add pid) k) :=
    fun k => get?_admitted t pids k fun e => hp (Option.some.inj e)
  refine PidMap.ext fun k => ?_
  rw [get?_tree, hget, ProcessTree.add, PidMap.get?_adjust, PidMap.get?_insert, get?_tree]
  by_cases e : pid = k
  · subst e
    rw [if_pos rfl, if_neg hp, if_pos rfl]
    rfl
  · rw [if_neg e, if_neg e]
    cases t.get? k with
    | none => simp
    | some r =>
      rw [Option.map_some, Option.map_some, node_relink]
      split <;> rfl

theorem tree_removed (hp : r.parent = some caller) :
    (t.removed child r).tree = t.tree.collect caller child := by
  refine PidMap.ext fun k => ?_
  rw [get?_tree, get?_removed, get?_withdraw, hp, ProcessTree.collect, PidMap.get?_adjust,
    PidMap.get?_erase, get?_tree]
  by_cases e : child = k
  · simp [e]
  · rw [if_neg e, if_neg e]
    cases t.get? k with
    | none => simp
    | some q =>
      rw [Option.map_some, Option.map_some, node_relink]
      split <;> rfl

theorem tree_departs (hd : Departs t pid status r t') (hc : r.children.has pid = false) :
    t'.tree = t.tree.terminate pid status := by
  have hn : t.tree.get? pid = some r.node := by rw [get?_tree, hd.was]; rfl
  refine PidMap.ext fun k => ?_
  rw [get?_tree, hd.get?, ProcessTree.get?_terminate hn hc, get?_tree]
  split
  · show (r.parent.map _).map Record.node = r.parent.map _
    cases hp : r.parent with
    | none => rfl
    | some p => exact congrArg (fun p => some (Node.mk p (some status) .empty)) hp
  · show Option.map Record.node (if r.children.has k = true then _ else _) =
      if r.children.has k = true then _ else _
    split
    · cases t.get? k with
      | none => rfl
      | some q => exact (Record.orphaned_node q).symm
    · rfl

/-- What the table shows of its processes is `m`: each of them, their number, and the number of
those that run. -/
structure Shows (t : Table) (m : ProcessTree) : Prop where
  lookup : ∀ pid, (t.get? pid).map Record.node = m.get? pid
  count : t.count = m.size
  running : t.running = m.tally Node.isRunning

theorem Counted.shows_tree (h : t.Counted) : t.Shows t.tree where
  lookup pid := (t.get?_tree pid).symm
  count := t.size_tree.symm
  running := by
    rw [h, tree, PidMap.tally_map]
    exact congrArg (PidMap.tally · t.records) (funext fun r => r.isRunning_node.symm)

end Table

namespace Session

variable {config : Config} {range : PidRange} {k k' : Kernel} {w : Session} {order : Order}
  {a : Answers} {result : Except ProcessError Pid}

/-- The invariant of a session. -/
structure Ready (config : Config) (range : PidRange) (k : Kernel) : Prop where
  sound : k.table.Sound
  config_eq : k.config = config
  capacity_eq : k.table.capacity = config.maxProcesses
  range_eq : k.table.pids.range = range

theorem Ready.withTable {t : Table} (h : Ready config range k) (hs : t.Sound)
    (hc : t.capacity = k.table.capacity) (hr : t.pids.range = k.table.pids.range) :
    Ready config range { k with table := t } :=
  ⟨hs, h.config_eq, hc.trans h.capacity_eq, hr.trans h.range_eq⟩

theorem Ready.abandoned (h : Ready config range k) : Ready config range (abandoned order k) := by
  refine ⟨?_, ?_, ?_, ?_⟩
  · rw [table_abandoned]; exact h.sound
  · rw [config_abandoned]; exact h.config_eq
  · rw [table_abandoned]; exact h.capacity_eq
  · rw [table_abandoned]; exact h.range_eq

theorem Launches.ready (hl : Launches k order a result k') (h : Ready config range k) :
    Ready config range k' := by
  cases hl with
  | refused => exact h.abandoned
  | undone ha hok _ hf =>
    have hp := (Table.allocate_ok hok).1
    refine Ready.abandoned (h.withTable (h.sound.undone _ ha hp hf) Table.capacity_undone ?_)
    exact Table.range_undone.trans (PidAllocator.range_alloc ha)
  | created ha hok _ =>
    have hp := (Table.allocate_ok hok).1
    refine h.withTable (Table.Sound.adjust_admitted _ h.sound ha hp (Table.inner_space _)) ?_ ?_
    · exact Table.capacity_admitted
    · exact (congrArg _ Table.pids_admitted).trans (PidAllocator.range_alloc ha)

/-! ## One command -/

section exec

variable {caller pid : Pid} {name : String} {argc : Int32} {task : TaskId} {t : Table}
  {pids : PidAllocator}

/-- A launch that the table admits is refused by the loader and the scheduler alone. -/
theorem Ready.refusal?_of_ok (h : Ready config range k) (hname : config.validateName name = .ok ())
    (hargc : ¬ argc < 0) (ha : k.table.pids.alloc = some (pid, pids))
    (hok : k.table.allocate (some caller) name = (.ok pid, t)) :
    k.table.tree.refusal? config range caller name argc a = a.failure? := by
  obtain ⟨hp, hc⟩ := Table.allocate_ok hok
  obtain ⟨r, hr⟩ := hp caller rfl
  have hroom : ¬ (config.maxProcesses ≤ k.table.count ∨
      range.largest.toNat < k.table.count) := by
    rw [← h.capacity_eq, ← h.range_eq, ← h.sound.allotted.alloc_eq_none_iff, ha]
    simpa using hc
  have hruns : (k.table.running? caller).isSome = true := by
    rw [Table.running?_eq_some_iff.2 hr]
    rfl
  simp only [ProcessTree.refusal?, hname, if_neg hargc, Table.runs_tree, hruns, Bool.not_true,
    Bool.false_eq_true, ↓reduceIte, Table.size_tree, if_neg hroom]

theorem Ready.refusal?_of_refused (h : Ready config range k) {e : ProcessError}
    (hname : config.validateName name = .ok ()) (hargc : ¬ argc < 0)
    (he : k.table.allocate (some caller) name = (.refused e, t)) :
    k.table.tree.refusal? config range caller name argc a = some e := by
  have hr := Table.allocate_refused h.sound.allotted he
  rw [h.capacity_eq, h.range_eq] at hr
  simp only [ProcessTree.refusal?, hname, if_neg hargc, Table.runs_tree, Table.size_tree]
  cases hq : k.table.running? caller with
  | none =>
    simp only [Option.any_some, hq, Option.isNone_none, ↓reduceIte] at hr
    simp [hr]
  | some q =>
    simp only [Option.any_some, hq, Option.isNone_some, Bool.false_eq_true, ↓reduceIte] at hr
    simp [hr.1, hr.2]

theorem Launches.step (h : Ready config range k)
    (hl : Launches k ⟨some caller, name, argc.toUInt32⟩ a result k')
    (hname : config.validateName name = .ok ()) (hargc : ¬ argc < 0) :
    k.table.tree.Step config range ⟨.exec caller name argc, task, a⟩ (.launched result)
      k'.table.tree := by
  cases hl with
  | refused he =>
    rw [table_abandoned]
    exact .refused (h.refusal?_of_refused hname hargc he)
  | undone ha hok hf hi =>
    have hn := h.sound.allotted.alloc ha
    have hne := h.sound.allotted.parent_ne ha (Table.allocate_ok hok).1
    rw [table_abandoned, Table.tree_congr (Table.records_undone h.sound hn hne hi)]
    exact .refused ((h.refusal?_of_ok hname hargc ha hok).trans hf)
  | created ha hok hf =>
    have hn := h.sound.allotted.alloc ha
    have hne := h.sound.allotted.parent_ne ha (Table.allocate_ok hok).1
    rw [Table.tree_adjust (Table.inner_space _), Table.tree_admitted fun e => hne (congrArg some e)]
    refine .launched ((h.refusal?_of_ok hname hargc ha hok).trans hf) ?_ ?_
    · rw [Table.get?_tree, hn]
      rfl
    · exact h.range_eq ▸ h.sound.allotted.contains ha

end exec

/-- `w` answers the command with `ended`, and this is a step of the reference model. -/
structure Served (config : Config) (range : PidRange) (c : Command) (w : Session)
    (ended : Ended) : Prop where
  answer : (w.serve c).1 = some ended
  step : w.kernel.table.tree.Step config range c ended (w.serve c).2.kernel.table.tree
  ready : Ready config range (w.serve c).2.kernel

variable {c : Command} {ended : Ended} {task : TaskId} {caller child pid : Pid} {name : String}
  {argc : Int32} {status : ExitStatus} {demand : Demand}

theorem Served.of_eq {effects : List Effect} (hs : w.serve c = (some ended, ⟨k', effects⟩))
    (hm : w.kernel.table.tree.Step config range c ended k'.table.tree)
    (hr : Ready config range k') : Served config range c w ended := by
  refine ⟨?_, ?_, ?_⟩
  · rw [hs]
  · rw [hs]; exact hm
  · rw [hs]; exact hr

theorem Ready.served_exec (h : Ready config range w.kernel) :
    ∃ ended, Served config range ⟨.exec caller name argc, task, a⟩ w ended := by
  have hrun : w.serve ⟨.exec caller name argc, task, a⟩ =
      w.run task a (.launch (.exec config caller name argc)) := by
    rw [← h.config_eq]
    rfl
  cases hname : config.validateName name with
  | error e =>
    rw [Launch.exec, hname, run_finished] at hrun
    exact ⟨_, .of_eq hrun (.refused (by simp only [ProcessTree.refusal?, hname])) h⟩
  | ok u =>
    by_cases hargc : argc < 0
    · simp only [Launch.exec, hname, if_pos hargc, run_finished] at hrun
      refine ⟨_, .of_eq hrun (.refused ?_) h⟩
      simp only [ProcessTree.refusal?, hname, if_pos hargc]
    · simp only [Launch.exec, hname, if_neg hargc] at hrun
      obtain ⟨result, ha, hl⟩ :=
        run_reserving ⟨some caller, name, argc.toUInt32⟩ h.sound fun hp => nomatch hp
      rw [← hrun] at ha hl
      exact ⟨_, ha, hl.step h hname hargc, hl.ready h⟩

theorem Ready.waits_of_running (h : Ready config range k) {r : Record}
    (hr : k.table.get? child = some r) (hp : r.parent = some caller) (hs : r.state = .running) :
    k.table.tree.waits (.join caller child) = true := by
  have hruns : k.table.running? child = some r := Table.running?_eq_some_iff.2 ⟨hr, hs⟩
  rw [ProcessTree.waits, (Table.isChild_tree h.sound.forest).2 ⟨r, hr, hp⟩, Table.runs_tree, hruns]
  rfl

theorem Ready.served_join (h : Ready config range w.kernel)
    (hw : w.kernel.table.tree.waits (.join caller child) = false) :
    ∃ ended, Served config range ⟨.join caller child, task, a⟩ w ended := by
  have hchild : w.kernel.table.tree.isChild caller child = true ↔ _ :=
    Table.isChild_tree h.sound.forest
  have hl := Table.checkJoin_look h.sound caller child task
  cases hj : w.kernel.table.checkJoin caller child task with
  | mk check t =>
    rw [hj] at hl
    cases hl with
    | notChild hn =>
      have hs : w.serve ⟨.join caller child, task, a⟩ = _ :=
        drive_ended 2 (settle_notChild hj) rfl
      exact ⟨_, .of_eq hs (.stranger (Bool.eq_false_iff.2 fun hc => hn (hchild.1 hc))) h⟩
    | @collected r status hr hp hex =>
      have hs : w.serve ⟨.join caller child, task, a⟩ = _ :=
        drive_ended 2 (settle_collected hj) rfl
      have he : r.isExited = true := by rw [Record.isExited, hex]; rfl
      have hn : w.kernel.table.tree.get? child = some r.node := by rw [Table.get?_tree, hr]; rfl
      have hst : r.node.status? = some status := by
        show r.state.status? = some status
        rw [hex]
        rfl
      refine ⟨_, .of_eq hs ?_ (h.withTable (h.sound.collected hr he) ?_ ?_)⟩
      · rw [Table.tree_removed hp]
        exact .joined (hchild.2 ⟨r, hr, hp⟩) hn hst
      · exact (Table.sameBounds_removed _ child r).capacity
      · rfl
    | busy hr hp hrun =>
      rw [h.waits_of_running hr hp hrun] at hw
      cases hw
    | waiting hr hp hrun =>
      rw [h.waits_of_running hr hp hrun] at hw
      cases hw

theorem Ready.served_end (h : Ready config range w.kernel) (he : demand.end? = some (pid, status)) :
    ∃ ended, Served config range ⟨demand, task, a⟩ w ended := by
  have hrun : w.serve ⟨demand, task, a⟩ = w.run task a (.terminate ⟨pid, status, .departing⟩) := by
    cases demand <;> cases he <;> rfl
  cases hr : w.kernel.table.running? pid with
  | none =>
    have hd : w.kernel.table.depart pid status = (.notRunning, w.kernel.table) := by
      simp only [Table.depart, hr]
    have hruns : w.kernel.table.tree.runs pid = false := by rw [Table.runs_tree, hr]; rfl
    have hs := hrun.trans (drive_ended 2 (settle_notRunning hd) rfl)
    exact ⟨_, .of_eq hs (.missing he hruns) h⟩
  | some r =>
    obtain ⟨t, hd, ht⟩ := Table.depart_eq status h.sound hr
    have hruns : w.kernel.table.tree.runs pid = true := by rw [Table.runs_tree, hr]; rfl
    have hc : r.children.has pid = false := Bool.eq_false_iff.2 fun hc =>
      h.sound.forest.parent_ne ((ht.has_iff h.sound.forest).1 hc) rfl
    have hs := hrun.trans (drive_ended 2 (settle_departed hd) rfl)
    refine ⟨_, .of_eq hs ?_ (h.withTable (ht.sound h.sound) ht.bounds.capacity ht.bounds.range)⟩
    rw [Table.tree_departs ht hc]
    exact .ended he hruns

/-- A command that does not wait is answered as the reference model answers it. -/
theorem Ready.served (h : Ready config range w.kernel)
    (hw : w.kernel.table.tree.waits c.demand = false) : ∃ ended, Served config range c w ended := by
  obtain ⟨demand, task, a⟩ := c
  cases demand with
  | exec caller name argc => exact h.served_exec
  | join caller child => exact h.served_join hw
  | exit pid code => exact h.served_end rfl
  | kill pid => exact h.served_end rfl

/-! ## Whole sessions -/

/-- The session answers the commands as the reference model does from the tree `m` on, and shows
its tree before and after each of them. A command that would wait is left out. -/
def Lockstep (config : Config) (range : PidRange) : List Command → Session → ProcessTree → Prop
  | [], w, m => w.kernel.table.Shows m
  | c :: rest, w, m => w.kernel.table.Shows m ∧
    if m.waits c.demand then Lockstep config range rest w m
    else ∃ ended m', (w.serve c).1 = some ended ∧ m.Step config range c ended m' ∧
      Lockstep config range rest (w.serve c).2 m'

theorem Ready.lockstep (h : Ready config range w.kernel) (commands : List Command) :
    Lockstep config range commands w w.kernel.table.tree := by
  induction commands generalizing w with
  | nil => exact h.sound.counted.shows_tree
  | cons c rest ih =>
    refine ⟨h.sound.counted.shows_tree, ?_⟩
    split
    case isTrue => exact ih h
    case isFalse hw =>
      obtain ⟨ended, hs⟩ := h.served (Bool.eq_false_iff.2 hw)
      exact ⟨ended, _, hs.answer, hs.step, ih hs.ready⟩

/-! ## From the launch of the root process on -/

theorem Launches.tree_root (hl : Launches k ⟨none, name, 0⟩ a (.ok pid) k')
    (hk : k.table = .new k.config.maxProcesses range) : k'.table.tree = .root := by
  cases hl with
  | created ha hok hf =>
    rw [Table.tree_adjust (Table.inner_space _), Table.tree_admitted_root, hk]
    rw [hk] at ha
    rw [PidAllocator.alloc_new ha]
    rfl

/-- The launch of the root process leaves the root process alone. -/
theorem boot_ready (hb : (boot config range name task a).1 = some (.launched (.ok pid))) :
    Ready config range (boot config range name task a).2.kernel ∧
      (boot config range name task a).2.kernel.table.tree = .root := by
  have hrun : boot config range name task a =
      (new config range).run task a (.launch (.boot config name)) := rfl
  cases hname : config.validateName name with
  | error e =>
    rw [Launch.boot, hname, run_finished] at hrun
    rw [hrun] at hb
    cases hb
  | ok u =>
    simp only [Launch.boot, hname] at hrun
    rw [run_booting name rfl] at hrun
    have h : Ready config range (new config range).claimed.kernel :=
      ⟨Table.sound_new _ _, rfl, rfl, rfl⟩
    obtain ⟨result, ha, hl⟩ : ∃ result,
        (boot config range name task a).1 = some (.launched result) ∧
        Launches (new config range).claimed.kernel ⟨none, name, 0⟩ a result
          (boot config range name task a).2.kernel :=
      hrun ▸ run_reserving ⟨none, name, 0⟩ h.sound fun _ _ _ => PidAllocator.alloc_new
    rw [ha] at hb
    cases hb
    exact ⟨hl.ready h, hl.tree_root rfl⟩

/-- Every list of commands after the launch of the root process is answered as the reference model
answers it, and the kernel shows the tree of the model all along. -/
theorem boot_lockstep (hb : (boot config range name task a).1 = some (.launched (.ok pid)))
    (commands : List Command) :
    Lockstep config range commands (boot config range name task a).2 .root := by
  obtain ⟨h, hroot⟩ := boot_ready hb
  exact hroot ▸ h.lockstep commands

/-- The children of the root process fare differently, then the root process is killed. One launch
fails, one join waits, and one join is refused. -/
def familyOfFour : List Command :=
  let loaded : Answers := ⟨.ok default, .ok ()⟩
  [⟨.exec .root "child" 0, ⟨0⟩, loaded⟩, ⟨.exec .root "missing" 0, ⟨0⟩, ⟨.error .notFound, .ok ()⟩⟩,
    ⟨.exec .root "child" 0, ⟨0⟩, loaded⟩, ⟨.exec ⟨1⟩ "grandchild" 0, ⟨0⟩, loaded⟩,
    ⟨.exit ⟨3⟩ 7, ⟨0⟩, loaded⟩, ⟨.join .root ⟨1⟩, ⟨0⟩, loaded⟩, ⟨.join .root ⟨3⟩, ⟨0⟩, loaded⟩,
    ⟨.exit ⟨1⟩ 5, ⟨0⟩, loaded⟩, ⟨.join .root ⟨1⟩, ⟨0⟩, loaded⟩, ⟨.kill .root, ⟨0⟩, loaded⟩,
    ⟨.exit ⟨2⟩ 0, ⟨0⟩, loaded⟩]

theorem familyOfFour_lockstep :
    (boot { suffix := none } .standard "init" ⟨0⟩ ⟨.ok default, .ok ()⟩).1 =
      some (.launched (.ok .root)) ∧
    Lockstep { suffix := none } .standard familyOfFour
      (boot { suffix := none } .standard "init" ⟨0⟩ ⟨.ok default, .ok ()⟩).2 .root :=
  ⟨rfl, boot_lockstep rfl familyOfFour⟩

end Session

end Lifecycle
