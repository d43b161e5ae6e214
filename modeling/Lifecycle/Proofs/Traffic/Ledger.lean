import Lifecycle.Memory.Bytes
import Lifecycle.Proofs.Traffic.Ownership
import Lifecycle.Proofs.Traffic.Runs

/-!
# The ledger of address spaces

Every address space that the loader has returned is in one of four places (`Ownership`), the last
of them being those that were dropped. So no page is lost, and none is given back twice.

* `loaded`, `dropped`: the address spaces that the loader has returned in a run, and those that were
  dropped, each with the launch it was loaded for.
* `Consistent.turn_drops`: a turn drops what its operation had taken out of the table, and nothing
  else. The store of a launch replaces nothing, and the record that a join has taken out holds
  nothing.
* `Consistent.balance`, `Run.balance`: what one action does to the four places, and a run.
* `Run.loads_once`: the launches tell the address spaces of a run apart.
* `Ledger`: the owners, and the pages. With no operation under way the pages that are in use are
  those of the running processes.
-/

namespace Lifecycle

/-- The address space that the effect gives back. -/
def Effect.released? : Effect → Option AddressSpace
  | release space => some space
  | _ => none

namespace Operation

/-- A launch that has come past the loader. -/
def fetched (o : Operation) : Bool :=
  match o.call with
  | .launch (.booting _) => false
  | .launch (.reserving _) => false
  | .launch (.loading _ _) => false
  | .launch _ => true
  | _ => false

/-- An operation that has ended holds nothing. -/
theorem ended_holds_nothing {o : Operation} (ho : o.call.ended?.isSome) :
    o.unstored = [] ∧ o.undropped = [] := by
  obtain ⟨call, b⟩ := o
  cases call with
  | launch l => cases l <;> first | exact ⟨rfl, rfl⟩ | cases ho
  | terminate t =>
    obtain ⟨pid, status, stage⟩ := t
    cases stage <;> first | exact ⟨rfl, rfl⟩ | cases ho
  | _ => exact ⟨rfl, rfl⟩

end Operation

namespace Traffic

variable {μ : Type}

/-- What the loader returns in a step, with the launch that asked for it. -/
def Step.loads (s : Step μ) : List (Option Nat × AddressSpace) :=
  match s.action with
  | .turn i (.load (.ok image)) => [(some i, image.space)]
  | _ => []

/-- What is dropped in a step, with the launch whose address space it was. -/
def Step.drops (s : Step μ) : List (Option Nat × AddressSpace) :=
  let origin : Option Nat :=
    match s.action with
    | .turn i _ => (s.before.operations[i]?).bind (·.origin s.before.history i)
    | .invoke _ => none
  (s.effects.filterMap Effect.released?).map (origin, ·)

/-- What the loader has returned in a run. -/
def loaded (steps : List (Step μ)) : List (Option Nat × AddressSpace) := steps.flatMap Step.loads

/-- What was dropped in a run. -/
def dropped (steps : List (Step μ)) : List (Option Nat × AddressSpace) := steps.flatMap Step.drops

variable {x y : Traffic} {i j : Nat} {o o' : Operation} {k pid : Pid} {k' : Kernel} {r : Record}
  {permits : TaskId → Bool} {e : Option Event} {effects : List Effect}
  {space : Option AddressSpace}

/-! ## What the loader and the machine see of a turn -/

section act

variable {stimulus : Stimulus}

/-- The loader answers a launch that waits for it. -/
theorem turn_loads (h : x.turn i o stimulus = some (effects, y))
    (hy : y.operations[i]? = some o') (hi : x.operations[i]? = some o) :
    (⟨x, .turn i stimulus, effects, y⟩ : Step μ).loads = (o.received o').map (some i, ·) := by
  cases turn_iff.1 h with
  | load answer =>
    obtain rfl := Option.some.inj ((get_put_self hi).symm.trans hy)
    cases answer <;> rfl
  | @advance o hs =>
    obtain ⟨call, b⟩ := o
    cases call with
    | launch l =>
      cases l with
      | loading => exact absurd rfl hs
      | _ => rfl
    | _ => rfl
  | _ => rfl

theorem filterMap_releaseAll (spaces : List AddressSpace) :
    (Effect.releaseAll spaces).filterMap Effect.released? = spaces := by
  induction spaces with
  | nil => rfl
  | cons a rest ih => exact congrArg (a :: ·) ih

theorem filterMap_idleEffects (config : Config) (idle : Bool) :
    (Termination.idleEffects config idle).filterMap Effect.released? = [] := by
  unfold Termination.idleEffects
  split <;> rfl

section steps

variable {b : Bool} (hx : x.Consistent) (ho : x.Owned)
include hx ho

theorem Consistent.launch_drops {l : Launch} (hi : x.operations[i]? = some ⟨.launch l, b⟩) :
    (l.step x.kernel).2.1.filterMap Effect.released? = (⟨.launch l, b⟩ : Operation).undropped := by
  cases l with
  | booting name =>
    simp only [Launch.step]
    split <;> rfl
  | reserving order =>
    simp only [Launch.step]
    rcases Table.allocate_eq hx.sound.allotted order.parent order.name with
      ⟨e, he⟩ | ⟨pid, pids, -, -, he⟩ <;> rw [he] <;> rfl
  | storing order pid image =>
    -- The record holds no space that could be replaced.
    obtain ⟨-, r, hr, hs⟩ := ho.record hx hi rfl
    simp only [Launch.step, Table.storeSpace, hr, Option.map_some, hs]
    rfl
  | undoing order pid cause =>
    obtain ⟨⟨r, hr, -, -, hw, -⟩, -⟩ := hx.unstarted i _ pid hi rfl
    simp only [Launch.step, Table.rollback_eq hx.sound.counted hr hw]
    rfl
  | discarding order r cause => exact filterMap_releaseAll _
  | _ => rfl

theorem Consistent.join_drops {a : Join} (hi : x.operations[i]? = some ⟨.join a, b⟩) :
    (a.step x.kernel).2.1.filterMap Effect.released? = [] := by
  obtain ⟨caller, child, task, stage⟩ := a
  cases stage with
  | checking =>
    simp only [Join.step]
    have hl := Table.checkJoin_look hx.sound caller child task
    generalize x.kernel.table.checkJoin caller child task = found at hl
    cases hl <;> rfl
  | discarding status record =>
    cases record with
    | none => rfl
    | some r =>
      have hs : r.space = none := ho.collected i _ r hi rfl
      simp only [Join.step, Option.toList_some, List.flatMap_singleton, Effect.releaseOf, hs]
      rfl
  | _ => rfl

omit ho in
theorem Consistent.termination_drops (a : Termination) :
    (a.step x.kernel).2.1.filterMap Effect.released? =
      (⟨.terminate a, b⟩ : Operation).undropped := by
  obtain ⟨pid, status, stage⟩ := a
  cases stage with
  | departing =>
    simp only [Termination.step]
    cases hr : x.kernel.table.running? pid with
    | none =>
      simp only [Table.depart, hr]
      rfl
    | some r =>
      obtain ⟨t, ht, -⟩ := Table.depart_eq status hx.sound hr
      rw [ht]
      rfl
  | releasing departure => exact filterMap_releaseAll _
  | waking waiter idle => cases waiter <;> rfl
  | closing idle => exact filterMap_idleEffects _ _
  | _ => rfl

/-- What a turn drops is what the operation had taken out. -/
theorem Consistent.turn_drops (hi : x.operations[i]? = some o)
    (h : x.turn i o stimulus = some (effects, y)) :
    effects.filterMap Effect.released? = o.undropped := by
  cases turn_iff.1 h with
  | @advance o _ =>
    obtain ⟨call, b⟩ := o
    cases call with
    | launch l => exact hx.launch_drops ho hi
    | join a => exact hx.join_drops ho hi
    | terminate a => exact hx.termination_drops a
    | halt a =>
      cases a with
      | asked caller =>
        simp only [Traffic.advance, Call.step, HaltRequest.step]
        split <;> rfl
      | finished result => rfl
  | load answer | @spawn _ _ _ _ answer => cases answer <;> rfl
  | _ => rfl

end steps

end act

theorem Turn.fetched (h : Turn x i o k' o' permits e) (ho : o.fetched = true) :
    o'.fetched = true := by
  cases h with
  | quiet hm =>
    cases hm with
    | @abandoned order r err b =>
      rcases Launch.abandon_eq order err with ⟨-, ha⟩ | ⟨-, ha⟩ <;> rw [ha] <;> rfl
    | _ => first | exact ho | rfl | cases ho
  | _ => exact ho

variable [UserMemory μ] {config : Config} {range : PidRange} {steps : List (Step μ)} {a : Action μ}

/-- A launch that has come past the loader stays so. -/
theorem Consistent.fetched (hx : x.Consistent) (hp : Discipline.orderly.Permits x a)
    (ha : x.act a = some (effects, y))
    (hi : ∃ o, x.operations[i]? = some o ∧ o.fetched = true) :
    ∃ o, y.operations[i]? = some o ∧ o.fetched = true := by
  refine hx.kept (I := fun x => ∃ o, x.operations[i]? = some o ∧ o.fetched = true) hp ha hi
    (fun c _ _ => hi.imp fun o ho => ⟨get_add ho.1, ho.2⟩) fun j o k' o' permits e hj _ h => ?_
  obtain ⟨q, hi, hq⟩ := hi
  rcases get_put_cases k' o' permits e hj hi with ⟨-, rfl, hi'⟩ | ⟨-, hi'⟩
  · exact ⟨o', hi', h.fetched hq⟩
  · exact ⟨q, hi', hq⟩

theorem entry_drops (invocation : Invocation μ) (k : Kernel) :
    (invocation.entry k).1.filterMap Effect.released? = [] := by
  cases invocation with
  | trap caller task registers memory =>
    simp only [Invocation.entry, Kernel.enter]
    split <;> rfl
  | _ => rfl

/-- What a turn receives from the loader is for a launch that has not come past it yet. -/
theorem received_cases (o o' : Operation) : o.received o' = [] ∨
    ∃ a, o.received o' = [a] ∧ o.fetched = false ∧ o'.fetched = true := by
  obtain ⟨call, b⟩ := o
  obtain ⟨call', b'⟩ := o'
  cases call with
  | launch l =>
    cases l with
    | loading =>
      cases call' with
      | launch l' =>
        cases l' with
        | storing => exact .inr ⟨_, rfl, rfl, rfl⟩
        | _ => exact .inl rfl
      | _ => exact .inl rfl
    | _ => exact .inl rfl
  | _ => exact .inl rfl

/-! ## One action -/

/-- An entry point loads nothing and drops nothing. -/
theorem Step.invoke_nothing {invocation : Invocation μ}
    (ha : x.act (.invoke invocation) = some (effects, y)) :
    let s : Step μ := ⟨x, .invoke invocation, effects, y⟩
    s.loads = [] ∧ s.drops = [] ∧ y.held = x.held ∧ y.stored = x.stored ∧ y.taken = x.taken := by
  obtain ⟨rfl, hy⟩ := act_invoke ha
  have hd : (⟨x, .invoke invocation, (invocation.entry x.kernel).1, y⟩ : Step μ).drops = [] := by
    simp only [Step.drops, entry_drops, List.map_nil]
  rcases hy with rfl | ⟨c, hc, rfl⟩
  · exact ⟨rfl, hd, rfl, rfl, rfl⟩
  · exact ⟨rfl, hd, held_add (started_entry hc), rfl, taken_add (started_entry hc)⟩

section act

variable (hx : x.Consistent) (ha : x.act a = some (effects, y))
include hx ha

/-- An action moves address spaces from one place to another, in from the loader, and out when
they are dropped. -/
theorem Consistent.balance (ho : x.Owned) :
    (y.held ++ y.stored ++ y.taken ++ (⟨x, a, effects, y⟩ : Step μ).drops).Perm
      (x.held ++ x.stored ++ x.taken ++ (⟨x, a, effects, y⟩ : Step μ).loads) := by
  cases a with
  | invoke invocation =>
    obtain ⟨hl, hd, hh, hs, ht⟩ := Step.invoke_nothing ha
    rw [hl, hd, hh, hs, ht]
  | turn i stimulus =>
    obtain ⟨o, hi, ht⟩ := Option.bind_eq_some_iff.1 ha
    have hd := hx.turn_drops ho hi ht
    obtain ⟨k', o', permits, e, h', rfl⟩ := hx.turn hi ht
    rw [turn_loads (μ := μ) ht (get_put_self hi) hi]
    simp only [Step.drops, hd, hi, Option.bind_some]
    exact h'.balance hx ho hi

/-- What an action loads is for a launch that comes past the loader by it. -/
theorem Consistent.loads_cases :
    (⟨x, a, effects, y⟩ : Step μ).loads = [] ∨
      ∃ i o o' space, (⟨x, a, effects, y⟩ : Step μ).loads = [(some i, space)] ∧
        x.operations[i]? = some o ∧ o.fetched = false ∧
        y.operations[i]? = some o' ∧ o'.fetched = true := by
  cases a with
  | invoke invocation => exact .inl rfl
  | turn i stimulus =>
    obtain ⟨o, hi, ht⟩ := Option.bind_eq_some_iff.1 ha
    obtain ⟨k', o', permits, e, -, rfl⟩ := hx.turn hi ht
    rw [turn_loads (μ := μ) ht (get_put_self hi) hi]
    rcases received_cases o o' with hr | ⟨space, hr, hnew, hdone⟩ <;> rw [hr]
    · exact .inl rfl
    · exact .inr ⟨i, o, o', space, rfl, hi, hnew, get_put_self hi, hdone⟩

end act

/-! ## Runs -/

/-- What the loader has returned is held, stored, taken out or dropped. -/
theorem Run.balance (h : Run μ .orderly config range steps x) :
    (x.held ++ x.stored ++ x.taken ++ dropped steps).Perm (loaded steps) := by
  induction h with
  | start => exact .rfl
  | @act steps x y a effects h hp ha ih =>
    have hb := (h.consistent .rfl).balance ha h.reachable.owned
    show (_ ++ (Step.drops _ ++ dropped steps)).Perm (Step.loads _ ++ loaded steps)
    rw [List.perm_iff_count] at hb ih ⊢
    intro entry
    have hb := hb entry
    have ih := ih entry
    simp only [List.count_append] at hb ih ⊢
    omega

/-- The launches that have loaded are different ones, and have come past the loader. -/
theorem Run.loads_once (h : Run μ .orderly config range steps x) :
    ((loaded steps).map Prod.fst).Nodup ∧ ∀ tag ∈ (loaded steps).map Prod.fst,
      ∃ i o, tag = some i ∧ x.operations[i]? = some o ∧ o.fetched = true := by
  induction h with
  | start => exact ⟨.nil, fun _ h => nomatch h⟩
  | @act steps x y a effects h hp ha ih =>
    obtain ⟨hnodup, hold⟩ := ih
    have hx := h.consistent .rfl
    have hkept : ∀ tag ∈ (loaded steps).map Prod.fst,
        ∃ i o, tag = some i ∧ y.operations[i]? = some o ∧ o.fetched = true := by
      intro tag htag
      obtain ⟨i, o, rfl, hi, ho⟩ := hold tag htag
      obtain ⟨o', hi', ho'⟩ := hx.fetched hp ha ⟨o, hi, ho⟩
      exact ⟨i, o', rfl, hi', ho'⟩
    show (List.map Prod.fst (Step.loads _ ++ loaded steps)).Nodup ∧
      ∀ tag ∈ List.map Prod.fst (Step.loads _ ++ loaded steps), _
    rcases hx.loads_cases ha with hl | ⟨i, o, o', space, hl, hi, hnew, hi', hdone⟩ <;> rw [hl]
    · exact ⟨hnodup, hkept⟩
    · refine ⟨List.nodup_cons.2 ⟨fun hmem => ?_, hnodup⟩, fun tag htag => ?_⟩
      · obtain ⟨j, q, hj, hq, hf⟩ := hold _ hmem
        obtain rfl := Option.some.inj hj
        obtain rfl := Option.some.inj (hi.symm.trans hq)
        rw [hnew] at hf
        cases hf
      · rcases List.mem_cons.1 htag with rfl | htag
        · exact ⟨i, o', rfl, hi', hdone⟩
        · exact hkept tag htag

/-! ## Owners -/

section owners

variable (h : Run μ .orderly config range steps x) {b : Bool} {a : AddressSpace}
include h

/-- What a record holds was loaded for its launch. -/
theorem Run.loaded_of_record (hg : x.kernel.table.get? k = some r) (hs : r.space = some a) :
    ∃ i, launchOf x.history k = some i ∧ (some i, a) ∈ loaded steps := by
  obtain ⟨hr, -⟩ := h.reachable.history .rfl
  obtain ⟨i, hl⟩ := hr.known k r hg
  have hk : x.kernel.table.spaces.get? k = some a := by rw [Table.get?_spaces, hg]; exact hs
  have hmem : (launchOf x.history k, a) ∈ x.stored :=
    List.mem_map.2 ⟨(k, a), PidMap.get?_eq_some_iff.1 hk, rfl⟩
  rw [hl] at hmem
  exact ⟨i, hl, h.balance.mem_iff.1
    (List.mem_append_left _ (List.mem_append_left _ (List.mem_append_right _ hmem)))⟩

theorem Run.loaded_of_unstored (hi : x.operations[i]? = some o) (ha : a ∈ o.unstored) :
    (some i, a) ∈ loaded steps := by
  have hmem : (some i, a) ∈ x.held := mem_gather.2 ⟨i, o, hi, List.mem_map_of_mem ha⟩
  exact h.balance.mem_iff.1
    (List.mem_append_left _ (List.mem_append_left _ (List.mem_append_left _ hmem)))

theorem Run.loaded_of_undropped (hi : x.operations[i]? = some o) (ha : a ∈ o.undropped) :
    (o.origin x.history i, a) ∈ loaded steps := by
  have hmem : (o.origin x.history i, a) ∈ x.taken :=
    mem_gather.2 ⟨i, o, hi, List.mem_map_of_mem ha⟩
  exact h.balance.mem_iff.1 (List.mem_append_left _ (List.mem_append_right _ hmem))

/-- What a termination has taken out was loaded for the launch of its process. -/
theorem Run.loaded_of_ended {status : ExitStatus} {departure : Table.Departure}
    (hj : x.operations[j]? = some ⟨.terminate ⟨pid, status, .releasing departure⟩, b⟩)
    (ha : a ∈ departure.spaces) : ∃ i, .ended j pid (some i) status ∈ x.history ∧
      .reserved i pid ∈ x.history ∧ (some i, a) ∈ loaded steps := by
  obtain ⟨i, hi, hended, hres⟩ := h.reachable.owned.ended j _ pid status hj rfl
  have hmem : (endedBy x.history j, a) ∈ loaded steps := h.loaded_of_undropped hj ha
  rw [hi] at hmem
  exact ⟨i, hended, hres, hmem⟩

end owners

/-! ## Pages -/

/-- The pages of address spaces. -/
def pages (l : List (Option Nat × AddressSpace)) : Nat := (l.map (·.2.pages)).sum

theorem pages_append (l l' : List (Option Nat × AddressSpace)) :
    pages (l ++ l') = pages l + pages l' := by
  rw [pages, List.map_append, List.sum_append_nat]
  rfl

/-- The pages in the table are those that the records tell of. -/
theorem pages_stored (x : Traffic) :
    pages x.stored = (x.kernel.table.records.values.map Record.residentPages).sum := by
  rw [Table.sum_residentPages, pages, stored, PidMap.values, List.map_map, List.map_map]
  rfl

theorem Run.pages_balance (h : Run μ .orderly config range steps x) :
    pages (loaded steps) = pages (dropped steps) +
      ((x.kernel.table.records.values.map Record.residentPages).sum + pages x.held +
        pages x.taken) := by
  have hsum := (h.balance.map fun (_, a) => a.pages).sum_nat
  change pages _ = pages _ at hsum
  rw [pages_append, pages_append, pages_append, pages_stored] at hsum
  omega

/-- With no operation under way all address spaces are in the table. -/
theorem nothing_underway (h : ∀ o ∈ x.operations, o.call.ended?.isSome) :
    x.held = [] ∧ x.taken = [] := by
  have hnothing : ∀ (i : Nat) (o : Operation), x.operations[i]? = some o →
      o.unstored = [] ∧ o.undropped = [] :=
    fun i o hi => Operation.ended_holds_nothing (h o (List.mem_of_getElem? hi))
  exact ⟨gather_eq_nil fun i o hi => by rw [(hnothing i o hi).1]; rfl,
    gather_eq_nil fun i o hi => by rw [(hnothing i o hi).2]; rfl⟩

/-! ## The result -/

/-- Every address space has one owner at all times, and every page is accounted for. -/
structure Ledger (steps : List (Step μ)) (x : Traffic) : Prop where
  /-- What the loader has returned is in the hands of its launch, in the table, taken out of it or
  dropped. -/
  balance : (x.held ++ x.stored ++ x.taken ++ dropped steps).Perm (loaded steps)
  /-- No two of them belong to one launch, so none is in two places, and none is dropped twice. -/
  once : ((x.held ++ x.stored ++ x.taken ++ dropped steps).map Prod.fst).Nodup
  /-- The record that holds one is running, and is that of the launch it was loaded for. -/
  stored : ∀ (k : Pid) (r : Record) (space : AddressSpace), x.kernel.table.get? k = some r →
    r.space = some space → r.state = .running ∧ ∃ i, launchOf x.history k = some i ∧
      .reserved i k ∈ x.history ∧ (some i, space) ∈ loaded steps
  /-- What a termination has taken out was loaded for the launch of the process it has ended. -/
  ended : ∀ (j : Nat) (b : Bool) (pid : Pid) (status : ExitStatus) (d : Table.Departure)
    (space : AddressSpace), x.operations[j]? = some ⟨.terminate ⟨pid, status, .releasing d⟩, b⟩ →
    space ∈ d.spaces → ∃ i, .ended j pid (some i) status ∈ x.history ∧
      .reserved i pid ∈ x.history ∧ (some i, space) ∈ loaded steps
  /-- What a roll-back has taken out was loaded for that launch, and the record was its own. -/
  undone : ∀ (i : Nat) (b : Bool) (order : Order) (r : Record) (cause : ProcessError)
    (space : AddressSpace), x.operations[i]? = some ⟨.launch (.discarding order r cause), b⟩ →
    r.space = some space → .reserved i r.pid ∈ x.history ∧ (some i, space) ∈ loaded steps
  /-- A launch stores what it has loaded, and replaces no other address space by it. -/
  stores : ∀ (i : Nat) (b : Bool) (order : Order) (pid : Pid) (image : LoadedImage),
    x.operations[i]? = some ⟨.launch (.storing order pid image), b⟩ →
    (some i, image.space) ∈ loaded steps ∧
      ∃ t, x.kernel.table.storeSpace pid image.space = some (none, t)
  /-- When the scheduler is asked for a task, the process runs and has what its launch loaded. -/
  spawns : ∀ (i : Nat) (order : Order) (pid : Pid) (image : LoadedImage),
    x.operations[i]? = some ⟨.launch (.spawning order pid image), false⟩ →
    (some i, image.space) ∈ loaded steps ∧ launchOf x.history pid = some i ∧
      ∃ r, x.kernel.table.get? pid = some r ∧ r.state = .running ∧ r.space = some image.space
  /-- The pages that were loaded and not dropped are those of the records, of the launches between
  load and store, and of the terminations and roll-backs under way. -/
  pages : pages (loaded steps) = pages (dropped steps) +
    ((x.kernel.table.records.values.map Record.residentPages).sum + pages x.held + pages x.taken)
  /-- With no operation under way they are those of the running processes. -/
  idle : (∀ o ∈ x.operations, o.call.ended?.isSome) →
    Traffic.pages (loaded steps) = Traffic.pages (dropped steps) +
      ((x.kernel.table.records.values.filter (!·.isExited)).map Record.residentPages).sum

/-- In orderly traffic no address space is lost, none has two owners, and none is dropped twice. -/
theorem Run.ledger (h : Run μ .orderly config range steps x) : Ledger steps x := by
  have hx := h.consistent .rfl
  have ho := h.reachable.owned
  have hforest := hx.sound.forest
  refine ⟨h.balance, (h.balance.map Prod.fst).nodup_iff.2 h.loads_once.1, fun k r a hg hs => ?_,
    fun j b pid status d a hj ha => h.loaded_of_ended hj ha, fun i b order r cause a hi hs => ?_,
    fun i b order pid image hi => ?_, fun i order pid image hi => ?_, h.pages_balance,
    fun hended => ?_⟩
  · obtain ⟨i, hl, hmem⟩ := h.loaded_of_record hg hs
    exact ⟨hforest.running_of_space hg hs, i, hl, launchOf_mem hl, hmem⟩
  · exact ⟨ho.undone i _ r hi rfl,
      h.loaded_of_undropped hi (Option.mem_toList.2 hs)⟩
  · obtain ⟨-, r, hg, hs⟩ := ho.record hx hi rfl
    have hstore : (x.kernel.table.storeSpace pid image.space).map Prod.fst = some none := by
      rw [Table.storeSpace, hg, Option.map_some, hs]
      rfl
    obtain ⟨⟨_, t⟩, ht, rfl⟩ := Option.map_eq_some_iff.1 hstore
    exact ⟨h.loaded_of_unstored hi (.head _), t, ht⟩
  · obtain ⟨hl, r, hg, hs⟩ := ho.record hx hi rfl
    obtain ⟨j, hj, hmem⟩ := h.loaded_of_record hg hs
    obtain rfl := Option.some.inj (hl.symm.trans hj)
    exact ⟨hmem, hl, r, hg, hforest.running_of_space hg hs, hs⟩
  · obtain ⟨hheld, htaken⟩ := nothing_underway hended
    rw [h.pages_balance, hheld, htaken, hforest.sum_running]
    rfl

/-- The turns of launch `i` up to the store, with an address space of so many pages. -/
def storing (i : Nat) (pages : Nat) : List (Action Bytes) :=
  [.turn i .advance, .turn i (.load (.ok ⟨0, 0, ⟨i, pages⟩⟩)), .turn i .advance]

/-- A launch has failed and has dropped what it had loaded, and another one has taken its own out of
the table. A process is being killed, whose own launch has not stored yet. -/
def fourPlaces : List (Action Bytes) :=
  List.flatten [[.invoke (.boot "init"), .turn 0 .advance], storing 0 10,
    [.turn 0 (.spawn (.ok ())), .invoke (.exec .root "refused" 0)], storing 1 20,
    [.turn 1 (.spawn (.error .noResources)), .turn 1 .advance, .turn 1 .advance,
      .invoke (.exec .root "parent" 0)], storing 2 30,
    [.turn 2 (.spawn (.ok ())), .invoke (.exec .root "refused" 0)], storing 3 40,
    [.turn 3 (.spawn (.error .noResources)), .turn 3 .advance, .invoke (.exec ⟨1⟩ "child" 0),
      .turn 4 .advance, .turn 4 (.load (.ok ⟨0, 0, ⟨4, 50⟩⟩)), .invoke (.kill ⟨1⟩),
      .turn 5 .advance]]

theorem fourPlaces_ledger :
    let x := new { suffix := none } .standard
    let y := x.after .orderly fourPlaces
    let steps := x.log .orderly fourPlaces ++ []
    y.held = [(some 4, ⟨4, 50⟩)] ∧ y.stored = [(some 0, ⟨0, 10⟩)] ∧
      y.taken = [(some 3, ⟨3, 40⟩), (some 2, ⟨2, 30⟩)] ∧ dropped steps = [(some 1, ⟨1, 20⟩)] ∧
      pages (loaded steps) = 150 ∧ Ledger steps y :=
  ⟨by decide, by decide, by decide, by decide, by decide, (Run.start.after fourPlaces).ledger⟩

end Traffic

end Lifecycle
