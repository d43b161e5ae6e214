import Lifecycle.Proofs.ListLemmas
import Lifecycle.Proofs.Table.Spaces
import Lifecycle.Proofs.Traffic.Delivery

/-!
# Who owns an address space

An address space goes from the loader to the launch that asked for it, from there into the record
of its process, and out of the table with the end of the process or the roll-back of the launch,
which drops it. It is known by its launch: other launches of the same image may load at the same
time, and nothing is assumed of what the loader returns.

* `Traffic.held`, `stored`, `taken`: the address spaces in the hands of launches, in the table, and
  in the hands of terminations and roll-backs, each with the launch it was loaded for.
* `Turn.spaces`: which turns change the address spaces in the table.
* `Owned`: the record of a launch holds nothing before the store, and what was stored until the
  process runs; a record that was taken out is that of the right launch.
* `Turn.balance`: what a turn moves from one place to another.
-/

namespace Lifecycle

/-- The launch of the process that a termination has ended. -/
def endedBy : List Event → Nat → Option Nat
  | [], _ => none
  | .ended j _ launch _ :: h, i => if j = i then launch else endedBy h i
  | _ :: h, i => endedBy h i

/-- The termination `j` has ended the process `k`, and its launch is known. -/
def Attributed (h : List Event) (j : Nat) (k : Pid) (status : ExitStatus) : Prop :=
  ∃ i, endedBy h j = some i ∧ .ended j k (some i) status ∈ h ∧ .reserved i k ∈ h

theorem Attributed.append {h new : List Event} {j : Nat} {k : Pid} {status : ExitStatus}
    (ha : Attributed h j k status) (he : endedBy (new ++ h) j = endedBy h j) :
    Attributed (new ++ h) j k status := by
  obtain ⟨i, hi, hended, hres⟩ := ha
  exact ⟨i, he.trans hi, List.mem_append_right _ hended, List.mem_append_right _ hres⟩

namespace Operation

/-- What a launch has loaded and not stored yet. -/
def unstored (o : Operation) : List AddressSpace :=
  match o.call with
  | .launch (.storing _ _ image) => [image.space]
  | _ => []

/-- What a launch or a termination has taken out of the table and not dropped yet. -/
def undropped (o : Operation) : List AddressSpace :=
  match o.call with
  | .launch (.discarding _ r _) => r.space.toList
  | .terminate ⟨_, _, .releasing departure⟩ => departure.spaces
  | _ => []

/-- The record that a launch has taken out of the table and not dropped yet. -/
def undone? (o : Operation) : Option Record :=
  match o.call with
  | .launch (.discarding _ r _) => some r
  | _ => none

/-- The record that a join has taken out of the table and not dropped yet. -/
def collected? (o : Operation) : Option Record :=
  match o.call with
  | .join ⟨_, _, _, .discarding _ r⟩ => r
  | _ => none

/-- What the loader has answered, if the launch goes from `o` to `o'`. -/
def received (o o' : Operation) : List AddressSpace :=
  match o.call with
  | .launch (.loading _ _) => o'.unstored
  | _ => []

/-- The launch whose address space the operation `i` has taken out: itself, or that of the process
it has ended. -/
def origin (h : List Event) (i : Nat) (o : Operation) : Option Nat :=
  match o.call with
  | .terminate _ => endedBy h i
  | _ => some i

/-- What is known of the record of a launch before its process runs: its PID, and the address space
in it. -/
def expected? (o : Operation) : Option (Pid × Option AddressSpace) :=
  match o.call with
  | .launch (.loading _ pid) => some (pid, none)
  | .launch (.storing _ pid _) => some (pid, none)
  | .launch (.spawning _ pid image) => if o.begun then none else some (pid, some image.space)
  | _ => none

end Operation

namespace Traffic

/-- The address spaces in the hands of launches, with their launches. -/
def held (x : Traffic) : List (Option Nat × AddressSpace) :=
  gather (fun i o => o.unstored.map (some i, ·)) x.operations

/-- The address spaces in the table, with the launches of their records. -/
def stored (x : Traffic) : List (Option Nat × AddressSpace) :=
  x.kernel.table.spaces.entries.map fun e => (launchOf x.history e.1, e.2)

/-- The address spaces that were taken out of the table, with the launches of their processes. -/
def taken (x : Traffic) : List (Option Nat × AddressSpace) :=
  gather (fun i o => o.undropped.map (o.origin x.history i, ·)) x.operations

/-- Who holds an address space, and who does not (module doc). -/
structure Owned (x : Traffic) : Prop where
  expected : ∀ (i : Nat) (o : Operation) (k : Pid) (space : Option AddressSpace),
    x.operations[i]? = some o → o.expected? = some (k, space) →
    x.kernel.table.spaces.get? k = space
  collected : ∀ (i : Nat) (o : Operation) (r : Record), x.operations[i]? = some o →
    o.collected? = some r → r.space = none
  undone : ∀ (i : Nat) (o : Operation) (r : Record), x.operations[i]? = some o →
    o.undone? = some r → .reserved i r.pid ∈ x.history
  ended : ∀ (j : Nat) (o : Operation) (k : Pid) (status : ExitStatus), x.operations[j]? = some o →
    o.wrote? = some (k, status) → Attributed x.history j k status

variable {x y : Traffic} {i j : Nat} {o o' q : Operation} {k pid : Pid} {k' : Kernel} {r : Record}
  {permits : TaskId → Bool} {e : Option Event} {effects : List Effect} {c : Call}
  {space : Option AddressSpace}

theorem reserved?_of_expected? (h : o.expected? = some (k, space)) : o.reserved? = some k := by
  obtain ⟨call, b⟩ := o
  cases call with
  | launch l =>
    cases l with
    | loading | storing => cases h; rfl
    | spawning =>
      simp only [Operation.expected?] at h
      split at h
      · cases h
      · next hb =>
        cases h
        exact if_neg hb
    | _ => cases h
  | _ => cases h

/-- What an operation takes out of the table it takes out in a critical section. -/
theorem Move.takes_nothing (h : Move o o') :
    o'.undropped = [] ∧ o'.undone? = none ∧ o'.collected? = none := by
  cases h with
  | refused | abandoned =>
    simp only [Launch.abandon]
    split <;> exact ⟨rfl, rfl, rfl⟩
  | _ => exact ⟨rfl, rfl, rfl⟩

/-! ## The spaces in the table -/

section turn

variable (h : Turn x i o k' o' permits e) (hx : x.Consistent) (hi : x.operations[i]? = some o)
include h hx

/-- Only a launch that stores its space, and the end of a process or of a launch, change the spaces
in the table. -/
theorem Turn.spaces : k'.table.spaces = x.kernel.table.spaces ∨
    ∃ pid, (o.reserved? = some pid ∨ o.target? = some pid) ∧
      ∀ k, pid ≠ k → k'.table.spaces.get? k = x.kernel.table.spaces.get? k := by
  cases h with
  | reserved ha hp =>
    exact .inl (Table.spaces_admitted (hx.sound.allotted.alloc ha)
      (hx.sound.allotted.parent_ne ha hp) rfl)
  | stored hr =>
    refine .inr ⟨_, .inl rfl, fun k hk => ?_⟩
    rw [Table.spaces_stored _ hr, PidMap.get?_insert_of_ne _ _ hk]
  | undone =>
    refine .inr ⟨_, .inl rfl, fun k hk => ?_⟩
    show (Table.withdraw _ _ _).spaces.get? k = _
    rw [Table.spaces_withdraw, PidMap.get?_erase_of_ne _ hk]
  | waited => exact .inl (Table.spaces_awaited _)
  | collected hr _ hs =>
    have hnone := hx.sound.forest.space_of_exited hr hs
    exact .inl ((Table.spaces_withdraw ..).trans (Table.erase_spaces hr hnone))
  | departed hd =>
    refine .inr ⟨_, .inr rfl, fun k hk => ?_⟩
    rw [hd.spaces hx.sound.forest, PidMap.get?_erase_of_ne _ hk]
  | _ => exact .inl rfl

/-- A turn does not touch the record of another launch whose process does not run yet. -/
theorem Turn.expected_other (hi : x.operations[i]? = some o)
    (ha : Discipline.orderly.allows x o) (hj : x.operations[j]? = some q)
    (hq : q.expected? = some (k, space)) (ne : j ≠ i) :
    k'.table.spaces.get? k = x.kernel.table.spaces.get? k := by
  have hres := reserved?_of_expected? hq
  rcases h.spaces hx with hs | ⟨pid, ho, hs⟩
  · rw [hs]
  · refine hs k ?_
    rintro rfl
    rcases ho with ho | ho
    · have hl := (hx.unstarted i o _ hi ho).2
      rw [(hx.unstarted j q _ hj hres).2] at hl
      exact ne (Option.some.inj hl)
    · refine ha _ ?_ (Reserved.of_get hj hres)
      obtain ⟨call, b⟩ := o
      cases call with
      | terminate t => exact ho
      | _ => cases ho

theorem Turn.expected_self (ho : o'.expected? = some (k, space))
    (hold : ∀ space, o.expected? = some (k, space) → x.kernel.table.spaces.get? k = space) :
    k'.table.spaces.get? k = space := by
  cases h with
  | quiet hm =>
    cases hm with
    | loaded =>
      refine hold space ?_
      cases ho
      rfl
    | refused | abandoned =>
      have hres := reserved?_of_expected? ho
      rw [(views_abandon ..).2.2.1] at hres
      cases hres
    | _ => cases ho
  | @reserved order b pid pids hal hp =>
    cases ho
    rw [Table.get?_spaces, Table.get?_admitted _ _ _ (hx.sound.allotted.parent_ne hal hp)]
    exact congrArg (Option.bind · _) (if_pos rfl)
  | @stored _ _ _ b _ hr =>
    cases b with
    | true => cases ho
    | false =>
      cases ho
      rw [Table.spaces_stored _ hr, PidMap.get?_insert_self]
  | _ => cases ho

end turn

/-- Only a termination that ends a process writes down whose process it has ended. -/
theorem Turn.endedBy_kept (h : Turn x i o k' o' permits e) (hj : j ≠ i ∨ o.wrote?.isSome) :
    endedBy (e.toList ++ x.history) j = endedBy x.history j := by
  cases h with
  | departed =>
    rcases hj with ne | hw
    · exact if_neg (Ne.symm ne)
    · cases hw
  | @launched order => cases order.parent <;> rfl
  | _ => rfl

theorem owned_new (config : Config) (range : PidRange) : (new config range).Owned where
  expected := fun _ _ _ _ h => nomatch h
  collected := fun _ _ _ h => nomatch h
  undone := fun _ _ _ h => nomatch h
  ended := fun _ _ _ _ h => nomatch h

theorem Owned.add (ho : x.Owned) (hc : Started c) : (x.add ⟨c, false⟩).Owned where
  expected i q k space hi hq := by
    rcases add_cases hi with hi | ⟨-, rfl⟩
    · exact ho.expected i q k space hi hq
    · cases hc <;> cases hq
  collected i q r hi hq := by
    rcases add_cases hi with hi | ⟨-, rfl⟩
    · exact ho.collected i q r hi hq
    · cases hc <;> cases hq
  undone i q r hi hq := by
    rcases add_cases hi with hi | ⟨-, rfl⟩
    · exact ho.undone i q r hi hq
    · cases hc <;> cases hq
  ended j q k status hj hq := by
    rcases add_cases hj with hj | ⟨-, rfl⟩
    · exact ho.ended j q k status hj hq
    · cases hc <;> cases hq

theorem Owned.put (ho : x.Owned) (hr : x.Recorded) (hx : x.Consistent)
    (hi : x.operations[i]? = some o) (ha : Discipline.orderly.allows x o)
    (h : Turn x i o k' o' permits e) : ((x.put i k' o' e).withPermits permits).Owned where
  expected j q k space hj hq := by
    show k'.table.spaces.get? k = space
    rcases put_cases hi hj with ⟨rfl, rfl⟩ | ⟨ne, hj⟩
    · exact h.expected_self hx hq fun space => ho.expected _ o k space hi
    · rw [h.expected_other hx hi ha hj hq ne]
      exact ho.expected j q k space hj hq
  collected j q r hj hq := by
    rcases put_cases hi hj with ⟨rfl, rfl⟩ | ⟨-, hj⟩
    · cases h with
      | quiet hm => rw [hm.takes_nothing.2.2] at hq; cases hq
      | collected hg _ hs =>
        cases hq
        exact hx.sound.forest.space_of_exited hg hs
      | _ => cases hq
    · exact ho.collected j q r hj hq
  undone j q r hj hq := by
    rw [mem_history]
    rcases put_cases hi hj with ⟨rfl, rfl⟩ | ⟨-, hj⟩
    · cases h with
      | quiet hm => rw [hm.takes_nothing.2.1] at hq; cases hq
      | undone hg =>
        cases hq
        rw [hx.sound.forest.pid_eq hg]
        exact .inr (hr.held _ _ _ hi rfl)
      | _ => cases hq
    · exact .inr (ho.undone j q r hj hq)
  ended j q k status hj hq := by
    show Attributed (e.toList ++ x.history) j k status
    rcases put_cases hi hj with ⟨rfl, rfl⟩ | ⟨ne, hj⟩
    · rcases h.wrote? hq with hw | rfl
      · exact (ho.ended j o k status hi hw).append (h.endedBy_kept (.inr (by rw [hw]; rfl)))
      · obtain ⟨-, -, r, hg, -⟩ := h.of_ended rfl
        obtain ⟨l, hl⟩ := hr.known k r hg
        rw [hl]
        exact ⟨l, if_pos rfl, .head _, .tail _ (launchOf_mem hl)⟩
    · exact (ho.ended j q k status hj hq).append (h.endedBy_kept (.inl ne))

/-- The record of a launch whose process does not run yet. -/
theorem Owned.record (ho : x.Owned) (hx : x.Consistent) (hi : x.operations[i]? = some o)
    (he : o.expected? = some (pid, space)) : launchOf x.history pid = some i ∧
      ∃ r, x.kernel.table.get? pid = some r ∧ r.space = space := by
  obtain ⟨⟨r, hr, -⟩, hl⟩ := hx.unstarted i o pid hi (reserved?_of_expected? he)
  have hs := ho.expected i o pid space hi he
  rw [Table.get?_spaces, hr] at hs
  exact ⟨hl, r, hr, hs⟩

/-! ## One turn -/

theorem Move.unstored (h : Move o o') : o'.unstored = o.unstored ++ o.received o' := by
  cases h with
  | refused | abandoned =>
    simp only [Launch.abandon]
    split <;> rfl
  | _ => rfl

section turn

variable (h : Turn x i o k' o' permits e) (hx : x.Consistent)
include h hx

/-- The spaces in the table are those of the same launches, if the records hold the same. -/
theorem Turn.stored_eq (hs : k'.table.spaces = x.kernel.table.spaces) :
    ((x.put i k' o' e).withPermits permits).stored = x.stored := by
  show k'.table.spaces.entries.map _ = _
  rw [hs]
  refine List.map_congr_left fun ⟨k, a⟩ hk => ?_
  obtain ⟨r, hr, -⟩ := Table.mem_spaces hk
  exact congrArg (·, a) (h.launchOf_eq hx hr)

omit h hx in
/-- The spaces in the table are that of one record and the others. -/
theorem entries_erase_perm {t : Table} (hr : t.get? k = some r) (h : List Event) :
    ((t.spaces.erase k).entries.map (fun e => (launchOf h e.1, e.2)) ++
      r.space.toList.map (launchOf h k, ·)).Perm
    (t.spaces.entries.map fun e => (launchOf h e.1, e.2)) := by
  cases hs : r.space with
  | none =>
    rw [Table.erase_spaces hr hs]
    simp
  | some a =>
    have hk : t.spaces.get? k = some a := by rw [Table.get?_spaces, hr]; exact hs
    have hp := (PidMap.entries_perm hk).map fun e => (launchOf h e.1, e.2)
    exact List.perm_append_comm.trans hp.symm

/-- What the table and the operation of the turn hold together after it is what they held before,
with what the loader has returned and without what the operation had taken out, which is dropped. -/
theorem Turn.passes (ho : x.Owned) (hi : x.operations[i]? = some o) :
    (((x.put i k' o' e).withPermits permits).stored ++ o'.unstored.map (some i, ·) ++
      o'.undropped.map (o'.origin (e.toList ++ x.history) i, ·)).Perm
    (x.stored ++ o.unstored.map (some i, ·) ++ (o.received o').map (some i, ·)) := by
  have hsame := h.stored_eq hx
  cases h with
  | quiet hm =>
    rw [hsame rfl, hm.takes_nothing.1, hm.unstored, List.map_append, List.append_assoc]
    simp
  | reserved ha hp =>
    rw [hsame (Table.spaces_admitted (hx.sound.allotted.alloc ha)
      (hx.sound.allotted.parent_ne ha hp) rfl)]
    exact .rfl
  | @stored order pid image b r hr =>
    -- The record is that of the launch, so the space keeps its launch on the way into the table.
    have hnone := ho.expected i _ pid none hi rfl
    have hl := (hx.unstarted i _ pid hi rfl).2
    have hp := (PidMap.entries_perm (PidMap.get?_insert_self x.kernel.table.spaces pid
      image.space)).map fun e => (launchOf x.history e.1, e.2)
    rw [PidMap.erase_insert hnone, ← Table.spaces_stored _ hr, List.map_cons, hl] at hp
    simp only [Operation.unstored, Operation.undropped, Operation.received, List.map_nil,
      List.append_nil, List.map_cons]
    exact hp.trans (List.perm_append_singleton _ _).symm
  | @undone order pid cause b r hr =>
    have hl := (hx.unstarted i _ pid hi rfl).2
    have hp := entries_erase_perm hr x.history
    rw [hl, ← Table.spaces_withdraw _ _ r] at hp
    simp only [Operation.unstored, Operation.received, List.map_nil, List.append_nil]
    exact hp
  | @departed pid status b r t hd =>
    have hp := entries_erase_perm hd.was x.history
    rw [← hd.spaces hx.sound.forest] at hp
    -- The turn writes down the launch of the record, by which the termination knows it.
    have horigin : endedBy (.ended i pid (launchOf x.history pid) status :: x.history) i =
        launchOf x.history pid := if_pos rfl
    simp only [Operation.unstored, Operation.received, List.map_nil, List.append_nil,
      Operation.origin, Option.toList_some, List.singleton_append, horigin]
    exact hp
  | waited =>
    rw [hsame (Table.spaces_awaited _)]
    exact .rfl
  | collected hr _ hs =>
    have hnone := hx.sound.forest.space_of_exited hr hs
    rw [hsame ((Table.spaces_withdraw ..).trans (Table.erase_spaces hr hnone))]
    exact .rfl
  | _ =>
    rw [hsame rfl]
    exact .rfl

omit hx in
/-- A termination writes down only its own end of a process. -/
theorem Turn.origin_other (q : Operation) (ne : j ≠ i) :
    q.origin (e.toList ++ x.history) j = q.origin x.history j := by
  obtain ⟨call, b⟩ := q
  cases call with
  | terminate t => exact h.endedBy_kept (.inl ne)
  | _ => rfl

/-- The other operations keep what they have. -/
theorem Turn.balance (ho : x.Owned) (hi : x.operations[i]? = some o) :
    let y := (x.put i k' o' e).withPermits permits
    (y.held ++ y.stored ++ y.taken ++ o.undropped.map (o.origin x.history i, ·)).Perm
      (x.held ++ x.stored ++ x.taken ++ (o.received o').map (some i, ·)) := by
  intro y
  have hheld : (y.held ++ o.unstored.map (some i, ·)).Perm
      (x.held ++ o'.unstored.map (some i, ·)) := gather_set_perm hi fun _ _ _ _ => rfl
  have htaken : (y.taken ++ o.undropped.map (o.origin x.history i, ·)).Perm
      (x.taken ++ o'.undropped.map (o'.origin (e.toList ++ x.history) i, ·)) :=
    gather_set_perm hi fun j q ne _ => by
      show q.undropped.map (q.origin (e.toList ++ x.history) j, ·) = _
      rw [h.origin_other q ne]
  have hpasses : (y.stored ++ _ ++ _).Perm _ := h.passes hx ho hi
  -- From here on it is arithmetic: count how often each space occurs.
  rw [List.perm_iff_count] at hheld htaken hpasses ⊢
  intro a
  have hheld := hheld a
  have htaken := htaken a
  have hpasses := hpasses a
  simp only [List.count_append] at hheld htaken hpasses ⊢
  omega

end turn

/-! ## Every state -/

/-- A call at its start holds nothing. -/
theorem Started.holds_nothing (hc : Started c) :
    (⟨c, false⟩ : Operation).unstored = [] ∧ (⟨c, false⟩ : Operation).undropped = [] := by
  cases hc <;> exact ⟨rfl, rfl⟩

theorem held_add (hc : Started c) : (x.add ⟨c, false⟩).held = x.held := by
  refine (gather_concat ..).trans ?_
  rw [hc.holds_nothing.1]
  exact List.append_nil _

theorem taken_add (hc : Started c) : (x.add ⟨c, false⟩).taken = x.taken := by
  refine (gather_concat ..).trans ?_
  rw [hc.holds_nothing.2]
  exact List.append_nil _

variable {μ : Type} [UserMemory μ] {config : Config} {range : PidRange}

theorem Reachable.owned (h : Reachable μ .orderly config range x) : x.Owned :=
  (Reachable.induction (I := fun x => x.Recorded ∧ x.Owned) .rfl
    ⟨recorded_new _ _, owned_new _ _⟩ (fun _ _ _ ⟨hr, ho⟩ hs _ => ⟨hr.add hs, ho.add hs⟩)
    (fun _ _ _ _ _ _ _ hx ⟨hr, ho⟩ hi ha h => ⟨hr.put hx hi h, ho.put hr hx hi ha h⟩) h).2

end Traffic

end Lifecycle
