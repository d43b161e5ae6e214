import Lifecycle.Memory.Bytes
import Lifecycle.Proofs.Traffic.History

/-!
# Every exit status is delivered once

A launch, the termination of the process it creates and the join that collects its status may be
far apart: other operations run in between, and after the collection the PID may be handed out
again. `Reachable.delivered` says that in strict traffic each status goes to the process that
launched the child, and once.

* `Awaits h i p k`: the launch `i` has answered `k` to its caller `p`, and `p` has neither collected
  `k` since then nor ended.
* `Precedes h a b`: the event `a` is older than `b`.
* `Kept`: the link of a child whose launch is under way, or whose status is awaited.
* `Collected`: the joins. What a join has taken is the status that a termination gave to a process
  that its caller launched, and it leaves nothing to take for another join.
* `Delivered`: the parts of the result.
-/

namespace Lifecycle

/-- The event ends the time in which `p` awaits the status of `k`. -/
def Event.Closes (p k : Pid) : Event → Prop
  | .ended _ q _ _ => q = p
  | .collected _ q c _ _ => q = p ∧ c = k
  | _ => False

/-- The process `p` awaits the status of `k`, which the launch `i` answered (module doc). -/
def Awaits (h : List Event) (i : Nat) (p k : Pid) : Prop :=
  ∃ later earlier, h = later ++ .launched i p k :: earlier ∧ ∀ e ∈ later, ¬ e.Closes p k

/-- The event `a` was written down before `b`. -/
def Precedes (h : List Event) (a b : Event) : Prop :=
  ∃ later earlier, h = later ++ b :: earlier ∧ a ∈ earlier

theorem Precedes.append {h : List Event} {a b : Event} (hp : Precedes h a b) (new : List Event) :
    Precedes (new ++ h) a b := by
  obtain ⟨later, earlier, rfl, ha⟩ := hp
  exact ⟨new ++ later, earlier, (List.append_assoc ..).symm, ha⟩

theorem Precedes.mem {h : List Event} {a b : Event} (hp : Precedes h a b) : a ∈ h := by
  obtain ⟨later, earlier, rfl, ha⟩ := hp
  exact List.mem_append_right _ (List.mem_cons_of_mem _ ha)

theorem Awaits.cases {h : List Event} {e : Option Event} {i : Nat} {p k : Pid}
    (ha : Awaits (e.toList ++ h) i p k) :
    e = some (.launched i p k) ∨ (Awaits h i p k ∧ ∀ ev, e = some ev → ¬ ev.Closes p k) := by
  obtain ⟨later, earlier, heq, hl⟩ := ha
  cases e with
  | none => exact .inr ⟨⟨later, earlier, heq, hl⟩, fun _ h => nomatch h⟩
  | some ev =>
    cases later with
    | nil =>
      obtain ⟨rfl, -⟩ := List.cons.inj heq
      exact .inl rfl
    | cons ev' later =>
      obtain ⟨rfl, htail⟩ := List.cons.inj heq
      refine .inr ⟨⟨later, earlier, htail, fun e he => hl e (List.mem_cons_of_mem _ he)⟩, ?_⟩
      rintro _ ⟨⟩
      exact hl ev List.mem_cons_self

theorem Awaits.launched_mem {h : List Event} {i : Nat} {p k : Pid} (ha : Awaits h i p k) :
    .launched i p k ∈ h := by
  obtain ⟨later, earlier, rfl, -⟩ := ha
  exact List.mem_append_right _ List.mem_cons_self

namespace Operation

/-- The status that a join has taken, with its caller and the child. -/
def took? (o : Operation) : Option (Pid × Pid × ExitStatus) :=
  match o.call with
  | .join ⟨caller, child, _, .discarding status _⟩ => some (caller, child, status)
  | .join ⟨caller, child, _, .finished (.ok status)⟩ => some (caller, child, status)
  | _ => none

/-- The caller, the child and the task of a join that has not found the child ended. -/
def awaits? (o : Operation) : Option (Pid × Pid × TaskId) :=
  match o.call with
  | .join ⟨caller, child, task, .checking⟩ => some (caller, child, task)
  | .join ⟨caller, child, task, .sleeping⟩ => some (caller, child, task)
  | _ => none

theorem client?_of_awaits? {o : Operation} {c k : Pid} {t : TaskId}
    (h : o.awaits? = some (c, k, t)) : o.client? = some c := by
  obtain ⟨call, b⟩ := o
  cases call with
  | join a =>
    obtain ⟨caller, child, task, stage⟩ := a
    cases stage <;> cases h <;> rfl
  | _ => cases h

end Operation

namespace Traffic

variable {x : Traffic} {i j : Nat} {o o' q : Operation} {c k p : Pid} {k' : Kernel} {r : Record}
  {permits : TaskId → Bool} {e : Option Event} {ev : Event} {status : ExitStatus}
  {l : Option Nat} {call : Call} {t : TaskId}

/-! ## The links -/

/-- The child of a launch under way, or whose status is awaited, is a child of the caller, and its
record is that of the launch. -/
structure Kept (x : Traffic) : Prop where
  own : ∀ (i : Nat) (o : Operation) (p k : Pid), x.operations[i]? = some o → o.pid? = some k →
    o.client? = some p → x.kernel.table.HasParent k p ∧ launchOf x.history k = some i
  awaited : ∀ (i : Nat) (p k : Pid), Awaits x.history i p k →
    x.kernel.table.HasParent k p ∧ launchOf x.history k = some i

theorem kept_new (config : Config) (range : PidRange) : (new config range).Kept where
  own := fun _ _ _ _ h => nomatch h
  awaited := fun _ _ _ ⟨later, _, h, _⟩ => by cases later <;> cases h

theorem Kept.add (hk : x.Kept) (hc : Started call) : (x.add ⟨call, false⟩).Kept where
  own i o p k hi ho hp := by
    rcases add_cases hi with hi | ⟨-, rfl⟩
    · exact hk.own i o p k hi ho hp
    · cases hc <;> cases ho
  awaited := hk.awaited

section put

variable (hk : x.Kept) (hx : x.Consistent) (hi : x.operations[i]? = some o)
  (h : Turn x i o k' o' permits e)
include hk hx hi h

/-- The turn of the launch itself. -/
theorem Kept.own_self (ha : Discipline.strict.allows x o) (ho : o'.pid? = some k)
    (hp : o'.client? = some p) :
    k'.table.HasParent k p ∧ launchOf (e.toList ++ x.history) k = some i := by
  rcases h.pid? ho with hpid | he
  · have hc : o.client? = some p := by
      rcases h.client? with hn | heq
      · rw [hn] at hp; cases hp
      · exact heq ▸ hp
    obtain ⟨hpar, hl⟩ := hk.own i o p k hi hpid hc
    refine ⟨?_, ?_⟩
    · rcases h.hasParent_kept hx hpar with hkept | ⟨_, _, _, _, hn⟩ | ⟨_, _, _, ht⟩ | ⟨_, hn⟩
      · exact hkept
      · rw [hn] at hpid; cases hpid
      · exact absurd (Engaged.of_get hi hc) (ha.2 p ht)
      · rw [hn] at ho; cases ho
    · exact (h.launchOf_child hx hpar).trans hl
  · obtain ⟨-, -, -, hres, hfree⟩ := h.of_reserved hx he
    obtain ⟨⟨r, hg, -⟩, hl⟩ := h.unstarted_self hx hi hres
    refine ⟨⟨r, hg, ?_⟩, hl⟩
    cases h.origin hx hg with
    | reserved _ _ _ hpar => exact hpar.trans hp
    | ended hold => rw [hfree] at hold; cases hold
    | kept hold => rw [hfree] at hold; cases hold

/-- A turn of another operation. -/
theorem Kept.own_other (ha : Discipline.strict.allows x o) (hj : x.operations[j]? = some q)
    (ne : j ≠ i) (hq : q.pid? = some k) (hp : q.client? = some p) :
    k'.table.HasParent k p ∧ launchOf (e.toList ++ x.history) k = some j := by
  obtain ⟨hpar, hl⟩ := hk.own j q p k hj hq hp
  refine ⟨?_, ?_⟩
  · rcases h.hasParent_kept hx hpar with hkept | ⟨_, _, _, hc, _⟩ | ⟨_, _, _, ht⟩ | ⟨hres, _⟩
    · exact hkept
    · exact absurd (hx.alone j i q o p hj hi hp hc) ne
    · exact absurd (Engaged.of_get hj hp) (ha.2 p ht)
    · have := (hx.unstarted i o k hi hres).2
      rw [hl] at this
      exact absurd (Option.some.inj this) ne
  · exact (h.launchOf_child hx hpar).trans hl

theorem Kept.awaited_put (hr : x.Recorded) (haw : Awaits (e.toList ++ x.history) j p k) :
    k'.table.HasParent k p ∧ launchOf (e.toList ++ x.history) k = some j := by
  rcases haw.cases with he | ⟨haw, hopen⟩
  · obtain ⟨rfl, hpid, hc, ht, -⟩ := h.of_launched he
    obtain ⟨hpar, hl⟩ := hk.own _ o p k hi hpid hc
    rw [ht]
    exact ⟨hpar, (h.launchOf_child hx hpar).trans hl⟩
  · obtain ⟨hpar, hl⟩ := hk.awaited j p k haw
    refine ⟨?_, ?_⟩
    · rcases h.hasParent_kept hx hpar with hkept | ⟨_, _, he, _⟩ | ⟨_, _, he, _⟩ | ⟨hres, _⟩
      · exact hkept
      · exact absurd ⟨rfl, rfl⟩ (hopen _ he)
      · exact absurd rfl (hopen _ he)
      · -- The launch has answered, so it undoes nothing.
        have hlo := (hx.unstarted i o k hi hres).2
        rw [hl] at hlo
        obtain rfl := Option.some.inj hlo
        obtain ⟨-, o₁, hi₁, ho₁⟩ := hr.answered _ p k haw.launched_mem
        obtain rfl : o = o₁ := Option.some.inj (hi.symm.trans hi₁)
        exact absurd ho₁ h.not_finished
    · exact (h.launchOf_child hx hpar).trans hl

theorem Kept.put (hr : x.Recorded) (ha : Discipline.strict.allows x o) :
    ((x.put i k' o' e).withPermits permits).Kept where
  own j q p k hj hq hp := by
    rcases put_cases hi hj with ⟨rfl, rfl⟩ | ⟨ne, hj⟩
    · exact hk.own_self hx hi h ha hq hp
    · exact hk.own_other hx hi h ha hj ne hq hp
  awaited j p k haw := hk.awaited_put hx hi h hr haw

end put

/-! ## The joins -/

/-- What the history tells of joins (module doc). -/
structure Collected (x : Traffic) : Prop where
  source : ∀ (j : Nat) (c k : Pid) (l : Option Nat) (status : ExitStatus),
    .collected j c k l status ∈ x.history → ∃ i m, l = some i ∧
      Precedes x.history (.launched i c k) (.collected j c k l status) ∧
      Precedes x.history (.ended m k (some i) status) (.collected j c k l status)
  gone : ∀ (k : Pid) (r : Record) (i j : Nat) (c k₀ : Pid) (status : ExitStatus),
    x.kernel.table.get? k = some r → launchOf x.history k = some i →
    .collected j c k₀ (some i) status ∉ x.history
  once : ∀ (j j' : Nat) (c c' k k' : Pid) (l : Option Nat) (status status' : ExitStatus),
    .collected j c k l status ∈ x.history → .collected j' c' k' l status' ∈ x.history → j = j'
  took : ∀ (j : Nat) (o : Operation) (c k : Pid) (status : ExitStatus),
    x.operations[j]? = some o → o.took? = some (c, k, status) →
    ∃ l, .collected j c k l status ∈ x.history
  waiter : ∀ (k p : Pid) (r : Record) (t : TaskId), x.kernel.table.get? k = some r →
    r.parent = some p → r.waiter = some t →
    ∃ (j : Nat) (o : Operation), x.operations[j]? = some o ∧ o.awaits? = some (p, k, t)

theorem collected_new (config : Config) (range : PidRange) : (new config range).Collected where
  source := fun _ _ _ _ _ h => nomatch h
  gone := fun _ _ _ _ _ _ _ h => nomatch h
  once := fun _ _ _ _ _ _ _ _ _ h => nomatch h
  took := fun _ _ _ _ _ h => nomatch h
  waiter := fun _ _ _ _ h => nomatch h

theorem Collected.add (hd : x.Collected) (hs : Started call) :
    (x.add ⟨call, false⟩).Collected where
  source := hd.source
  gone := hd.gone
  once := hd.once
  took j o c k status hj ho := by
    rcases add_cases hj with hj | ⟨-, rfl⟩
    · exact hd.took j o c k status hj ho
    · cases hs <;> cases ho
  waiter k p r t hg hp hw := by
    obtain ⟨j, o, hj, ho⟩ := hd.waiter k p r t hg hp hw
    exact ⟨j, o, get_add hj, ho⟩

section views

variable (h : Turn x i o k' o' permits e)
include h

theorem Turn.took? (ho : o'.took? = some (c, k, status)) : o.took? = some (c, k, status) ∨
    e = some (.collected i c k (launchOf x.history k) status) := by
  cases h with
  | quiet hm =>
    cases hm <;> exact .inl ho
  | collected => cases ho; exact .inr rfl
  | _ => exact .inl ho

/-- A join goes on while its task is the waiter of its child. -/
theorem Turn.awaits_kept (ho : o.awaits? = some (p, k, t)) (hg : x.kernel.table.get? k = some r)
    (hp : r.parent = some p) (hw : r.waiter = some t) :
    o'.awaits? = some (p, k, t) ∨ k'.table.get? k = none := by
  cases h with
  | quiet hm => cases hm <;> exact .inl ho
  | unjoined hn =>
    cases ho
    rcases hn with hn | ⟨r₀, other, hg₀, -, hw₀, ne⟩
    · exact absurd ⟨r, hg, hp⟩ hn
    · rw [hg] at hg₀; cases hg₀
      rw [hw] at hw₀; cases hw₀
      exact absurd rfl ne
  | collected =>
    cases ho
    refine .inr ?_
    rw [Table.get?_removed, Table.get?_withdraw, if_pos rfl]
  | _ => exact .inl ho

end views

/-- A join takes the status of a process that its caller launched. -/
theorem Concluded.source (hc : x.Concluded) (hr : x.Recorded) (hx : x.Consistent)
    (hi : x.operations[i]? = some o) (h : Turn x i o k' o' permits e)
    (he : e = some (.collected j c k l status)) :
    ∃ i m, l = some i ∧ .launched i c k ∈ x.history ∧ .ended m k (some i) status ∈ x.history := by
  obtain ⟨-, rfl, hcl, hpid, -, r, hg, hp, hst⟩ := h.of_collected he
  obtain ⟨n, hl⟩ := hr.known k r hg
  obtain ⟨m, hm⟩ := (hc.state k r n status hg hl).1 hst
  refine ⟨n, m, hl, ?_, hm⟩
  rcases hr.parent k c r n hg hp hl with hla | ⟨q, hn, hqk, hqc⟩
  · exact hla
  · -- The caller is in the middle of a join, so not of a launch.
    obtain rfl := hx.alone n i q o c hn hi hqc hcl
    obtain rfl : o = q := Option.some.inj (hi.symm.trans hn)
    rw [hpid] at hqk
    cases hqk

/-- A join takes what no join has taken before. -/
theorem Collected.fresh (hd : x.Collected) (hr : x.Recorded) (h : Turn x i o k' o' permits e)
    (he : e = some (.collected j c k l status)) {m : Nat} {c₀ k₀ : Pid} {status₀ : ExitStatus} :
    .collected m c₀ k₀ l status₀ ∉ x.history := by
  obtain ⟨-, rfl, -, -, -, r, hg, -⟩ := h.of_collected he
  obtain ⟨n, hl⟩ := hr.known k r hg
  rw [hl]
  exact hd.gone k r n m c₀ k₀ status₀ hg hl

theorem Collected.gone_put (hd : x.Collected) (hr : x.Recorded) (hx : x.Consistent)
    (hi : x.operations[i]? = some o) (h : Turn x i o k' o' permits e)
    (hk : k'.table.get? k = some r) (hl : launchOf (e.toList ++ x.history) k = some j)
    {m : Nat} {c k₀ : Pid} :
    .collected m c k₀ (some j) status ∉ ((x.put i k' o' e).withPermits permits).history :=
    fun hm => by
  rcases h.launch_cases hx hk hl with ⟨he, rfl⟩ | ⟨hl, r₀, hg⟩
  · rcases mem_history.1 hm with hm | hm
    · rw [he] at hm
      cases hm
    · obtain ⟨n, -, hn, hla, -⟩ := hd.source _ _ _ _ _ hm
      cases hn
      exact hr.first hx hi h he (hr.answered _ _ _ hla.mem).1
  · rcases mem_history.1 hm with hm | hm
    · obtain ⟨-, hl₀, -, -, hout, -⟩ := h.of_collected hm
      rw [hr.same hl hl₀.symm, hout] at hk
      cases hk
    · exact hd.gone k r₀ j m c k₀ status hg hl hm

theorem Collected.waiter_put (hd : x.Collected) (hx : x.Consistent)
    (hi : x.operations[i]? = some o) (h : Turn x i o k' o' permits e)
    (hk : k'.table.get? k = some r) (hp : r.parent = some p) (hw : r.waiter = some t) :
    ∃ (j : Nat) (q : Operation), ((x.put i k' o' e).withPermits permits).operations[j]? = some q ∧
      q.awaits? = some (p, k, t) := by
  cases h.origin hx hk with
  | reserved _ _ _ _ hn => rw [hn] at hw; cases hw
  | ended _ _ _ _ _ hn => rw [hn] at hw; cases hw
  | @kept r₀ hg _ _ hpar hwait =>
    rcases hwait with hsame | ⟨p₀, t₀, b, hp₀, hw₀, -, ho'⟩
    · have hp₀ : r₀.parent = some p := by
        rcases hpar with hpar | hpar
        · exact hpar.symm.trans hp
        · rw [hpar] at hp; cases hp
      have hw₀ := hsame.symm.trans hw
      obtain ⟨j, q, hj, hq⟩ := hd.waiter k p r₀ t hg hp₀ hw₀
      rcases get_put_cases k' o' permits e hi hj with ⟨rfl, rfl, hj⟩ | ⟨-, hj⟩
      · rcases h.awaits_kept hq hg hp₀ hw₀ with ho' | hn
        · exact ⟨_, o', hj, ho'⟩
        · rw [hn] at hk
          cases hk
      · exact ⟨j, q, hj, hq⟩
    · rw [hp] at hp₀; cases hp₀
      rw [hw] at hw₀; cases hw₀
      exact ⟨i, o', get_put_self hi, by rw [ho']; rfl⟩

theorem Collected.put (hd : x.Collected) (hc : x.Concluded) (hr : x.Recorded)
    (hx : x.Consistent) (hi : x.operations[i]? = some o) (h : Turn x i o k' o' permits e) :
    ((x.put i k' o' e).withPermits permits).Collected where
  source j c k l status hm := by
    rcases mem_history.1 hm with he | hm
    · obtain ⟨n, m, hl, hla, hen⟩ := hc.source hr hx hi h he
      show ∃ i m, l = some i ∧ Precedes (e.toList ++ x.history) _ _ ∧
        Precedes (e.toList ++ x.history) _ _
      rw [he]
      exact ⟨n, m, hl, ⟨[], _, rfl, hla⟩, ⟨[], _, rfl, hen⟩⟩
    · obtain ⟨n, m, hl, hla, hen⟩ := hd.source j c k l status hm
      exact ⟨n, m, hl, hla.append _, hen.append _⟩
  gone k r n j c k₀ status hk hl := hd.gone_put hr hx hi h hk hl
  once j j' c c' k k₀ l status status' hm hm' := by
    rcases mem_history.1 hm with he | hm <;> rcases mem_history.1 hm' with he' | hm'
    · rw [he] at he'
      cases he'
      rfl
    · exact absurd hm' (hd.fresh hr h he)
    · exact absurd hm (hd.fresh hr h he')
    · exact hd.once j j' c c' k k₀ l status status' hm hm'
  took j q c k status hj hq := by
    simp only [mem_history]
    rcases put_cases hi hj with ⟨rfl, rfl⟩ | ⟨-, hj⟩
    · rcases h.took? hq with ho | he
      · exact (hd.took _ o c k status hi ho).imp fun l hm => .inr hm
      · exact ⟨_, .inl he⟩
    · exact (hd.took j q c k status hj hq).imp fun l hm => .inr hm
  waiter k p r t hk hp hw := hd.waiter_put hx hi h hk hp hw

/-! ## Every state -/

variable {μ : Type} [UserMemory μ] {d : Discipline} {config : Config} {range : PidRange}

/-- The history of orderly traffic is true. -/
theorem Reachable.history (h : Reachable μ d config range x) (hd : d.Implies .orderly) :
    x.Recorded ∧ x.Concluded ∧ x.Collected :=
  Reachable.induction (I := fun x => x.Recorded ∧ x.Concluded ∧ x.Collected) hd
    ⟨recorded_new _ _, concluded_new _ _, collected_new _ _⟩
    (fun _ _ _ ⟨hr, hc, ht⟩ hs _ => ⟨hr.add hs, hc.add hs, ht.add hs⟩)
    (fun _ _ _ _ _ _ _ hx ⟨hr, hc, ht⟩ hi _ h =>
      ⟨hr.put hx hi h, hc.put hr hx hi h, ht.put hc hr hx hi h⟩) h

/-- Strict traffic keeps the links of the children whose status is awaited. -/
theorem Reachable.kept (h : Reachable μ .strict config range x) : x.Kept :=
  (Reachable.induction (I := fun x => x.Recorded ∧ x.Kept) Discipline.strict_implies_orderly
    ⟨recorded_new _ _, kept_new _ _⟩ (fun _ _ _ ⟨hr, hk⟩ hs _ => ⟨hr.add hs, hk.add hs⟩)
    (fun _ _ _ _ _ _ _ hx ⟨hr, hk⟩ hi ha h => ⟨hr.put hx hi h, hk.put hx hi h hr ha⟩) h).2

/-- Each status goes to the process that launched the child, and once. -/
structure Delivered (x : Traffic) : Prop where
  /-- From the answer of a launch until its caller collects the child or ends, the child is
  registered, in the child set of the caller, and its record is that of this launch. -/
  held : ∀ (i : Nat) (p k : Pid), Awaits x.history i p k → x.kernel.table.HasParent k p ∧
    x.kernel.table.HasChild p k ∧ launchOf x.history k = some i
  /-- Of all terminations one at most ends the process of a launch. -/
  ended_once : ∀ (i j j' : Nat) (k k' : Pid) (status status' : ExitStatus),
    .ended j k (some i) status ∈ x.history → .ended j' k' (some i) status' ∈ x.history →
    j = j' ∧ k = k' ∧ status = status'
  /-- A termination that succeeds has ended the process of a launch. -/
  ended : ∀ (j : Nat) (b : Bool) (k : Pid) (status : ExitStatus),
    x.operations[j]? = some ⟨.terminate ⟨k, status, .finished (.ok ())⟩, b⟩ →
    ∃ i, .reserved i k ∈ x.history ∧ .ended j k (some i) status ∈ x.history
  /-- A join by the caller of the launch, when it looks at the child, takes the status that a
  termination gave the child, and goes to sleep if none has. -/
  answers : ∀ (i j : Nat) (b : Bool) (p k : Pid) (t : TaskId), Awaits x.history i p k →
    x.operations[j]? = some ⟨.join ⟨p, k, t, .checking⟩, b⟩ →
    (∃ m status r, .ended m k (some i) status ∈ x.history ∧
      (x.kernel.table.checkJoin p k t).1 = .collected status (some r)) ∨
    ((∀ m status, .ended m k (some i) status ∉ x.history) ∧
      (x.kernel.table.checkJoin p k t).1 = .waiting)
  /-- A join that succeeds answers the status that a termination gave before to a process that the
  caller of the join launched. -/
  attributed : ∀ (j : Nat) (b : Bool) (p k : Pid) (t : TaskId) (status : ExitStatus),
    x.operations[j]? = some ⟨.join ⟨p, k, t, .finished (.ok status)⟩, b⟩ →
    ∃ i m, Precedes x.history (.launched i p k) (.collected j p k (some i) status) ∧
      Precedes x.history (.ended m k (some i) status) (.collected j p k (some i) status)
  /-- Of all joins one at most takes the status of the process of a launch. -/
  collected_once : ∀ (i j j' : Nat) (p p' k k' : Pid) (status status' : ExitStatus),
    .collected j p k (some i) status ∈ x.history →
    .collected j' p' k' (some i) status' ∈ x.history → j = j'

/-- The look of a join whose caller awaits the child. -/
theorem Kept.answers {b : Bool} (hk : x.Kept) (hx : x.Consistent) (hc : x.Concluded)
    (ht : x.Collected) (ha : Awaits x.history i p k)
    (hj : x.operations[j]? = some ⟨.join ⟨p, k, t, .checking⟩, b⟩) :
    (∃ m status r, .ended m k (some i) status ∈ x.history ∧
      (x.kernel.table.checkJoin p k t).1 = .collected status (some r)) ∨
    ((∀ m status, .ended m k (some i) status ∉ x.history) ∧
      (x.kernel.table.checkJoin p k t).1 = .waiting) := by
  obtain ⟨hpar, hl⟩ := hk.awaited i p k ha
  have hlook := Table.checkJoin_look hx.sound p k t
  generalize x.kernel.table.checkJoin p k t = found at hlook ⊢
  cases hlook with
  | notChild hn => exact absurd hpar hn
  | @collected r status hg _ hst =>
    obtain ⟨m, hm⟩ := (hc.state k r i status hg hl).1 hst
    exact .inl ⟨m, status, r, hm, rfl⟩
  | @busy r other hg hp _ hw ne =>
    -- The other join would have the same caller.
    obtain ⟨m, q, hm, hq⟩ := ht.waiter k p r other hg hp hw
    obtain rfl := hx.alone j m _ q p hj hm rfl (Operation.client?_of_awaits? hq)
    obtain rfl := Option.some.inj (hj.symm.trans hm)
    cases hq
    exact absurd rfl ne
  | @waiting r hg _ hrun =>
    refine .inr ⟨fun m status hm => ?_, rfl⟩
    have := (hc.state k r i status hg hl).2 ⟨m, hm⟩
    rw [hrun] at this
    cases this

/-- In strict traffic every status is delivered once, to the process that launched the child. -/
theorem Reachable.delivered (h : Reachable μ .strict config range x) : x.Delivered := by
  have hx := h.consistent Discipline.strict_implies_orderly
  obtain ⟨-, hc, ht⟩ := h.history Discipline.strict_implies_orderly
  have hk := h.kept
  refine ⟨fun i p k ha => ?_, fun i j j' k k' s s' hm hm' => hc.once j j' k k' _ s s' hm hm',
    fun j b k status hj => ?_, fun i j b p k t ha hj => hk.answers hx hc ht ha hj,
    fun j b p k t status hj => ?_,
    fun i j j' p p' k k' s s' hm hm' => ht.once j j' p p' k k' _ s s' hm hm'⟩
  · obtain ⟨hp, hl⟩ := hk.awaited i p k ha
    exact ⟨hp, (hx.sound.forest.child_iff p k).2 hp, hl⟩
  · obtain ⟨l, hm⟩ := hc.wrote j _ k status hj rfl
    obtain ⟨i, rfl, hres⟩ := hc.launch j k l status hm
    exact ⟨i, hres, hm⟩
  · obtain ⟨l, hm⟩ := ht.took j _ p k status hj rfl
    obtain ⟨i, m, rfl, hla, hen⟩ := ht.source j p k l status hm
    exact ⟨i, m, hla, hen⟩

/-- With two PIDs: the first child ends before its launch has answered and is joined, and the
second one, which gets its PID, is killed and joined. -/
def twoStatuses : Traffic :=
  (new { suffix := none } (.upTo 1)).after .strict
    (([.invoke (.boot "init"), .turn 0 .advance] ++ launching 0 ++
      [.invoke (.exec .root "first" 0), .turn 1 .advance, .turn 1 (.load (.ok default)),
        .turn 1 .advance, .turn 1 .start, .invoke (.exit ⟨1⟩ 7), .turn 2 .advance,
        .turn 1 (.spawn (.ok ())), .invoke (.join .root ⟨1⟩ ⟨0⟩), .turn 3 .advance,
        .turn 3 .advance, .invoke (.exec .root "second" 0)] ++ launching 4 ++
      [.invoke (.join .root ⟨1⟩ ⟨0⟩), .turn 5 .advance, .invoke (.kill ⟨1⟩), .turn 6 .advance,
        .turn 6 .advance, .turn 6 .advance, .turn 5 .wake, .turn 5 .advance, .turn 5 .advance] :
      List (Action Bytes)))

theorem twoStatuses_delivered : twoStatuses.history =
    [.collected 5 .root ⟨1⟩ (some 4) .abnormal, .ended 6 ⟨1⟩ (some 4) .abnormal,
      .launched 4 .root ⟨1⟩, .reserved 4 ⟨1⟩, .collected 3 .root ⟨1⟩ (some 1) (.code 7),
      .launched 1 .root ⟨1⟩, .ended 2 ⟨1⟩ (some 1) (.code 7), .reserved 1 ⟨1⟩,
      .reserved 0 .root] ∧ twoStatuses.Delivered :=
  ⟨by decide, (Reachable.start.after _ : Reachable Bytes .strict _ _ twoStatuses).delivered⟩

end Traffic

end Lifecycle
