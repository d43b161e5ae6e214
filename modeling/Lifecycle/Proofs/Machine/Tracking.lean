import Lifecycle.Proofs.Machine.Places
import Lifecycle.Proofs.Machine.Staff
import Lifecycle.Proofs.Traffic.Ledger

/-!
# Machines and their traffic

The state of a machine and that of its traffic, taken together (`Tracked`), and how they go on with
each move (`Followed`). The pages in use are those that the calls and the records hold: a turn
takes from the pool what the loader answers with, and gives back what its effects release
(`Consistent.pages_act`).

* `Moved.proper`: where the errands of tasks come from.
* `Tracked.sane`: the machine fails no check of its own.
* `Tracked.moved`: the traffic follows each move of the machine.
-/

namespace Lifecycle

namespace Call

variable {c : Call} {k : Kernel}

theorem ends_react (stimulus : Stimulus) : (c.react k stimulus).2.2.ends = c.ends := by
  cases stimulus <;> cases c <;> rfl

end Call

/-! ## Pages -/

/-- The pages of what the loader answers. -/
def Stimulus.pagesLoaded : Stimulus → Nat
  | load answer => Lifecycle.pagesLoaded answer
  | _ => 0

theorem Effect.pagesReleased_eq (effects : List Effect) :
    pagesReleased effects = ((effects.filterMap released?).map (·.pages)).sum := by
  induction effects with
  | nil => rfl
  | cons e rest ih =>
    have hcons : pagesReleased (e :: rest) = pagesReleased [e] + pagesReleased rest := by
      simp [pagesReleased]
    rw [hcons, ih]
    cases e <;> simp [pagesReleased, released?, List.filterMap_cons]

namespace Traffic

variable {μ : Type}

theorem pages_drops (s : Step μ) : pages s.drops = Effect.pagesReleased s.effects := by
  rw [Effect.pagesReleased_eq, pages, Step.drops, List.map_map]
  rfl

theorem pages_loads {s : Step μ} {i : Nat} {stimulus : Stimulus} (h : s.action = .turn i stimulus) :
    pages s.loads = stimulus.pagesLoaded := by
  rw [Step.loads, h]
  cases stimulus with
  | load answer => cases answer <;> rfl
  | _ => rfl

/-- The pages that somebody holds. -/
def pagesHeld (x : Traffic) : Nat := pages (x.held ++ x.stored ++ x.taken)

theorem Consistent.pages_act [UserMemory μ] {x y : Traffic} {i : Nat} {stimulus : Stimulus}
    {effects : List Effect} (hx : x.Consistent) (ho : x.Owned)
    (ha : x.act (.turn i stimulus : Action μ) = some (effects, y)) :
    y.pagesHeld + Effect.pagesReleased effects = x.pagesHeld + stimulus.pagesLoaded := by
  let s : Step μ := ⟨x, .turn i stimulus, effects, y⟩
  have hsum := ((hx.balance ha ho).map fun (_, a) => a.pages).sum_nat
  change pages (_ ++ s.drops) = pages (_ ++ s.loads) at hsum
  rw [pages_append _ s.drops, pages_append _ s.loads, pages_drops, pages_loads rfl] at hsum
  exact hsum

end Traffic

namespace Machine

/-- The traffic `x` is that of the machine, and its tasks, its places and its pages are in order. -/
structure Tracked (config : Config) (registry : Registry) (pages : Nat) (x : Traffic)
    (ix : Actor → Nat) (m : Machine) : Prop where
  reachable : Traffic.Reachable Bytes .orderly config .standard x
  mirror : Mirror x ix m
  staffed : Staffed x m
  placed : m.Placed
  proper : ∀ serial pid e, m.post? serial = some (pid, .inKernel e) → e.Proper
  registry : m.loader.registry = registry
  total : m.loader.pool.total = pages
  room : m.loader.pool.used ≤ pages
  used : m.loader.pool.used = x.pagesHeld

variable {m m' n : Machine} {a : Actor} {e : Errand} {c' : Call} {stimulus : Stimulus}
  {x : Traffic} {ix : Actor → Nat} {k' : Kernel} {effects : List Effect} {config : Config}
  {registry : Registry} {pages : Nat}

/-- The errands of tasks stay proper. -/
theorem Moved.proper (hm : Moved m a m') (hfresh : m.post? m.nextTask = none)
    (h : ∀ serial pid e, m.post? serial = some (pid, .inKernel e) → e.Proper) :
    ∀ serial pid e, m'.post? serial = some (pid, .inKernel e) → e.Proper := by
  -- A task goes on to an activity whose errand is proper.
  have hproceed {serial : Nat} {act : Activity} (hact : ∀ e, act = .inKernel e → e.Proper)
      {s : Nat} {pid : Pid} {e : Errand}
      (hp : (m.proceed serial act).post? s = some (pid, .inKernel e)) : e.Proper := by
    rw [post?_proceed] at hp
    split at hp
    · obtain ⟨q, -, hq⟩ := Option.map_eq_some_iff.1 hp
      exact hact e (Prod.mk.inj hq).2
    · exact h s pid e hp
  cases hm with
  | thinks => exact fun s pid e hp => hproceed (fun e he => by cases he) hp
  | enters _ _ _ hproper =>
    refine fun s pid e hp => hproceed (fun e he => ?_) hp
    cases he
    exact hproper
  | @claims a e he =>
    intro s pid e' hp
    cases a with
    | host => exact h s pid e' hp
    | task serial =>
      obtain ⟨q, hq⟩ := post?_of_errand? he
      have hold := h serial q e hq
      have hp : (m.proceed serial (.inKernel { e with claimed := true })).post? s = _ := hp
      refine hproceed (fun e he => ?_) hp
      cases he
      exact hold
  | @turns a e stimulus n he haw hp =>
    intro s pid e' hpost
    rw [post?_turned] at hpost
    split at hpost
    · next ha =>
      subst ha
      obtain ⟨q, hq⟩ := post?_of_errand? he
      obtain ⟨_, -, hq'⟩ := Option.map_eq_some_iff.1 hpost
      cases hq'
      have hold := h s q e hq
      revert hold
      simp only [Errand.Proper, Call.ends_react]
      exact id
    · rcases hp.post? hfresh with ⟨hn, -⟩ | ⟨q, p, -, hn⟩
      · exact h s pid e' (hn ▸ hpost)
      · rw [hn] at hpost
        split at hpost
        · cases hpost
        · exact h s pid e' hpost
  | leaves _ _ hleft =>
    refine fun s pid e hp => hproceed (fun e he => ?_) hp
    subst he
    cases hleft
  | reports => exact h
  | finishes =>
    intro s pid e hp
    rw [post?_finish] at hp
    split at hp
    · cases hp
    · exact h s pid e hp

/-- What an actor does before its call goes on takes the pages out of the pool that the loader
answers with. -/
theorem Prepares.used (hp : Prepares m a e stimulus n)
    (hf : m.loader.registry.Fits m.loader.pool.total)
    (hu : m.loader.pool.used ≤ m.loader.pool.total) :
    n.loader.pool.total = m.loader.pool.total ∧
      n.loader.pool.used ≤ m.loader.pool.total ∧
      n.loader.pool.used = m.loader.pool.used + stimulus.pagesLoaded := by
  cases hp with
  | @loads order pid answer loader hcall hl =>
    obtain ⟨answer', l', hl', -, htotal, hroom, hused⟩ := Loader.load_eq hf hu order.name
    rw [hl] at hl'
    cases hl'
    exact ⟨htotal, hroom, hused⟩
  | _ => exact ⟨rfl, hu, rfl⟩

/-- How the traffic follows a move of the machine. -/
inductive Followed (x : Traffic) (ix : Actor → Nat) (m : Machine) (a : Actor) (x' : Traffic)
    (m' : Machine) : Prop where
  | steady : Steady m a m' → (x' = x ∨ ∃ c, Traffic.Started c ∧ x' = x.add ⟨c, false⟩) →
      Followed x ix m a x' m'
  | turned {e : Errand} {stimulus : Stimulus} {n : Machine} {k' : Kernel} {effects : List Effect}
      {c' : Call} {permits : TaskId → Bool} {ev : Option Event} :
      Turning x ix m a e stimulus n k' effects c' permits ev →
      x' = (x.put (ix a) k' ⟨c', false⟩ ev).withPermits permits →
      x.act (.turn (ix a) stimulus : Action Bytes) = some (effects, x') →
      m' = n.turned a k' effects ⟨c', e.origin, false⟩ → Followed x ix m a x' m'

namespace Tracked

variable (h : Tracked config registry pages x ix m)
include h

theorem consistent : x.Consistent := h.reachable.consistent .rfl

theorem sane (hf : registry.Fits pages) : m.Sane where
  fits := by rw [h.registry, h.total]; exact hf
  used := h.total ▸ h.room
  claimed := h.placed.claimed
  serves a e he := h.staffed.serves a _ (call?_of_errand? he)
  proper := h.proper
  intact a e fault he hfault :=
    h.consistent.intact _ _ (h.mirror.under a _ (call?_of_errand? he)) ⟨fault, hfault⟩

/-- The traffic after a steady move. -/
theorem steady (hst : Steady m a m') (hplaced : m'.Placed)
    (hproper : ∀ serial pid e, m'.post? serial = some (pid, .inKernel e) → e.Proper) :
    ∃ x' ix', Tracked config registry pages x' ix' m' ∧ Followed x ix m a x' m' := by
  obtain ⟨x', ix', hmirror, hstaffed, hreach, hx'⟩ := hst.follow h.mirror h.staffed h.reachable
  have hpages : x'.pagesHeld = x.pagesHeld := by
    rcases hx' with rfl | ⟨c, hc, rfl⟩
    · rfl
    · rw [Traffic.pagesHeld, Traffic.held_add hc, Traffic.taken_add hc]
      rfl
  refine ⟨x', ix', ⟨hreach, hmirror, hstaffed, hplaced, hproper, ?_, ?_, ?_, ?_⟩, .steady hst hx'⟩
  · rw [hst.loader, h.registry]
  · rw [hst.loader, h.total]
  · rw [hst.loader]
    exact h.room
  · rw [hst.loader, hpages, h.used]

/-- The traffic after a turn. -/
theorem turned (hf : registry.Fits pages) (he : m.errand? a = some e)
    (haw : e.call.Awaits stimulus) (hp : Prepares m a e stimulus n)
    (hreact : e.call.react m.kernel stimulus = (k', effects, c'))
    (hm' : m' = n.turned a k' effects ⟨c', e.origin, false⟩) (hplaced : m'.Placed)
    (hproper : ∀ serial pid e, m'.post? serial = some (pid, .inKernel e) → e.Proper) :
    ∃ x' ix', Tracked config registry pages x' ix' m' ∧ Followed x ix m a x' m' := by
  obtain ⟨permits, ev, hturn, hact⟩ :=
    h.mirror.turn h.consistent (call?_of_errand? he) haw hreact
  have t : Turning x ix m a e stimulus n k' effects c' permits ev :=
    ⟨h.mirror, h.consistent, h.placed.unposted, he, haw, hp, hreact, hturn⟩
  have hallows : Discipline.orderly.Permits x (.turn (ix a) stimulus : Action Bytes) := by
    intro o ho
    obtain rfl := Option.some.inj (t.operation.symm.trans ho)
    exact h.staffed.allows t.call
  obtain ⟨htotal, hroom, hused⟩ := hp.used (h.sane hf).fits (h.sane hf).used
  have hpages := h.consistent.pages_act h.reachable.owned hact
  subst hm'
  refine ⟨_, ix, ⟨.act h.reachable hallows hact, ?_, t.staffed h.staffed e.origin, hplaced,
    hproper, ?_, ?_, ?_, ?_⟩, .turned t rfl hact rfl⟩
  · refine h.mirror.put kernel_turned t.call ?_ fun b hb => ?_
    · rw [t.call?_turned, if_pos rfl]
    · rw [t.call?_turned, if_neg hb]
  · rw [registry_turned, hp.registry, h.registry]
  · rw [total_turned, htotal, h.total]
  · rw [used_turned]
    exact Nat.le_trans (Nat.sub_le ..) (h.total ▸ hroom)
  · rw [used_turned, hused, h.used]
    omega

/-- A move of the machine and of its traffic. -/
theorem moved (hf : registry.Fits pages) (hm : Moved m a m') :
    ∃ x' ix', Tracked config registry pages x' ix' m' ∧ Followed x ix m a x' m' := by
  have hplaced := h.placed.moved hm
  have hproper := hm.proper h.placed.unposted h.proper
  rcases hm.cases with hst | ⟨e, stimulus, n, he, haw, hp, hm'⟩
  · exact h.steady hst hplaced hproper
  · exact h.turned hf he haw hp rfl hm' hplaced hproper

end Tracked

end Machine

end Lifecycle
