import Lifecycle.Proofs.ListLemmas
import Lifecycle.Proofs.Machine.Moves

/-!
# Places for tasks

The count of live tasks is that of the tasks and of the places claimed for new ones, and never above
the limit (`Placed`). Each move keeps it so (`Placed.moved`): a place is claimed for one new task
at a time, and given back once, by the task or for want of one.
-/

namespace Lifecycle

namespace Machine

/-- The count of live tasks is right (module doc). -/
structure Placed (m : Machine) : Prop where
  nodup : m.actors.Nodup
  fresh : ∀ serial, (m.post? serial).isSome = true → serial < m.nextTask
  claimed : ∀ a e, m.errand? a = some e → e.claimed = true → e.Spawns m.loader.registry
  live : m.live = m.tasks.length + m.claims
  room : m.live ≤ m.maxTasks

variable {m m' n : Machine} {a : Actor} {e : Errand} {serial : Nat}

theorem mem_actors_of_errand? (h : m.errand? a = some e) : a ∈ m.actors := by
  cases a with
  | host => exact List.mem_cons_self
  | task serial =>
    refine mem_actors.2 ?_
    cases hp : m.post? serial with
    | none => simp [errand?, hp] at h
    | some p => rfl

/-- The actor has claimed a place. -/
def claiming (m : Machine) (a : Actor) : Bool := (m.errand? a).any (·.claimed)

theorem claims_eq : m.claims = m.actors.countP m.claiming := rfl

/-- Only the actor `a` may claim a place, or give one back. -/
theorem claims_update (hn : m.actors.Nodup) (ha : a ∈ m.actors) (hact : m'.actors = m.actors)
    (h : ∀ b ≠ a, m'.errand? b = m.errand? b) :
    m'.claims + (m.claiming a).toNat = m.claims + (m'.claiming a).toNat := by
  rw [claims_eq, claims_eq, hact]
  refine countP_update hn ha fun b _ hb => ?_
  rw [claiming, claiming, h b hb]

theorem claims_enroll {t : Task} (h : m.post? t.serial = none) (ht : t.activity.errand? = none) :
    (m.enroll t).claims = m.claims := by
  have hnone : m.errand? (.task t.serial) = none := by simp [errand?, h]
  have hsame : (m.enroll t).claiming = m.claiming := by
    funext b
    rw [claiming, claiming, errand?_enroll h ht]
  rw [claims_eq, claims_eq, hsame, actors_enroll, List.countP_append]
  simp [claiming, hnone]

theorem claims_pos (h : m.errand? a = some e) (hc : e.claimed = true) : 0 < m.claims :=
  List.countP_pos_iff.2 ⟨a, mem_actors_of_errand? h, by simp [h, hc]⟩

theorem Placed.unposted (h : m.Placed) : m.post? m.nextTask = none :=
  Option.eq_none_iff_forall_ne_some.2 fun _ hp =>
    Nat.lt_irrefl _ (h.fresh m.nextTask (by rw [hp]; rfl))

/-- There is no task if none is live. -/
theorem Placed.post?_eq_none (h : m.Placed) (hlive : m.live = 0) (serial : Nat) :
    m.post? serial = none := by
  have htasks : m.tasks = [] := by
    have hl := h.live
    rw [← List.length_eq_zero_iff]
    omega
  simp [post?, task?, htasks]

/-! ## Moves -/

/-- A move that neither creates a task nor finishes one. -/
theorem Placed.frame (h : m.Placed) (ha : a ∈ m.actors) (hact : m'.actors = m.actors)
    (hpost : ∀ s, (m'.post? s).isSome = (m.post? s).isSome) (hnext : m'.nextTask = m.nextTask)
    (hreg : m'.loader.registry = m.loader.registry)
    (hlen : m'.tasks.length = m.tasks.length) (hmax : m'.maxTasks = m.maxTasks)
    (hother : ∀ b ≠ a, m'.errand? b = m.errand? b)
    (hclaimed : ∀ e, m'.errand? a = some e → e.claimed = true → e.Spawns m.loader.registry)
    (hlive : m'.live + (m.claiming a).toNat = m.live + (m'.claiming a).toNat)
    (hroom : m'.live ≤ m.maxTasks) : m'.Placed where
  nodup := hact ▸ h.nodup
  fresh s hs := by
    rw [hnext]
    exact h.fresh s (hpost s ▸ hs)
  claimed b e he hc := by
    rw [hreg]
    by_cases hb : b = a
    · exact hclaimed e (hb ▸ he) hc
    · exact h.claimed b e (hother b hb ▸ he) hc
  live := by
    have hupdate := claims_update h.nodup ha hact hother
    have hl := h.live
    omega
  room := hmax ▸ hroom

/-- The turn of a call, after which no place is claimed for it. -/
theorem placed_turned {k : Kernel} {effects : List Effect} {e' : Errand} (hn : n.actors.Nodup)
    (hf : ∀ serial, (n.post? serial).isSome = true → serial < n.nextTask)
    (hclaimed : ∀ a e, n.errand? a = some e → e.claimed = true → e.Spawns n.loader.registry)
    (he : n.errand? a = some e) (he' : e'.claimed = false)
    (hlive : n.live + e.claimed.toNat = n.tasks.length + n.claims) (hroom : n.live ≤ n.maxTasks) :
    (n.turned a k effects e').Placed where
  nodup := by simpa using hn
  fresh s hs := by
    rw [nextTask_turned]
    refine hf s ?_
    rw [post?_turned] at hs
    split at hs
    · simpa using hs
    · exact hs
  claimed b q hq hc := by
    rw [errand?_turned (by simp [he])] at hq
    rw [registry_turned]
    split at hq
    · cases hq
      rw [he'] at hc
      cases hc
    · exact hclaimed b q hq hc
  live := by
    have hother (b : Actor) (hb : b ≠ a) : (n.turned a k effects e').errand? b = n.errand? b := by
      rw [errand?_turned (by simp [he]), if_neg hb]
    have hupdate := claims_update hn (mem_actors_of_errand? he) actors_turned hother
    have hnow : (n.turned a k effects e').claiming a = false := by
      rw [claiming, errand?_turned (by simp [he]), if_pos rfl]
      exact he'
    have hbefore : n.claiming a = e.claimed := by simp [claiming, he]
    rw [hnow, hbefore] at hupdate
    rw [live_turned, length_turned]
    simp only [Bool.toNat_false] at hupdate
    omega
  room := by simpa using hroom

theorem Placed.turned {stimulus : Stimulus} {k : Kernel} {effects : List Effect} {e' : Errand}
    (h : m.Placed) (he : m.errand? a = some e) (haw : e.call.Awaits stimulus)
    (hp : Prepares m a e stimulus n) (he' : e'.claimed = false) :
    (n.turned a k effects e').Placed := by
  have hl := h.live
  have hroom := h.room
  have hun (hs : ∀ answer, stimulus ≠ .spawn answer) : e.claimed = false := by
    refine Errand.unclaimed (h.claimed a e he) fun order pid image hcall => ?_
    rw [hcall] at haw
    cases stimulus <;> simp_all [Call.Awaits, Call.stepsLeft, Call.launchSteps, Call.request?]
  cases hp with
  | advances =>
    refine placed_turned h.nodup h.fresh h.claimed he he' ?_ hroom
    simpa [hun] using hl
  | @loads order pid answer loader hcall hload =>
    have hreg : loader.registry = m.loader.registry := by
      rw [← m.loader.registry_load order.name, hload]
    refine placed_turned h.nodup h.fresh ?_ (by simpa using he) he' ?_ hroom
    · show ∀ b q, (m.withLoader loader).errand? b = some q → _ → q.Spawns loader.registry
      rw [errand?_withLoader, hreg]
      exact h.claimed
    · rw [claims_withLoader, hun fun _ h => by cases h]
      exact hl
  | refuses hc =>
    refine placed_turned h.nodup h.fresh h.claimed he he' ?_ hroom
    simpa [hc] using hl
  | starves hc =>
    have hpos := claims_pos he hc
    refine placed_turned h.nodup (fun s hs => Nat.lt_succ_of_lt (h.fresh s hs)) ?_
      (by simpa using he) he' ?_ (Nat.le_trans (Nat.sub_le ..) hroom)
    · rw [errand?_withLive, errand?_numbered]
      exact h.claimed
    · rw [claims_withLive, claims_numbered, hc]
      show m.live - 1 + 1 = m.tasks.length + m.claims
      omega
  | @starts order pid image p hc hcall =>
    have hnew : m.numbered.post? m.nextTask = none := h.unposted
    have hsame := (errand?_enroll (t := ⟨m.nextTask, pid, false, .running p⟩) hnew rfl).trans
      errand?_numbered
    refine placed_turned ?_ (fun s hs => ?_) ?_ (hsame ▸ he) he' ?_ hroom
    · rw [actors_enroll, actors_numbered]
      refine List.nodup_append.2 ⟨h.nodup, by simp, fun b hb c hc => ?_⟩
      rintro rfl
      obtain rfl := List.mem_singleton.1 hc
      rw [mem_actors, ← post?_numbered, hnew] at hb
      cases hb
    · rw [post?_enroll hnew] at hs
      split at hs
      · next e => exact e ▸ Nat.lt_succ_self _
      · exact Nat.lt_succ_of_lt (h.fresh s hs)
    · rw [hsame]
      exact h.claimed
    · rw [length_enroll, claims_enroll hnew rfl, claims_numbered, hc]
      show m.live + 1 = m.tasks.length + 1 + m.claims
      omega
  | @rouses serial permit ha =>
    refine placed_turned (by simpa using h.nodup) (fun s hs => h.fresh s (by simpa using hs)) ?_
      (by simpa using he) he' ?_ hroom
    · rw [errand?_withPermit]
      exact h.claimed
    · rw [claims_withPermit, length_withPermit, hun fun _ h => by cases h]
      exact hl

/-- The tasks that are left when one is finished. -/
theorem Placed.finish {t : Task} (h : m.Placed) (ht : m.task? t.serial = some t)
    (hact : t.activity.errand? = none) : (m.finish t).Placed := by
  have hpost := post?_of_task? ht
  have hmem : .task t.serial ∈ m.actors := mem_actors.2 (by rw [hpost]; rfl)
  have hactors := actors_finish (t := t) h.nodup
  have herrand := errand?_finish ht hact
  have hnot : m.claiming (.task t.serial) = false := by simp [claiming, errand?, hpost, hact]
  have hclaims : (m.finish t).claims = m.claims := by
    have hperm := (List.perm_cons_erase hmem).countP_eq m.claiming
    rw [claims_eq, claims_eq, hactors, hperm, List.countP_cons, hnot]
    refine List.countP_congr fun b _ => ?_
    rw [claiming, claiming, herrand]
  have hlen : (m.finish t).tasks.length + 1 = m.tasks.length := by
    have hl : (m.finish t).actors.length + 1 = m.actors.length := by
      rw [hactors, List.length_erase_add_one hmem]
    simpa [actors] using hl
  have hl := h.live
  refine ⟨hactors ▸ h.nodup.erase _, fun s hs => ?_, ?_, ?_, Nat.le_trans (Nat.sub_le ..) h.room⟩
  · rw [post?_finish] at hs
    split at hs
    · cases hs
    · exact h.fresh s hs
  · rw [herrand]
    exact h.claimed
  · rw [hclaims]
    show m.live - 1 = _
    omega

theorem Placed.withOutput (h : m.Placed) (written : List String)
    (semaphores : List (String × Nat)) : (m.withOutput written semaphores).Placed where
  nodup := h.nodup
  fresh := h.fresh
  claimed := by
    rw [errand?_withOutput]
    exact h.claimed
  live := by
    rw [claims_withOutput]
    exact h.live
  room := h.room

/-- A task that has claimed no place goes on to another activity, and claims none. -/
theorem Placed.proceed {pid : Pid} {act act' : Activity} (h : m.Placed)
    (hp : m.post? serial = some (pid, act)) (hold : act.errand?.any (·.claimed) = false)
    (hnew : act'.errand?.any (·.claimed) = false) : (m.proceed serial act').Placed := by
  have hsome : (m.post? serial).isSome = true := by rw [hp]; rfl
  have hnow : (m.proceed serial act').claiming (.task serial) = false := by
    rw [claiming, errand?_proceed hsome, if_pos rfl, hnew]
  have hbefore : m.claiming (.task serial) = false := by simp [claiming, errand?, hp, hold]
  refine h.frame (mem_actors.2 hsome) (actors_adjustTask fun _ => rfl) (fun s => ?_) rfl rfl
    length_adjustTask rfl (fun b hb => by rw [errand?_proceed hsome, if_neg hb]) (fun e he hc => ?_)
    (by rw [hnow, hbefore]; rfl) h.room
  · rw [post?_proceed]
    split <;> simp
  · simp [claiming, he, hc] at hnow

/-- No place is claimed for a call that has ended. -/
theorem Placed.unclaimed_of_ended {ended : Ended} (h : m.Placed) (he : m.errand? a = some e)
    (hended : e.call.ended? = some ended) : e.claimed = false := by
  refine Errand.unclaimed (h.claimed a e he) fun order pid image hcall => ?_
  rw [hcall] at hended
  cases hended

/-- A move keeps the count right. -/
theorem Placed.moved (h : m.Placed) (hm : Moved m a m') : m'.Placed := by
  cases hm with
  | @thinks serial pid p p' written semaphores hp =>
    exact (h.withOutput written semaphores).proceed hp rfl rfl
  | enters hp => exact h.proceed hp rfl rfl
  | @claims a e he hroom hs hc =>
    have he' : (m.withLive (m.live + 1)).errand? a = some e := by rw [errand?_withLive]; exact he
    have hsome : ((m.withLive (m.live + 1)).errand? a).isSome = true := by rw [he']; rfl
    have hnow (b : Actor) :
        ((m.withLive (m.live + 1)).withErrand { e with claimed := true } a).errand? b =
          if b = a then some { e with claimed := true } else m.errand? b := by
      rw [errand?_withErrand hsome, errand?_withLive]
    refine h.frame (mem_actors_of_errand? he) (by simp; rfl) (fun s => ?_) (by simp; rfl)
      (by simp; rfl) (by simp; rfl) (by simp; rfl) (fun b hb => by rw [hnow, if_neg hb])
      (fun q hq _ => ?_) ?_ ?_
    · rw [post?_withErrand]
      split <;> simp
    · rw [hnow, if_pos rfl] at hq
      cases hq
      exact hs
    · simp [claiming, hnow, he, hc]
      rfl
    · rw [live_withErrand]
      exact hroom
  | turns he haw hp => exact h.turned he haw hp rfl
  | @leaves serial pid e ended act hp hended hleft =>
    have hc := h.unclaimed_of_ended (errand?_of_post? hp) hended
    refine h.proceed hp (by simp [Activity.errand?, hc]) ?_
    cases hleft <;> rfl
  | @reports e ended he hended =>
    have hc := h.unclaimed_of_ended he hended
    refine h.frame (mem_actors_of_errand? he) rfl (fun _ => rfl) rfl rfl rfl rfl
      (fun b hb => by rw [errand?_reported, if_neg hb]) (fun q hq => ?_) ?_ h.room
    · rw [errand?_reported, if_pos rfl] at hq
      cases hq
    · simp only [claiming, errand?_reported, he, if_pos]
      simp [hc]
      rfl
  | finishes ht hact => exact h.finish ht (by rw [hact]; rfl)

/-! ## What a move leaves, and what it gives back -/

theorem Moved.maxTasks (hm : Moved m a m') : m'.maxTasks = m.maxTasks := by
  cases hm with
  | claims => exact maxTasks_withErrand
  | turns _ _ hp =>
    rw [maxTasks_turned]
    cases hp <;> rfl
  | _ => rfl

theorem Moved.nextTask_le (hm : Moved m a m') : m.nextTask ≤ m'.nextTask := by
  cases hm with
  | claims =>
    rw [nextTask_withErrand]
    exact Nat.le_refl _
  | turns _ _ hp =>
    rw [nextTask_turned]
    cases hp <;> first | exact Nat.le_refl _ | exact Nat.le_succ _
  | _ => exact Nat.le_refl _

/-- The place of a task that is finished is given back. -/
theorem Placed.live_of_length (h : m.Placed) (hm : Moved m a m')
    (hlt : m'.tasks.length < m.tasks.length) : m'.live + 1 = m.live := by
  have hl := h.live
  cases hm with
  | finishes =>
    show m.live - 1 + 1 = m.live
    omega
  | claims => exact absurd (length_withErrand ▸ hlt) (Nat.lt_irrefl _)
  | @turns a e stimulus n _ _ hp =>
    have hn : m.tasks.length ≤ n.tasks.length := by
      cases hp with
      | starts =>
        rw [length_enroll]
        exact Nat.le_succ _
      | rouses => exact Nat.le_of_eq length_withPermit.symm
      | _ => exact Nat.le_refl _
    rw [length_turned] at hlt
    omega
  | reports => exact absurd hlt (Nat.lt_irrefl _)
  | _ => exact absurd (length_adjustTask ▸ hlt) (Nat.lt_irrefl _)

/-- A place that is claimed for want of a thread is given back. -/
theorem Placed.live_of_starve (h : m.Placed) (hm : m.starve a = some m') :
    m'.live + 1 = m.live := by
  obtain ⟨e, he, hc, rfl⟩ := starve_eq hm
  have hl := h.live
  have hpos := claims_pos he hc
  rw [live_withErrand]
  show (applyAll _ _).live + 1 = m.live
  rw [live_applyAll]
  show m.live - 1 + 1 = m.live
  omega

/-! ## Start -/

theorem placed_new (config : Config) (registry : Registry) (pages maxTasks : Nat) :
    (new config registry pages maxTasks).Placed where
  nodup := by simp [actors, new]
  fresh := nofun
  claimed a e he := by cases a <;> cases he
  live := rfl
  room := Nat.zero_le _

theorem errand?_startBoot {name : String} {b : Actor} : (m.startBoot name).errand? b =
    if b = .host then some ⟨.boot m.kernel name, .boot, false⟩ else m.errand? b := by
  cases b <;> rfl

theorem Placed.startBoot {name : String} (h : m.Placed) (hidle : m.host.errand? = none) :
    (m.startBoot name).Placed := by
  have hnone : m.errand? .host = none := hidle
  refine h.frame (a := .host) List.mem_cons_self rfl (fun _ => rfl) rfl rfl rfl rfl
    (fun b hb => by rw [errand?_startBoot, if_neg hb]) (fun e he hc => ?_) ?_ h.room
  · rw [errand?_startBoot, if_pos rfl] at he
    cases he
    cases hc
  · simp only [claiming, errand?_startBoot, hnone, if_pos]
    rfl

end Machine

end Lifecycle
