import Lifecycle.Proofs.Machine.Tasks
import Lifecycle.Proofs.Syscall.FlatMemory
import Lifecycle.Proofs.Traffic.System

/-!
# What a move does

A move of a machine is one of the cases of `Moved`. A machine can fail a check of its own: that of
the numbers of pages, and that of the name of a thread. Neither fails in a machine that is `Sane`,
and `Sane.moved` says that there are no other cases.

* `Registry.Fits`: the numbers of pages fit in the registers.
* `Call.Serves`: for which process a call is made, and which executables it names.
* `Call.Awaits`, `Call.react`: what a call waits for, and what it makes of it.
* `Prepares`: what an actor does to the machine before its call goes on.
-/

namespace Lifecycle

/-! ## Executables -/

/-- The pages of every program fit in a register together with those of the machine, and so do their
bytes. -/
def Registry.Fits (r : Registry) (pages : Nat) : Prop :=
  ∀ name n body, r.get? name = some (.program n body) →
    pages + (n + Loader.stackPages) < UInt64.size ∧
      (n + Loader.stackPages ≤ pages → (n + Loader.stackPages) * Loader.pageSize < UInt64.size)

/-- What is found under a name is an entry of the registry. -/
theorem Registry.mem_of_get? {r : Registry} {name : String} {image : Image}
    (h : r.get? name = some image) : (name, image) ∈ r.images := by
  obtain ⟨⟨name', image'⟩, hfind, rfl⟩ := Option.map_eq_some_iff.1 h
  have hname : name' = name := by simpa using List.find?_some hfind
  exact hname ▸ List.mem_of_find?_eq_some hfind

/-- A thread can have the name, if the name is that of a program. -/
def Registry.Nameable (r : Registry) (name : String) : Prop :=
  (r.body? name).isSome = true → 0 ∉ name.toUTF8.data.toList

theorem zero_notMem_toString (n : Nat) : 0 ∉ (toString n).toUTF8.data.toList := by
  have hdigits : ∀ c ∈ Nat.toDigits 10 n, 0 ∉ String.utf8EncodeChar c := by
    intro c hc
    have hd := Nat.isDigit_of_mem_toDigits (by decide) (by decide) hc
    simp only [Char.isDigit, Bool.and_eq_true, decide_eq_true_eq] at hd
    have hge : 48 ≤ c.toNat := UInt32.le_iff_toNat_le.1 hd.1
    have hle : c.toNat ≤ 57 := UInt32.le_iff_toNat_le.1 hd.2
    have hascii : c.val.toNat ≤ 127 := Nat.le_trans hle (by decide)
    rw [String.utf8EncodeChar, if_pos hascii, List.mem_singleton, ← UInt8.toNat_inj]
    simp
    omega
  show 0 ∉ (String.ofList (Nat.toDigits 10 n)).toByteArray.data.toList
  rw [String.toByteArray_ofList, List.utf8Encode, List.toList_data_toByteArray]
  simpa using hdigits

/-- The name of a thread holds a zero byte only if that of its executable does. -/
theorem Machine.zero_notMem_threadName {name : String} (pid : Pid)
    (h : 0 ∉ name.toUTF8.data.toList) : 0 ∉ (threadName pid name).toUTF8.data.toList := by
  have hpid : 0 ∉ "pid".toUTF8.data.toList := by decide +kernel
  have hdash : 0 ∉ "-".toUTF8.data.toList := by decide +kernel
  have hn := zero_notMem_toString pid.number.toNat
  simp only [threadName, String.toUTF8, String.toByteArray_append, ByteArray.data_append,
    Array.toList_append, List.mem_append, not_or] at *
  exact ⟨⟨⟨hpid, hn⟩, hdash⟩, h⟩

/-! ## Calls -/

namespace Call

/-- The call is made for `client?`, the host if there is none, and each executable it names
fulfils `p`. -/
def Serves (client? : Option Pid) (p : String → Prop) : Call → Prop
  | launch (.booting name) => client? = none ∧ p name
  | launch l => ∀ order, l.order? = some order → order.parent = client? ∧ p order.name
  | join j => client? = some j.caller
  | terminate e => client? = some e.pid
  | halt _ => client?.isSome = true

/-- The call is the end of a process. -/
def ends : Call → Bool
  | terminate _ => true
  | _ => false

/-- The call goes on when this happens. -/
def Awaits (c : Call) : Stimulus → Prop
  | .advance => c.stepsLeft ≠ 0
  | .load _ => ∃ order pid, c = .launch (.loading order pid)
  | .spawn _ => ∃ order pid image, c = .launch (.spawning order pid image)
  | .rouse => c.request? = some .sleep
  | _ => False

/-- What the call makes of it. -/
def react (k : Kernel) (c : Call) : Stimulus → Kernel × List Effect × Call
  | .advance => c.step k
  | .load answer => (k, c.loaded answer)
  | .spawn answer => (k, c.spawned answer)
  | .rouse => (k, [], c.woken)
  | _ => (k, [], c)

variable {c : Call} {k : Kernel} {name : String} {context : UserContext}

theorem request?_eq_load (h : c.request? = some (.load name)) :
    ∃ order pid, c = .launch (.loading order pid) ∧ order.name = name := by
  cases c with
  | launch l =>
    cases l <;> simp only [request?, Option.some.injEq, Request.load.injEq, reduceCtorEq] at h
    exact ⟨_, _, rfl, h⟩
  | join j => obtain ⟨_, _, _, s⟩ := j; cases s <;> simp [request?] at h
  | _ => cases h

theorem request?_eq_spawn (h : c.request? = some (.spawn name context)) :
    ∃ order pid image, c = .launch (.spawning order pid image) ∧ order.name = name ∧
      context = Launch.context order pid image := by
  cases c with
  | launch l =>
    cases l <;> simp only [request?, Option.some.injEq, Request.spawn.injEq, reduceCtorEq] at h
    exact ⟨_, _, _, rfl, h.1, h.2.symm⟩
  | join j => obtain ⟨_, _, _, s⟩ := j; cases s <;> simp [request?] at h
  | _ => cases h

theorem serves_boot {config : Config} {p : String → Prop} (h : p name) :
    Serves none p (.launch (.boot config name)) := by
  unfold Launch.boot
  split
  · simp [Serves, Launch.order?]
  · exact ⟨rfl, h⟩

theorem serves_exec {caller : Pid} {argc : Int32} {p : String → Prop} (h : p name) :
    Serves (some caller) p (.exec k caller name argc) := by
  unfold exec Launch.exec
  split
  · simp [Serves, Launch.order?]
  · split
    · simp [Serves, Launch.order?]
    · simp [Serves, Launch.order?, h]

end Call

/-- A name that was read from memory can be that of a thread. -/
theorem Kernel.serves_enter {k : Kernel} {caller : Pid} {task : TaskId} {r : Registers}
    {memory : Bytes} {effects : List Effect} {c : Call} (registry : Registry)
    (h : k.enter caller task r memory = (effects, .started c)) :
    c.Serves (some caller) registry.Nameable := by
  unfold enter at h
  split at h
  · cases h
  · next s _ =>
    obtain ⟨-, h⟩ := Prod.mk.inj h
    cases s with
    | halt => cases h; exact rfl
    | exit => cases h; exact rfl
    | exec =>
      simp only [call] at h
      split at h
      · cases h
      · next name hread =>
        cases h
        exact Call.serves_exec fun _ => Bytes.zero_notMem_readText hread
    | join =>
      simp only [call] at h
      split at h
      · cases h
      · cases h; exact rfl

theorem Kernel.enter_notes (k : Kernel) (caller : Pid) (task : TaskId) (r : Registers)
    (memory : Bytes) : ∀ x ∈ (k.enter caller task r memory).1, ∃ n, x = .note n := by
  unfold enter
  split <;> simp

/-! ## The loader -/

/-- The pages of an address space that was loaded. -/
def pagesLoaded : Except LoadError LoadedImage → Nat
  | .ok image => image.space.pages
  | .error _ => 0

theorem Loader.registry_load (l : Loader) (name : String) :
    (l.load name).2.registry = l.registry := by
  unfold load
  split
  · rfl
  · rfl
  · unfold build
    split
    · rfl
    · rfl
    · split <;> rfl

/-- A program is loaded if the pages of its image and of its stack are free. -/
theorem Loader.load_program {l : Loader} (hf : l.registry.Fits l.pool.total)
    (hu : l.pool.used ≤ l.pool.total) {name : String} {n : Nat} {body : Pid → Program}
    (hg : l.registry.get? name = some (.program n body)) :
    l.load name =
      if l.pool.used + (n + stackPages) ≤ l.pool.total then
        (.ok (.ok (image l.built (n + stackPages))),
          { l with
            pool := { l.pool with used := l.pool.used + (n + stackPages) }
            built := l.built + 1 })
      else (.ok (.error .outOfMemory), l) := by
  obtain ⟨hsum, hbytes⟩ := hf name n body hg
  have hover : ¬ UInt64.size ≤ l.pool.used + (n + stackPages) := by omega
  simp only [load, hg, build, PagePool.reserve, if_neg hover]
  by_cases hroom : l.pool.used + (n + stackPages) ≤ l.pool.total
  · have hb : ¬ UInt64.size ≤ (n + stackPages) * pageSize := by
      have := hbytes (by omega)
      omega
    simp only [if_pos hroom, if_neg hb]
  · simp only [if_neg hroom]

/-- The loader answers. It takes the pages of an address space out of the pool, and nothing else. -/
theorem Loader.load_eq {l : Loader} (hf : l.registry.Fits l.pool.total)
    (hu : l.pool.used ≤ l.pool.total) (name : String) : ∃ answer l',
    l.load name = (.ok answer, l') ∧ l'.registry = l.registry ∧ l'.pool.total = l.pool.total ∧
      l'.pool.used ≤ l.pool.total ∧ l'.pool.used = l.pool.used + pagesLoaded answer := by
  cases hg : l.registry.get? name with
  | none => exact ⟨_, l, by rw [load, hg], rfl, rfl, hu, rfl⟩
  | some image =>
    cases image with
    | corrupt why => exact ⟨_, l, by rw [load, hg], rfl, rfl, hu, rfl⟩
    | program n body =>
      rw [load_program hf hu hg]
      split
      · next hroom => exact ⟨_, _, rfl, rfl, rfl, hroom, rfl⟩
      · exact ⟨_, l, rfl, rfl, rfl, hu, rfl⟩

/-! ## Errands -/

/-- The errand of a task comes from a trap or from an exception, and an exception ends the
process. -/
def Errand.Proper (e : Errand) : Prop :=
  match e.origin with
  | .boot => False
  | .trap .. => True
  | .exception => e.call.ends = true

/-- The call of the errand has the scheduler create the task of a program. -/
def Errand.Spawns (r : Registry) (e : Errand) : Prop :=
  ∃ order pid image, e.call = .launch (.spawning order pid image) ∧
    (r.body? order.name).isSome = true

/-- A place is claimed for a call only if the call waits for the scheduler. -/
theorem Errand.unclaimed {r : Registry} {e : Errand} (h : e.claimed = true → e.Spawns r)
    (hc : ∀ order pid image, e.call ≠ .launch (.spawning order pid image)) :
    e.claimed = false := by
  refine Bool.eq_false_iff.2 fun hcl => ?_
  obtain ⟨order, pid, image, hcall, -⟩ := h hcl
  exact hc order pid image hcall

theorem Ended.leave_reply {caller : Pid} {slot : UInt64} {memory : Bytes} {ended : Ended}
    {effects : List Effect} {reply : Reply} {memory' : Bytes}
    (h : ended.leave caller slot memory = .ok (effects, reply, memory')) :
    (∃ raw, reply = .returns raw) ∨
      reply = .retires ∧ ∃ status result, ended = .terminated status result := by
  unfold leave at h
  split at h
  case h_2 =>
    split at h
    · cases h; exact .inl ⟨_, rfl⟩
    · cases h; exact .inl ⟨_, rfl⟩
  case h_4 => cases h; exact .inr ⟨rfl, _, _, rfl⟩
  case h_6 => cases h
  all_goals cases h; exact .inl ⟨_, rfl⟩

theorem Ended.leave_ok (caller : Pid) (slot : UInt64) (memory : Bytes) {ended : Ended}
    (h : ∀ fault, ended ≠ .crashed fault) :
    ∃ out, ended.leave caller slot memory = .ok out := by
  unfold leave
  split
  case h_2 => split <;> exact ⟨_, rfl⟩
  case h_6 fault => exact absurd rfl (h fault)
  all_goals exact ⟨_, rfl⟩

theorem Call.ends_of_ended {c : Call} {status : ExitStatus} {result : Except ProcessError Unit}
    (h : c.ended? = some (.terminated status result)) : c.ends = true := by
  cases c with
  | launch l => cases l <;> cases h
  | join j => obtain ⟨_, _, _, s⟩ := j; cases s <;> cases h
  | terminate e => rfl
  | halt r => cases r <;> cases h

theorem Call.terminated_of_ends {c : Call} {ended : Ended} (hc : c.ends = true)
    (h : c.ended? = some ended) (hf : ∀ fault, ended ≠ .crashed fault) :
    ∃ status result, ended = .terminated status result := by
  cases c with
  | terminate e =>
    obtain ⟨_, _, s⟩ := e
    cases s <;> cases h
    · exact ⟨_, _, rfl⟩
    · exact absurd rfl (hf _)
  | _ => cases hc

namespace Machine

/-- What a task does when its call has ended. -/
inductive Left (c : Call) : Activity → Prop where
  | returns {p : Program} : c.ends = false → Left c (.running p)
  | retires : c.ends = true → Left c .retiring

theorem leave_left {e : Errand} {ended : Ended} (pid : Pid) (he : e.Proper)
    (h : e.call.ended? = some ended) (hf : ∀ fault, ended ≠ .crashed fault) :
    (∀ x ∈ (leave pid e.origin ended).1, ∃ n, x = .note n) ∧
      Left e.call (leave pid e.origin ended).2 := by
  unfold Errand.Proper at he
  cases ho : e.origin with
  | boot => simp [ho] at he
  | exception =>
    simp only [ho] at he
    exact ⟨by simp [leave], .retires he⟩
  | trap slot memory next =>
    obtain ⟨⟨effects, reply, memory'⟩, hl⟩ := Ended.leave_ok pid slot memory hf
    have hnotes := Ended.leave_notes hl
    rcases Ended.leave_reply hl with ⟨raw, rfl⟩ | ⟨rfl, status, result, rfl⟩
    · simp only [leave, hl]
      refine ⟨hnotes, .returns (Bool.eq_false_iff.2 fun hc => ?_)⟩
      obtain ⟨status, result, rfl⟩ := Call.terminated_of_ends hc h hf
      simp [Ended.leave] at hl
    · simp only [leave, hl]
      exact ⟨hnotes, .retires (Call.ends_of_ended h)⟩

end Machine

/-! ## The cases -/

/-- The actor whose program or call goes on. -/
def Move.actor : Move → Actor
  | advance a => a
  | rouse serial => .task serial
  | starve a => a

namespace Machine

variable {m n : Machine} {a : Actor} {e : Errand} {serial : Nat} {pid : Pid}

/-- The process that an actor runs. -/
def client? (m : Machine) : Actor → Option Pid
  | .host => none
  | .task serial => (m.post? serial).map (·.1)

/-- The machine fails no check of its own (module doc). -/
structure Sane (m : Machine) : Prop where
  fits : m.loader.registry.Fits m.loader.pool.total
  used : m.loader.pool.used ≤ m.loader.pool.total
  claimed : ∀ a e, m.errand? a = some e → e.claimed = true → e.Spawns m.loader.registry
  serves : ∀ a e, m.errand? a = some e →
    e.call.Serves (m.client? a) m.loader.registry.Nameable
  proper : ∀ serial pid e, m.post? serial = some (pid, .inKernel e) → e.Proper
  intact : ∀ a e fault, m.errand? a = some e → e.call.ended? ≠ some (.crashed fault)

/-- `n` is `m` before the call of the errand `e` goes on. -/
inductive Prepares (m : Machine) (a : Actor) (e : Errand) : Stimulus → Machine → Prop where
  | advances : Prepares m a e .advance m
  /-- The loader has answered. -/
  | loads {order : Order} {pid : Pid} {answer : Except LoadError LoadedImage} {loader : Loader} :
      e.call = .launch (.loading order pid) → m.loader.load order.name = (.ok answer, loader) →
      Prepares m a e (.load answer) (m.withLoader loader)
  /-- There is no place for a new task. -/
  | refuses : e.claimed = false → Prepares m a e (.spawn (.error .noResources)) m
  /-- There is no thread for a new task, and its place is given back. -/
  | starves : e.claimed = true → Prepares m a e (.spawn (.error .noResources))
      (m.numbered.withLive (m.live - 1))
  /-- The task is created. -/
  | starts {order : Order} {pid : Pid} {image : LoadedImage} {p : Program} : e.claimed = true →
      e.call = .launch (.spawning order pid image) →
      Prepares m a e (.spawn (.ok ()))
        (m.numbered.enroll ⟨m.nextTask, pid, false, .running p⟩)
  /-- The task wakes up, and uses a wakeup or does not. -/
  | rouses {serial : Nat} {permit : Bool} : a = .task serial →
      Prepares m a e .rouse (m.withPermit serial permit)

/-- What a move of an actor does (module doc). -/
inductive Moved (m : Machine) : Actor → Machine → Prop where
  /-- A task goes on with its program, or has its answer from the kernel at once. -/
  | thinks {serial : Nat} {pid : Pid} {p p' : Program} {written : List String}
      {semaphores : List (String × Nat)} :
      m.post? serial = some (pid, .running p) →
      Moved m (.task serial) ((m.withOutput written semaphores).proceed serial (.running p'))
  /-- A task enters the kernel. -/
  | enters {serial : Nat} {pid : Pid} {p : Program} {invocation : Invocation Bytes} {c : Call}
      {origin : Origin} {effects : List Effect} :
      m.post? serial = some (pid, .running p) →
      invocation.entry m.kernel = (effects, .started c) →
      c.Serves (some pid) m.loader.registry.Nameable → Errand.Proper ⟨c, origin, false⟩ →
      Moved m (.task serial) (m.proceed serial (.inKernel ⟨c, origin, false⟩))
  /-- A place is claimed for a new task. -/
  | claims {a : Actor} {e : Errand} :
      m.errand? a = some e → m.live < m.maxTasks → e.Spawns m.loader.registry →
      e.claimed = false →
      Moved m a ((m.withLive (m.live + 1)).withErrand { e with claimed := true } a)
  /-- A call goes on. -/
  | turns {a : Actor} {e : Errand} {stimulus : Stimulus} {n : Machine} :
      m.errand? a = some e → e.call.Awaits stimulus → Prepares m a e stimulus n →
      Moved m a (n.turned a (e.call.react m.kernel stimulus).1
        (e.call.react m.kernel stimulus).2.1
        ⟨(e.call.react m.kernel stimulus).2.2, e.origin, false⟩)
  /-- A task leaves the kernel. -/
  | leaves {serial : Nat} {pid : Pid} {e : Errand} {ended : Ended} {act : Activity} :
      m.post? serial = some (pid, .inKernel e) → e.call.ended? = some ended → Left e.call act →
      Moved m (.task serial) (m.proceed serial act)
  /-- The boot has ended. -/
  | reports {e : Errand} {ended : Ended} : m.errand? .host = some e →
      e.call.ended? = some ended → Moved m .host (m.reported ended)
  /-- A task is finished. -/
  | finishes {t : Task} : m.task? t.serial = some t → t.activity = .retiring →
      Moved m (.task t.serial) (m.finish t)

theorem applyAll_notes {effects : List Effect} (h : ∀ x ∈ effects, ∃ n, x = .note n) :
    m.applyAll effects = m := by
  induction effects with
  | nil => rfl
  | cons x rest ih =>
    obtain ⟨n, rfl⟩ := h x (.head _)
    exact ih fun y hy => h y (.tail _ hy)

theorem adjustTask_adjustTask (serial : Nat) {f g : Task → Task}
    (hf : ∀ t, (f t).serial = t.serial) :
    (m.adjustTask serial f).adjustTask serial g = m.adjustTask serial fun t => g (f t) := by
  simp only [adjustTask, List.map_map, Machine.mk.injEq, true_and, and_true]
  refine List.map_congr_left fun t _ => ?_
  show (if (if t.serial = serial then f t else t).serial = serial then g _ else _) = _
  by_cases ht : t.serial = serial
  · simp [ht, hf]
  · simp [ht]

theorem wakeUp_eq (t : Task) (e : Errand) (permit : Bool) (he : e.claimed = false) :
    m.wakeUp t e permit = (m.withPermit t.serial permit).turned (.task t.serial) m.kernel []
      ⟨e.call.woken, e.origin, false⟩ := by
  obtain ⟨c, origin, claimed⟩ := e
  cases he
  have h := adjustTask_adjustTask (m := m) t.serial (f := fun t => { t with permit := permit })
    (g := fun t => { t with activity := .inKernel ⟨c.woken, origin, false⟩ })
    fun _ => rfl
  exact h.symm

theorem errand?_of_post? (h : m.post? serial = some (pid, .inKernel e)) :
    m.errand? (.task serial) = some e := by
  simp [errand?, h, Activity.errand?]

/-- Only an actor that has claimed a place gets no thread. -/
theorem starve_eq {m' : Machine} (hm : m.starve a = some m') : ∃ e, m.errand? a = some e ∧
    e.claimed = true ∧ m' = (m.unclaim e).1.withErrand (m.unclaim e).2 a := by
  cases a with
  | host =>
    simp only [starve] at hm
    split at hm
    · next e hhost =>
      split at hm
      · next hc =>
        cases hm
        exact ⟨e, by simp [errand?, hhost, Host.errand?], hc, rfl⟩
      · cases hm
    · cases hm
  | task serial =>
    obtain ⟨t, ht, hw⟩ := Option.bind_eq_some_iff.1 hm
    split at hw
    · next e hact =>
      split at hw
      · next hc =>
        cases hw
        exact ⟨e, errand?_of_post? (by rw [post?_of_task? ht, hact]), hc, rfl⟩
      · cases hw
    · cases hw

namespace Sane

variable {m' : Machine} {e' : Errand}

/-- A step of an errand. -/
theorem work_moved (h : m.Sane) (he : m.errand? a = some e) (hn : e.call.ended? = none)
    (hw : m.work e = some (m', e')) : Moved m a (m'.withErrand e' a) := by
  unfold work at hw
  split at hw
  · next name hr =>
    obtain ⟨order, pid, hcall, rfl⟩ := Call.request?_eq_load hr
    obtain ⟨answer, loader, hl, -⟩ := Loader.load_eq h.fits h.used order.name
    rw [hl] at hw
    cases hw
    have haw : e.call.Awaits (.load answer) := ⟨order, pid, hcall⟩
    exact .turns he haw (.loads hcall hl)
  · next name context hr =>
    obtain ⟨order, pid, image, hcall, rfl, rfl⟩ := Call.request?_eq_spawn hr
    have haw (answer : Except SpawnError Unit) : e.call.Awaits (.spawn answer) :=
      ⟨order, pid, image, hcall⟩
    cases hc : e.claimed with
    | true =>
      obtain ⟨order', pid', image', hcall', hb⟩ := h.claimed a e he hc
      obtain ⟨rfl, rfl, rfl⟩ : order' = order ∧ pid' = pid ∧ image' = image := by
        simpa [hcall] using hcall'.symm
      obtain ⟨body, hbody⟩ := Option.isSome_iff_exists.1 hb
      have hname : 0 ∉ order'.name.toUTF8.data.toList := by
        have hs := h.serves a e he
        rw [hcall] at hs
        exact (hs order' rfl).2 hb
      simp only [hc, if_true, start, hbody, if_neg (zero_notMem_threadName _ hname)] at hw
      cases hw
      exact .turns he (haw (.ok ())) (.starts hc hcall)
    | false =>
      simp only [hc, Bool.false_eq_true, if_false, claim] at hw
      split at hw
      · cases hw
        exact .turns he (haw (.error .noResources)) (.refuses hc)
      · next hroom =>
        obtain ⟨hb, hlive⟩ := not_or.1 hroom
        cases hw
        have hsome : (m.loader.registry.body? order.name).isSome = true := by
          simpa [Option.isSome_iff_ne_none] using hb
        exact .claims he (Nat.lt_of_not_le hlive) ⟨order, pid, image, hcall, hsome⟩ hc
  · cases hw
  · next hr =>
    have haw : e.call.Awaits .advance := by
      rw [Call.Awaits, Ne, Call.stepsLeft_eq_zero_iff]
      simp [hr, hn]
    have hc : e.claimed = false := by
      refine Errand.unclaimed (h.claimed a e he) fun order pid image hcall => ?_
      simp [hcall, Call.request?] at hr
    obtain ⟨c, origin, claimed⟩ := e
    cases hc
    cases hw
    exact .turns he haw .advances

/-- A step of a program. -/
theorem runProgram_moved {t : Task} {p : Program} (ht : m.task? t.serial = some t)
    (hp : t.activity = .running p) (hw : m.runProgram t p = some m') :
    Moved m (.task t.serial) m' := by
  have hpost : m.post? t.serial = some (t.pid, .running p) := by
    rw [post?_of_task? ht, hp]
  cases p with
  | done status => cases hw; exact .thinks hpost
  | raise =>
    cases hw
    have hen : (Invocation.kill t.pid : Invocation Bytes).entry m.kernel =
        ([], .started (Kernel.exception t.pid)) := rfl
    have hproper : Errand.Proper ⟨Kernel.exception t.pid, .exception, false⟩ := rfl
    exact .enters hpost hen rfl hproper
  | log line next => cases hw; exact .thinks hpost
  | signal token next => cases hw; exact .thinks hpost
  | wait token next =>
    simp only [runProgram] at hw
    split at hw
    · cases hw
    · cases hw; exact .thinks hpost
  | trap registers memory next =>
    cases hw
    have hnotes := m.kernel.enter_notes t.pid t.id registers memory
    unfold enter
    rcases hen : m.kernel.enter t.pid t.id registers memory with ⟨effects, entry⟩
    rw [hen] at hnotes
    cases entry with
    | answered result =>
      simp only [applyAll_notes hnotes]
      exact .thinks hpost
    | started call =>
      simp only [applyAll_notes hnotes]
      have hproper : Errand.Proper ⟨call, .trap registers.arg2 memory next, false⟩ := trivial
      have hentry : (Invocation.trap t.pid t.id registers memory).entry m.kernel =
          (effects, .started call) := hen
      exact .enters hpost hentry (Kernel.serves_enter _ hen) hproper

/-- A sleep that ends, with a wakeup or without. -/
theorem wakeUp_moved {t : Task} {permit : Bool} (h : m.Sane) (ht : m.task? t.serial = some t)
    (hact : t.activity = .inKernel e) (hr : e.call.request? = some .sleep) :
    Moved m (.task t.serial) (m.wakeUp t e permit) := by
  have he : m.errand? (.task t.serial) = some e :=
    errand?_of_post? (by rw [post?_of_task? ht, hact])
  have hc : e.claimed = false := by
    refine Errand.unclaimed (h.claimed _ e he) fun order pid image hcall => ?_
    simp [hcall, Call.request?] at hr
  have haw : e.call.Awaits .rouse := hr
  rw [wakeUp_eq t e permit hc]
  exact .turns he haw (.rouses rfl)

theorem advanceTask_moved {t : Task} (h : m.Sane) (ht : m.task? t.serial = some t)
    (hw : m.advanceTask t = some m') : Moved m (.task t.serial) m' := by
  have hpost := post?_of_task? ht
  unfold advanceTask at hw
  split at hw
  · next p hact => exact runProgram_moved ht hact hw
  · next e hact =>
    rw [hact] at hpost
    have he : m.errand? (.task t.serial) = some e := errand?_of_post? hpost
    split at hw
    · next ended hended =>
      obtain ⟨hnotes, hleft⟩ := leave_left t.pid (h.proper _ _ e hpost) hended
        fun fault hf => h.intact _ e fault he (hf ▸ hended)
      rcases hl : leave t.pid e.origin ended with ⟨effects, act⟩
      rw [hl] at hw hnotes hleft
      cases hw
      rw [applyAll_notes hnotes]
      exact .leaves hpost hended hleft
    · next hended =>
      split at hw
      · next hr =>
        split at hw
        · cases hw
          exact h.wakeUp_moved ht hact hr
        · cases hw
      · obtain ⟨⟨m₁, e₁⟩, hwork, rfl⟩ := Option.map_eq_some_iff.1 hw
        exact h.work_moved he hended hwork
  · next hact =>
    cases hw
    exact .finishes ht hact

theorem advanceHost_moved (h : m.Sane) (hw : m.advanceHost = some m') : Moved m .host m' := by
  unfold advanceHost at hw
  split at hw
  · next e hhost =>
    have he : m.errand? .host = some e := by simp [errand?, hhost, Host.errand?]
    split at hw
    · next ended hended =>
      cases hw
      exact .reports he hended
    · next hended =>
      obtain ⟨⟨m₁, e₁⟩, hwork, rfl⟩ := Option.map_eq_some_iff.1 hw
      exact h.work_moved he hended hwork
  · cases hw

theorem starve_moved (h : m.Sane) (he : m.errand? a = some e) (hc : e.claimed = true) :
    Moved m a ((m.unclaim e).1.withErrand (m.unclaim e).2 a) := by
  obtain ⟨order, pid, image, hcall, -⟩ := h.claimed a e he hc
  have haw : e.call.Awaits (.spawn (.error .noResources)) := ⟨order, pid, image, hcall⟩
  exact .turns he haw (.starves hc)

end Sane

/-- A move is one of the cases of `Moved`. -/
theorem Sane.moved {m' : Machine} {move : Move} (h : m.Sane) (hm : m.next move = some m') :
    Moved m move.actor m' := by
  cases move with
  | advance a =>
    cases a with
    | host => exact h.advanceHost_moved hm
    | task serial =>
      obtain ⟨t, ht, hw⟩ := Option.bind_eq_some_iff.1 hm
      obtain rfl := serial_of_task? ht
      exact h.advanceTask_moved ht hw
  | rouse serial =>
    obtain ⟨t, ht, hw⟩ := Option.bind_eq_some_iff.1 hm
    obtain rfl := serial_of_task? ht
    split at hw
    · next e hact =>
      split at hw
      · next hr =>
        cases hw
        exact h.wakeUp_moved ht hact hr
      · cases hw
    · cases hw
  | starve a =>
    obtain ⟨e, he, hc, rfl⟩ := starve_eq hm
    exact h.starve_moved he hc

end Machine

end Lifecycle
