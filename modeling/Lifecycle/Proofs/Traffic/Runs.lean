import Lifecycle.Proofs.Traffic.Consistency

/-!
# Runs with a log

`Reachable` forgets how a state was reached. `Run steps x` is a run to `x` with the log of its
actions, newest first, each with the system before and after it and with its effects on the
machine (`Step`). A split `steps = later ++ s :: earlier` of the log is a moment of the run: what
came before it is a run itself (`Run.split`), and what holds then and is kept by every start of an
operation and every turn holds from then on (`Run.since`).
-/

namespace Lifecycle

namespace Traffic

/-- One action of a run. -/
structure Step (μ : Type) where
  before : Traffic
  action : Action μ
  effects : List Effect
  after : Traffic

variable {μ : Type} [UserMemory μ] {d : Discipline} {config : Config} {range : PidRange}
  {x y : Traffic} {i : Nat} {o' : Operation} {a : Action μ} {effects : List Effect}

/-- The runs from an empty table that keep to a discipline, with their logs (module doc). -/
inductive Run (μ : Type) [UserMemory μ] (d : Discipline) (config : Config) (range : PidRange) :
    List (Step μ) → Traffic → Prop where
  | start : Run μ d config range [] (new config range)
  | act {steps : List (Step μ)} {x y : Traffic} {a : Action μ} {effects : List Effect} :
      Run μ d config range steps x → d.Permits x a → x.act a = some (effects, y) →
      Run μ d config range (⟨x, a, effects, y⟩ :: steps) y

/-- Where an operation comes from: it was there before the action, or has been started by it, or
has taken a turn. -/
theorem Consistent.act_at (hx : x.Consistent) (hp : d.Permits x a)
    (ha : x.act a = some (effects, y)) (hi : y.operations[i]? = some o') :
    x.operations[i]? = some o' ∨ Started o'.call ∨
      ∃ o stimulus k' permits e, a = .turn i stimulus ∧ x.operations[i]? = some o ∧
        d.allows x o ∧ Turn x i o k' o' permits e ∧
        y = (x.put i k' o' e).withPermits permits := by
  cases a with
  | invoke invocation =>
    rcases (act_invoke ha).2 with rfl | ⟨c, hc, rfl⟩
    · exact .inl hi
    · rcases add_cases hi with hi | ⟨-, rfl⟩
      · exact .inl hi
      · exact .inr (.inl (started_entry hc))
  | turn j stimulus =>
    obtain ⟨o, hj, ho⟩ := Option.bind_eq_some_iff.1 ha
    obtain ⟨k', o₁, permits, e, ht, rfl⟩ := hx.turn hj ho
    rcases put_cases hj hi with ⟨rfl, rfl⟩ | ⟨-, hi⟩
    · exact .inr (.inr ⟨o, stimulus, k', permits, e, rfl, hj, hp o hj, ht, rfl⟩)
    · exact .inl hi

namespace Run

variable {steps later earlier : List (Step μ)} {s : Step μ}

theorem reachable (h : Run μ d config range steps x) : Reachable μ d config range x := by
  induction h with
  | start => exact .start
  | act _ hp ha ih => exact .act ih hp ha

theorem consistent (h : Run μ d config range steps x) (hd : d.Implies .orderly) : x.Consistent :=
  h.reachable.consistent hd

/-- The first part of a run is a run, and so is it with the action that follows. -/
theorem split (h : Run μ d config range (later ++ s :: earlier) x) :
    Run μ d config range earlier s.before ∧ d.Permits s.before s.action ∧
      s.before.act s.action = some (s.effects, s.after) ∧
      Run μ d config range (s :: earlier) s.after := by
  induction later generalizing x with
  | nil =>
    cases h with
    | act h hp ha => exact ⟨h, hp, ha, .act h hp ha⟩
  | cons _ _ ih =>
    cases h with
    | act h => exact ih h

/-- What holds at one moment of a run, and is kept by every start of an operation and every turn,
holds from then on. -/
theorem since {I : Traffic → Prop} (hd : d.Implies .orderly)
    (h : Run μ d config range (later ++ s :: earlier) x) (start : I s.after)
    (add : ∀ x c, I x → Started c → I (x.add ⟨c, false⟩))
    (put : ∀ x i o k' o' permits e, x.Consistent → I x → x.operations[i]? = some o →
      Turn x i o k' o' permits e → I ((x.put i k' o' e).withPermits permits)) : I x := by
  induction later generalizing x with
  | nil =>
    cases h with
    | act => exact start
  | cons _ _ ih =>
    cases h with
    | @act _ x y a effects h hp ha =>
      have hx := h.consistent hd
      have hI := ih h
      exact hx.kept hp ha hI (fun c hc _ => add x c hI hc)
        fun i o k' o' permits e hi _ ht => put x i o k' o' permits e hx hI hi ht

end Run

/-- The log of `Traffic.after`. -/
def log (d : Discipline) (x : Traffic) : List (Action μ) → List (Step μ)
  | [] => []
  | a :: rest =>
    if d.Permits x a then
      match x.act a with
      | some (effects, y) => log d y rest ++ [⟨x, a, effects, y⟩]
      | none => log d x rest
    else log d x rest

theorem Run.after {steps : List (Step μ)} (h : Run μ d config range steps x)
    (actions : List (Action μ)) :
    Run μ d config range (x.log d actions ++ steps) (x.after d actions) := by
  induction actions generalizing x steps with
  | nil => exact h
  | cons a rest ih =>
    unfold Traffic.after log
    split
    case isTrue hp =>
      cases ha : x.act a with
      | none => exact ih h
      | some r =>
        rw [List.append_assoc]
        exact ih (.act h hp ha)
    case isFalse => exact ih h

end Traffic

end Lifecycle
