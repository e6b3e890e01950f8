import Mathlib.Data.List.Basic

/-!
# Runs of a transition system

A run is a list of labels leading from one state to another. The two rules
below are induction over runs, said once: what every step keeps holds at the
end, and a machine that answers each call as a specification allows does so
for every sequence of calls.
-/

namespace Traces

set_option autoImplicit false

variable {State Label : Type*}

inductive Trace (step : State → Label → State → Prop) : State → List Label → State → Prop
  | nil (state : State) : Trace step state [] state
  | cons {first second third : State} {label : Label} {labels : List Label}
      (head : step first label second) (tail : Trace step second labels third) :
      Trace step first (label :: labels) third

section Rules

variable {step : State → Label → State → Prop} {first second third : State}
  {labels later : List Label}

theorem Trace.append (left : Trace step first labels second) (right : Trace step second later third) :
    Trace step first (labels ++ later) third := by
  induction left with
  | nil => exact right
  | cons head _ ih => exact Trace.cons head (ih right)

theorem Trace.snoc {label : Label} (run : Trace step first labels second)
    (last : step second label third) : Trace step first (labels ++ [label]) third :=
  run.append (Trace.cons last (Trace.nil third))

theorem Trace.mono {other : State → Label → State → Prop}
    (allowed : ∀ state label next, step state label next → other state label next)
    (run : Trace step first labels second) : Trace other first labels second := by
  induction run with
  | nil state => exact Trace.nil state
  | cons head _ ih => exact Trace.cons (allowed _ _ _ head) ih

/-- What holds at the start and is kept by every step holds at the end. -/
theorem Trace.invariant (Invariant : State → Prop)
    (keeps : ∀ state label next, Invariant state → step state label next → Invariant next)
    (run : Trace step first labels second) (start : Invariant first) : Invariant second := by
  induction run with
  | nil => exact start
  | cons head _ ih => exact ih (keeps _ _ _ start head)

/-- Steps that make a measure smaller are not many. -/
theorem Trace.bounded (Invariant : State → Prop) (Counted : Label → Prop) (measure : State → Nat)
    (keeps : ∀ state label next, Invariant state → step state label next → Invariant next)
    (smaller : ∀ state label next, Invariant state → step state label next → Counted label →
      measure next < measure state)
    (run : Trace step first labels second) (start : Invariant first)
    (counted : ∀ label ∈ labels, Counted label) : labels.length + measure second ≤ measure first := by
  induction run with
  | nil => exact Nat.le_of_eq (Nat.zero_add _)
  | cons head _ ih =>
      have rest := ih (keeps _ _ _ start head) fun label member =>
        counted label (List.mem_cons_of_mem _ member)
      have less := smaller _ _ _ start head (counted _ List.mem_cons_self)
      rw [List.length_cons]
      omega

end Rules

section Calls

variable {Error Call Outcome : Type} {World : Type} {Specification : Type*}

/-- A machine that answers every admissible call as its specification allows
answers every sequence of them, and the answers are a run of the specification. -/
theorem mapM_simulation {perform : Call → EStateM Error World Outcome} {admissible : Call → Prop}
    {abstractStep : Specification → Call × Outcome → Specification → Prop}
    {relation : World → Specification → Prop}
    (answers : ∀ world abstract call, relation world abstract → admissible call →
      ∃ outcome next later, perform call world = .ok outcome next ∧
        abstractStep abstract (call, outcome) later ∧ relation next later)
    (calls : List Call) (allowed : ∀ call ∈ calls, admissible call) {world : World}
    {abstract : Specification} (start : relation world abstract) :
    ∃ outcomes final last, calls.mapM perform world = .ok outcomes final ∧
      Trace abstractStep abstract (calls.zip outcomes) last ∧ relation final last := by
  induction calls generalizing world abstract with
  | nil => exact ⟨[], world, abstract, rfl, Trace.nil abstract, start⟩
  | cons call rest ih =>
      rcases answers world abstract call start (allowed call (by simp)) with
        ⟨outcome, next, later, ran, moved, related⟩
      rcases ih (fun other member => allowed other (by simp [member])) related with
        ⟨outcomes, final, last, others, run, done⟩
      refine ⟨outcome :: outcomes, final, last, ?_, Trace.cons moved run, done⟩
      rw [List.mapM_cons]
      simp only [bind, EStateM.bind, ran, others, pure, EStateM.pure]

end Calls

end Traces
