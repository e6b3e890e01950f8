/-!
# Simulations of stateful computations

Two machines are driven by the same program. If each of the operations that
touch their states takes related states to related states and ends in the same
way, so does the whole program: whoever calls it cannot tell the machines apart.
-/

namespace Simulations

set_option autoImplicit false

variable {Error State Twin Value Result Item : Type}

/-- Both end in the same way: they return the same value or throw the same error, in states
that are related. -/
inductive SameEnd (relation : State → Twin → Prop) :
    EStateM.Result Error State Value → EStateM.Result Error Twin Value → Prop
  | returned {value : Value} {next : State} {after : Twin} (related : relation next after) :
      SameEnd relation (.ok value next) (.ok value after)
  | thrown {error : Error} {next : State} {after : Twin} (related : relation next after) :
      SameEnd relation (.error error next) (.error error after)

def Matches (relation : State → Twin → Prop) (action : EStateM Error State Value)
    (other : EStateM Error Twin Value) : Prop :=
  ∀ state twin, relation state twin → SameEnd relation (action state) (other twin)

section Rules

variable {relation : State → Twin → Prop} {action : EStateM Error State Value}
  {other : EStateM Error Twin Value}

theorem matches_pure (value : Value) : Matches relation
    (pure value : EStateM Error State Value) (pure value : EStateM Error Twin Value) :=
  fun _ _ related => .returned related

theorem matches_throw (error : Error) : Matches relation
    (throw error : EStateM Error State Value) (throw error : EStateM Error Twin Value) :=
  fun _ _ related => .thrown related

theorem Matches.bind {continuation : Value → EStateM Error State Result}
    {otherContinuation : Value → EStateM Error Twin Result}
    (first : Matches relation action other)
    (rest : ∀ value, Matches relation (continuation value) (otherContinuation value)) :
    Matches relation (action >>= continuation) (other >>= otherContinuation) := by
  intro state twin related
  have ends := first state twin related
  change SameEnd relation (EStateM.bind action continuation state)
    (EStateM.bind other otherContinuation twin)
  unfold EStateM.bind
  generalize action state = left at ends
  generalize other twin = right at ends
  cases ends with
  | @returned value next after relatedNext => exact rest value next after relatedNext
  | thrown relatedNext => exact .thrown relatedNext

theorem matches_ite {condition : Prop} [Decidable condition]
    {second : EStateM Error State Value} {otherSecond : EStateM Error Twin Value}
    (holds : condition → Matches relation action other)
    (fails : ¬condition → Matches relation second otherSecond) :
    Matches relation (if condition then action else second)
      (if condition then other else otherSecond) := by
  by_cases decided : condition
  · rw [if_pos decided, if_pos decided]
    exact holds decided
  · rw [if_neg decided, if_neg decided]
    exact fails decided

theorem matches_forM {body : Item → EStateM Error State PUnit}
    {otherBody : Item → EStateM Error Twin PUnit}
    (step : ∀ item, Matches relation (body item) (otherBody item)) (items : List Item) :
    Matches relation (items.forM body) (items.forM otherBody) := by
  induction items with
  | nil => exact matches_pure _
  | cons item rest ih =>
      exact (step item).bind fun _ => ih

end Rules

def answerOf : EStateM.Result Error State Value → Except Error Value
  | .ok value _ => .ok value
  | .error error _ => .error error

def stateAfter : EStateM.Result Error State Value → State
  | .ok _ next => next
  | .error _ next => next

/-- Calls one after the other, whether they return or throw, and what the caller sees of them. -/
def converse (perform : Item → EStateM Error State Value) : List Item → State →
    List (Except Error Value) × State
  | [], state => ([], state)
  | call :: rest, state =>
      let ended := perform call state
      let (answers, last) := converse perform rest (stateAfter ended)
      (answerOf ended :: answers, last)

/-- A caller of two machines that match cannot tell them apart. -/
theorem converse_matches {relation : State → Twin → Prop}
    {perform : Item → EStateM Error State Value} {other : Item → EStateM Error Twin Value}
    (step : ∀ call, Matches relation (perform call) (other call)) (calls : List Item)
    {state : State} {twin : Twin} (related : relation state twin) :
    (converse perform calls state).1 = (converse other calls twin).1 ∧
      relation (converse perform calls state).2 (converse other calls twin).2 := by
  induction calls generalizing state twin with
  | nil => exact ⟨rfl, related⟩
  | cons call rest ih =>
      have ends := step call state twin related
      simp only [converse]
      generalize perform call state = left at ends
      generalize other call twin = right at ends
      cases ends with
      | returned relatedNext =>
          obtain ⟨answers, last⟩ := ih relatedNext
          exact ⟨congrArg _ answers, last⟩
      | thrown relatedNext =>
          obtain ⟨answers, last⟩ := ih relatedNext
          exact ⟨congrArg _ answers, last⟩

end Simulations
