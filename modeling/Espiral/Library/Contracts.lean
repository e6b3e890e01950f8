/-!
# Contracts of stateful computations

A computation returns or throws, and in both cases leaves a state behind.
`Ensures` states what holds in either case, and the rules below are the ones
a proof follows the program text with. Nothing is assumed about termination:
a computation of this type is a total function.
-/

namespace Contracts

set_option autoImplicit false

variable {Error State Value Result Item : Type}

/-- From this state the computation returns with `returns` or throws with `throws`. -/
def Ensures (action : EStateM Error State Value) (state : State)
    (returns : Value → State → Prop) (throws : Error → State → Prop) : Prop :=
  match action state with
  | .ok value next => returns value next
  | .error error next => throws error next

section Runs

variable {action : EStateM Error State Value} {state next : State} {value : Value}
  {error : Error} {continuation : Value → EStateM Error State Result}

theorem map_ok (f : Value → Result) (ran : action state = .ok value next) :
    (f <$> action) state = .ok (f value) next := by
  simp only [Functor.map, EStateM.map, ran]

theorem map_error (f : Value → Result) (ran : action state = .error error next) :
    (f <$> action) state = .error error next := by
  simp only [Functor.map, EStateM.map, ran]

theorem bind_ok (ran : action state = .ok value next) :
    (action >>= continuation) state = continuation value next := by
  simp only [bind, EStateM.bind, ran]

theorem bind_error (ran : action state = .error error next) :
    (action >>= continuation) state = .error error next := by
  simp only [bind, EStateM.bind, ran]

theorem bind_returns {result : Result} {final : State}
    (ran : (action >>= continuation) state = .ok result final) :
    ∃ value next, action state = .ok value next ∧ continuation value next = .ok result final := by
  simp only [bind, EStateM.bind] at ran
  cases first : action state with
  | ok value next =>
      rw [first] at ran
      exact ⟨value, next, rfl, ran⟩
  | error error next =>
      rw [first] at ran
      cases ran

end Runs

section Rules

variable {state : State} {returns weaker : Value → State → Prop}
  {throws weakerThrows : Error → State → Prop}

theorem ensures_iff {action : EStateM Error State Value} :
    Ensures action state returns throws ↔
      (∃ value next, action state = .ok value next ∧ returns value next) ∨
        ∃ error next, action state = .error error next ∧ throws error next := by
  unfold Ensures
  cases action state with
  | ok value next =>
      constructor
      · intro holds
        exact Or.inl ⟨value, next, rfl, holds⟩
      · rintro (⟨_, _, same, holds⟩ | ⟨_, _, same, _⟩)
        · cases same
          exact holds
        · cases same
  | error error next =>
      constructor
      · intro holds
        exact Or.inr ⟨error, next, rfl, holds⟩
      · rintro (⟨_, _, same, _⟩ | ⟨_, _, same, holds⟩)
        · cases same
        · cases same
          exact holds

theorem Ensures.of_ok {action : EStateM Error State Value} {value : Value} {next : State}
    (ensures : Ensures action state returns throws) (ran : action state = .ok value next) :
    returns value next := by
  unfold Ensures at ensures
  rw [ran] at ensures
  exact ensures

theorem Ensures.of_error {action : EStateM Error State Value} {error : Error} {next : State}
    (ensures : Ensures action state returns throws) (ran : action state = .error error next) :
    throws error next := by
  unfold Ensures at ensures
  rw [ran] at ensures
  exact ensures

theorem Ensures.either {action : EStateM Error State Value} {Property : State → Prop} {next : State}
    (ensures : Ensures action state (fun _ next => Property next) (fun _ next => Property next))
    (outcome : (∃ value, action state = .ok value next) ∨ ∃ error, action state = .error error next) :
    Property next := by
  cases outcome with
  | inl returned =>
      obtain ⟨_, ran⟩ := returned
      exact ensures.of_ok ran
  | inr thrown =>
      obtain ⟨_, ran⟩ := thrown
      exact ensures.of_error ran

theorem ensures_of_run {action : EStateM Error State Value} {value : Value} {next : State}
    (ran : action state = .ok value next) (holds : returns value next) :
    Ensures action state returns throws := by
  unfold Ensures
  rw [ran]
  exact holds

theorem ensures_of_throw {action : EStateM Error State Value} {error : Error} {next : State}
    (ran : action state = .error error next) (holds : throws error next) :
    Ensures action state returns throws := by
  unfold Ensures
  rw [ran]
  exact holds

theorem Ensures.of_eq {action other : EStateM Error State Value} {start : State}
    (ensures : Ensures other start returns throws) (same : action state = other start) :
    Ensures action state returns throws := by
  unfold Ensures at ensures ⊢
  rw [same]
  exact ensures

theorem Ensures.weaken {action : EStateM Error State Value}
    (ensures : Ensures action state returns throws)
    (onReturn : ∀ value next, returns value next → weaker value next)
    (onThrow : ∀ error next, throws error next → weakerThrows error next) :
    Ensures action state weaker weakerThrows := by
  unfold Ensures at ensures ⊢
  cases ran : action state with
  | ok value next =>
      rw [ran] at ensures
      exact onReturn value next ensures
  | error error next =>
      rw [ran] at ensures
      exact onThrow error next ensures

theorem Ensures.both {action : EStateM Error State Value}
    (left : Ensures action state returns throws)
    (right : Ensures action state weaker weakerThrows) :
    Ensures action state (fun value next => returns value next ∧ weaker value next)
      (fun error next => throws error next ∧ weakerThrows error next) := by
  unfold Ensures at left right ⊢
  cases ran : action state with
  | ok value next =>
      rw [ran] at left right
      exact ⟨left, right⟩
  | error error next =>
      rw [ran] at left right
      exact ⟨left, right⟩

theorem ensures_pure {value : Value} (holds : returns value state) :
    Ensures (pure value : EStateM Error State Value) state returns throws := holds

theorem ensures_throw {error : Error} (holds : throws error state) :
    Ensures (throw error : EStateM Error State Value) state returns throws := holds

/-- The first part may throw; otherwise the second one starts where it stopped. -/
theorem Ensures.bind {action : EStateM Error State Value}
    {continuation : Value → EStateM Error State Result} {after : Result → State → Prop}
    (first : Ensures action state
      (fun value next => Ensures (continuation value) next after throws) throws) :
    Ensures (action >>= continuation) state after throws := by
  unfold Ensures at first
  cases ran : action state with
  | ok value next =>
      rw [ran] at first
      unfold Ensures
      rw [bind_ok ran]
      exact first
  | error error next =>
      rw [ran] at first
      unfold Ensures
      rw [bind_error ran]
      exact first

theorem ensures_bind_of_run {action : EStateM Error State Value} {value : Value} {next : State}
    {continuation : Value → EStateM Error State Result} {after : Result → State → Prop}
    (ran : action state = .ok value next)
    (rest : Ensures (continuation value) next after throws) :
    Ensures (action >>= continuation) state after throws :=
  Ensures.bind (ensures_of_run ran rest)

theorem ensures_map {action : EStateM Error State Value} {f : Value → Result}
    {after throws : State → Prop}
    (ensures : Ensures action state (fun _ next => after next) (fun _ next => throws next)) :
    Ensures (f <$> action) state (fun _ next => after next) (fun _ next => throws next) := by
  rcases ensures_iff.mp ensures with ⟨value, next, ran, holds⟩ | ⟨error, next, ran, holds⟩
  · exact ensures_of_run (map_ok f ran) holds
  · exact ensures_of_throw (map_error f ran) holds

/-- A loop over a list: the invariant knows which items are done. -/
theorem ensures_forM {body : Item → EStateM Error State PUnit}
    {Invariant : List Item → State → Prop} {after : List Item} (done todo : List Item)
    (whole : done ++ todo = after)
    (step : ∀ before item rest state, before ++ item :: rest = after → Invariant before state →
      Ensures (body item) state (fun _ next => Invariant (before ++ [item]) next) throws)
    (start : Invariant done state) :
    Ensures (todo.forM body) state (fun _ next => Invariant after next) throws := by
  induction todo generalizing done state with
  | nil =>
      rw [List.append_nil] at whole
      rw [← whole]
      exact start
  | cons item rest ih =>
      apply Ensures.bind
      apply (step done item rest state whole start).weaken
      · intro _ next kept
        exact ih (done ++ [item]) (by rw [List.append_assoc]; exact whole) kept
      · intro _ _ thrown
        exact thrown

/-- A fold over a list: the invariant knows which items are done. -/
theorem ensures_foldlM {body : Value → Item → EStateM Error State Value}
    {Invariant : List Item → Value → State → Prop} {after : List Item} (done todo : List Item)
    (whole : done ++ todo = after)
    (step : ∀ before item rest value state, before ++ item :: rest = after →
      Invariant before value state →
      Ensures (body value item) state (fun value next => Invariant (before ++ [item]) value next)
        throws)
    {value : Value} (start : Invariant done value state) :
    Ensures (todo.foldlM body value) state (fun value next => Invariant after value next) throws := by
  induction todo generalizing done value state with
  | nil =>
      rw [List.append_nil] at whole
      rw [← whole]
      exact start
  | cons item rest ih =>
      apply Ensures.bind
      apply (step done item rest value state whole start).weaken
      · intro _ next kept
        exact ih (done ++ [item]) (by rw [List.append_assoc]; exact whole) kept
      · intro _ _ thrown
        exact thrown

end Rules

def Keeps (Invariant : State → Prop) (action : EStateM Error State Value) : Prop :=
  ∀ state, Invariant state →
    Ensures action state (fun _ next => Invariant next) (fun _ next => Invariant next)

section Invariants

variable {Invariant : State → Prop} {action : EStateM Error State Value}

theorem keeps_pure (value : Value) :
    Keeps Invariant (pure value : EStateM Error State Value) :=
  fun _ kept => ensures_pure kept

theorem keeps_throw (error : Error) :
    Keeps Invariant (throw error : EStateM Error State Value) :=
  fun _ kept => ensures_throw kept

theorem Keeps.bind {continuation : Value → EStateM Error State Result}
    (first : Keeps Invariant action) (rest : ∀ value, Keeps Invariant (continuation value)) :
    Keeps Invariant (action >>= continuation) := by
  intro state kept
  apply Ensures.bind
  apply (first state kept).weaken
  · intro value next now
    exact rest value next now
  · intro _ _ thrown
    exact thrown

theorem keeps_ite {condition : Prop} [Decidable condition] {other : EStateM Error State Value}
    (left : condition → Keeps Invariant action) (right : ¬condition → Keeps Invariant other) :
    Keeps Invariant (if condition then action else other) := by
  split
  · next holds => exact left holds
  · next fails => exact right fails

theorem keeps_foldlM {body : Value → Item → EStateM Error State Value}
    (step : ∀ value item, Keeps Invariant (body value item)) (items : List Item) (value : Value) :
    Keeps Invariant (items.foldlM body value) := by
  intro state kept
  apply @ensures_foldlM _ _ _ _ _ _ _ (fun _ _ next => Invariant next) items [] items
    (List.nil_append items) ?_ _ kept
  intro _ item _ found current _ now
  exact step found item current now

end Invariants

-- From here on the rules are the only way in: unfolding would run the action.
attribute [irreducible] Ensures

end Contracts
