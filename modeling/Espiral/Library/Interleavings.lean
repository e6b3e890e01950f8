import Mathlib.Algebra.Order.BigOperators.Group.Finset
import Mathlib.Logic.Function.Basic
import Espiral.Library.Traces

/-!
# Interleavings of threads

Threads with a state of their own take turns on a shared one. An outline gives
an assertion for every point a thread can be at, and says what the steps of the
other threads leave of it; then all assertions hold in every state of every
interleaving. The ghost values are what the assertions need to know and the
program does not.
-/

namespace Interleavings

set_option autoImplicit false

open Traces

variable {Thread Shared Point Label Ghost : Type*}

structure World (Thread Shared Point : Type*) where
  shared : Shared
  points : Thread → Point

abbrev Actions (Thread Shared Point Label : Type*) :=
  Thread → World Thread Shared Point → Label → Shared → Point → Prop

structure Step (act : Actions Thread Shared Point Label) (world : World Thread Shared Point)
    (event : Thread × Label) (next : World Thread Shared Point) : Prop where
  acted : act event.1 world event.2 next.shared (next.points event.1)
  others : ∀ other, other ≠ event.1 → next.points other = world.points other

/-- All assertions hold, for these ghost values. -/
structure Holds (Global : Ghost → Shared → Prop) (At : Ghost → Shared → Thread → Point → Prop)
    (ghost : Ghost) (world : World Thread Shared Point) : Prop where
  holds : Global ghost world.shared
  at_ : ∀ thread, At ghost world.shared thread (world.points thread)

/-- A step re-establishes the assertion of its own thread, and the assertions of the others
survive what it does to the shared state. -/
structure Outline (act : Actions Thread Shared Point Label) (Global : Ghost → Shared → Prop)
    (At : Ghost → Shared → Thread → Point → Prop)
    (Rely : Thread → Ghost → Shared → Ghost → Shared → Prop) : Prop where
  step : ∀ {ghost world thread label next after}, Holds Global At ghost world →
    act thread world label next after →
      ∃ later, Global later next ∧ At later next thread after ∧
        ∀ other, other ≠ thread → Rely other ghost world.shared later next
  stable : ∀ {ghost shared later next thread point}, Global ghost shared →
    At ghost shared thread point → Rely thread ghost shared later next → Global later next →
      At later next thread point

section Rules

variable {act : Actions Thread Shared Point Label} {Global : Ghost → Shared → Prop}
  {At : Ghost → Shared → Thread → Point → Prop}
  {Rely : Thread → Ghost → Shared → Ghost → Shared → Prop}
  {world next : World Thread Shared Point}

theorem Outline.keeps (outline : Outline act Global At Rely) {ghost : Ghost}
    {event : Thread × Label} (holds : Holds Global At ghost world) (moved : Step act world event next) :
    ∃ later, Holds Global At later next := by
  obtain ⟨later, global, mine, rely⟩ := outline.step holds moved.acted
  refine ⟨later, global, ?_⟩
  intro thread
  by_cases same : thread = event.1
  · rw [same]
    exact mine
  · rw [moved.others thread same]
    exact outline.stable holds.holds (holds.at_ thread) (rely thread same) global

/-- The assertions hold in every state of every interleaving. -/
theorem Outline.run (outline : Outline act Global At Rely) {events : List (Thread × Label)}
    (run : Trace (Step act) world events next) (start : ∃ ghost, Holds Global At ghost world) :
    ∃ ghost, Holds Global At ghost next := by
  apply run.invariant (fun world => ∃ ghost, Holds Global At ghost world) _ start
  intro _ _ _ holds moved
  obtain ⟨ghost, held⟩ := holds
  exact outline.keeps held moved

section Weights

variable [Fintype Thread]

def World.weigh (weight : Point → Nat) (world : World Thread Shared Point) : Nat :=
  ∑ thread, weight (world.points thread)

theorem Step.weigh_lt {weight : Point → Nat} {event : Thread × Label}
    (moved : Step act world event next)
    (nearer : weight (next.points event.1) < weight (world.points event.1)) :
    next.weigh weight < world.weigh weight := by
  apply Finset.sum_lt_sum
  · intro thread _
    by_cases same : thread = event.1
    · rw [same]
      exact nearer.le
    · rw [moved.others thread same]
  · exact ⟨event.1, Finset.mem_univ _, nearer⟩

end Weights

section Alone

variable [DecidableEq Thread]

def World.move (world : World Thread Shared Point) (thread : Thread) (shared : Shared)
    (point : Point) : World Thread Shared Point where
  shared := shared
  points := Function.update world.points thread point

theorem World.move_points (world : World Thread Shared Point) (thread : Thread) (shared : Shared)
    (point : Point) : (world.move thread shared point).points thread = point := by
  simp only [World.move, Function.update_self]

theorem World.move_self {thread : Thread} {point : Point} (here : world.points thread = point) :
    world.move thread world.shared point = world := by
  rw [World.move, ← here, Function.update_eq_self]

theorem World.move_move (world : World Thread Shared Point) (thread : Thread)
    (shared later : Shared) (point after : Point) :
    (world.move thread shared point).move thread later after = world.move thread later after := by
  simp only [World.move, Function.update_idem]

theorem step_of_act {thread : Thread} {label : Label} {shared : Shared} {point : Point}
    (acted : act thread world label shared point) :
    Step act world (thread, label) (world.move thread shared point) where
  acted := by
    rw [World.move_points]
    exact acted
  others other different := by
    simp only [World.move, Function.update_of_ne different]

end Alone

end Rules

end Interleavings
