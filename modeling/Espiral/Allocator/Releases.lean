import Espiral.Allocator.LiveMapRuns
import Espiral.Allocator.MemoryView

/-!
# Releases undo allocations and commute

Every order of releases leaves the same used blocks in pages that were there
before, and these determine the memory.
-/

namespace Espiral.VortexMemoryAllocator

set_option autoImplicit false

open Contracts MachineWords Traces

def Live (state : VortexMemoryAllocator) (addr : Nat) : Prop :=
  ∃ size, (addr, size) ∈ state.usedBlocks

section Releases

variable {state next : VortexMemoryAllocator} {addr size : Nat}

theorem Grant.release_view (sound : Sound state) (grant : Grant state next addr size)
    (grown : ∀ extent ∈ state.extents, extent ∈ next.extents) :
    ∃ back, next.release addr = .ok true back ∧ back.view = state.view := by
  rcases grant.released with ⟨back, ran, revoke, used⟩
  refine ⟨back, ran, ?_⟩
  exact view_eq_of_within grant.sound revoke.sound sound revoke.extents grown used

theorem Revoke.used_filter (sound : Sound state) (revoke : Revoke state next addr size) :
    next.usedBlocks.Perm (state.usedBlocks.filter fun block => decide (block.1 ≠ addr)) := by
  have kept : ∀ block ∈ next.usedBlocks, block.1 ≠ addr := by
    intro block member same
    have blocks := sound.used_apart
    have apart := (revoke.used.pairwise_iff (fun {_ _} => Page.Apart.symm)).mp blocks
    have beside := (List.pairwise_cons.mp apart).1 block member
    have here : (addr, size) ∈ state.usedBlocks :=
      revoke.used.mem_iff.mpr List.mem_cons_self
    have positive := sound.used_positive here
    have otherPositive := revoke.sound.used_positive member
    unfold Page.Apart at beside
    simp only at beside positive
    omega
  have filtered := revoke.used.filter fun block => decide (block.1 ≠ addr)
  rw [List.filter_cons_of_neg (by simp)] at filtered
  have whole : next.usedBlocks.filter (fun block => decide (block.1 ≠ addr)) = next.usedBlocks :=
    List.filter_eq_self.mpr fun block member => decide_eq_true (kept block member)
  rw [whole] at filtered
  exact filtered.symm

theorem Revoke.live_of_ne {other : Nat} (sound : Sound state)
    (revoke : Revoke state next addr size) (different : other ≠ addr) (live : Live state other) :
    Live next other := by
  rcases live with ⟨length, listed⟩
  refine ⟨length, ?_⟩
  rw [(revoke.used_filter sound).mem_iff]
  exact List.mem_filter.mpr ⟨listed, decide_eq_true different⟩

theorem Sound.release_ok (sound : Sound state) (live : Live state addr) :
    ∃ next size, state.release addr = .ok true next ∧ Revoke state next addr size := by
  rcases live with ⟨size, member⟩
  rcases sound.release_live member with ⟨next, ran, revoke⟩
  exact ⟨next, size, ran, revoke⟩

structure AllReleased (state : VortexMemoryAllocator) (addrs : List Nat)
    (final : VortexMemoryAllocator) : Prop where
  sound : Sound final
  extents : ∀ extent ∈ final.extents, extent ∈ state.extents
  used : final.usedBlocks.Perm
    (state.usedBlocks.filter fun block => decide (block.1 ∉ addrs))

theorem AllReleased.nil (sound : Sound state) : AllReleased state [] state where
  sound := sound
  extents _ member := member
  used := by simp

theorem Revoke.allReleased {final : VortexMemoryAllocator} {addrs : List Nat}
    (sound : Sound state) (revoke : Revoke state next addr size)
    (rest : AllReleased next addrs final) : AllReleased state (addr :: addrs) final where
  sound := rest.sound
  extents extent member := revoke.extents extent (rest.extents extent member)
  used := by
    apply rest.used.trans
    apply ((revoke.used_filter sound).filter _).trans
    rw [List.filter_filter]
    apply List.Perm.of_eq
    apply List.filter_congr
    intro block _
    simp only [List.mem_cons, not_or, ← Bool.decide_and, and_comm]

theorem releases_run {addrs : List Nat} (sound : Sound state) (distinct : addrs.Nodup)
    (live : ∀ addr ∈ addrs, Live state addr) :
    ∃ final, addrs.mapM release state = .ok (List.replicate addrs.length true) final ∧
      AllReleased state addrs final := by
  induction addrs generalizing state with
  | nil => exact ⟨state, rfl, AllReleased.nil sound⟩
  | cons first rest ih =>
      rcases List.nodup_cons.mp distinct with ⟨fresh, restDistinct⟩
      rcases sound.release_ok (live first (by simp)) with ⟨next, size, ran, revoke⟩
      have restLive : ∀ addr ∈ rest, Live next addr := by
        intro addr member
        apply revoke.live_of_ne sound ?_ (live addr (by simp [member]))
        intro same
        rw [same] at member
        exact fresh member
      rcases ih revoke.sound restDistinct restLive with ⟨final, others, released⟩
      refine ⟨final, ?_, revoke.allReleased sound released⟩
      rw [List.mapM_cons]
      simp only [bind, EStateM.bind, ran, others, pure, EStateM.pure, List.length_cons,
        List.replicate_succ]

theorem Sound.release_pair (sound : Sound state) {first second : Nat} (different : first ≠ second)
    (firstLive : Live state first) (secondLive : Live state second) :
    ∃ between final, state.release first = .ok true between ∧
      between.release second = .ok true final ∧ AllReleased state [first, second] final := by
  rcases sound.release_ok firstLive with ⟨between, size, ran, revoke⟩
  have live := revoke.live_of_ne sound different.symm secondLive
  rcases revoke.sound.release_ok live with ⟨final, otherSize, others, otherRevoke⟩
  refine ⟨between, final, ran, others, revoke.allReleased sound ?_⟩
  exact otherRevoke.allReleased revoke.sound (AllReleased.nil otherRevoke.sound)

theorem AllReleased.view_eq {addrs others : List Nat} {one other : VortexMemoryAllocator}
    (sound : Sound state) (same : addrs.Perm others) (first : AllReleased state addrs one)
    (second : AllReleased state others other) : one.view = other.view := by
  apply view_eq_of_within sound first.sound second.sound first.extents second.extents
  apply first.used.trans
  apply List.Perm.trans ?_ second.used.symm
  apply List.Perm.of_eq
  apply List.filter_congr
  intro block _
  simp only [same.mem_iff]

theorem Sound.nothing_left (sound : Sound state) (none : state.usedBlocks = []) :
    state.pages_ = [] ∧ state.allocated_ = 0 := by
  constructor
  · apply List.eq_nil_iff_forall_not_mem.mpr
    intro page member
    rcases (sound.pages page member).occupied with ⟨block, inPage⟩
    have listed : block ∈ state.usedBlocks := List.mem_flatMap.mpr ⟨page, member, inPage⟩
    rw [none] at listed
    cases listed
  · rw [sound.accounted, none]
    rfl

theorem AllReleased.nothing_left {addrs : List Nat} {final : VortexMemoryAllocator}
    (released : AllReleased state addrs final) (all : ∀ addr, Live state addr → addr ∈ addrs) :
    final.pages_ = [] ∧ final.allocated_ = 0 := by
  apply released.sound.nothing_left
  apply List.Perm.eq_nil
  apply released.used.trans
  apply List.Perm.of_eq
  apply List.filter_eq_nil_iff.mpr
  intro block member
  have listed := all block.1 ⟨block.2, member⟩
  simpa using listed

end Releases

section Run

variable {base capacity pageAlign blockAlign : Nat}

/-- Releasing what an allocation has returned restores the memory. -/
theorem release_undoes_allocate (pagePower : ∃ bits < 32, pageAlign = 2 ^ bits)
    (blockPower : ∃ bits < 32, blockAlign = 2 ^ bits) (range : base + capacity ≤ 2 ^ 32)
    {labels : List (Call × Outcome)} {state next : VortexMemoryAllocator}
    (run : Trace (AdmissibleStep capacity pageAlign blockAlign)
      (initialised base capacity pageAlign blockAlign) labels state)
    {size addr : Nat} (admissible : Admissible capacity pageAlign blockAlign (.allocate size))
    (ran : state.allocate size = .ok (some addr) next) :
    ∃ back, next.release addr = .ok true back ∧ back.view = state.view := by
  have bounded := run_bounded pagePower blockPower range run
  rcases bounded.allocated range rfl admissible ran with ⟨length, grant, grown⟩
  exact grant.release_view bounded.sound grown

theorem release_undoes_allocate_first : ∃ next back,
    (initialised 0x1000 0x10000 4096 64).allocate 100 = .ok (some 0x1000) next ∧
      next.release 0x1000 = .ok true back ∧
        back.view = (initialised 0x1000 0x10000 4096 64).view := by
  have pagePower : ∃ bits < 32, 4096 = 2 ^ bits := ⟨12, by decide, rfl⟩
  have blockPower : ∃ bits < 32, 64 = 2 ^ bits := ⟨6, by decide, rfl⟩
  have sound := initialised_sound pagePower blockPower (by decide : 0x1000 + 0x10000 < 2 ^ 64)
  rcases allocate_first sound rfl (by decide : 0 < 100) (by decide) with ⟨next, ran, _⟩
  have admissible : Admissible 0x10000 4096 64 (.allocate 100) :=
    (by decide : roundUp (roundUp 100 64) 4096 ≤ 0x10000)
  rcases release_undoes_allocate pagePower blockPower (by decide : 0x1000 + 0x10000 ≤ 2 ^ 32)
    (Trace.nil _) admissible ran with ⟨back, released, same⟩
  exact ⟨next, back, ran, released, same⟩

/-- Live blocks may be released in any order: two of them one way or the other, and any set of
them by any two sequences of calls. Nothing is left when all of them are released. -/
theorem releases_commute (pagePower : ∃ bits < 32, pageAlign = 2 ^ bits)
    (blockPower : ∃ bits < 32, blockAlign = 2 ^ bits) (range : base + capacity ≤ 2 ^ 32)
    {labels : List (Call × Outcome)} {state : VortexMemoryAllocator}
    (run : Trace (AdmissibleStep capacity pageAlign blockAlign)
      (initialised base capacity pageAlign blockAlign) labels state) :
    (∀ first second, first ≠ second → Live state first → Live state second →
      ∃ withoutFirst withoutSecond one other,
        state.release first = .ok true withoutFirst ∧
        withoutFirst.release second = .ok true one ∧
        state.release second = .ok true withoutSecond ∧
        withoutSecond.release first = .ok true other ∧ one.view = other.view) ∧
    ∀ addrs others : List Nat, addrs.Nodup → (∀ addr ∈ addrs, Live state addr) →
      addrs.Perm others → ∃ one other,
        addrs.mapM release state = .ok (List.replicate addrs.length true) one ∧
        others.mapM release state = .ok (List.replicate others.length true) other ∧
        one.view = other.view ∧
        ((∀ addr, Live state addr → addr ∈ addrs) → one.pages_ = [] ∧ one.allocated_ = 0) := by
  have sound := (run_bounded pagePower blockPower range run).sound
  constructor
  · intro first second different firstLive secondLive
    rcases sound.release_pair different firstLive secondLive with
      ⟨withoutFirst, one, firstRan, thenSecond, released⟩
    rcases sound.release_pair different.symm secondLive firstLive with
      ⟨withoutSecond, other, secondRan, thenFirst, otherReleased⟩
    exact ⟨withoutFirst, withoutSecond, one, other, firstRan, thenSecond, secondRan, thenFirst,
      released.view_eq sound (List.Perm.swap second first []) otherReleased⟩
  · intro addrs others distinct live same
    rcases releases_run sound distinct live with ⟨one, ran, released⟩
    rcases releases_run sound (same.nodup_iff.mp distinct)
      (fun addr member => live addr (same.mem_iff.mpr member)) with ⟨other, otherRan, otherReleased⟩
    exact ⟨one, other, ran, otherRan, released.view_eq sound same otherReleased,
      released.nothing_left⟩

theorem releases_commute_two : ∃ state next,
    (initialised 0x1000 0x10000 4096 64).allocate 100 = .ok (some 0x1000) state ∧
      state.allocate 100 = .ok (some 0x1080) next ∧ ∃ one other,
        [0x1000, 0x1080].mapM release next = .ok [true, true] one ∧
        [0x1080, 0x1000].mapM release next = .ok [true, true] other ∧ one.view = other.view := by
  have pagePower : ∃ bits < 32, 4096 = 2 ^ bits := ⟨12, by decide, rfl⟩
  have blockPower : ∃ bits < 32, 64 = 2 ^ bits := ⟨6, by decide, rfl⟩
  have admissible : Admissible 0x10000 4096 64 (.allocate 100) :=
    (by decide : roundUp (roundUp 100 64) 4096 ≤ 0x10000)
  have granted : ∃ state, (initialised 0x1000 0x10000 4096 64).allocate 100 =
    .ok (some 0x1000) state ∧ ∃ next, state.allocate 100 = .ok (some 0x1080) next ∧
      (0x1000, 128) ∈ next.usedBlocks ∧ (0x1080, 128) ∈ next.usedBlocks :=
    ⟨_, rfl, _, rfl, by decide, by decide⟩
  rcases granted with ⟨state, firstRan, next, secondRan, firstUsed, secondUsed⟩
  refine ⟨state, next, firstRan, secondRan, ?_⟩
  have run : Trace (AdmissibleStep 0x10000 4096 64) (initialised 0x1000 0x10000 4096 64)
      [(.allocate 100, .allocated (some 0x1000)), (.allocate 100, .allocated (some 0x1080))]
      next :=
    Trace.cons ⟨admissible, map_ok _ firstRan⟩
      (Trace.cons ⟨admissible, map_ok _ secondRan⟩ (Trace.nil next))
  have live : ∀ addr ∈ [0x1000, 0x1080], Live next addr := by
    intro addr member
    simp only [List.mem_cons, List.not_mem_nil, or_false] at member
    rcases member with rfl | rfl
    · exact ⟨128, firstUsed⟩
    · exact ⟨128, secondUsed⟩
  rcases (releases_commute pagePower blockPower (by decide : 0x1000 + 0x10000 ≤ 2 ^ 32) run).2
    [0x1000, 0x1080] [0x1080, 0x1000] (by decide) live (List.Perm.swap _ _ _) with
    ⟨one, other, ran, otherRan, same, _⟩
  exact ⟨one, other, ran, otherRan, same⟩

end Run

end Espiral.VortexMemoryAllocator
