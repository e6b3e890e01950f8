import Mathlib.Data.Finmap
import Espiral.Library.Contracts
import Espiral.Library.Traces
import Espiral.Allocator.AllocatorSteps

/-!
# The allocator as a map of live ranges

Callers see a finite map from the start of every live range to its size. The
pages, their lists and the free blocks are invisible in it.
-/

namespace Espiral.VortexMemoryAllocator

set_option autoImplicit false

open Contracts IntrusiveLists MachineWords Traces

inductive Call where
  | allocate (size : Nat)
  | release (addr : Nat)
  | reserve (addr size : Nat)
  deriving DecidableEq, Repr

inductive Outcome where
  | allocated (addr : Option Nat)
  | released (found : Bool)
  | reserved (status : Int)
  deriving DecidableEq, Repr

def perform : Call → Action VortexMemoryAllocator Outcome
  | .allocate size => Outcome.allocated <$> allocate size
  | .release addr => Outcome.released <$> release addr
  | .reserve addr size => Outcome.reserved <$> reserve addr size

/-- The allocator after construction and the four `init` calls. -/
def initialised (base capacity pageAlign blockAlign : Nat) : VortexMemoryAllocator :=
  initBlockAlignment blockAlign (initPageAlignment pageAlign
    (initCapacity capacity (initBaseAddress base new)))

/-- Live start addresses and the sizes of their ranges. -/
abbrev LiveMap := Finmap fun _ : Nat => Nat

namespace LiveMap

def Vacant (live : LiveMap) (addr size : Nat) : Prop :=
  ∀ other otherSize, live.lookup other = some otherSize →
    addr + size ≤ other ∨ other + otherSize ≤ addr

inductive Step (pageAlign blockAlign : Nat) : LiveMap → Call × Outcome → LiveMap → Prop
  | allocated {live : LiveMap} {size addr : Nat}
      (vacant : Vacant live addr (roundUp size blockAlign)) :
      Step pageAlign blockAlign live (.allocate size, .allocated (some addr))
        (live.insert addr (roundUp size blockAlign))
  | exhausted {live : LiveMap} {size : Nat} :
      Step pageAlign blockAlign live (.allocate size, .allocated none) live
  | released {live : LiveMap} {addr : Nat} (known : addr ∈ live) :
      Step pageAlign blockAlign live (.release addr, .released true) (live.erase addr)
  | unknown {live : LiveMap} {addr : Nat} (missing : addr ∉ live) :
      Step pageAlign blockAlign live (.release addr, .released false) live
  | reserved {live : LiveMap} {addr size : Nat}
      (vacant : Vacant live addr (roundUp size pageAlign)) :
      Step pageAlign blockAlign live (.reserve addr size, .reserved 0)
        (live.insert addr (roundUp size pageAlign))
  | refused {live : LiveMap} {addr size : Nat} :
      Step pageAlign blockAlign live (.reserve addr size, .reserved (-1)) live

end LiveMap

def entry (block : Nat × Nat) : Sigma fun _ : Nat => Nat := ⟨block.1, block.2⟩

/-- The abstraction function. -/
def live (self : VortexMemoryAllocator) : LiveMap := (self.usedBlocks.map entry).toFinmap

section Live

variable {self next : VortexMemoryAllocator} {addr size : Nat}

theorem Sound.starts_nodup (sound : Sound self) : (self.usedBlocks.map entry).NodupKeys := by
  rw [List.NodupKeys, List.keys, List.map_map]
  apply List.Nodup.of_map id
  rw [List.map_id]
  apply List.pairwise_map.mpr
  apply sound.used_apart.imp_of_mem
  intro first second firstMember secondMember apart same
  have firstPositive := sound.used_positive firstMember
  have secondPositive := sound.used_positive secondMember
  have starts : first.1 = second.1 := same
  unfold Page.Apart at apart
  omega

theorem Sound.lookup_live (sound : Sound self) :
    (live self).lookup addr = some size ↔ (addr, size) ∈ self.usedBlocks := by
  rw [live, Finmap.dlookup_list_toFinmap, ← Option.mem_def,
    List.mem_dlookup_iff sound.starts_nodup, List.mem_map]
  constructor
  · rintro ⟨block, member, same⟩
    have parts : block.1 = addr ∧ block.2 = size := by
      simpa [entry] using same
    rw [← parts.1, ← parts.2]
    exact member
  · intro member
    exact ⟨(addr, size), member, rfl⟩

theorem Sound.lookup_live_of_perm (nextSound : Sound next)
    (used : next.usedBlocks.Perm ((addr, size) :: self.usedBlocks)) (other : Nat) :
    (live next).lookup other =
      if other = addr then some size else (live self).lookup other := by
  have same := List.perm_dlookup other nextSound.starts_nodup (used.map entry)
  simp only [live, Finmap.dlookup_list_toFinmap]
  rw [same, List.map_cons]
  by_cases here : other = addr
  · subst here
    simp [entry]
  · rw [if_neg here]
    exact List.dlookup_cons_ne _ _ here

theorem Grant.listed (grant : Grant self next addr size) : (addr, size) ∈ next.usedBlocks :=
  grant.used.mem_iff.mpr List.mem_cons_self

theorem Grant.live_eq (grant : Grant self next addr size) :
    live next = (live self).insert addr size := by
  apply Finmap.ext_lookup
  intro other
  rw [grant.sound.lookup_live_of_perm grant.used]
  by_cases here : other = addr
  · rw [if_pos here, here, Finmap.lookup_insert]
  · rw [if_neg here, Finmap.lookup_insert_of_ne _ here]

theorem Grant.vacant (sound : Sound self) (grant : Grant self next addr size) :
    LiveMap.Vacant (live self) addr size := by
  intro other otherSize listed
  have apart := grant.used.symm.pairwise_iff (fun {_ _} => Page.Apart.symm) |>.mpr
    grant.sound.used_apart
  exact (List.pairwise_cons.mp apart).1 _ (sound.lookup_live.mp listed)

theorem Revoke.live_eq (sound : Sound self) (revoke : Revoke self next addr size) :
    addr ∈ live self ∧ live next = (live self).erase addr := by
  have back := sound.lookup_live_of_perm revoke.used
  constructor
  · apply Finmap.mem_of_lookup_eq_some
    rw [back, if_pos rfl]
  · apply Finmap.ext_lookup
    intro other
    by_cases here : other = addr
    · rw [here, Finmap.lookup_erase, Finmap.lookup_eq_none]
      intro member
      have old := (List.perm_nodupKeys (revoke.used.map entry)).mp sound.starts_nodup
      rw [List.map_cons] at old
      have fresh := (List.nodupKeys_cons.mp old).1
      rw [live, Finmap.mem_list_toFinmap] at member
      rcases member with ⟨value, listed⟩
      have present := List.mem_keys_of_mem listed
      exact fresh present
    · rw [Finmap.lookup_erase_ne here, back, if_neg here]

theorem not_mem_live (sound : Sound self) (missing : ∀ size, (addr, size) ∉ self.usedBlocks) :
    addr ∉ live self := by
  intro member
  rcases Finmap.mem_iff.mp member with ⟨size, found⟩
  exact missing size (sound.lookup_live.mp found)

end Live

section Run

variable {base capacity pageAlign blockAlign : Nat}

theorem initialised_sound (pagePower : ∃ bits < 32, pageAlign = 2 ^ bits)
    (blockPower : ∃ bits < 32, blockAlign = 2 ^ bits) (range : base + capacity < 2 ^ 64) :
    Sound (initialised base capacity pageAlign blockAlign) where
  pageAlign := pagePower
  blockAlign := blockPower
  fits := range
  pages := by simp [initialised, initBlockAlignment, initPageAlignment, initCapacity,
    initBaseAddress, new]
  ordered := List.Pairwise.nil
  accounted := rfl

end Run

end Espiral.VortexMemoryAllocator
