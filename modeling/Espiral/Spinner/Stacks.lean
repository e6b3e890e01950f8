import Espiral.Mm.RangeCoverage
import Espiral.Spinner.Calls

/-!
# Stacks of the harts

A hart id packs core, warp and thread into bit fields, and each hart has a slot
below the stack base for its id. The stack area is laid out for four cores,
however many there are.
-/

namespace Espiral.Spinner

set_option autoImplicit false

open AddressSpaceManager Contracts MachineWords Traces

/-- The id of a hart, packed as the device packs it. -/
def hartId (num_warps num_threads core warp thread : Nat) : Nat :=
  core <<< (Nat.clog 2 num_warps + Nat.clog 2 num_threads) + warp <<< Nat.clog 2 num_threads + thread

def InSlot (platform : Platform) (hart addr : Nat) : Prop :=
  platform.STACK_BASE_ADDR ≤ addr + (hart + 1) * 2 ^ platform.STACK_LOG2_SIZE ∧
    addr + hart * 2 ^ platform.STACK_LOG2_SIZE < platform.STACK_BASE_ADDR

def totalStack (platform : Platform) (num_cores num_warps num_threads : Nat) : Nat :=
  2 ^ platform.STACK_LOG2_SIZE *
    (hartId num_warps num_threads (num_cores - 1) (num_warps - 1) (num_threads - 1) + 1)

/-- There are at most four cores, whose slots fit; or the slots below those of four cores
are mapped already. -/
def StacksReached (platform : Platform) (state : AddressSpaceManager)
    (root num_cores num_warps num_threads : Nat) : Prop :=
  num_cores ≤ 4 ∧ totalStack platform 4 num_warps num_threads < 2 ^ 32 ∨
    ∀ core < num_cores, ∀ warp < num_warps, ∀ thread < num_threads, ∀ addr,
      InSlot platform (hartId num_warps num_threads core warp thread) addr →
      addr + roundUp (totalStack platform 4 num_warps num_threads % 2 ^ 32) 4096 <
        platform.STACK_BASE_ADDR →
      state.translated root addr ≠ none

section Harts

variable {num_cores num_warps num_threads core warp thread : Nat}

theorem hartId_eq (num_warps num_threads core warp thread : Nat) :
    hartId num_warps num_threads core warp thread =
      (core * 2 ^ Nat.clog 2 num_warps + warp) * 2 ^ Nat.clog 2 num_threads + thread := by
  rw [hartId, Nat.shiftLeft_eq, Nat.shiftLeft_eq, pow_add, Nat.add_mul, Nat.mul_assoc]

theorem field_injective {high low otherHigh otherLow width : Nat} (inside : low < width)
    (otherInside : otherLow < width) (same : high * width + low = otherHigh * width + otherLow) :
    high = otherHigh ∧ low = otherLow := by
  have positive : 0 < width := Nat.zero_lt_of_lt inside
  have highs := congrArg (· / width) same
  have lows := congrArg (· % width) same
  simp only [Nat.mul_comm _ width, Nat.mul_add_div positive, Nat.mul_add_mod,
    Nat.div_eq_of_lt inside, Nat.div_eq_of_lt otherInside, Nat.mod_eq_of_lt inside,
    Nat.mod_eq_of_lt otherInside] at highs lows
  exact ⟨highs, lows⟩

theorem hartId_injective {otherCore otherWarp otherThread : Nat} (warpSmall : warp < num_warps)
    (threadSmall : thread < num_threads) (otherWarpSmall : otherWarp < num_warps)
    (otherThreadSmall : otherThread < num_threads)
    (same : hartId num_warps num_threads core warp thread =
      hartId num_warps num_threads otherCore otherWarp otherThread) :
    core = otherCore ∧ warp = otherWarp ∧ thread = otherThread := by
  have threads := Nat.le_pow_clog (by decide : 1 < 2) num_threads
  have warps := Nat.le_pow_clog (by decide : 1 < 2) num_warps
  rw [hartId_eq, hartId_eq] at same
  obtain ⟨inner, threadSame⟩ :=
    field_injective (threadSmall.trans_le threads) (otherThreadSmall.trans_le threads) same
  obtain ⟨coreSame, warpSame⟩ :=
    field_injective (warpSmall.trans_le warps) (otherWarpSmall.trans_le warps) inner
  exact ⟨coreSame, warpSame, threadSame⟩

theorem hartId_le {cores : Nat} (coreSmall : core < cores) (warpSmall : warp < num_warps)
    (threadSmall : thread < num_threads) :
    hartId num_warps num_threads core warp thread ≤
      hartId num_warps num_threads (cores - 1) (num_warps - 1) (num_threads - 1) := by
  rw [hartId_eq, hartId_eq]
  have cores : core ≤ cores - 1 := by omega
  have warps : warp ≤ num_warps - 1 := by omega
  have threads : thread ≤ num_threads - 1 := by omega
  gcongr

variable {platform : Platform} {hart other addr : Nat}

theorem InSlot.unique (first : InSlot platform hart addr) (second : InSlot platform other addr) :
    hart = other := by
  have order : ∀ {low high : Nat}, InSlot platform low addr → InSlot platform high addr →
      ¬low < high := by
    intro low high lowSlot highSlot below
    have step := Nat.mul_le_mul_right (2 ^ platform.STACK_LOG2_SIZE) (Nat.succ_le_of_lt below)
    have reaches := lowSlot.1
    have starts := highSlot.2
    have succ : low.succ = low + 1 := rfl
    rw [succ] at step
    omega
  exact Nat.le_antisymm (Nat.le_of_not_lt (order second first))
    (Nat.le_of_not_lt (order first second))

theorem InSlot.within {cores : Nat} (coreSmall : core < cores) (warpSmall : warp < num_warps)
    (threadSmall : thread < num_threads)
    (inside : InSlot platform (hartId num_warps num_threads core warp thread) addr) :
    platform.STACK_BASE_ADDR ≤ addr + totalStack platform cores num_warps num_threads := by
  have largest := hartId_le coreSmall warpSmall threadSmall
  have scaled := Nat.mul_le_mul_left (2 ^ platform.STACK_LOG2_SIZE)
    (Nat.add_le_add_right largest 1)
  have reaches := inside.1
  rw [Nat.mul_comm] at reaches
  unfold totalStack
  omega

theorem counts_le_total (platform : Platform) (num_cores num_warps num_threads : Nat) :
    num_warps ≤ totalStack platform num_cores num_warps num_threads ∧
      num_threads ≤ totalStack platform num_cores num_warps num_threads := by
  have slot : 1 ≤ 2 ^ platform.STACK_LOG2_SIZE := Nat.one_le_two_pow
  have thread : 1 ≤ 2 ^ Nat.clog 2 num_threads := Nat.one_le_two_pow
  have whole := Nat.mul_le_mul_right
    (hartId num_warps num_threads (num_cores - 1) (num_warps - 1) (num_threads - 1) + 1) slot
  have packed := hartId_eq num_warps num_threads (num_cores - 1) (num_warps - 1) (num_threads - 1)
  have warps := Nat.mul_le_mul
    (Nat.le_add_left (num_warps - 1) ((num_cores - 1) * 2 ^ Nat.clog 2 num_warps)) thread
  unfold totalStack
  omega

end Harts

section Area

variable {platform : Platform}

/-- The 32-bit size that is mapped is that of the slots of four cores. -/
theorem stackSize64_wrap (platform : Platform) (num_warps num_threads : Nat) :
    wrap32 (stackSize64 platform num_threads num_warps) =
      totalStack platform 4 num_warps num_threads % 2 ^ 32 := by
  have narrow : ∀ value, wrap64 value ≡ value [MOD 2 ^ 32] := fun value =>
    Nat.mod_mod_of_dvd value (by decide)
  have slots : wrap64 (hartId num_warps num_threads 3 (num_warps - 1) (num_threads - 1)) + 1 ≡
      hartId num_warps num_threads 3 (num_warps - 1) (num_threads - 1) + 1 [MOD 2 ^ 32] :=
    (narrow _).add_right 1
  have size := ((narrow _).trans (((narrow _).trans slots).mul_left (2 ^ platform.STACK_LOG2_SIZE)))
  rw [← Nat.one_shiftLeft platform.STACK_LOG2_SIZE] at size
  rw [totalStack, ← Nat.one_shiftLeft platform.STACK_LOG2_SIZE]
  exact size

theorem stackPages_iff {base size addr : Nat} (aligned : 4096 ∣ base) (narrow : base ≤ 2 ^ 32)
    (below : addr < base) :
    (∃ position < loopPages (wrap32 size),
        rangePage (wrap32 (sub64 base size)) position = addr / 4096) ↔
      base ≤ addr + roundUp (wrap32 size) 4096 := by
  obtain ⟨pages, same⟩ := aligned
  have start : wrap32 (sub64 base size) = (base + 2 ^ 32 - wrap32 size) % 2 ^ 32 := by
    unfold wrap32 sub64 wrap64
    omega
  have small := wrap32_lt size
  generalize wrap32 size = bytes at start small
  rw [start]
  unfold rangePage loopPages roundUp
  constructor
  · intro visited
    obtain ⟨position, counted, here⟩ := visited
    omega
  · intro reaches
    exact ⟨(bytes + 4095) / 4096 - (base / 4096 - addr / 4096), by omega, by omega⟩

end Area

section Calls

variable {Device : Type} {platform : Platform} {accelerator : HostAccelerator Device}
  {state next : Spinner Device} {kid num_warps num_threads : Nat} {kcb : KernelControlBlock}

theorem allocateUserStack_returns (stored : state.kcbs_[kid]? = some (some kcb))
    (warpsAre : (accelerator.getCaps .numWarps).getD platform.NUM_WARPS = num_warps)
    (threadsAre : (accelerator.getCaps .numThreads).getD platform.NUM_THREADS = num_threads)
    (warpsNarrow : num_warps < 2 ^ 32) (threadsNarrow : num_threads < 2 ^ 32)
    (ran : allocateUserStack platform accelerator kid state = .ok () next) :
    ∃ aspace, allocateVmPages
        (wrap32 (sub64 platform.STACK_BASE_ADDR (stackSize64 platform num_threads num_warps)))
        (wrap32 (stackSize64 platform num_threads num_warps)) kcb.top_pgtbl_pa dataFlags
        state.aspace_ = .ok () aspace ∧ next = { state with aspace_ := aspace } := by
  rw [allocateUserStack, bind_ok (kcbAt_run stored)] at ran
  simp only [warpsAre, threadsAre, wrap32_of_lt warpsNarrow, wrap32_of_lt threadsNarrow] at ran
  by_cases none : num_threads = 0 ∨ num_warps = 0
  · rw [if_pos none] at ran
    cases ran
  · rw [if_neg none] at ran
    exact onAddressSpace_returns ran

theorem allocateUserStack_translates {identity : Nat → Prop} {holes : HoleList}
    (reached : Reached platform identity holes state.aspace_)
    (stored : state.kcbs_[kid]? = some (some kcb)) (isLive : state.aspace_.Live kcb.top_pgtbl_pa)
    (aligned : PAGE_SIZE ∣ platform.STACK_BASE_ADDR) (narrow : platform.STACK_BASE_ADDR ≤ 2 ^ 32)
    (warpsAre : (accelerator.getCaps .numWarps).getD platform.NUM_WARPS = num_warps)
    (threadsAre : (accelerator.getCaps .numThreads).getD platform.NUM_THREADS = num_threads)
    (warpsNarrow : num_warps < 2 ^ 32) (threadsNarrow : num_threads < 2 ^ 32)
    (ran : allocateUserStack platform accelerator kid state = .ok () next) {addr : Nat}
    (below : addr < platform.STACK_BASE_ADDR) :
    next.aspace_.translated kcb.top_pgtbl_pa addr ≠ none ↔
      platform.STACK_BASE_ADDR ≤
          addr + roundUp (totalStack platform 4 num_warps num_threads % 2 ^ 32) 4096 ∨
        state.aspace_.translated kcb.top_pgtbl_pa addr ≠ none := by
  obtain ⟨aspace, mapped, same⟩ := allocateUserStack_returns stored warpsAre threadsAre warpsNarrow
    threadsNarrow ran
  have range := (allocateVmPages_range reached isLive (by decide : dataFlags &&& PteFlags.R ≠ 0)).of_ok
    mapped
  have visited := @stackPages_iff platform.STACK_BASE_ADDR
    (stackSize64 platform num_threads num_warps) addr aligned narrow below
  rw [stackSize64_wrap] at visited range
  have addrBound : addr < 2 ^ 32 := below.trans_le narrow
  have aspaceIs : next.aspace_ = aspace := by rw [same]
  rw [aspaceIs]
  by_cases inArea : platform.STACK_BASE_ADDR ≤
      addr + roundUp (totalStack platform 4 num_warps num_threads % 2 ^ 32) 4096
  · obtain ⟨_, _, _, _, _, found⟩ := RangeMapped.translated_visited reached range isLive
      (Nat.le_of_lt (Nat.mod_lt _ (by decide))) addrBound (visited.mpr inArea)
    rw [found]
    exact ⟨fun _ => Or.inl inArea, fun _ => Option.some_ne_none _⟩
  · rw [RangeMapped.translated_other reached range isLive addrBound
      (Or.inr fun here => inArea (visited.mp here))]
    exact ⟨Or.inr, fun either => either.resolve_left inArea⟩

end Calls

set_option linter.unusedVariables false in
/-- After a returning call every hart has its slot mapped exactly if there are at most four
cores and their slots fit, or the slots of the others were mapped before; and different
harts have disjoint slots. -/
theorem stacks_mapped_iff {Device : Type} {platform : Platform} (valid : platform.Valid)
    {localMemSize : Nat} {operations : List Operation} {state : Spinner Device}
    (run : Trace (Step platform) (AddressSpaceManager.new platform localMemSize) operations
      state.aspace_)
    {accelerator : HostAccelerator Device} {num_cores num_warps num_threads : Nat}
    (coresAre : accelerator.getCaps .numCores = some num_cores)
    (warpsAre : (accelerator.getCaps .numWarps).getD platform.NUM_WARPS = num_warps)
    (threadsAre : (accelerator.getCaps .numThreads).getD platform.NUM_THREADS = num_threads)
    (aligned : PAGE_SIZE ∣ platform.STACK_BASE_ADDR) (narrow : platform.STACK_BASE_ADDR ≤ 2 ^ 32)
    (fits : totalStack platform num_cores num_warps num_threads < platform.STACK_BASE_ADDR)
    {kid : Nat} {kcb : KernelControlBlock} (stored : state.kcbs_[kid]? = some (some kcb))
    (isLive : state.aspace_.Live kcb.top_pgtbl_pa) :
    (∀ next, allocateUserStack platform accelerator kid state = .ok () next →
        ((∀ core < num_cores, ∀ warp < num_warps, ∀ thread < num_threads, ∀ addr,
            InSlot platform (hartId num_warps num_threads core warp thread) addr →
            next.aspace_.translated kcb.top_pgtbl_pa addr ≠ none) ↔
          StacksReached platform state.aspace_ kcb.top_pgtbl_pa num_cores num_warps
            num_threads)) ∧
      ∀ core warp thread otherCore otherWarp otherThread addr,
        core < num_cores → warp < num_warps → thread < num_threads →
        otherCore < num_cores → otherWarp < num_warps → otherThread < num_threads →
        InSlot platform (hartId num_warps num_threads core warp thread) addr →
        InSlot platform (hartId num_warps num_threads otherCore otherWarp otherThread) addr →
        core = otherCore ∧ warp = otherWarp ∧ thread = otherThread := by
  rw [new_withHoles] at run
  have reached := run_reached valid run
  obtain ⟨warpsFit, threadsFit⟩ := counts_le_total platform num_cores num_warps num_threads
  constructor
  · intro next ran
    have translates : ∀ {hart addr : Nat}, InSlot platform hart addr →
        (next.aspace_.translated kcb.top_pgtbl_pa addr ≠ none ↔
          platform.STACK_BASE_ADDR ≤
              addr + roundUp (totalStack platform 4 num_warps num_threads % 2 ^ 32) 4096 ∨
            state.aspace_.translated kcb.top_pgtbl_pa addr ≠ none) := by
      intro hart addr inside
      have below := inside.2
      exact allocateUserStack_translates reached stored isLive aligned narrow warpsAre threadsAre
        (by omega) (by omega) ran (by omega)
    constructor
    · intro mapped
      right
      intro core coreSmall warp warpSmall thread threadSmall addr inside outside
      have either := (translates inside).mp
        (mapped core coreSmall warp warpSmall thread threadSmall addr inside)
      exact either.resolve_left (Nat.not_le.mpr outside)
    · intro condition core coreSmall warp warpSmall thread threadSmall addr inside
      rw [translates inside]
      cases condition with
      | inl few =>
          have within := inside.within (coreSmall.trans_le few.1) warpSmall threadSmall
          have whole := @le_roundUp (totalStack platform 4 num_warps num_threads) 4096 (by decide)
          rw [Nat.mod_eq_of_lt few.2]
          exact Or.inl (within.trans (Nat.add_le_add_left whole addr))
      | inr before =>
          by_cases inArea : platform.STACK_BASE_ADDR ≤
              addr + roundUp (totalStack platform 4 num_warps num_threads % 2 ^ 32) 4096
          · exact Or.inl inArea
          · exact Or.inr (before core coreSmall warp warpSmall thread threadSmall addr inside
              (Nat.lt_of_not_le inArea))
  · intro core warp thread otherCore otherWarp otherThread addr _ warpSmall threadSmall _
      otherWarpSmall otherThreadSmall inside otherInside
    exact hartId_injective warpSmall threadSmall otherWarpSmall otherThreadSmall
      (inside.unique otherInside)

section Small

def quarterPlatform : Platform := { smallPlatform with STACK_LOG2_SIZE := 10 }

def fiveCores : Caps → Option Nat
  | .numCores => some 5
  | .numThreads => some 1
  | .numWarps => some 1
  | .localMemSize => none

theorem quarterPlatform_step : Step quarterPlatform = Step smallPlatform := rfl

theorem quarterPlatform_valid : quarterPlatform.Valid where
  basePositive := smallPlatform_valid.basePositive
  baseAligned := smallPlatform_valid.baseAligned
  pageSize := smallPlatform_valid.pageSize
  cacheBlock := smallPlatform_valid.cacheBlock
  room := smallPlatform_valid.room
  narrow := smallPlatform_valid.narrow

theorem quarterPlatform_stack : stackSize64 quarterPlatform 1 1 = 0x1000 ∧
    totalStack quarterPlatform 5 1 1 = 0x1400 ∧ hartId 1 1 4 0 0 = 4 := by
  have bits : Nat.clog 2 1 = 0 := Nat.clog_one_right 2
  unfold totalStack stackSize64 hartId
  simp only [bits]
  decide

theorem quarterPlatform_kernel : ∃ state : Spinner FlatDevice,
    Trace (Step quarterPlatform) (AddressSpaceManager.new quarterPlatform 0) [.allocatePageTable]
        state.aspace_ ∧
      state.kcbs_[0]? = some (some (newKcb 0x1000 "kernel" 16 0x10000 0x10000)) ∧
      state.aspace_.history = [.created 0x1000] ∧ state.aspace_.Live 0x1000 ∧
      Spare quarterPlatform (fun frame => state.aspace_.hole_list_.addrInHole frame)
        state.aspace_.frames 3 := by
  obtain ⟨created, run, _, history, _, isLive, spare⟩ := smallPlatform_table
  refine ⟨{ kcbs_ := [some (newKcb 0x1000 "kernel" 16 0x10000 0x10000)]
            aspace_ := created
            device := { memory := fun _ => 0, launches := [] } }, ?_, rfl, history, isLive, ?_⟩
  · rw [quarterPlatform_step]
    exact run
  · exact ⟨spare.outside, spare.enough⟩

/-- Only the slots of the first four cores are mapped. -/
theorem fifth_core_without_stack : ∃ state next : Spinner FlatDevice,
    Trace (Step quarterPlatform) (AddressSpaceManager.new quarterPlatform 0) [.allocatePageTable]
        state.aspace_ ∧
      state.kcbs_[0]? = some (some (newKcb 0x1000 "kernel" 16 0x10000 0x10000)) ∧
      state.aspace_.Live 0x1000 ∧ (flatAccelerator fiveCores).getCaps .numCores = some 5 ∧
      totalStack quarterPlatform 5 1 1 < quarterPlatform.STACK_BASE_ADDR ∧
      allocateUserStack quarterPlatform (flatAccelerator fiveCores) 0 state = .ok () next ∧
      InSlot quarterPlatform (hartId 1 1 4 0 0) 0x7EC00 ∧
      next.aspace_.translated 0x1000 0x7EC00 = none := by
  obtain ⟨state, run, stored, history, isLive, spare⟩ := quarterPlatform_kernel
  obtain ⟨stack, total, hart⟩ := quarterPlatform_stack
  have reached := run_reached quarterPlatform_valid run
  obtain ⟨owner, owned⟩ := reached.owned
  obtain ⟨aspace, _, _, mapped, _⟩ := @allocateOneVmPage_returns _ _ owner state.aspace_ 0x1000
    0x7F000 dataFlags 1 owned isLive (by decide) (by decide) (by rw [history]; rfl) spare.forNode
  have loop : allocateVmPages 0x7F000 0x1000 0x1000 dataFlags state.aspace_ = .ok () aspace :=
    @forPages_one _ (fun offset => allocateOneVmPage (wrap32 (0x7F000 + offset)) 0x1000 dataFlags)
      state.aspace_ aspace (by decide) (by decide) mapped
  have ran : allocateUserStack quarterPlatform (flatAccelerator fiveCores) 0 state =
      .ok () { state with aspace_ := aspace } := by
    have start : wrap32 (sub64 quarterPlatform.STACK_BASE_ADDR 0x1000) = 0x7F000 := rfl
    have size : wrap32 0x1000 = 0x1000 := rfl
    rw [allocateUserStack, bind_ok (kcbAt_run stored)]
    change onAddressSpace (allocateVmPages (wrap32 (sub64 quarterPlatform.STACK_BASE_ADDR
      (stackSize64 quarterPlatform 1 1))) (wrap32 (stackSize64 quarterPlatform 1 1)) 0x1000
      dataFlags) state = _
    rw [stack, start, size]
    exact onAddressSpace_run loop
  have range := (allocateVmPages_range reached isLive (by decide)).of_ok loop
  have unvisited := mt (@visited_iff 0x7F000 0x1000 (0x7EC00 / 4096) (by decide)).mp (by decide)
  refine ⟨state, { state with aspace_ := aspace }, run, stored, isLive, rfl, ?_, ran, ?_, ?_⟩
  · rw [total]
    decide
  · rw [hart]
    exact ⟨by decide, by decide⟩
  · rw [RangeMapped.translated_other reached range isLive (by decide) (Or.inr unvisited),
      owned.translated_mapping isLive (by decide), history]
    rfl

theorem stacks_mapped_iff_five : ∃ state : Spinner FlatDevice,
    Trace (Step quarterPlatform) (AddressSpaceManager.new quarterPlatform 0) [.allocatePageTable]
        state.aspace_ ∧
      (∀ next, allocateUserStack quarterPlatform (flatAccelerator fiveCores) 0 state = .ok () next →
          ((∀ core < 5, ∀ warp < 1, ∀ thread < 1, ∀ addr,
              InSlot quarterPlatform (hartId 1 1 core warp thread) addr →
              next.aspace_.translated 0x1000 addr ≠ none) ↔
            StacksReached quarterPlatform state.aspace_ 0x1000 5 1 1)) ∧
        ∀ core warp thread otherCore otherWarp otherThread addr,
          core < 5 → warp < 1 → thread < 1 → otherCore < 5 → otherWarp < 1 → otherThread < 1 →
          InSlot quarterPlatform (hartId 1 1 core warp thread) addr →
          InSlot quarterPlatform (hartId 1 1 otherCore otherWarp otherThread) addr →
          core = otherCore ∧ warp = otherWarp ∧ thread = otherThread := by
  obtain ⟨state, run, stored, _, isLive, _⟩ := quarterPlatform_kernel
  have total := quarterPlatform_stack.2.1
  have fits : totalStack quarterPlatform 5 1 1 < quarterPlatform.STACK_BASE_ADDR := by
    rw [total]
    decide
  have whole := @stacks_mapped_iff FlatDevice quarterPlatform quarterPlatform_valid 0
    [.allocatePageTable] state run (flatAccelerator fiveCores) 5 1 1 rfl rfl rfl (by decide)
    (by decide) fits 0 (newKcb 0x1000 "kernel" 16 0x10000 0x10000) stored isLive
  exact ⟨state, run, whole⟩

end Small

end Espiral.Spinner
