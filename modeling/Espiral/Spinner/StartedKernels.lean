import Espiral.Spinner.Protection

/-!
# Kernels that have been started

A start uploads the nodes of the table. From then on nothing the host does for
any kernel changes them, short of freeing the kernel, so the device walks the
table as it was at the start. Pages that are mapped later are not in it, and a
second start, which would upload it again, throws before it reaches the device.
-/

namespace Espiral.Spinner

set_option autoImplicit false

open AddressSpaceManager ByteMemory Contracts MachineWords Traces

/-- The nodes of a table have the same bytes in another memory. -/
def SameNodes (memory other : Memory) (root : Nat) : Prop :=
  ∀ node, IsNode memory root node → ∀ addr, node ≤ addr → addr < node + 4096 →
    other addr = memory addr

section Walks

variable {memory other : Memory} {root node va : Nat}

theorem SameNodes.entry (same : SameNodes memory other root) (isNode : IsNode memory root node)
    {index : Nat} (small : index < 1024) : entryAt other node index = entryAt memory node index := by
  unfold entryAt loadWord
  congr 1
  apply load_congr
  intro addr low high
  exact same node isNode addr (by omega) (by omega)

theorem SameNodes.shaped (same : SameNodes memory other root) (shaped : Shaped memory root) :
    Shaped other root where
  narrow := shaped.narrow
  upper index small valid := by
    rw [same.entry (Or.inl rfl) small] at valid ⊢
    exact shaped.upper index small valid
  lower index small slot slotSmall upper lower := by
    rw [same.entry (Or.inl rfl) small] at upper lower ⊢
    rw [same.entry (Or.inr ⟨index, small, upper, rfl⟩) slotSmall] at lower ⊢
    exact shaped.lower index small slot slotSmall upper lower

theorem SameNodes.walkRoot (same : SameNodes memory other root) (shaped : Shaped memory root)
    (bound : va < 2 ^ 32) : walkRoot other va root = walkRoot memory va root := by
  rw [walkRoot_leafOf (same.shaped shaped) bound, walkRoot_leafOf shaped bound]
  congr 1
  apply leafOf_congr ?_ ?_ (by omega)
  · intro index small
    exact same.entry (Or.inl rfl) small
  · intro index small valid slot slotSmall
    exact same.entry (Or.inr ⟨index, small, valid, rfl⟩) slotSmall

end Walks

/-- The device still has a table, whose nodes are still used by the host. -/
structure StillThere (memory : Memory) (root : Nat) (state : Spinner FlatDevice) : Prop where
  nodes : ∀ node, IsNode memory root node → ∃ role, NodeAt state.aspace_ node role ∧ role.table = root
  bytes : SameNodes memory state.device.memory root

section Steps

variable {platform : Platform} {holes : HoleList} {caps : Caps → Option Nat} {files : Files}
  {owner : Nat → Option Role} {memory : Memory} {root frame : Nat} {state next : Spinner FlatDevice}
  {call : SpinnerCall} {kid : Nat}

theorem node_not_leaf {aspace : AddressSpaceManager} {role : Role} (node : NodeAt aspace frame role)
    (table page : Nat) : role ≠ .leaf table page := by
  cases node with
  | root _ => exact Role.noConfusion
  | node _ _ _ => exact Role.noConfusion

/-- Under the condition no node is in a page that may be mapped to itself. -/
theorem node_not_itself {aspace : AddressSpaceManager} {role : Role} (node : NodeAt aspace frame role)
    (owned : WellOwned platform (MayMapItself platform holes) owner aspace)
    (unreported : Unreported holes owner) : ¬MayMapItself platform holes frame := by
  intro itself
  have has := owned.owns_node node
  rw [owned.itself_free unreported itself] at has
  cases has

/-- The kernel itself may transfer data and ask for memory, but not start again. -/
theorem StillThere.served (there : StillThere memory root state)
    {writes : Nat → Prop} (served : Served platform holes kid root writes false state next)
    (clear : Clear platform holes files next) : StillThere memory root next where
  nodes node isNode := by
    obtain ⟨role, nodeAt, mine⟩ := there.nodes node isNode
    exact ⟨role, nodeAt.kept served.work.entries, mine⟩
  bytes node isNode addr low high := by
    rw [← there.bytes node isNode addr low high]
    obtain ⟨role, nodeAt, mine⟩ := there.nodes node isNode
    have still := nodeAt.kept served.work.entries
    obtain ⟨later, owned, unreported⟩ := clear.owned
    have frame : frameOf addr = node := by
      have aligned := owned.aligned (owned.owns_node still)
      unfold frameOf
      omega
    by_contra changed
    cases (served.bytes addr changed).touched with
    | node allowed _ _ => cases allowed
    | page bound found same =>
        rw [frame] at same
        cases (owned.translated_owner served.owns.isLive bound found).2 with
        | inl leaf =>
            rw [same, owned.owns_node still, Option.some.injEq] at leaf
            exact node_not_leaf still _ _ leaf
        | inr itself => exact node_not_itself still owned unreported (same ▸ itself.1)

theorem StillThere.spared (there : StillThere memory root state)
    (spared : Spared platform holes kid root state next) (clear : Clear platform holes files state) :
    StillThere memory root next where
  nodes node isNode := by
    obtain ⟨role, nodeAt, mine⟩ := there.nodes node isNode
    exact ⟨role, spared.nodes node role nodeAt mine, mine⟩
  bytes node isNode addr low high := by
    rw [← there.bytes node isNode addr low high]
    obtain ⟨role, nodeAt, mine⟩ := there.nodes node isNode
    obtain ⟨owner, owned, unreported⟩ := clear.owned
    have frame : frameOf addr = node := by
      have aligned := owned.aligned (owned.owns_node nodeAt)
      unfold frameOf
      omega
    rw [← frame] at nodeAt
    exact spared.bytes addr ⟨.node rfl nodeAt mine, node_not_itself nodeAt owned unreported⟩

def HasTable (kcbs : Kcbs) (kid root : Nat) : Prop :=
  ∃ kcb heap, HasHeap kcbs kid kcb heap ∧ kcb.top_pgtbl_pa = root

theorem Done.keepsTable {table : Nat → Nat} (done : Done platform holes files state call next)
    (serving : Serving platform holes files state)
    (tabled : Tabled table state.kcbs_ state.aspace_) (has : HasTable state.kcbs_ kid root)
    (kept : call ≠ .freeKernel kid) : HasTable next.kcbs_ kid root ∧
      ∀ va < 2 ^ 32, ∀ pa, state.aspace_.translated root va = some pa →
        next.aspace_.translated root va = some pa := by
  obtain ⟨kcb, heap, found, rootIs⟩ := has
  by_cases mine : call.kernel = some kid
  · cases done with
    | refused _ => cases mine
    | abandoned _ => cases mine
    | stored _ _ _ => cases mine
    | freed _ _ =>
        rw [SpinnerCall.kernel, Option.some.injEq] at mine
        exact absurd (congrArg SpinnerCall.freeKernel mine) kept
    | served kernel _ otherFound served =>
        rw [kernel, Option.some.injEq] at mine
        rw [mine] at otherFound served
        rw [(otherFound.unique found).1, rootIs] at served
        have isLive := (serving.kernels.rooted _ _ _ found).2
        rw [rootIs] at isLive
        obtain ⟨block, blockHeap, blockFound, blockRoot, _⟩ := served.owns.found
        exact ⟨⟨block, blockHeap, blockFound, blockRoot⟩, fun va bound pa translated =>
          served.work.translated serving.kernels.reached isLive bound translated⟩
  · have spared := done.spares serving tabled found mine
    rw [rootIs] at spared
    exact ⟨⟨kcb, heap, ⟨spared.slot.trans found.stored, found.has⟩, rootIs⟩,
      fun va bound pa translated => (spared.translated va bound).trans translated⟩

def Quiet (kid : Nat) (call : SpinnerCall) : Prop :=
  call.kernel = some kid → call.starts = false ∧ call.frees = false

theorem Quiet.not_free (quiet : Quiet kid call) : call ≠ .freeKernel kid := by
  intro same
  rw [same] at quiet
  have frees := (quiet rfl).2
  cases frees

theorem StillThere.step {table : Nat → Nat} (there : StillThere memory root state)
    (done : Done platform holes files state call next) (tabled : Tabled table state.kcbs_ state.aspace_)
    (clear : Clear platform holes files state) (clearNext : Clear platform holes files next)
    (has : HasTable state.kcbs_ kid root) (quiet : Quiet kid call) : StillThere memory root next := by
  obtain ⟨kcb, heap, found, rootIs⟩ := has
  by_cases mine : call.kernel = some kid
  · obtain ⟨notStart, notFree⟩ := quiet mine
    cases done with
    | refused _ => cases mine
    | abandoned _ => cases mine
    | stored _ _ _ => cases mine
    | freed _ _ => cases notFree
    | served kernel _ otherFound served =>
        rw [kernel, Option.some.injEq] at mine
        rw [mine] at otherFound served
        rw [(otherFound.unique found).1, rootIs, notStart] at served
        exact there.served served clearNext
  · have spared := done.spares clear.serving tabled found mine
    rw [rootIs] at spared
    exact there.spared spared clear

end Steps

section Runs

variable {platform : Platform} {holes : HoleList} {caps : Caps → Option Nat} {files : Files}
  {memory : Memory} {root kid : Nat} {kcb : KernelControlBlock} {state after last : Spinner FlatDevice}
  {calls : List SpinnerCall}
  (itself : ∀ page, MapsItself platform ((caps .localMemSize).getD 0) page →
    MayMapItself platform holes page)

include itself

theorem run_stillThere (settled : Settled platform holes files state)
    (clear : Clear platform holes files state)
    (run : Trace (MetCallStep platform caps files) state calls last)
    (has : HasTable state.kcbs_ kid root) (quiet : ∀ call ∈ calls, Quiet kid call)
    (there : StillThere memory root state) : StillThere memory root last := by
  induction run with
  | nil state => exact there
  | @cons first second third call calls head tail ih =>
      have mine := quiet call List.mem_cons_self
      have done := head.1.done settled.serving itself
      obtain ⟨table, tabled⟩ := settled.tabled
      have clearNext := clear.step itself head
      have later := there.step done tabled clear clearNext has mine
      exact ih (settled.step itself head.1) clearNext
        (done.keepsTable settled.serving tabled has mine.not_free).1
        (fun call member => quiet call (List.mem_cons_of_mem _ member)) later

theorem run_keepsTable (settled : Settled platform holes files state)
    (run : Trace (CallStep platform caps files) state calls last)
    (has : HasTable state.kcbs_ kid root) (kept : ∀ call ∈ calls, call ≠ .freeKernel kid) :
    HasTable last.kcbs_ kid root ∧ ∀ va < 2 ^ 32, ∀ pa,
      state.aspace_.translated root va = some pa → last.aspace_.translated root va = some pa := by
  induction run with
  | nil state => exact ⟨has, fun _ _ _ translated => translated⟩
  | @cons first second third call calls head tail ih =>
      obtain ⟨table, tabled⟩ := settled.tabled
      obtain ⟨later, translated⟩ := (head.done settled.serving itself).keepsTable settled.serving
        tabled has (kept call List.mem_cons_self)
      obtain ⟨atLast, rest⟩ := ih (settled.step itself head) later
        fun call member => kept call (List.mem_cons_of_mem _ member)
      exact ⟨atLast, fun va bound pa found => rest va bound pa (translated va bound pa found)⟩

end Runs

section Launching

variable {platform : Platform} {holes : HoleList} {caps : Caps → Option Nat} {files : Files}
  {owner : Nat → Option Role} {state after : Spinner FlatDevice} {kid : Nat}
  {kcb : KernelControlBlock} {order : SparseScratchpad → SparseScratchpad}

theorem startKernel_memory
    (ran : startKernel platform (flatAccelerator caps) order files kid state = .ok () after) :
    ∃ launch, after.device.launches.head? = some launch ∧ launch.memory = after.device.memory := by
  rw [startKernel_launches] at ran
  obtain ⟨_, mapped, _, ran⟩ := bind_returns ran
  obtain ⟨_, uploaded, _, ran⟩ := bind_returns ran
  obtain ⟨_, dumped, _, ran⟩ := bind_returns ran
  obtain ⟨_, listed, _, ran⟩ := bind_returns ran
  obtain ⟨block, read, _, ran⟩ := bind_returns ran
  cases ran
  exact ⟨_, rfl, rfl⟩

theorem Launched.stillThere {launch : Launch} {before : Memory}
    (launched : Launched files kcb after.aspace_ before launch)
    (isLive : after.aspace_.Live kcb.top_pgtbl_pa) (memory : launch.memory = after.device.memory) :
    StillThere after.aspace_.view kcb.top_pgtbl_pa after := by
  obtain ⟨_, content, uploaded, dump, _, _, dumped, stored⟩ := launched
  constructor
  · exact fun node isNode => nodeAt_of_isNode isLive isNode
  · intro node isNode addr low high
    rw [← memory, stored]
    exact dumped.stored_inside uploaded isNode low high

end Launching

/-- A kernel has been started. Then whatever is done for other kernels, and whatever memory the
kernel asks for and data it transfers, while no second frame of a request is reported as a hole:
until it is freed the device walks its table as the host did at the start, and whatever the host
had mapped by then is still mapped in the same way. -/
theorem started_table_stays {platform : Platform} (valid : platform.Valid)
    {caps : Caps → Option Nat}
    (itself : ∀ page, MapsItself platform ((caps .localMemSize).getD 0) page →
      MayMapItself platform
        (AddressSpaceManager.new platform ((caps .localMemSize).getD 0)).hole_list_ page)
    (files : Files) (device : FlatDevice) {before calls : List SpinnerCall}
    {state after last : Spinner FlatDevice}
    (setup : Trace (MetCallStep platform caps files)
      (Spinner.new platform (flatAccelerator caps) device) before state) {kid : Nat}
    {kcb : KernelControlBlock} {heap : HeapManager} (found : HasHeap state.kcbs_ kid kcb heap)
    {order : SparseScratchpad → SparseScratchpad} (permutes : ∀ dump, (order dump).Perm dump)
    (started : startKernel platform (flatAccelerator caps) order files kid state = .ok () after)
    (met : RetriesMet platform state.aspace_.hole_list_ state.aspace_.frames after.aspace_.frames)
    (run : Trace (MetCallStep platform caps files) after calls last)
    (quiet : ∀ call ∈ calls, Quiet kid call) :
    ∀ va < 2 ^ 32,
      walkRoot last.device.memory va kcb.top_pgtbl_pa = after.aspace_.translated kcb.top_pgtbl_pa va ∧
        ∀ pa, after.aspace_.translated kcb.top_pgtbl_pa va = some pa →
          last.aspace_.translated kcb.top_pgtbl_pa va = some pa := by
  have step : MetCallStep platform caps files state (.startKernel kid order) after :=
    ⟨⟨⟨⟨kcb, heap, found⟩, permutes⟩, Or.inl ⟨(), started⟩⟩, met⟩
  have settled := setup.invariant (Settled platform _ files)
    (fun _ _ _ settled step => settled.step itself step.1)
    (new_settled valid (flatAccelerator caps) device)
  have clear := setup.invariant (Clear platform _ files)
    (fun _ _ _ clear step => clear.step itself step) (new_clear valid (flatAccelerator caps) device)
  obtain ⟨owner, owned⟩ := settled.serving.kernels.reached.owned
  obtain ⟨kcbs, progress, launch, latest, launched⟩ :=
    (startKernel_spec settled.serving.kernels.reached owned found.stored
      (settled.serving.kernels.rooted _ _ _ found).2 itself permutes).of_ok started
  obtain ⟨again, same, memory⟩ := startKernel_memory started
  rw [latest, Option.some.injEq] at same
  rw [← same] at memory
  obtain ⟨later, laterOwned, _⟩ := progress.owned
  have there := launched.stillThere progress.isLive memory
  have has : HasTable after.kcbs_ kid kcb.top_pgtbl_pa := ⟨kcb, heap, ⟨kcbs ▸ found.stored, found.has⟩, rfl⟩
  have still := run_stillThere itself (settled.step itself step.1) (clear.step itself step) run has
    quiet there
  have shaped := laterOwned.shaped progress.isLive
  have aligned : 4 ∣ kcb.top_pgtbl_pa :=
    (by decide : 4 ∣ 4096).trans (laterOwned.root_aligned progress.isLive)
  obtain ⟨_, translated⟩ := run_keepsTable itself (settled.step itself step.1)
    (run.mono fun _ _ _ step => step.1) has fun call member => (quiet call member).not_free
  intro va bound
  refine ⟨?_, translated va bound⟩
  rw [still.bytes.walkRoot shaped bound, translated_view _ aligned]

section Small

theorem edge_started : ∃ (state after : Spinner FlatDevice) (kcb : KernelControlBlock)
    (heap : HeapManager),
    Trace (MetCallStep (edgePlatform 0x4000) edgeCaps edgeFiles)
        (Spinner.new (edgePlatform 0x4000) (flatAccelerator edgeCaps) blankMemory)
        [.allocateKernel "kernel"] state ∧
      HasHeap state.kcbs_ 0 kcb heap ∧ state.kcbs_ = [some kcb] ∧ kcb.top_pgtbl_pa = 0x4000 ∧
      startKernel (edgePlatform 0x4000) (flatAccelerator edgeCaps) id edgeFiles 0 state =
        .ok () after ∧
      RetriesMet (edgePlatform 0x4000) state.aspace_.hole_list_ state.aspace_.frames
        after.aspace_.frames ∧
      after.aspace_.translated 0x4000 0x3000 = some 0x3000 ∧
      Spare (edgePlatform 0x4000) (fun frame => edgeHoles.addrInHole frame) after.aspace_.frames 4 ∧
      ∃ stack, (edgePlatform 0x4000).IsFrame stack ∧
        after.aspace_.translated 0x4000 0x80000 = some stack := by
  obtain ⟨created, ran, history, frames⟩ := edge_high
  have valid : (edgePlatform 0x4000).Valid :=
    edgePlatform_valid (by decide) (by decide) (by decide)
  have spare : Spare (edgePlatform 0x4000) (fun frame => edgeHoles.addrInHole frame)
      created.frames (4 + 3) := by
    apply edge_spare (by decide)
    · rw [frames]
      decide
    · intro frame isFrame _
      exact isFrame.2.1
  obtain ⟨holes, obtained, after, started, page, left, stack⟩ :=
    edge_starts_mapped valid ran history spare
  have met : MetCallStep (edgePlatform 0x4000) edgeCaps edgeFiles
      (Spinner.new (edgePlatform 0x4000) (flatAccelerator edgeCaps) blankMemory)
      (.allocateKernel "kernel") (edgeKernel 0x4000 created blankMemory) :=
    ⟨⟨trivial, Or.inl ⟨_, obtained⟩⟩, edge_met (edgeHoles_new 0x4000) _ _⟩
  exact ⟨_, after, _, _, Trace.cons met (Trace.nil _), edgeKernel_found 0x4000 created, rfl, rfl, started,
    edge_met holes _ _, page, left, stack⟩

theorem edge_goesOn {state after : Spinner FlatDevice} {kcb : KernelControlBlock}
    {heap : HeapManager} {before : List SpinnerCall}
    (setup : Trace (MetCallStep (edgePlatform 0x4000) edgeCaps edgeFiles)
      (Spinner.new (edgePlatform 0x4000) (flatAccelerator edgeCaps) blankMemory) before state)
    (found : HasHeap state.kcbs_ 0 kcb heap)
    (started : startKernel (edgePlatform 0x4000) (flatAccelerator edgeCaps) id edgeFiles 0 state =
      .ok () after) :
    ∃ last, Trace (MetCallStep (edgePlatform 0x4000) edgeCaps edgeFiles) after
      [.allocateHeap 0 16, .allocateKernel "other"] last := by
  have valid : (edgePlatform 0x4000).Valid :=
    edgePlatform_valid (by decide) (by decide) (by decide)
  have step : CallStep (edgePlatform 0x4000) edgeCaps edgeFiles state (.startKernel 0 id) after :=
    ⟨⟨⟨kcb, heap, found⟩, fun dump => List.Perm.refl dump⟩, Or.inl ⟨(), started⟩⟩
  have begun := run_settled valid (edge_itself 0x4000) (setup.mono fun _ _ _ step => step.1)
  have settled := begun.step (edge_itself 0x4000) step
  obtain ⟨table, tabled⟩ := begun.tabled
  obtain ⟨⟨block, blockHeap, blockFound, _⟩, _⟩ :=
    (step.done begun.serving (edge_itself 0x4000)).keepsTable begun.serving tabled
      ⟨kcb, heap, found, rfl⟩ SpinnerCall.noConfusion
  obtain ⟨between, first⟩ := @callStep_exists (edgePlatform 0x4000) edgeCaps edgeFiles after
    (.allocateHeap 0 16) ⟨block, blockHeap, blockFound⟩
  obtain ⟨last, second⟩ := @callStep_exists (edgePlatform 0x4000) edgeCaps edgeFiles between
    (.allocateKernel "other") trivial
  have holes := settled.serving.kernels.reached.holes.trans (edgeHoles_new 0x4000)
  have holesBetween := (settled.step (edge_itself 0x4000) first).serving.kernels.reached.holes.trans
    (edgeHoles_new 0x4000)
  exact ⟨last, Trace.cons ⟨first, edge_met holes _ _⟩
    (Trace.cons ⟨second, edge_met holesBetween _ _⟩ (Trace.nil last))⟩

end Small

theorem started_table_stays_edge : ∃ after last : Spinner FlatDevice,
    Trace (MetCallStep (edgePlatform 0x4000) edgeCaps edgeFiles) after
        [.allocateHeap 0 16, .allocateKernel "other"] last ∧
      walkRoot last.device.memory 0x3000 0x4000 = some 0x3000 ∧
      last.aspace_.translated 0x4000 0x3000 = some 0x3000 := by
  obtain ⟨state, after, kcb, heap, setup, found, _, root, started, met, page, _⟩ := edge_started
  obtain ⟨last, run⟩ := edge_goesOn setup found started
  have stays := started_table_stays (edgePlatform_valid (by decide) (by decide) (by decide))
    (edge_itself 0x4000) edgeFiles blankMemory setup found (fun dump => List.Perm.refl dump) started
    met run (by
      intro call member
      rcases List.mem_cons.mp member with same | rest
      · rw [same]
        exact fun _ => ⟨rfl, rfl⟩
      · rw [List.mem_singleton.mp rest]
        exact fun impossible => by cases impossible)
  rw [root] at stays
  obtain ⟨walked, kept⟩ := stays 0x3000 (by decide)
  exact ⟨after, last, run, walked.trans page, kept _ page⟩

section Mapping

variable {platform : Platform} {holes : HoleList} {caps : Caps → Option Nat} {files : Files}
  {state last : Spinner FlatDevice} {kid root : Nat}
  (itself : ∀ page, MapsItself platform ((caps .localMemSize).getD 0) page →
    MayMapItself platform holes page)
  (positive : 0 < wrap32 (platform.IO_END_ADDR - platform.IO_BASE_ADDR))

include itself positive

/-- A start maps the first page of input and output last, and only where it is not mapped. -/
theorem mapKernel_maps (owns : Owns platform holes kid root state) :
    Ensures (mapKernel platform (flatAccelerator caps) kid) state
      (fun _ next => state.aspace_.translated root (wrap32 platform.IO_BASE_ADDR) = none ∧
        (next.aspace_.translated root (wrap32 platform.IO_BASE_ADDR)).isSome = true)
      (fun _ next => Served platform holes kid root (fun _ => False) false state next) := by
  rw [mapKernel]
  apply Ensures.bind
  apply (allocateVxbinSegments_served state (Served.refl owns)).weaken ?_ (fun _ _ served => served)
  intro _ first served
  apply Ensures.bind
  apply (allocateLocalMemory_served itself first served).weaken ?_ (fun _ _ served => served)
  intro _ second served
  apply Ensures.bind
  apply (allocateUserStack_served second served).weaken ?_ (fun _ _ served => served)
  intro _ third served
  have keeps := allocateIoPages_served itself third served
  cases ensures_iff.mp keeps with
  | inr thrown =>
      obtain ⟨fault, next, ran, kept⟩ := thrown
      exact ensures_of_throw ran kept
  | inl returned =>
      obtain ⟨_, next, ran, _⟩ := returned
      apply ensures_of_run ran
      obtain ⟨kcb, heap, found, rootIs, _⟩ := served.owns.found
      rw [allocateIoPages, bind_ok (kcbAt_run found.stored), rootIs, onAddressSpace] at ran
      cases mapped : unsafeMapIdentity platform.IO_BASE_ADDR
          (wrap32 (platform.IO_END_ADDR - platform.IO_BASE_ADDR)) root dataFlags third.aspace_ with
      | error fault aspace =>
          rw [mapped] at ran
          cases ran
      | ok _ aspace =>
          rw [mapped] at ran
          cases ran
          obtain ⟨unmapped, isMapped⟩ := unsafeMapIdentity_maps served.owns.isLive
            served.owns.reached (by decide) (fun offset inside aligned =>
              itself _ ⟨offset, aligned, Or.inr ⟨inside, rfl⟩⟩) positive mapped
          refine ⟨?_, isMapped⟩
          -- what was mapped before would still be mapped
          cases before : state.aspace_.translated root (wrap32 platform.IO_BASE_ADDR) with
          | none => rfl
          | some pa =>
              rw [served.work.translated owns.reached owns.isLive (wrap32_lt _) before] at unmapped
              cases unmapped

theorem startKernel_maps {after : Spinner FlatDevice} (owns : Owns platform holes kid root state)
    {order : SparseScratchpad → SparseScratchpad} (permutes : ∀ dump, (order dump).Perm dump)
    (started : startKernel platform (flatAccelerator caps) order files kid state = .ok () after) :
    ∃ pa, after.aspace_.translated root (wrap32 platform.IO_BASE_ADDR) = some pa := by
  rw [startKernel_launches] at started
  obtain ⟨_, mapped, ranMap, launched⟩ := bind_returns started
  obtain ⟨_, isMapped⟩ := (mapKernel_maps itself positive owns).of_ok ranMap
  obtain ⟨pa, translated⟩ := Option.isSome_iff_exists.mp isMapped
  have servedMap := (@mapKernel_served _ _ _ _ (fun _ => True) true state caps itself state
    (Served.refl owns)).of_ok ranMap
  have servedLaunch := (launchKernel_served permutes (fun _ _ _ _ _ _ => trivial) mapped
    (Served.refl servedMap.owns)).of_ok launched
  exact ⟨pa, servedLaunch.work.translated servedMap.owns.reached servedMap.owns.isLive (wrap32_lt _)
    translated⟩

/-- Once the page is mapped no start gets past the mappings. -/
theorem startKernel_refused (serving : Serving platform holes files last)
    (has : HasTable last.kcbs_ kid root) {pa : Nat}
    (mapped : last.aspace_.translated root (wrap32 platform.IO_BASE_ADDR) = some pa)
    (order : SparseScratchpad → SparseScratchpad) :
    ∃ fault next, startKernel platform (flatAccelerator caps) order files kid last =
      .error fault next ∧ next.device = last.device := by
  obtain ⟨kcb, heap, found, rootIs⟩ := has
  have owns := serving.owns found
  rw [rootIs] at owns
  obtain ⟨owner, owned⟩ := serving.kernels.reached.owned
  rw [startKernel_launches]
  have prepared := @mapKernel_keeps _ platform _ holes root owner last kid kcb (flatAccelerator caps)
    found.stored rootIs itself last ⟨rfl, rfl, serving.kernels.reached.progress owned owns.isLive⟩
  cases ensures_iff.mp prepared with
  | inl returned =>
      obtain ⟨_, next, ran, _⟩ := returned
      have unmapped := ((mapKernel_maps itself positive owns).of_ok ran).1
      rw [mapped] at unmapped
      cases unmapped
  | inr thrown =>
      obtain ⟨fault, next, ran, kept⟩ := thrown
      exact ⟨fault, next, bind_error ran, kept.device⟩

end Mapping

/-- A kernel that has been started cannot be started again while it is there: every later start
throws, and the device is not reached. -/
theorem kernels_start_once {platform : Platform} (valid : platform.Valid)
    {caps : Caps → Option Nat}
    (itself : ∀ page, MapsItself platform ((caps .localMemSize).getD 0) page →
      MayMapItself platform
        (AddressSpaceManager.new platform ((caps .localMemSize).getD 0)).hole_list_ page)
    (positive : 0 < wrap32 (platform.IO_END_ADDR - platform.IO_BASE_ADDR))
    (files : Files) (device : FlatDevice) {before calls : List SpinnerCall}
    {state after last : Spinner FlatDevice}
    (setup : Trace (CallStep platform caps files)
      (Spinner.new platform (flatAccelerator caps) device) before state) {kid : Nat}
    (finished : Finished state.kcbs_ kid)
    {order : SparseScratchpad → SparseScratchpad} (permutes : ∀ dump, (order dump).Perm dump)
    (started : startKernel platform (flatAccelerator caps) order files kid state = .ok () after)
    (run : Trace (CallStep platform caps files) after calls last)
    (kept : ∀ call ∈ calls, call ≠ .freeKernel kid)
    (again : SparseScratchpad → SparseScratchpad) :
    ∃ fault next, startKernel platform (flatAccelerator caps) again files kid last =
      .error fault next ∧ next.device = last.device := by
  obtain ⟨kcb, heap, found⟩ := finished
  have settled := run_settled valid itself setup
  have step : CallStep platform caps files state (.startKernel kid order) after :=
    ⟨⟨⟨kcb, heap, found⟩, permutes⟩, Or.inl ⟨(), started⟩⟩
  obtain ⟨table, tabled⟩ := settled.tabled
  have has := ((step.done settled.serving itself).keepsTable settled.serving tabled
    ⟨kcb, heap, found, rfl⟩ SpinnerCall.noConfusion).1
  obtain ⟨pa, atStart⟩ := startKernel_maps itself positive (settled.serving.owns found) permutes started
  obtain ⟨hasLast, stays⟩ := run_keepsTable itself (settled.step itself step) run has kept
  have servingLast := (run.invariant (Settled platform _ files) (fun _ _ _ settled step =>
    settled.step itself step) (settled.step itself step)).serving
  exact startKernel_refused itself positive servingLast hasLast
    (stays _ (wrap32_lt _) pa atStart) again

theorem kernels_start_once_edge : ∃ (after last : Spinner FlatDevice) (fault : Fault)
    (next : Spinner FlatDevice),
    Trace (CallStep (edgePlatform 0x4000) edgeCaps edgeFiles) after
        [.allocateHeap 0 16, .allocateKernel "other"] last ∧
      startKernel (edgePlatform 0x4000) (flatAccelerator edgeCaps) id edgeFiles 0 last =
        .error fault next ∧ next.device = last.device := by
  obtain ⟨state, after, kcb, heap, setup, found, _, _, started, _⟩ := edge_started
  obtain ⟨last, run⟩ := edge_goesOn setup found started
  have calls := run.mono fun _ _ _ step => step.1
  obtain ⟨fault, next, ran, same⟩ := kernels_start_once
    (edgePlatform_valid (by decide) (by decide) (by decide)) (edge_itself 0x4000) (by decide) edgeFiles
    blankMemory (setup.mono fun _ _ _ step => step.1) ⟨kcb, heap, found⟩
    (fun dump => List.Perm.refl dump) started calls (by
      intro call member
      rcases List.mem_cons.mp member with same | rest
      · rw [same]
        exact SpinnerCall.noConfusion
      · rw [List.mem_singleton.mp rest]
        exact SpinnerCall.noConfusion) id
  exact ⟨after, last, fault, next, calls, ran, same⟩

end Espiral.Spinner
