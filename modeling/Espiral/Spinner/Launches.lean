import Espiral.Spinner.SpinnerRuns

/-!
# What a started device finds

Over all runs: when a kernel is started, the device walks the table of the host.
It finds the image as well where no second frame of a request was reported as a
hole.
-/

namespace Espiral.Spinner

set_option autoImplicit false

open AddressSpaceManager ByteMemory Contracts MachineWords Traces

def MetCallStep (platform : Platform) (caps : Caps → Option Nat) (files : Files)
    (state : Spinner FlatDevice) (call : SpinnerCall) (next : Spinner FlatDevice) : Prop :=
  CallStep platform caps files state call next ∧
    RetriesMet platform state.aspace_.hole_list_ state.aspace_.frames next.aspace_.frames

structure Clear (platform : Platform) (holes : HoleList) (files : Files)
    (state : Spinner FlatDevice) : Prop where
  serving : Serving platform holes files state
  owned : ∃ owner, WellOwned platform (MayMapItself platform holes) owner state.aspace_ ∧
    Unreported holes owner

section Runs

variable {platform : Platform} {holes : HoleList} {caps : Caps → Option Nat} {files : Files}
  {state next : Spinner FlatDevice} {call : SpinnerCall}

theorem new_clear (valid : platform.Valid) (accelerator : HostAccelerator FlatDevice)
    (device : FlatDevice) :
    Clear platform (AddressSpaceManager.new platform
      ((accelerator.getCaps .localMemSize).getD 0)).hole_list_ files
      (Spinner.new platform accelerator device) where
  serving := new_serving valid accelerator device
  owned := by
    refine ⟨fun _ => none, ?_, fun _ _ has => by cases has⟩
    change WellOwned _ _ _ (AddressSpaceManager.new platform _)
    rw [new_withHoles]
    exact withHoles_owned valid _ _

theorem Clear.step (clear : Clear platform holes files state)
    (itself : ∀ page, MapsItself platform ((caps .localMemSize).getD 0) page →
      MayMapItself platform holes page)
    (step : MetCallStep platform caps files state call next) : Clear platform holes files next := by
  obtain ⟨owner, owned, unreported⟩ := clear.owned
  have effect := step.1.effect clear.serving owned itself
  obtain ⟨later, laterOwned, change⟩ := effect.owned
  refine ⟨effect.serving, later, laterOwned, ?_⟩
  have met := step.2
  rw [clear.serving.kernels.reached.holes] at met
  cases change with
  | inl taken => exact unreported.taken taken met
  | inr extended => exact fun frame role has => unreported frame role (extended frame role has)

end Runs

/-- In every run the device of a started kernel walks the table as the host does; and in a run
in which no second frame of a request is reported as a hole, it also finds the image. -/
theorem launches_see {platform : Platform} (valid : platform.Valid) {caps : Caps → Option Nat}
    (itself : ∀ page, MapsItself platform ((caps .localMemSize).getD 0) page →
      MayMapItself platform
        (AddressSpaceManager.new platform ((caps .localMemSize).getD 0)).hole_list_ page)
    (files : Files) (device : FlatDevice) :
    (∀ calls state, Trace (CallStep platform caps files)
          (Spinner.new platform (flatAccelerator caps) device) calls state →
        ∀ kid kcb heap, HasHeap state.kcbs_ kid kcb heap →
        ∀ order : SparseScratchpad → SparseScratchpad, (∀ dump, (order dump).Perm dump) →
        ∀ after, startKernel platform (flatAccelerator caps) order files kid state = .ok () after →
          ∃ launch, after.device.launches.head? = some launch ∧
            SeesTable after.aspace_ kcb.top_pgtbl_pa launch) ∧
      ∀ calls state, Trace (MetCallStep platform caps files)
          (Spinner.new platform (flatAccelerator caps) device) calls state →
        ∀ kid kcb heap, HasHeap state.kcbs_ kid kcb heap →
        ∀ content, files kcb.vxbin_path = some content →
        imageStart content + kcb.vxbin_size ≤ 2 ^ 32 →
        ∀ order : SparseScratchpad → SparseScratchpad, (∀ dump, (order dump).Perm dump) →
        ∀ after, startKernel platform (flatAccelerator caps) order files kid state = .ok () after →
        RetriesMet platform state.aspace_.hole_list_ state.aspace_.frames after.aspace_.frames →
          ∃ launch, after.device.launches.head? = some launch ∧
            SeesTable after.aspace_ kcb.top_pgtbl_pa launch ∧
            SeesImage (imageStart content) (imageBytes content) launch ∧
            (imageBytes content).length = kcb.vxbin_size := by
  constructor
  · intro calls state run kid kcb heap found order permutes after ran
    have serving := run_serving valid itself run
    obtain ⟨owner, owned⟩ := serving.kernels.reached.owned
    obtain ⟨_, progress, launch, last, launched⟩ :=
      (startKernel_spec serving.kernels.reached owned found.stored
        (serving.kernels.rooted _ _ _ found).2 itself permutes).of_ok ran
    obtain ⟨later, laterOwned, _⟩ := progress.owned
    exact ⟨launch, last, launched.seesTable laterOwned progress.isLive⟩
  · intro calls state run kid kcb heap found content onDisk narrow order permutes after ran met
    have clear := run.invariant (Clear platform _ files) (fun _ _ _ kept step =>
      kept.step itself step) (new_clear valid (flatAccelerator caps) device)
    obtain ⟨owner, owned, unreported⟩ := clear.owned
    obtain ⟨image, again, size⟩ := clear.serving.images _ _ _ found
    rw [onDisk, Option.some.injEq] at again
    rw [← again] at size
    rw [size] at narrow ⊢
    rw [clear.serving.kernels.reached.holes] at met
    obtain ⟨_, progress, launch, last, launched⟩ :=
      (startKernel_spec clear.serving.kernels.reached owned found.stored
        (clear.serving.kernels.rooted _ _ _ found).2 itself permutes).of_ok ran
    obtain ⟨later, laterOwned, taken⟩ := progress.owned
    exact ⟨launch, last, launched.seesTable laterOwned progress.isLive,
      launched.seesImage laterOwned (unreported.taken taken met) progress.isLive onDisk narrow, rfl⟩

section Small

/-- Local memory in the second page, and input and output in the fourth one. -/
def edgePlatform (base : Nat) : Platform where
  ALLOC_BASE_ADDR := base
  GLOBAL_MEM_SIZE := 0xC000
  MEM_PAGE_SIZE := 4096
  CACHE_BLOCK_SIZE := 64
  IO_BASE_ADDR := 0x3000
  IO_END_ADDR := 0x3FC0
  LMEM_BASE_ADDR := 0x1000
  STACK_BASE_ADDR := 0x81000
  STACK_LOG2_SIZE := 10
  NUM_THREADS := 1
  NUM_WARPS := 1

def edgeCaps : Caps → Option Nat
  | .localMemSize => some 0x1000
  | _ => none

/-- An image of zeros over the end of the third page; only that page is mapped for it. -/
def edgeImage : List UInt8 :=
  littleEndian 8 0x2FF0 ++ littleEndian 8 0x3010 ++ List.replicate 32 0

def edgeHoles : HoleList := { hole_list_ := [(0x1000, 0x1000), (0x3000, 0xFC0)] }

theorem edgePlatform_ranges (base : Nat) : (edgePlatform base).LMEM_BASE_ADDR = 0x1000 ∧
    (edgePlatform base).IO_BASE_ADDR = 0x3000 ∧ (edgePlatform base).IO_END_ADDR = 0x3FC0 :=
  ⟨rfl, rfl, rfl⟩

theorem edgeHoles_new (base : Nat) :
    (AddressSpaceManager.new (edgePlatform base) 0x1000).hole_list_ = edgeHoles := by
  obtain ⟨localMemory, inputOutput, stop⟩ := edgePlatform_ranges base
  change HoleList.addHole (edgePlatform base).LMEM_BASE_ADDR 0x1000
    (HoleList.addHole (edgePlatform base).IO_BASE_ADDR
      ((edgePlatform base).IO_END_ADDR - (edgePlatform base).IO_BASE_ADDR) HoleList.empty) = _
  rw [localMemory, inputOutput, stop]
  rfl

theorem edgeHoles_reported (addr : Nat) : edgeHoles.addrInHole addr =
    (decide (0x1000 ≤ addr ∧ addr ≤ 0x2000) || decide (0x3000 ≤ addr ∧ addr ≤ 0x3FC0)) := by
  have first : add64 0x1000 0x1000 = 0x2000 := rfl
  have second : add64 0x3000 0xFC0 = 0x3FC0 := rfl
  rw [HoleList.addrInHole, edgeHoles]
  simp [first, second]

theorem edgePlatform_itself (base page : Nat)
    (mapped : MapsItself (edgePlatform base) ((edgeCaps .localMemSize).getD 0) page) :
    MayMapItself (edgePlatform base) edgeHoles page := by
  obtain ⟨localMemory, inputOutput, stop⟩ := edgePlatform_ranges base
  obtain ⟨offset, aligned, place⟩ := mapped
  rw [localMemory, inputOutput, stop] at place
  left
  rw [edgeHoles_reported]
  cases place with
  | inl here =>
      have size : wrap32 ((edgeCaps .localMemSize).getD 0) = 0x1000 := rfl
      have start : offset = 0 := by omega
      rw [here.2, start]
      decide
  | inr here =>
      have size : wrap32 (0x3FC0 - 0x3000) = 0xFC0 := rfl
      have start : offset = 0 := by omega
      rw [here.2, start]
      decide

variable {base root count : Nat} {created : AddressSpaceManager}

def edgeKernel (root : Nat) (created : AddressSpaceManager) (device : FlatDevice) :
    Spinner FlatDevice where
  kcbs_ := [some (newKcb root "kernel" 48 0x2FF0 0x3010)]
  aspace_ := created
  device := device

theorem edgeKernel_stored (root : Nat) (created : AddressSpaceManager) (device : FlatDevice) :
    (edgeKernel root created device).kcbs_[0]? =
      some (some (newKcb root "kernel" 48 0x2FF0 0x3010)) := rfl

theorem edgeKernel_maps (roomy : Roomy (edgePlatform base) (MayMapItself (edgePlatform base) edgeHoles)
      edgeHoles root (count + 3) [.created root] created) (device : FlatDevice) :
    ∃ mapped code stack, mapKernel (edgePlatform base) (flatAccelerator edgeCaps) 0
        (edgeKernel root created device) = .ok () (edgeKernel root mapped device) ∧
      Roomy (edgePlatform base) (MayMapItself (edgePlatform base) edgeHoles) edgeHoles root count
        [.mapped root 0x3000 0x3000 dataFlags, .mapped root 0x80000 stack dataFlags,
          .mapped root 0x1000 0x1000 dataFlags, .mapped root 0x2FF0 code codeFlags,
          .created root] mapped ∧
      (edgePlatform base).IsFrame stack := by
  obtain ⟨localMemory, inputOutput, stop⟩ := edgePlatform_ranges base
  obtain ⟨first, code, ranCode, _, firstRoomy⟩ := @Roomy.frame _ _ _ _ (count + 1) 1 0x2FF0 codeFlags
    _ _ (by decide) (by decide) (by simp [mapping]) (nodesNeeded_le _ _ _) roomy
  -- the node of the first page serves all of them
  obtain ⟨second, ranLocal, secondRoomy⟩ := @Roomy.itself _ _ _ _ (count + 1) 0 0x1000 dataFlags _ _
    (by decide) (by decide) (by simp [mapping])
    (firstRoomy.near (by decide : 2 < 2 ^ 20) (if_pos ⟨rfl, rfl⟩) rfl) firstRoomy
    (edgePlatform_itself base _ ⟨0, by decide, Or.inl ⟨by decide, by rw [localMemory]; rfl⟩⟩)
  obtain ⟨third, stack, ranStack, isFrame, thirdRoomy⟩ := @Roomy.frame _ _ _ _ count 0 0x80000
    dataFlags _ _ (by decide) (by decide) (by simp [mapping])
    (secondRoomy.near (by decide : 1 < 2 ^ 20) (if_pos ⟨rfl, rfl⟩) rfl) secondRoomy
  obtain ⟨last, ranIo, lastRoomy⟩ := @Roomy.itself _ _ _ _ count 0 0x3000 dataFlags _ _
    (by decide) (by decide) (by simp [mapping])
    (thirdRoomy.near (by decide : 0x80 < 2 ^ 20) (if_pos ⟨rfl, rfl⟩) rfl) thirdRoomy
    (edgePlatform_itself base _ ⟨0, by decide, Or.inr
      ⟨by rw [inputOutput, stop]; decide, by rw [inputOutput]; rfl⟩⟩)
  have segments : mapVxbinSegments root 0x2FF0 0x3010 32 created = .ok () first := by
    have shape : mapVxbinSegments root 0x2FF0 0x3010 32 = (do
        allocateVmPages 0x2FF0 0x1000 root codeFlags
        pure ()) := rfl
    have loop : allocateVmPages 0x2FF0 0x1000 root codeFlags created = .ok () first :=
      @forPages_one _ (fun offset => allocateOneVmPage (wrap32 (0x2FF0 + offset)) root codeFlags)
        created first (by decide) (by decide) ranCode
    rw [shape, bind_ok loop]
    rfl
  have localPages : unsafeMapIdentity 0x1000 0x1000 root dataFlags first = .ok () second :=
    @forPages_one _ (fun offset => mapAddrInner (wrap32 (0x1000 + offset))
      (wrap32 (0x1000 + offset)) root dataFlags) first second (by decide) (by decide) ranLocal
  have stackPages : allocateVmPages 0x80000 0x1000 root dataFlags second = .ok () third :=
    @forPages_one _ (fun offset => allocateOneVmPage (wrap32 (0x80000 + offset)) root dataFlags)
      second third (by decide) (by decide) ranStack
  have ioPages : unsafeMapIdentity 0x3000 0xFC0 root dataFlags third = .ok () last :=
    @forPages_one _ (fun offset => mapAddrInner (wrap32 (0x3000 + offset))
      (wrap32 (0x3000 + offset)) root dataFlags) third last (by decide) (by decide) ranIo
  have first_ran : allocateVxbinSegments 0 (edgeKernel root created device) =
      .ok () (edgeKernel root first device) := by
    rw [allocateVxbinSegments, bind_ok (kcbAt_run (edgeKernel_stored root created device))]
    exact onAddressSpace_run segments
  have second_ran : allocateLocalMemory (edgePlatform base) (flatAccelerator edgeCaps) 0
      (edgeKernel root first device) = .ok () (edgeKernel root second device) := by
    rw [allocateLocalMemory, bind_ok (kcbAt_run (edgeKernel_stored root first device)), localMemory]
    exact onAddressSpace_run localPages
  have third_ran : allocateUserStack (edgePlatform base) (flatAccelerator edgeCaps) 0
      (edgeKernel root second device) = .ok () (edgeKernel root third device) := by
    have stackBase : (edgePlatform base).STACK_BASE_ADDR = 0x81000 := rfl
    have slot : (edgePlatform base).STACK_LOG2_SIZE = 10 := rfl
    have bits : Nat.clog 2 1 = 0 := Nat.clog_one_right 2
    have size : stackSize64 (edgePlatform base) 1 1 = 0x1000 := by
      unfold stackSize64
      simp only [bits, slot]
      decide
    rw [allocateUserStack, bind_ok (kcbAt_run (edgeKernel_stored root second device))]
    change onAddressSpace (allocateVmPages (wrap32 (sub64 (edgePlatform base).STACK_BASE_ADDR
      (stackSize64 (edgePlatform base) 1 1))) (wrap32 (stackSize64 (edgePlatform base) 1 1)) root
      dataFlags) (edgeKernel root second device) = _
    rw [size, stackBase]
    exact onAddressSpace_run stackPages
  have last_ran : allocateIoPages (edgePlatform base) 0 (edgeKernel root third device) =
      .ok () (edgeKernel root last device) := by
    rw [allocateIoPages, bind_ok (kcbAt_run (edgeKernel_stored root third device)), inputOutput,
      stop]
    exact onAddressSpace_run ioPages
  refine ⟨last, code, stack, ?_, lastRoomy, isFrame⟩
  rw [mapKernel, bind_ok first_ran, bind_ok second_ran, bind_ok third_ran, last_ran]

def edgeFiles : Files := fun _ => some edgeImage

def blankMemory : FlatDevice where
  memory := fun _ => 0
  launches := []

theorem edgePlatform_valid (positive : 0 < base) (aligned : 4096 ∣ base) (low : base ≤ 0x4000) :
    (edgePlatform base).Valid where
  basePositive := positive
  baseAligned := aligned
  pageSize := rfl
  cacheBlock := ⟨6, by decide, rfl⟩
  room := by
    change base + 4096 ≤ 0xC000
    omega
  narrow := by
    change 0xC000 ≤ 2 ^ 32
    decide

theorem edgeHoles_above {frame : Nat} (above : 0x4000 ≤ frame) :
    edgeHoles.addrInHole frame = false := by
  rw [edgeHoles_reported]
  simp only [Bool.or_eq_false_iff, decide_eq_false_iff_not]
  omega

theorem edge_spare {used : Finset Nat} (low : base ≤ 0x4000) (lower : ∀ frame ∈ used, frame < 0x5000)
    (rest : ∀ frame, (edgePlatform base).IsFrame frame → frame ∉ used → 0x4000 ≤ frame) :
    Spare (edgePlatform base) (fun frame => edgeHoles.addrInHole frame) used 7 where
  outside frame isFrame unused := edgeHoles_above (rest frame isFrame unused)
  enough := by
    refine ⟨(Finset.range 7).image fun index => 0x5000 + index * 0x1000, by decide, ?_⟩
    intro frame member
    obtain ⟨index, inside, same⟩ := Finset.mem_image.mp member
    have small := Finset.mem_range.mp inside
    have start : (edgePlatform base).ALLOC_BASE_ADDR = base := rfl
    have stop : (edgePlatform base).GLOBAL_MEM_SIZE = 0xC000 := rfl
    constructor
    · refine ⟨by omega, by omega, by omega⟩
    · intro mine
      have below := lower frame mine
      omega

theorem edge_itself (base page : Nat)
    (mapped : MapsItself (edgePlatform base) ((edgeCaps .localMemSize).getD 0) page) :
    MayMapItself (edgePlatform base) (AddressSpaceManager.new (edgePlatform base)
      ((edgeCaps .localMemSize).getD 0)).hole_list_ page := by
  have size : (edgeCaps .localMemSize).getD 0 = 0x1000 := rfl
  have holes := edgeHoles_new base
  rw [size] at mapped ⊢
  rw [holes]
  exact edgePlatform_itself base page mapped

theorem edgeKernel_found (root : Nat) (created : AddressSpaceManager) :
    HasHeap (edgeKernel root created blankMemory).kcbs_ 0 (newKcb root "kernel" 48 0x2FF0 0x3010)
      (HeapManager.new root 0x4000) := by
  have base : wrap32 (pageAlignUp 0x3010) = 0x4000 := by decide
  refine ⟨edgeKernel_stored _ _ _, ?_⟩
  rw [newKcb, base]

theorem edge_starts_mapped (valid : (edgePlatform base).Valid)
    (ran : allocatePageTable (AddressSpaceManager.new (edgePlatform base) 0x1000) =
      .ok (some root) created)
    (history : created.history = [.created root])
    (spare : Spare (edgePlatform base) (fun frame => edgeHoles.addrInHole frame) created.frames
      (count + 3)) :
    created.hole_list_ = edgeHoles ∧
      performCall (edgePlatform base) edgeCaps edgeFiles (.allocateKernel "kernel")
        (Spinner.new (edgePlatform base) (flatAccelerator edgeCaps) blankMemory) =
          .ok () (edgeKernel root created blankMemory) ∧
      ∃ after, startKernel (edgePlatform base) (flatAccelerator edgeCaps) id edgeFiles 0
          (edgeKernel root created blankMemory) = .ok () after ∧
        after.aspace_.translated root 0x3000 = some 0x3000 ∧
        Spare (edgePlatform base) (fun frame => edgeHoles.addrInHole frame) after.aspace_.frames
          count ∧
        ∃ stack, (edgePlatform base).IsFrame stack ∧
          after.aspace_.translated root 0x80000 = some stack := by
  have kernel : allocateKernel edgeFiles "kernel"
      (Spinner.new (edgePlatform base) (flatAccelerator edgeCaps) blankMemory) =
        .ok 0 (edgeKernel root created blankMemory) := by
    have obtained := @allocateKernel_first _ (edgePlatform base) (flatAccelerator edgeCaps) blankMemory
      edgeFiles "kernel" edgeImage root created rfl (by decide) ran
    rw [obtained]
    congr 1
  have setup : Trace (Step (edgePlatform base)) (AddressSpaceManager.new (edgePlatform base) 0x1000)
      [.allocatePageTable] created := Trace.cons ⟨trivial, Or.inl ⟨_, ran⟩⟩ (Trace.nil created)
  have reached : Reached (edgePlatform base) (MayMapItself (edgePlatform base)
      (AddressSpaceManager.new (edgePlatform base) 0x1000).hole_list_)
      (AddressSpaceManager.new (edgePlatform base) 0x1000).hole_list_ created :=
    run_reached valid setup
  rw [edgeHoles_new] at reached
  have isLive : created.Live root :=
    (@live_created (AddressSpaceManager.new (edgePlatform base) 0x1000) created root history
      root).mpr (Or.inl rfl)
  obtain ⟨mapped, code, stack, maps, roomy, isFrame⟩ :=
    edgeKernel_maps ⟨reached, isLive, history, spare⟩ blankMemory
  obtain ⟨owner, owned⟩ := roomy.reached.owned
  have translated : ∀ va < 2 ^ 32, mapped.translated root va =
      (mapping mapped.history root (va / 4096)).map fun pte => ptePa pte + va % 4096 :=
    fun va bound => owned.translated_mapping roomy.isLive bound
  rw [roomy.history] at translated
  have length : (imageBytes edgeImage).length = 32 := by decide
  have startIs : imageStart edgeImage = 0x2FF0 := by decide
  have bytes : ∀ index < (imageBytes edgeImage).length,
      (byteAddress mapped root (imageStart edgeImage) index).isSome := by
    intro index inside
    have narrow : imageStart edgeImage + (imageBytes edgeImage).length ≤ 2 ^ 32 := by decide
    rw [byteAddress_narrow narrow inside, startIs, translated _ (by omega)]
    have page : (0x2FF0 + index) / 4096 = 2 ∨ (0x2FF0 + index) / 4096 = 3 := by omega
    cases page with
    | inl second =>
        rw [second]
        simp [mapping]
    | inr third =>
        rw [third]
        simp [mapping]
  obtain ⟨after, started, same⟩ := @startKernel_returns (edgePlatform base) owner edgeCaps edgeFiles
    (edgeKernel root created blankMemory) 0 (newKcb root "kernel" 48 0x2FF0 0x3010)
    (edgeKernel root mapped blankMemory) _ edgeImage (edgeKernel_stored root mapped blankMemory) maps
    owned roomy.isLive rfl (by decide) bytes id (fun dump => List.Perm.refl dump)
  have sameTranslated : ∀ va, after.aspace_.translated root va = mapped.translated root va := by
    intro va
    have aligned : 4 ∣ root := (by decide : 4 ∣ 4096).trans (owned.root_aligned roomy.isLive)
    rw [translated_view _ aligned, translated_view _ aligned, same.view]
    rfl
  have paIs : ptePa (makePte stack (leafFlags dataFlags)) = stack := by
    rw [ptePa_makePte (isFrame.narrow valid), frameOf]
    have aligned := isFrame.1
    omega
  refine ⟨reached.holes, ?_, after, started, ?_, same.frames ▸ roomy.spare, stack, isFrame, ?_⟩
  · rw [performCall, bind_ok kernel]
    rfl
  · rw [sameTranslated, translated 0x3000 (by decide)]
    simp [mapping]
    decide
  · rw [sameTranslated, translated 0x80000 (by decide)]
    simp [mapping]
    exact paIs

theorem edge_starts (valid : (edgePlatform base).Valid)
    (ran : allocatePageTable (AddressSpaceManager.new (edgePlatform base) 0x1000) =
      .ok (some root) created)
    (history : created.history = [.created root])
    (spare : Spare (edgePlatform base) (fun frame => edgeHoles.addrInHole frame) created.frames
      (count + 3)) :
    created.hole_list_ = edgeHoles ∧
      performCall (edgePlatform base) edgeCaps edgeFiles (.allocateKernel "kernel")
        (Spinner.new (edgePlatform base) (flatAccelerator edgeCaps) blankMemory) =
          .ok () (edgeKernel root created blankMemory) ∧
      ∃ after, startKernel (edgePlatform base) (flatAccelerator edgeCaps) id edgeFiles 0
          (edgeKernel root created blankMemory) = .ok () after ∧
        after.aspace_.translated root 0x3000 = some 0x3000 := by
  obtain ⟨holes, obtained, after, started, page, _⟩ := edge_starts_mapped valid ran history spare
  exact ⟨holes, obtained, after, started, page⟩

theorem edge_low : ∃ next,
    allocatePageTable (AddressSpaceManager.new (edgePlatform 0x2000) 0x1000) = .ok (some 0x3000) next ∧
      next.history = [.created 0x3000] ∧ next.frames = {0x2000, 0x3000} := ⟨_, rfl, rfl, rfl⟩

theorem edge_high : ∃ next,
    allocatePageTable (AddressSpaceManager.new (edgePlatform 0x4000) 0x1000) = .ok (some 0x4000) next ∧
      next.history = [.created 0x4000] ∧ next.frames = {0x4000} := ⟨_, rfl, rfl, rfl⟩

/-- The root table is put into the page of input and output; copied last, it is what the device
reads in the middle of the image. -/
theorem root_table_in_image : ∃ state kcb heap after launch,
    (edgePlatform 0x2000).Valid ∧
      (∀ page, MapsItself (edgePlatform 0x2000) ((edgeCaps .localMemSize).getD 0) page →
        MayMapItself (edgePlatform 0x2000)
          (AddressSpaceManager.new (edgePlatform 0x2000)
            ((edgeCaps .localMemSize).getD 0)).hole_list_ page) ∧
      Trace (CallStep (edgePlatform 0x2000) edgeCaps edgeFiles)
        (Spinner.new (edgePlatform 0x2000) (flatAccelerator edgeCaps) blankMemory)
        [.allocateKernel "kernel"] state ∧
      HasHeap state.kcbs_ 0 kcb heap ∧ edgeFiles kcb.vxbin_path = some edgeImage ∧
      imageStart edgeImage + kcb.vxbin_size ≤ 2 ^ 32 ∧
      startKernel (edgePlatform 0x2000) (flatAccelerator edgeCaps) id edgeFiles 0 state =
        .ok () after ∧
      after.device.launches.head? = some launch ∧
      SeesTable after.aspace_ kcb.top_pgtbl_pa launch ∧
      ¬SeesImage (imageStart edgeImage) (imageBytes edgeImage) launch := by
  obtain ⟨created, ran, history, frames⟩ := edge_low
  have valid : (edgePlatform 0x2000).Valid :=
    edgePlatform_valid (by decide) (by decide) (by decide)
  have spare : Spare (edgePlatform 0x2000) (fun frame => edgeHoles.addrInHole frame)
      created.frames (4 + 3) := by
    have start : (edgePlatform 0x2000).ALLOC_BASE_ADDR = 0x2000 := rfl
    apply edge_spare (by decide)
    · rw [frames]
      decide
    · intro frame isFrame unused
      obtain ⟨aligned, low, high⟩ := isFrame
      rw [frames, Finset.mem_insert, Finset.mem_singleton] at unused
      omega
  obtain ⟨_, obtained, after, started, page⟩ := edge_starts valid ran history spare
  have run : Trace (CallStep (edgePlatform 0x2000) edgeCaps edgeFiles)
      (Spinner.new (edgePlatform 0x2000) (flatAccelerator edgeCaps) blankMemory)
      [.allocateKernel "kernel"] (edgeKernel 0x3000 created blankMemory) :=
    Trace.cons ⟨trivial, Or.inl ⟨_, obtained⟩⟩ (Trace.nil _)
  have serving := run_serving valid (edge_itself 0x2000) run
  have found := edgeKernel_found 0x3000 created
  obtain ⟨owner, owned⟩ := serving.kernels.reached.owned
  obtain ⟨_, progress, launch, last, launched⟩ :=
    (startKernel_spec serving.kernels.reached owned found.stored
      (serving.kernels.rooted _ _ _ found).2 (edge_itself 0x2000)
      (fun dump => List.Perm.refl dump)).of_ok started
  obtain ⟨later, laterOwned, _⟩ := progress.owned
  have sees := launched.seesTable laterOwned progress.isLive
  refine ⟨_, _, _, after, launch, valid, edge_itself 0x2000, run, found, rfl, by decide, started, last, sees, ?_⟩
  intro image
  obtain ⟨root, walks⟩ := sees
  have walked : walkRoot launch.memory 0x3000 launch.top_pgtbl_pa = some 0x3000 := by
    rw [walks 0x3000 (by decide)]
    exact page
  have length : (imageBytes edgeImage).length = 32 := by decide
  have startIs : imageStart edgeImage = 0x2FF0 := by decide
  have byte : ((imageBytes edgeImage).map some)[16]? = some (some 0) := by decide
  rw [← image, readThrough, length, startIs, List.getElem?_map,
    List.getElem?_range (by decide), Option.map_some, walked, Option.map_some, Option.some.injEq,
    Option.some.injEq] at byte
  rw [root] at walked
  exact walkRoot_first (by decide) (by decide) walked byte

theorem edge_met {holes : HoleList} (same : holes = edgeHoles) (used last : Finset Nat) :
    RetriesMet (edgePlatform 0x4000) holes used last := by
  rw [same]
  intro _ _ _ _ _ _ second next
  exact edgeHoles_above next.isFrame.2.1

theorem launches_see_edge : ∃ state after launch,
    Trace (MetCallStep (edgePlatform 0x4000) edgeCaps edgeFiles)
        (Spinner.new (edgePlatform 0x4000) (flatAccelerator edgeCaps) blankMemory)
        [.allocateKernel "kernel"] state ∧
      startKernel (edgePlatform 0x4000) (flatAccelerator edgeCaps) id edgeFiles 0 state =
        .ok () after ∧
      after.device.launches.head? = some launch ∧
      SeesTable after.aspace_ 0x4000 launch ∧
      SeesImage (imageStart edgeImage) (imageBytes edgeImage) launch := by
  obtain ⟨created, ran, history, frames⟩ := edge_high
  have valid : (edgePlatform 0x4000).Valid :=
    edgePlatform_valid (by decide) (by decide) (by decide)
  have spare : Spare (edgePlatform 0x4000) (fun frame => edgeHoles.addrInHole frame)
      created.frames (4 + 3) := by
    apply edge_spare (by decide)
    · rw [frames]
      decide
    · intro frame isFrame _
      exact isFrame.2.1
  obtain ⟨holes, obtained, after, started, _⟩ := edge_starts valid ran history spare
  have met : MetCallStep (edgePlatform 0x4000) edgeCaps edgeFiles
      (Spinner.new (edgePlatform 0x4000) (flatAccelerator edgeCaps) blankMemory)
      (.allocateKernel "kernel") (edgeKernel 0x4000 created blankMemory) :=
    ⟨⟨trivial, Or.inl ⟨_, obtained⟩⟩, edge_met (edgeHoles_new 0x4000) _ _⟩
  have run := Trace.cons met (Trace.nil _)
  obtain ⟨launch, last, table, image, _⟩ := (launches_see valid (edge_itself 0x4000) edgeFiles
    blankMemory).2 _ _ run 0 _ _ (edgeKernel_found 0x4000 created) edgeImage rfl (by decide) id
    (fun dump => List.Perm.refl dump) after started (edge_met holes _ _)
  exact ⟨_, after, launch, run, started, last, table, image⟩

end Small

end Espiral.Spinner
