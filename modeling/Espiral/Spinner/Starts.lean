import Espiral.Mm.RetriedFrames
import Espiral.Spinner.Copies

/-!
# Starting a kernel

A start maps what the kernel needs, copies the image through the new mappings,
dumps the table and copies its nodes to the device, and only then starts it. The
two copies go to one memory.
-/

namespace Espiral.Spinner

set_option autoImplicit false

open AddressSpaceManager ByteMemory Contracts MachineWords

/-- The pages a start maps to themselves. -/
def MapsItself (platform : Platform) (localMemSize page : Nat) : Prop :=
  ∃ offset, 4096 ∣ offset ∧
    (offset < wrap32 localMemSize ∧ page = frameOf (wrap32 (platform.LMEM_BASE_ADDR + offset)) ∨
      offset < wrap32 (platform.IO_END_ADDR - platform.IO_BASE_ADDR) ∧
        page = frameOf (wrap32 (platform.IO_BASE_ADDR + offset)))

/-- What a range holds, read through the walk of a table in the same memory. -/
def readThrough (memory : Memory) (top_pgtbl_pa va size : Nat) : List (Option UInt8) :=
  (List.range size).map fun index => (walkRoot memory (va + index) top_pgtbl_pa).map memory

def SeesTable (aspace : AddressSpaceManager) (root : Nat) (launch : Launch) : Prop :=
  launch.top_pgtbl_pa = root ∧
    ∀ va < 2 ^ 32, walkRoot launch.memory va launch.top_pgtbl_pa = aspace.translated root va

def SeesImage (min_vma : Nat) (image : List UInt8) (launch : Launch) : Prop :=
  readThrough launch.memory launch.top_pgtbl_pa min_vma image.length = image.map some

section Mapping

variable {Device : Type} {platform : Platform} {identity : Nat → Prop} {holes : HoleList} {root : Nat}
  {owner : Nat → Option Role}

theorem onAddressSpace_ensures {Value : Type} {action : Action AddressSpaceManager Value}
    {state : Spinner Device} {returns : Value → AddressSpaceManager → Prop}
    {throws : Fault → AddressSpaceManager → Prop}
    (ensures : Ensures action state.aspace_ returns throws) :
    Ensures (onAddressSpace action) state
      (fun value next => returns value next.aspace_ ∧ next = { state with aspace_ := next.aspace_ })
      (fun fault next => throws fault next.aspace_ ∧
        next = { state with aspace_ := next.aspace_ }) := by
  rw [ensures_iff]
  cases ensures_iff.mp ensures with
  | inl returned =>
      obtain ⟨value, aspace, ran, holds⟩ := returned
      exact Or.inl ⟨value, { state with aspace_ := aspace }, onAddressSpace_run ran, holds, rfl⟩
  | inr thrown =>
      obtain ⟨fault, aspace, ran, holds⟩ := thrown
      exact Or.inr ⟨fault, { state with aspace_ := aspace }, by simp only [onAddressSpace, ran],
        holds, rfl⟩

structure Prepared (platform : Platform) (identity : Nat → Prop) (holes : HoleList) (root : Nat)
    (owner : Nat → Option Role) (start state : Spinner Device) : Prop where
  kcbs : state.kcbs_ = start.kcbs_
  device : state.device = start.device
  progress : Progress platform identity holes root owner start.aspace_ state.aspace_

variable {start state : Spinner Device} {kid : Nat} {kcb : KernelControlBlock}
  {accelerator : HostAccelerator Device}

theorem kcbAt_keeps {Value : Type} {continuation : KernelControlBlock → Action (Spinner Device) Value}
    (stored : start.kcbs_[kid]? = some (some kcb))
    (keeps : Keeps (Prepared platform identity holes root owner start) (continuation kcb)) :
    Keeps (Prepared platform identity holes root owner start) (kcbAt kid >>= continuation) := by
  intro state prepared
  have storedNow : state.kcbs_[kid]? = some (some kcb) := by
    rw [prepared.kcbs]
    exact stored
  exact ensures_bind_of_run (kcbAt_run storedNow) (keeps state prepared)

theorem onAddressSpace_keeps {Value : Type} {action : Action AddressSpaceManager Value}
    (keeps : Keeps (Progress platform identity holes root owner start.aspace_) action) :
    Keeps (Prepared platform identity holes root owner start)
      (onAddressSpace action : Action (Spinner Device) Value) := by
  intro state prepared
  have keepsNow : ∀ next : Spinner Device,
      Progress platform identity holes root owner start.aspace_ next.aspace_ ∧
        next = { state with aspace_ := next.aspace_ } →
      Prepared platform identity holes root owner start next := by
    intro next outcome
    obtain ⟨progress, same⟩ := outcome
    exact ⟨(congrArg Spinner.kcbs_ same).trans prepared.kcbs,
      (congrArg Spinner.device same).trans prepared.device, progress⟩
  apply (onAddressSpace_ensures (keeps state.aspace_ prepared.progress)).weaken
  · intro _ next outcome
    exact keepsNow next outcome
  · intro _ next outcome
    exact keepsNow next outcome

theorem mapVxbinSegments_keeps {Invariant : AddressSpaceManager → Prop}
    (ranges : ∀ va size flags, flags &&& PteFlags.R ≠ 0 →
      Keeps Invariant (allocateVmPages va size root flags))
    (page : ∀ va < 2 ^ 32, Keeps Invariant (allocateOneVmPage va root sharedFlags))
    (min_vma max_vma bin_size : Nat) :
    Keeps Invariant (mapVxbinSegments root min_vma max_vma bin_size) := by
  have data : ∀ va size, Keeps Invariant (allocateVmPages va size root dataFlags) :=
    fun va size => ranges va size dataFlags (by decide)
  have last : ∀ addr, Keeps Invariant
      (allocateOneVmPage (pageAlignDown (wrap32 addr)) root sharedFlags) :=
    fun addr => page _ (Nat.and_le_left.trans_lt (wrap32_lt addr))
  rw [mapVxbinSegments]
  simp only
  apply keeps_ite
  · intro _
    apply keeps_ite
    · intro _
      apply (ranges _ _ sharedFlags (by decide)).bind
      intro _
      apply (last _).bind
      intro _
      exact keeps_ite (fun _ => data _ _) (fun _ => keeps_pure _)
    · intro _
      apply (last _).bind
      intro _
      exact keeps_ite (fun _ => data _ _) (fun _ => keeps_pure _)
  · intro _
    apply (ranges _ _ codeFlags (by decide)).bind
    intro _
    exact keeps_ite (fun _ => data _ _) (fun _ => keeps_pure _)

def mapKernel (platform : Platform) (accelerator : HostAccelerator Device) (kid : Nat) :
    Action (Spinner Device) Unit := do
  allocateVxbinSegments kid
  allocateLocalMemory platform accelerator kid
  allocateUserStack platform accelerator kid
  allocateIoPages platform kid

theorem mapKernel_keeps (stored : start.kcbs_[kid]? = some (some kcb))
    (rootIs : kcb.top_pgtbl_pa = root)
    (itself : ∀ page, MapsItself platform ((accelerator.getCaps .localMemSize).getD 0) page →
      identity page) :
    Keeps (Prepared platform identity holes root owner start)
      (mapKernel platform accelerator kid) := by
  rw [mapKernel]
  apply Keeps.bind
  · apply kcbAt_keeps stored
    rw [rootIs]
    apply onAddressSpace_keeps
    apply mapVxbinSegments_keeps
    · intro _ _ _ readable
      exact allocateVmPages_keeps readable
    · intro _ bound
      exact allocateOneVmPage_keeps (by decide) bound
  · intro _
    apply Keeps.bind
    · apply kcbAt_keeps stored
      apply keeps_ite
      · intro _
        exact keeps_pure _
      · intro _
        rw [rootIs]
        apply onAddressSpace_keeps
        apply unsafeMapIdentity_keeps (by decide)
        intro offset inside aligned
        exact itself _ ⟨offset, aligned, Or.inl ⟨inside, rfl⟩⟩
    · intro _
      apply Keeps.bind
      · apply kcbAt_keeps stored
        apply keeps_ite
        · intro _
          exact keeps_throw _
        · intro _
          rw [rootIs]
          exact onAddressSpace_keeps (allocateVmPages_keeps (by decide))
      · intro _
        apply kcbAt_keeps stored
        rw [rootIs]
        apply onAddressSpace_keeps
        apply unsafeMapIdentity_keeps (by decide)
        intro offset inside aligned
        exact itself _ ⟨offset, aligned, Or.inr ⟨inside, rfl⟩⟩

end Mapping

section Copying

variable {state : Spinner FlatDevice} {kid : Nat} {kcb : KernelControlBlock} {caps : Caps → Option Nat}
  {files : Files}

def imageStart (content : List UInt8) : Nat := ofLittleEndian (content.take 8)

def imageBytes (content : List UInt8) : List UInt8 := content.drop (2 * 8)

/-- An image has been copied through the table of a kernel. -/
def Copied (aspace : AddressSpaceManager) (root : Nat) (content : List UInt8)
    (before after : Memory) : Prop :=
  Uploaded (byteAddress aspace root (imageStart content))
      (chunkAccepted (fun _ _ => true) (byteAddress aspace root (imageStart content))
        (imageStart content) (imageBytes content).length)
      (imageBytes content) 0 before after ∧
    ∀ index < (imageBytes content).length,
      (byteAddress aspace root (imageStart content) index).isSome

theorem uploadVxbin_spec (stored : state.kcbs_[kid]? = some (some kcb)) :
    Ensures (uploadVxbin (flatAccelerator caps) files kid) state
      (fun _ next => Transferred state next ∧ ∃ content, files kcb.vxbin_path = some content ∧
        Copied state.aspace_ kcb.top_pgtbl_pa content state.device.memory next.device.memory)
      (fun _ next => Transferred state next) := by
  have nothing : Transferred state state := ⟨rfl, ReadOnly.refl _⟩
  rw [uploadVxbin]
  apply ensures_bind_of_run (kcbAt_run stored)
  rw [readVxbin]
  cases onDisk : files kcb.vxbin_path with
  | none => exact Ensures.bind (ensures_throw nothing)
  | some content =>
      have read : (pure content : Action (Spinner FlatDevice) (List UInt8)) state =
        .ok content state := rfl
      apply ensures_bind_of_run read
      rw [vxbinHeader]
      by_cases short : content.length < 16
      · rw [if_pos short]
        exact Ensures.bind (ensures_throw nothing)
      · rw [if_neg short]
        apply ensures_bind_of_run rfl
        apply (@upload_spec _ _ _ _ (flatAccelerator_backed caps) state kid (imageStart content) kcb
          stored (imageBytes content)).weaken
        · intro _ next outcome
          exact ⟨outcome.1, content, rfl, outcome.2⟩
        · intro _ next outcome
          exact outcome.1

theorem storeNodes_run (data : SparseScratchpad) (state : Spinner FlatDevice) :
    (data.forM fun (pa, content) => accelUpload (flatAccelerator caps) pa content) state = .ok ()
      { state with
        device := { state.device with memory := storeAll state.device.memory data } } := by
  induction data generalizing state with
  | nil => rfl
  | cons node rest ih =>
      have stored : accelUpload (flatAccelerator caps) node.1 node.2 state = .ok ()
        { state with
          device := { state.device with memory := store state.device.memory node.1 node.2 } } := rfl
      exact (bind_ok stored).trans (ih _)

theorem uploadPageTable_spec (stored : state.kcbs_[kid]? = some (some kcb))
    (shaped : Shaped state.aspace_.view kcb.top_pgtbl_pa)
    {order : SparseScratchpad → SparseScratchpad} (permutes : ∀ dump, (order dump).Perm dump) :
    Ensures (uploadPageTable (flatAccelerator caps) order kid) state
      (fun _ next => next.kcbs_ = state.kcbs_ ∧ SameView state.aspace_ next.aspace_ ∧
        ∃ dump, Dumped state.aspace_.view kcb.top_pgtbl_pa dump ∧
          next.device.memory = storeAll state.device.memory dump)
      (fun _ _ => False) := by
  rw [uploadPageTable]
  apply ensures_bind_of_run (kcbAt_run stored)
  apply Ensures.bind
  apply (onAddressSpace_ensures (dumpPageTable_spec shaped)).weaken
  · intro dump read outcome
    obtain ⟨⟨dumped, same⟩, readIs⟩ := outcome
    have kcbs : read.kcbs_ = state.kcbs_ := by rw [readIs]
    have device : read.device = state.device := by rw [readIs]
    have storedNow : read.kcbs_[kid]? = some (some kcb) := by
      rw [kcbs]
      exact stored
    rw [uploadSparseScratchpad]
    apply ensures_bind_of_run (kcbAt_run storedNow)
    apply ensures_of_run (storeNodes_run (order dump) read)
    exact ⟨kcbs, same, order dump, dumped.perm (permutes dump), by rw [device]⟩
  · intro _ _ impossible
    exact impossible.1

end Copying

/-- The mappings are read for the log only. -/
def listMapping {Device : Type} (kid : Nat) : Action (Spinner Device) Unit := do
  let kcb ← kcbAt kid
  let _ ← onAddressSpace (AddressSpaceManager.dumpAddressMapping kcb.top_pgtbl_pa)
  pure ()

theorem listMapping_reads {Device : Type} {state : Spinner Device} {kid : Nat}
    {kcb : KernelControlBlock} (stored : state.kcbs_[kid]? = some (some kcb))
    (shaped : Shaped state.aspace_.view kcb.top_pgtbl_pa) :
    Ensures (listMapping kid) state
      (fun _ next => SameView state.aspace_ next.aspace_ ∧
        next = { state with aspace_ := next.aspace_ })
      (fun _ _ => False) := by
  rw [listMapping]
  apply ensures_bind_of_run (kcbAt_run stored)
  apply Ensures.bind
  apply (onAddressSpace_ensures (dumpAddressMapping_reads shaped)).weaken
  · intro _ next outcome
    exact ensures_pure outcome
  · intro _ _ impossible
    exact impossible.1

section Launching

variable {platform : Platform} {holes : HoleList} {owner : Nat → Option Role} {caps : Caps → Option Nat}
  {files : Files} {state : Spinner FlatDevice} {kid : Nat} {kcb : KernelControlBlock}

/-- The memory at a launch: the image has been copied, and after it the table. -/
def Launched (files : Files) (kcb : KernelControlBlock) (aspace : AddressSpaceManager)
    (before : Memory) (launch : Launch) : Prop :=
  launch.top_pgtbl_pa = kcb.top_pgtbl_pa ∧ ∃ content uploaded dump,
    files kcb.vxbin_path = some content ∧
      Copied aspace kcb.top_pgtbl_pa content before uploaded ∧
      Dumped aspace.view kcb.top_pgtbl_pa dump ∧ launch.memory = storeAll uploaded dump

theorem startKernel_phases (platform : Platform) (accelerator : HostAccelerator FlatDevice)
    (order : SparseScratchpad → SparseScratchpad) (files : Files) (kid : Nat) :
    startKernel platform accelerator order files kid = (do
      mapKernel platform accelerator kid
      uploadVxbin accelerator files kid
      uploadPageTable accelerator order kid
      listMapping kid
      accelStart accelerator kid) := by
  simp only [startKernel, mapKernel, listMapping, bind_assoc, pure_bind]

theorem accelStart_run (stored : state.kcbs_[kid]? = some (some kcb)) :
    accelStart (flatAccelerator caps) kid state = .ok () { state with
      device := ((flatAccelerator caps).start kcb.start_pc_va kcb.args_va kcb.top_pgtbl_pa
        state.device).2 } := by
  unfold accelStart
  exact bind_ok (kcbAt_run stored)

/-- A start maps pages for its kernel, and if it returns the device has been started last. -/
theorem startKernel_spec (reached : Reached platform (MayMapItself platform holes) holes state.aspace_)
    (owned : WellOwned platform (MayMapItself platform holes) owner state.aspace_)
    (stored : state.kcbs_[kid]? = some (some kcb)) (isLive : state.aspace_.Live kcb.top_pgtbl_pa)
    (itself : ∀ page, MapsItself platform ((caps .localMemSize).getD 0) page →
      MayMapItself platform holes page)
    {order : SparseScratchpad → SparseScratchpad} (permutes : ∀ dump, (order dump).Perm dump) :
    Ensures (startKernel platform (flatAccelerator caps) order files kid) state
      (fun _ next => next.kcbs_ = state.kcbs_ ∧
        Progress platform (MayMapItself platform holes) holes kcb.top_pgtbl_pa owner state.aspace_
          next.aspace_ ∧
        ∃ launch, next.device.launches.head? = some launch ∧
          Launched files kcb next.aspace_ state.device.memory launch)
      (fun _ next => next.kcbs_ = state.kcbs_ ∧
        Progress platform (MayMapItself platform holes) holes kcb.top_pgtbl_pa owner state.aspace_
          next.aspace_) := by
  have start : Prepared platform (MayMapItself platform holes) holes kcb.top_pgtbl_pa owner state
      state := ⟨rfl, rfl, reached.progress owned isLive⟩
  rw [startKernel_phases]
  apply Ensures.bind
  apply (mapKernel_keeps stored rfl itself state start).weaken
  · intro _ mapped prepared
    have storedMapped : mapped.kcbs_[kid]? = some (some kcb) := by
      rw [prepared.kcbs]
      exact stored
    apply Ensures.bind
    apply (uploadVxbin_spec storedMapped).weaken
    · intro _ uploaded outcome
      obtain ⟨transferred, content, onDisk, copied⟩ := outcome
      have kcbs := transferred.kcbs.trans prepared.kcbs
      have progress := prepared.progress.of_sameView transferred.aspace.sameView
      obtain ⟨later, laterOwned, _⟩ := progress.owned
      have storedUploaded : uploaded.kcbs_[kid]? = some (some kcb) := by
        rw [kcbs]
        exact stored
      apply Ensures.bind
      apply (uploadPageTable_spec storedUploaded (laterOwned.shaped progress.isLive)
        permutes).weaken
      · intro _ dumped outcome
        obtain ⟨sameKcbs, sameDumped, dump, nodes, memory⟩ := outcome
        have storedDumped : dumped.kcbs_[kid]? = some (some kcb) := by
          rw [sameKcbs]
          exact storedUploaded
        have shaped := laterOwned.shaped progress.isLive
        rw [← sameDumped.view] at shaped
        apply Ensures.bind
        apply (listMapping_reads storedDumped shaped).weaken
        · intro _ listed outcome
          obtain ⟨sameListed, listedIs⟩ := outcome
          have sameView := sameDumped.trans sameListed
          have listedKcbs : listed.kcbs_ = dumped.kcbs_ := by rw [listedIs]
          have listedDevice : listed.device = dumped.device := by rw [listedIs]
          have storedListed : listed.kcbs_[kid]? = some (some kcb) := by
            rw [listedKcbs]
            exact storedDumped
          apply ensures_of_run (accelStart_run storedListed)
          refine ⟨(listedKcbs.trans sameKcbs).trans kcbs, progress.of_sameView sameView, _, rfl, rfl,
            content, uploaded.device.memory, dump, onDisk, ?_, ?_, ?_⟩
          · have aligned : 4 ∣ kcb.top_pgtbl_pa :=
              (by decide : 4 ∣ 4096).trans (laterOwned.root_aligned progress.isLive)
            have same : byteAddress listed.aspace_ kcb.top_pgtbl_pa (imageStart content) =
                byteAddress mapped.aspace_ kcb.top_pgtbl_pa (imageStart content) := by
              funext index
              rw [byteAddress, byteAddress, translated_view _ aligned, translated_view _ aligned,
                sameView.view, transferred.aspace.sameView.view]
            rw [Copied, same, ← prepared.device]
            exact copied
          · rw [sameView.view]
            exact nodes
          · rw [listedDevice]
            exact memory
        · intro _ _ impossible
          exact impossible.elim
      · intro _ _ impossible
        exact impossible.elim
    · intro _ next transferred
      exact ⟨transferred.kcbs.trans prepared.kcbs,
        prepared.progress.of_sameView transferred.aspace.sameView⟩
  · intro _ next prepared
    exact ⟨prepared.kcbs, prepared.progress⟩

theorem startKernel_returns {mapped : Spinner FlatDevice} {identity : Nat → Prop}
    {content : List UInt8} (stored : mapped.kcbs_[kid]? = some (some kcb))
    (ran : mapKernel platform (flatAccelerator caps) kid state = .ok () mapped)
    (owned : WellOwned platform identity owner mapped.aspace_)
    (isLive : mapped.aspace_.Live kcb.top_pgtbl_pa)
    (onDisk : files kcb.vxbin_path = some content) (whole : 16 ≤ content.length)
    (bytes : ∀ index < (imageBytes content).length,
      (byteAddress mapped.aspace_ kcb.top_pgtbl_pa (imageStart content) index).isSome)
    {order : SparseScratchpad → SparseScratchpad} (permutes : ∀ dump, (order dump).Perm dump) :
    ∃ after, startKernel platform (flatAccelerator caps) order files kid state = .ok () after ∧
      SameView mapped.aspace_ after.aspace_ := by
  obtain ⟨copied, ranCopy, transferred, _⟩ :=
    upload_returns (flatAccelerator_backed caps) stored (imageBytes content) bytes
  have ranUpload : uploadVxbin (flatAccelerator caps) files kid mapped = .ok () copied := by
    rw [uploadVxbin, bind_ok (kcbAt_run stored), bind_ok (readVxbin_run onDisk),
      bind_ok (vxbinHeader_run whole)]
    exact ranCopy
  have sameView := transferred.aspace.sameView
  have storedCopied : copied.kcbs_[kid]? = some (some kcb) := by
    rw [transferred.kcbs]
    exact stored
  have shaped := owned.shaped isLive
  rw [← sameView.view] at shaped
  cases ensures_iff.mp (@uploadPageTable_spec copied kid kcb caps storedCopied shaped order
    permutes) with
  | inl returned =>
      obtain ⟨_, dumped, ranDump, sameKcbs, sameDumped, _⟩ := returned
      have storedDumped : dumped.kcbs_[kid]? = some (some kcb) := by
        rw [sameKcbs]
        exact storedCopied
      have shapedDumped := shaped
      rw [← sameDumped.view] at shapedDumped
      cases ensures_iff.mp (listMapping_reads storedDumped shapedDumped) with
      | inl listedOutcome =>
          obtain ⟨_, listed, ranList, sameListed, listedIs⟩ := listedOutcome
          have storedListed : listed.kcbs_[kid]? = some (some kcb) := by
            rw [listedIs]
            exact storedDumped
          have finished : startKernel platform (flatAccelerator caps) order files kid state =
              .ok () { listed with
                device := ((flatAccelerator caps).start kcb.start_pc_va kcb.args_va
                  kcb.top_pgtbl_pa listed.device).2 } := by
            rw [startKernel_phases, bind_ok ran, bind_ok ranUpload, bind_ok ranDump, bind_ok ranList,
              accelStart_run storedListed]
          exact ⟨_, finished, (sameView.trans sameDumped).trans sameListed⟩
      | inr thrown =>
          obtain ⟨_, _, _, impossible⟩ := thrown
          exact impossible.elim
  | inr thrown =>
      obtain ⟨_, _, _, impossible⟩ := thrown
      exact impossible.elim

/-- The walk of the device is that of the host, whatever is in the other frames. -/
theorem Launched.seesTable {aspace : AddressSpaceManager} {before : Memory} {launch : Launch}
    {identity : Nat → Prop} (launched : Launched files kcb aspace before launch)
    (owned : WellOwned platform identity owner aspace) (isLive : aspace.Live kcb.top_pgtbl_pa) :
    SeesTable aspace kcb.top_pgtbl_pa launch := by
  obtain ⟨root, content, uploaded, dump, onDisk, copied, dumped, memory⟩ := launched
  have aligned : 4 ∣ kcb.top_pgtbl_pa := (by decide : 4 ∣ 4096).trans (owned.root_aligned isLive)
  refine ⟨root, ?_⟩
  intro va bound
  rw [root, memory, translated_view _ aligned]
  exact dumped.walkRoot uploaded (owned.shaped isLive) bound

/-- Where no frame with a role is reported as a hole, the table is copied next to the image. -/
theorem Launched.seesImage {aspace : AddressSpaceManager} {before : Memory} {launch : Launch}
    (launched : Launched files kcb aspace before launch)
    (owned : WellOwned platform (MayMapItself platform holes) owner aspace)
    (unreported : Unreported holes owner) (isLive : aspace.Live kcb.top_pgtbl_pa)
    {content : List UInt8} (onDisk : files kcb.vxbin_path = some content)
    (narrow : imageStart content + (imageBytes content).length ≤ 2 ^ 32) :
    SeesImage (imageStart content) (imageBytes content) launch := by
  have sees := launched.seesTable owned isLive
  obtain ⟨root, other, uploaded, dump, again, ⟨copied, mapped⟩, dumped, memory⟩ := launched
  rw [onDisk, Option.some.injEq] at again
  subst again
  have addresses : ∀ index < (imageBytes content).length,
      byteAddress aspace kcb.top_pgtbl_pa (imageStart content) index =
        aspace.translated kcb.top_pgtbl_pa (imageStart content + index) :=
    fun index inside => byteAddress_narrow narrow inside
  have apart : ∀ first < (imageBytes content).length, ∀ second < (imageBytes content).length,
      byteAddress aspace kcb.top_pgtbl_pa (imageStart content) first =
        byteAddress aspace kcb.top_pgtbl_pa (imageStart content) second → first = second := by
    intro first firstInside second secondInside same
    obtain ⟨pa, found⟩ := Option.isSome_iff_exists.mp (mapped first firstInside)
    have other := same.symm.trans found
    rw [addresses first firstInside] at found
    rw [addresses second secondInside] at other
    have equal := owned.translated_apart unreported isLive (by omega) (by omega) found other
    omega
  apply List.ext_getElem?
  intro index
  by_cases inside : index < (imageBytes content).length
  · obtain ⟨pa, found⟩ := Option.isSome_iff_exists.mp (mapped index inside)
    have arrived := copied.arrives apart inside found (chunkAccepted_flat mapped index inside)
    rw [addresses index inside] at found
    have outside := dumped.stored_outside uploaded fun node isNode =>
      owned.translated_outside unreported isLive (by omega) found isNode
    rw [readThrough, List.getElem?_map, List.getElem?_range inside, Option.map_some,
      sees.2 _ (by omega), found, Option.map_some, memory, outside, arrived, List.getElem?_map,
      List.getElem?_eq_getElem inside, Option.map_some]
  · rw [readThrough, List.getElem?_eq_none (by simpa using inside),
      List.getElem?_eq_none (by simpa using inside)]

end Launching

end Espiral.Spinner
