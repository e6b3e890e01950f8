import Espiral.Spinner.DeviceRuns

/-!
# Bytes that are written

Every kernel has a memory of its own, addressed by its virtual addresses. A byte
of it that is in no page mapped to itself changes when something is written
through its address for this kernel, and at no other moment: what was uploaded
last is what a download finds, however much has been done in between.
-/

namespace Espiral.Spinner

set_option autoImplicit false

open AddressSpaceManager ByteMemory Contracts MachineWords Traces

/-- The address is translated to a byte of a page that may not be mapped to itself. -/
structure PrivateAt (platform : Platform) (holes : HoleList) (aspace : AddressSpaceManager)
    (root va pa : Nat) : Prop where
  bound : va < 2 ^ 32
  found : aspace.translated root va = some pa
  apart : ¬MayMapItself platform holes (frameOf pa)

section Bytes

variable {platform : Platform} {holes : HoleList} {owner : Nat → Option Role}
  {aspace next : AddressSpaceManager} {root va other pa : Nat}

theorem PrivateAt.owned (mine : PrivateAt platform holes aspace root va pa)
    (owned : WellOwned platform (MayMapItself platform holes) owner aspace)
    (isLive : aspace.Live root) :
    pa % 4096 = va % 4096 ∧ owner (frameOf pa) = some (.leaf root (va / 4096)) := by
  obtain ⟨offset, whose⟩ := owned.translated_owner isLive mine.bound mine.found
  cases whose with
  | inl leaf => exact ⟨offset, leaf⟩
  | inr itself => exact absurd itself.1 mine.apart

theorem PrivateAt.unique (mine : PrivateAt platform holes aspace root va pa)
    (owned : WellOwned platform (MayMapItself platform holes) owner aspace)
    (isLive : aspace.Live root) (bound : other < 2 ^ 32)
    (found : aspace.translated root other = some pa) : other = va := by
  obtain ⟨offset, leaf⟩ := mine.owned owned isLive
  have otherMine : PrivateAt platform holes aspace root other pa := ⟨bound, found, mine.apart⟩
  obtain ⟨otherOffset, otherLeaf⟩ := otherMine.owned owned isLive
  rw [leaf, Option.some.injEq, Role.leaf.injEq] at otherLeaf
  omega

/-- Such a byte is written through its own address only, and it is in no node. -/
theorem PrivateAt.meant {writes : Nat → Prop} {nodes : Bool}
    (mine : PrivateAt platform holes aspace root va pa)
    (owned : WellOwned platform (MayMapItself platform holes) owner aspace)
    (isLive : aspace.Live root) (written : Written aspace root writes nodes pa) : writes va := by
  cases written with
  | byte bound meant found =>
      rw [← mine.unique owned isLive bound found]
      exact meant
  | node _ node _ =>
      have role := owned.owns_node node
      rw [(mine.owned owned isLive).2, Option.some.injEq] at role
      exact absurd role.symm (node_not_leaf node root (va / 4096))

theorem PrivateAt.held (mine : PrivateAt platform holes aspace root va pa) :
    Held platform holes aspace root pa := ⟨.page mine.bound mine.found rfl, mine.apart⟩

end Bytes

section Steps

variable {platform : Platform} {holes : HoleList} {files : Files} {table : Nat → Nat}
  {writes : Nat → Prop} {nodes : Bool} {state next : Spinner FlatDevice} {call : SpinnerCall}
  {kid root va pa : Nat} {kcb : KernelControlBlock} {heap : HeapManager}

structure ByteStays (platform : Platform) (holes : HoleList) (root va pa : Nat)
    (state next : Spinner FlatDevice) : Prop where
  mine : PrivateAt platform holes next.aspace_ root va pa
  same : next.device.memory pa = state.device.memory pa

theorem Served.byteStays (served : Served platform holes kid root writes nodes state next)
    (reached : Reached platform (MayMapItself platform holes) holes state.aspace_)
    (isLive : state.aspace_.Live root) (mine : PrivateAt platform holes state.aspace_ root va pa)
    (untouched : ¬writes va) : ByteStays platform holes root va pa state next := by
  obtain ⟨later, owned⟩ := served.owns.reached.owned
  have still : PrivateAt platform holes next.aspace_ root va pa :=
    ⟨mine.bound, served.work.translated reached isLive mine.bound mine.found, mine.apart⟩
  refine ⟨still, ?_⟩
  by_contra changed
  exact untouched (still.meant owned served.owns.isLive (served.bytes pa changed))

theorem Spared.byteStays (spared : Spared platform holes kid root state next)
    (mine : PrivateAt platform holes state.aspace_ root va pa) :
    ByteStays platform holes root va pa state next :=
  ⟨⟨mine.bound, (spared.translated va mine.bound).trans mine.found, mine.apart⟩,
    spared.bytes pa mine.held⟩

theorem Serving.stays {other : Nat} {otherKcb : KernelControlBlock} {otherHeap : HeapManager}
    (serving : Serving platform holes files state)
    (otherFound : HasHeap state.kcbs_ other otherKcb otherHeap)
    (served : Served platform holes other otherKcb.top_pgtbl_pa writes nodes state next)
    (has : HasTable state.kcbs_ kid root) :
    HasTable next.kcbs_ kid root ∧ ∀ va pa, (other = kid → ¬writes va) →
      PrivateAt platform holes state.aspace_ root va pa →
      ByteStays platform holes root va pa state next := by
  obtain ⟨kcb, heap, found, rootIs⟩ := has
  have isLive := (serving.kernels.rooted _ _ _ found).2
  by_cases same : other = kid
  · rw [same] at otherFound served
    rw [(otherFound.unique found).1, rootIs] at served
    rw [rootIs] at isLive
    obtain ⟨block, blockHeap, blockFound, blockRoot, _⟩ := served.owns.found
    exact ⟨⟨block, blockHeap, blockFound, blockRoot⟩, fun va pa untouched mine =>
      served.byteStays serving.kernels.reached isLive mine (untouched same)⟩
  · have spared := served.spares serving.kernels isLive (Ne.symm same) fun roots =>
      same (serving.kernels.apart _ _ _ _ _ _ otherFound found roots.symm)
    rw [rootIs] at spared
    exact ⟨⟨kcb, heap, ⟨spared.slot.trans found.stored, found.has⟩, rootIs⟩,
      fun _ _ _ mine => spared.byteStays mine⟩

/-- One call, returning or not: a byte stays unless the call is to write to its address. -/
theorem Done.byteStays (done : Done platform holes files state call next)
    (serving : Serving platform holes files state)
    (tabled : Tabled table state.kcbs_ state.aspace_) (has : HasTable state.kcbs_ kid root)
    (kept : call ≠ .freeKernel kid) :
    HasTable next.kcbs_ kid root ∧ ∀ va pa,
      (call.kernel = some kid → ¬call.writes files state.kcbs_ va) →
      PrivateAt platform holes state.aspace_ root va pa →
      ByteStays platform holes root va pa state next := by
  have still := (done.keepsTable serving tabled has kept).1
  have spares : call.kernel ≠ some kid → HasTable next.kcbs_ kid root ∧ ∀ va pa,
      (call.kernel = some kid → ¬call.writes files state.kcbs_ va) →
      PrivateAt platform holes state.aspace_ root va pa →
      ByteStays platform holes root va pa state next := by
    intro other
    obtain ⟨kcb, heap, found, rootIs⟩ := has
    have spared := done.spares serving tabled found other
    rw [rootIs] at spared
    exact ⟨still, fun _ _ _ mine => spared.byteStays mine⟩
  cases done with
  | refused _ => exact spares fun here => by cases here
  | abandoned _ => exact spares fun here => by cases here
  | stored _ _ _ => exact spares fun here => by cases here
  | freed _ _ =>
      refine spares fun here => ?_
      rw [SpinnerCall.kernel, Option.some.injEq] at here
      exact absurd (congrArg SpinnerCall.freeKernel here) kept
  | served kernel _ otherFound served =>
      obtain ⟨table, bytes⟩ := serving.stays otherFound served has
      exact ⟨table, fun va pa untouched mine =>
        bytes va pa (fun same => untouched (kernel.trans (congrArg some same))) mine⟩

end Steps

/-- A call that neither frees a kernel nor is to write to a range of its addresses. -/
def Avoids (files : Files) (kid va size : Nat) (state : Spinner FlatDevice) (call : SpinnerCall) :
    Prop :=
  call ≠ .freeKernel kid ∧ (call.kernel = some kid →
    ∀ addr, va ≤ addr → addr < va + size → ¬call.writes files state.kcbs_ addr)

section Runs

variable {platform : Platform} {holes : HoleList} {caps : Caps → Option Nat} {files : Files}
  {state last : Spinner FlatDevice} {calls : List SpinnerCall} {kid root va size : Nat}
  (itself : ∀ page, MapsItself platform ((caps .localMemSize).getD 0) page →
    MayMapItself platform holes page)

include itself

theorem run_byteStays (settled : Settled platform holes files state)
    (run : Trace (fun state call next => CallStep platform caps files state call next ∧
      Avoids files kid va size state call) state calls last)
    (has : HasTable state.kcbs_ kid root) :
    HasTable last.kcbs_ kid root ∧ ∀ addr pa, va ≤ addr → addr < va + size →
      PrivateAt platform holes state.aspace_ root addr pa →
      ByteStays platform holes root addr pa state last := by
  induction run with
  | nil state => exact ⟨has, fun _ _ _ _ mine => ⟨mine, rfl⟩⟩
  | @cons first second third call calls head tail ih =>
      obtain ⟨step, kept, away⟩ := head
      obtain ⟨table, tabled⟩ := settled.tabled
      obtain ⟨still, bytes⟩ := (step.done settled.serving itself).byteStays settled.serving tabled
        has kept
      obtain ⟨atLast, later⟩ := ih (settled.step itself step) still
      refine ⟨atLast, fun addr pa low high mine => ?_⟩
      have now := bytes addr pa (fun here => away here addr low high) mine
      have rest := later addr pa low high now.mine
      exact ⟨rest.mine, rest.same.trans now.same⟩

end Runs

section Ranges

variable {platform : Platform} {holes : HoleList} {caps : Caps → Option Nat}
  {owner : Nat → Option Role} {state after last : Spinner FlatDevice}
  {kid va : Nat} {kcb block : KernelControlBlock} {content : List UInt8}

def PrivateRange (platform : Platform) (holes : HoleList) (aspace : AddressSpaceManager)
    (root va size : Nat) : Prop :=
  ∀ index < size, ∃ pa, PrivateAt platform holes aspace root (va + index) pa

theorem PrivateRange.mappedApart {aspace : AddressSpaceManager} {root size : Nat}
    (range : PrivateRange platform holes aspace root va size)
    (owned : WellOwned platform (MayMapItself platform holes) owner aspace)
    (isLive : aspace.Live root) : MappedApart aspace root va size where
  mapped addr low high := by
    obtain ⟨pa, mine⟩ := range (addr - va) (by omega)
    rw [show va + (addr - va) = addr by omega] at mine
    rw [mine.found]
    rfl
  apart first second firstLow firstHigh secondLow secondHigh same := by
    obtain ⟨pa, mine⟩ := range (first - va) (by omega)
    obtain ⟨otherPa, otherMine⟩ := range (second - va) (by omega)
    rw [show va + (first - va) = first by omega] at mine
    rw [show va + (second - va) = second by omega] at otherMine
    have there := same.symm.trans mine.found
    exact (mine.unique owned isLive otherMine.bound there).symm

theorem download_finds (narrow : va + content.length ≤ 2 ^ 32)
    (stored : last.kcbs_[kid]? = some (some block))
    (bytes : ∀ index < content.length, ∃ pa,
      last.aspace_.translated block.top_pgtbl_pa (va + index) = some pa ∧
        content[index]? = some (last.device.memory pa))
    (dest : List UInt8) (sizeIs : dest.length = content.length) :
    ∃ next, download (flatAccelerator caps) kid va dest last = .ok content next := by
  obtain ⟨next, ran, _⟩ := download_copies caps stored narrow (by
    intro addr low high
    obtain ⟨pa, found, _⟩ := bytes (addr - va) (by omega)
    rw [show va + (addr - va) = addr by omega] at found
    rw [found]
    rfl) sizeIs
  refine ⟨next, ?_⟩
  rw [ran]
  congr 1
  apply List.ext_getElem?
  intro index
  by_cases inside : index < content.length
  · obtain ⟨pa, found, byte⟩ := bytes index inside
    rw [bytesOf_getElem? inside found, byte]
  · rw [List.getElem?_eq_none (by rw [bytesOf_length]; omega), List.getElem?_eq_none (by omega)]

theorem upload_private (caps : Caps → Option Nat)
    (owned : WellOwned platform (MayMapItself platform holes) owner state.aspace_)
    (isLive : state.aspace_.Live kcb.top_pgtbl_pa) (stored : state.kcbs_[kid]? = some (some kcb))
    (narrow : va + content.length ≤ 2 ^ 32)
    (range : PrivateRange platform holes state.aspace_ kcb.top_pgtbl_pa va content.length)
    (uploaded : upload (flatAccelerator caps) kid va content state = .ok () after) :
    after.kcbs_ = state.kcbs_ ∧ ∀ index < content.length, ∃ pa,
      PrivateAt platform holes after.aspace_ kcb.top_pgtbl_pa (va + index) pa ∧
        content[index]? = some (after.device.memory pa) := by
  obtain ⟨next, ran, transferred, written⟩ :=
    upload_copies caps stored narrow (range.mappedApart owned isLive)
  rw [uploaded] at ran
  cases ran
  refine ⟨transferred.kcbs, fun index inside => ?_⟩
  obtain ⟨pa, mine⟩ := range index inside
  refine ⟨pa, ⟨mine.bound, (translated_bytes transferred.aspace.bytes _ _).trans mine.found,
    mine.apart⟩, ?_⟩
  rw [List.getElem?_eq_getElem inside, written.1 index inside pa mine.found]

end Ranges

theorem upload_exists {platform : Platform} {holes : HoleList} (caps : Caps → Option Nat)
    {files : Files} {state : Spinner FlatDevice} {kid va : Nat} {kcb : KernelControlBlock}
    {heap : HeapManager} {content : List UInt8} (serving : Serving platform holes files state)
    (found : HasHeap state.kcbs_ kid kcb heap) (narrow : va + content.length ≤ 2 ^ 32)
    (range : PrivateRange platform holes state.aspace_ kcb.top_pgtbl_pa va content.length) :
    ∃ after, upload (flatAccelerator caps) kid va content state = .ok () after ∧
      after.kcbs_ = state.kcbs_ := by
  obtain ⟨owner, owned⟩ := serving.kernels.reached.owned
  obtain ⟨after, ran, transferred, _⟩ := upload_copies caps found.stored narrow
    (range.mappedApart owned (serving.kernels.rooted _ _ _ found).2)
  exact ⟨after, ran, transferred.kcbs⟩

/-- A kernel's memory is a memory. In any state of any run, an upload to addresses of its own pages
has returned; whatever calls are made then for any kernels, starts and calls that throw included,
as long as none of them frees this kernel or is to write to one of these addresses for it: a
download returns what was uploaded. -/
theorem last_upload_found {platform : Platform} (valid : platform.Valid)
    {caps : Caps → Option Nat}
    (itself : ∀ page, MapsItself platform ((caps .localMemSize).getD 0) page →
      MayMapItself platform
        (AddressSpaceManager.new platform ((caps .localMemSize).getD 0)).hole_list_ page)
    (files : Files) (device : FlatDevice) {before calls : List SpinnerCall}
    {state after last : Spinner FlatDevice}
    (setup : Trace (CallStep platform caps files)
      (Spinner.new platform (flatAccelerator caps) device) before state) {kid va : Nat}
    {kcb : KernelControlBlock} {heap : HeapManager} (found : HasHeap state.kcbs_ kid kcb heap)
    {content : List UInt8} (narrow : va + content.length ≤ 2 ^ 32)
    (range : PrivateRange platform (AddressSpaceManager.new platform
      ((caps .localMemSize).getD 0)).hole_list_ state.aspace_ kcb.top_pgtbl_pa va content.length)
    (uploaded : upload (flatAccelerator caps) kid va content state = .ok () after)
    (run : Trace (fun state call next => CallStep platform caps files state call next ∧
      Avoids files kid va content.length state call) after calls last) :
    ∀ dest : List UInt8, dest.length = content.length →
      ∃ next, download (flatAccelerator caps) kid va dest last = .ok content next := by
  have settled := run_settled valid itself setup
  obtain ⟨owner, owned⟩ := settled.serving.kernels.reached.owned
  have isLive := (settled.serving.kernels.rooted _ _ _ found).2
  have step : CallStep platform caps files state (.upload kid va content) after :=
    ⟨⟨kcb, heap, found⟩, Or.inl ⟨(), uploaded⟩⟩
  obtain ⟨kcbs, bytes⟩ := upload_private caps owned isLive found.stored narrow range uploaded
  have has : HasTable after.kcbs_ kid kcb.top_pgtbl_pa :=
    ⟨kcb, heap, ⟨kcbs ▸ found.stored, found.has⟩, rfl⟩
  obtain ⟨⟨block, blockHeap, blockFound, rootIs⟩, stays⟩ :=
    run_byteStays itself (settled.step itself step) run has
  apply download_finds narrow blockFound.stored
  intro index inside
  obtain ⟨pa, mine, byte⟩ := bytes index inside
  have still := stays _ pa (by omega) (by omega) mine
  rw [← still.same] at byte
  exact ⟨pa, rootIs ▸ still.mine.found, byte⟩

/-- Three bytes of a heap, an upload next to them, and another kernel. -/
theorem last_upload_found_three : ∃ (after last next : Spinner FlatDevice),
    Trace (fun state call next =>
        CallStep smallPlatform (fun _ => none) (fun _ => some emptyImage) state call next ∧
          Avoids (fun _ => some emptyImage) 0 0x10000 3 state call) after
        [.upload 0 0x10008 [9], .allocateKernel "other"] last ∧
      download (flatAccelerator fun _ => none) 0 0x10000 [0, 0, 0] last = .ok [1, 2, 3] next := by
  obtain ⟨state, kcb, heap, setup, found, mapped⟩ := smallPlatform_heapKernel
  have range : PrivateRange smallPlatform (AddressSpaceManager.new smallPlatform 0).hole_list_
      state.aspace_ kcb.top_pgtbl_pa 0x10000 3 := by
    intro index inside
    obtain ⟨pa, translated, apart⟩ := mapped index (by omega)
    exact ⟨pa, by omega, translated, apart⟩
  have settled := @run_settled smallPlatform (fun _ => none) (fun _ => some emptyImage) state
    smallPlatform_valid smallDevice _ smallPlatform_itself setup
  obtain ⟨after, uploaded, kcbs⟩ := @upload_exists _ _ (fun _ => none) _ _ 0 0x10000 kcb heap [1, 2, 3]
    settled.serving found (by decide) range
  have finished : Finished after.kcbs_ 0 := ⟨kcb, heap, kcbs ▸ found.stored, found.has⟩
  obtain ⟨second, stepSecond⟩ := @callStep_exists smallPlatform (fun _ => none)
    (fun _ => some emptyImage) after (.upload 0 0x10008 [9]) finished
  obtain ⟨last, stepLast⟩ := @callStep_exists smallPlatform (fun _ => none)
    (fun _ => some emptyImage) second (.allocateKernel "other") trivial
  have away : Avoids (fun _ => some emptyImage) 0 0x10000 3 after (.upload 0 0x10008 [9]) := by
    refine ⟨SpinnerCall.noConfusion, fun _ addr _ high => ?_⟩
    rintro ⟨index, inside, addrIs⟩
    rw [addrIs, wrap32_of_lt (by simp only [List.length_singleton] at inside; omega)] at high
    omega
  have run : Trace (fun state call next =>
      CallStep smallPlatform (fun _ => none) (fun _ => some emptyImage) state call next ∧
        Avoids (fun _ => some emptyImage) 0 0x10000 3 state call) after
      [.upload 0 0x10008 [9], .allocateKernel "other"] last :=
    Trace.cons ⟨stepSecond, away⟩ (Trace.cons ⟨stepLast, SpinnerCall.noConfusion,
      fun impossible => by cases impossible⟩ (Trace.nil last))
  obtain ⟨next, ran⟩ := @last_upload_found smallPlatform smallPlatform_valid (fun _ => none)
    smallPlatform_itself (fun _ => some emptyImage) smallDevice _ _ state after last setup 0 0x10000
    kcb heap found [1, 2, 3] (by decide) range uploaded run [0, 0, 0] rfl
  exact ⟨after, last, next, run, ran⟩

namespace Machine

/-- The host does not free the kernel, and neither the host for this kernel nor the kernel itself
writes to a range of its addresses. -/
def Avoids (files : Files) (kid va size : Nat) (machine : Machine) : MachineEvent → Prop
  | .call call => Spinner.Avoids files kid va size machine.spinner call
  | .prepare other order => Spinner.Avoids files kid va size machine.spinner (.startKernel other order)
  | .launch => True
  | .write addr _ => (∃ launch, machine.running = some (kid, launch)) → addr < va ∨ va + size ≤ addr
  | .finish => True

end Machine

section DeviceSteps

variable {platform : Platform} {holes : HoleList} {caps : Caps → Option Nat} {files : Files}
  {machine last : Machine} {event : MachineEvent} {events : List MachineEvent}
  {kid root va size : Nat}
  (itself : ∀ page, MapsItself platform ((caps .localMemSize).getD 0) page →
    MayMapItself platform holes page)

include itself

theorem Confined.stays (confined : Confined platform holes files machine)
    (step : Machine.Step platform caps files machine event last)
    (has : HasTable machine.spinner.kcbs_ kid root)
    (avoids : machine.Avoids files kid va size event) :
    HasTable last.spinner.kcbs_ kid root ∧ ∀ addr pa, va ≤ addr → addr < va + size →
      PrivateAt platform holes machine.spinner.aspace_ root addr pa →
      ByteStays platform holes root addr pa machine.spinner last.spinner := by
  have serving := confined.settled.serving
  obtain ⟨table, tabled⟩ := confined.settled.tabled
  have prepares : ∀ {other : Nat} {otherKcb : KernelControlBlock} {otherHeap : HeapManager}
      {order : SparseScratchpad → SparseScratchpad} {next : Spinner FlatDevice},
      Spinner.Avoids files kid va size machine.spinner (.startKernel other order) →
      HasHeap machine.spinner.kcbs_ other otherKcb otherHeap →
      Served platform holes other otherKcb.top_pgtbl_pa
        (SpinnerCall.writes files machine.spinner.kcbs_ (.startKernel other order)) true
        machine.spinner next →
      HasTable next.kcbs_ kid root ∧ ∀ addr pa, va ≤ addr → addr < va + size →
        PrivateAt platform holes machine.spinner.aspace_ root addr pa →
        ByteStays platform holes root addr pa machine.spinner next := by
    intro other otherKcb otherHeap order next away otherFound served
    obtain ⟨still, bytes⟩ := serving.stays otherFound served has
    exact ⟨still, fun addr pa low high mine =>
      bytes addr pa (fun same => away.2 (congrArg some same) addr low high) mine⟩
  cases step with
  | @call call next ready noStart waited step =>
      obtain ⟨still, bytes⟩ := (step.1.done serving itself).byteStays serving tabled has avoids.1
      exact ⟨still, fun addr pa low high mine =>
        bytes addr pa (fun here => avoids.2 here addr low high) mine⟩
  | @prepared other order next ready admissible ran met =>
      obtain ⟨⟨otherKcb, otherHeap, otherFound⟩, permutes⟩ := admissible
      exact prepares avoids otherFound ((@prepareKernel_served platform holes caps files other
        otherKcb.top_pgtbl_pa machine.spinner order itself permutes machine.spinner
        (Served.refl (serving.owns otherFound))).of_ok ran)
  | @refused other order next fault ready admissible ran met =>
      obtain ⟨⟨otherKcb, otherHeap, otherFound⟩, permutes⟩ := admissible
      exact prepares avoids otherFound ((@prepareKernel_served platform holes caps files other
        otherKcb.top_pgtbl_pa machine.spinner order itself permutes machine.spinner
        (Served.refl (serving.owns otherFound))).of_error ran)
  | @launch other next launch waiting idle ran latest =>
      obtain ⟨root, memory, uploads⟩ := confined.starting other waiting
      obtain ⟨otherKcb, otherHeap, otherFound, _⟩ := uploads.has
      rw [accelStart_run otherFound.stored] at ran
      cases ran
      exact ⟨has, fun _ _ _ _ mine => ⟨mine, rfl⟩⟩
  | @write other target pa launch byte busy bound walked =>
      obtain ⟨memory, uploads, _⟩ := confined.running other launch busy
      obtain ⟨otherKcb, otherHeap, otherFound, rootIs⟩ := uploads.has
      have served := uploads.write confined.settled bound walked byte
      rw [← rootIs] at served
      obtain ⟨still, bytes⟩ := serving.stays otherFound served has
      refine ⟨still, fun addr place low high mine => bytes addr place ?_ mine⟩
      intro same here
      have outside := avoids ⟨launch, same ▸ busy⟩
      omega
  | finish busy => exact ⟨has, fun _ _ _ _ mine => ⟨mine, rfl⟩⟩

theorem run_stays (positive : 0 < wrap32 (platform.IO_END_ADDR - platform.IO_BASE_ADDR))
    (confined : Confined platform holes files machine)
    (run : Trace (fun machine event next => Machine.Step platform caps files machine event next ∧
      machine.Avoids files kid va size event) machine events last)
    (has : HasTable machine.spinner.kcbs_ kid root) :
    HasTable last.spinner.kcbs_ kid root ∧ ∀ addr pa, va ≤ addr → addr < va + size →
      PrivateAt platform holes machine.spinner.aspace_ root addr pa →
      ByteStays platform holes root addr pa machine.spinner last.spinner := by
  induction run with
  | nil machine => exact ⟨has, fun _ _ _ _ mine => ⟨mine, rfl⟩⟩
  | @cons first second third event events head tail ih =>
      obtain ⟨step, avoids⟩ := head
      obtain ⟨still, bytes⟩ := confined.stays itself step has avoids
      obtain ⟨atLast, later⟩ := ih (confined.step itself positive step) still
      refine ⟨atLast, fun addr pa low high mine => ?_⟩
      have now := bytes addr pa low high mine
      have rest := later addr pa low high now.mine
      exact ⟨rest.mine, rest.same.trans now.same⟩

end DeviceSteps

section Data

variable {platform : Platform} (valid : platform.Valid) {caps : Caps → Option Nat}
  (itself : ∀ page, MapsItself platform ((caps .localMemSize).getD 0) page →
    MayMapItself platform
      (AddressSpaceManager.new platform ((caps .localMemSize).getD 0)).hole_list_ page)
  (positive : 0 < wrap32 (platform.IO_END_ADDR - platform.IO_BASE_ADDR)) (files : Files)
  (device : FlatDevice) {events later : List MachineEvent} {machine last : Machine}
  (setup : Trace (Machine.Step platform caps files)
    (Machine.new platform (flatAccelerator caps) device) events machine)
  {kid va : Nat} {content : List UInt8} (narrow : va + content.length ≤ 2 ^ 32)

include valid itself positive setup narrow

/-- A kernel finds its data. The host has uploaded to addresses of the kernel's own pages. Whatever
happens then, as long as neither the host for this kernel nor the kernel itself writes to these
addresses: whenever the kernel is running, what it reads at them through its own table is what was
uploaded. -/
theorem device_finds_uploads {next : Machine} {kcb : KernelControlBlock} {heap : HeapManager}
    (found : HasHeap machine.spinner.kcbs_ kid kcb heap)
    (range : PrivateRange platform (AddressSpaceManager.new platform
      ((caps .localMemSize).getD 0)).hole_list_ machine.spinner.aspace_ kcb.top_pgtbl_pa va
      content.length)
    (step : Machine.Step platform caps files machine (.call (.upload kid va content)) next)
    (uploaded : upload (flatAccelerator caps) kid va content machine.spinner = .ok () next.spinner)
    (run : Trace (fun machine event next => Machine.Step platform caps files machine event next ∧
      machine.Avoids files kid va content.length event) next later last)
    {launch : Launch} (busy : last.running = some (kid, launch)) :
    ∀ index < content.length, ∀ pa,
      walkRoot last.spinner.device.memory (va + index) launch.top_pgtbl_pa = some pa →
      content[index]? = some (last.spinner.device.memory pa) := by
  have confined := run_confined itself positive (new_confined valid device) setup
  obtain ⟨owner, owned⟩ := confined.settled.serving.kernels.reached.owned
  have isLive := (confined.settled.serving.kernels.rooted _ _ _ found).2
  obtain ⟨kcbs, bytes⟩ := upload_private caps owned isLive found.stored narrow range uploaded
  have has : HasTable next.spinner.kcbs_ kid kcb.top_pgtbl_pa :=
    ⟨kcb, heap, ⟨kcbs ▸ found.stored, found.has⟩, rfl⟩
  obtain ⟨⟨block, blockHeap, blockFound, rootIs⟩, stays⟩ :=
    run_stays itself positive (confined.step itself positive step) run has
  have whole := (setup.snoc step).append (run.mono fun _ _ _ step => step.1)
  obtain ⟨running, runningHeap, runningFound, launched, walks⟩ :=
    (run_confined itself positive (new_confined valid device) whole).walks busy
  rw [(runningFound.unique blockFound).1, rootIs] at launched
  intro index inside pa walked
  obtain ⟨place, mine, byte⟩ := bytes index inside
  have still := stays _ place (by omega) (by omega) mine
  obtain ⟨same, mapped⟩ := walks (va + index) (by omega)
  have translated := mapped pa (same.symm.trans walked)
  rw [← launched, still.mine.found, Option.some.injEq] at translated
  rw [← translated, still.same]
  exact byte

/-- The host finds the results. What a running kernel has at addresses of its own pages is what a
download returns later, however the run ends and whatever is done in between, as long as neither
the host for this kernel nor the kernel itself writes to these addresses. -/
theorem host_finds_results {launch : Launch} (busy : machine.running = some (kid, launch))
    (results : ∀ index < content.length, ∃ pa,
      walkRoot machine.spinner.device.memory (va + index) launch.top_pgtbl_pa = some pa ∧
        ¬MayMapItself platform (AddressSpaceManager.new platform
          ((caps .localMemSize).getD 0)).hole_list_ (frameOf pa) ∧
        content[index]? = some (machine.spinner.device.memory pa))
    (run : Trace (fun machine event next => Machine.Step platform caps files machine event next ∧
      machine.Avoids files kid va content.length event) machine later last) :
    ∀ dest : List UInt8, dest.length = content.length →
      ∃ next, download (flatAccelerator caps) kid va dest last.spinner = .ok content next := by
  have confined := run_confined itself positive (new_confined valid device) setup
  obtain ⟨kcb, heap, found, rootIs, walks⟩ := confined.walks busy
  obtain ⟨⟨block, blockHeap, blockFound, blockRoot⟩, stays⟩ :=
    run_stays itself positive confined run ⟨kcb, heap, found, rfl⟩
  apply download_finds narrow blockFound.stored
  intro index inside
  obtain ⟨pa, walked, apart, byte⟩ := results index inside
  obtain ⟨same, mapped⟩ := walks (va + index) (by omega)
  have translated := mapped pa (same.symm.trans walked)
  rw [← rootIs] at translated
  have still := stays _ pa (by omega) (by omega) ⟨by omega, translated, apart⟩
  rw [← still.same] at byte
  exact ⟨pa, blockRoot ▸ still.mine.found, byte⟩

end Data

section Small

theorem edge_stackPage : ∃ (machine : Machine) (launch : Launch) (kcb : KernelControlBlock)
    (heap : HeapManager) (stack : Nat),
    Trace (Machine.Step (edgePlatform 0x4000) edgeCaps edgeFiles)
        (Machine.new (edgePlatform 0x4000) (flatAccelerator edgeCaps) blankMemory)
        [.call (.allocateKernel "kernel"), .prepare 0 id, .launch] machine ∧
      machine.running = some (0, launch) ∧ machine.starting = none ∧
      HasHeap machine.spinner.kcbs_ 0 kcb heap ∧ kcb.top_pgtbl_pa = launch.top_pgtbl_pa ∧
      machine.spinner.aspace_.hole_list_ = edgeHoles ∧
      walkRoot machine.spinner.device.memory 0x80000 launch.top_pgtbl_pa = some stack ∧
      PrivateAt (edgePlatform 0x4000) edgeHoles machine.spinner.aspace_ kcb.top_pgtbl_pa 0x80000
        stack := by
  obtain ⟨machine, launch, kcb, heap, setup, busy, ready, found, _, holes, _, _, stack, apart, walked⟩ :=
    edge_running
  obtain ⟨block, blockHeap, blockFound, rootIs, walks⟩ := (edge_confined setup).walks busy
  rw [(blockFound.unique found).1] at rootIs
  obtain ⟨same, mapped⟩ := walks 0x80000 (by decide)
  have translated := mapped stack (same.symm.trans walked)
  exact ⟨machine, launch, kcb, heap, stack, setup, busy, ready, found, rootIs, holes, walked,
    by decide, rootIs ▸ translated, apart⟩

theorem edge_allocatesOther {machine : Machine} (ready : machine.starting = none)
    (holes : machine.spinner.aspace_.hole_list_ = edgeHoles) (va size : Nat) :
    ∃ next, Machine.Step (edgePlatform 0x4000) edgeCaps edgeFiles machine
        (.call (.allocateKernel "other")) { machine with spinner := next } ∧
      machine.Avoids edgeFiles 0 va size (.call (.allocateKernel "other")) := by
  obtain ⟨next, step⟩ := @callStep_exists (edgePlatform 0x4000) edgeCaps edgeFiles machine.spinner
    (.allocateKernel "other") trivial
  exact ⟨next, .call ready rfl (fun _ _ impossible => by cases impossible)
    ⟨step, edge_met holes _ _⟩, SpinnerCall.noConfusion, fun impossible => by cases impossible⟩

/-- A byte is uploaded while the kernel is running, and another kernel is allocated. -/
theorem device_finds_uploads_edge : ∃ (next last : Machine) (launch : Launch) (stack : Nat),
    Trace (fun machine event next =>
        Machine.Step (edgePlatform 0x4000) edgeCaps edgeFiles machine event next ∧
          machine.Avoids edgeFiles 0 0x80000 1 event) next [.call (.allocateKernel "other")] last ∧
      walkRoot last.spinner.device.memory 0x80000 launch.top_pgtbl_pa = some stack ∧
      last.spinner.device.memory stack = 7 := by
  obtain ⟨machine, launch, kcb, heap, stack, setup, busy, ready, found, rootIs, holes, walked, mine⟩ :=
    edge_stackPage
  have valid : (edgePlatform 0x4000).Valid := edgePlatform_valid (by decide) (by decide) (by decide)
  have confined := edge_confined setup
  have range : PrivateRange (edgePlatform 0x4000) (AddressSpaceManager.new (edgePlatform 0x4000)
      ((edgeCaps .localMemSize).getD 0)).hole_list_ machine.spinner.aspace_ kcb.top_pgtbl_pa 0x80000
      1 := by
    intro index inside
    rw [show index = 0 by omega]
    exact ⟨stack, mine⟩
  obtain ⟨after, uploaded, kcbs⟩ := @upload_exists _ _ edgeCaps _ _ 0 0x80000 kcb heap [7]
    confined.settled.serving found (by decide) range
  have called : CallStep (edgePlatform 0x4000) edgeCaps edgeFiles machine.spinner
      (.upload 0 0x80000 [7]) after := ⟨⟨kcb, heap, found⟩, Or.inl ⟨(), uploaded⟩⟩
  have step : Machine.Step (edgePlatform 0x4000) edgeCaps edgeFiles machine
      (.call (.upload 0 0x80000 [7])) { machine with spinner := after } :=
    .call ready rfl (fun _ _ impossible => by cases impossible) ⟨called, edge_met holes _ _⟩
  have holesAfter : after.aspace_.hole_list_ = edgeHoles :=
    (confined.step (edge_itself 0x4000) (by decide) step).settled.serving.kernels.reached.holes.trans
      (edgeHoles_new 0x4000)
  obtain ⟨other, stepOther, avoids⟩ := @edge_allocatesOther { machine with spinner := after } ready
    holesAfter 0x80000 1
  have run := Trace.cons ⟨stepOther, avoids⟩ (@Trace.nil _ _ (fun machine event next =>
    Machine.Step (edgePlatform 0x4000) edgeCaps edgeFiles machine event next ∧
      machine.Avoids edgeFiles 0 0x80000 1 event) { machine with spinner := other })
  obtain ⟨_, _, _, _, walks⟩ := confined.walks busy
  obtain ⟨_, _, _, _, later⟩ := (edge_confined ((setup.snoc step).snoc stepOther)).walks busy
  have walkedLast := (later 0x80000 (by decide)).1.trans
    ((walks 0x80000 (by decide)).1.symm.trans walked)
  have byte := device_finds_uploads valid (edge_itself 0x4000) (by decide) edgeFiles blankMemory setup
    (by decide) found range step uploaded run busy 0 (by decide) stack walkedLast
  exact ⟨_, _, launch, stack, run, walkedLast, (Option.some.inj byte).symm⟩

/-- The kernel stores a byte, the run ends, and another kernel is allocated. -/
theorem host_finds_results_edge : ∃ (machine last : Machine) (next : Spinner FlatDevice),
    Trace (fun machine event next =>
        Machine.Step (edgePlatform 0x4000) edgeCaps edgeFiles machine event next ∧
          machine.Avoids edgeFiles 0 0x80000 1 event) machine
        [.finish, .call (.allocateKernel "other")] last ∧
      download (flatAccelerator edgeCaps) 0 0x80000 [0] last.spinner = .ok [7] next := by
  obtain ⟨machine, launch, kcb, heap, stack, setup, busy, ready, found, rootIs, holes, walked, mine⟩ :=
    edge_stackPage
  have valid : (edgePlatform 0x4000).Valid := edgePlatform_valid (by decide) (by decide) (by decide)
  let stored : Machine := { machine with
    spinner := { machine.spinner with
      device := { machine.spinner.device with
        memory := store machine.spinner.device.memory stack [7] } } }
  have stores : Machine.Step (edgePlatform 0x4000) edgeCaps edgeFiles machine (.write 0x80000 7)
    stored := .write busy (by decide) walked
  have ends : Machine.Step (edgePlatform 0x4000) edgeCaps edgeFiles stored .finish
    { stored with running := none } := .finish busy
  obtain ⟨_, _, _, _, walks⟩ := (edge_confined setup).walks busy
  obtain ⟨_, _, _, _, later⟩ := (edge_confined (setup.snoc stores)).walks busy
  have walkedLater := (later 0x80000 (by decide)).1.trans
    ((walks 0x80000 (by decide)).1.symm.trans walked)
  have apart := mine.apart
  rw [← edgeHoles_new 0x4000] at apart
  have result : ([7] : List UInt8)[0]? =
      some (store machine.spinner.device.memory stack [7] stack) := by
    rw [store, store, Function.update_self]
    rfl
  obtain ⟨other, stepOther, avoids⟩ := @edge_allocatesOther { stored with running := none } ready holes
    0x80000 1
  have run := Trace.cons ⟨ends, trivial⟩ (Trace.cons ⟨stepOther, avoids⟩
    (@Trace.nil _ _ (fun machine event next =>
      Machine.Step (edgePlatform 0x4000) edgeCaps edgeFiles machine event next ∧
        machine.Avoids edgeFiles 0 0x80000 1 event)
      ⟨other, machine.starting, none⟩))
  obtain ⟨next, ran⟩ := @host_finds_results (edgePlatform 0x4000) valid edgeCaps (edge_itself 0x4000)
    (by decide) edgeFiles blankMemory _ _ _ _ (setup.snoc stores) 0 0x80000 [7] (by decide) launch busy
    (by
      intro index inside
      rw [List.length_singleton] at inside
      rw [show index = 0 by omega]
      exact ⟨stack, walkedLater, apart, result⟩) run [0] rfl
  exact ⟨_, _, next, run, ran⟩

end Small

end Espiral.Spinner
