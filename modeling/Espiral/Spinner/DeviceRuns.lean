import Espiral.Spinner.StartedKernels

/-!
# Kernels on the device

The device runs one kernel at a time and writes wherever the table it was given
leads it, at any moment between the calls of the host. A start first maps and
uploads, then waits for the run in progress, then starts the device. The host
waits for a kernel before it frees it.
-/

namespace Espiral.Spinner

set_option autoImplicit false

open AddressSpaceManager ByteMemory Contracts MachineWords Traces

/-- The spinner, the kernel whose start is waiting, and the kernel that is running with what
the device was started with. -/
structure Machine where
  spinner : Spinner FlatDevice
  starting : Option Nat
  running : Option (Nat × Launch)

inductive MachineEvent where
  | call (call : SpinnerCall)
  | prepare (kid : Nat) (order : SparseScratchpad → SparseScratchpad)
  | launch
  | write (va : Nat) (byte : UInt8)
  | finish

def prepareKernel (platform : Platform) (accelerator : HostAccelerator FlatDevice)
    (order : SparseScratchpad → SparseScratchpad) (files : Files) (kid : Nat) :
    Action (Spinner FlatDevice) Unit := do
  mapKernel platform accelerator kid
  uploadVxbin accelerator files kid
  uploadPageTable accelerator order kid
  listMapping kid

namespace Machine

/-- Nothing is done for this kernel, and it stores nothing. -/
def Apart (machine : Machine) (kid : Nat) : MachineEvent → Prop
  | .call call => call.kernel ≠ some kid
  | .prepare other _ => other ≠ kid
  | .launch => True
  | .write _ _ => ∀ launch, machine.running ≠ some (kid, launch)
  | .finish => True

def new (platform : Platform) (accelerator : HostAccelerator FlatDevice) (device : FlatDevice) :
    Machine where
  spinner := .new platform accelerator device
  starting := none
  running := none

inductive Step (platform : Platform) (caps : Caps → Option Nat) (files : Files) :
    Machine → MachineEvent → Machine → Prop
  | call {machine : Machine} {call : SpinnerCall} {next : Spinner FlatDevice}
      (ready : machine.starting = none) (noStart : call.starts = false)
      (waited : ∀ kid launch, call = .freeKernel kid → machine.running ≠ some (kid, launch))
      (step : MetCallStep platform caps files machine.spinner call next) :
      Step platform caps files machine (.call call) { machine with spinner := next }
  | prepared {machine : Machine} {kid : Nat} {order : SparseScratchpad → SparseScratchpad}
      {next : Spinner FlatDevice} (ready : machine.starting = none)
      (admissible : Admissible machine.spinner.kcbs_ (.startKernel kid order))
      (ran : prepareKernel platform (flatAccelerator caps) order files kid machine.spinner =
        .ok () next)
      (met : RetriesMet platform machine.spinner.aspace_.hole_list_ machine.spinner.aspace_.frames
        next.aspace_.frames) :
      Step platform caps files machine (.prepare kid order)
        { machine with spinner := next, starting := some kid }
  | refused {machine : Machine} {kid : Nat} {order : SparseScratchpad → SparseScratchpad}
      {next : Spinner FlatDevice} {fault : Fault} (ready : machine.starting = none)
      (admissible : Admissible machine.spinner.kcbs_ (.startKernel kid order))
      (ran : prepareKernel platform (flatAccelerator caps) order files kid machine.spinner =
        .error fault next)
      (met : RetriesMet platform machine.spinner.aspace_.hole_list_ machine.spinner.aspace_.frames
        next.aspace_.frames) :
      Step platform caps files machine (.prepare kid order) { machine with spinner := next }
  | launch {machine : Machine} {kid : Nat} {next : Spinner FlatDevice} {launch : Launch}
      (waiting : machine.starting = some kid) (idle : machine.running = none)
      (ran : accelStart (flatAccelerator caps) kid machine.spinner = .ok () next)
      (latest : next.device.launches.head? = some launch) :
      Step platform caps files machine .launch ⟨next, none, some (kid, launch)⟩
  | write {machine : Machine} {kid va pa : Nat} {launch : Launch} {byte : UInt8}
      (busy : machine.running = some (kid, launch)) (bound : va < 2 ^ 32)
      (walked : walkRoot machine.spinner.device.memory va launch.top_pgtbl_pa = some pa) :
      Step platform caps files machine (.write va byte) { machine with
        spinner := { machine.spinner with
          device := { machine.spinner.device with
            memory := store machine.spinner.device.memory pa [byte] } } }
  | finish {machine : Machine} {kid : Nat} {launch : Launch}
      (busy : machine.running = some (kid, launch)) :
      Step platform caps files machine .finish { machine with running := none }

end Machine

/-- A table that has been uploaded for a kernel and is still what the device and the host have. -/
structure Uploads (platform : Platform) (table : Memory) (kid root : Nat)
    (state : Spinner FlatDevice) : Prop where
  has : HasTable state.kcbs_ kid root
  shaped : Shaped table root
  there : StillThere table root state
  translated : ∀ va < 2 ^ 32, ∀ pa, walkRoot table va root = some pa →
    state.aspace_.translated root va = some pa
  io : ∃ pa, state.aspace_.translated root (wrap32 platform.IO_BASE_ADDR) = some pa

section Tables

variable {platform : Platform} {holes : HoleList} {caps : Caps → Option Nat} {files : Files}
  {memory : Memory} {kid root other otherRoot : Nat} {nodes : Bool} {table : Nat → Nat}
  {state next : Spinner FlatDevice} {call : SpinnerCall} {order : SparseScratchpad → SparseScratchpad}

theorem Uploads.spared (uploads : Uploads platform memory kid root state)
    (spared : Spared platform holes kid root state next) (clear : Clear platform holes files state) :
    Uploads platform memory kid root next where
  has := by
    obtain ⟨kcb, heap, found, rootIs⟩ := uploads.has
    exact ⟨kcb, heap, ⟨spared.slot.trans found.stored, found.has⟩, rootIs⟩
  shaped := uploads.shaped
  there := uploads.there.spared spared clear
  translated va bound pa walked :=
    (spared.translated va bound).trans (uploads.translated va bound pa walked)
  io := by
    obtain ⟨pa, mapped⟩ := uploads.io
    exact ⟨pa, (spared.translated _ (wrap32_lt _)).trans mapped⟩

/-- Work for a kernel, which uploads nodes only for a kernel other than this one. -/
theorem Uploads.served {writes : Nat → Prop} (uploads : Uploads platform memory kid root state)
    (served : Served platform holes other otherRoot writes nodes state next)
    (theirs : HasTable state.kcbs_ other otherRoot) (quiet : other = kid → nodes = false)
    (clear : Clear platform holes files state) (clearNext : Clear platform holes files next) :
    Uploads platform memory kid root next := by
  obtain ⟨kcb, heap, found, rootIs⟩ := uploads.has
  obtain ⟨otherKcb, otherHeap, otherFound, otherRootIs⟩ := theirs
  have isLive := (clear.serving.kernels.rooted _ _ _ found).2
  rw [rootIs] at isLive
  by_cases same : other = kid
  · rw [same] at otherFound served
    rw [(otherFound.unique found).1, rootIs] at otherRootIs
    rw [← otherRootIs, quiet same] at served
    have kept : ∀ va < 2 ^ 32, ∀ pa, state.aspace_.translated root va = some pa →
        next.aspace_.translated root va = some pa := fun va bound pa translated =>
      served.work.translated clear.serving.kernels.reached isLive bound translated
    obtain ⟨block, blockHeap, blockFound, blockRoot, _⟩ := served.owns.found
    obtain ⟨pa, mapped⟩ := uploads.io
    exact ⟨⟨block, blockHeap, blockFound, blockRoot⟩, uploads.shaped,
      uploads.there.served served clearNext,
      fun va bound pa walked => kept va bound pa (uploads.translated va bound pa walked),
      pa, kept _ (wrap32_lt _) pa mapped⟩
  · have apart : root ≠ otherRoot := by
      intro equal
      rw [← rootIs, ← otherRootIs] at equal
      exact same (clear.serving.kernels.apart _ _ _ _ _ _ found otherFound equal).symm
    exact uploads.spared (served.spares clear.serving.kernels isLive (Ne.symm same) apart) clear

theorem Uploads.step (uploads : Uploads platform memory kid root state)
    (done : Done platform holes files state call next) (tabled : Tabled table state.kcbs_ state.aspace_)
    (clear : Clear platform holes files state) (clearNext : Clear platform holes files next)
    (noStart : call.starts = false) (kept : call ≠ .freeKernel kid) :
    Uploads platform memory kid root next := by
  obtain ⟨kcb, heap, found, rootIs⟩ := uploads.has
  by_cases mine : call.kernel = some kid
  · cases done with
    | refused _ => cases mine
    | abandoned _ => cases mine
    | stored _ _ _ => cases mine
    | freed _ _ =>
        rw [SpinnerCall.kernel, Option.some.injEq] at mine
        exact absurd (congrArg SpinnerCall.freeKernel mine) kept
    | served _ _ otherFound served =>
        exact uploads.served served ⟨_, _, otherFound, rfl⟩ (fun _ => noStart) clear clearNext
  · have spared := done.spares clear.serving tabled found mine
    rw [rootIs] at spared
    exact uploads.spared spared clear

theorem Uploads.of_same (uploads : Uploads platform memory kid root state)
    (kcbs : next.kcbs_ = state.kcbs_) (aspace : next.aspace_ = state.aspace_)
    (device : next.device.memory = state.device.memory) : Uploads platform memory kid root next where
  has := by
    rw [kcbs]
    exact uploads.has
  shaped := uploads.shaped
  there := by
    refine ⟨?_, ?_⟩
    · rw [aspace]
      exact uploads.there.nodes
    · rw [device]
      exact uploads.there.bytes
  translated := by
    rw [aspace]
    exact uploads.translated
  io := by
    rw [aspace]
    exact uploads.io

theorem Settled.of_same (settled : Settled platform holes files state)
    (kcbs : next.kcbs_ = state.kcbs_) (aspace : next.aspace_ = state.aspace_) :
    Settled platform holes files next where
  serving := by
    refine ⟨?_, ?_⟩
    · rw [kcbs, aspace]
      exact settled.serving.kernels
    · rw [kcbs]
      exact settled.serving.images
  tabled := by
    rw [kcbs, aspace]
    exact settled.tabled

theorem Clear.of_same (clear : Clear platform holes files state) (kcbs : next.kcbs_ = state.kcbs_)
    (aspace : next.aspace_ = state.aspace_) : Clear platform holes files next where
  serving := by
    refine ⟨?_, ?_⟩
    · rw [kcbs, aspace]
      exact clear.serving.kernels
    · rw [kcbs]
      exact clear.serving.images
  owned := by
    rw [aspace]
    exact clear.owned

theorem Uploads.write (uploads : Uploads platform memory kid root state)
    (settled : Settled platform holes files state) {va pa : Nat} (bound : va < 2 ^ 32)
    (walked : walkRoot state.device.memory va root = some pa) (byte : UInt8) :
    Served platform holes kid root (· = va) false state
      { state with device := { state.device with memory := store state.device.memory pa [byte] } } := by
  obtain ⟨kcb, heap, found, rootIs⟩ := uploads.has
  have owns := settled.serving.owns found
  rw [rootIs] at owns
  rw [uploads.there.bytes.walkRoot uploads.shaped bound] at walked
  have small : va % 4096 < 4096 := Nat.mod_lt _ (by decide)
  apply owns.uploads bound (uploads.translated va bound pa walked)
  · rw [List.length_singleton]
    omega
  · intro index inside
    rw [List.length_singleton] at inside
    omega

end Tables

section Preparing

variable {platform : Platform} {holes : HoleList} {caps : Caps → Option Nat} {files : Files}
  {memory : Memory} {kid root : Nat} {nodes : Bool} {state next start : Spinner FlatDevice}
  {order : SparseScratchpad → SparseScratchpad}

theorem startKernel_prepares (platform : Platform) (accelerator : HostAccelerator FlatDevice)
    (order : SparseScratchpad → SparseScratchpad) (files : Files) (kid : Nat) :
    startKernel platform accelerator order files kid =
      (do
        prepareKernel platform accelerator order files kid
        accelStart accelerator kid) := by
  rw [startKernel_phases]
  simp only [prepareKernel, bind_assoc]

theorem prepareKernel_starts
    (ran : prepareKernel platform (flatAccelerator caps) order files kid state = .ok () next)
    (has : HasTable next.kcbs_ kid root) :
    ∃ launched, startKernel platform (flatAccelerator caps) order files kid state = .ok () launched ∧
      launched.kcbs_ = next.kcbs_ ∧ launched.aspace_ = next.aspace_ ∧
      launched.device.memory = next.device.memory := by
  obtain ⟨kcb, heap, found, _⟩ := has
  have launched : accelStart (flatAccelerator caps) kid next = .ok () _ := accelStart_run found.stored
  rw [startKernel_prepares, bind_ok ran]
  exact ⟨_, launched, rfl, rfl, rfl⟩

variable (itself : ∀ page, MapsItself platform ((caps .localMemSize).getD 0) page →
  MayMapItself platform holes page)

include itself

theorem prepareKernel_served (permutes : ∀ dump, (order dump).Perm dump) :
    Keeps (Served platform holes kid root
        (SpinnerCall.writes files start.kcbs_ (.startKernel kid order)) true start)
      (prepareKernel platform (flatAccelerator caps) order files kid) := by
  have image : WritesImage files start.kcbs_ kid
      (SpinnerCall.writes files start.kcbs_ (.startKernel kid order)) :=
    fun kcb content stored onDisk _ spanned => ⟨kcb, content, stored, onDisk, spanned⟩
  apply (mapKernel_served itself).bind
  intro _
  apply (uploadVxbin_served image).bind
  intro _
  apply (uploadPageTable_served permutes).bind
  intro _
  exact listMapping_served

/-- A kernel that has been started once is not prepared again. -/
theorem prepareKernel_again (positive : 0 < wrap32 (platform.IO_END_ADDR - platform.IO_BASE_ADDR))
    (uploads : Uploads platform memory kid root state) (owns : Owns platform holes kid root state) :
    Ensures (prepareKernel platform (flatAccelerator caps) order files kid) state (fun _ _ => False)
      (fun _ next => Served platform holes kid root (fun _ => False) false state next) := by
  obtain ⟨pa, mapped⟩ := uploads.io
  apply Ensures.bind
  apply (mapKernel_maps itself positive owns).weaken
  · rintro _ after ⟨unmapped, _⟩
    rw [mapped] at unmapped
    cases unmapped
  · exact fun _ _ served => served

theorem prepareKernel_uploads (positive : 0 < wrap32 (platform.IO_END_ADDR - platform.IO_BASE_ADDR))
    (serving : Serving platform holes files state) {kcb : KernelControlBlock} {heap : HeapManager}
    (found : HasHeap state.kcbs_ kid kcb heap) (permutes : ∀ dump, (order dump).Perm dump)
    (ran : prepareKernel platform (flatAccelerator caps) order files kid state = .ok () next) :
    ∃ table, Uploads platform table kid kcb.top_pgtbl_pa next := by
  have owns := serving.owns found
  have served := (prepareKernel_served itself permutes state (Served.refl owns)).of_ok ran
  obtain ⟨block, blockHeap, blockFound, blockRoot, _⟩ := served.owns.found
  have has : HasTable next.kcbs_ kid kcb.top_pgtbl_pa := ⟨block, blockHeap, blockFound, blockRoot⟩
  obtain ⟨launched, started, kcbs, aspace, device⟩ := prepareKernel_starts ran has
  obtain ⟨owner, owned⟩ := serving.kernels.reached.owned
  obtain ⟨_, progress, launch, latest, whole⟩ :=
    (startKernel_spec serving.kernels.reached owned found.stored owns.isLive itself
      permutes).of_ok started
  obtain ⟨again, same, stored⟩ := startKernel_memory started
  rw [latest, Option.some.injEq] at same
  rw [← same] at stored
  obtain ⟨later, laterOwned, _⟩ := progress.owned
  have aligned : 4 ∣ kcb.top_pgtbl_pa :=
    (by decide : 4 ∣ 4096).trans (laterOwned.root_aligned progress.isLive)
  have uploads : Uploads platform launched.aspace_.view kid kcb.top_pgtbl_pa launched := by
    refine ⟨kcbs ▸ has, laterOwned.shaped progress.isLive, whole.stillThere progress.isLive stored,
      ?_, startKernel_maps itself positive owns permutes started⟩
    intro va _ pa walked
    rw [translated_view _ aligned]
    exact walked
  exact ⟨_, uploads.of_same kcbs.symm aspace.symm device.symm⟩

end Preparing

structure Confined (platform : Platform) (holes : HoleList) (files : Files) (machine : Machine) :
    Prop where
  settled : Settled platform holes files machine.spinner
  clear : Clear platform holes files machine.spinner
  starting : ∀ kid, machine.starting = some kid →
    ∃ root table, Uploads platform table kid root machine.spinner
  running : ∀ kid launch, machine.running = some (kid, launch) → ∃ table,
    Uploads platform table kid launch.top_pgtbl_pa machine.spinner ∧
      SameNodes table launch.memory launch.top_pgtbl_pa

section Steps

variable {platform : Platform} {holes : HoleList} {caps : Caps → Option Nat} {files : Files}
  {machine last : Machine} {event : MachineEvent}
  (itself : ∀ page, MapsItself platform ((caps .localMemSize).getD 0) page →
    MayMapItself platform holes page)
  (positive : 0 < wrap32 (platform.IO_END_ADDR - platform.IO_BASE_ADDR))

include itself positive

theorem Confined.prepares {kid : Nat} {order : SparseScratchpad → SparseScratchpad}
    {next launched : Spinner FlatDevice} (confined : Confined platform holes files machine)
    (step : MetCallStep platform caps files machine.spinner (.startKernel kid order) launched)
    (kcbs : launched.kcbs_ = next.kcbs_) (aspace : launched.aspace_ = next.aspace_)
    (outcome : prepareKernel platform (flatAccelerator caps) order files kid machine.spinner =
        .ok () next ∨ ∃ fault, prepareKernel platform (flatAccelerator caps) order files kid
          machine.spinner = .error fault next) :
    Settled platform holes files next ∧ Clear platform holes files next ∧
      ∀ other root table, Uploads platform table other root machine.spinner →
        Uploads platform table other root next := by
  have settled := (confined.settled.step itself step.1).of_same kcbs.symm aspace.symm
  have clear := (confined.clear.step itself step).of_same kcbs.symm aspace.symm
  refine ⟨settled, clear, ?_⟩
  intro other root table uploads
  obtain ⟨⟨kcb, heap, found⟩, permutes⟩ := step.1.1
  have owns := confined.settled.serving.owns found
  have theirs : HasTable machine.spinner.kcbs_ kid kcb.top_pgtbl_pa := ⟨kcb, heap, found, rfl⟩
  by_cases same : kid = other
  · obtain ⟨block, blockHeap, blockFound, rootIs⟩ := uploads.has
    rw [← same] at blockFound uploads
    rw [(blockFound.unique found).1] at rootIs
    rw [← rootIs] at uploads
    have again := @prepareKernel_again platform holes caps files table kid kcb.top_pgtbl_pa
      machine.spinner order itself positive uploads owns
    rw [← same, ← rootIs]
    cases outcome with
    | inl returned => exact (again.of_ok returned).elim
    | inr thrown =>
        obtain ⟨fault, ran⟩ := thrown
        exact uploads.served (again.of_error ran) theirs (fun _ => rfl) confined.clear clear
  · have prepared := @prepareKernel_served platform holes caps files kid kcb.top_pgtbl_pa machine.spinner
      order itself permutes machine.spinner (Served.refl owns)
    have served : Served platform holes kid kcb.top_pgtbl_pa
        (SpinnerCall.writes files machine.spinner.kcbs_ (.startKernel kid order)) true
        machine.spinner next := by
      cases outcome with
      | inl returned => exact prepared.of_ok returned
      | inr thrown =>
          obtain ⟨fault, ran⟩ := thrown
          exact prepared.of_error ran
    exact uploads.served served theirs (fun here => absurd here same) confined.clear clear

theorem Confined.step (confined : Confined platform holes files machine)
    (step : Machine.Step platform caps files machine event last) :
    Confined platform holes files last := by
  obtain ⟨table, tabled⟩ := confined.settled.tabled
  cases step with
  | @call call next ready noStart waited step =>
      have clearNext := confined.clear.step itself step
      have done := step.1.done confined.settled.serving itself
      refine ⟨confined.settled.step itself step.1, clearNext, ?_, ?_⟩
      · intro kid isStarting
        rw [ready] at isStarting
        cases isStarting
      · intro kid launch isRunning
        obtain ⟨memory, uploads, same⟩ := confined.running kid launch isRunning
        exact ⟨memory, uploads.step done tabled confined.clear clearNext noStart
          (fun here => waited kid launch here isRunning), same⟩
  | @prepared kid order next ready admissible ran met =>
      obtain ⟨⟨kcb, heap, found⟩, permutes⟩ := admissible
      obtain ⟨memory, uploads⟩ := prepareKernel_uploads itself positive confined.settled.serving found
        permutes ran
      obtain ⟨launched, started, kcbs, aspace, _⟩ := prepareKernel_starts ran uploads.has
      have step : MetCallStep platform caps files machine.spinner (.startKernel kid order) launched :=
        ⟨⟨⟨⟨kcb, heap, found⟩, permutes⟩, Or.inl ⟨(), started⟩⟩, by rw [aspace]; exact met⟩
      obtain ⟨settled, clear, others⟩ := confined.prepares itself positive step kcbs aspace (Or.inl ran)
      refine ⟨settled, clear, ?_, ?_⟩
      · intro waiting same
        cases same
        exact ⟨_, memory, uploads⟩
      · intro other launch isRunning
        obtain ⟨otherMemory, otherUploads, same⟩ := confined.running other launch isRunning
        exact ⟨otherMemory, others _ _ _ otherUploads, same⟩
  | @refused kid order next fault ready admissible ran met =>
      have thrown : startKernel platform (flatAccelerator caps) order files kid machine.spinner =
          .error fault next := by
        rw [startKernel_prepares]
        exact bind_error ran
      have step : MetCallStep platform caps files machine.spinner (.startKernel kid order) next :=
        ⟨⟨admissible, Or.inr ⟨fault, thrown⟩⟩, met⟩
      obtain ⟨settled, clear, others⟩ :=
        confined.prepares itself positive step rfl rfl (Or.inr ⟨fault, ran⟩)
      refine ⟨settled, clear, ?_, ?_⟩
      · intro waiting isStarting
        rw [ready] at isStarting
        cases isStarting
      · intro other launch isRunning
        obtain ⟨otherMemory, otherUploads, same⟩ := confined.running other launch isRunning
        exact ⟨otherMemory, others _ _ _ otherUploads, same⟩
  | @launch kid next launch waiting idle ran latest =>
      obtain ⟨root, memory, uploads⟩ := confined.starting kid waiting
      obtain ⟨kcb, heap, found, rootIs⟩ := uploads.has
      rw [accelStart_run found.stored] at ran
      cases ran
      cases latest
      refine ⟨confined.settled.of_same rfl rfl, confined.clear.of_same rfl rfl, ?_, ?_⟩
      · intro _ impossible
        cases impossible
      · intro other launch same
        cases same
        refine ⟨memory, ?_, ?_⟩
        · change Uploads platform memory kid kcb.top_pgtbl_pa _
          rw [rootIs]
          exact uploads.of_same rfl rfl rfl
        · change SameNodes memory machine.spinner.device.memory kcb.top_pgtbl_pa
          rw [rootIs]
          exact uploads.there.bytes
  | @write kid va pa launch byte busy bound walked =>
      obtain ⟨memory, uploads, _⟩ := confined.running kid launch busy
      have served := uploads.write confined.settled bound walked byte
      have clearNext : Clear platform holes files { machine.spinner with
          device := { machine.spinner.device with
            memory := store machine.spinner.device.memory pa [byte] } } :=
        confined.clear.of_same rfl rfl
      have others : ∀ {other root : Nat} {table : Memory},
          Uploads platform table other root machine.spinner → Uploads platform table other root _ :=
        fun otherUploads => otherUploads.served served uploads.has (fun _ => rfl) confined.clear
          clearNext
      refine ⟨confined.settled.of_same rfl rfl, clearNext, ?_, ?_⟩
      · intro other isStarting
        obtain ⟨root, table, otherUploads⟩ := confined.starting other isStarting
        exact ⟨root, table, others otherUploads⟩
      · intro other otherLaunch isRunning
        obtain ⟨table, otherUploads, same⟩ := confined.running other otherLaunch isRunning
        exact ⟨table, others otherUploads, same⟩
  | finish busy =>
      exact ⟨confined.settled, confined.clear, confined.starting, fun _ _ impossible => by
        cases impossible⟩

omit positive in
theorem Confined.spares {kid : Nat} {kcb : KernelControlBlock} {heap : HeapManager}
    (confined : Confined platform holes files machine)
    (step : Machine.Step platform caps files machine event last)
    (found : HasHeap machine.spinner.kcbs_ kid kcb heap) (apart : machine.Apart kid event) :
    Spared platform holes kid kcb.top_pgtbl_pa machine.spinner last.spinner := by
  obtain ⟨table, tabled⟩ := confined.settled.tabled
  have kernels := confined.settled.serving.kernels
  have isLive := (kernels.rooted _ _ _ found).2
  have away : ∀ {other : Nat} {otherKcb : KernelControlBlock} {otherHeap : HeapManager}
      {writes : Nat → Prop} {nodes : Bool} {next : Spinner FlatDevice},
      HasHeap machine.spinner.kcbs_ other otherKcb otherHeap → other ≠ kid →
      Served platform holes other otherKcb.top_pgtbl_pa writes nodes machine.spinner next →
      Spared platform holes kid kcb.top_pgtbl_pa machine.spinner next := by
    intro other otherKcb otherHeap writes nodes next otherFound different served
    exact served.spares kernels isLive (Ne.symm different) fun same =>
      different (kernels.apart _ _ _ _ _ _ otherFound found same.symm)
  cases step with
  | @call call next ready noStart waited step =>
      exact (step.1.done confined.settled.serving itself).spares confined.settled.serving tabled found
        apart
  | @prepared other order next ready admissible ran met =>
      obtain ⟨⟨otherKcb, otherHeap, otherFound⟩, permutes⟩ := admissible
      have served := @prepareKernel_served platform holes caps files other otherKcb.top_pgtbl_pa
        machine.spinner order itself permutes machine.spinner
        (Served.refl (confined.settled.serving.owns otherFound))
      exact away otherFound apart (served.of_ok ran)
  | @refused other order next fault ready admissible ran met =>
      obtain ⟨⟨otherKcb, otherHeap, otherFound⟩, permutes⟩ := admissible
      have served := @prepareKernel_served platform holes caps files other otherKcb.top_pgtbl_pa
        machine.spinner order itself permutes machine.spinner
        (Served.refl (confined.settled.serving.owns otherFound))
      exact away otherFound apart (served.of_error ran)
  | @launch other next launch waiting idle ran latest =>
      obtain ⟨root, memory, uploads⟩ := confined.starting other waiting
      obtain ⟨otherKcb, otherHeap, otherFound, _⟩ := uploads.has
      rw [accelStart_run otherFound.stored] at ran
      cases ran
      exact ⟨rfl, isLive, fun _ => rfl, fun _ _ => rfl, fun _ _ node _ => node, fun _ _ => rfl⟩
  | @write other va pa launch byte busy bound walked =>
      obtain ⟨memory, uploads, _⟩ := confined.running other launch busy
      obtain ⟨otherKcb, otherHeap, otherFound, rootIs⟩ := uploads.has
      have served := uploads.write confined.settled bound walked byte
      rw [← rootIs] at served
      exact away otherFound (fun same => apart launch (same ▸ busy)) served
  | finish busy => exact Spared.refl isLive

omit itself positive in
theorem Confined.walks (confined : Confined platform holes files machine) {kid : Nat}
    {launch : Launch} (busy : machine.running = some (kid, launch)) :
    ∃ kcb heap, HasHeap machine.spinner.kcbs_ kid kcb heap ∧
      kcb.top_pgtbl_pa = launch.top_pgtbl_pa ∧
      ∀ va < 2 ^ 32, walkRoot machine.spinner.device.memory va launch.top_pgtbl_pa =
          walkRoot launch.memory va launch.top_pgtbl_pa ∧
        ∀ pa, walkRoot launch.memory va launch.top_pgtbl_pa = some pa →
          machine.spinner.aspace_.translated launch.top_pgtbl_pa va = some pa := by
  obtain ⟨table, uploads, same⟩ := confined.running kid launch busy
  obtain ⟨kcb, heap, found, rootIs⟩ := uploads.has
  refine ⟨kcb, heap, found, rootIs, fun va bound => ⟨?_, ?_⟩⟩
  · rw [uploads.there.bytes.walkRoot uploads.shaped bound, same.walkRoot uploads.shaped bound]
  · intro pa walked
    rw [same.walkRoot uploads.shaped bound] at walked
    exact uploads.translated va bound pa walked

end Steps

section Runs

variable {platform : Platform} {holes : HoleList} {caps : Caps → Option Nat} {files : Files}
  {machine last : Machine} {events : List MachineEvent}

theorem new_confined (valid : platform.Valid) (device : FlatDevice) :
    Confined platform (AddressSpaceManager.new platform
      ((caps .localMemSize).getD 0)).hole_list_ files
      (Machine.new platform (flatAccelerator caps) device) where
  settled := new_settled valid (flatAccelerator caps) device
  clear := new_clear valid (flatAccelerator caps) device
  starting _ impossible := by cases impossible
  running _ _ impossible := by cases impossible

variable (itself : ∀ page, MapsItself platform ((caps .localMemSize).getD 0) page →
    MayMapItself platform holes page)
  (positive : 0 < wrap32 (platform.IO_END_ADDR - platform.IO_BASE_ADDR))

include itself positive

theorem run_confined (confined : Confined platform holes files machine)
    (run : Trace (Machine.Step platform caps files) machine events last) :
    Confined platform holes files last :=
  run.invariant (Confined platform holes files)
    (fun _ _ _ confined step => confined.step itself positive step) confined

theorem run_apart {kid : Nat} {kcb : KernelControlBlock} {heap : HeapManager}
    (confined : Confined platform holes files machine)
    (run : Trace (fun machine event next => Machine.Step platform caps files machine event next ∧
      machine.Apart kid event) machine events last)
    (found : HasHeap machine.spinner.kcbs_ kid kcb heap) :
    Spared platform holes kid kcb.top_pgtbl_pa machine.spinner last.spinner := by
  induction run with
  | nil machine => exact Spared.refl (confined.settled.serving.kernels.rooted _ _ _ found).2
  | @cons first second third event events head tail ih =>
      have spared := confined.spares itself head.1 found head.2
      exact spared.trans (ih (confined.step itself positive head.1)
        ⟨spared.slot.trans found.stored, found.has⟩)

end Runs

section Machines

variable {platform : Platform} (valid : platform.Valid) {caps : Caps → Option Nat}
  (itself : ∀ page, MapsItself platform ((caps .localMemSize).getD 0) page →
    MayMapItself platform
      (AddressSpaceManager.new platform ((caps .localMemSize).getD 0)).hole_list_ page)
  (positive : 0 < wrap32 (platform.IO_END_ADDR - platform.IO_BASE_ADDR)) (files : Files)
  (device : FlatDevice) {events : List MachineEvent} {machine : Machine}
  (setup : Trace (Machine.Step platform caps files)
    (Machine.new platform (flatAccelerator caps) device) events machine)

include valid itself positive setup

/-- Kernels are isolated in every interleaving of the calls of the host with the stores of the
running kernel: as long as nothing is done for a kernel and it stores nothing, its block and its
translations stay, and so do all bytes of its pages that may not be mapped to themselves. -/
theorem machine_isolates {later : List MachineEvent} {last : Machine} {kid : Nat}
    {kcb : KernelControlBlock} {heap : HeapManager}
    (found : HasHeap machine.spinner.kcbs_ kid kcb heap)
    (run : Trace (fun machine event next => Machine.Step platform caps files machine event next ∧
      machine.Apart kid event) machine later last) :
    last.spinner.kcbs_[kid]? = some (some kcb) ∧
      ∀ va < 2 ^ 32, last.spinner.aspace_.translated kcb.top_pgtbl_pa va =
          machine.spinner.aspace_.translated kcb.top_pgtbl_pa va ∧
        ∀ pa, machine.spinner.aspace_.translated kcb.top_pgtbl_pa va = some pa →
          ¬MayMapItself platform (AddressSpaceManager.new platform
            ((caps .localMemSize).getD 0)).hole_list_ (frameOf pa) →
          last.spinner.device.memory pa = machine.spinner.device.memory pa := by
  have confined := run_confined itself positive (new_confined valid device) setup
  have spared := run_apart itself positive confined run found
  refine ⟨spared.slot.trans found.stored, fun va bound => ⟨spared.translated va bound, ?_⟩⟩
  intro pa translated apart
  exact spared.bytes pa ⟨.page bound translated rfl, apart⟩

/-- The running kernel exists, and at every moment of its run the device walks for it the table
it was started with: neither the host nor the kernel itself has changed it. Whatever address it
stores to has been mapped by the host for this kernel. -/
theorem machine_walks {kid : Nat} {launch : Launch}
    (busy : machine.running = some (kid, launch)) :
    ∃ kcb heap, HasHeap machine.spinner.kcbs_ kid kcb heap ∧
      kcb.top_pgtbl_pa = launch.top_pgtbl_pa ∧
      ∀ va < 2 ^ 32, walkRoot machine.spinner.device.memory va launch.top_pgtbl_pa =
          walkRoot launch.memory va launch.top_pgtbl_pa ∧
        ∀ pa, walkRoot launch.memory va launch.top_pgtbl_pa = some pa →
          machine.spinner.aspace_.translated launch.top_pgtbl_pa va = some pa :=
  (run_confined itself positive (new_confined valid device) setup).walks busy

end Machines

section Small

theorem calls_whileIdle {platform : Platform} {caps : Caps → Option Nat} {files : Files}
    {state next : Spinner FlatDevice} {calls : List SpinnerCall}
    (run : Trace (MetCallStep platform caps files) state calls next)
    (noStart : ∀ call ∈ calls, call.starts = false) :
    Trace (Machine.Step platform caps files) ⟨state, none, none⟩ (calls.map .call)
      ⟨next, none, none⟩ := by
  induction run with
  | nil state => exact Trace.nil _
  | @cons first second third call calls head tail ih =>
      refine Trace.cons (.call rfl (noStart call List.mem_cons_self) ?_ head)
        (ih fun call member => noStart call (List.mem_cons_of_mem _ member))
      exact fun _ _ _ impossible => by cases impossible

theorem edge_running : ∃ (machine : Machine) (launch : Launch) (kcb : KernelControlBlock)
    (heap : HeapManager),
    Trace (Machine.Step (edgePlatform 0x4000) edgeCaps edgeFiles)
        (Machine.new (edgePlatform 0x4000) (flatAccelerator edgeCaps) blankMemory)
        [.call (.allocateKernel "kernel"), .prepare 0 id, .launch] machine ∧
      machine.running = some (0, launch) ∧ machine.starting = none ∧
      HasHeap machine.spinner.kcbs_ 0 kcb heap ∧ machine.spinner.kcbs_ = [some kcb] ∧
      machine.spinner.aspace_.hole_list_ = edgeHoles ∧
      Spare (edgePlatform 0x4000) (fun frame => edgeHoles.addrInHole frame)
        machine.spinner.aspace_.frames 4 ∧
      walkRoot machine.spinner.device.memory 0x3000 launch.top_pgtbl_pa = some 0x3000 ∧
      ∃ stack, ¬MayMapItself (edgePlatform 0x4000) edgeHoles (frameOf stack) ∧
        walkRoot machine.spinner.device.memory 0x80000 launch.top_pgtbl_pa = some stack := by
  obtain ⟨state, after, kcb, heap, setup, found, only, root, started, met, page, left, stack, isFrame,
    stackPage⟩ := edge_started
  have valid : (edgePlatform 0x4000).Valid := edgePlatform_valid (by decide) (by decide) (by decide)
  have permutes : ∀ dump : SparseScratchpad, (id dump).Perm dump := fun dump => List.Perm.refl dump
  have settled := run_settled valid (edge_itself 0x4000) (setup.mono fun _ _ _ step => step.1)
  have step : CallStep (edgePlatform 0x4000) edgeCaps edgeFiles state (.startKernel 0 id) after :=
    ⟨⟨⟨kcb, heap, found⟩, permutes⟩, Or.inl ⟨(), started⟩⟩
  have holes := (settled.step (edge_itself 0x4000) step).serving.kernels.reached.holes.trans
    (edgeHoles_new 0x4000)
  obtain ⟨owner, owned⟩ := settled.serving.kernels.reached.owned
  obtain ⟨kcbs, progress, launch, latest, launched⟩ :=
    (startKernel_spec settled.serving.kernels.reached owned found.stored
      (settled.serving.kernels.rooted _ _ _ found).2 (edge_itself 0x4000) permutes).of_ok started
  obtain ⟨again, same, stored⟩ := startKernel_memory started
  rw [latest, Option.some.injEq] at same
  rw [← same] at stored
  obtain ⟨later, laterOwned, _⟩ := progress.owned
  have sees := launched.seesTable laterOwned progress.isLive
  have walked : walkRoot after.device.memory 0x3000 launch.top_pgtbl_pa = some 0x3000 := by
    rw [← stored, sees.2 0x3000 (by decide), root]
    exact page
  have walkedStack : walkRoot after.device.memory 0x80000 launch.top_pgtbl_pa = some stack := by
    rw [← stored, sees.2 0x80000 (by decide), root]
    exact stackPage
  have apart : ¬MayMapItself (edgePlatform 0x4000) edgeHoles (frameOf stack) := by
    have same : frameOf stack = stack := by
      have aligned := isFrame.1
      unfold frameOf
      omega
    rw [same]
    rintro (inHole | outside)
    · rw [edgeHoles_above isFrame.2.1] at inHole
      cases inHole
    · exact outside isFrame
  have parts := started
  rw [startKernel_prepares] at parts
  obtain ⟨_, next, prepared, startedLast⟩ := bind_returns parts
  obtain ⟨memory, uploads⟩ := prepareKernel_uploads (edge_itself 0x4000) (by decide) settled.serving
    found permutes prepared
  obtain ⟨whole, startedWhole, _, aspace, _⟩ := prepareKernel_starts prepared uploads.has
  rw [started] at startedWhole
  cases startedWhole
  refine ⟨⟨after, none, some (0, launch)⟩, launch, kcb, heap, ?_, rfl, rfl,
    ⟨kcbs ▸ found.stored, found.has⟩, kcbs.trans only, holes, left, walked, stack, apart, walkedStack⟩
  exact (calls_whileIdle setup (by decide)).append
    (Trace.cons (.prepared rfl step.1 prepared (aspace ▸ met))
      (Trace.cons (.launch rfl rfl startedLast latest) (Trace.nil _)))

theorem edge_confined {machine : Machine} {events : List MachineEvent}
    (setup : Trace (Machine.Step (edgePlatform 0x4000) edgeCaps edgeFiles)
      (Machine.new (edgePlatform 0x4000) (flatAccelerator edgeCaps) blankMemory) events machine) :
    Confined (edgePlatform 0x4000) (AddressSpaceManager.new (edgePlatform 0x4000)
      ((edgeCaps .localMemSize).getD 0)).hole_list_ edgeFiles machine :=
  run_confined (edge_itself 0x4000) (by decide)
    (new_confined (edgePlatform_valid (by decide) (by decide) (by decide)) blankMemory) setup

theorem edge_twoKernels : ∃ (machine : Machine) (launch : Launch) (kcb other : KernelControlBlock)
    (heap : HeapManager) (root stack : Nat) (owner : Nat → Option Role),
    Trace (Machine.Step (edgePlatform 0x4000) edgeCaps edgeFiles)
        (Machine.new (edgePlatform 0x4000) (flatAccelerator edgeCaps) blankMemory)
        [.call (.allocateKernel "kernel"), .prepare 0 id, .launch, .call (.allocateKernel "other")]
        machine ∧
      machine.running = some (0, launch) ∧ machine.starting = none ∧
      HasHeap machine.spinner.kcbs_ 0 kcb heap ∧
      HasHeap machine.spinner.kcbs_ 1 other (HeapManager.new root 0x4000) ∧
      other.top_pgtbl_pa = root ∧
      machine.spinner.aspace_.hole_list_ = edgeHoles ∧
      walkRoot machine.spinner.device.memory 0x80000 launch.top_pgtbl_pa = some stack ∧
      WellOwned (edgePlatform 0x4000) (MayMapItself (edgePlatform 0x4000)
        (AddressSpaceManager.new (edgePlatform 0x4000) ((edgeCaps .localMemSize).getD 0)).hole_list_)
        owner machine.spinner.aspace_ ∧
      machine.spinner.aspace_.Live root ∧
      mapping machine.spinner.aspace_.history root (0x4000 / 4096) = none ∧
      Spare (edgePlatform 0x4000)
        (fun frame => machine.spinner.aspace_.hole_list_.addrInHole frame)
        machine.spinner.aspace_.frames 3 := by
  obtain ⟨machine, launch, kcb, heap, setup, busy, ready, kernel, only, holes, spare, _, stack, _,
    walked⟩ := edge_running
  obtain ⟨owner, owned⟩ := (edge_confined setup).settled.serving.kernels.reached.owned
  rw [← holes] at spare
  obtain ⟨root, created, later, ran, advanced, history, left⟩ :=
    @allocatePageTable_returns _ _ owner _ 3 owned spare
  have obtained := @allocateKernel_run _ machine.spinner edgeFiles "other" edgeImage root created ran
    rfl (by decide)
  have slot : machine.spinner.kcbs_.allocate = (1, [some kcb, some KernelControlBlock.empty]) := by
    rw [only]
    rfl
  rw [slot] at obtained
  let begun : Spinner FlatDevice :=
    { kcbs_ := [some kcb, some (newKcb root "other" 48 0x2FF0 0x3010)]
      aspace_ := created
      device := machine.spinner.device }
  have kernelStep : CallStep (edgePlatform 0x4000) edgeCaps edgeFiles machine.spinner
      (.allocateKernel "other") begun := by
    refine ⟨trivial, Or.inl ⟨(), ?_⟩⟩
    rw [performCall, bind_ok obtained]
    rfl
  have step : Machine.Step (edgePlatform 0x4000) edgeCaps edgeFiles machine
      (.call (.allocateKernel "other")) { machine with spinner := begun } :=
    .call ready rfl (fun _ _ impossible => by cases impossible) ⟨kernelStep, edge_met holes _ _⟩
  have isLive : created.Live root := (live_created history root).mpr (Or.inl rfl)
  have empty : mapping created.history root (0x4000 / 4096) = none := by
    rw [history]
    exact if_pos rfl
  have base : wrap32 (pageAlignUp 0x3010) = 0x4000 := by decide
  have found : HasHeap begun.kcbs_ 1 (newKcb root "other" 48 0x2FF0 0x3010)
      (HeapManager.new root 0x4000) := by
    refine ⟨rfl, ?_⟩
    change some (HeapManager.new root (wrap32 (pageAlignUp 0x3010))) = _
    rw [base]
  rw [← advanced.holes] at left
  exact ⟨_, launch, kcb, _, heap, root, stack, later, setup.snoc step, busy, ready,
    ⟨rfl, kernel.has⟩, found, rfl, advanced.holes.trans holes, walked, advanced.owned, isLive, empty,
    left⟩

theorem edge_besides : ∃ (machine : Machine) (launch : Launch) (kcb other : KernelControlBlock)
    (heap otherHeap : HeapManager) (stack pa : Nat),
    Trace (Machine.Step (edgePlatform 0x4000) edgeCaps edgeFiles)
        (Machine.new (edgePlatform 0x4000) (flatAccelerator edgeCaps) blankMemory)
        [.call (.allocateKernel "kernel"), .prepare 0 id, .launch, .call (.allocateKernel "other"),
          .call (.allocateHeap 1 16)] machine ∧
      machine.running = some (0, launch) ∧ machine.starting = none ∧
      HasHeap machine.spinner.kcbs_ 0 kcb heap ∧ HasHeap machine.spinner.kcbs_ 1 other otherHeap ∧
      machine.spinner.aspace_.hole_list_ = edgeHoles ∧
      walkRoot machine.spinner.device.memory 0x80000 launch.top_pgtbl_pa = some stack ∧
      machine.spinner.aspace_.translated other.top_pgtbl_pa 0x4000 = some pa ∧
      ¬MayMapItself (edgePlatform 0x4000) edgeHoles (frameOf pa) := by
  obtain ⟨machine, launch, kcb, other, heap, root, stack, owner, setup, busy, ready, kernel, found,
    rootIs, holes, walked, owned, isLive, empty, spare⟩ := edge_twoKernels
  have valid : (edgePlatform 0x4000).Valid := edgePlatform_valid (by decide) (by decide) (by decide)
  obtain ⟨aspace, last, pa, allocated, _, grown, mapped, next, _⟩ :=
    @HeapManager.allocate_onePage _ _
      { heap := HeapManager.new root 0x4000, aspace_ := machine.spinner.aspace_ } owner 16 1 owned isLive
      (HeapManager.new_sound root (by decide : 4096 ∣ 0x4000) (by decide)) rfl (by decide) (by decide)
      (by change 0x4000 + 0 + 4096 ≤ 2 ^ 32; decide) empty spare.forNode
  have grows := @allocateHeap_run _ machine.spinner 1 16 0x4000 _ (HeapManager.new root 0x4000)
    { heap := _, aspace_ := aspace } found.stored found.has allocated
  have heapStep : CallStep (edgePlatform 0x4000) edgeCaps edgeFiles machine.spinner
      (.allocateHeap 1 16) _ :=
    ⟨⟨_, _, found⟩, Or.inl ⟨(), by rw [performCall, bind_ok grows]; rfl⟩⟩
  have step : Machine.Step (edgePlatform 0x4000) edgeCaps edgeFiles machine
      (.call (.allocateHeap 1 16)) _ :=
    .call ready rfl (fun _ _ impossible => by cases impossible) ⟨heapStep, edge_met holes _ _⟩
  have liveNow : aspace.Live root := live_of_mapped mapped isLive
  have isFrame := next.isFrame
  have aligned : frameOf pa = pa := by
    have multiple := isFrame.1
    unfold frameOf
    omega
  have here : mapping aspace.history root (0x4000 / 4096) = some
      (makePte pa (leafFlags HeapManager.heapFlags)) := by
    rw [mapped]
    exact if_pos ⟨rfl, rfl⟩
  have translated : aspace.translated root 0x4000 = some pa :=
    grown.owned.translated_mapped liveNow here aligned (isFrame.narrow valid) (by decide) rfl
  have inside := (List.getElem?_eq_some_iff.mp found.stored).1
  refine ⟨_, launch, kcb, _, heap, _, stack, pa, setup.snoc step, busy, ready,
    ⟨(List.getElem?_set_ne (by decide)).trans kernel.stored, kernel.has⟩,
    ⟨List.getElem?_set_self inside, rfl⟩, grown.holes.trans holes, walked, ?_, ?_⟩
  · rw [← rootIs] at translated
    exact translated
  · rw [aligned]
    rintro (inHole | outside)
    · rw [edgeHoles_above isFrame.2.1] at inHole
      cases inHole
    · exact outside isFrame

/-- The running kernel stores a byte and asks for memory, and its run ends; all of this leaves the
other kernel's page of heap alone. -/
theorem machine_isolates_edge : ∃ (machine last : Machine) (other : KernelControlBlock)
    (stack pa : Nat) (middle : Machine),
    machine.running.isSome = true ∧
      Machine.Step (edgePlatform 0x4000) edgeCaps edgeFiles machine (.write 0x80000 7) middle ∧
      middle.spinner.device.memory stack = 7 ∧
      Trace (fun machine event next =>
          Machine.Step (edgePlatform 0x4000) edgeCaps edgeFiles machine event next ∧
            machine.Apart 1 event) machine [.write 0x80000 7, .call (.allocateHeap 0 16), .finish] last ∧
      last.spinner.kcbs_[1]? = some (some other) ∧
      machine.spinner.aspace_.translated other.top_pgtbl_pa 0x4000 = some pa ∧
      last.spinner.aspace_.translated other.top_pgtbl_pa 0x4000 = some pa ∧
      last.spinner.device.memory pa = machine.spinner.device.memory pa := by
  obtain ⟨machine, launch, kcb, other, heap, otherHeap, stack, pa, setup, busy, ready, kernel, found,
    holes, walked, translated, apart⟩ := edge_besides
  let stored : Machine := { machine with
    spinner := { machine.spinner with
      device := { machine.spinner.device with
        memory := store machine.spinner.device.memory stack [7] } } }
  have stores : Machine.Step (edgePlatform 0x4000) edgeCaps edgeFiles machine (.write 0x80000 7)
    stored := .write busy (by decide) walked
  obtain ⟨next, step⟩ := @callStep_exists (edgePlatform 0x4000) edgeCaps edgeFiles stored.spinner
    (.allocateHeap 0 16) ⟨kcb, heap, kernel⟩
  have grows : Machine.Step (edgePlatform 0x4000) edgeCaps edgeFiles stored
      (.call (.allocateHeap 0 16)) { stored with spinner := next } :=
    .call ready rfl (fun _ _ impossible => by cases impossible) ⟨step, edge_met holes _ _⟩
  have ends : Machine.Step (edgePlatform 0x4000) edgeCaps edgeFiles { stored with spinner := next }
    .finish { stored with spinner := next, running := none } := .finish busy
  have run : Trace (fun machine event next =>
      Machine.Step (edgePlatform 0x4000) edgeCaps edgeFiles machine event next ∧
        machine.Apart 1 event) machine [.write 0x80000 7, .call (.allocateHeap 0 16), .finish]
      { stored with spinner := next, running := none } :=
    Trace.cons ⟨stores, fun _ same => by rw [busy] at same; cases same⟩
      (Trace.cons ⟨grows, fun same => by cases same⟩ (Trace.cons ⟨ends, trivial⟩ (Trace.nil _)))
  obtain ⟨slot, pages⟩ := machine_isolates (edgePlatform_valid (by decide) (by decide) (by decide))
    (edge_itself 0x4000) (by decide) edgeFiles blankMemory setup found run
  obtain ⟨same, bytes⟩ := pages 0x4000 (by decide)
  have written : store machine.spinner.device.memory stack [7] stack = 7 := by
    rw [store, store, Function.update_self]
  rw [← edgeHoles_new 0x4000] at apart
  exact ⟨machine, _, other, stack, pa, stored, by rw [busy]; rfl, stores, written, run, slot, translated,
    same.trans translated, bytes pa translated apart⟩

/-- The kernel stores a byte through its own table. -/
theorem machine_walks_edge : ∃ (machine last : Machine) (launch : Launch),
    Machine.Step (edgePlatform 0x4000) edgeCaps edgeFiles machine (.write 0x3000 7) last ∧
      last.running = some (0, launch) ∧
      walkRoot last.spinner.device.memory 0x3000 launch.top_pgtbl_pa =
        walkRoot launch.memory 0x3000 launch.top_pgtbl_pa := by
  obtain ⟨machine, launch, kcb, heap, setup, busy, _, _, _, _, _, walked, _⟩ := edge_running
  have store : Machine.Step (edgePlatform 0x4000) edgeCaps edgeFiles machine (.write 0x3000 7) _ :=
    .write busy (by decide) walked
  obtain ⟨_, _, _, _, walks⟩ := machine_walks
    (edgePlatform_valid (by decide) (by decide) (by decide)) (edge_itself 0x4000) (by decide) edgeFiles
    blankMemory (setup.snoc store) busy
  exact ⟨machine, _, launch, store, busy, (walks 0x3000 (by decide)).1⟩

end Small

end Espiral.Spinner
