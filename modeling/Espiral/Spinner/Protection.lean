import Espiral.Spinner.KernelSlots

/-!
# Protection of kernels

Calls for other kernels, returning or not, leave a kernel alone: its block, its
translations, the bytes of its pages and the nodes of its table on the device.
Only pages that are mapped to themselves are shared.
-/

namespace Espiral.Spinner

set_option autoImplicit false

open AddressSpaceManager Contracts MachineWords Traces

/-- A byte of a page or of a node of the table, and of no page that may be mapped to itself. -/
def Held (platform : Platform) (holes : HoleList) (aspace : AddressSpaceManager) (root addr : Nat) :
    Prop := Touched aspace root true addr ∧ ¬MayMapItself platform holes (frameOf addr)

structure Spared (platform : Platform) (holes : HoleList) (kid root : Nat)
    (start state : Spinner FlatDevice) : Prop where
  slot : state.kcbs_[kid]? = start.kcbs_[kid]?
  isLive : state.aspace_.Live root
  mapped : ∀ page, mapping state.aspace_.history root page =
    mapping start.aspace_.history root page
  translated : ∀ va < 2 ^ 32, state.aspace_.translated root va = start.aspace_.translated root va
  nodes : ∀ frame role, NodeAt start.aspace_ frame role → role.table = root →
    NodeAt state.aspace_ frame role
  bytes : ∀ addr, Held platform holes start.aspace_ root addr →
    state.device.memory addr = start.device.memory addr

section Relation

variable {platform : Platform} {holes : HoleList} {kid root addr : Nat}
  {start state next : Spinner FlatDevice}

theorem Spared.refl (isLive : state.aspace_.Live root) :
    Spared platform holes kid root state state :=
  ⟨rfl, isLive, fun _ => rfl, fun _ _ => rfl, fun _ _ node _ => node, fun _ _ => rfl⟩

theorem Spared.held (spared : Spared platform holes kid root start state)
    (held : Held platform holes start.aspace_ root addr) :
    Held platform holes state.aspace_ root addr := by
  obtain ⟨touched, apart⟩ := held
  refine ⟨?_, apart⟩
  cases touched with
  | page bound found frame => exact .page bound ((spared.translated _ bound).trans found) frame
  | node allowed node mine => exact .node allowed (spared.nodes _ _ node mine) mine

theorem Spared.trans (left : Spared platform holes kid root start state)
    (right : Spared platform holes kid root state next) :
    Spared platform holes kid root start next where
  slot := right.slot.trans left.slot
  isLive := right.isLive
  mapped page := (right.mapped page).trans (left.mapped page)
  translated va bound := (right.translated va bound).trans (left.translated va bound)
  nodes frame role node mine := right.nodes frame role (left.nodes frame role node mine) mine
  bytes addr held := (right.bytes addr (left.held held)).trans (left.bytes addr held)

end Relation

section Steps

variable {platform : Platform} {holes : HoleList} {caps : Caps → Option Nat} {files : Files}
  {owner : Nat → Option Role} {table : Nat → Nat} {state next : Spinner FlatDevice}
  {call : SpinnerCall} {kid root addr : Nat} {kcb : KernelControlBlock} {heap : HeapManager}

theorem Held.owned {aspace : AddressSpaceManager} (held : Held platform holes aspace root addr)
    (owned : WellOwned platform (MayMapItself platform holes) owner aspace)
    (isLive : aspace.Live root) : ∃ role, owner (frameOf addr) = some role ∧ role.table = root := by
  obtain ⟨touched, apart⟩ := held
  cases touched with
  | page bound found frame =>
      rw [← frame] at apart ⊢
      cases (owned.translated_owner isLive bound found).2 with
      | inl mine => exact ⟨_, mine, rfl⟩
      | inr itself => exact absurd itself.1 apart
  | node _ node mine => exact ⟨_, owned.owns_node node, mine⟩

/-- What a call for one kernel has touched, no other kernel holds. -/
theorem Touched.apart {aspace : AddressSpaceManager} {other : Nat} {nodes : Bool}
    (touched : Touched aspace other nodes addr) (different : root ≠ other)
    (owned : WellOwned platform (MayMapItself platform holes) owner aspace)
    (isLive : aspace.Live root) (otherLive : aspace.Live other) :
    ¬Held platform holes aspace root addr := by
  intro held
  obtain ⟨role, has, mine⟩ := held.owned owned isLive
  have whole : Touched aspace other true addr := by
    cases touched with
    | page bound found frame => exact .page bound found frame
    | node allowed node theirs => exact .node rfl node theirs
  have theirHeld : Held platform holes aspace other addr := ⟨whole, held.2⟩
  obtain ⟨otherRole, otherHas, theirs⟩ := theirHeld.owned owned otherLive
  rw [has, Option.some.injEq] at otherHas
  rw [otherHas] at mine
  exact different (mine.symm.trans theirs)

theorem Served.spares {other otherRoot : Nat} {writes : Nat → Prop} {nodes : Bool}
    (served : Served platform holes other otherRoot writes nodes state next)
    (kernels : Kernels platform (MayMapItself platform holes) holes state.kcbs_ state.aspace_)
    (isLive : state.aspace_.Live root) (otherKid : kid ≠ other) (otherTable : root ≠ otherRoot) :
    Spared platform holes kid root state next where
  slot := served.slots kid otherKid
  isLive := served.work.entries.live root isLive
  mapped page := served.work.others root otherTable page
  translated va bound :=
    served.work.translated_others kernels.reached otherTable isLive bound
  nodes frame role node _ := node.kept served.work.entries
  bytes addr held := by
    by_contra changed
    obtain ⟨later, owned⟩ := served.owns.reached.owned
    have stillLive := served.work.entries.live root isLive
    apply (served.bytes addr changed).touched.apart otherTable owned stillLive served.owns.isLive
    obtain ⟨touched, apart⟩ := held
    exact ⟨touched.kept kernels.reached isLive served.work, apart⟩

theorem spared_of_history {aspace : AddressSpaceManager} {kcbs : Kcbs} {later : Nat → Option Role}
    (owned : WellOwned platform (MayMapItself platform holes) owner state.aspace_)
    (laterOwned : WellOwned platform (MayMapItself platform holes) later aspace)
    (isLive : state.aspace_.Live root) (stillLive : aspace.Live root)
    (slot : kcbs[kid]? = state.kcbs_[kid]?)
    (same : ∀ page, mapping aspace.history root page = mapping state.aspace_.history root page)
    (nodes : ∀ frame role, NodeAt state.aspace_ frame role → role.table = root →
      NodeAt aspace frame role) :
    Spared platform holes kid root state { state with kcbs_ := kcbs, aspace_ := aspace } where
  slot := slot
  isLive := stillLive
  mapped := same
  translated va bound := by
    rw [laterOwned.translated_mapping stillLive bound, owned.translated_mapping isLive bound, same]
  nodes := nodes
  bytes _ _ := rfl

theorem Done.spares (done : Done platform holes files state call next)
    (serving : Serving platform holes files state)
    (tabled : Tabled table state.kcbs_ state.aspace_) (found : HasHeap state.kcbs_ kid kcb heap)
    (other : call.kernel ≠ some kid) :
    Spared platform holes kid kcb.top_pgtbl_pa state next := by
  have isLive := (serving.kernels.rooted _ _ _ found).2
  obtain ⟨owner, owned⟩ := serving.kernels.reached.owned
  obtain ⟨_, taken, _⟩ := tabled.slot serving
  have away : kid ≠ freeSlot state.kcbs_ := by
    intro here
    exact freeSlot_vacant (here ▸ (⟨kcb, found.stored⟩ : Occupied state.kcbs_ kid))
  have slot : ∀ block, (state.kcbs_.allocate.2.set state.kcbs_.allocate.1 block)[kid]? =
      state.kcbs_[kid]? := by
    intro block
    rw [taken, List.getElem?_set_ne (Ne.symm away), allocate_ne away]
  -- whichever frame the new table gets, the one of the kernel keeps its entries
  have created : ∀ {result : Option Nat} {aspace : AddressSpaceManager} {kcbs : Kcbs},
      AddressSpaceManager.allocatePageTable state.aspace_ = .ok result aspace →
      kcbs[kid]? = state.kcbs_[kid]? →
      Spared platform holes kid kcb.top_pgtbl_pa state
        { state with kcbs_ := kcbs, aspace_ := aspace } := by
    intro result aspace kcbs ran slotKept
    have entries := ((allocatePageTable_keeps owned.separated owned.handsOutUnlinked).of_ok
      ran).entries
    obtain ⟨_, _, again, later, advanced, _, outcome⟩ := allocatePageTable_spec owned
    rw [ran] at again
    cases again
    apply spared_of_history owned advanced.owned isLive (entries.live _ isLive) slotKept
    · intro page
      rcases outcome with ⟨_, same⟩ | ⟨root, _, fresh, history⟩
      · rw [same]
      · rw [history, mapping, if_neg]
        intro same
        exact fresh (same ▸ (owned.used _ _ (owned.roots _ isLive)).1)
    · exact fun frame role node _ => node.kept entries
  cases done with
  | refused ran => exact created ran (slot none)
  | abandoned ran => exact created ran (allocate_ne away)
  | stored ran _ _ => exact created ran (slot _)
  | @served call next otherKid otherKcb otherHeap kernel _ otherFound served =>
      have different : kid ≠ otherKid := by
        intro same
        exact other (same ▸ kernel)
      apply served.spares serving.kernels isLive different
      exact fun same => different (serving.kernels.apart _ _ _ _ _ _ found otherFound same)
  | @freed otherKid otherKcb otherHeap aspace otherFound ran =>
      have different : kid ≠ otherKid := by
        intro same
        exact other (congrArg some same.symm)
      have otherTable : kcb.top_pgtbl_pa ≠ otherKcb.top_pgtbl_pa := fun same =>
        different (serving.kernels.apart _ _ _ _ _ _ found otherFound same)
      obtain ⟨after, again, laterOwned, _, history, _⟩ := freePageTable_spec owned
        (fun _ itself => by rw [serving.kernels.reached.holes]; exact itself)
        (serving.kernels.rooted _ _ _ otherFound).2
      rw [ran] at again
      cases again
      have view := freePageTable_view.of_ok ran
      have stillLive := (live_freed history _).mpr ⟨otherTable, isLive⟩
      apply spared_of_history owned laterOwned isLive stillLive
      · exact List.getElem?_set_ne (Ne.symm different)
      · intro page
        rw [history, mapping, if_neg (Ne.symm otherTable)]
      · intro frame role node mine
        cases node with
        | root _ =>
            have here : frame = kcb.top_pgtbl_pa := mine
            rw [here]
            exact NodeAt.root stillLive
        | @node table index _ small valid =>
            have here : table = kcb.top_pgtbl_pa := mine
            rw [← view] at valid ⊢
            exact NodeAt.node (here ▸ stillLive) small valid

end Steps

section Runs

variable {platform : Platform} {holes : HoleList} {caps : Caps → Option Nat} {files : Files}
  {state last : Spinner FlatDevice} {calls : List SpinnerCall} {kid : Nat}
  {kcb : KernelControlBlock} {heap : HeapManager}

theorem run_spares (settled : Settled platform holes files state)
    (itself : ∀ page, MapsItself platform ((caps .localMemSize).getD 0) page →
      MayMapItself platform holes page)
    (run : Trace (CallStep platform caps files) state calls last)
    (found : HasHeap state.kcbs_ kid kcb heap) (others : ∀ call ∈ calls, call.kernel ≠ some kid) :
    Spared platform holes kid kcb.top_pgtbl_pa state last := by
  induction run with
  | nil state => exact Spared.refl (settled.serving.kernels.rooted _ _ _ found).2
  | @cons first second third call calls head tail ih =>
      obtain ⟨table, tabled⟩ := settled.tabled
      have spared := (head.done settled.serving itself).spares settled.serving tabled found
        (others call List.mem_cons_self)
      have still : HasHeap second.kcbs_ kid kcb heap := ⟨spared.slot.trans found.stored, found.has⟩
      exact spared.trans (ih (settled.step itself head) still
        fun call member => others call (List.mem_cons_of_mem _ member))

end Runs

/-- Whatever calls for other kernels are made in any state of any run, returning or not: the block
of a kernel and its translations stay, and so do the bytes of all its pages that may not be mapped
to themselves; a download of such pages returns the same before and after. -/
theorem kernels_undisturbed {platform : Platform} (valid : platform.Valid)
    {caps : Caps → Option Nat}
    (itself : ∀ page, MapsItself platform ((caps .localMemSize).getD 0) page →
      MayMapItself platform
        (AddressSpaceManager.new platform ((caps .localMemSize).getD 0)).hole_list_ page)
    (files : Files) (device : FlatDevice) {before calls : List SpinnerCall}
    {state last : Spinner FlatDevice}
    (setup : Trace (CallStep platform caps files)
      (Spinner.new platform (flatAccelerator caps) device) before state)
    (run : Trace (CallStep platform caps files) state calls last) {kid : Nat}
    {kcb : KernelControlBlock} {heap : HeapManager} (found : HasHeap state.kcbs_ kid kcb heap)
    (others : ∀ call ∈ calls, call.kernel ≠ some kid) :
    last.kcbs_[kid]? = some (some kcb) ∧
      (∀ va < 2 ^ 32, last.aspace_.translated kcb.top_pgtbl_pa va =
        state.aspace_.translated kcb.top_pgtbl_pa va) ∧
      (∀ va < 2 ^ 32, ∀ pa, state.aspace_.translated kcb.top_pgtbl_pa va = some pa →
        ¬MayMapItself platform (AddressSpaceManager.new platform
          ((caps .localMemSize).getD 0)).hole_list_ (frameOf pa) →
        last.device.memory pa = state.device.memory pa) ∧
      ∀ va (dest : List UInt8), va + dest.length ≤ 2 ^ 32 →
        (∀ index < dest.length, ∃ pa,
          state.aspace_.translated kcb.top_pgtbl_pa (va + index) = some pa ∧
            ¬MayMapItself platform (AddressSpaceManager.new platform
              ((caps .localMemSize).getD 0)).hole_list_ (frameOf pa)) →
        ∃ bytes, (∃ after, download (flatAccelerator caps) kid va dest state = .ok bytes after) ∧
          ∃ after, download (flatAccelerator caps) kid va dest last = .ok bytes after := by
  have spared := run_spares (run_settled valid itself setup) itself run found others
  have stored := spared.slot.trans found.stored
  have bytes : ∀ va < 2 ^ 32, ∀ pa, state.aspace_.translated kcb.top_pgtbl_pa va = some pa →
      ¬MayMapItself platform (AddressSpaceManager.new platform
        ((caps .localMemSize).getD 0)).hole_list_ (frameOf pa) →
      last.device.memory pa = state.device.memory pa :=
    fun va bound pa translated apart => spared.bytes pa ⟨.page bound translated rfl, apart⟩
  refine ⟨stored, spared.translated, bytes, ?_⟩
  intro va dest narrow mapped
  have inRange : ∀ addr, va ≤ addr → addr < va + dest.length → ∃ pa,
      state.aspace_.translated kcb.top_pgtbl_pa addr = some pa ∧
        last.aspace_.translated kcb.top_pgtbl_pa addr = some pa := by
    intro addr low high
    obtain ⟨pa, translated, _⟩ := mapped (addr - va) (by omega)
    rw [Nat.add_sub_cancel' low] at translated
    exact ⟨pa, translated, (spared.translated addr (by omega)).trans translated⟩
  obtain ⟨first, ran, _⟩ := download_copies caps found.stored narrow
    (fun addr low high => by
      obtain ⟨pa, translated, _⟩ := inRange addr low high
      rw [translated, Option.isSome_some]) rfl
  obtain ⟨second, again, _⟩ := download_copies caps stored narrow
    (fun addr low high => by
      obtain ⟨pa, _, translated⟩ := inRange addr low high
      rw [translated, Option.isSome_some]) rfl
  refine ⟨_, ⟨first, ran⟩, second, ?_⟩
  rw [again]
  congr 1
  apply List.map_congr_left
  intro index inside
  obtain ⟨pa, translated, apart⟩ := mapped index (List.mem_range.mp inside)
  have small := List.mem_range.mp inside
  rw [spared.translated _ (by omega), translated, Option.getD_some]
  exact bytes _ (by omega) pa translated apart

section Small

theorem kernels_undisturbed_heap : ∃ (state last : Spinner FlatDevice) (bytes : List UInt8),
    Trace (CallStep smallPlatform (fun _ => none) (fun _ => some emptyImage)) state
        [.allocateKernel "other", .allocateKernel "third"] last ∧
      (∃ after, download (flatAccelerator fun _ => none) 0 0x10000 (List.replicate 16 0) state =
        .ok bytes after) ∧
      ∃ after, download (flatAccelerator fun _ => none) 0 0x10000 (List.replicate 16 0) last =
        .ok bytes after := by
  obtain ⟨state, kcb, heap, setup, found, mapped⟩ := smallPlatform_heapKernel
  obtain ⟨between, first⟩ := @callStep_exists smallPlatform (fun _ => none)
    (fun _ => some emptyImage) state (.allocateKernel "other") trivial
  obtain ⟨last, second⟩ := @callStep_exists smallPlatform (fun _ => none)
    (fun _ => some emptyImage) between (.allocateKernel "third") trivial
  have run := Trace.cons first (Trace.cons second (Trace.nil last))
  obtain ⟨_, _, _, downloads⟩ := @kernels_undisturbed smallPlatform smallPlatform_valid
    (fun _ => none) smallPlatform_itself (fun _ => some emptyImage) smallDevice _ _ state last setup
    run 0 kcb heap found (by
      intro call member
      rcases List.mem_cons.mp member with same | rest
      · rw [same]
        exact fun impossible => by cases impossible
      · rw [List.mem_singleton.mp rest]
        exact fun impossible => by cases impossible)
  obtain ⟨bytes, before, after⟩ := downloads 0x10000 (List.replicate 16 0) (by decide)
    (by rw [List.length_replicate]; exact mapped)
  exact ⟨state, last, bytes, run, before, after⟩

end Small

end Espiral.Spinner
