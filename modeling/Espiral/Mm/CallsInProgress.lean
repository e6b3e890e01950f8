import Espiral.Mm.LockedCalls
import Espiral.Mm.TableRelease
import Espiral.Mm.Translation

/-!
# Calls in progress

What a call knows at each of its points, and what one step of it does: to the
tables, to the frames it has in hand, and to the frames that other calls have in
hand. A frame in hand is in use and has no role yet, or none any more.
-/

namespace Espiral.AddressSpaceManager

set_option autoImplicit false

open ByteMemory Contracts MachineWords VortexMemoryAllocator

section Releases

def visits (memory : Memory) : Nat → Nat → List Nat
  | 0, _ => []
  | level + 1, pa => pa :: (validEntries memory pa).flatMap fun index =>
      if !pteIsLeaf (entryAt memory pa index) then visits memory level (ptePa (entryAt memory pa index))
      else []

def releases (memory : Memory) : Nat → Nat → List Nat
  | 0, _ => []
  | level + 1, pa => ((validEntries memory pa).flatMap fun index =>
      if !pteIsLeaf (entryAt memory pa index) then
        releases memory level (ptePa (entryAt memory pa index))
      else [ptePa (entryAt memory pa index)]) ++ [pa]

def Pending.visits (memory : Memory) : Pending → List Nat
  | .node level pa => AddressSpaceManager.visits memory level pa
  | .page _ => []

def Pending.releases (memory : Memory) : Pending → List Nat
  | .node level pa => AddressSpaceManager.releases memory level pa
  | .page addr => [addr]

end Releases

section Claims

variable (platform : Platform) (holes : HoleList)

/-- A mapping works on a live table, with a frame in hand or for the page itself. -/
structure MappingClaim (state : AddressSpaceManager) (held : Finset Nat) (map : Mapping) : Prop where
  isLive : state.Live map.root
  vaBound : map.va < 2 ^ 32
  paBound : map.pa < 2 ^ 32
  readable : map.flags &&& PteFlags.R ≠ 0
  target : frameOf map.pa ∈ held ∨
    MayMapItself platform holes (frameOf map.pa) ∧ frameOf map.pa = map.va / 4096 * 4096

/-- A node is asked for where the entry of the root is invalid. -/
def RequestClaim (state : AddressSpaceManager) (held : Finset Nat) : Request → Prop
  | .pageTable => True
  | .vmPage va root flags => state.Live root ∧ va < 2 ^ 32 ∧ flags &&& PteFlags.R ≠ 0
  | .node map level current_pa => MappingClaim platform holes state held map ∧ level = 0 ∧
      current_pa = map.root ∧ pteValid (entryAt state.view map.root (map.va / 4096 / 1024)) = false

/-- The nodes to be read are in hand, and so is every frame of the page allocator that is to be
released; none is released twice. -/
structure ReleaseClaim (state : AddressSpaceManager) (held : Finset Nat) (pending : List Pending) :
    Prop where
  nodes : ∀ pa ∈ pending.flatMap (Pending.visits state.view), pa ∈ held
  pages : ∀ addr ∈ pending.flatMap (Pending.releases state.view),
    holes.addrInHole addr = false → addr ∈ held ∨ ¬platform.IsFrame addr
  once : ((pending.flatMap (Pending.releases state.view)).filter
    fun addr => !holes.addrInHole addr).Nodup

def Claim (state : AddressSpaceManager) (held : Finset Nat) : Point → Prop
  | .idle => True
  | .asking request => RequestClaim platform holes state held request
  | .askingAgain request => RequestClaim platform holes state held request
  | .granted request pa =>
      if pa = 0 then RequestClaim platform holes state held request
      else pa ∈ held ∧ RequestClaim platform holes state (held.erase pa) request
  | .mapping map => MappingClaim platform holes state held map
  | .descending map level current_pa => MappingClaim platform holes state held map ∧
      (level = 1 ∧ current_pa = map.root ∨
        level = 0 ∧ pteValid (entryAt state.view map.root (map.va / 4096 / 1024)) = true ∧
          current_pa = ptePa (entryAt state.view map.root (map.va / 4096 / 1024)))
  | .reporting map _ => state.Live map.root
  | .translating map => state.Live map.root
  | .freeing pending => ReleaseClaim platform holes state held pending

end Claims

def Request.weight : Request → Nat
  | .pageTable => 0
  | .vmPage _ _ _ => 8
  | .node _ level _ => 3 + 4 * level

def nodeWeight : Nat → Nat
  | 0 => 1
  | level + 1 => 3 + 1024 * (nodeWeight level + 1)

def Pending.weight : Pending → Nat
  | .node level _ => nodeWeight level
  | .page _ => 1

def Point.weight : Point → Nat
  | .idle => 0
  | .asking request => request.weight + 3
  | .askingAgain request => request.weight + 2
  | .granted request _ => request.weight + 1
  | .mapping _ => 8
  | .descending _ level _ => 3 + 4 * level
  | .reporting _ _ => 2
  | .translating _ => 1
  | .freeing pending => 1 + (pending.map Pending.weight).sum

/-- What a step of a call does: the invariant holds again, what is in hand afterwards was not in
the hands of others before, and frames in the hands of others are left alone. -/
structure Handed (platform : Platform) (holes : HoleList) (owner : Nat → Option Role)
    (held : Finset Nat) (state : AddressSpaceManager) (later : Nat → Option Role)
    (inHand : Finset Nat) (next : AddressSpaceManager) : Prop where
  owned : WellOwned platform (MayMapItself platform holes) later next
  holes : next.hole_list_ = holes
  consistent : Consistent next.history
  mine : ∀ frame ∈ inHand, frame ∈ next.frames ∧ later frame = none
  fresh : ∀ frame ∈ inHand, frame ∈ held ∨ ¬(frame ∈ state.frames ∧ owner frame = none)
  others : ∀ frame ∈ state.frames, owner frame = none → frame ∉ held →
    frame ∈ next.frames ∧ later frame = none ∧
      ∀ index < 1024, entryAt next.view frame index = entryAt state.view frame index

/-- Once it has begun, a call makes no table disappear. -/
structure Stepped (platform : Platform) (holes : HoleList) (owner : Nat → Option Role)
    (held : Finset Nat) (state : AddressSpaceManager) (later : Nat → Option Role)
    (inHand : Finset Nat) (next : AddressSpaceManager) : Prop extends
    Handed platform holes owner held state later inHand next where
  live : ∀ root, state.Live root → next.Live root

def Leads (platform : Platform) (holes : HoleList) (owner : Nat → Option Role) (held : Finset Nat)
    (state : AddressSpaceManager) (point : Point) : Prop :=
  ∃ moved next later inHand, advance point state = .ok moved next ∧
    Stepped platform holes owner held state later inHand next ∧
    (point.touches = false → next.view = state.view) ∧
    match moved with
    | .to after => Claim platform holes next inHand after ∧ after.root = point.root ∧
        (after.locks = true → point.touches = true) ∧ after.weight < point.weight
    | .ended _ => inHand = ∅

structure InProgress (platform : Platform) (holes : HoleList) (owner : Nat → Option Role)
    (held : Finset Nat) (state : AddressSpaceManager) : Prop where
  owned : WellOwned platform (MayMapItself platform holes) owner state
  holes : state.hole_list_ = holes
  consistent : Consistent state.history
  mine : ∀ frame ∈ held, frame ∈ state.frames ∧ owner frame = none

section Steps

variable {platform : Platform} {holes : HoleList} {owner later : Nat → Option Role}
  {held inHand : Finset Nat} {state next : AddressSpaceManager}

/-- Nothing but the pages of the scratchpad has changed. -/
theorem InProgress.looked (progress : InProgress platform holes owner held state)
    (same : SameView state next) (kept : inHand ⊆ held) :
    Stepped platform holes owner held state owner inHand next where
  owned := progress.owned.sameView same
  holes := same.holes.trans progress.holes
  consistent := by
    rw [same.history]
    exact progress.consistent
  mine frame member := by
    rw [same.frames]
    exact progress.mine frame (kept member)
  fresh frame member := Or.inl (kept member)
  others frame used free _ := by
    rw [same.frames, same.view]
    exact ⟨used, free, fun _ _ => rfl⟩
  live root isLive := by
    rw [Live, same.history]
    exact isLive

theorem InProgress.asked (progress : InProgress platform holes owner held state)
    (pool : FramePool platform next.page_allocator_) (tables : SameTables state next)
    (grown : state.frames ⊆ next.frames) (mine : ∀ frame ∈ inHand, frame ∈ next.frames)
    (fresh : ∀ frame ∈ inHand, frame ∈ held ∨ frame ∉ state.frames) :
    Stepped platform holes owner held state owner inHand next where
  owned := progress.owned.grow ⟨grown, tables.holes, tables.history, tables.view⟩ pool
  holes := tables.holes.trans progress.holes
  consistent := by
    rw [tables.history]
    exact progress.consistent
  mine frame member := by
    refine ⟨mine frame member, ?_⟩
    cases fresh frame member with
    | inl before => exact (progress.mine frame before).2
    | inr unused => exact progress.owned.unowned unused
  fresh frame member := (fresh frame member).imp_right fun unused both => unused both.1
  others frame used free _ := by
    rw [tables.view]
    exact ⟨grown used, free, fun _ _ => rfl⟩
  live root isLive := by
    rw [Live, tables.history]
    exact isLive

/-- Claims are about the root, and those of a thread with the lock also about the entries. -/
theorem RequestClaim.kept {request : Request} (claim : RequestClaim platform holes state held request)
    (live : ∀ root, request.root = some root → state.Live root → next.Live root)
    (view : request.isNode = true → next.view = state.view) :
    RequestClaim platform holes next held request := by
  cases request with
  | pageTable => trivial
  | vmPage va root flags => exact ⟨live root rfl claim.1, claim.2⟩
  | node map level current_pa =>
      obtain ⟨mapClaim, levelIs, currentIs, missing⟩ := claim
      refine ⟨{ mapClaim with isLive := live _ rfl mapClaim.isLive }, levelIs, currentIs, ?_⟩
      rw [view rfl]
      exact missing

theorem RequestClaim.tables {request : Request} (claim : RequestClaim platform holes state held request)
    (history : next.history = state.history) (view : next.view = state.view) :
    RequestClaim platform holes next held request := by
  apply claim.kept _ fun _ => view
  intro root _ isLive
  rw [Live, history]
  exact isLive

theorem InProgress.request (progress : InProgress platform holes owner held state)
    {request : Request} (claim : RequestClaim platform holes state held request) :
    ∃ result next, onAllocator (VortexMemoryAllocator.allocate PAGE_SIZE) state = .ok result next ∧
      next.hole_list_ = holes ∧ next.view = state.view ∧
      Stepped platform holes owner held state owner held next ∧
      RequestClaim platform holes next held request ∧
      ∃ inHand, Stepped platform holes owner held state owner inHand next ∧
        Claim platform holes next inHand (.granted request (result.getD 0)) ∧
        ∀ frame, result = some frame → frame ≠ 0 := by
  obtain ⟨result, next, ran, pool, tables, outcome⟩ := allocate_run progress.owned.pool
  have claimNow := claim.tables tables.history tables.view
  have holesNow := tables.holes.trans progress.holes
  rcases outcome with ⟨frame, resultIs, nextFrame, grown⟩ | ⟨resultIs, same, _⟩
  · have larger : state.frames ⊆ next.frames := by
      rw [grown]
      exact Finset.subset_insert _ _
    have keeps := progress.asked pool tables larger
      (fun other member => larger (progress.mine other member).1) (fun other member => Or.inl member)
    have outside : frame ∉ held := fun member => nextFrame.unused (progress.mine frame member).1
    have takes : Stepped platform holes owner held state owner (insert frame held) next := by
      apply progress.asked pool tables larger
      · intro other member
        rw [grown]
        rcases Finset.mem_insert.mp member with here | before
        · rw [here]
          exact Finset.mem_insert_self _ _
        · exact Finset.mem_insert_of_mem (progress.mine other before).1
      · intro other member
        rcases Finset.mem_insert.mp member with here | before
        · rw [here]
          exact Or.inr nextFrame.unused
        · exact Or.inl before
    have positive : frame ≠ 0 := by
      have low := nextFrame.isFrame.2.1
      have base := progress.owned.pool.valid.basePositive
      omega
    refine ⟨result, next, ran, holesNow, tables.view, keeps, claimNow, insert frame held, takes, ?_,
      ?_⟩
    · rw [resultIs, Option.getD_some, Claim, if_neg positive, Finset.erase_insert outside]
      exact ⟨Finset.mem_insert_self _ _, claimNow⟩
    · intro other otherIs
      rw [resultIs, Option.some.injEq] at otherIs
      rw [← otherIs]
      exact positive
  · have unchanged : SameView state next := by
      rw [same]
      exact SameView.refl state
    have keeps := progress.looked unchanged (Finset.Subset.refl held)
    refine ⟨result, next, ran, holesNow, tables.view, keeps, claimNow, held, keeps, ?_, ?_⟩
    · rw [resultIs, Option.getD_none, Claim, if_pos rfl]
      exact claimNow
    · intro other otherIs
      rw [resultIs] at otherIs
      cases otherIs

/-- The locks and the table of a call do not change with its requests. -/
theorem leads_asking (progress : InProgress platform holes owner held state) {request : Request}
    (claim : RequestClaim platform holes state held request) :
    Leads platform holes owner held state (.asking request) := by
  obtain ⟨result, next, ran, holesNow, view, keeps, claimNow, inHand, takes, granted, _⟩ :=
    progress.request claim
  cases result with
  | none =>
      refine ⟨.to (.granted request 0), next, owner, inHand, ?_, takes, fun _ => view, granted, rfl,
        id, ?_⟩
      · rw [advance, bind_ok ran]
        rfl
      · simp only [Point.weight]
        omega
  | some pa =>
      cases inHole : next.hole_list_.addrInHole pa with
      | false =>
          have test : addrInHole pa next = .ok false next := by rw [addrInHole, inHole]
          refine ⟨.to (.granted request pa), next, owner, inHand, ?_, takes, fun _ => view, granted,
            rfl, id, ?_⟩
          · rw [advance, bind_ok ran]
            simp only
            rw [bind_ok test]
            rfl
          · simp only [Point.weight]
            omega
      | true =>
          have test : addrInHole pa next = .ok true next := by rw [addrInHole, inHole]
          refine ⟨.to (.askingAgain request), next, owner, held, ?_, keeps, fun _ => view, claimNow,
            rfl, id, ?_⟩
          · rw [advance, bind_ok ran]
            simp only
            rw [bind_ok test]
            rfl
          · simp only [Point.weight]
            omega

theorem leads_askingAgain (progress : InProgress platform holes owner held state)
    {request : Request} (claim : RequestClaim platform holes state held request) :
    Leads platform holes owner held state (.askingAgain request) := by
  obtain ⟨result, next, ran, _, view, _, _, inHand, takes, granted, _⟩ := progress.request claim
  refine ⟨.to (.granted request (result.getD 0)), next, owner, inHand, ?_, takes, fun _ => view,
    granted, rfl, id, ?_⟩
  · rw [advance, bind_ok ran]
    rfl
  · simp only [Point.weight]
    omega

theorem InProgress.ends (progress : InProgress platform holes owner held state) {point : Point}
    {outcome : Except Fault (Option Nat)} (same : SameView state next)
    (ended : advance point state = .ok (.ended outcome) next) :
    Leads platform holes owner held state point :=
  ⟨.ended outcome, next, owner, ∅, ended, progress.looked same (Finset.empty_subset held),
    fun _ => same.view, rfl⟩

theorem InProgress.aligned (progress : InProgress platform holes owner held state) {frame : Nat}
    (used : frame ∈ state.frames) : 4096 ∣ frame := (progress.owned.pool.isFrame used).1

theorem ne_of_held {frame other : Nat} (member : frame ∈ held) (outside : other ∉ held) :
    other ≠ frame := by
  intro same
  rw [same] at outside
  exact outside member

theorem leads_granted_pageTable (progress : InProgress platform holes owner held state) {pa : Nat}
    (claim : Claim platform holes state held (.granted .pageTable pa)) :
    Leads platform holes owner held state (.granted .pageTable pa) := by
  by_cases missing : pa = 0
  · have ended : advance (.granted .pageTable pa) state = .ok (.ended (.ok none)) state := by
      simp only [advance, missing, ne_eq, not_true_eq_false, if_false]
      rfl
    exact progress.ends (SameView.refl state) ended
  · rw [Claim, if_neg missing] at claim
    obtain ⟨used, free⟩ := progress.mine pa claim.1
    obtain ⟨zeroed, wrote, allocator, holeList, history, view⟩ :=
      @zeroNode_run state pa (progress.owned.narrow used)
    have frames : zeroed.frames = state.frames := by
      rw [AddressSpaceManager.frames, allocator]
      rfl
    have created : ({ zeroed with history := .created pa :: zeroed.history } :
        AddressSpaceManager).history = .created pa :: state.history :=
      congrArg (List.cons _) history
    refine ⟨.ended (.ok (some pa)), { zeroed with history := .created pa :: zeroed.history },
      Function.update owner pa (some (.root pa)), ∅, ?_, ⟨⟨?_, ?_, ?_, ?_, ?_, ?_⟩, ?_⟩, ?_, rfl⟩
    · rw [advance, if_pos missing, bind_ok wrote]
      rfl
    · exact progress.owned.add_root free used allocator created view rfl
    · exact holeList.trans progress.holes
    · rw [created]
      exact progress.consistent
    · intro frame member
      cases Finset.notMem_empty frame member
    · intro frame member
      cases Finset.notMem_empty frame member
    · intro frame inUse unowned outside
      have different := ne_of_held claim.1 outside
      refine ⟨frames.symm ▸ inUse, ?_, ?_⟩
      · rw [Function.update_of_ne different]
        exact unowned
      · intro index small
        rw [show ({ zeroed with history := .created pa :: zeroed.history } :
          AddressSpaceManager).view = zeroed.view from rfl, view,
          entryAt_store_node (progress.aligned inUse) (progress.aligned used) small,
          if_neg different]
    · intro root isLive
      rw [live_created created]
      exact Or.inr isLive
    · intro untouched
      cases untouched

theorem leads_granted_vmPage (progress : InProgress platform holes owner held state)
    {va root flags pa : Nat}
    (claim : Claim platform holes state held (.granted (.vmPage va root flags) pa)) :
    Leads platform holes owner held state (.granted (.vmPage va root flags) pa) := by
  by_cases missing : pa = 0
  · have ended : advance (.granted (.vmPage va root flags) pa) state = .ok (.ended (.error
        (.runtimeError "Failed to allocate physical page for VM"))) state := by
      rw [advance, if_pos missing]
      rfl
    exact progress.ends (SameView.refl state) ended
  · rw [Claim, if_neg missing] at claim
    obtain ⟨member, isLive, vaBound, readable⟩ := claim
    have used := (progress.mine pa member).1
    have bound : pa < 2 ^ 32 := by
      have narrow := progress.owned.narrow used
      omega
    have frame := frameOf_of_aligned (progress.aligned used)
    refine ⟨.to (.mapping ⟨va, pa, root, flags⟩), state, owner, held, ?_,
      progress.looked (SameView.refl state) (Finset.Subset.refl held), fun _ => rfl, ?_, rfl, ?_, ?_⟩
    · rw [advance, if_neg missing]
      rfl
    · exact ⟨isLive, vaBound, bound, readable, Or.inl (frame.symm ▸ member)⟩
    · intro locked
      cases locked
    · exact (by decide : 8 < 9)

theorem leads_granted_node (progress : InProgress platform holes owner held state) {map : Mapping}
    {level current_pa new_pa : Nat}
    (claim : Claim platform holes state held (.granted (.node map level current_pa) new_pa)) :
    Leads platform holes owner held state (.granted (.node map level current_pa) new_pa) := by
  by_cases missing : new_pa = 0
  · have ended : advance (.granted (.node map level current_pa) new_pa) state = .ok (.ended (.error
        (.runtimeError "Failed to allocate page table node"))) state := by
      simp only [advance, missing, ne_eq, not_true_eq_false, if_false]
      rfl
    exact progress.ends (SameView.refl state) ended
  · rw [Claim, if_neg missing] at claim
    obtain ⟨member, mapClaim, levelIs, currentIs, invalid⟩ := claim
    subst levelIs currentIs
    obtain ⟨used, free⟩ := progress.mine new_pa member
    have small : map.va / 4096 / 1024 < 1024 := by
      have bound := mapClaim.vaBound
      omega
    have rootNarrow := (progress.owned.shaped mapClaim.isLive).narrow
    obtain ⟨zeroed, linked, wroteZeros, wroteLink, allocator, holeList, history, view⟩ :=
      @linkNode_run state map.root (map.va / 4096 / 1024) new_pa rootNarrow
        (progress.owned.narrow used) small
    have frames : linked.frames = state.frames := by
      rw [AddressSpaceManager.frames, allocator]
      rfl
    have target : ptePa (makePte new_pa PteFlags.V) = new_pa := by
      have narrow := progress.owned.narrow used
      rw [ptePa_makePte (by omega), frameOf_of_aligned (progress.aligned used)]
    have live : ∀ root, state.Live root → linked.Live root := by
      intro root isLive
      rw [Live, history]
      exact isLive
    have entryNow : entryAt linked.view map.root (map.va / 4096 / 1024) =
        makePte new_pa PteFlags.V := by
      have narrow := progress.owned.narrow used
      rw [view, entryAt_store_entry (makePte_lt (by omega)), if_pos rfl]
    refine ⟨.to (.descending map 0 new_pa), linked,
      Function.update owner new_pa (some (.node map.root (map.va / 4096 / 1024))),
      held.erase new_pa, ?_, ⟨⟨?_, ?_, ?_, ?_, ?_, ?_⟩, live⟩, ?_, ⟨?_, ?_⟩, rfl, fun _ => rfl, ?_⟩
    · rw [advance, if_pos missing, bind_ok wroteZeros, vaVpn_one mapClaim.vaBound,
        entry_address rootNarrow small]
      simp only [target]
      exact bind_ok wroteLink
    · exact progress.owned.add_node mapClaim.isLive small invalid free used allocator history view rfl
    · exact holeList.trans progress.holes
    · rw [history]
      exact progress.consistent
    · intro frame kept
      obtain ⟨different, before⟩ := Finset.mem_erase.mp kept
      rw [frames, Function.update_of_ne different]
      exact progress.mine frame before
    · intro frame kept
      exact Or.inl (Finset.mem_erase.mp kept).2
    · intro frame inUse unowned outside
      have different := ne_of_held member outside
      have notRoot : frame ≠ map.root :=
        (ne_of_roles (progress.owned.roots map.root mapClaim.isLive) unowned (by simp)).symm
      refine ⟨frames.symm ▸ inUse, ?_, ?_⟩
      · rw [Function.update_of_ne different]
        exact unowned
      · intro index inside
        have narrow := progress.owned.narrow used
        rw [view, entryAt_link (progress.aligned inUse) (progress.aligned used)
          (progress.owned.root_aligned mapClaim.isLive) small (makePte_lt (by omega)) inside,
          if_neg (fun both => notRoot both.1), if_neg different]
    · intro untouched
      cases untouched
    · exact { mapClaim with isLive := live _ mapClaim.isLive }
    · refine Or.inr ⟨rfl, ?_, ?_⟩
      · rw [entryNow]
        exact (node_pte new_pa).1
      · rw [entryNow, target]
    · simp only [Point.weight, Request.weight]
      omega

theorem leads_mapping (progress : InProgress platform holes owner held state) {map : Mapping}
    (claim : MappingClaim platform holes state held map) :
    Leads platform holes owner held state (.mapping map) :=
  ⟨.to (.descending map (PT_LEVELS - 1) map.root), state, owner, held, rfl,
    progress.looked (SameView.refl state) (Finset.Subset.refl held), fun _ => rfl,
    ⟨claim, Or.inl ⟨rfl, rfl⟩⟩, rfl, fun _ => rfl, Nat.lt_succ_self 7⟩

theorem leads_descending_upper (progress : InProgress platform holes owner held state)
    {map : Mapping} (claim : MappingClaim platform holes state held map) :
    Leads platform holes owner held state (.descending map 1 map.root) := by
  have small : map.va / 4096 / 1024 < 1024 := by
    have bound := claim.vaBound
    omega
  have narrow := (progress.owned.shaped claim.isLive).narrow
  obtain ⟨read, ran, same⟩ := @readEntry_run state map.root _ narrow small
  have looked := progress.looked same (Finset.Subset.refl held)
  have claimNow : MappingClaim platform holes read held map :=
    { claim with isLive := looked.live _ claim.isLive }
  cases valid : pteValid (entryAt state.view map.root (map.va / 4096 / 1024)) with
  | true =>
      refine ⟨.to (.descending map 0 (ptePa (entryAt state.view map.root (map.va / 4096 / 1024)))),
        read, owner, held, ?_, looked, fun _ => same.view, ⟨claimNow, Or.inr ⟨rfl, ?_, ?_⟩⟩, rfl,
        fun _ => rfl, ?_⟩
      · rw [advance, vaVpn_one claim.vaBound, entry_address narrow small, bind_ok ran, valid]
        rfl
      · rw [same.view]
        exact valid
      · rw [same.view]
      · simp only [Point.weight]
        omega
  | false =>
      refine ⟨.to (.asking (.node map 0 map.root)), read, owner, held, ?_, looked,
        fun _ => same.view, ⟨claimNow, rfl, rfl, ?_⟩, rfl, fun _ => rfl, ?_⟩
      · rw [advance, vaVpn_one claim.vaBound, entry_address narrow small, bind_ok ran, valid]
        rfl
      · rw [same.view]
        exact valid
      · simp only [Point.weight, Request.weight]
        omega

theorem InProgress.leaf (progress : InProgress platform holes owner held state) {map : Mapping}
    (claim : MappingClaim platform holes state held map)
    (upper : pteValid (entryAt state.view map.root (map.va / 4096 / 1024)) = true)
    (allocator : next.page_allocator_ = state.page_allocator_)
    (holeList : next.hole_list_ = state.hole_list_)
    (history : next.history = .mapped map.root map.va map.pa map.flags :: state.history)
    (view : next.view = store state.view
      (ptePa (entryAt state.view map.root (map.va / 4096 / 1024)) + map.va / 4096 % 1024 * 4)
      (littleEndian 4 (makePte map.pa (leafFlags map.flags))))
    (unmapped : mapping state.history map.root (map.va / 4096) = none) :
    ∃ later, Stepped platform holes owner held state later ∅ next := by
  have small : map.va / 4096 / 1024 < 1024 := by
    have bound := claim.vaBound
    omega
  have nodeRole := (progress.owned.nodes _ _ claim.isLive small upper).2
  have frames : next.frames = state.frames := by
    rw [AddressSpaceManager.frames, allocator]
    rfl
  have live : ∀ root, state.Live root → next.Live root := by
    intro root isLive
    rw [Live, history]
    exact isLive
  have filled : ∀ later : Nat → Option Role, Extends owner later →
      (∀ frame role, later frame = some role → frame ∈ state.frames ∧ state.Live role.table) →
      (later (frameOf map.pa) = some (.leaf map.root (map.va / 4096)) ∨
        MayMapItself platform holes (frameOf map.pa) ∧ frameOf map.pa = map.va / 4096 * 4096) →
      (∀ frame, owner frame = none → frame ∉ held → later frame = none) →
      Stepped platform holes owner held state later ∅ next := by
    intro later extended used claimed unowned
    refine ⟨⟨?_, holeList.trans progress.holes, ?_, ?_, ?_, ?_⟩, live⟩
    · exact progress.owned.add_leaf claim.isLive claim.vaBound claim.paBound claim.readable upper rfl
        allocator history view extended used claimed
    · rw [history]
      exact ⟨unmapped, claim.paBound, progress.consistent⟩
    · intro frame member
      cases Finset.notMem_empty frame member
    · intro frame member
      cases Finset.notMem_empty frame member
    · intro frame inUse free outside
      have notNode := (ne_of_roles nodeRole free (by simp)).symm
      refine ⟨frames.symm ▸ inUse, unowned frame free outside, ?_⟩
      intro index inside
      have bound : makePte map.pa (leafFlags map.flags) < 2 ^ 32 := makePte_lt claim.paBound
      rw [view, entryAt_store_pte (progress.aligned inUse) (progress.owned.aligned nodeRole)
        (Nat.mod_lt _ (by decide)) bound inside, if_neg (fun both => notNode both.1)]
  rcases claim.target with fresh | itself
  · obtain ⟨used, free⟩ := progress.mine _ fresh
    refine ⟨_, filled (Function.update owner (frameOf map.pa) (some (.leaf map.root
      (map.va / 4096)))) (Extends.update free _)
      (progress.owned.used_update (.leaf map.root (map.va / 4096)) used claim.isLive)
      (Or.inl (Function.update_self ..)) ?_⟩
    intro frame unowned outside
    rw [Function.update_of_ne (ne_of_held fresh outside)]
    exact unowned
  · exact ⟨owner, filled owner (Extends.refl owner) progress.owned.used (Or.inr itself)
      fun _ unowned _ => unowned⟩

theorem leads_descending_lower (progress : InProgress platform holes owner held state)
    {map : Mapping} (claim : MappingClaim platform holes state held map)
    (upper : pteValid (entryAt state.view map.root (map.va / 4096 / 1024)) = true) :
    Leads platform holes owner held state
      (.descending map 0 (ptePa (entryAt state.view map.root (map.va / 4096 / 1024)))) := by
  have vaBound := claim.vaBound
  have small : map.va / 4096 / 1024 < 1024 := by omega
  have lowerSmall : map.va / 4096 % 1024 < 1024 := Nat.mod_lt _ (by decide)
  have role := (progress.owned.nodes _ _ claim.isLive small upper).2
  have narrow := progress.owned.narrow (progress.owned.used _ _ role).1
  have lookup : mapping state.history map.root (map.va / 4096) =
      if pteValid (entryAt state.view (ptePa (entryAt state.view map.root (map.va / 4096 / 1024)))
        (map.va / 4096 % 1024)) then
        some (entryAt state.view (ptePa (entryAt state.view map.root (map.va / 4096 / 1024)))
          (map.va / 4096 % 1024)) else none := by
    rw [← progress.owned.maps map.root (map.va / 4096) claim.isLive (by omega), leafOf, if_pos upper]
  revert lookup role narrow
  generalize nodeIs : ptePa (entryAt state.view map.root (map.va / 4096 / 1024)) = node
  intro role narrow lookup
  obtain ⟨read, ran, same⟩ := @readEntry_run state node _ narrow lowerSmall
  have looked := progress.looked same (Finset.Subset.refl held)
  cases valid : pteValid (entryAt state.view node (map.va / 4096 % 1024)) with
  | true =>
      refine ⟨.to (.reporting map (node + map.va / 4096 % 1024 * 4)), read, owner, held, ?_, looked,
        fun _ => same.view, looked.live _ claim.isLive, rfl, ?_, ?_⟩
      · simp only [advance]
        rw [vaVpn_zero, entry_address narrow lowerSmall, bind_ok ran, valid]
        rfl
      · intro locked
        cases locked
      · exact (by decide : 2 < 3)
  | false =>
      obtain ⟨written, wrote, allocator, holeList, history, view⟩ :=
        @writePte_run read node (map.va / 4096 % 1024)
          (makePte map.pa (leafFlags map.flags)) narrow lowerSmall
      have unmapped : mapping state.history map.root (map.va / 4096) = none := by
        rw [lookup, valid]
        rfl
      obtain ⟨later, stepped⟩ := @InProgress.leaf _ _ _ _ _
        { written with history := .mapped map.root map.va map.pa map.flags :: written.history }
        progress map claim upper (allocator.trans same.allocator) (holeList.trans same.holes)
        (congrArg (List.cons _) (history.trans same.history))
        (by
          rw [nodeIs, ← same.view]
          exact view) unmapped
      refine ⟨.ended (.ok none), _, later, ∅, ?_, stepped, ?_, rfl⟩
      · simp only [advance]
        rw [vaVpn_zero, entry_address narrow lowerSmall, bind_ok ran, valid]
        exact bind_ok wrote
      · intro untouched
        cases untouched

/-- The entry that is there already is read again, without the lock, and the page is looked up. -/
theorem leads_reporting (progress : InProgress platform holes owner held state) {map : Mapping}
    (isLive : state.Live map.root) {pte_addr : Nat} :
    Leads platform holes owner held state (.reporting map pte_addr) := by
  obtain ⟨_, read, _, ran, _, kept, _⟩ := readPte_bytes (fun _ => rfl : ∀ addr,
    state.scratchpad_.byteAt addr = state.scratchpad_.byteAt addr) pte_addr
  have looked := progress.looked kept.sameView (Finset.Subset.refl held)
  refine ⟨.to (.translating map), read, owner, held, ?_, looked, fun _ => kept.sameView.view,
    looked.live _ isLive, rfl, ?_, Nat.lt_succ_self 1⟩
  · rw [advance, bind_ok ran]
    rfl
  · intro locked
    cases locked

theorem leads_translating (progress : InProgress platform holes owner held state) {map : Mapping} :
    Leads platform holes owner held state (.translating map) := by
  obtain ⟨last, translates, kept⟩ := translate_returns state map.root map.va
  have ended : advance (.translating map) state = .ok (.ended (.error
      (.runtimeError "Virtual address already mapped"))) last := by
    rw [advance, bind_ok translates]
    rfl
  exact progress.ends kept.sameView ended

end Steps

end Espiral.AddressSpaceManager
