import Espiral.Mm.AddressSpaceSteps

/-!
# Translation of arbitrary addresses

Whatever the bytes of the scratchpad are, a translation reads only, its result
depends on these bytes alone, and all addresses of one page are translated
together.
-/

namespace Espiral.AddressSpaceManager

set_option autoImplicit false

open ByteMemory Contracts MachineWords

def translated (state : AddressSpaceManager) (top_pgtbl_pa va : Nat) : Option Nat :=
  match translate va top_pgtbl_pa state with
  | .ok found _ => found
  | .error _ _ => none

/-- Reads may have created pages; no byte differs. -/
structure ReadOnly (state next : AddressSpaceManager) : Prop where
  allocator : next.page_allocator_ = state.page_allocator_
  holes : next.hole_list_ = state.hole_list_
  history : next.history = state.history
  bytes : ∀ addr, next.scratchpad_.byteAt addr = state.scratchpad_.byteAt addr

section Reads

variable {state next first second : AddressSpaceManager}

theorem ReadOnly.refl (state : AddressSpaceManager) : ReadOnly state state :=
  ⟨rfl, rfl, rfl, fun _ => rfl⟩

theorem ReadOnly.trans {third : AddressSpaceManager} (left : ReadOnly first second)
    (right : ReadOnly second third) : ReadOnly first third where
  allocator := right.allocator.trans left.allocator
  holes := right.holes.trans left.holes
  history := right.history.trans left.history
  bytes addr := (right.bytes addr).trans (left.bytes addr)

theorem ReadOnly.sameView (kept : ReadOnly state next) : SameView state next where
  allocator := kept.allocator
  holes := kept.holes
  history := kept.history
  view := by
    funext addr
    simp only [AddressSpaceManager.view, ScratchpadMemory.view, kept.bytes addr]

/-- What is read depends on the bytes only, and reading changes none of them. -/
theorem read_bytes {left right : ScratchpadMemory}
    (same : ∀ addr, right.byteAt addr = left.byteAt addr) (addr size : Nat) :
    (right.read addr size).1 = (left.read addr size).1 ∧
      (∀ other, (left.read addr size).2.byteAt other = left.byteAt other) ∧
      ∀ other, (right.read addr size).2.byteAt other = right.byteAt other := by
  induction size generalizing addr left right with
  | zero => exact ⟨rfl, fun _ => rfl, fun _ => rfl⟩
  | succ size ih =>
      have kept : ∀ (memory : ScratchpadMemory) other,
          (memory.readByte addr).2.byteAt other = memory.byteAt other :=
        fun _ _ => ScratchpadMemory.byteAt_getPageOrElseCreate _
      have here : (right.readByte addr).1 = (left.readByte addr).1 := same addr
      have rest := @ih (left.readByte addr).2 (right.readByte addr).2
        (fun other => by rw [kept, kept, same]) (add64 addr 1)
      simp only [ScratchpadMemory.read]
      refine ⟨by rw [here, rest.1], ?_, ?_⟩
      · intro other
        rw [rest.2.1, kept]
      · intro other
        rw [rest.2.2, kept]

theorem readScratchpad_only (addr size : Nat) :
    ∃ data next, readScratchpad addr size state = .ok data next ∧ ReadOnly state next :=
  ⟨_, _, rfl, rfl, rfl, rfl,
    (@read_bytes state.scratchpad_ state.scratchpad_ (fun _ => rfl) addr size).2.1⟩

theorem readPte_bytes (same : ∀ addr, second.scratchpad_.byteAt addr = first.scratchpad_.byteAt addr)
    (addr : Nat) : ∃ pte afterFirst afterSecond, readPte addr first = .ok pte afterFirst ∧
      readPte addr second = .ok pte afterSecond ∧ ReadOnly first afterFirst ∧
      ReadOnly second afterSecond := by
  obtain ⟨read, firstKept, secondKept⟩ := read_bytes same addr PTE_SIZE
  refine ⟨ofLittleEndian (first.scratchpad_.read addr PTE_SIZE).1,
    { first with scratchpad_ := (first.scratchpad_.read addr PTE_SIZE).2 },
    { second with scratchpad_ := (second.scratchpad_.read addr PTE_SIZE).2 }, rfl, ?_,
    ⟨rfl, rfl, rfl, firstKept⟩, ⟨rfl, rfl, rfl, secondKept⟩⟩
  rw [← read]
  rfl

theorem walkFrom_bytes (va : Nat) {level current_pa : Nat}
    (same : ∀ addr, second.scratchpad_.byteAt addr = first.scratchpad_.byteAt addr) :
    ∃ afterFirst afterSecond, ReadOnly first afterFirst ∧ ReadOnly second afterSecond ∧
      ((∃ pa, walkFrom va level current_pa first = .ok pa afterFirst ∧
          walkFrom va level current_pa second = .ok pa afterSecond) ∨
        ∃ message, walkFrom va level current_pa first = .error (.pageFault message) afterFirst ∧
          walkFrom va level current_pa second = .error (.pageFault message) afterSecond) := by
  induction level generalizing current_pa first second with
  | zero => exact ⟨first, second, ReadOnly.refl _, ReadOnly.refl _, Or.inr ⟨_, rfl, rfl⟩⟩
  | succ level ih =>
      obtain ⟨pte, readFirst, readSecond, ranFirst, ranSecond, keptFirst, keptSecond⟩ :=
        readPte_bytes same (wrap32 (current_pa + vaVpn va level * PTE_SIZE))
      rw [walkFrom, bind_ok ranFirst, bind_ok ranSecond]
      obtain ⟨lastFirst, lastSecond, laterFirst, laterSecond, outcome⟩ :=
        @ih readFirst readSecond (ptePa pte)
          (fun addr => by rw [keptSecond.bytes, keptFirst.bytes, same])
      simp only
      split
      · exact ⟨_, _, keptFirst, keptSecond, Or.inr ⟨_, rfl, rfl⟩⟩
      · split
        · exact ⟨_, _, keptFirst, keptSecond, Or.inr ⟨_, rfl, rfl⟩⟩
        · split
          · split
            · exact ⟨_, _, keptFirst, keptSecond, Or.inr ⟨_, rfl, rfl⟩⟩
            · split
              · split
                · exact ⟨_, _, keptFirst, keptSecond, Or.inr ⟨_, rfl, rfl⟩⟩
                · exact ⟨_, _, keptFirst, keptSecond, Or.inl ⟨_, rfl, rfl⟩⟩
              · exact ⟨_, _, keptFirst, keptSecond, Or.inl ⟨_, rfl, rfl⟩⟩
          · exact ⟨lastFirst, lastSecond, keptFirst.trans laterFirst,
              keptSecond.trans laterSecond, outcome⟩

theorem translate_returns (state : AddressSpaceManager) (root va : Nat) :
    ∃ next, translate va root state = .ok (state.translated root va) next ∧ ReadOnly state next := by
  obtain ⟨next, _, kept, _, outcome⟩ :=
    @walkFrom_bytes state state va PT_LEVELS root fun _ => rfl
  refine ⟨next, ?_, kept⟩
  rw [translated, translate, pageTableWalk]
  rcases outcome with ⟨pa, ran, _⟩ | ⟨message, ran, _⟩
  · rw [ran]
  · rw [ran]

theorem translated_bytes
    (same : ∀ addr, next.scratchpad_.byteAt addr = state.scratchpad_.byteAt addr) (root va : Nat) :
    next.translated root va = state.translated root va := by
  obtain ⟨_, _, _, _, outcome⟩ := @walkFrom_bytes state next va PT_LEVELS root same
  rw [translated, translated, translate, translate, pageTableWalk]
  rcases outcome with ⟨pa, ran, again⟩ | ⟨message, ran, again⟩
  · rw [ran, again]
  · rw [ran, again]

end Reads

section Pages

variable {state : AddressSpaceManager} {va other : Nat}

theorem vaVpn_page (same : other / 4096 = va / 4096) (level : Nat) :
    vaVpn other level = vaVpn va level := by
  have shift : ∀ addr : Nat, addr >>> (12 + level * VPN_BITS) =
      (addr / 4096) >>> (level * VPN_BITS) := by
    intro addr
    rw [Nat.shiftRight_add, Nat.shiftRight_eq_div_pow addr 12]
  rw [vaVpn, vaVpn, shift, shift, same]

/-- The address bits below a mask that covers the page offset. -/
theorem masked_page {frame mask : Nat} (aligned : frame % 4096 = 0) (covers : mask % 4096 = 4095)
    (same : other / 4096 = va / 4096) :
    (frame ||| (va &&& mask)) % 4096 = va % 4096 ∧
      frame ||| (other &&& mask) = (frame ||| (va &&& mask)) / 4096 * 4096 + other % 4096 := by
  have low : ∀ addr : Nat, (frame ||| (addr &&& mask)) % 2 ^ 12 = addr % 4096 := by
    intro addr
    have ones : (4095 : Nat) = 2 ^ 12 - 1 := rfl
    rw [Nat.or_mod_two_pow, Nat.and_mod_two_pow]
    change frame % 4096 ||| (addr % 4096 &&& mask % 4096) = _
    rw [aligned, covers, Nat.zero_or, ones, Nat.and_two_pow_sub_one_eq_mod, Nat.mod_mod]
  have high : (frame ||| (other &&& mask)) / 2 ^ 12 = (frame ||| (va &&& mask)) / 2 ^ 12 := by
    rw [Nat.or_div_two_pow, Nat.or_div_two_pow, Nat.and_div_two_pow, Nat.and_div_two_pow]
    change _ ||| (other / 4096 &&& _) = _ ||| (va / 4096 &&& _)
    rw [same]
  have here := low va
  have there := low other
  omega

theorem walkFrom_page (same : other / 4096 = va / 4096) {level current_pa : Nat} :
    (∃ pa next, walkFrom va level current_pa state = .ok pa next ∧ pa % 4096 = va % 4096 ∧
        walkFrom other level current_pa state = .ok (pa / 4096 * 4096 + other % 4096) next) ∨
      ∃ message next, walkFrom va level current_pa state = .error (.pageFault message) next ∧
        walkFrom other level current_pa state = .error (.pageFault message) next := by
  induction level generalizing current_pa state with
  | zero => exact Or.inr ⟨_, state, rfl, rfl⟩
  | succ level ih =>
      obtain ⟨pte, read, _, ran, _⟩ := @readPte_bytes state state (fun _ => rfl)
        (wrap32 (current_pa + vaVpn va level * PTE_SIZE))
      have aligned : ptePa pte % 4096 = 0 := Nat.mod_eq_zero_of_dvd (ptePa_aligned pte)
      rw [walkFrom, walkFrom, vaVpn_page same, bind_ok ran, bind_ok ran]
      simp only
      split
      · exact Or.inr ⟨_, read, rfl, rfl⟩
      · split
        · exact Or.inr ⟨_, read, rfl, rfl⟩
        · split
          · split
            · exact Or.inr ⟨_, read, rfl, rfl⟩
            · split
              · split
                · exact Or.inr ⟨_, read, rfl, rfl⟩
                · have covers : (1 <<< (12 + level * VPN_BITS) - 1) % 4096 = 4095 := by
                    rw [Nat.one_shiftLeft, pow_add]
                    have positive : 0 < 2 ^ (level * VPN_BITS) := by positivity
                    omega
                  have cleared : (ptePa pte &&&
                      (2 ^ 32 - 1 - (1 <<< (12 + level * VPN_BITS) - 1))) % 4096 = 0 := by
                    change _ % 2 ^ 12 = 0
                    rw [Nat.and_mod_two_pow]
                    change ptePa pte % 4096 &&& _ = 0
                    rw [aligned, Nat.zero_and]
                  obtain ⟨offset, others⟩ := masked_page cleared covers same
                  exact Or.inl ⟨_, read, rfl, offset, by rw [others]; rfl⟩
              · obtain ⟨offset, others⟩ := masked_page aligned (by rfl : 0xFFF % 4096 = 4095) same
                refine Or.inl ⟨_, read, rfl, offset, ?_⟩
                rw [vaPgoff, others]
                rfl
          · exact ih

theorem translated_page {root pa : Nat} (found : state.translated root va = some pa)
    (same : other / 4096 = va / 4096) :
    pa % 4096 = va % 4096 ∧
      state.translated root other = some (pa / 4096 * 4096 + other % 4096) := by
  rw [translated, translate, pageTableWalk] at found ⊢
  rcases @walkFrom_page state va other same PT_LEVELS root with
    ⟨target, next, ran, offset, others⟩ | ⟨message, next, ran, _⟩
  · rw [ran] at found
    cases found
    rw [others]
    exact ⟨offset, rfl⟩
  · rw [ran] at found
    cases found

end Pages

/-- On a root where entries can be, a translation is the walk. -/
theorem translated_view (state : AddressSpaceManager) {root : Nat} (aligned : 4 ∣ root) (va : Nat) :
    state.translated root va = walkRoot state.view va root := by
  obtain ⟨next, ran, _⟩ := @translate_run state va root aligned
  rw [translated, ran]

section LiveTables

variable {platform : Platform} {identity : Nat → Prop} {owner : Nat → Option Role}
  {state : AddressSpaceManager} {root va : Nat}

theorem WellOwned.translated_mapping (owned : WellOwned platform identity owner state)
    (isLive : state.Live root) (vaBound : va < 2 ^ 32) :
    state.translated root va =
      (mapping state.history root (va / 4096)).map fun pte => ptePa pte + va % 4096 := by
  obtain ⟨next, ran, _⟩ := translate_mapping owned isLive vaBound
  rw [translated, ran]
  cases mapping state.history root (va / 4096) with
  | none => rfl
  | some pte => rw [Option.map_some, Option.map_some, frame_or_pgoff (ptePa_aligned pte)]

theorem WellOwned.translated_mapped (owned : WellOwned platform identity owner state)
    (isLive : state.Live root) {page pa flags : Nat}
    (mapped : mapping state.history root page = some (makePte pa flags)) (aligned : frameOf pa = pa)
    (narrow : pa < 2 ^ 32) (vaBound : va < 2 ^ 32) (inPage : va / 4096 = page) :
    state.translated root va = some (pa + va % 4096) := by
  rw [owned.translated_mapping isLive vaBound, inPage, mapped, Option.map_some,
    ptePa_makePte narrow, aligned]

theorem WellOwned.translated_owner (owned : WellOwned platform identity owner state)
    (isLive : state.Live root) (vaBound : va < 2 ^ 32) {pa : Nat}
    (found : state.translated root va = some pa) :
    pa % 4096 = va % 4096 ∧ (owner (frameOf pa) = some (.leaf root (va / 4096)) ∨
      identity (frameOf pa) ∧ frameOf pa = frameOf va) := by
  rw [owned.translated_mapping isLive vaBound, Option.map_eq_some_iff] at found
  obtain ⟨pte, mapped, same⟩ := found
  have aligned := ptePa_aligned pte
  have frame : frameOf pa = ptePa pte := by
    unfold frameOf
    omega
  rw [frame]
  exact ⟨by omega, owned.leaf_owner isLive (by omega) mapped⟩

end LiveTables

end Espiral.AddressSpaceManager
