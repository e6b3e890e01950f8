import Espiral.Mm.TableCalls

/-!
# Work on one table

What the operations on one table leave of the others: all of it. Of the table itself
they leave every valid entry, so whatever has been translated once is translated in
the same way as long as the table is there.
-/

namespace Espiral.AddressSpaceManager

set_option autoImplicit false

open Contracts MachineWords VortexMemoryAllocator

structure Worked (platform : Platform) (identity : Nat → Prop) (holes : HoleList) (root : Nat)
    (start state : AddressSpaceManager) : Prop where
  reached : Reached platform identity holes state
  entries : EntriesKept start state
  others : ∀ table, table ≠ root → ∀ page,
    mapping state.history table page = mapping start.history table page

section Relation

variable {platform : Platform} {identity : Nat → Prop} {holes : HoleList} {root : Nat}
  {owner later : Nat → Option Role} {start state next : AddressSpaceManager}

theorem Worked.refl (reached : Reached platform identity holes state) :
    Worked platform identity holes root state state :=
  ⟨reached, EntriesKept.refl state, fun _ _ _ => rfl⟩

theorem Worked.trans (left : Worked platform identity holes root start state)
    (right : Worked platform identity holes root state next) :
    Worked platform identity holes root start next where
  reached := right.reached
  entries := left.entries.trans right.entries
  others table different page :=
    (right.others table different page).trans (left.others table different page)

theorem Reached.worked (reached : Reached platform identity holes state)
    (same : SameView state next) : Worked platform identity holes root state next where
  reached := reached.of_sameView same
  entries := EntriesKept.of_same same.history same.view
  others table _ page := by rw [same.history]

theorem Reached.worked_mapped (reached : Reached platform identity holes state)
    (advanced : Advance platform identity owner later state next) {va pa flags : Nat}
    (history : next.history = .mapped root va pa flags :: state.history)
    (unmapped : mapping state.history root (va / 4096) = none) (paBound : pa < 2 ^ 32)
    (entries : EntriesKept state next) : Worked platform identity holes root state next where
  reached := reached.of_mapped advanced history unmapped paBound
  entries := entries
  others table different page := by
    rw [history, mapping, if_neg (fun both => different both.1.symm)]

theorem Reached.worked_same (reached : Reached platform identity holes state)
    (advanced : Advance platform identity owner later state next)
    (history : next.history = state.history) (entries : EntriesKept state next) :
    Worked platform identity holes root state next where
  reached := reached.of_same advanced history
  entries := entries
  others table _ page := by rw [history]

theorem Worked.mapping (worked : Worked platform identity holes root start state)
    (reached : Reached platform identity holes start) {table page pte : Nat}
    (isLive : start.Live table) (inside : page < 2 ^ 20)
    (found : AddressSpaceManager.mapping start.history table page = some pte) :
    AddressSpaceManager.mapping state.history table page = some pte := by
  obtain ⟨owner, owned⟩ := reached.owned
  obtain ⟨later, laterOwned⟩ := worked.reached.owned
  have small : page / 1024 < 1024 := by omega
  have slotSmall : page % 1024 < 1024 := Nat.mod_lt _ (by decide)
  rw [← owned.maps table _ isLive inside, leafOf] at found
  rw [← laterOwned.maps table _ (worked.entries.live table isLive) inside, leafOf]
  cases upper : pteValid (entryAt start.view table (page / 1024)) with
  | false =>
      simp only [upper, Bool.false_eq_true, if_false] at found
      cases found
  | true =>
      simp only [upper, if_true] at found
      have sameUpper := worked.entries.upper table _ isLive small upper
      cases lower : pteValid (entryAt start.view
          (ptePa (entryAt start.view table (page / 1024))) (page % 1024)) with
      | false =>
          simp only [lower, Bool.false_eq_true, if_false] at found
          cases found
      | true =>
          have sameLower := worked.entries.lower table _ _ isLive small slotSmall upper lower
          simp only [lower, if_true] at found
          simp only [sameUpper, upper, if_true, sameLower, lower]
          exact found

theorem Worked.translated (worked : Worked platform identity holes root start state)
    (reached : Reached platform identity holes start) {table va pa : Nat}
    (isLive : start.Live table) (vaBound : va < 2 ^ 32)
    (found : start.translated table va = some pa) : state.translated table va = some pa := by
  obtain ⟨owner, owned⟩ := reached.owned
  obtain ⟨later, laterOwned⟩ := worked.reached.owned
  rw [owned.translated_mapping isLive vaBound, Option.map_eq_some_iff] at found
  obtain ⟨pte, mapped, same⟩ := found
  rw [laterOwned.translated_mapping (worked.entries.live table isLive) vaBound,
    worked.mapping reached isLive (by omega) mapped, Option.map_some, same]

theorem Worked.translated_others (worked : Worked platform identity holes root start state)
    (reached : Reached platform identity holes start) {table va : Nat} (different : table ≠ root)
    (isLive : start.Live table) (vaBound : va < 2 ^ 32) :
    state.translated table va = start.translated table va := by
  obtain ⟨owner, owned⟩ := reached.owned
  obtain ⟨later, laterOwned⟩ := worked.reached.owned
  rw [owned.translated_mapping isLive vaBound,
    laterOwned.translated_mapping (worked.entries.live table isLive) vaBound,
    worked.others table different]

theorem NodeAt.kept {frame : Nat} {role : Role} (node : NodeAt state frame role)
    (entries : EntriesKept state next) : NodeAt next frame role := by
  cases node with
  | root isLive => exact NodeAt.root (entries.live _ isLive)
  | @node root index isLive small valid =>
      have same := entries.upper root index isLive small valid
      rw [← same]
      apply NodeAt.node (entries.live root isLive) small
      rw [same]
      exact valid

end Relation

section Operations

variable {platform : Platform} {identity : Nat → Prop} {holes : HoleList} {root va : Nat}
  {owner : Nat → Option Role} {start state : AddressSpaceManager}

/-- A page is mapped between entries that stay. -/
theorem WellOwned.mapAddrInner_entries (owned : WellOwned platform identity owner state)
    (isLive : state.Live root) (vaBound : va < 2 ^ 32) {pa flags : Nat} (paBound : pa < 2 ^ 32)
    (readable : flags &&& PteFlags.R ≠ 0) :
    Ensures (mapAddrInner va pa root flags) state (fun _ next => EntriesKept state next)
      (fun _ next => EntriesKept state next) := by
  apply (mapAddrInner_keeps owned.separated isLive vaBound paBound readable
    owned.handsOutUnlinked).weaken
  · exact fun _ _ kept => kept.entries
  · exact fun _ _ kept => kept.entries

theorem WellOwned.allocateOneVmPage_entries (owned : WellOwned platform identity owner state)
    (isLive : state.Live root) (vaBound : va < 2 ^ 32) {flags : Nat}
    (readable : flags &&& PteFlags.R ≠ 0) :
    Ensures (allocateOneVmPage va root flags) state (fun _ next => EntriesKept state next)
      (fun _ next => EntriesKept state next) := by
  obtain ⟨result, asked, ran, pool, tables, outcome⟩ := allocateOnePage_run owned.pool
  have entries := EntriesKept.of_same tables.history tables.view
  rw [allocateOneVmPage]
  apply ensures_bind_of_run ran
  by_cases missing : result.getD 0 = 0
  · rw [if_pos missing]
    exact ensures_throw entries
  · rw [if_neg missing]
    have asks := owned.allocated pool tables outcome.grows
    have isLiveNow := live_of_same tables.history isLive
    have bound : result.getD 0 < 2 ^ 32 := by
      cases result with
      | none => exact absurd rfl missing
      | some frame => exact outcome.fresh.2.2.narrow owned.pool.valid
    apply (asks.owned.mapAddrInner_entries isLiveNow vaBound bound readable).weaken
    · exact fun _ _ kept => entries.trans kept
    · exact fun _ _ kept => entries.trans kept

theorem freePageTable_view : Ensures (freePageTable root) state
    (fun _ next => next.view = state.view) (fun _ next => next.view = state.view) := by
  rw [freePageTable]
  apply Ensures.bind
  apply (freePageTableInner_tables PT_LEVELS root).weaken
  · exact fun _ _ same => ensures_of_run (record_run _) same.view
  · exact fun _ _ same => same.view

/-- Asking for a page of a table is work on that table only, also when it throws. -/
theorem allocateOneVmPage_worked (reached : Reached platform identity holes state)
    (isLive : state.Live root) (vaBound : va < 2 ^ 32) {flags : Nat}
    (readable : flags &&& PteFlags.R ≠ 0) :
    Ensures (allocateOneVmPage va root flags) state
      (fun _ next => Worked platform identity holes root state next)
      (fun _ next => Worked platform identity holes root state next) := by
  obtain ⟨owner, owned⟩ := reached.owned
  apply ((allocateOneVmPage_spec owned isLive vaBound readable).both
    (owned.allocateOneVmPage_entries isLive vaBound readable)).weaken
  · rintro _ next ⟨⟨later, pa, advanced, history, unmapped, isFrame, _⟩, entries⟩
    exact reached.worked_mapped advanced history unmapped (isFrame.narrow owned.pool.valid) entries
  · rintro _ next ⟨⟨later, advanced, history, _⟩, entries⟩
    exact reached.worked_same advanced history entries

theorem mapAddrInner_worked (reached : Reached platform identity holes state)
    (isLive : state.Live root) (vaBound : va < 2 ^ 32) {flags : Nat}
    (readable : flags &&& PteFlags.R ≠ 0) (itself : identity (frameOf va)) :
    Ensures (mapAddrInner va va root flags) state
      (fun _ next => Worked platform identity holes root state next)
      (fun _ next => Worked platform identity holes root state next) := by
  obtain ⟨owner, owned⟩ := reached.owned
  have spec := @mapAddrInner_spec platform identity owner state root va owned isLive vaBound va flags
    vaBound readable none (Or.inr ⟨itself, rfl⟩)
  apply (spec.both (owned.mapAddrInner_entries isLive vaBound vaBound readable)).weaken
  · rintro _ next ⟨⟨later, advanced, history, unmapped, _⟩, entries⟩
    exact reached.worked_mapped advanced history unmapped vaBound entries
  · rintro _ next ⟨⟨later, advanced, history, _⟩, entries⟩
    exact reached.worked_same advanced history entries

theorem keeps_worked {Value : Type} {action : Action AddressSpaceManager Value}
    (isLive : start.Live root)
    (works : ∀ state, Reached platform identity holes state → state.Live root →
      Ensures action state (fun _ next => Worked platform identity holes root state next)
        (fun _ next => Worked platform identity holes root state next)) :
    Keeps (Worked platform identity holes root start) action := by
  intro state worked
  apply (works state worked.reached (worked.entries.live root isLive)).weaken
  · exact fun _ _ more => worked.trans more
  · exact fun _ _ more => worked.trans more

variable (isLive : start.Live root)
include isLive

theorem allocateVmPages_worked {size flags : Nat} (readable : flags &&& PteFlags.R ≠ 0) :
    Keeps (Worked platform identity holes root start) (allocateVmPages va size root flags) := by
  intro state worked
  apply forPages_keeps ?_ (Nat.dvd_zero 4096) worked
  intro offset current _ _ kept
  apply keeps_worked isLive _ current kept
  intro now reached liveNow
  exact allocateOneVmPage_worked reached liveNow (wrap32_lt _) readable

theorem unsafeMapIdentity_worked {addr size flags : Nat} (readable : flags &&& PteFlags.R ≠ 0)
    (allowed : ∀ offset < size, 4096 ∣ offset → identity (frameOf (wrap32 (addr + offset)))) :
    Keeps (Worked platform identity holes root start) (unsafeMapIdentity addr size root flags) := by
  intro state worked
  apply forPages_keeps ?_ (Nat.dvd_zero 4096) worked
  intro offset current inside aligned kept
  apply keeps_worked isLive _ current kept
  intro now reached liveNow
  exact mapAddrInner_worked reached liveNow (wrap32_lt _) readable (allowed offset inside aligned)

theorem unsafeMapIdentity_maps (reached : Reached platform identity holes start)
    {addr size flags : Nat} (readable : flags &&& PteFlags.R ≠ 0)
    (allowed : ∀ offset < size, 4096 ∣ offset → identity (frameOf (wrap32 (addr + offset))))
    (positive : 0 < size) (ran : unsafeMapIdentity addr size root flags start = .ok () state) :
    start.translated root (wrap32 addr) = none ∧
      (state.translated root (wrap32 addr)).isSome = true := by
  have fuel : pageLoopFuel = 2 ^ 20 + 1 + 1 := rfl
  rw [unsafeMapIdentity, fuel, forPages, if_pos positive, Nat.add_zero] at ran
  obtain ⟨_, between, first, rest⟩ := bind_returns ran
  have bound : wrap32 addr < 2 ^ 32 := wrap32_lt addr
  have itself : identity (frameOf (wrap32 addr)) := allowed 0 positive (Nat.dvd_zero _)
  obtain ⟨owner, owned⟩ := reached.owned
  obtain ⟨later, advanced, history, unmapped, _⟩ :=
    (@mapAddrInner_spec platform identity owner start root (wrap32 addr) owned isLive bound
      (wrap32 addr) flags bound readable none (Or.inr ⟨itself, rfl⟩)).of_ok first
  have worked := (mapAddrInner_worked reached isLive bound readable itself).of_ok first
  have liveNow := worked.entries.live root isLive
  constructor
  · rw [owned.translated_mapping isLive bound, unmapped, Option.map_none]
  · have found : ∃ pa, between.translated root (wrap32 addr) = some pa := by
      rw [advanced.owned.translated_mapping liveNow bound, history, mapping, if_pos ⟨rfl, rfl⟩]
      exact ⟨_, rfl⟩
    obtain ⟨pa, found⟩ := found
    have kept : Ensures (forPages size (fun offset => mapAddrInner (wrap32 (addr + offset))
          (wrap32 (addr + offset)) root flags) (2 ^ 20 + 1) (wrap32 (0 + PAGE_SIZE))) between
        (fun _ next => Worked platform identity holes root between next)
        (fun _ next => Worked platform identity holes root between next) := by
      apply forPages_keeps ?_ (wrap32_page_aligned (Nat.dvd_zero 4096)) (Worked.refl worked.reached)
      intro offset current inside aligned kept
      apply keeps_worked liveNow _ current kept
      intro now nowReached nowLive
      exact mapAddrInner_worked nowReached nowLive (wrap32_lt _) readable
        (allowed offset inside aligned)
    rw [(kept.of_ok rest).translated worked.reached liveNow bound found, Option.isSome_some]

end Operations

end Espiral.AddressSpaceManager
