import Espiral.Allocator.Coherence

/-!
# Reservations

What `reserve` answers in every state, also after sums that have wrapped
around: it compares the end of the range with the end of the memory and asks
the overlap test, which counts a page that only touches the range. The start
of the range is not compared with the base.
-/

namespace Espiral.VortexMemoryAllocator

set_option autoImplicit false

open Contracts IntrusiveLists MachineWords Tilings Traces

def PerformStep (state : VortexMemoryAllocator) (label : Call × Outcome)
    (next : VortexMemoryAllocator) : Prop :=
  perform label.1 state = .ok label.2 next

def SharesByte (state : VortexMemoryAllocator) (addr length : Nat) : Prop :=
  ∃ page ∈ state.pages_, ∃ byte, (page.addr ≤ byte ∧ byte < page.stop) ∧
    addr ≤ byte ∧ byte < addr + length

def Touches (state : VortexMemoryAllocator) (addr length : Nat) : Prop :=
  ∃ page ∈ state.pages_, page.stop = addr ∨ addr + length = page.addr

def FullyUsedPage (state : VortexMemoryAllocator) (addr length : Nat) : Prop :=
  ∃ page ∈ state.pages_, page.extent = (addr, length) ∧ page.usedBlocks = [(addr, length)] ∧
    page.freeBlocks = []

/-- The reservation is accepted exactly when the rounded range lies inside the memory and
shares no byte with a page. -/
structure ExactlyReserved (state : VortexMemoryAllocator) (addr length : Nat) (status : Int)
    (next : VortexMemoryAllocator) : Prop where
  accepted : status = 0 ↔ (state.baseAddress_ ≤ addr ∧
    addr + length ≤ state.baseAddress_ + state.capacity_) ∧ ¬SharesByte state addr length
  refused : status = -1 → next = state
  page : status = 0 → FullyUsedPage next addr length

def ReservesExactly (state : VortexMemoryAllocator) (addr size : Nat) : Prop :=
  ∃ status next, state.reserve addr size = .ok status next ∧ (status = 0 ∨ status = -1) ∧
    ExactlyReserved state addr (roundUp size state.pageAlign_) status next

/-- The range ends beyond the memory; or the overlap test finds a page, and the range is below
the base or shares a byte; or it finds none, and the range is neither. -/
def TestsSuffice (state : VortexMemoryAllocator) (addr length : Nat) : Prop :=
  state.baseAddress_ + state.capacity_ < addr + length ∨
    (state.hasPageOverlap addr length = true ∧
      (addr < state.baseAddress_ ∨ SharesByte state addr length)) ∨
    (state.hasPageOverlap addr length = false ∧ state.baseAddress_ ≤ addr ∧
      ¬SharesByte state addr length)

section Settings

variable {state next : VortexMemoryAllocator}

theorem allocateFrom_settings {page size addr : Nat} {block : Option Ptr}
    (ran : allocateFrom page size block state = .ok addr next) : SameSettings state next := by
  unfold allocateFrom at ran
  split at ran
  · cases ran
    exact ⟨rfl, rfl, rfl, rfl⟩
  · cases ran

theorem createPage_settings (addr size : Nat) :
    SameSettings state (state.createPage addr size).2 := ⟨rfl, rfl, rfl, rfl⟩

theorem SameSettings.refl (state : VortexMemoryAllocator) : SameSettings state state :=
  ⟨rfl, rfl, rfl, rfl⟩

theorem allocate_settings {size : Nat} {result : Option Nat}
    (ran : state.allocate size = .ok result next) : SameSettings state next := by
  unfold allocate at ran
  split at ran
  · cases ran
    exact SameSettings.refl state
  · simp only at ran
    split at ran
    · split at ran
      · rename_i called
        cases ran
        exact allocateFrom_settings called
      · cases ran
    · split at ran
      · cases ran
        exact SameSettings.refl state
      · split at ran
        · rename_i called
          cases ran
          exact (createPage_settings _ _).trans (allocateFrom_settings called)
        · cases ran

theorem release_settings {addr : Nat} {found : Bool}
    (ran : state.release addr = .ok found next) : SameSettings state next := by
  unfold release at ran
  split at ran
  · cases ran
    exact SameSettings.refl state
  · split at ran
    · cases ran
    · cases ran
      constructor <;> simp only <;> split <;> rfl

theorem reserve_settings {addr size : Nat} {status : Int}
    (ran : state.reserve addr size = .ok status next) : SameSettings state next := by
  unfold reserve at ran
  split at ran
  · cases ran
    exact SameSettings.refl state
  · simp only at ran
    split at ran
    · cases ran
      exact SameSettings.refl state
    · split at ran
      · cases ran
        exact SameSettings.refl state
      · split at ran
        · rename_i called
          cases ran
          exact (createPage_settings _ _).trans (allocateFrom_settings called)
        · cases ran

theorem PerformStep.settings {label : Call × Outcome} (step : PerformStep state label next) :
    SameSettings state next := by
  rcases label with ⟨call, outcome⟩
  unfold PerformStep perform at step
  cases call with
  | allocate size =>
      cases called : state.allocate size with
      | ok result later =>
          simp only [map_ok _ called] at step
          cases step
          exact allocate_settings called
      | error fault later =>
          simp only [map_error _ called] at step
          cases step
  | release addr =>
      cases called : state.release addr with
      | ok found later =>
          simp only [map_ok _ called] at step
          cases step
          exact release_settings called
      | error fault later =>
          simp only [map_error _ called] at step
          cases step
  | reserve addr size =>
      cases called : state.reserve addr size with
      | ok status later =>
          simp only [map_ok _ called] at step
          cases step
          exact reserve_settings called
      | error fault later =>
          simp only [map_error _ called] at step
          cases step

end Settings

section Answer

variable {self : VortexMemoryAllocator} {addr size : Nat}

/-- A new page is where `createPage` says, whatever the list of pages looks like. -/
theorem insertPage_position (newPage : Page) (pages : List Page) :
    ∃ before after, insertPage newPage pages = before ++ newPage :: after ∧
      positionOf newPage pages = before.length := by
  cases pages with
  | nil => exact ⟨[], [], rfl, rfl⟩
  | cons first rest =>
      by_cases ahead : first.addr > newPage.addr
      · refine ⟨[], first :: rest, ?_, ?_⟩
        · rw [insertPage, if_pos ahead, List.nil_append]
        · rw [positionOf, if_pos ahead, List.length_nil]
      · rcases insertAfter_position newPage rest with
          ⟨before, after, _, inserted, position, _, _⟩
        refine ⟨first :: before, after, ?_, ?_⟩
        · rw [insertPage, if_neg ahead, inserted, List.cons_append]
        · rw [positionOf, if_neg ahead, position, List.length_cons]

theorem Page.Sound.freeBlocks_of_whole {align : Nat} {page : Page} (sound : Page.Sound align page)
    (used : (page.addr, page.size) ∈ page.usedBlocks) : page.freeBlocks = [] := by
  rcases sound.layout with ⟨_, layout, _, _⟩
  apply List.eq_nil_iff_forall_not_mem.mpr
  intro range member
  have gap := (Page.freeBlocks_iff_maximalGap layout).mp member
  have apart := gap.clear _ used
  have positive := gap.positive
  have low := gap.low
  have high := gap.high
  simp only at apart
  omega

theorem createPage_fullyUsed {length : Nat} (alignment : 0 < self.blockAlign_)
    (positive : 0 < length) (fits : addr + length < 2 ^ 64) :
    ∃ next, allocateFrom (self.createPage addr length).1 length
        ((self.createPage addr length).2.findFreeBlockAt (self.createPage addr length).1 length)
        (self.createPage addr length).2 = .ok addr next ∧ FullyUsedPage next addr length := by
  rcases Page.new_allocate alignment positive fits (Or.inl rfl) with ⟨block, found, starts, granted⟩
  rcases insertPage_position (Page.new addr length self.blockAlign_) self.pages_ with
    ⟨before, after, inserted, position⟩
  have created : self.createPage addr length = (before.length, { self with
      pages_ := before ++ Page.new addr length self.blockAlign_ :: after }) := by
    rw [createPage, inserted, position]
  rw [created]
  refine ⟨{ self with
    pages_ := before ++ (Page.new addr length self.blockAlign_).allocate length block :: after
    allocated_ := add64 self.allocated_ length }, ?_, ?_⟩
  · simp only [findFreeBlockAt, getElem?_middle, Option.bind_some, found, allocateFrom,
      set_middle, starts]
  · have used : ((Page.new addr length self.blockAlign_).allocate length block).usedBlocks =
        [(addr, length)] := List.perm_singleton.mp granted.used
    have extent : ((Page.new addr length self.blockAlign_).allocate length block).extent =
        (addr, length) := by
      rw [Page.extent, granted.extent.1, granted.extent.2]
      rfl
    refine ⟨_, List.mem_append_right _ List.mem_cons_self, extent, used, ?_⟩
    apply granted.sound.freeBlocks_of_whole
    change ((Page.new addr length self.blockAlign_).allocate length block).extent ∈
      ((Page.new addr length self.blockAlign_).allocate length block).usedBlocks
    rw [extent, used]
    exact List.mem_singleton_self _

theorem reserve_answer (configured : Configured self) (nonempty : 0 < size)
    (rounded : addr + roundUp size self.pageAlign_ < 2 ^ 64) :
    (addr + roundUp size self.pageAlign_ ≤ self.baseAddress_ + self.capacity_ ∧
      self.hasPageOverlap addr (roundUp size self.pageAlign_) = false ∧
      ∃ next, self.reserve addr size = .ok 0 next ∧
        FullyUsedPage next addr (roundUp size self.pageAlign_)) ∨
    ((self.baseAddress_ + self.capacity_ < addr + roundUp size self.pageAlign_ ∨
      self.hasPageOverlap addr (roundUp size self.pageAlign_) = true) ∧
      self.reserve addr size = .ok (-1) self) := by
  have positive : 0 < roundUp size self.pageAlign_ :=
    roundUp_pos (alignment_pos configured.pageAlign) nonempty
  rcases Nat.lt_or_ge (self.baseAddress_ + self.capacity_)
    (addr + roundUp size self.pageAlign_) with beyond | inside
  · exact Or.inr ⟨Or.inl beyond,
      reserve_refused configured nonempty rounded (Or.inl beyond)⟩
  · cases overlap : self.hasPageOverlap addr (roundUp size self.pageAlign_) with
    | true =>
        exact Or.inr ⟨Or.inr rfl, reserve_refused configured nonempty rounded (Or.inr overlap)⟩
    | false =>
        rcases createPage_fullyUsed (alignment_pos configured.blockAlign) positive rounded with
          ⟨next, ran, page⟩
        have accepted := reserve_accepted configured nonempty rounded inside overlap ran
        exact Or.inl ⟨inside, rfl, next, accepted, page⟩

/-- A page that the overlap test finds shares a byte with the range or touches it. -/
theorem hasPageOverlap_iff {length : Nat} (sound : Sound self) (positive : 0 < length)
    (fits : addr + length < 2 ^ 64) :
    self.hasPageOverlap addr length = true ↔ SharesByte self addr length ∨
      Touches self addr length := by
  have meets : self.hasPageOverlap addr length = true ↔
      ∃ page ∈ self.pages_, addr ≤ page.stop ∧ page.addr ≤ addr + length := by
    simp only [hasPageOverlap, List.any_eq_true, Bool.and_eq_true, decide_eq_true_eq, ge_iff_le,
      add64_of_lt fits]
    apply exists_congr
    intro page
    apply and_congr_right
    intro member
    rw [add64_of_lt (sound.pages page member).fits, Page.stop]
  rw [meets]
  constructor
  · rintro ⟨page, member, low, high⟩
    have pagePositive := (sound.pages page member).positive
    by_cases touching : page.stop = addr ∨ addr + length = page.addr
    · exact Or.inr ⟨page, member, touching⟩
    · left
      refine ⟨page, member, max addr page.addr, ?_, ?_⟩
      · unfold Page.stop at *
        omega
      · omega
  · rintro (⟨page, member, byte, inPage, inRange⟩ | ⟨page, member, touching⟩)
    · exact ⟨page, member, by omega, by omega⟩
    · have pagePositive := (sound.pages page member).positive
      refine ⟨page, member, ?_⟩
      unfold Page.stop at *
      omega

/-- Without wrapped ends, the tests fail for a range inside the memory's end that shares no byte
with a page in two cases: it touches a page, or it starts below the base and touches none. -/
theorem testsSuffice_iff {length : Nat} (sound : Sound self) (positive : 0 < length)
    (fits : addr + length < 2 ^ 64) :
    TestsSuffice self addr length ↔ self.baseAddress_ + self.capacity_ < addr + length ∨
      SharesByte self addr length ∨ (self.baseAddress_ ≤ addr ↔ ¬Touches self addr length) := by
  have overlap := hasPageOverlap_iff sound positive fits
  have below : addr < self.baseAddress_ ↔ ¬self.baseAddress_ ≤ addr := Nat.not_le.symm
  unfold TestsSuffice
  rw [← Bool.not_eq_true, overlap, below]
  tauto

theorem reserve_first (sound : Sound self) (none : self.pages_ = []) (nonempty : 0 < size)
    (inside : addr + roundUp size self.pageAlign_ ≤ self.baseAddress_ + self.capacity_) :
    ∃ next, self.reserve addr size = .ok 0 next ∧
      Grant self next addr (roundUp size self.pageAlign_) ∧
      next.extents = [(addr, roundUp size self.pageAlign_)] := by
  have rounded := Nat.lt_of_le_of_lt inside sound.fits
  have free : self.hasPageOverlap addr (roundUp size self.pageAlign_) = false := by
    rw [hasPageOverlap, none, List.any_nil]
  rcases createPage_grant sound (roundUp_pos (alignment_pos sound.pageAlign) nonempty) rounded
    (hasPageOverlap_false sound rounded free) (Or.inl rfl) with ⟨next, ran, grant, grown⟩
  have accepted := reserve_accepted sound.toConfigured nonempty rounded inside free ran
  have noPages : self.extents = [] := by
    rw [extents, none, List.map_nil]
  rw [noPages] at grown
  exact ⟨next, accepted, grant, List.perm_singleton.mp grown⟩

theorem reservesExactly_of_accepted {next : VortexMemoryAllocator}
    (ran : self.reserve addr size = .ok 0 next)
    (page : FullyUsedPage next addr (roundUp size self.pageAlign_))
    (inside : addr + roundUp size self.pageAlign_ ≤ self.baseAddress_ + self.capacity_) :
    ReservesExactly self addr size ↔
      self.baseAddress_ ≤ addr ∧ ¬SharesByte self addr (roundUp size self.pageAlign_) := by
  constructor
  · rintro ⟨status, later, called, _, exactly⟩
    rw [ran] at called
    cases called
    have right := exactly.accepted.mp rfl
    exact ⟨right.1.1, right.2⟩
  · rintro ⟨above, apart⟩
    refine ⟨0, next, ran, Or.inl rfl, ?_, ?_, fun _ => page⟩
    · exact ⟨fun _ => ⟨⟨above, inside⟩, apart⟩, fun _ => rfl⟩
    · intro impossible
      cases impossible

theorem reservesExactly_of_refused (ran : self.reserve addr size = .ok (-1) self) :
    ReservesExactly self addr size ↔ ¬((self.baseAddress_ ≤ addr ∧
      addr + roundUp size self.pageAlign_ ≤ self.baseAddress_ + self.capacity_) ∧
        ¬SharesByte self addr (roundUp size self.pageAlign_)) := by
  constructor
  · rintro ⟨status, later, called, _, exactly⟩ right
    rw [ran] at called
    cases called
    have impossible := exactly.accepted.mpr right
    cases impossible
  · intro wrong
    refine ⟨-1, self, ran, Or.inr rfl, ?_, fun _ => rfl, ?_⟩
    · constructor
      · intro impossible
        cases impossible
      · intro right
        exact absurd right wrong
    · intro impossible
      cases impossible

theorem reservesExactly_iff (configured : Configured self) (nonempty : 0 < size)
    (rounded : addr + roundUp size self.pageAlign_ < 2 ^ 64) :
    ReservesExactly self addr size ↔ TestsSuffice self addr (roundUp size self.pageAlign_) := by
  unfold TestsSuffice
  rcases reserve_answer configured nonempty rounded with
    ⟨inside, free, next, ran, page⟩ | ⟨reason, ran⟩
  · rw [reservesExactly_of_accepted ran page inside, free]
    have fits := Nat.not_lt.mpr inside
    simp only [fits, Bool.false_eq_true, false_and, false_or, true_and]
  · rw [reservesExactly_of_refused ran, ← Nat.not_le, ← Nat.not_le]
    rcases reason with beyond | overlap
    · have outside := Nat.not_le.mpr beyond
      simp only [outside, and_false, false_and, not_false_iff, true_or]
    · simp only [overlap, true_and, reduceCtorEq, false_and, or_false]
      tauto

end Answer

section Run

variable {base capacity pageAlign blockAlign : Nat}

theorem run_configured (pagePower : ∃ bits < 32, pageAlign = 2 ^ bits)
    (blockPower : ∃ bits < 32, blockAlign = 2 ^ bits) (range : base + capacity < 2 ^ 64)
    {labels : List (Call × Outcome)} {state : VortexMemoryAllocator}
    (run : Trace PerformStep (initialised base capacity pageAlign blockAlign) labels state) :
    Configured state :=
  run.invariant Configured (fun _ _ _ configured step => configured.same step.settings)
    (initialised_sound pagePower blockPower range).toConfigured

/-- In every state that any run reaches, a reservation is answered right exactly when its two
tests suffice. In a sound state, as every run without wrapped sums reaches, that is: the range
ends beyond the memory, shares a byte with a page, or starts above the base just if it touches
none. -/
theorem reserve_exact_iff (pagePower : ∃ bits < 32, pageAlign = 2 ^ bits)
    (blockPower : ∃ bits < 32, blockAlign = 2 ^ bits) (range : base + capacity < 2 ^ 64)
    {labels : List (Call × Outcome)} {state : VortexMemoryAllocator}
    (run : Trace PerformStep (initialised base capacity pageAlign blockAlign) labels state)
    {addr size : Nat} (nonempty : 0 < size)
    (rounded : addr + roundUp size state.pageAlign_ < 2 ^ 64) :
    (ReservesExactly state addr size ↔
        TestsSuffice state addr (roundUp size state.pageAlign_)) ∧
      (Sound state → (ReservesExactly state addr size ↔
        state.baseAddress_ + state.capacity_ < addr + roundUp size state.pageAlign_ ∨
          SharesByte state addr (roundUp size state.pageAlign_) ∨
          (state.baseAddress_ ≤ addr ↔ ¬Touches state addr (roundUp size state.pageAlign_)))) := by
  have configured := run_configured pagePower blockPower range run
  have exactly : ReservesExactly state addr size ↔
      TestsSuffice state addr (roundUp size state.pageAlign_) :=
    reservesExactly_iff configured nonempty rounded
  refine ⟨exactly, fun sound => exactly.trans ?_⟩
  have positive := roundUp_pos (alignment_pos configured.pageAlign) nonempty
  exact testsSuffice_iff sound positive rounded

theorem reserve_exact_inside :
    ReservesExactly (initialised 0x1000 0x10000 4096 64) 0x2000 10 := by
  have pagePower : ∃ bits < 32, 4096 = 2 ^ bits := ⟨12, by decide, rfl⟩
  have blockPower : ∃ bits < 32, 64 = 2 ^ bits := ⟨6, by decide, rfl⟩
  have range : 0x1000 + 0x10000 < 2 ^ 64 := by decide
  have apart : ¬SharesByte (initialised 0x1000 0x10000 4096 64) 0x2000 (roundUp 10 4096) := by
    rintro ⟨page, member, _⟩
    cases member
  exact (reserve_exact_iff pagePower blockPower range (Trace.nil _) (by decide : 0 < 10)
    (by decide : 0x2000 + roundUp 10 4096 < 2 ^ 64)).1.mpr
      (Or.inr (Or.inr ⟨rfl, by decide, apart⟩))

/-- A page below the base is accepted, and after a reservation the next page up is refused. -/
theorem reserve_not_exact : ¬ReservesExactly (initialised 0x1000 0x10000 4096 64) 0 4096 ∧
    ∃ state, (initialised 0x1000 0x10000 4096 64).reserve 0x1000 4096 = .ok 0 state ∧
      ¬ReservesExactly state 0x2000 4096 := by
  have pagePower : ∃ bits < 32, 4096 = 2 ^ bits := ⟨12, by decide, rfl⟩
  have blockPower : ∃ bits < 32, 64 = 2 ^ bits := ⟨6, by decide, rfl⟩
  have range : 0x1000 + 0x10000 < 2 ^ 64 := by decide
  have sound := initialised_sound pagePower blockPower range
  constructor
  · rcases reserve_first sound rfl (by decide : 0 < 4096) (by decide : 0 + roundUp 4096 4096 ≤ _)
      with ⟨next, accepted, _⟩
    rintro ⟨status, later, ran, _, exactly⟩
    rw [accepted] at ran
    cases ran
    exact absurd (exactly.accepted.mp rfl).1.1 (by decide)
  · rcases reserve_first sound rfl (by decide : 0 < 4096)
      (by decide : 0x1000 + roundUp 4096 4096 ≤ _) with ⟨state, accepted, grant, extents⟩
    refine ⟨state, accepted, ?_⟩
    have baseIs : state.baseAddress_ = 0x1000 := grant.settings.baseAddress
    have capacityIs : state.capacity_ = 0x10000 := grant.settings.capacity
    have length : roundUp 4096 state.pageAlign_ = 0x1000 := by
      rw [grant.settings.pageAlign]
      decide
    have pages : ∀ page ∈ state.pages_, page.stop = 0x2000 := by
      intro page member
      have listed : page.extent ∈ state.extents := List.mem_map_of_mem member
      rw [extents] at listed
      have extent : (page.addr, page.size) = (0x1000, 0x1000) := List.mem_singleton.mp listed
      rw [Page.stop, (Prod.mk.inj extent).1, (Prod.mk.inj extent).2]
    have apart : ¬SharesByte state 0x2000 (roundUp 4096 state.pageAlign_) := by
      rintro ⟨page, member, byte, inPage, inRange⟩
      have stop := pages page member
      omega
    have listed : (0x1000, 0x1000) ∈ state.extents := by
      rw [extents]
      exact List.mem_singleton_self _
    rcases List.mem_map.mp listed with ⟨page, member, _⟩
    have rounded : 0x2000 + roundUp 4096 state.pageAlign_ < 2 ^ 64 := by omega
    have overlap := (hasPageOverlap_iff grant.sound (by omega) rounded).mpr
      (Or.inr ⟨page, member, Or.inl (pages page member)⟩)
    rcases reserve_answer grant.sound.toConfigured (by decide : 0 < 4096) rounded with
      ⟨_, free, _⟩ | ⟨_, refused⟩
    · rw [overlap] at free
      cases free
    · rintro ⟨status, later, ran, _, exactly⟩
      rw [refused] at ran
      cases ran
      have impossible := exactly.accepted.mpr ⟨by omega, apart⟩
      cases impossible

end Run

end Espiral.VortexMemoryAllocator
