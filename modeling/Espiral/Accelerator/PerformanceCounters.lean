import Espiral.Accelerator.Backends
import Espiral.Library.Contracts
import Espiral.Library.Traces

/-!
# Performance counters

Both devices keep the counters of a core from the first query on until the next
start. The entry of a core is made before its counters are downloaded, and it
stays when the download fails; later queries only ask whether it is there.
-/

namespace Espiral

set_option autoImplicit false

open ByteMemory Contracts MachineWords Traces

/-- The build constants of the counters: the memory of the first core's block and the
address of the first counter. -/
structure MpmLayout where
  IO_MPM_ADDR : Nat
  VX_CSR_MPM_BASE : Nat

/-- Which counter of a block an address names; the difference is a 32-bit number. -/
def MpmLayout.offset (layout : MpmLayout) (addr : Nat) : Nat :=
  wrap32 (addr + (2 ^ 32 - wrap32 layout.VX_CSR_MPM_BASE))

/-- `mpm_mem_addr`: the core is multiplied by 32 in 32 bits, the rest is done in 64 bits. -/
def MpmLayout.memAddr (layout : MpmLayout) (core_id : Nat) : Nat :=
  wrap64 (layout.IO_MPM_ADDR + wrap32 (core_id * 32) * 8)

abbrev Counters := Fin 32 → Nat

def Counters.data (counters : Counters) : List UInt8 :=
  (List.ofFn counters).flatMap (littleEndian 8)

def Counters.ofData (bytes : List UInt8) : Counters :=
  fun offset => ofLittleEndian ((bytes.drop (offset * 8)).take 8)

/-- A download for a query, with the code it returned. -/
structure MpmDownload where
  src_addr : Nat
  size : Nat
  code : Int
  deriving DecidableEq, Repr

/-- A device with its counter cache. The source does not have `downloads`: it records the
downloads for queries since the last start, newest first, and nothing reads it. -/
structure MpmDevice (Device : Type) where
  device : Device
  mpm_cache_ : Nat → Option Counters
  downloads : List MpmDownload

namespace MpmDevice

variable {Device : Type}

def new (device : Device) : MpmDevice Device := ⟨device, fun _ => none, []⟩

/-- `mpm_cache_[core_id].data()`: an entry that is missing is made, with all counters zero. -/
def entryData (core_id : Nat) : Action (MpmDevice Device) (List UInt8) := fun self =>
  let counters := (self.mpm_cache_ core_id).getD fun _ => 0
  .ok counters.data { self with mpm_cache_ := Function.update self.mpm_cache_ core_id counters }

def downloadInto (accelerator : HostAccelerator Device) (core_id : Nat) (dest : List UInt8)
    (src_addr : Nat) : Action (MpmDevice Device) Int := fun self =>
  let (code, bytes, device) := accelerator.download dest src_addr self.device
  .ok code
    { device := device
      mpm_cache_ := Function.update self.mpm_cache_ core_id (some (Counters.ofData bytes))
      downloads := ⟨src_addr, dest.length, code⟩ :: self.downloads }

def counterAt (core_id offset : Nat) : Action (MpmDevice Device) Nat := fun self =>
  match self.mpm_cache_ core_id with
  | some counters =>
      if inside : offset < 32 then .ok (counters ⟨offset, inside⟩) self else .error .outOfRange self
  | none => .error .outOfRange self

def mpmQuery (accelerator : HostAccelerator Device) (layout : MpmLayout) (addr core_id : Nat) :
    Action (MpmDevice Device) (Option Nat) := fun self =>
  let offset := layout.offset addr
  if offset > 31 then .ok none self
  else if (self.mpm_cache_ core_id).isNone then
    (do
      let mpm_mem_addr := layout.memAddr core_id
      let dest ← entryData core_id
      let code ← downloadInto accelerator core_id dest (wrap32 mpm_mem_addr)
      if code ≠ 0 then pure none
      else return some (← counterAt core_id offset)) self
  else (some <$> counterAt core_id offset) self

def start (accelerator : HostAccelerator Device) (krnl_addr args_addr top_pgtbl_pa : Nat) :
    Action (MpmDevice Device) Int := fun self =>
  let (code, device) := accelerator.start krnl_addr args_addr top_pgtbl_pa self.device
  .ok code { device := device, mpm_cache_ := fun _ => none, downloads := [] }

end MpmDevice

namespace SimXDevice

def mpmQuery (platform : Platform) (caps : Caps → Option Nat) (layout : MpmLayout)
    (addr core_id : Nat) : Action (MpmDevice SimXDevice) (Option Nat) :=
  MpmDevice.mpmQuery (simXAccelerator platform caps) layout addr core_id

end SimXDevice

namespace RtlSimDevice

def mpmQuery (platform : Platform) (caps : Caps → Option Nat) (layout : MpmLayout)
    (addr core_id : Nat) : Action (MpmDevice RtlSimDevice) (Option Nat) :=
  MpmDevice.mpmQuery (rtlSimAccelerator platform caps) layout addr core_id

end RtlSimDevice

def Simulator.mpmQuery (platform : Platform) (caps : Caps → Option Nat) (layout : MpmLayout)
    (addr core_id : Nat) :
    (simulator : Simulator) → Action (MpmDevice simulator.Device) (Option Nat)
  | simX => SimXDevice.mpmQuery platform caps layout addr core_id
  | rtlSim => RtlSimDevice.mpmQuery platform caps layout addr core_id

/-- Where the counters of a core are, whatever the address computed for them. -/
def MpmLayout.block (layout : MpmLayout) (core_id : Nat) : Nat :=
  layout.IO_MPM_ADDR + core_id * (32 * 8)

namespace MpmDevice

variable {Device : Type}

def Downloaded (layout : MpmLayout) (state : MpmDevice Device) (core_id : Nat) : Prop :=
  ⟨layout.block core_id, 32 * 8, 0⟩ ∈ state.downloads

/-- The cache holds the cores whose counters have been downloaded, and no other ones. -/
def Genuine (layout : MpmLayout) (state : MpmDevice Device) : Prop :=
  ∀ core_id, (state.mpm_cache_ core_id).isSome ↔ Downloaded layout state core_id

def DownloadFails (state next : MpmDevice Device) : Prop :=
  ∃ download, next.downloads = download :: state.downloads ∧ download.code ≠ 0

/-- A value is returned only for counters that have been downloaded. A failed download leaves
the cache as it was, and the query answers nothing again when it is repeated, whatever the
device does in between. -/
structure Traceless (query : Action (MpmDevice Device) (Option Nat)) (layout : MpmLayout)
    (core_id : Nat) (state : MpmDevice Device) (result : Option Nat) (next : MpmDevice Device) :
    Prop where
  downloaded : ∀ value, result = some value → Downloaded layout next core_id
  unchanged : DownloadFails state next → next.mpm_cache_ = state.mpm_cache_
  repeated : DownloadFails state next → ∀ device, ∃ last,
    query { next with device := device } = .ok none last

/-- The address names no counter, or the core is in the cache, or its block lies in memory. -/
def Answerable (platform : Platform) (layout : MpmLayout) (state : MpmDevice Device)
    (addr core_id : Nat) : Prop :=
  31 < layout.offset addr ∨ (state.mpm_cache_ core_id).isSome ∨
    (layout.block core_id < 2 ^ 32 ∧ transferFits platform (layout.block core_id) (32 * 8) = true)

def fetch (state : MpmDevice Device) (core_id : Nat) (device : Device) (counters : Counters)
    (download : MpmDownload) : MpmDevice Device where
  device := device
  mpm_cache_ := Function.update state.mpm_cache_ core_id (some counters)
  downloads := download :: state.downloads

inductive QueryEffect (accepts : Nat → Nat → Bool) (layout : MpmLayout) (state : MpmDevice Device)
    (addr core_id : Nat) : Option Nat → MpmDevice Device → Prop
  | noCounter (outside : 31 < layout.offset addr) :
      QueryEffect accepts layout state addr core_id none state
  | cached {value : Nat} (inside : layout.offset addr ≤ 31)
      (found : (state.mpm_cache_ core_id).isSome) :
      QueryEffect accepts layout state addr core_id (some value) state
  | failed (device : Device) (counters : Counters) {code : Int}
      (inside : layout.offset addr ≤ 31) (missing : state.mpm_cache_ core_id = none)
      (refused : accepts (wrap32 (layout.memAddr core_id)) (32 * 8) = false) (fault : code ≠ 0) :
      QueryEffect accepts layout state addr core_id none
        (state.fetch core_id device counters ⟨wrap32 (layout.memAddr core_id), 32 * 8, code⟩)
  | fetched (device : Device) (counters : Counters) {value : Nat}
      (inside : layout.offset addr ≤ 31) (missing : state.mpm_cache_ core_id = none)
      (accepted : accepts (wrap32 (layout.memAddr core_id)) (32 * 8) = true) :
      QueryEffect accepts layout state addr core_id (some value)
        (state.fetch core_id device counters ⟨wrap32 (layout.memAddr core_id), 32 * 8, 0⟩)

section Queries

variable {accelerator : HostAccelerator Device} {accepts : Nat → Nat → Bool} {layout : MpmLayout}
  {state : MpmDevice Device} {addr core_id : Nat}

theorem fetch_cache_self {device : Device} {counters : Counters} {download : MpmDownload} :
    (state.fetch core_id device counters download).mpm_cache_ core_id = some counters :=
  Function.update_self ..

theorem fetch_cache_of_ne {device : Device} {counters : Counters} {download : MpmDownload}
    {other : Nat} (apart : other ≠ core_id) :
    (state.fetch core_id device counters download).mpm_cache_ other = state.mpm_cache_ other :=
  Function.update_of_ne apart ..

theorem data_length (counters : Counters) : counters.data.length = 32 * 8 := by
  rw [Counters.data, List.length_flatMap]
  simp

theorem counterAt_run {offset : Nat} {counters : Counters} (inside : offset ≤ 31)
    (found : state.mpm_cache_ core_id = some counters) :
    counterAt core_id offset state = .ok (counters ⟨offset, Nat.lt_succ_of_le inside⟩) state := by
  rw [counterAt, found]
  simp only [dif_pos (Nat.lt_succ_of_le inside)]

theorem entry_downloaded {src_addr : Nat} {code : Int} {bytes : List UInt8} {device : Device}
    (missing : state.mpm_cache_ core_id = none)
    (answered : accelerator.download (Counters.data fun _ => 0) src_addr state.device =
      (code, bytes, device)) : ∃ made,
    entryData core_id state = .ok (Counters.data fun _ => 0) made ∧
    downloadInto accelerator core_id (Counters.data fun _ => 0) src_addr made =
      .ok code (state.fetch core_id device (Counters.ofData bytes)
        ⟨src_addr, 32 * 8, code⟩) := by
  refine ⟨{ state with
    mpm_cache_ := Function.update state.mpm_cache_ core_id (some fun _ => 0) }, ?_, ?_⟩
  · simp only [entryData, missing, Option.getD_none]
  · simp only [downloadInto, answered, fetch, Function.update_idem, data_length]

theorem mpmQuery_cached {counters : Counters} (inside : layout.offset addr ≤ 31)
    (found : state.mpm_cache_ core_id = some counters) :
    mpmQuery accelerator layout addr core_id state =
      .ok (some (counters ⟨layout.offset addr, Nat.lt_succ_of_le inside⟩)) state := by
  simp only [mpmQuery, Nat.not_lt.mpr inside, if_false, found, Option.isNone_some,
    Bool.false_eq_true]
  exact map_ok _ (counterAt_run inside found)

theorem mpmQuery_failed {code : Int} {bytes : List UInt8} {device : Device}
    (inside : layout.offset addr ≤ 31) (missing : state.mpm_cache_ core_id = none)
    (answered : accelerator.download (Counters.data fun _ => 0) (wrap32 (layout.memAddr core_id))
      state.device = (code, bytes, device)) (fault : code ≠ 0) :
    mpmQuery accelerator layout addr core_id state =
      .ok none (state.fetch core_id device (Counters.ofData bytes)
        ⟨wrap32 (layout.memAddr core_id), 32 * 8, code⟩) := by
  obtain ⟨made, named, downloaded⟩ := entry_downloaded missing answered
  simp only [mpmQuery, Nat.not_lt.mpr inside, if_false, missing, Option.isNone_none,
    if_true]
  rw [bind_ok named, bind_ok downloaded, if_pos fault]
  rfl

/-- The entry that a failed download leaves has all counters zero. -/
theorem ofData_data_zero : Counters.ofData (Counters.data fun _ => 0) = fun _ => 0 := by
  funext offset
  revert offset
  decide

theorem mpmQuery_failed_unwritten {code : Int} {device : Device}
    (inside : layout.offset addr ≤ 31) (missing : state.mpm_cache_ core_id = none)
    (answered : accelerator.download (Counters.data fun _ => 0) (wrap32 (layout.memAddr core_id))
      state.device = (code, Counters.data fun _ => 0, device)) (fault : code ≠ 0) :
    ∃ next, mpmQuery accelerator layout addr core_id state = .ok none next ∧
      mpmQuery accelerator layout addr core_id next = .ok (some 0) next ∧
      (next.mpm_cache_ core_id).isSome ∧
      next.downloads = ⟨wrap32 (layout.memAddr core_id), 32 * 8, code⟩ :: state.downloads := by
  refine ⟨_, mpmQuery_failed inside missing answered fault, ?_, ?_, rfl⟩
  · rw [mpmQuery_cached inside fetch_cache_self, ofData_data_zero]
  · rw [fetch_cache_self]
    rfl

theorem mpmQuery_fetched {bytes : List UInt8} {device : Device}
    (inside : layout.offset addr ≤ 31) (missing : state.mpm_cache_ core_id = none)
    (answered : accelerator.download (Counters.data fun _ => 0) (wrap32 (layout.memAddr core_id))
      state.device = (0, bytes, device)) : ∃ value,
    mpmQuery accelerator layout addr core_id state =
      .ok (some value) (state.fetch core_id device (Counters.ofData bytes)
        ⟨wrap32 (layout.memAddr core_id), 32 * 8, 0⟩) := by
  obtain ⟨made, named, downloaded⟩ := entry_downloaded missing answered
  simp only [mpmQuery, Nat.not_lt.mpr inside, if_false, missing, Option.isNone_none,
    if_true]
  rw [bind_ok named, bind_ok downloaded, if_neg (not_not.mpr rfl),
    bind_ok (counterAt_run inside fetch_cache_self)]
  exact ⟨_, rfl⟩

theorem mpmQuery_effect
    (reports : ∀ dest addr device, (accelerator.download dest addr device).1 = 0 ↔
      accepts addr dest.length = true) :
    ∃ result next, mpmQuery accelerator layout addr core_id state = .ok result next ∧
      QueryEffect accepts layout state addr core_id result next := by
  by_cases outside : layout.offset addr > 31
  · refine ⟨none, state, ?_, QueryEffect.noCounter outside⟩
    simp only [mpmQuery, outside, if_true]
  · have inside : layout.offset addr ≤ 31 := Nat.not_lt.mp outside
    cases entry : state.mpm_cache_ core_id with
    | some counters =>
        exact ⟨_, state, mpmQuery_cached inside entry, QueryEffect.cached inside (by rw [entry]; rfl)⟩
    | none =>
        generalize answered : accelerator.download (Counters.data fun _ => 0)
          (wrap32 (layout.memAddr core_id)) state.device = answer
        have accepted := reports (Counters.data fun _ => 0) (wrap32 (layout.memAddr core_id))
          state.device
        obtain ⟨code, bytes, device⟩ := answer
        rw [answered, data_length] at accepted
        by_cases failed : code = 0
        · subst failed
          obtain ⟨value, ran⟩ := mpmQuery_fetched inside entry answered
          exact ⟨some value, _, ran, QueryEffect.fetched _ _ inside entry (accepted.mp rfl)⟩
        · have refused : accepts (wrap32 (layout.memAddr core_id)) (32 * 8) = false := by
            rw [← Bool.not_eq_true, ← accepted]
            exact failed
          exact ⟨none, _, mpmQuery_failed inside entry answered failed,
            QueryEffect.failed _ _ inside entry refused failed⟩

end Queries

section Effects

variable {platform : Platform} {layout : MpmLayout} {state next : MpmDevice Device}
  {addr core_id : Nat} {result : Option Nat}

/-- The address of a download counts modulo `2 ^ 32`, whatever is wrapped on the way. -/
theorem wrap32_memAddr (layout : MpmLayout) (core_id : Nat) :
    wrap32 (layout.memAddr core_id) = layout.block core_id % 2 ^ 32 := by
  simp only [wrap32, wrap64, MpmLayout.memAddr, MpmLayout.block]
  omega

theorem block_injective {core other : Nat} (same : layout.block core = layout.block other) :
    core = other := by
  simp only [MpmLayout.block] at same
  omega

theorem downloaded_fetch {device : Device} {counters : Counters} {download : MpmDownload}
    {other : Nat} :
    Downloaded layout (state.fetch core_id device counters download) other ↔
      ⟨layout.block other, 32 * 8, 0⟩ = download ∨ Downloaded layout state other :=
  List.mem_cons

theorem fetch_cache_ne {device : Device} {counters : Counters} {download : MpmDownload}
    (missing : state.mpm_cache_ core_id = none) :
    (state.fetch core_id device counters download).mpm_cache_ ≠ state.mpm_cache_ := by
  intro same
  have entry := congrFun same core_id
  rw [fetch_cache_self, missing] at entry
  cases entry

/-- For a core that is not in the cache the condition speaks about its block. -/
theorem Answerable.block_fits (answerable : Answerable platform layout state addr core_id)
    (inside : layout.offset addr ≤ 31) (missing : state.mpm_cache_ core_id = none) :
    layout.block core_id < 2 ^ 32 ∧
      transferFits platform (wrap32 (layout.memAddr core_id)) (32 * 8) = true := by
  rcases answerable with outside | found | ⟨addressed, fits⟩
  · exact (Nat.not_lt.mpr inside outside).elim
  · rw [missing] at found
    cases found
  · rw [wrap32_memAddr, Nat.mod_eq_of_lt addressed]
    exact ⟨addressed, fits⟩

theorem not_downloadFails_self : ¬ DownloadFails state state := by
  rintro ⟨download, added, -⟩
  exact List.cons_ne_self _ _ added.symm

theorem downloaded_fetched_iff (genuine : Genuine layout state)
    (missing : state.mpm_cache_ core_id = none) (device : Device) (counters : Counters) :
    Downloaded layout (state.fetch core_id device counters
        ⟨wrap32 (layout.memAddr core_id), 32 * 8, 0⟩) core_id ↔ layout.block core_id < 2 ^ 32 := by
  have fresh : ¬ Downloaded layout state core_id := by
    rw [← genuine core_id, missing]
    exact Bool.false_ne_true
  rw [downloaded_fetch, or_iff_left fresh, wrap32_memAddr, MpmDownload.mk.injEq]
  constructor
  · rintro ⟨same, -, -⟩
    rw [same]
    exact Nat.mod_lt _ (by decide)
  · intro addressed
    exact ⟨(Nat.mod_eq_of_lt addressed).symm, rfl, rfl⟩

theorem traceless_iff_of_effect {query : Action (MpmDevice Device) (Option Nat)}
    (genuine : Genuine layout state)
    (effect : QueryEffect (transferFits platform) layout state addr core_id result next) :
    Traceless query layout core_id state result next ↔
      Answerable platform layout state addr core_id := by
  cases effect with
  | noCounter outside =>
      refine iff_of_true ?_ (Or.inl outside)
      exact ⟨fun value returned => (Option.some_ne_none value returned.symm).elim,
        fun _ => rfl, fun fails => (not_downloadFails_self fails).elim⟩
  | cached inside found =>
      refine iff_of_true ?_ (Or.inr (Or.inl found))
      exact ⟨fun _ _ => (genuine core_id).mp found, fun _ => rfl,
        fun fails => (not_downloadFails_self fails).elim⟩
  | failed device counters inside missing refused fault =>
      refine iff_of_false ?_ ?_
      · intro traceless
        exact fetch_cache_ne missing (traceless.unchanged ⟨_, rfl, fault⟩)
      · intro answerable
        rw [(answerable.block_fits inside missing).2] at refused
        cases refused
  | fetched device counters inside missing accepted =>
      have unfailing : ¬ DownloadFails state (state.fetch core_id device counters
          ⟨wrap32 (layout.memAddr core_id), 32 * 8, 0⟩) := by
        rintro ⟨download, added, fault⟩
        rw [← (List.cons.inj added).1] at fault
        exact fault rfl
      constructor
      · intro traceless
        have addressed := (downloaded_fetched_iff genuine missing device counters).mp
          (traceless.downloaded _ rfl)
        rw [wrap32_memAddr, Nat.mod_eq_of_lt addressed] at accepted
        exact Or.inr (Or.inr ⟨addressed, accepted⟩)
      · intro answerable
        have addressed := (answerable.block_fits inside missing).1
        exact ⟨fun _ _ => (downloaded_fetched_iff genuine missing device counters).mpr addressed,
          fun fails => (unfailing fails).elim, fun fails => (unfailing fails).elim⟩

theorem genuine_of_effect (genuine : Genuine layout state)
    (effect : QueryEffect (transferFits platform) layout state addr core_id result next)
    (answerable : Answerable platform layout state addr core_id) : Genuine layout next := by
  cases effect with
  | noCounter outside => exact genuine
  | cached inside found => exact genuine
  | failed device counters inside missing refused fault =>
      rw [(answerable.block_fits inside missing).2] at refused
      cases refused
  | fetched device counters inside missing accepted =>
      have addressed := (answerable.block_fits inside missing).1
      intro other
      by_cases same : other = core_id
      · subst same
        rw [downloaded_fetched_iff genuine missing, fetch_cache_self]
        exact iff_of_true rfl addressed
      · have apart : ¬ (⟨layout.block other, 32 * 8, 0⟩ : MpmDownload) =
            ⟨wrap32 (layout.memAddr core_id), 32 * 8, 0⟩ := by
          rw [wrap32_memAddr, Nat.mod_eq_of_lt addressed, MpmDownload.mk.injEq]
          exact fun equal => same (block_injective equal.1)
        rw [downloaded_fetch, or_iff_right apart, fetch_cache_of_ne same]
        exact genuine other

end Effects

end MpmDevice

inductive CounterEvent (Device : Type) where
  | mpmQuery (addr core_id : Nat)
  | start (krnl_addr args_addr top_pgtbl_pa : Nat)
  | elsewhere (device : Device)

namespace Simulator

open MpmDevice

variable {simulator : Simulator} {platform : Platform} {caps : Caps → Option Nat}
  {layout : MpmLayout} {state next final : MpmDevice simulator.Device}
  {event : CounterEvent simulator.Device} {events : List (CounterEvent simulator.Device)}

/-- The other calls of a device change neither the cache nor the record. -/
def performEvent (platform : Platform) (caps : Caps → Option Nat) (layout : MpmLayout)
    (simulator : Simulator) : CounterEvent simulator.Device →
      Action (MpmDevice simulator.Device) Unit
  | .mpmQuery addr core_id => do discard (simulator.mpmQuery platform caps layout addr core_id)
  | .start krnl_addr args_addr top_pgtbl_pa => do
      discard (MpmDevice.start (simulator.accelerator platform caps) krnl_addr args_addr
        top_pgtbl_pa)
  | .elsewhere device => modify fun self => { self with device := device }

def CountedStep (platform : Platform) (caps : Caps → Option Nat) (layout : MpmLayout)
    (simulator : Simulator) (state : MpmDevice simulator.Device)
    (event : CounterEvent simulator.Device) (next : MpmDevice simulator.Device) : Prop :=
  (∀ addr core_id, event = .mpmQuery addr core_id →
    Answerable platform layout state addr core_id) ∧
  simulator.performEvent platform caps layout event state = .ok () next

theorem download_code (dest : List UInt8) (addr : Nat) (device : simulator.Device) :
    ((simulator.accelerator platform caps).download dest addr device).1 = 0 ↔
      transferFits platform addr dest.length = true := by
  have code : (ramDownload platform dest addr (simulator.ram device)).1 = 0 ↔
      transferFits platform addr dest.length = true := by
    unfold ramDownload
    split
    · next fits => exact iff_of_true rfl fits
    · next refused => exact iff_of_false (fun code : (-1 : Int) = 0 => by cases code) refused
  cases simulator with
  | simX => exact code
  | rtlSim => exact code

theorem download_refused {dest : List UInt8} {addr : Nat}
    (refused : transferFits platform addr dest.length = false) (device : simulator.Device) :
    (simulator.accelerator platform caps).download dest addr device = (-1, dest, device) := by
  have ram : ramDownload platform dest addr (simulator.ram device) = (-1, dest) := by
    rw [ramDownload, refused]
    rfl
  cases simulator with
  | simX => exact congrArg (fun answer : Int × List UInt8 => (answer.1, answer.2, device)) ram
  | rtlSim => exact congrArg (fun answer : Int × List UInt8 => (answer.1, answer.2, device)) ram

theorem download_accepted {dest : List UInt8} {addr : Nat}
    (accepted : transferFits platform addr dest.length = true) (device : simulator.Device) :
    (simulator.accelerator platform caps).download dest addr device =
      (0, load (simulator.ram device) addr dest.length, device) := by
  have ram : ramDownload platform dest addr (simulator.ram device) =
      (0, load (simulator.ram device) addr dest.length) := by
    rw [ramDownload, accepted]
    rfl
  cases simulator with
  | simX => exact congrArg (fun answer : Int × List UInt8 => (answer.1, answer.2, device)) ram
  | rtlSim => exact congrArg (fun answer : Int × List UInt8 => (answer.1, answer.2, device)) ram

theorem mpmQuery_effect (state : MpmDevice simulator.Device) (addr core_id : Nat) :
    ∃ result next, simulator.mpmQuery platform caps layout addr core_id state = .ok result next ∧
      QueryEffect (transferFits platform) layout state addr core_id result next := by
  have effect : ∃ result next,
      MpmDevice.mpmQuery (simulator.accelerator platform caps) layout addr core_id state =
        .ok result next ∧
      QueryEffect (transferFits platform) layout state addr core_id result next :=
    MpmDevice.mpmQuery_effect download_code
  cases simulator with
  | simX => exact effect
  | rtlSim => exact effect

theorem performEvent_mpmQuery {addr core_id : Nat} {result : Option Nat}
    (queried : simulator.mpmQuery platform caps layout addr core_id state = .ok result next) :
    simulator.performEvent platform caps layout (.mpmQuery addr core_id) state = .ok () next :=
  map_ok (fun _ => ()) queried

theorem event_keeps_genuine (genuine : Genuine layout state)
    (step : simulator.CountedStep platform caps layout state event next) :
    Genuine layout next := by
  obtain ⟨allowed, ran⟩ := step
  cases event with
  | mpmQuery addr core_id =>
      obtain ⟨result, later, queried, effect⟩ :=
        @mpmQuery_effect simulator platform caps layout state addr core_id
      have reached := ran.symm.trans (performEvent_mpmQuery queried)
      cases reached
      exact genuine_of_effect genuine effect (allowed addr core_id rfl)
  | start krnl_addr args_addr top_pgtbl_pa =>
      cases ran
      intro core_id
      exact iff_of_false Bool.false_ne_true (List.not_mem_nil)
  | elsewhere device =>
      cases ran
      exact genuine

/-- Where all queries so far met the condition, the next one leaves no trace of a failure
exactly if it meets the condition too. -/
theorem mpmQuery_traceless_iff (start : MpmDevice simulator.Device) (genuine : Genuine layout start)
    (run : Trace (simulator.CountedStep platform caps layout) start events state)
    (addr core_id : Nat) : ∃ result next,
      simulator.mpmQuery platform caps layout addr core_id state = .ok result next ∧
      (Traceless (simulator.mpmQuery platform caps layout addr core_id) layout core_id state result
        next ↔ Answerable platform layout state addr core_id) := by
  have kept : Genuine layout state :=
    run.invariant (Genuine layout) (fun _ _ _ => event_keeps_genuine) genuine
  obtain ⟨result, next, ran, effect⟩ :=
    @mpmQuery_effect simulator platform caps layout state addr core_id
  exact ⟨result, next, ran, traceless_iff_of_effect kept effect⟩

theorem new_genuine (device : simulator.Device) : Genuine layout (MpmDevice.new device) :=
  fun _ => iff_of_false Bool.false_ne_true List.not_mem_nil

theorem mpmQuery_accepted {addr core_id : Nat} (inside : layout.offset addr ≤ 31)
    (missing : state.mpm_cache_ core_id = none)
    (accepted : transferFits platform (wrap32 (layout.memAddr core_id)) (32 * 8) = true) :
    ∃ value counters, simulator.mpmQuery platform caps layout addr core_id state =
      .ok (some value) (state.fetch core_id state.device counters
        ⟨wrap32 (layout.memAddr core_id), 32 * 8, 0⟩) := by
  have answered := @download_accepted simulator platform caps (Counters.data fun _ => 0)
    (wrap32 (layout.memAddr core_id)) (by rw [data_length, accepted]) state.device
  obtain ⟨value, fetched⟩ := mpmQuery_fetched inside missing answered
  cases simulator with
  | simX => exact ⟨value, _, fetched⟩
  | rtlSim => exact ⟨value, _, fetched⟩

theorem smallPlatform_queried : ∃ state : MpmDevice SimXDevice,
    Trace (simX.CountedStep smallPlatform (fun _ => none) ⟨0x80, 0xB00⟩)
      (MpmDevice.new ⟨fun _ => 0, fun _ => none, none⟩) [.mpmQuery 0xB00 0] state ∧
    (state.mpm_cache_ 0).isSome ∧ state.mpm_cache_ 1 = none := by
  have answerable : Answerable smallPlatform ⟨0x80, 0xB00⟩
      (MpmDevice.new (⟨fun _ => 0, fun _ => none, none⟩ : SimXDevice)) 0xB00 0 :=
    Or.inr (Or.inr (by decide))
  obtain ⟨value, counters, queried⟩ := @mpmQuery_accepted simX smallPlatform (fun _ => none)
    ⟨0x80, 0xB00⟩ (MpmDevice.new ⟨fun _ => 0, fun _ => none, none⟩) 0xB00 0 (by decide) rfl
    (by decide)
  refine ⟨_, Trace.cons ⟨?_, performEvent_mpmQuery queried⟩ (Trace.nil _), ?_, ?_⟩
  · intro addr core_id same
    cases same
    exact answerable
  · rw [fetch_cache_self]
    rfl
  · exact fetch_cache_of_ne (by decide)

theorem mpmQuery_traceless_iff_second : ∃ state : MpmDevice SimXDevice,
    (state.mpm_cache_ 0).isSome ∧ state.mpm_cache_ 1 = none ∧
    ∀ core_id, ∃ result next,
      simX.mpmQuery smallPlatform (fun _ => none) ⟨0x80, 0xB00⟩ 0xB01 core_id state =
        .ok result next ∧
      (Traceless (simX.mpmQuery smallPlatform (fun _ => none) ⟨0x80, 0xB00⟩ 0xB01 core_id)
        ⟨0x80, 0xB00⟩ core_id state result next ↔
        Answerable smallPlatform ⟨0x80, 0xB00⟩ state 0xB01 core_id) := by
  obtain ⟨state, run, first, second⟩ := smallPlatform_queried
  exact ⟨state, first, second,
    fun core_id => mpmQuery_traceless_iff _ (new_genuine _) run 0xB01 core_id⟩

theorem mpmQuery_refused {addr core_id : Nat} (inside : layout.offset addr ≤ 31)
    (missing : state.mpm_cache_ core_id = none)
    (refused : transferFits platform (wrap32 (layout.memAddr core_id)) (32 * 8) = false) :
    ∃ next, simulator.mpmQuery platform caps layout addr core_id state = .ok none next ∧
      simulator.mpmQuery platform caps layout addr core_id next = .ok (some 0) next ∧
      (next.mpm_cache_ core_id).isSome ∧
      next.downloads = ⟨wrap32 (layout.memAddr core_id), 32 * 8, -1⟩ :: state.downloads := by
  have left : (simulator.accelerator platform caps).download (Counters.data fun _ => 0)
      (wrap32 (layout.memAddr core_id)) state.device =
      (-1, Counters.data fun _ => 0, state.device) :=
    download_refused (by rw [data_length, refused]) state.device
  have runs := mpmQuery_failed_unwritten inside missing left (by decide)
  cases simulator with
  | simX => exact runs
  | rtlSim => exact runs

/-- The last block below `2 ^ 32` ends beyond it: the first query for its core fails, the
second one answers zero. -/
theorem mpmQuery_repeated :
    (∃ next : MpmDevice SimXDevice,
      SimXDevice.mpmQuery { smallPlatform with GLOBAL_MEM_SIZE := 2 ^ 32 } (fun _ => none)
        ⟨0x80, 0xB00⟩ 0xB00 0xFFFFFF (MpmDevice.new ⟨fun _ => 0, fun _ => none, none⟩) =
        .ok none next ∧
      SimXDevice.mpmQuery { smallPlatform with GLOBAL_MEM_SIZE := 2 ^ 32 } (fun _ => none)
        ⟨0x80, 0xB00⟩ 0xB00 0xFFFFFF next = .ok (some 0) next ∧
      (next.mpm_cache_ 0xFFFFFF).isSome ∧ ¬ Downloaded ⟨0x80, 0xB00⟩ next 0xFFFFFF) ∧
    ∃ next : MpmDevice RtlSimDevice,
      RtlSimDevice.mpmQuery { smallPlatform with GLOBAL_MEM_SIZE := 2 ^ 32 } (fun _ => none)
        ⟨0x80, 0xB00⟩ 0xB00 0xFFFFFF (MpmDevice.new ⟨fun _ => 0, fun _ => none⟩) =
        .ok none next ∧
      RtlSimDevice.mpmQuery { smallPlatform with GLOBAL_MEM_SIZE := 2 ^ 32 } (fun _ => none)
        ⟨0x80, 0xB00⟩ 0xB00 0xFFFFFF next = .ok (some 0) next ∧
      (next.mpm_cache_ 0xFFFFFF).isSome ∧ ¬ Downloaded ⟨0x80, 0xB00⟩ next 0xFFFFFF := by
  have absent : (⟨0xFFFFFF80, 256, 0⟩ : MpmDownload) ∉ [⟨0xFFFFFF80, 256, -1⟩] := by decide
  have inside : (⟨0x80, 0xB00⟩ : MpmLayout).offset 0xB00 ≤ 31 := by decide
  have refused : transferFits { smallPlatform with GLOBAL_MEM_SIZE := 2 ^ 32 }
      (wrap32 ((⟨0x80, 0xB00⟩ : MpmLayout).memAddr 0xFFFFFF)) (32 * 8) = false := by decide
  constructor
  · obtain ⟨next, first, second, entry, downloads⟩ := @mpmQuery_refused simX _ (fun _ => none) _
      (MpmDevice.new ⟨fun _ => 0, fun _ => none, none⟩) _ _ inside rfl refused
    have record : next.downloads = [⟨0xFFFFFF80, 256, -1⟩] := downloads
    refine ⟨next, first, second, entry, fun found => absent ?_⟩
    rw [← record]
    exact found
  · obtain ⟨next, first, second, entry, downloads⟩ := @mpmQuery_refused rtlSim _ (fun _ => none) _
      (MpmDevice.new ⟨fun _ => 0, fun _ => none⟩) _ _ inside rfl refused
    have record : next.downloads = [⟨0xFFFFFF80, 256, -1⟩] := downloads
    refine ⟨next, first, second, entry, fun found => absent ?_⟩
    rw [← record]
    exact found

end Simulator

end Espiral
