import Espiral.Library.MachineWords
import Espiral.Library.IntrusiveLists
import Espiral.Library.Tilings
import Espiral.Library.Contracts
import Espiral.Library.Traces
import Espiral.Library.Interleavings
import Espiral.Library.Simulations
import Espiral.Library.ByteMemory
import Espiral.Common
import Espiral.Allocator.Page
import Espiral.Allocator.PageLists
import Espiral.Allocator.PageLayout
import Espiral.Allocator.PageRelease
import Espiral.Allocator.PageSearch
import Espiral.Allocator.SoundPages
import Espiral.Allocator.VortexMemoryAllocator
import Espiral.Allocator.SoundAllocator
import Espiral.Allocator.AllocatorSteps
import Espiral.Allocator.LiveMap
import Espiral.Allocator.ExactCalls
import Espiral.Allocator.LiveMapRuns
import Espiral.Allocator.Containment
import Espiral.Allocator.ExactAllocations
import Espiral.Allocator.Placement
import Espiral.Allocator.Accounting
import Espiral.Allocator.Coherence
import Espiral.Allocator.MemoryView
import Espiral.Allocator.Releases
import Espiral.Allocator.AlignedAddresses
import Espiral.Allocator.Reservations
import Espiral.Allocator.Frames
import Espiral.Allocator.BumpAllocator
import Espiral.Allocator.BumpRuns
import Espiral.Mm.HoleList
import Espiral.Mm.ScratchpadMemory
import Espiral.Mm.ScratchpadRuns
import Espiral.Mm.Pte
import Espiral.Mm.AddressSpaceManager
import Espiral.Mm.MappingHistory
import Espiral.Mm.PageMaps
import Espiral.Mm.Walk
import Espiral.Mm.Translation
import Espiral.Mm.AddressSpaceSteps
import Espiral.Mm.AddressSpaceRuns
import Espiral.Mm.SpareFrames
import Espiral.Mm.FrameSupply
import Espiral.Mm.PageMapRefinement
import Espiral.Mm.FrameOwnership
import Espiral.Mm.HoleAvoidance
import Espiral.Mm.RangeMapping
import Espiral.Mm.RangeCoverage
import Espiral.Mm.MappingFailures
import Espiral.Mm.TableRelease
import Espiral.Mm.TableDumps
import Espiral.Mm.TableNodes
import Espiral.Mm.TableCalls
import Espiral.Mm.TwinTables
import Espiral.Mm.UncheckedFlags
import Espiral.Mm.MappingDumps
import Espiral.Mm.ConcurrentWalks
import Espiral.Mm.LockedCalls
import Espiral.Mm.UninterruptedCalls
import Espiral.Mm.CallsInProgress
import Espiral.Mm.FreeingCalls
import Espiral.Mm.InterleavedCalls
import Espiral.Mm.InterleavedRuns
import Espiral.Mm.TableWork
import Espiral.Mm.RetriedFrames
import Espiral.Mm.PooledFrames
import Espiral.Mm.HeapManager
import Espiral.Mm.HeapRuns
import Espiral.Mm.HeapTermination
import Espiral.Mm.HeapAddresses
import Espiral.Mm.HeapRecovery
import Espiral.Mm.HeapFrames
import Espiral.Accelerator.HostAccelerator
import Espiral.Accelerator.Backends
import Espiral.Accelerator.PerformanceCounters
import Espiral.Spinner.Spinner
import Espiral.Spinner.Calls
import Espiral.Spinner.KernelIds
import Espiral.Spinner.Kernels
import Espiral.Spinner.Transfers
import Espiral.Spinner.LostTransfers
import Espiral.Spinner.Copies
import Espiral.Spinner.Buffers
import Espiral.Spinner.Isolation
import Espiral.Spinner.Segments
import Espiral.Spinner.Stacks
import Espiral.Spinner.Starts
import Espiral.Spinner.SpinnerRuns
import Espiral.Spinner.Launches
import Espiral.Spinner.PooledCalls
import Espiral.Spinner.FailedAllocations
import Espiral.Spinner.VxbinHeaders
import Espiral.Spinner.Footprints
import Espiral.Spinner.KernelSlots
import Espiral.Spinner.Protection
import Espiral.Spinner.StartedKernels
import Espiral.Spinner.DeviceRuns
import Espiral.Spinner.WrittenBytes
import Espiral.Spinner.HeapMemory
import Espiral.Spinner.RelatedDevices
import Espiral.Api.Espiral
import Espiral.Api.BackendRuns
import Espiral.Api.ProgramCalls
import Espiral.Api.BufferRuns
