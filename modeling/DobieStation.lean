import DobieStation.Lib.Reach
import DobieStation.Lib.Accumulator
import DobieStation.Lib.Hoare
import DobieStation.Lib.Arbitration
import DobieStation.Timing.Model
import DobieStation.Timing.Events
import DobieStation.Timing.Timeliness
import DobieStation.Timing.Counter
import DobieStation.Timing.Armed
import DobieStation.Timing.Operations
import DobieStation.Timing.EETimers
import DobieStation.Timing.Deadline
import DobieStation.Dma.Model
import DobieStation.Dma.Registers
import DobieStation.Dma.Handlers
import DobieStation.Dma.Arbiter
import DobieStation.Dma.WorkConservation
import DobieStation.Dma.TagWalk
import DobieStation.Dma.ChainTags
import DobieStation.Dma.ChainFrame
import DobieStation.Dma.SourceChain
import DobieStation.Dma.ChainRun
import DobieStation.Lib.Priority
import DobieStation.Lib.Relational
import DobieStation.Lib.Serial
import DobieStation.Iop.Model
import DobieStation.Iop.Handlers
import DobieStation.Iop.Arbiter
import DobieStation.Dma.Outside
import DobieStation.Sif.Machine
import DobieStation.Sif.Bound
import DobieStation.Sif.Packets
import DobieStation.Sif.Delivery
import DobieStation.Sif.DeliveryRun
import DobieStation.Gif.Model
import DobieStation.Gif.Feed
import DobieStation.Gif.Arbiter
import DobieStation.Gif.Stream
import DobieStation.Tlb.Model
import DobieStation.Tlb.Translation
import DobieStation.Lib.Memory
import DobieStation.Lib.LinkedList
import DobieStation.JitHeap.Model
import DobieStation.JitHeap.Layout
import DobieStation.JitHeap.Allocator
import DobieStation.JitHeap.Safety
import DobieStation.SaveState.Controllers
import DobieStation.SaveState.Gif
import DobieStation.Vif.Model
import DobieStation.Vif.Frame
import DobieStation.SaveState.Vif
import DobieStation.Timing.Ownership
import DobieStation.SaveState.Timers
import DobieStation.Lib.Interaction
import DobieStation.Ee.Interface
import DobieStation.Ee.Instructions
import DobieStation.Ee.Run
import DobieStation.Ee.ProgramOrder
import DobieStation.Ee.Control
import DobieStation.Ee.Precise
import DobieStation.Ee.Interrupts
import DobieStation.Vu.Pipeline
import DobieStation.Vu.Snapshot
import DobieStation.Iop.Arithmetic
import DobieStation.Lib.Fault
import DobieStation.Iop.Serial
import DobieStation.Iop.Containment
import DobieStation.Spu.Model
import DobieStation.Spu.Containment
import DobieStation.Lib.Fairness
import DobieStation.Cdvd.Model
import DobieStation.Cdvd.Reading
import DobieStation.Cdvd.Breaking
import DobieStation.Lib.Fields
import DobieStation.Gs.Model
import DobieStation.Gs.Doublewords
import DobieStation.Gs.HostToLocal
import DobieStation.Lib.Lanes
import DobieStation.Mmi.Model
import DobieStation.Mmi.Meaning
import DobieStation.Mmi.Stores
import DobieStation.Mmi.Arithmetic
import DobieStation.Mmi.Correctness
import DobieStation.EeJit.Cycles
import DobieStation.EeJit.CycleCount
import DobieStation.Vu.Cop2
import DobieStation.Vu.FastForward
import DobieStation.Gs.Registers
import DobieStation.Gs.Manager
import DobieStation.Gs.Signal
import DobieStation.Lib.Replica
import DobieStation.Gs.Replica
import DobieStation.Tlb.Alignment
import DobieStation.Ee.Bytes
import DobieStation.Ee.Unaligned
import DobieStation.Gs.Rendezvous
import DobieStation.Gs.LocalToHost
import DobieStation.Gs.Packing
import DobieStation.Gs.Pages
import DobieStation.Gs.Download
import DobieStation.Lib.LastWrite
import DobieStation.Gs.RoundTrip
import DobieStation.GsThread.Context
import DobieStation.GsThread.Emitter
import DobieStation.Lib.BitFields
import DobieStation.GsThread.Registers
import DobieStation.GsThread.PixelJit
import DobieStation.GsThread.TextureJit
import DobieStation.Ipu.Dequantize
import DobieStation.Gs.Halves
import DobieStation.Gif.Packets
import DobieStation.Gif.Framing
import DobieStation.GsThread.Vertices
import DobieStation.GsThread.Assembly
import DobieStation.Lib.BitSpans
import DobieStation.Gs.LocalToLocal
import DobieStation.Gs.LocalCopy
import DobieStation.Gs.CopyOrder
import DobieStation.GsThread.Rasterizer
import DobieStation.GsThread.Lines
import DobieStation.GsThread.Coordinates
import DobieStation.GsThread.Palette
import DobieStation.GsThread.PaletteLoad
import DobieStation.GsThread.PaletteAgreement
import DobieStation.GsThread.PaletteColors
import DobieStation.Gs.CRT
import DobieStation.Gs.OutputBounds
import DobieStation.Lib.BitStrings
import DobieStation.Lib.PrefixCode
import DobieStation.Ipu.Fifo
import DobieStation.Ipu.Vlc
import DobieStation.Ipu.Tables
import DobieStation.Vu.IntBranchPipeline
import DobieStation.Ipu.Top
import DobieStation.Tlb.RoundTrip
import DobieStation.Ee.Count
import DobieStation.Ee.Selection
import DobieStation.Timing.Reads
import DobieStation.Lib.AdjacentModuli
import DobieStation.Spu.ReverbAddress
import DobieStation.Spu.Adpcm
import DobieStation.Spu.Playback
import DobieStation.Spu.Voices
import DobieStation.Spu.VoiceRuns
import DobieStation.Spu.VoiceSystem
import DobieStation.Ipu.RunLevels
import DobieStation.Timing.ZeroReturn
import DobieStation.Timing.Registers
import DobieStation.Timing.Restart
import DobieStation.Timing.ClearOnTarget
import DobieStation.Spu.Adsr
import DobieStation.Iop.PageTransfers
import DobieStation.Iop.Gamepad
import DobieStation.Iop.Framing
import DobieStation.Iop.SectorWindow
import DobieStation.Iop.ChainEnd
import DobieStation.Lib.Odometer
import DobieStation.Cdvd.SCommands
import DobieStation.Cdvd.CommandRegisters
import DobieStation.Cdvd.Clock
import DobieStation.Iop.ExceptionStack
import DobieStation.Iop.Unaligned
import DobieStation.Cdvd.Readers
import DobieStation.Lib.Loops
import DobieStation.Cdvd.Lookup
import DobieStation.JitHeap.Coalescing
import DobieStation.Lib.FirstResult
import DobieStation.JitHeap.PageRecords
import DobieStation.JitHeap.Insertion
import DobieStation.JitHeap.Dispatch
import DobieStation.JitHeap.StackHeap
import DobieStation.Lib.ReleaseAcquire
import DobieStation.Gs.CircularFifo
import DobieStation.Lib.DepthBuffer
import DobieStation.Gs.Buffers
import DobieStation.GsThread.DrawPixel
import DobieStation.GsThread.Surface
import DobieStation.Lib.Staged
import DobieStation.EeJit.Host
import DobieStation.EeJit.RegisterCache
import DobieStation.EeJit.Coherence
import DobieStation.EeJit.Allocation
import DobieStation.EeJit.Integer
import DobieStation.EeJit.Effects
import DobieStation.EeJit.Emission
import DobieStation.Ee.Arithmetic
import DobieStation.EeJit.Translation
import DobieStation.EeJit.Agreement
