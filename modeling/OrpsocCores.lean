import OrpsocCores.Foundation.Trace
import OrpsocCores.DualClockFifo.Model
import OrpsocCores.DualClockFifo.Safety
import OrpsocCores.Foundation.ByteStore
import OrpsocCores.WbPort.Model
import OrpsocCores.WbPort.Handshake
import OrpsocCores.WbPort.Ordering
import OrpsocCores.WbPort.WritePath
import OrpsocCores.Wishbone.Common
import OrpsocCores.WbRam.Model
import OrpsocCores.RamWb.Model
import OrpsocCores.RamWb.Serving
import OrpsocCores.WbRam.Refinement
import OrpsocCores.RamWb.Refinement
import OrpsocCores.WbAvalonBridge.Model
import OrpsocCores.WbAvalonBridge.Single
import OrpsocCores.WbAvalonBridge.Pipeline
import OrpsocCores.Foundation.AddressMask
import OrpsocCores.VerilogUtils
import OrpsocCores.WbIntercon.Mux
import OrpsocCores.Foundation.OrderedDict
import OrpsocCores.WbIntercon.Config
import OrpsocCores.WbIntercon.Decode
import OrpsocCores.WbIntercon.Ident
import OrpsocCores.WbIntercon.Netlist
import OrpsocCores.WbIntercon.Connections
import OrpsocCores.WbIntercon.WellFormed
import OrpsocCores.WbIntercon.Drivers
import OrpsocCores.WbIntercon.Declarations
import OrpsocCores.WbPortArbiter.Model
import OrpsocCores.WbPort.LineFlags
import OrpsocCores.WbPort.Snooping
import OrpsocCores.WbPort.Coherence
import OrpsocCores.Foundation.LastAssignment
import OrpsocCores.WbPortArbiter.Coherence
import OrpsocCores.Foundation.Rotation
import OrpsocCores.WbPortArbiter.Selection
import OrpsocCores.WbIntercon.Routing
import OrpsocCores.WbDdrCtrl.Attribution
import OrpsocCores.Foundation.FixedBuffer
import OrpsocCores.Gdb.Packet
import OrpsocCores.Gdb.Acceptance
import OrpsocCores.Gdb.RoundTrip
import OrpsocCores.Foundation.LinkedChain
import OrpsocCores.Gdb.Matchpoints
import OrpsocCores.Gdb.MatchpointTable
import OrpsocCores.Foundation.WordMemory
import OrpsocCores.Foundation.ByteRange
import OrpsocCores.Gdb.Breakpoints
import OrpsocCores.Foundation.Network
import OrpsocCores.JpVpi.Bridge
import OrpsocCores.JpVpi.Lockstep
import OrpsocCores.XilinxDdr2.Coherence
import OrpsocCores.RamWb.Fairness
import OrpsocCores.WbIntercon.Arbiter
import OrpsocCores.WbIntercon.Crossbar
import OrpsocCores.Foundation.Scanf
import OrpsocCores.Gdb.Digits
import OrpsocCores.Gdb.Target
import OrpsocCores.Gdb.DebugRegisters
import OrpsocCores.Gdb.RspServer
import OrpsocCores.Gdb.Requests
import OrpsocCores.Gdb.HandleRsp
import OrpsocCores.Gdb.HardwareBreakpoints
import OrpsocCores.Gdb.DebugView
import OrpsocCores.Gdb.Session
import OrpsocCores.Gdb.WriteBack
import OrpsocCores.Gdb.Stepping
import OrpsocCores.Gdb.RegisterBlock
import OrpsocCores.Gdb.OneReply
import OrpsocCores.Gdb.NextPc
import OrpsocCores.Gdb.Connection
import OrpsocCores.Gdb.StopReplies
import OrpsocCores.Gdb.MemoryRead
import OrpsocCores.Gdb.MemoryPacket
import OrpsocCores.Gdb.HexWrite
import OrpsocCores.Gdb.BinaryWrite
import OrpsocCores.JtagServer.Clock
import OrpsocCores.JtagServer.Tasks
import OrpsocCores.JtagServer.Dispatch
import OrpsocCores.JtagServer.CommandRuns
import OrpsocCores.WbAvalonBridge.AvalonToWb
import OrpsocCores.WbDdrCtrl.Handshake
import OrpsocCores.WbDdrCtrl.Refill
import OrpsocCores.WbPort.ReadData
import OrpsocCores.XilinxDdr2.ReadBursts
import OrpsocCores.WbBfm.Model
import OrpsocCores.WbBfm.Bursts
import OrpsocCores.Foundation.Crc
import OrpsocCores.VpiDebugModule.Crc
import OrpsocCores.Foundation.TapController
import OrpsocCores.VpiDebugModule.Model
import OrpsocCores.VpiDebugModule.Frames
import OrpsocCores.VpiDebugModule.Commands
import OrpsocCores.VpiDebugModule.WriteStreams
import OrpsocCores.WbIntercon.MuxErrors
import OrpsocCores.JpVpi.BlockReceive
import OrpsocCores.Gdb.SendRsp
import OrpsocCores.Gdb.AccessErrors
import OrpsocCores.Gdb.BreakpointErrors
import OrpsocCores.Gdb.ReadBuffers
import OrpsocCores.Gdb.SprAccess
import OrpsocCores.BurstAddresses
import OrpsocCores.RamWb.AbortedBursts
import OrpsocCores.ElfLoader.Model
import OrpsocCores.ElfLoader.Image
import OrpsocCores.ElfLoader.Preload
import OrpsocCores.JtagServer.TaskRuns
import OrpsocCores.JtagServer.ScanCapture
import OrpsocCores.Ps2.Model
import OrpsocCores.Ps2.Receive
import OrpsocCores.Ps2.Transmit
import OrpsocCores.Ps2.HostWrites
import OrpsocCores.Gdb.HexCodecs
import OrpsocCores.WbBfm.Transactor
import OrpsocCores.WbBfm.AddressRange
import OrpsocCores.WbBfm.ExpectedData
import OrpsocCores.WbBfm.BoundedMemory
import OrpsocCores.DviEncoder.Model
import OrpsocCores.DviEncoder.Balance
import OrpsocCores.DviEncoder.Link
import OrpsocCores.Axi4Memory.Model
import OrpsocCores.Axi4Memory.Sequential
import OrpsocCores.BootLoader.Boot
import OrpsocCores.DualClockFifo.Progress
import OrpsocCores.WbBfm.Bench
import OrpsocCores.WbRam.Bench
import OrpsocCores.LcdCtrl.Configuration
import OrpsocCores.DviEncoder.Convert30to15Fifo
import OrpsocCores.DviEncoder.Delivery
import OrpsocCores.Ps2.Port
import OrpsocCores.Ps2.Wishbone
import OrpsocCores.Foundation.HexImage
import OrpsocCores.WbRomGen
import OrpsocCores.Foundation.Descent
import OrpsocCores.Ps2.Progress
import OrpsocCores.Gdb.DebugAccess
import OrpsocCores.Gdb.LinkAccesses
