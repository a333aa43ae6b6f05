import Usim.Lib.Outcome
import Usim.Lib.History
import Usim.Lib.StepArithmetic
import Usim.M32
import Usim.State
import Usim.MainMemory
import Usim.Uvmem
import Usim.BusAdaptor
import Usim.Translation
import Usim.PhysicalAddress
import Usim.Uexec.Registers
import Usim.AliasedStore
import Usim.Uexec.Alu
import Usim.Uexec.Control
import Usim.Uexec.Step
import Usim.MachineControl
import Usim.Uexec.Issue
import Usim.Uexec.Multiply
import Usim.Uexec.Divide
import Usim.Uexec.Effects
import Usim.Uexec.Fetch
import Usim.Invariants
import Usim.LcFlags
import Usim.MacroStream
import Usim.Boot
import Usim.MicroPc
import Usim.IndexSafety
import Usim.Lib.RingStack
import Usim.MicroStack
import Usim.CallReturn
import Usim.CSharp.Correspondence
import Usim.CSharp.Registers
import Usim.CSharp.Transfer
import Usim.BusErrors
import Usim.CSharp.BusAdaptor
import Usim.CSharp.BusEquivalence
import Usim.CSharp.DiskController
import Usim.CSharp.DiskEquivalence
import Usim.CSharp.DiskPort
import Usim.CSharp.Equivalence
import Usim.CSharp.Keyboard
import Usim.CSharp.TapeController
import Usim.CSharp.TapeDrives
import Usim.CSharp.TapeMoves
import Usim.CSharp.TapePort
import Usim.ChaosConnection
import Usim.ChaosReceive
import Usim.ConnectionOrder
import Usim.DiskInterruptLaw
import Usim.DiskPosition
import Usim.DiskTransfer
import Usim.Kbd
import Usim.KeyFifo
import Usim.PacketNumbers
import Usim.SpacingLaw
import Usim.TapeHandshake
import Usim.Uch11Transmit
import Usim.XbusInterrupts
import Usim.CSharp.ChaosFileServer
import Usim.CSharp.ConnectionIndices
import Usim.CSharp.Mouse
import Usim.CSharp.TransmitQueues
import Usim.CSharp.VirtualMemory
import Usim.IntervalTimer
import Usim.LashupAnswers
import Usim.Lib.Segments
import Usim.Sdl3KeyCodes
import Usim.StateFile
import Usim.TapeRoundTrip
import Usim.TransmitWindow
import Usim.ByteInstructions
import Usim.DiskRun
import Usim.DiskStatusLaw
import Usim.DiskTemplate
import Usim.ExactArithmetic
import Usim.Lib.Loop
import Usim.MouseRegisters
import Usim.TapeLoops
import Usim.TapeRead
import Usim.TapeTermination
import Usim.TapeUnread
import Usim.TemplateRoundTrip
import Usim.LostCount
import Usim.SegmentSearch
import Usim.PartitionLayout
import Usim.UdpChecksum
import Usim.UdpReceive
import Usim.CadetModifiers
import Usim.CSharp.PacketCodec
import Usim.CSharp.SymbolTable
import Usim.Disassembly
import Usim.IniErrors
import Usim.CSharp.ConfigRoundTrip
import Usim.RestoreEffects
import Usim.CSharp.FileConfinement
import Usim.CSharp.FileRead
import Usim.BootRequests
import Usim.CSharp.FrameUnpacking
import Usim.CSharp.DisplayInvariant
import Usim.CSharp.PowerOn
import Usim.ChaosdFraming
import Usim.BandRestore
import Usim.TableDumps
import Usim.PcHistory
import Usim.LabelText
import Usim.CSharp.MiscUtils
import Usim.CSharp.PromLoading
import Usim.VirtualPages
import Usim.FefDisassembly
import Usim.Ncp.Guarantees
import Usim.Ncp.Handshake
