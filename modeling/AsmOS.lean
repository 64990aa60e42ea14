import AsmOS.Storage.Frame
import AsmOS.Storage.NameMap
import AsmOS.Storage.Remount
import AsmOS.Storage.FailedWrite
import AsmOS.Heap.Coalescing
import AsmOS.Heap.UsageMeter
import AsmOS.Storage.FatPutRead
import AsmOS.Swap.SwapRoundTrip
import AsmOS.Swap.SwapAccounting
import AsmOS.Net.PartyMembership
import AsmOS.Net.SharedDriver
import AsmOS.Net.BroadcastMedium
import AsmOS.Net.NetworkController
import AsmOS.Net.PartyRoles
import AsmOS.Net.MemberFlags
import AsmOS.Net.LinkSilence
import AsmOS.Net.KeepAlive
import AsmOS.Net.StreamingTraffic
import AsmOS.Net.NetDrivers
import AsmOS.Boot.KernelLoad
import AsmOS.Console.Kprintf
import AsmOS.Console.ScanFields
import AsmOS.Swap.BudgetLimits
import AsmOS.Swap.BudgetLedger
import AsmOS.Swap.SwapHandles
import AsmOS.Swap.CodecBounds
import AsmOS.Storage.ReaderAgreement
import AsmOS.Storage.CopyTools
import AsmOS.Storage.ChunkStream
import AsmOS.Storage.SyncStreams
import AsmOS.Sched.ContextSwitch
import AsmOS.Sched.Waiting
import AsmOS.Games.InvadersInvariant
import AsmOS.Games.InvadersLanding
import AsmOS.Games.InvadersPicture
import AsmOS.Games.SnakeInvariant
import AsmOS.Games.GameHistory
import AsmOS.Games.GameReports
import AsmOS.Games.Tetris
import AsmOS.Games.TetrisInvariant
import AsmOS.Games.TetrisRun
import AsmOS.Console.ScreenTail
import AsmOS.Console.VgaText
import AsmOS.Console.ReadBack
import AsmOS.Console.LineInput
import AsmOS.Boot.ImageBoot
import AsmOS.Net.PayloadCorruption
import AsmOS.Net.BatchBounds
import AsmOS.Storage.WriteBounds
import AsmOS.Storage.ListBuffer
import AsmOS.Storage.NameSplit
import AsmOS.Storage.ListedNames
import AsmOS.Storage.ReadOverrun
import AsmOS.Storage.FatMirror
import AsmOS.Storage.ImageGrowth
import AsmOS.Storage.Reinstall
import AsmOS.Base.CStrings
import AsmOS.Base.SignedWords
import AsmOS.Graphics.Shapes
import AsmOS.Graphics.Lines
import AsmOS.Devices.PauseWhitelist
import AsmOS.Devices.ControllerRemap
import AsmOS.Devices.Bluetooth
import AsmOS.Base.OnesComplement
import AsmOS.Net.Addresses
import AsmOS.Net.Icmp
import AsmOS.Net.NetStreams
import AsmOS.Net.Ping
import AsmOS.Net.RoomInfo
import AsmOS.Net.SlotReads
import AsmOS.Net.FramePartition
import AsmOS.Storage.StreamPolling
import AsmOS.Storage.QueueReuse
import AsmOS.Storage.ChunkResults
import AsmOS.Storage.PackedEntries
import AsmOS.Shell.NextWord
import AsmOS.Shell.CommandLine
import AsmOS.Devices.QuantumProfiles
import AsmOS.Shell.TypedCommand
import AsmOS.Shell.ShellSession
import AsmOS.Shell.WordCommands
import AsmOS.Shell.PartyCommand
import AsmOS.Base.Reversal
import AsmOS.Graphics.Font
import AsmOS.Graphics.Text
import AsmOS.Graphics.Picture
import AsmOS.Graphics.CellGrid
import AsmOS.Games.Pong
import AsmOS.Games.PongDefence
import AsmOS.Games.Racing
import AsmOS.Games.RacingTraffic
import AsmOS.Games.TetrisLedger
import AsmOS.Games.SnakePicture
import AsmOS.Games.TetrisPicture
import AsmOS.Storage.AtaDriver
import AsmOS.Storage.AtaRefinement
import AsmOS.Storage.TapeStore
import AsmOS.Storage.BuiltDisk
import AsmOS.Storage.FaultMasking
import AsmOS.Storage.SaveManager
