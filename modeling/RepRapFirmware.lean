import RepRapFirmware.CAN.GenericMessages
import RepRapFirmware.CAN.StoppedDrivers
import RepRapFirmware.Endstops.EndstopRuns
import RepRapFirmware.Endstops.EndstopStops
import RepRapFirmware.Endstops.EndstopsManager
import RepRapFirmware.FilamentMonitors.ReceiveBuffer
import RepRapFirmware.FilamentMonitors.WordDecoding
import RepRapFirmware.GCodes.ArcIntervals
import RepRapFirmware.GCodes.BinaryUpload
import RepRapFirmware.GCodes.BlockVariables
import RepRapFirmware.GCodes.ChecksummedLines
import RepRapFirmware.GCodes.FilePositions
import RepRapFirmware.GCodes.KeepoutZone
import RepRapFirmware.GCodes.MisplacedBranches
import RepRapFirmware.GCodes.ParameterSearch
import RepRapFirmware.GCodes.ReadMove
import RepRapFirmware.GCodes.Rendezvous
import RepRapFirmware.GCodes.ResumedMoves
import RepRapFirmware.GCodes.SyncWith
import RepRapFirmware.GCodes.SynchronisedCommands
import RepRapFirmware.GCodes.ToolOffsets
import RepRapFirmware.GCodes.UrgentCommands
import RepRapFirmware.GCodes.WholeLines
import RepRapFirmware.Hardware.FlashProgramming
import RepRapFirmware.Hardware.IoPorts
import RepRapFirmware.Hardware.UuencodedBlocks
import RepRapFirmware.Heating.LocalHeater
import RepRapFirmware.Heating.OffMeansOff
import RepRapFirmware.Host.FaultReset
import RepRapFirmware.Host.FeedForward
import RepRapFirmware.Host.LpcInterface
import RepRapFirmware.Host.PinReplay
import RepRapFirmware.Host.PinUpdates
import RepRapFirmware.Host.Replay
import RepRapFirmware.Library.CompactedArrays
import RepRapFirmware.Library.DigitSquareRoot
import RepRapFirmware.Library.FileTree
import RepRapFirmware.Library.HalfOpenIntervals
import RepRapFirmware.Library.Json
import RepRapFirmware.Library.LeastSquares
import RepRapFirmware.Library.LineCode
import RepRapFirmware.Library.LinearSystems
import RepRapFirmware.Library.LinkedLists
import RepRapFirmware.Library.PackedTexts
import RepRapFirmware.Library.PositionedFile
import RepRapFirmware.Library.Rods
import RepRapFirmware.Library.ShiftRegister
import RepRapFirmware.Library.StreamParsers
import RepRapFirmware.Library.Terminators
import RepRapFirmware.Library.Uuencoding
import RepRapFirmware.LpcFirmware.Effects
import RepRapFirmware.LpcFirmware.FaultLatch
import RepRapFirmware.LpcFirmware.Frames
import RepRapFirmware.LpcFirmware.HeaterSafety
import RepRapFirmware.LpcFirmware.HostWatchdog
import RepRapFirmware.LpcFirmware.MainLoop
import RepRapFirmware.LpcFirmware.ModelUpdate
import RepRapFirmware.LpcFirmware.Outputs
import RepRapFirmware.LpcFirmware.PinViews
import RepRapFirmware.LpcFirmware.Reception
import RepRapFirmware.LpcFirmware.SampleHistory
import RepRapFirmware.LpcFirmware.SteadyLoop
import RepRapFirmware.LpcFirmware.TemperatureLimit
import RepRapFirmware.Movement.AccumulatedExtrusion
import RepRapFirmware.Movement.AddLinearSegments
import RepRapFirmware.Movement.AddSegment
import RepRapFirmware.Movement.AxisShaper
import RepRapFirmware.Movement.BedProbing.ExtrapolateMissing
import RepRapFirmware.Movement.BedProbing.Grid
import RepRapFirmware.Movement.BedProbing.HeightMap
import RepRapFirmware.Movement.BedProbing.HeightMapFile
import RepRapFirmware.Movement.BedProbing.HeightMapRoundTrip
import RepRapFirmware.Movement.BedProbing.SaveHeightMap
import RepRapFirmware.Movement.CoreKinematics
import RepRapFirmware.Movement.DDA
import RepRapFirmware.Movement.DDARing
import RepRapFirmware.Movement.DeltaCarriages
import RepRapFirmware.Movement.DeltaLimits
import RepRapFirmware.Movement.DisjointDrives
import RepRapFirmware.Movement.DriveMovement
import RepRapFirmware.Movement.DriveOwnership
import RepRapFirmware.Movement.LinearDelta
import RepRapFirmware.Movement.ListAmendments
import RepRapFirmware.Movement.MoveCounters
import RepRapFirmware.Movement.MoveQueue
import RepRapFirmware.Movement.PendingTimers
import RepRapFirmware.Movement.ShaperConsistency
import RepRapFirmware.Movement.StepCounts
import RepRapFirmware.Movement.StepListInvariants
import RepRapFirmware.Movement.StepLists
import RepRapFirmware.Movement.StepTimer
import RepRapFirmware.Movement.Transforms
import RepRapFirmware.Movement.ZLeadscrewKinematics
import RepRapFirmware.Networking.AtomicUploads
import RepRapFirmware.Networking.HttpParser
import RepRapFirmware.Networking.HttpRequests
import RepRapFirmware.Networking.HttpSessions
import RepRapFirmware.Networking.Uploads
import RepRapFirmware.Platform.EncodeReply
import RepRapFirmware.Platform.Event
import RepRapFirmware.Platform.FileLists
import RepRapFirmware.Platform.MessageBox
import RepRapFirmware.Platform.OutputBuffer
import RepRapFirmware.Platform.OutputPool
import RepRapFirmware.Platform.PagedLists
import RepRapFirmware.Platform.SharedOutput
import RepRapFirmware.RRFLibraries.FastSqrt
import RepRapFirmware.RRFLibraries.FixedPoint
import RepRapFirmware.RRFLibraries.IntegerFormatting
import RepRapFirmware.RRFLibraries.Isqrt
import RepRapFirmware.RRFLibraries.LockSafety
import RepRapFirmware.RRFLibraries.Matrix
import RepRapFirmware.RRFLibraries.NumericConverter
import RepRapFirmware.RRFLibraries.NumericLiterals
import RepRapFirmware.RRFLibraries.RingBuffer
import RepRapFirmware.RRFLibraries.SafeVsnprintf
import RepRapFirmware.RRFLibraries.StringFunctions
import RepRapFirmware.Shared.ErrorDetection
import RepRapFirmware.Shared.Resynchronisation
import RepRapFirmware.Shared.StreamDecoding
import RepRapFirmware.Storage.CRC32
import RepRapFirmware.Storage.FileInfoParser
import RepRapFirmware.Storage.FileLines
import RepRapFirmware.Storage.FileStore
import RepRapFirmware.Storage.MassStorage
import RepRapFirmware.Storage.ReadLine
import RepRapFirmware.Storage.RecursiveDelete
import RepRapFirmware.Storage.Rename
import RepRapFirmware.Storage.WriteBuffering
import RepRapFirmware.Tools.HeaterFaults
import RepRapFirmware.Tools.Tool
