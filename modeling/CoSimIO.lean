import CoSimIO.Library.Schedule
import CoSimIO.Library.FileProcess
import CoSimIO.Basic
import CoSimIO.Communication.Files
import CoSimIO.Communication.SynchronizeAll
import CoSimIO.Communication.FileCommunication
import CoSimIO.Communication.Mailbox
import CoSimIO.Communication.MailboxRuns
import CoSimIO.Communication.MessageDelivery
import CoSimIO.Library.DoubleRounding
import CoSimIO.Utilities.PartnerRanks
import CoSimIO.Connections.Control
import CoSimIO.Connections.Registry
import CoSimIO.Library.LittleEndian
import CoSimIO.Communication.Pipe
import CoSimIO.Library.NumberText
import CoSimIO.Serializer.Stream
import CoSimIO.Serializer.ReadBack
import CoSimIO.Serializer.TextModes
import CoSimIO.Library.Restore
import CoSimIO.Serializer.Pointers
import CoSimIO.Serializer.PointerRules
import CoSimIO.Serializer.VectorRules
import CoSimIO.Library.Sequences
import CoSimIO.ModelPart.Basic
import CoSimIO.ModelPart.Invariant
import CoSimIO.ModelPart.Preservation
import CoSimIO.ModelPart.Consistency
import CoSimIO.ModelPart.Serialization
import CoSimIO.ModelPart.Isomorphism
import CoSimIO.Connections.DisconnectStatus
import CoSimIO.ModelPart.Restoring
import CoSimIO.ModelPart.Bulk
import CoSimIO.Communication.PipeChunks
import CoSimIO.Utilities.Naming
import CoSimIO.Library.NumberFormat
import CoSimIO.Serializer.DoublePrecision
import CoSimIO.Serializer.Values
import CoSimIO.Serializer.Writability
import CoSimIO.Serializer.ValueRules
import CoSimIO.Serializer.TraceTags
import CoSimIO.Vtk.Format
import CoSimIO.Vtk.Lines
import CoSimIO.Vtk.Scanning
import CoSimIO.ModelPart.Meshes
import CoSimIO.Vtk.Sections
import CoSimIO.Vtk.RoundTrip
import CoSimIO.ModelPart.Placing
import CoSimIO.ModelPart.InnerParts
import CoSimIO.ModelPart.PartitionMap
import CoSimIO.ModelPart.Loadable
import CoSimIO.ModelPart.Overwriting
import CoSimIO.ModelPart.Targets
import CoSimIO.ModelPart.Agreement
import CoSimIO.ModelPart.Importing
import CoSimIO.ModelPart.RoundTrip
import CoSimIO.Library.OrderedMap
import CoSimIO.Info.Basic
import CoSimIO.Info.Serialization
import CoSimIO.Info.Values
import CoSimIO.Info.Restoring
import CoSimIO.Info.Entries
import CoSimIO.Info.Loading
import CoSimIO.Info.RoundTrip
import CoSimIO.Library.Collective
import CoSimIO.Mpi.Standard
import CoSimIO.Mpi.Reference
import CoSimIO.Mpi.DataCommunicator
import CoSimIO.Mpi.Rules
import CoSimIO.Library.Packing
import CoSimIO.Mpi.Buffers
import CoSimIO.Mpi.Scattering
import CoSimIO.Mpi.Gathering
import CoSimIO.Mpi.InputErrors
import CoSimIO.Library.Block
import CoSimIO.Data.Containers
import CoSimIO.Data.Transfer
import CoSimIO.Data.Importing
import CoSimIO.Data.Exchange
import CoSimIO.Data.CInterface
import CoSimIO.Library.Duplex
import CoSimIO.Communication.Sockets
import CoSimIO.Serializer.PlainValues
import CoSimIO.Info.Access
import CoSimIO.Info.Building
import CoSimIO.Serializer.Formats
import CoSimIO.Info.Files
import CoSimIO.Communication.ConnectionInfo
import CoSimIO.Communication.MyInfo
import CoSimIO.Communication.SocketConnection
import CoSimIO.Library.FileFrame
import CoSimIO.Library.FileScript
import CoSimIO.Library.FileProtocol
import CoSimIO.Library.FileSequel
import CoSimIO.Library.FileCleaning
import CoSimIO.Communication.HandShake
import CoSimIO.Communication.Compatibility
import CoSimIO.Communication.HandShakePhases
import CoSimIO.Communication.HandShakeRuns
import CoSimIO.Communication.HandShakeAgreement
import CoSimIO.Library.DuplexConfluence
import CoSimIO.Library.Dialog
import CoSimIO.Communication.SocketDialog
import CoSimIO.Communication.InfoTransfer
import CoSimIO.Communication.ObjectTransfer
import CoSimIO.Communication.BarrierProtocol
import CoSimIO.Communication.HandShakeProtocol
import CoSimIO.Communication.FileSession
import CoSimIO.Info.Observations
import CoSimIO.Library.Slots
import CoSimIO.Communication.FileTransfers
import CoSimIO.Communication.TransferProtocol
import CoSimIO.Communication.FileSimulation
