import PaxAdb.SystemCalls
import PaxAdb.LittleEndian
import PaxAdb.ExactTransfer
import PaxAdb.Systool
import PaxAdb.SystoolCodes
import PaxAdb.Ring
import PaxAdb.Runs
import PaxAdb.Lifecycle
import PaxAdb.LifecycleView
import PaxAdb.LifecycleBook
import PaxAdb.TransportList
import PaxAdb.TransportLifetime
import PaxAdb.TransportDescriptors
import PaxAdb.Teardown
import PaxAdb.Sockets
import PaxAdb.SocketOps
import PaxAdb.SmartSocket
import PaxAdb.HandlePacket
import PaxAdb.EventLoop
import PaxAdb.SocketGraph
import PaxAdb.SocketSpecs
import PaxAdb.GraphOps
import PaxAdb.GraphClose
import PaxAdb.GraphOpen
import PaxAdb.SocketMoves
import PaxAdb.MoveGraph
import PaxAdb.CallbackMoves
import PaxAdb.MoveFrames
import PaxAdb.SmartMoves
import PaxAdb.DispatchMoves
import PaxAdb.StepMoves
import PaxAdb.PacketMoves
import PaxAdb.SocketInvariant
import PaxAdb.TransportIsolation
import PaxAdb.Flushing
import PaxAdb.Duplex
import PaxAdb.Multiplex
import PaxAdb.SocketIds
import PaxAdb.SocketEnds
import PaxAdb.PacketEnds
import PaxAdb.Endpoints
import PaxAdb.Streams
import PaxAdb.IdReuse
import PaxAdb.SocketTurns
import PaxAdb.SocketNumbers
import PaxAdb.StreamCloses
import PaxAdb.Wire
import PaxAdb.InputThread
import PaxAdb.TransportLinks
import PaxAdb.OnlineState
import PaxAdb.DeviceTracking
import PaxAdb.Pump
import PaxAdb.SendBounds
import PaxAdb.PipeCapacity
import PaxAdb.Proc
import PaxAdb.SyncClient
import PaxAdb.SyncFrames
import PaxAdb.SyncBounds
import PaxAdb.SyncReplies
import PaxAdb.SyncPull
import PaxAdb.SyncFuel
import PaxAdb.SyncPush
import PaxAdb.SyncUnlink
import PaxAdb.ShellWords
import PaxAdb.StringBuffer
import PaxAdb.ToolCommand
import PaxAdb.DirectoryPull
import PaxAdb.DirectoryPush
import PaxAdb.DirectorySync
import PaxAdb.ForwardRequest
import PaxAdb.SerialAddressing
import PaxAdb.Decimal
import PaxAdb.ConnectDevice
import PaxAdb.ClientStatus
import PaxAdb.Banner
import PaxAdb.ConnectData
import PaxAdb.SmartRequests
import PaxAdb.Walk
import PaxAdb.AcquireTransport
import PaxAdb.Listeners
import PaxAdb.ListenerRuns
import PaxAdb.Sessions
import PaxAdb.Cells
import PaxAdb.FdTable
import PaxAdb.FdEvents
import PaxAdb.PendingEvents
import PaxAdb.FdBookkeeping
import PaxAdb.Traced
import PaxAdb.UsbScan
import PaxAdb.UsbTransfer
import PaxAdb.PrintBuffer
import PaxAdb.DeviceListing
import PaxAdb.DeviceSelection
import PaxAdb.ListenerListing
import PaxAdb.ToolManage
import PaxAdb.Sideload
import PaxAdb.PersistApp
import PaxAdb.PublicKey
import PaxAdb.AuthKeys
import PaxAdb.CloseAll
import PaxAdb.EnqueueContract
import PaxAdb.CopyFile
import PaxAdb.InstallSession
import PaxAdb.UsbPoll
import PaxAdb.LocalTransports
