import Libcortex.Lib.Run
import Libcortex.Fifo
import Libcortex.Dispatch
import Libcortex.Flush
import Libcortex.Lifetime
import Libcortex.Wakeup
import Libcortex.CtrlPipe
import Libcortex.Lib.Locks
import Libcortex.Listener
import Libcortex.Threads
import Libcortex.Lifecycle
import Libcortex.LockDiscipline
import Libcortex.DelayedShutdown
import Libcortex.UseAfterFree
import Libcortex.Worker
import Libcortex.Teardown
import Libcortex.Finish
import Libcortex.Registration
import Libcortex.NestedLoop
import Libcortex.Readiness
import Libcortex.SelfPipe
import Libcortex.DictWire
import Libcortex.DictCopy
import Libcortex.DictInvariant
import Libcortex.DictRefs
import Libcortex.CacheKeys
import Libcortex.CacheHits
import Libcortex.Completion
import Libcortex.Payload
import Libcortex.Registry
import Libcortex.SignalTable
import Libcortex.FanOut
import Libcortex.ListenerList
import Libcortex.StateMachine
import Libcortex.WriteQueue
import Libcortex.Fields
import Libcortex.Ping
import Libcortex.Libvirt
import Libcortex.Inotify
import Libcortex.Lib.Handles
import Libcortex.Timer
import Libcortex.Triggers
import Libcortex.Startup
import Libcortex.Tasks
import Libcortex.Traversal
import Libcortex.Disabled
import Libcortex.Starting
import Libcortex.SetupFailure
import Libcortex.Timeouts
import Libcortex.TimeoutWatch
import Libcortex.Deadlines
import Libcortex.SelfRemoval
import Libcortex.UpdateFd
import Libcortex.DictConv
import Libcortex.DictCmp
import Libcortex.DictLocate
import Libcortex.DictArgs
import Libcortex.EventValue
import Libcortex.CacheExpiry
import Libcortex.DictJson
import Libcortex.DictRead
import Libcortex.Lib.Buffer
import Libcortex.DictPrintf
import Libcortex.FormatEnds
import Libcortex.FormatBuffer
import Libcortex.FormatMeaning
import Libcortex.Fanotify
import Libcortex.Lib.Memory
import Libcortex.Wifi
import Libcortex.InotifyMask
import Libcortex.DictAppend
import Libcortex.Uevents
import Libcortex.Journal
import Libcortex.Netlink
import Libcortex.ChildHandlers
import Libcortex.ChildTeardown
import Libcortex.Lib.DBus
import Libcortex.SdbusItems
import Libcortex.PingSequence
import Libcortex.Lib.Descriptors
import Libcortex.Lib.Credentials
import Libcortex.Fork
import Libcortex.Popen
import Libcortex.SListNodes
import Libcortex.ListOps
import Libcortex.NetConf
import Libcortex.ForkChildren
import Libcortex.ResponseWait
import Libcortex.Lib.Attributes
import Libcortex.DictBuild
import Libcortex.RouteAddr
import Libcortex.RouteLink
import Libcortex.RouteEvents
import Libcortex.RouteWritten
import Libcortex.DictTransform
import Libcortex.UdevDict
import Libcortex.PoolShutdown
import Libcortex.SignalDelivery
import Libcortex.Lib.Edges
import Libcortex.SdbusTracks
import Libcortex.EvloopStop
import Libcortex.AfterFork
