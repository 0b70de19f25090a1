import LapCom.E2E.Fields
import LapCom.Registry.ServiceMap
import LapCom.Registry.Crash
import LapCom.Serialization.RoundTrip
import LapCom.Binding.Teardown
import LapCom.Binding.Reload
import LapCom.Socket.Event
import LapCom.Socket.FieldSolo
import LapCom.Socket.FieldCalls
import LapCom.Socket.FieldFrames
import LapCom.Iceoryx2.Listener
import LapCom.Socket.EventFrames
import LapCom.Socket.FieldOwnership
import LapCom.Runtime.Callbacks
import LapCom.Runtime.Races
import LapCom.Socket.MethodThreads
import LapCom.Registry.Heartbeat
import LapCom.Serialization.Bounds
import LapCom.Serialization.Refinement
import LapCom.Binding.Selection
import LapCom.Binding.Health
import LapCom.Iceoryx2.Latency
import LapCom.Socket.Deframing
import LapCom.Dds.Local
import LapCom.Iceoryx2.Offers
import LapCom.Socket.Envelope
import LapCom.E2E.J1850
import LapCom.DBus.EventSerializer
import LapCom.Tools.SlotRanges
import LapCom.Socket.FieldLifecycle
import LapCom.Socket.ServerFiles
import LapCom.SomeIp.Subscriptions
import LapCom.Registry.Initializer
import LapCom.Registry.ServeLoop
import LapCom.Registry.Processes
import LapCom.SomeIp.ConnectionManager
import LapCom.CommonApi.Adapters
import LapCom.Runtime.Skeletons
import LapCom.DBus.Field
import LapCom.Socket.EventLifecycle
import LapCom.DBus.Connections
import LapCom.Runtime.SkeletonLocks
import LapCom.Registry.InitDaemon
import LapCom.Registry.Discovery
import LapCom.Socket.SubscriberThreads
