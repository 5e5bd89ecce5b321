import OtaMqtt.Bytes.Attempts
import OtaMqtt.Bytes.Messages
import OtaMqtt.Configuration.Identity
import OtaMqtt.Configuration.Lexical
import OtaMqtt.Configuration.Listeners
import OtaMqtt.Configuration.Loading
import OtaMqtt.Hook.Connect
import OtaMqtt.Hook.Openings
import OtaMqtt.Hook.Sleeps
import OtaMqtt.Http.Decoding
import OtaMqtt.Http.Iteration
import OtaMqtt.Http.PendingEvents
import OtaMqtt.Http.Queueing
import OtaMqtt.Http.Receiving
import OtaMqtt.Http.Recycling
import OtaMqtt.Http.RequestLine
import OtaMqtt.Http.SendBuffer
import OtaMqtt.Http.Triggers
import OtaMqtt.Http.Wedges
import OtaMqtt.Http.Wire
import OtaMqtt.Http.WriteRing
import OtaMqtt.Log.Attachments
import OtaMqtt.Log.Codec
import OtaMqtt.Log.FileAppender
import OtaMqtt.Log.Patterns
import OtaMqtt.Log.Reload
import OtaMqtt.Mqtt.Holders
import OtaMqtt.Mqtt.Listener
import OtaMqtt.Mqtt.Outage
import OtaMqtt.Net.HostText
import OtaMqtt.Net.Ports
import OtaMqtt.Net.Sockets
import OtaMqtt.Net.Subnets6
import OtaMqtt.Net.Text6
import OtaMqtt.Ota.Answers
import OtaMqtt.Ota.Conversations
import OtaMqtt.Ota.Downloads
import OtaMqtt.Ota.FilePaths
import OtaMqtt.Ota.Notifications
import OtaMqtt.Ota.Notifiers
import OtaMqtt.Ota.Orders
import OtaMqtt.Ota.Outstanding
import OtaMqtt.Ota.Rejections
import OtaMqtt.Ota.Removals
import OtaMqtt.Ota.Retention
import OtaMqtt.Ota.Serving
import OtaMqtt.Sched.ContextTable
import OtaMqtt.Sched.Contexts
import OtaMqtt.Sched.EventTable
import OtaMqtt.Sched.Exclusion
import OtaMqtt.Sched.IdleTimeout
import OtaMqtt.Sched.Pinning
import OtaMqtt.Sched.Shutdown
import OtaMqtt.Timers.LifeCycle
import OtaMqtt.Timers.Window
