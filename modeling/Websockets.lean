import Websockets.Lib.System
import Websockets.Lib.Tasks
import Websockets.Lib.MapCount
import Websockets.Lib.Roster
import Websockets.WorkQueue
import Websockets.IoPool
import Websockets.WorkMonitor
import Websockets.Lifetime
import Websockets.Target.Query
import Websockets.Target.Calls
import Websockets.Session.Guarantees
import Websockets.Session.Ledger
import Websockets.Session.ReadSide
import Websockets.Client.System
import Websockets.Client.Relay
import Websockets.Client.Trace
import Websockets.Client.Standing
import Websockets.Client.Cancel
import Websockets.Client.Current
import Websockets.Server.Registry
import Websockets.Server.System
import Websockets.Server.Steps
import Websockets.Server.Counts
import Websockets.Server.Matching
import Websockets.Server.Delayed
import Websockets.Server.Throwing
import Websockets.Server.Locking
import Websockets.Server.Deadlock
import Websockets.Server.Listening
import Websockets.Server.Wrapper
import Websockets.Server.Received
import Websockets.Server.Routing
import Websockets.Server.Stopped
import Websockets.Server.Reports
import Websockets.Server.Closed
import Websockets.Server.Sessions
import Websockets.Server.Agreement
import Websockets.Server.Presence
import Websockets.Server.Rest
import Websockets.Server.Order
import Websockets.Shutdown
import Websockets.Client.Truth
import Websockets.Client.Outcome
import Websockets.Http.Responses
import Websockets.Http.ErrorBody
import Websockets.Http.Identity
import Websockets.Delivery
