import Websockets.Lib.Tasks
import Websockets.WorkQueue
import Websockets.Server.Registry
import Websockets.Session.WsSession

/-!
# The server with its sessions, threads and work queue

An operation (a call of the public interface, a handler of a session's strand, an http request, a
function of the work queue) is a task: the atomic pieces it still has to perform, cut where the
source takes or releases `*mMutex`, posts to a strand or to the work queue, or calls back. Any
number of user calls may be in progress, so what a callback does when it calls into the server is
a further user call; a strand and the worker run one task at a time. `throws` says whether the
callback called in a step ends with an exception.

Connections are present through what they bring: upgrade requests that reach `Accept`, and plain
http requests up to the posting of their handler. A handler of a session changes the session first
and then makes its calls; nothing else on the strand runs in between.

The server is alive throughout: a session finds it whenever it asks. `log` and `listened` record
history: the events below, and whether `Start` has ever succeeded.
-/

namespace Websockets

/-- What a callback is told. `uri` and `stamp` of a connection change are history: the uri whose
callback it is, and the number of the count. -/
inductive Notice where
  | added (clientId : UInt32) (uriAppend : Bytes) (isSsl : Bool)
  | closed (clientId : UInt32)
  | connectionChange (uri : Bytes) (uriCount stamp : Nat)
  | message (clientId : UInt32) (message : Bytes)
  | content (clientId : UInt32) (content : Bytes)
  | request (clientId : UInt32) (uri : Bytes)
  deriving DecidableEq

/-- The operation that took a client out of `mClients`. -/
inductive Removal where
  | stop
  | removeClient
  | onWsClosed
  deriving DecidableEq

inductive Event where
  /-- `RegisterWsClient` entered the session under the id, or returned 0. -/
  | registered (session : Nat) (clientId : UInt32)
  | rejected (session : Nat)
  | removed (how : Removal) (task : Nat) (clientId : UInt32)
  /-- A notification was posted to the work queue or invoked, with the callbacks found set. -/
  | issued (cbs : List Fn) (notice : Notice)
  /-- A callback was invoked, by the worker or else in the calling thread. -/
  | invoked (byWorker : Bool) (cb : Fn) (notice : Notice)
  | logged (line : LogLine)
  deriving DecidableEq

structure Server where
  impl : CImpl := {}
  sessions : List CWsSession := []
  mWorkQueue : CWorkQueue (List Fn × Notice) := {}
  listened : Bool := false
  log : List Event := []

/-- Whom an operation runs for. -/
inductive Owner where
  | user
  | strand (session : Nat)
  | http
  | worker
  deriving DecidableEq

/-- The atomic pieces of operations. -/
inductive Action where
  | start (port : Nat) (clientCbs : CClientCallbacks)
  | startLocked (port : Nat) (clientCbs : CClientCallbacks)
  | stop
  | removeClient (clientId : UInt32)
  | notifyClosedSync (clientId : UInt32) (uri : Bytes)
  | addUri (uri : Bytes) (callbacks : CUriCallbacks)
  | removeUri (uri : Bytes)
  | sendToClient (clientId : UInt32) (payload : SPayload)
  | anyClients (uri : Option Bytes) (payload : SPayload)
  | broadcast (uri : Option Bytes) (payload : SPayload)
  | sessionSend (session : Nat) (payload : SPayload)
  | sessionClose (session : Nat)
  | registerWsClient (session : Nat) (target : Bytes) (isSsl : Bool)
  | registered (session : Nat) (clientId : UInt32)
  | onWsClosed (clientId : UInt32)
  | onWsMessage (clientId : UInt32) (message : Bytes)
  | onWsContent (clientId : UInt32) (content : Bytes)
  | nextConnectionId (path : Bytes)
  | findHttpHandler (clientId : UInt32) (path : Bytes)
  | postCallback (cbs : List Fn) (notice : Notice)
  | invoke (cb : Option Fn) (notice : Notice)
  | call (cbs : List Fn) (notice : Notice)
  | shutdown (onWorker : Bool)
  | stopQueue (onWorker : Bool)
  | joinWorker
  | logError (line : LogLine)
  deriving DecidableEq

/-- The server and every operation on it. -/
abbrev Running := Lib.Tasks Server Owner Action

namespace Server

def record (s : Server) (events : List Event) : Server := { s with log := s.log ++ events }

def setImpl (s : Server) (impl : CImpl) : Server := { s with impl := impl }

def setQueue (s : Server) (queue : CWorkQueue (List Fn × Notice)) : Server := { s with mWorkQueue := queue }

def mapSession (s : Server) (k : Nat) (f : CWsSession → CWsSession) : Server :=
  { s with sessions := s.sessions.modify k f }

/-- `Post` of a task to a session's strand. -/
def sessionPost (s : Server) (k : Nat) (task : WsTask) : Server :=
  s.mapSession k fun t => { t with toChannel := t.toChannel.post task }

def startLocked (s : Server) (port : Nat) (clientCbs : CClientCallbacks) : Server :=
  match s.impl.startLocked port clientCbs with
  | none => s
  | some impl => { s with impl := impl, listened := true }

def stop (s : Server) (task : Nat) : Server × List Action :=
  let (impl, entries) := s.impl.stopLocked
  ((s.setImpl impl).record (entries.map fun e => .removed .stop task e.1),
    entries.map (fun e => .sessionClose e.2.session) ++ entries.map (fun e => .notifyClosedSync e.1 e.2.uri))

def removeClient (s : Server) (task : Nat) (clientId : UInt32) : Server × List Action :=
  match s.impl.removeClientLocked clientId with
  | none => (s, [])
  | some (impl, entry) =>
    ((s.setImpl impl).record [.removed .removeClient task clientId],
      [.sessionClose entry.session, .notifyClosedSync clientId entry.uri])

def notifyClosedSync (s : Server) (clientId : UInt32) (uri : Bytes) : Server × List Action :=
  let (impl, closing) := s.impl.notifyClosedLocked uri
  (s.setImpl impl, [.invoke closing.closedCb (.closed clientId),
    .invoke closing.connectionChangeCb (.connectionChange uri closing.uriCount closing.stamp)])

def onWsClosed (s : Server) (task : Nat) (clientId : UInt32) : Server × List Action :=
  match s.impl.onWsClosedLocked clientId with
  | none => (s, [])
  | some (impl, closing) =>
    ((s.setImpl impl).record [.removed .onWsClosed task clientId],
      [.postCallback closing.closedCb.toList (.closed clientId),
        .postCallback closing.connectionChangeCb.toList
          (.connectionChange closing.uri closing.uriCount closing.stamp)])

/-- `RegisterWsClient`, and the return to `OnAccept` behind it. -/
def registerWsClient (s : Server) (k : Nat) (target : Bytes) (isSsl : Bool) : Server × List Action :=
  let path := (parseTarget target).1
  match s.impl.registerWsClientLocked k path isSsl with
  | none => (s.record [.rejected k], [.registered k 0])
  | some (impl, r) =>
    ((s.setImpl impl).record [.registered k r.clientId],
      [.postCallback r.addedCb.toList
          (.added r.clientId (s.impl.uriAppend r.matchedUri path target) isSsl),
        .postCallback r.connectionChangeCb.toList (.connectionChange r.matchedUri r.uriCount r.stamp),
        .registered k r.clientId])

/-- `OnWsMessage` and `OnWsContent`: the callbacks found, global first. -/
def onWsReceived (s : Server) (clientId : UInt32) (pick : CClientCallbacks → Option Fn)
    (pickUri : CUriCallbacks → Option Fn) (notice : Notice) : List Action :=
  let (globalCb, uriCb) := s.impl.lookupReceiveCallbacks clientId pick pickUri
  [.postCallback (globalCb.toList ++ uriCb.toList) notice]

def onWsMessage (s : Server) (clientId : UInt32) (message : Bytes) : List Action :=
  s.onWsReceived clientId CClientCallbacks.mOnClientMessageReceivedCb
    CUriCallbacks.mOnClientMessageReceivedCb (.message clientId message)

def onWsContent (s : Server) (clientId : UInt32) (content : Bytes) : List Action :=
  s.onWsReceived clientId CClientCallbacks.mOnClientContentReceivedCb
    CUriCallbacks.mOnClientContentReceivedCb (.content clientId content)

def sendToClient (s : Server) (clientId : UInt32) (payload : SPayload) : List Action :=
  match s.impl.findSession clientId with
  | none => [.logError (.text ("Cannot send: client " ++ toString clientId ++ " is not connected"))]
  | some k => [.sessionSend k payload]

/-- The first half of `HandleHttpRequest`: the id of the request's connection. -/
def nextConnectionId (s : Server) (path : Bytes) : Server × List Action :=
  let (impl, clientId) := s.impl.nextConnectionId
  (s.setImpl impl, [.findHttpHandler clientId path])

def findHttpHandler (s : Server) (clientId : UInt32) (path : Bytes) : List Action :=
  match s.impl.findHttpHandler path with
  | none => []
  | some handler => [.postCallback [handler] (.request clientId path)]

/-- `PostCallback` of a function that calls `cbs` in turn; none is posted where none is set. -/
def postCallback (s : Server) (cbs : List Fn) (notice : Notice) : Server :=
  let queue := if cbs.isEmpty then s.mWorkQueue else s.mWorkQueue.post (cbs, notice)
  (s.setQueue queue).record [.issued cbs notice]

def unhandled : Action := .logError (.text "Unhandled exception in callback")

/-- `Invoke` in the calling thread, if the callback is set. -/
def invoke (s : Server) (throws : Bool) (cb : Option Fn) (notice : Notice) : Server × List Action :=
  match cb with
  | none => (s.record [.issued [] notice], [])
  | some fn => (s.record [.issued [fn] notice, .invoked false fn notice], if throws then [unhandled] else [])

/-- `Invoke` of a posted function by the worker: an exception skips the callbacks still to come. -/
def call (s : Server) (throws : Bool) (cbs : List Fn) (notice : Notice) : Server × List Action :=
  match cbs with
  | [] => (s, [])
  | fn :: rest =>
    (s.record [.invoked true fn notice], if throws then [unhandled] else [.call rest notice])

def shutdown (s : Server) (onWorker : Bool) : Server × List Action :=
  if s.impl.mShutdown then (s, [])
  else (s.setImpl { s.impl with mShutdown := true }, [.stop, .stopQueue onWorker])

/-- `mWorkQueue.Stop()`. The worker does not wait for itself. -/
def stopQueue (s : Server) (onWorker : Bool) : Server × List Action :=
  if s.mWorkQueue.mStopped then (s, [])
  else (s.setQueue s.mWorkQueue.stop, if onWorker then [] else [.joinWorker])

/-- One atomic piece of operation `i`. -/
def exec (throws : Bool) (c : Running) (i : Nat) (a : Action) : Option (Server × List Action) :=
  let s := c.shared
  match a with
  | .start port clientCbs => some (s, if s.impl.mShutdown then [] else [.startLocked port clientCbs])
  | .startLocked port clientCbs => some (s.startLocked port clientCbs, [])
  | .stop => some (s.stop i)
  | .removeClient clientId => some (s.removeClient i clientId)
  | .notifyClosedSync clientId uri => some (s.notifyClosedSync clientId uri)
  | .addUri uri callbacks => some (s.setImpl (s.impl.addUri uri callbacks), [])
  | .removeUri uri => some (s.setImpl (s.impl.removeUri uri), [])
  | .sendToClient clientId payload => some (s, s.sendToClient clientId payload)
  | .anyClients uri payload => some (s, if s.impl.anyClients uri then [.broadcast uri payload] else [])
  | .broadcast uri payload => some (s, (s.impl.broadcastTargets uri).map (.sessionSend · payload))
  | .sessionSend k payload => some (s.sessionPost k (.send payload), [])
  | .sessionClose k => some (s.sessionPost k .close, [])
  | .registerWsClient k target isSsl => some (s.registerWsClient k target isSsl)
  | .registered k clientId => some (s.mapSession k (·.onRegistered clientId), [])
  | .onWsClosed clientId => some (s.onWsClosed i clientId)
  | .onWsMessage clientId message => some (s, s.onWsMessage clientId message)
  | .onWsContent clientId content => some (s, s.onWsContent clientId content)
  | .nextConnectionId path => some (s.nextConnectionId path)
  | .findHttpHandler clientId path => some (s, s.findHttpHandler clientId path)
  | .postCallback cbs notice => some (s.postCallback cbs notice, [])
  | .invoke cb notice => some (s.invoke throws cb notice)
  | .call cbs notice => some (s.call throws cbs notice)
  | .shutdown onWorker => some (s.shutdown onWorker)
  | .stopQueue onWorker => some (s.stopQueue onWorker)
  | .joinWorker => if c.idle .worker then some (s, []) else none
  | .logError line => some (s.record [.logged line], [])

/-- The public interface, with the overloads that only fill in defaults left out. `delayed` is a send
whose payload is built on demand. -/
inductive Api where
  | start (port : Nat) (clientCbs : CClientCallbacks)
  | stop
  | shutdown (onWorker : Bool)
  | removeClient (clientId : UInt32)
  | addUri (uri : Bytes) (callbacks : CUriCallbacks)
  | removeUri (uri : Bytes)
  | sendToClient (clientId : UInt32) (payload : SPayload)
  | broadcast (uri : Option Bytes) (payload : SPayload)
  | delayed (uri : Option Bytes) (payload : SPayload)

def Api.action : Api → Action
  | start port clientCbs => .start port clientCbs
  | stop => .stop
  | shutdown onWorker => .shutdown onWorker
  | removeClient clientId => .removeClient clientId
  | addUri uri callbacks => .addUri uri callbacks
  | removeUri uri => .removeUri uri
  | sendToClient clientId payload => .sendToClient clientId payload
  | broadcast uri payload => .broadcast uri payload
  | delayed uri payload => .anyClients uri payload

/-- What a session's call on `IServerEvents` performs. -/
def ofWsCall (k : Nat) : WsCall → Action
  | .registerWsClient target isSsl => .registerWsClient k target isSsl
  | .onWsClosed clientId => .onWsClosed clientId
  | .onWsMessage clientId message => .onWsMessage clientId message
  | .onWsContent clientId content => .onWsContent clientId content
  | .logError line => .logError line

inductive Label where
  | api (call : Api)
  | run (i : Nat) (throws : Bool)
  | upgrade (target : Bytes) (isSsl : Bool)
  | httpRequest (path : Bytes)
  | complete (k i : Nat) (ec : Option ErrorCode) (frame : Frame)
  | strand (k : Nat)
  | work

/-- An upgrade request that passes the `allowedUris` filter becomes a session. -/
def upgrade (s : Server) (target : Bytes) (isSsl : Bool) : Server :=
  if s.impl.upgradeAllowed (parseTarget target).1 then
    { s with sessions := s.sessions ++ [.accept s.impl.maxSessionBacklog target isSsl] }
  else s

def setSession (s : Server) (k : Nat) (t : CWsSession) : Server := s.mapSession k fun _ => t

def completeOp (s : Server) (k i : Nat) (ec : Option ErrorCode) (frame : Frame) : Option Server :=
  match s.sessions[k]? with
  | none => none
  | some t => (t.toChannel.complete i ec frame).map fun ch => s.setSession k { t with toChannel := ch }

/-- The strand of session `k` runs its next handler. -/
def runStrand (s : Server) (k : Nat) : Option (Server × List Action) :=
  match s.sessions[k]? with
  | none => none
  | some t => (t.runNext true).map fun r => (s.setSession k r.1, r.2.map (ofWsCall k))

def step (c : Running) : Label → Option Running
  | .api call => some (c.spawn .user [call.action])
  | .run i throws => c.run (exec throws) i
  | .upgrade target isSsl =>
    if c.shared.listened then some { c with shared := c.shared.upgrade target isSsl } else none
  | .httpRequest path =>
    if c.shared.listened then some (c.spawn .http [.nextConnectionId path]) else none
  | .complete k i ec frame => (c.shared.completeOp k i ec frame).map fun s => { c with shared := s }
  | .strand k =>
    if c.idle (.strand k) then
      (c.shared.runStrand k).map fun r => Lib.Tasks.spawn { c with shared := r.1 } (.strand k) r.2
    else none
  | .work =>
    if c.idle .worker then
      c.shared.mWorkQueue.next.map fun r =>
        Lib.Tasks.spawn { c with shared := c.shared.setQueue r.2 } .worker [.call r.1.1 r.1.2]
    else none

/-- Every interleaving of the operations and of what the environment brings. -/
def system : Lib.System Running Label := ⟨step⟩

/-- A server as `CWebsocketServer` constructs it, its worker started. -/
def create (allowedUris : Option (List Bytes)) (maxSessionBacklog : Nat) : Running :=
  ⟨{ impl := { allowedUris := allowedUris, maxSessionBacklog := maxSessionBacklog } }, []⟩

end Server

end Websockets
