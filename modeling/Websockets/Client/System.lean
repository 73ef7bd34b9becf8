import Websockets.Lib.Tasks
import Websockets.WorkQueue
import Websockets.Session.ClientSession

/-!
# The client with its sessions, threads and work queue

`CWebsocketClient::CImpl` cut as the server is: an operation is the atomic pieces it still has to
perform, cut where the source takes or releases `mSessionMutex` or `mCallbackMutex`, posts to a strand
or to the work queue, or calls back. A handler of a session changes the session first and then makes
its calls; nothing else on the strand runs in between. The client is alive throughout.

Every session is one connect attempt. `log` records history: the handlers the strands ran, the calls
these made, what was posted to the work queue and invoked by it, and on whose behalf.
-/

namespace Websockets

namespace Client

/-- What a callback is told. -/
inductive Notice where
  | connect
  | disconnect
  | message (message : Bytes)
  | content (content : Bytes)
  deriving DecidableEq

/-- The handlers of a strand that the history tells apart. -/
inductive Handled where
  | close
  | websocketHandshake
  | read (frame : Frame)
  | other
  deriving DecidableEq

inductive Event where
  | handled (session : Nat) (handler : Handled)
  | called (session : Nat) (call : SessionCall)
  | posted (session : Nat) (notice : Notice)
  | invoked (session : Nat) (cb : Fn) (notice : Notice)
  /-- A `Connect` call returned. -/
  | returned (promise : Nat) (success : Bool)
  | logged (line : LogLine)
  deriving DecidableEq

/-- A posted function: the callback, what it is told, and the session on whose behalf. -/
structure Posted where
  session : Nat
  cb : Fn
  notice : Notice
  deriving DecidableEq

/-- Whom an operation runs for. -/
inductive Owner where
  | user
  | strand (session : Nat)
  | worker
  deriving DecidableEq

/-- The atomic pieces of operations. -/
inductive Action where
  | connect (host : Bytes) (port : Nat) (resource : Bytes)
  | asyncConnect (host : Bytes) (port : Nat) (resource : Bytes)
  | doConnect (host : Bytes) (port : Nat) (resource : Bytes) (promise : Option Nat)
  | installSession (args : ConnectArgs)
  | sessionAsyncConnect (session : Nat) (args : ConnectArgs)
  | awaitConnect (promise : Nat)
  | close
  | sessionClose (session : Nat)
  | send (message : SOutgoingMessage)
  | sendIfOpen (session : Nat) (message : SOutgoingMessage)
  | setHandshakeHeader (name value : Bytes)
  | clearHandshakeHeaders
  | registerConnectCallback (cb : Option Fn)
  | registerDisconnectCallback (cb : Option Fn)
  | registerMessageCallback (cb : Option Fn)
  | registerContentCallback (cb : Option Fn)
  | onConnectComplete (session : Nat) (handler : OnComplete) (success : Bool)
  | resetSession (session : Nat)
  | setPromise (promise : Nat) (success : Bool)
  | notifyConnected (session : Nat)
  | onSessionMessage (session : Nat) (message : Bytes)
  | onSessionContent (session : Nat) (content : Bytes)
  | onSessionDisconnect (session : Nat)
  | post (session : Nat) (cb : Fn) (notice : Notice)
  | invokeCallback (session : Nat) (cb : Fn) (notice : Notice)
  | shutdown (onWorker : Bool)
  | takeSession
  | stopQueue (onWorker : Bool)
  | joinWorker
  | logError (line : LogLine)

end Client

structure Client where
  /-- `mSettings.sslContext` is set. -/
  sslContext : Bool := false
  /-- `mSettings.handshakeTimeoutS`. -/
  handshakeTimeoutS : Nat := 30
  mShutdown : Bool := false
  mSession : Option Nat := none
  mHandshakeHeaders : CHandshakeHeaders := ∅
  mOnConnect : Option Fn := none
  mOnDisconnect : Option Fn := none
  mOnMessage : Option Fn := none
  mOnContent : Option Fn := none
  sessions : List CSession := []
  mWorkQueue : CWorkQueue Client.Posted := {}
  /-- The promises of the `Connect` calls, by what they were set to. -/
  promises : List (Option Bool) := []
  log : List Client.Event := []

namespace Client

/-- The client and every operation on it. -/
abbrev Running := Lib.Tasks Client Owner Action

def record (s : Client) (events : List Event) : Client := { s with log := s.log ++ events }

def setQueue (s : Client) (queue : CWorkQueue Posted) : Client := { s with mWorkQueue := queue }

def mapSession (s : Client) (k : Nat) (f : CSession → CSession) : Client :=
  { s with sessions := s.sessions.modify k f }

def setSession (s : Client) (k : Nat) (t : CSession) : Client := s.mapSession k fun _ => t

/-- `Post` of a task to a session's strand. -/
def sessionPost (s : Client) (k : Nat) (task : SessionTask) : Client :=
  s.mapSession k fun t => { t with toChannel := t.toChannel.post task }

/-- `Connect` up to its wait. -/
def connect (s : Client) (host : Bytes) (port : Nat) (resource : Bytes) : Client × List Action :=
  if s.mShutdown then (s, [])
  else
    let promise := s.promises.length
    ({ s with promises := s.promises ++ [none] }, [.doConnect host port resource (some promise), .awaitConnect promise])

def asyncConnect (s : Client) (host : Bytes) (port : Nat) (resource : Bytes) : List Action :=
  if s.mShutdown then [] else [.doConnect host port resource none]

/-- `DoConnect` copies the headers, -/
def doConnect (s : Client) (host : Bytes) (port : Nat) (resource : Bytes) (promise : Option Nat) : List Action :=
  [.installSession ⟨host, port, resource, s.mHandshakeHeaders, some ⟨promise⟩⟩]

/-- creates a session and puts it in the place of the old one, which it closes, -/
def installSession (s : Client) (args : ConnectArgs) : Client × List Action :=
  let closed := match s.mSession with
    | none => s
    | some old => s.sessionPost old .close
  let k := s.sessions.length
  ({ closed with sessions := closed.sessions ++ [.create s.sslContext], mSession := some k },
    [.sessionAsyncConnect k args])

/-- and calls its `AsyncConnect`, which dispatches to the strand. -/
def sessionAsyncConnect (s : Client) (k : Nat) (args : ConnectArgs) : Client :=
  s.mapSession k fun t => { t with toChannel := t.toChannel.post (.asyncConnect args), connectCalled := true }

/-- The wait of `Connect`: for the promise, or until the safety timeout if there is one. -/
def awaitConnect (s : Client) (timedOut : Bool) (promise : Nat) : Option Client :=
  match s.promises[promise]? with
  | some (some success) => some (s.record [.returned promise success])
  | _ =>
    if timedOut && s.handshakeTimeoutS ≠ 0 then
      some (s.record [.logged (.text "Connect timed out"), .returned promise false])
    else none

def close (s : Client) : List Action := s.mSession.toList.map .sessionClose

def cannotSend : Action := .logError (.text "Cannot send: not connected")

def send (s : Client) (message : SOutgoingMessage) : List Action :=
  match s.mSession with
  | none => [cannotSend]
  | some k => [.sendIfOpen k message]

/-- `IsOpen()` and the `Send` behind it. -/
def sendIfOpen (s : Client) (k : Nat) (message : SOutgoingMessage) : Client × List Action :=
  if s.sessions[k]?.any (·.mOpen) then (s.sessionPost k (.send message), []) else (s, [cannotSend])

/-- The completion handler of `DoConnect`. -/
def onConnectComplete (k : Nat) (handler : OnComplete) (success : Bool) : List Action :=
  (if success then [.notifyConnected k] else [.resetSession k, .onSessionDisconnect k]) ++
    handler.promise.toList.map (.setPromise · success)

def resetSession (s : Client) (k : Nat) : Client :=
  if s.mSession = some k then { s with mSession := none } else s

def setPromise (s : Client) (promise : Nat) (success : Bool) : Client :=
  { s with promises := s.promises.set promise (some success) }

/-- `NotifyConnected` and the `OnSession...` calls: the callback is looked up, and posted if it is set. -/
def relay (cb : Option Fn) (k : Nat) (notice : Notice) : List Action := cb.toList.map fun fn => .post k fn notice

def post (s : Client) (k : Nat) (cb : Fn) (notice : Notice) : Client :=
  (s.setQueue (s.mWorkQueue.post ⟨k, cb, notice⟩)).record [.posted k notice]

def Notice.what : Notice → String
  | connect => "connect"
  | disconnect => "disconnect"
  | message _ => "message"
  | content _ => "content"

def invokeCallback (s : Client) (throws : Bool) (k : Nat) (cb : Fn) (notice : Notice) : Client × List Action :=
  (s.record [.invoked k cb notice],
    if throws then [.logError (.text ("Unhandled exception in " ++ notice.what ++ " callback"))] else [])

def shutdown (s : Client) (onWorker : Bool) : Client × List Action :=
  if s.mShutdown then (s, []) else ({ s with mShutdown := true }, [.takeSession, .stopQueue onWorker])

def takeSession (s : Client) : Client × List Action :=
  ({ s with mSession := none }, s.mSession.toList.map .sessionClose)

/-- `mWorkQueue.Stop()`. The worker does not wait for itself. -/
def stopQueue (s : Client) (onWorker : Bool) : Client × List Action :=
  if s.mWorkQueue.mStopped then (s, [])
  else (s.setQueue s.mWorkQueue.stop, if onWorker then [] else [.joinWorker])

/-- One atomic piece of an operation. `flag` says whether the callback called throws, or the wait
times out. -/
def exec (flag : Bool) (c : Running) (_ : Nat) (a : Action) : Option (Client × List Action) :=
  let s := c.shared
  match a with
  | .connect host port resource => some (s.connect host port resource)
  | .asyncConnect host port resource => some (s, s.asyncConnect host port resource)
  | .doConnect host port resource promise => some (s, s.doConnect host port resource promise)
  | .installSession args => some (s.installSession args)
  | .sessionAsyncConnect k args => some (s.sessionAsyncConnect k args, [])
  | .awaitConnect promise => (s.awaitConnect flag promise).map fun s' => (s', [])
  | .close => some (s, s.close)
  | .sessionClose k => some (s.sessionPost k .close, [])
  | .send message => some (s, s.send message)
  | .sendIfOpen k message => some (s.sendIfOpen k message)
  | .setHandshakeHeader name value =>
    some ({ s with mHandshakeHeaders := s.mHandshakeHeaders.insert name value }, [])
  | .clearHandshakeHeaders => some ({ s with mHandshakeHeaders := ∅ }, [])
  | .registerConnectCallback cb => some ({ s with mOnConnect := cb }, [])
  | .registerDisconnectCallback cb => some ({ s with mOnDisconnect := cb }, [])
  | .registerMessageCallback cb => some ({ s with mOnMessage := cb }, [])
  | .registerContentCallback cb => some ({ s with mOnContent := cb }, [])
  | .onConnectComplete k handler success => some (s, onConnectComplete k handler success)
  | .resetSession k => some (s.resetSession k, [])
  | .setPromise promise success => some (s.setPromise promise success, [])
  | .notifyConnected k => some (s, relay s.mOnConnect k .connect)
  | .onSessionMessage k message => some (s, relay s.mOnMessage k (.message message))
  | .onSessionContent k content => some (s, relay s.mOnContent k (.content content))
  | .onSessionDisconnect k => some (s, relay s.mOnDisconnect k .disconnect)
  | .post k cb notice => some (s.post k cb notice, [])
  | .invokeCallback k cb notice => some (s.invokeCallback flag k cb notice)
  | .shutdown onWorker => some (s.shutdown onWorker)
  | .takeSession => some s.takeSession
  | .stopQueue onWorker => some (s.stopQueue onWorker)
  | .joinWorker => if c.idle .worker then some (s, []) else none
  | .logError line => some (s.record [.logged line], [])

/-- The public interface, with the overloads that only fill in defaults left out. -/
inductive Api where
  | connect (host : Bytes) (port : Nat) (resource : Bytes)
  | asyncConnect (host : Bytes) (port : Nat) (resource : Bytes)
  | close
  | sendMessage (message : Bytes)
  | sendContent (content : Option Bytes)
  | setHandshakeHeader (name value : Bytes)
  | clearHandshakeHeaders
  | registerConnectCallback (cb : Option Fn)
  | registerDisconnectCallback (cb : Option Fn)
  | registerMessageCallback (cb : Option Fn)
  | registerContentCallback (cb : Option Fn)
  | shutdown (onWorker : Bool)

def orDefaultHost (host : Bytes) : Bytes := if host.isEmpty then str "127.0.0.1" else host

def Api.actions : Api → List Action
  | connect host port resource => [.connect (orDefaultHost host) port resource]
  | asyncConnect host port resource => [.asyncConnect (orDefaultHost host) port resource]
  | close => [.close]
  | sendMessage message => [.send { isText := true, text := message }]
  | sendContent none => []
  | sendContent (some content) => [.send { isText := false, binary := some content }]
  | setHandshakeHeader name value => [.setHandshakeHeader name value]
  | clearHandshakeHeaders => [.clearHandshakeHeaders]
  | registerConnectCallback cb => [.registerConnectCallback cb]
  | registerDisconnectCallback cb => [.registerDisconnectCallback cb]
  | registerMessageCallback cb => [.registerMessageCallback cb]
  | registerContentCallback cb => [.registerContentCallback cb]
  | shutdown onWorker => [.shutdown onWorker]

/-- What a call of a session's handler performs. -/
def ofCall (k : Nat) : SessionCall → Action
  | .onConnectComplete handler success => .onConnectComplete k handler success
  | .onSessionMessage message => .onSessionMessage k message
  | .onSessionContent content => .onSessionContent k content
  | .onSessionDisconnect => .onSessionDisconnect k
  | .logSessionError line => .logError line

def handled : Handler Stage SOutgoingMessage SessionTask → Handled
  | .posted .close => .close
  | .completed (.opening (.websocketHandshake _ _ _)) _ _ => .websocketHandshake
  | .completed .read none frame => .read frame
  | _ => .other

inductive Label where
  | api (call : Api)
  | run (i : Nat) (flag : Bool)
  | complete (k i : Nat) (ec : Option ErrorCode) (frame : Frame)
  | strand (k : Nat) (sni : Option ErrorCode)
  | work

def completeOp (s : Client) (k i : Nat) (ec : Option ErrorCode) (frame : Frame) : Option Client :=
  match s.sessions[k]? with
  | none => none
  | some t => (t.toChannel.complete i ec frame).map fun ch => s.setSession k { t with toChannel := ch }

/-- The strand of session `k` runs its next handler. -/
def runStrand (s : Client) (k : Nat) (sni : Option ErrorCode) : Option (Client × List Action) :=
  match s.sessions[k]? with
  | none => none
  | some t => (t.runNext true sni).map fun r =>
    ((s.setSession k r.1).record ((t.strand.head?.map fun h => .handled k (handled h)).toList ++ r.2.map (.called k)),
      r.2.map (ofCall k))

def step (c : Running) : Label → Option Running
  | .api call => some (c.spawn .user call.actions)
  | .run i flag => c.run (exec flag) i
  | .complete k i ec frame => (c.shared.completeOp k i ec frame).map fun s => { c with shared := s }
  | .strand k sni =>
    if c.idle (.strand k) then
      (c.shared.runStrand k sni).map fun r => Lib.Tasks.spawn { c with shared := r.1 } (.strand k) r.2
    else none
  | .work =>
    if c.idle .worker then
      c.shared.mWorkQueue.next.map fun r =>
        Lib.Tasks.spawn { c with shared := c.shared.setQueue r.2 } .worker
          [.invokeCallback r.1.session r.1.cb r.1.notice]
    else none

/-- Every interleaving of the operations and of what the environment brings. -/
def system : Lib.System Running Label := ⟨step⟩

/-- A client as `CWebsocketClient` constructs it, its worker started. -/
def create (sslContext : Bool) (handshakeTimeoutS : Nat) : Running :=
  ⟨{ sslContext := sslContext, handshakeTimeoutS := handshakeTimeoutS }, []⟩

end Client

end Websockets
