import Websockets.Lib.System
import Websockets.WorkQueue
import Websockets.Server.Registry

/-!
# `CHttpConnection` and `CHttpWrapper`

One http connection with the requests it reads, their messages and wrappers, and the work queue its callbacks
are posted to. `todo` is the rest of an `OnRead` that runs on the strand, cut where it enters the server;
what the rest of the server does to `CImpl` in between is arbitrary. A wrapper is told apart by the number of
its request, and whatever has a reference to it is a place in the state: the local variable of
`HandleHttpRequest`, a function in the queue or just discarded from it, the callback that runs, and the copies
that handlers keep. Releasing the last reference runs the destructor in the same step.

`mResponseSent` is not atomic: calls of `Reply` on one wrapper do not overlap. The exchanges, the numbers of
the writes and `log` record history.
-/

namespace Websockets

/-- A parsed request as `mParser->release()` returns it; without a content type that is empty. -/
structure CHttpRequest where
  version : UInt32 := 11
  keepAlive : Bool := true
  isUpgrade : Bool := false
  target : Bytes
  method : Bytes
  contentType : Bytes := []
  body : Bytes := []
  deriving DecidableEq

structure CHttpResponse where
  version : UInt32
  result : UInt32
  /-- Empty where the text is the one that belongs to the result. -/
  reason : Bytes
  keepAlive : Bool
  contentType : Bytes
  body : Bytes
  deriving DecidableEq

structure HttpMsg where
  body : Bytes := []
  keepAlive : Bool := true
  version : UInt32 := 11
  uri : Bytes := []
  method : Bytes := []
  reason : Bytes := str "OK"
  responseCode : UInt32 := 200
  clientId : UInt32 := 0
  contextType : Bytes := str "application/json"
  queryParameters : HttpQueryParameters := ∅

def httpErrorMessage (shortMsg longMsg : Bytes) : Bytes :=
  str "\x7b\"message\": \x7b \"shortMessage\": \"" ++ shortMsg ++ str "\", \"longMessage\": \"" ++ longMsg ++
    str "\"\x7d\x7d"

namespace HttpMsg

/-- The message `HandleHttpRequest` makes of a request, but for the id. -/
def ofRequest (request : CHttpRequest) : HttpMsg :=
  let target := parseTarget request.target
  { body := request.body, keepAlive := request.keepAlive, version := request.version, uri := target.1,
    queryParameters := target.2, method := request.method,
    contextType := if request.contentType.isEmpty then str "application/json" else request.contentType }

/-- What the destructor of a wrapper makes of the message. -/
def badRequest (msg : HttpMsg) : HttpMsg :=
  { msg with responseCode := 400, reason := str "Bad Request", contextType := str "application/json"
             body := httpErrorMessage (str "Bad Request") (str "The request was not handled") }

/-- The response `SendResponse` builds; `none` where `result` throws. -/
def response (msg : HttpMsg) : Option CHttpResponse :=
  if msg.responseCode ≤ 999 then
    some { version := if msg.version = 0 then 11 else msg.version, result := msg.responseCode,
           reason := msg.reason, keepAlive := msg.keepAlive, contentType := msg.contextType, body := msg.body }
  else none

end HttpMsg

namespace CHttpRequest

/-- The response `SendErrorResponse` builds. -/
def errorResponse (request : CHttpRequest) (status : UInt32) (reason jsonBody : Bytes) (keepAlive : Bool) :
    CHttpResponse :=
  { version := request.version, result := status, reason := reason, keepAlive := keepAlive,
    contentType := str "application/json", body := jsonBody }

def notAllowed (request : CHttpRequest) : CHttpResponse :=
  request.errorResponse 404 (str "Not Found") (httpErrorMessage (str "Not Found")
    (str "Websocket uri '" ++ (parseTarget request.target).1 ++ str "' is not allowed")) false

def notFound (request : CHttpRequest) : CHttpResponse :=
  request.errorResponse 404 (str "Not Found") (httpErrorMessage (str "Not Found")
    (str "No handler registered for '" ++ (parseTarget request.target).1 ++ str "'")) request.keepAlive

end CHttpRequest

structure CHttpWrapper where
  mResponseSent : Bool := false
  alive : Bool := true
  deriving DecidableEq

/-- A request, the message shared by its wrapper, its handler and the reply, and the wrapper. No message is
made for an upgrade request that is turned away. -/
structure Exchange where
  request : CHttpRequest
  mHttpMsg : HttpMsg := {}
  wrapper : Option CHttpWrapper := none
  /-- The message was changed after the wrapper was destroyed. -/
  late : Bool := false

namespace CHttpConnection

/-- The asynchronous operations on the stream; a write answers request `n`. -/
inductive Op where
  | handshake
  | read
  | write (n : Nat) (response : CHttpResponse)
  | shutdown
  deriving DecidableEq

/-- The handlers posted to the strand. -/
inductive Task where
  | onHandshake (ec : Option ErrorCode)
  | onRead (ec : Option ErrorCode) (request : CHttpRequest)
  | onWrite (n : Nat) (response : CHttpResponse) (ec : Option ErrorCode)
  | onShutdown
  | sendResponse (n : Nat)
  deriving DecidableEq

/-- What `HandleHttpRequest` does next with request `n`. -/
inductive Stage where
  | nextConnectionId (n : Nat)
  | findHttpHandler (n : Nat)
  | postCallback (handler : Fn) (n : Nat)
  | leave (n : Nat)
  deriving DecidableEq

/-- A function in the work queue: the callback of request `n`, or one of somebody else. -/
inductive Job where
  | request (handler : Fn) (n : Nat)
  | other
  deriving DecidableEq

inductive Event where
  /-- The `async_read` of request `n` was started. -/
  | readStarted (n : Nat)
  | writeStarted (n : Nat) (response : CHttpResponse)
  | written (n : Nat)
  | upgraded
  | logged (line : LogLine)
  deriving DecidableEq

def Op.completion (ec : Option ErrorCode) (request : CHttpRequest) : Op → Task
  | handshake => .onHandshake ec
  | read => .onRead ec request
  | write n response => .onWrite n response ec
  | shutdown => .onShutdown

/-- The wrapper a local variable refers to. -/
def Stage.wrapper : Stage → Option Nat
  | postCallback _ n | leave n => some n
  | _ => none

def Job.wrapper : Job → Option Nat
  | request _ n => some n
  | other => none

end CHttpConnection

structure CHttpConnection where
  isSsl : Bool
  impl : CImpl
  /-- `mEvents` still finds the server. -/
  alive : Bool := true
  exchanges : List Exchange := []
  pending : List CHttpConnection.Op := []
  strand : List CHttpConnection.Task := []
  todo : Option CHttpConnection.Stage := none
  mWorkQueue : CWorkQueue CHttpConnection.Job := {}
  /-- What `Stop` has taken out of the queue and not yet destroyed. -/
  cleared : List CHttpConnection.Job := []
  running : Option CHttpConnection.Job := none
  /-- The copies handlers have kept, one entry a copy. -/
  kept : List Nat := []
  log : List CHttpConnection.Event := []

namespace CHttpConnection


def record (c : CHttpConnection) (events : List Event) : CHttpConnection := { c with log := c.log ++ events }

def doRead (c : CHttpConnection) : CHttpConnection :=
  record { c with pending := c.pending ++ [.read] } [.readStarted c.exchanges.length]

def doWrite (c : CHttpConnection) (n : Nat) (response : CHttpResponse) : CHttpConnection :=
  record { c with pending := c.pending ++ [.write n response] } [.writeStarted n response]

def doShutdown (c : CHttpConnection) : CHttpConnection :=
  if c.isSsl then { c with pending := c.pending ++ [.shutdown] } else c

def run (c : CHttpConnection) : CHttpConnection :=
  if c.isSsl then { c with pending := c.pending ++ [.handshake] } else c.doRead

def logUnexpected (c : CHttpConnection) (stage : String) (ec : ErrorCode) : CHttpConnection :=
  if ec = .operationAborted ∨ ec = .timeout ∨ c.alive = false then c else c.record [.logged (.failed stage ec)]

def onHandshake (c : CHttpConnection) (ec : Option ErrorCode) : CHttpConnection :=
  match ec with
  | some ec => c.logUnexpected "ssl handshake" ec
  | none => c.doRead

/-- `OnRead` of an upgrade request. A session takes the stream over, or the request is turned away. -/
def onUpgrade (c : CHttpConnection) (request : CHttpRequest) : CHttpConnection :=
  if c.impl.upgradeAllowed (parseTarget request.target).1 then c.record [.upgraded]
  else
    doWrite { c with exchanges := c.exchanges ++ [{ request := request }] } c.exchanges.length request.notAllowed

def handleHttpRequest (c : CHttpConnection) (request : CHttpRequest) : CHttpConnection :=
  { c with exchanges := c.exchanges ++ [{ request := request, mHttpMsg := .ofRequest request }]
           todo := some (.nextConnectionId c.exchanges.length) }

def onRead (c : CHttpConnection) (ec : Option ErrorCode) (request : CHttpRequest) : CHttpConnection :=
  match ec with
  | some ec => if ec = .endOfStream then c else c.logUnexpected "http read" ec
  | none =>
    if c.alive then if request.isUpgrade then c.onUpgrade request else c.handleHttpRequest request
    else c

def onWrite (c : CHttpConnection) (n : Nat) (response : CHttpResponse) (ec : Option ErrorCode) : CHttpConnection :=
  match ec with
  | some ec => c.logUnexpected "http write" ec
  | none =>
    let c := c.record [.written n]
    if response.keepAlive then c.doRead else c.doShutdown

/-- `SendResponse`. Where `result` throws nothing is written. -/
def sendResponse (c : CHttpConnection) (n : Nat) : CHttpConnection :=
  match c.exchanges[n]?.bind (·.mHttpMsg.response) with
  | none => c
  | some response => c.doWrite n response

/-- The strand runs a handler. -/
def perform (c : CHttpConnection) : Task → CHttpConnection
  | .onHandshake ec => c.onHandshake ec
  | .onRead ec request => c.onRead ec request
  | .onWrite n response ec => c.onWrite n response ec
  | .onShutdown => c
  | .sendResponse n => c.sendResponse n

def modify (c : CHttpConnection) (n : Nat) (f : Exchange → Exchange) : CHttpConnection :=
  { c with exchanges := c.exchanges.modify n f }

def setWrapper (c : CHttpConnection) (n : Nat) (w : CHttpWrapper) : CHttpConnection :=
  c.modify n ({ · with wrapper := some w })

def wrapperOf (c : CHttpConnection) (n : Nat) : Option CHttpWrapper := c.exchanges[n]?.bind Exchange.wrapper

/-- Every reference to a wrapper, by the number of its request. -/
def refs (c : CHttpConnection) : List Nat :=
  (c.todo.bind Stage.wrapper).toList ++ c.mWorkQueue.mQueue.filterMap Job.wrapper ++
    c.cleared.filterMap Job.wrapper ++ (c.running.bind Job.wrapper).toList ++ c.kept

/-- `replyFn` of request `n`. -/
def replyFn (c : CHttpConnection) (n : Nat) : CHttpConnection :=
  { c with strand := c.strand ++ [.sendResponse n] }

/-- `~CHttpWrapper`. -/
def destroy (c : CHttpConnection) (n : Nat) : CHttpConnection :=
  match c.wrapperOf n with
  | none => c
  | some w =>
    let dead := c.setWrapper n { w with alive := false }
    if w.mResponseSent then dead
    else (dead.modify n fun e => { e with mHttpMsg := e.mHttpMsg.badRequest }).replyFn n

/-- A reference to the wrapper is gone. -/
def release (c : CHttpConnection) (n : Nat) : CHttpConnection := if n ∈ c.refs then c else c.destroy n

/-- A function of the queue is destroyed. -/
def releaseJob (c : CHttpConnection) (job : Job) : CHttpConnection :=
  match job.wrapper with
  | none => c
  | some n => c.release n

def repliedAgain : Event := .logged (.text "CHttpWrapper::Reply called more than once; ignoring")

/-- `CHttpWrapper::Reply`. -/
def reply (c : CHttpConnection) (n : Nat) : CHttpConnection :=
  match c.wrapperOf n with
  | none => c
  | some w =>
    if w.mResponseSent then c.record [repliedAgain]
    else (c.setWrapper n { w with mResponseSent := true }).replyFn n

/-- The next part of `HandleHttpRequest`. -/
def handle (c : CHttpConnection) : Stage → CHttpConnection
  | .nextConnectionId n =>
    let (impl, clientId) := c.impl.nextConnectionId
    modify { c with impl := impl, todo := some (.findHttpHandler n) } n fun e =>
      { e with mHttpMsg := { e.mHttpMsg with clientId := clientId } }
  | .findHttpHandler n =>
    match c.exchanges[n]? with
    | none => c
    | some e =>
      match c.impl.findHttpHandler e.mHttpMsg.uri with
      | none => doWrite { c with todo := none } n e.request.notFound
      | some handler => setWrapper { c with todo := some (.postCallback handler n) } n {}
  | .postCallback handler n =>
    { c with mWorkQueue := c.mWorkQueue.post (.request handler n), todo := some (.leave n) }
  | .leave n => release { c with todo := none } n

/-- Whether the application can reach the wrapper: in its callback, or through a copy. -/
def reaches (c : CHttpConnection) (n : Nat) : Bool := c.running.bind Job.wrapper = some n || n ∈ c.kept

/-- The message is changed. Whoever has it may do so also when the wrapper is gone. -/
def edit (c : CHttpConnection) (n : Nat) (msg : HttpMsg) : Option CHttpConnection :=
  match c.wrapperOf n with
  | none => none
  | some w =>
    if w.alive && !c.reaches n then none
    else some (c.modify n fun e => { e with mHttpMsg := msg, late := e.late || !w.alive })

inductive Label where
  | complete (i : Nat) (ec : Option ErrorCode) (request : CHttpRequest)
  | strand
  | handle
  | work
  | reply (n : Nat)
  | keep (n : Nat)
  | edit (n : Nat) (msg : HttpMsg)
  | drop (n : Nat)
  /-- The callback that runs returns, or ends with an exception. -/
  | finish (throws : Bool)
  | post
  | stop
  | clear
  /-- Whatever else happens to the server. -/
  | server (impl : CImpl)
  | serverGone

def unhandled : Event := .logged (.text "Unhandled exception in callback")

def step (c : CHttpConnection) : Label → Option CHttpConnection
  | .complete i ec request =>
    match c.pending[i]? with
    | none => none
    | some op => some { c with pending := c.pending.eraseIdx i, strand := c.strand ++ [op.completion ec request] }
  | .strand =>
    match c.todo, c.strand with
    | none, task :: rest => some (perform { c with strand := rest } task)
    | _, _ => none
  | .handle => c.todo.map c.handle
  | .work =>
    match c.running with
    | none => c.mWorkQueue.next.map fun r => { c with running := some r.1, mWorkQueue := r.2 }
    | some _ => none
  | .reply n => if c.reaches n then some (c.reply n) else none
  | .keep n => if c.reaches n then some { c with kept := n :: c.kept } else none
  | .edit n msg => c.edit n msg
  | .drop n => if n ∈ c.kept then some (release { c with kept := c.kept.erase n } n) else none
  | .finish throws =>
    match c.running with
    | none => none
    | some job => some (releaseJob (record { c with running := none } (if throws then [unhandled] else [])) job)
  | .post => some { c with mWorkQueue := c.mWorkQueue.post .other }
  | .stop =>
    if c.mWorkQueue.mStopped then some c
    else some { c with mWorkQueue := c.mWorkQueue.stop, cleared := c.cleared ++ c.mWorkQueue.mQueue }
  | .clear =>
    match c.cleared with
    | [] => none
    | job :: rest => some (releaseJob { c with cleared := rest } job)
  | .server impl => some { c with impl := impl }
  | .serverGone => if c.mWorkQueue.mStopped ∧ c.todo = none then some { c with alive := false } else none

/-- Every order of what the peer, the application, the worker and the rest of the server do. -/
def system : Lib.System CHttpConnection Label := ⟨step⟩

/-- A connection that `Run` has been called on, with the server as it is then. -/
def create (isSsl : Bool) (impl : CImpl) : CHttpConnection := run { isSsl := isSsl, impl := impl }

/-- What a handler of the strand does. -/
inductive Performs (c : CHttpConnection) : Task → CHttpConnection → Prop
  | ends {task} (other : ∀ n, task ≠ .sendResponse n) : Performs c task c
  | fails {task line} (other : ∀ n, task ≠ .sendResponse n) : Performs c task (c.record [.logged line])
  | handshaken : Performs c (.onHandshake none) c.doRead
  | upgrades {request} (upgrade : request.isUpgrade = true)
      (allowed : c.impl.upgradeAllowed (parseTarget request.target).1 = true) :
      Performs c (.onRead none request) (c.record [.upgraded])
  | refuses {request} (upgrade : request.isUpgrade = true)
      (refused : c.impl.upgradeAllowed (parseTarget request.target).1 = false) : Performs c (.onRead none request)
      (doWrite { c with exchanges := c.exchanges ++ [{ request := request }] } c.exchanges.length request.notAllowed)
  | asks {request} (plain : request.isUpgrade = false) :
      Performs c (.onRead none request) (c.handleHttpRequest request)
  | reads {n response} (keepAlive : response.keepAlive = true) :
      Performs c (.onWrite n response none) (c.record [.written n]).doRead
  | closes {n response} (last : response.keepAlive = false) :
      Performs c (.onWrite n response none) (c.record [.written n]).doShutdown
  | sends {n response} (built : c.exchanges[n]?.bind (·.mHttpMsg.response) = some response) :
      Performs c (.sendResponse n) (c.doWrite n response)
  | throws {n} (none : c.exchanges[n]?.bind (·.mHttpMsg.response) = none) : Performs c (.sendResponse n) c

/-- What each label does. -/
inductive Steps (c : CHttpConnection) : Label → CHttpConnection → Prop
  | complete {i ec request op} (found : c.pending[i]? = some op) : Steps c (.complete i ec request)
      { c with pending := c.pending.eraseIdx i, strand := c.strand ++ [op.completion ec request] }
  | strand {task rest} (free : c.todo = none) (queue : c.strand = task :: rest) :
      Steps c .strand (perform { c with strand := rest } task)
  | handle {stage} (doing : c.todo = some stage) : Steps c .handle (c.handle stage)
  | work {job rest} (idle : c.running = none) (serving : c.mWorkQueue.mStopped = false)
      (queue : c.mWorkQueue.mQueue = job :: rest) :
      Steps c .work { c with running := some job, mWorkQueue := { c.mWorkQueue with mQueue := rest } }
  | reply {n} (reaches : c.reaches n = true) : Steps c (.reply n) (c.reply n)
  | keep {n} (reaches : c.reaches n = true) : Steps c (.keep n) { c with kept := n :: c.kept }
  | edit {n msg w} (found : c.wrapperOf n = some w) (reaches : w.alive = true → c.reaches n = true) :
      Steps c (.edit n msg) (c.modify n fun e => { e with mHttpMsg := msg, late := e.late || !w.alive })
  | drop {n} (kept : n ∈ c.kept) : Steps c (.drop n) (release { c with kept := c.kept.erase n } n)
  | finish {throws job} (running : c.running = some job) : Steps c (.finish throws)
      (releaseJob (record { c with running := none } (if throws then [unhandled] else [])) job)
  | post : Steps c .post { c with mWorkQueue := c.mWorkQueue.post .other }
  | again (stopped : c.mWorkQueue.mStopped = true) : Steps c .stop c
  | stop (serving : c.mWorkQueue.mStopped = false) : Steps c .stop
      { c with mWorkQueue := c.mWorkQueue.stop, cleared := c.cleared ++ c.mWorkQueue.mQueue }
  | clear {job rest} (cleared : c.cleared = job :: rest) : Steps c .clear (releaseJob { c with cleared := rest } job)
  | server (impl) : Steps c (.server impl) { c with impl := impl }
  | serverGone (stopped : c.mWorkQueue.mStopped = true) (free : c.todo = none) :
      Steps c .serverGone { c with alive := false }

variable {c c' : CHttpConnection} {l : Label}

theorem logUnexpected_performs {task : Task} (stage : String) (ec : ErrorCode) (other : ∀ n, task ≠ .sendResponse n) :
    Performs c task (c.logUnexpected stage ec) := by
  unfold logUnexpected
  split
  · exact .ends other
  · exact .fails other

theorem onRead_performs (ec : Option ErrorCode) (request : CHttpRequest) :
    Performs c (.onRead ec request) (c.onRead ec request) := by
  unfold onRead
  cases ec with
  | some ec =>
    dsimp only
    split
    · exact .ends nofun
    · exact logUnexpected_performs _ ec nofun
  | none =>
    dsimp only
    split
    · split
      · next upgrade =>
        unfold onUpgrade
        split
        · next allowed => exact .upgrades upgrade allowed
        · next refused => exact .refuses upgrade (Bool.eq_false_iff.2 refused)
      · next plain => exact .asks (Bool.eq_false_iff.2 plain)
    · exact .ends nofun

/-- **`perform` does what `Performs` says.** -/
theorem perform_performs (c : CHttpConnection) (task : Task) : Performs c task (c.perform task) := by
  cases task with
  | onHandshake ec =>
    cases ec with
    | some ec => exact logUnexpected_performs _ ec nofun
    | none => exact .handshaken
  | onRead ec request => exact onRead_performs ec request
  | onWrite n response ec =>
    cases ec with
    | some ec => exact logUnexpected_performs _ ec nofun
    | none =>
      simp only [perform, onWrite]
      split
      · next keepAlive => exact .reads keepAlive
      · next last => exact .closes (Bool.eq_false_iff.2 last)
  | onShutdown => exact .ends nofun
  | sendResponse n =>
    simp only [perform, sendResponse]
    split
    · next none => exact .throws none
    · next built => exact .sends built

theorem edit_steps {n : Nat} {msg : HttpMsg} (done : c.edit n msg = some c') : Steps c (.edit n msg) c' := by
  unfold edit at done
  split at done
  · cases done
  · next w found =>
    split at done
    · cases done
    · next allowed =>
      cases done
      refine .edit found fun live => ?_
      rw [live, Bool.true_and] at allowed
      simpa using allowed

/-- **`step` does what `Steps` says.** -/
theorem step_steps (step : step c l = some c') : Steps c l c' := by
  cases l with
  | complete i ec request =>
    simp only [CHttpConnection.step] at step
    split at step
    · cases step
    · next found => cases step; exact .complete found
  | strand =>
    simp only [CHttpConnection.step] at step
    split at step
    · next free queue => cases step; exact .strand free queue
    · cases step
  | handle =>
    obtain ⟨stage, doing, rfl⟩ := Option.map_eq_some_iff.1 step
    exact .handle doing
  | work =>
    simp only [CHttpConnection.step, CWorkQueue.next] at step
    split at step
    · next idle =>
      split at step
      · cases step
      · next serving =>
        split at step
        · cases step
        · next queue => cases step; exact .work idle (Bool.eq_false_iff.2 serving) queue
    · cases step
  | reply n =>
    simp only [CHttpConnection.step] at step
    split at step
    · next reaches => cases step; exact .reply reaches
    · cases step
  | keep n =>
    simp only [CHttpConnection.step] at step
    split at step
    · next reaches => cases step; exact .keep reaches
    · cases step
  | edit n msg => exact edit_steps step
  | drop n =>
    simp only [CHttpConnection.step] at step
    split at step
    · next kept => cases step; exact .drop kept
    · cases step
  | finish throws =>
    simp only [CHttpConnection.step] at step
    split at step
    · cases step
    · next running => cases step; exact .finish running
  | post => cases step; exact .post
  | stop =>
    simp only [CHttpConnection.step] at step
    split at step
    · next stopped => cases step; exact .again stopped
    · next serving => cases step; exact .stop (Bool.eq_false_iff.2 serving)
  | clear =>
    simp only [CHttpConnection.step] at step
    split at step
    · cases step
    · next cleared => cases step; exact .clear cleared
  | server impl => cases step; exact .server impl
  | serverGone =>
    simp only [CHttpConnection.step] at step
    split at step
    · next gone => cases step; exact .serverGone gone.1 gone.2
    · cases step

end CHttpConnection

end Websockets
