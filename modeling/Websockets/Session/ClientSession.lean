import Websockets.Lib.System
import Websockets.Session.WriteSide

/-!
# `CSession`: one connection attempt of the client

The handlers of `CSession` (`CWebsocketClient.cpp`), each a function of the session that returns
the calls it makes in order: on the client (`ISessionEvents`) and on the completion handler that
`DoConnect` passes to `AsyncConnect`. The stages of the connect chain carry what the session hands
to Asio and Beast there. `alive` says whether `mEvents.lock()` still finds the client; `sni` is the
outcome of `SSL_set_tlsext_host_name`, `none` for success.
-/

namespace Websockets

abbrev CHandshakeHeaders := Std.TreeMap Bytes Bytes

/-- The operations of the connect chain. -/
inductive Stage where
  | resolve (host port : Bytes)
  | tcpConnect
  | sslHandshake
  | websocketHandshake (hostHeader resource : Bytes) (headers : CHandshakeHeaders)

/-- `CImpl::DoConnect`'s completion handler, by the promise of the `Connect` call that waits for it;
`AsyncConnect` passes none. -/
structure OnComplete where
  promise : Option Nat
  deriving DecidableEq

/-- The arguments of `CSession::AsyncConnect`. -/
structure ConnectArgs where
  host : Bytes
  port : Nat
  resource : Bytes
  handshakeHeaders : CHandshakeHeaders
  onComplete : Option OnComplete

/-- What other threads post (or dispatch) to the strand. -/
inductive SessionTask where
  | asyncConnect (args : ConnectArgs)
  | send (message : SOutgoingMessage)
  | close

def SessionTask.isConnect : SessionTask → Bool
  | asyncConnect _ => true
  | _ => false

/-- Calls on `ISessionEvents` and on the completion handler. -/
inductive SessionCall where
  | onConnectComplete (handler : OnComplete) (success : Bool)
  | onSessionMessage (message : Bytes)
  | onSessionContent (content : Bytes)
  | onSessionDisconnect
  | logSessionError (line : LogLine)
  deriving DecidableEq

def defaultResource : Bytes := str "/"

structure CSession extends Channel Stage SOutgoingMessage SessionTask where
  /-- `IS_SSL`. -/
  isSsl : Bool
  mHost : Bytes := []
  mPort : Nat := 8080
  mResource : Bytes := []
  mHostHeader : Bytes := []
  mHandshakeHeaders : CHandshakeHeaders := ∅
  mOnConnectComplete : Option OnComplete := none
  /-- `AsyncConnect` has been called; `DoConnect` calls it once for each session it creates. -/
  connectCalled : Bool := false

namespace CSession

/-- A session as `CreateSession` makes it. -/
def create (isSsl : Bool) : CSession := { isSsl := isSsl }

def decimal (n : Nat) : Bytes := str (toString n)

/-- The handler `AsyncConnect` dispatches. -/
def asyncConnect (s : CSession) (args : ConnectArgs) : CSession × List SessionCall :=
  ({ s with
    toChannel := s.toChannel.start (.opening (.resolve args.host (decimal args.port)))
    mHost := args.host
    mPort := args.port
    mResource := if args.resource.isEmpty then defaultResource else args.resource
    mHostHeader := args.host ++ str ":" ++ decimal args.port
    mHandshakeHeaders := args.handshakeHeaders
    mOnConnectComplete := args.onComplete }, [])

/-- The handler `Send` posts. -/
def send (alive : Bool) (s : CSession) (message : SOutgoingMessage) : CSession × List SessionCall :=
  if !s.mOpen || s.mCloseRequested then
    (s, if alive then [.logSessionError (.text "Send dropped: not connected")] else [])
  else ({ s with toChannel := s.toChannel.enqueue message }, [])

/-- The handler `Close` posts. -/
def close (s : CSession) : CSession × List SessionCall :=
  ({ s with toChannel := s.toChannel.closeTask }, [])

/-- What `CompleteConnect` logs and calls. The handler is moved out, so it is called once. -/
def completeConnect (alive : Bool) (s : CSession) (success : Bool) (stage : String) (ec : Option ErrorCode) :
    CSession × List SessionCall :=
  let log := match ec with
    | some e => if !success && alive && e ≠ .operationAborted then [.logSessionError (.failed stage e)] else []
    | none => []
  match s.mOnConnectComplete with
  | some handler => ({ s with mOnConnectComplete := none }, log ++ [.onConnectComplete handler success])
  | none => (s, log)

def onResolve (alive : Bool) (s : CSession) : Option ErrorCode → CSession × List SessionCall
  | some e => s.completeConnect alive false "resolve" (some e)
  | none => ({ s with toChannel := s.toChannel.start (.opening .tcpConnect) }, [])

def doWebsocketHandshake (s : CSession) : CSession :=
  let stage := .websocketHandshake s.mHostHeader s.mResource s.mHandshakeHeaders
  { s with toChannel := s.toChannel.start (.opening stage) }

def onTcpConnect (alive : Bool) (sni : Option ErrorCode) (s : CSession) :
    Option ErrorCode → CSession × List SessionCall
  | some e => s.completeConnect alive false "connect" (some e)
  | none =>
    if s.isSsl then
      match sni with
      | some e => s.completeConnect alive false "SNI" (some e)
      | none => ({ s with toChannel := s.toChannel.start (.opening .sslHandshake) }, [])
    else (s.doWebsocketHandshake, [])

def onSslHandshake (alive : Bool) (s : CSession) : Option ErrorCode → CSession × List SessionCall
  | some e => s.completeConnect alive false "ssl handshake" (some e)
  | none => (s.doWebsocketHandshake, [])

/-- On success the session opens, completes the connect, and then closes at once if a close was
requested while it was connecting. -/
def onWebsocketHandshake (alive : Bool) (s : CSession) : Option ErrorCode → CSession × List SessionCall
  | some e => s.completeConnect alive false "websocket handshake" (some e)
  | none =>
    let (done, calls) := completeConnect alive { s with toChannel := s.toChannel.setOpen } true "" none
    ({ done with toChannel := done.toChannel.beginReading }, calls)

def handleClosed (alive : Bool) (s : CSession) (ec : ErrorCode) : CSession × List SessionCall :=
  let expected := ec = .closed ∨ ec = .operationAborted ∨ s.mCloseRequested = true
  ({ s with toChannel := s.toChannel.handleClosed },
    if s.mOpen && alive then
      (if expected then [] else [.logSessionError (.failed "connection" ec)]) ++ [.onSessionDisconnect]
    else [])

def onRead (alive : Bool) (s : CSession) (ec : Option ErrorCode) (frame : Frame) :
    CSession × List SessionCall :=
  match ec with
  | some e => handleClosed alive s e
  | none =>
    ({ s with toChannel := s.toChannel.doRead },
      if alive then [if frame.isText then .onSessionMessage frame.data else .onSessionContent frame.data]
      else [])

def onWrite (alive : Bool) (s : CSession) (ec : Option ErrorCode) : CSession × List SessionCall :=
  match ec with
  | some e => handleClosed alive s e
  | none => ({ s with toChannel := s.toChannel.onWrite none }, [])

/-- Runs one handler. -/
def handle (alive : Bool) (sni : Option ErrorCode) (s : CSession) :
    Handler Stage SOutgoingMessage SessionTask → CSession × List SessionCall
  | .posted (.asyncConnect args) => s.asyncConnect args
  | .posted (.send message) => s.send alive message
  | .posted .close => s.close
  | .completed (.opening (.resolve _ _)) ec _ => s.onResolve alive ec
  | .completed (.opening .tcpConnect) ec _ => s.onTcpConnect alive sni ec
  | .completed (.opening .sslHandshake) ec _ => s.onSslHandshake alive ec
  | .completed (.opening (.websocketHandshake _ _ _)) ec _ => s.onWebsocketHandshake alive ec
  | .completed .read ec frame => s.onRead alive ec frame
  | .completed (.write _ _) ec _ => s.onWrite alive ec
  | .completed .close _ _ => (s, [])

/-- The strand runs its front handler. -/
def runNext (alive : Bool) (sni : Option ErrorCode) (s : CSession) : Option (CSession × List SessionCall) :=
  match s.strand with
  | [] => none
  | h :: _ => some (handle alive sni { s with toChannel := s.toChannel.popHandler } h)

/-- A task is put on the strand; `AsyncConnect` only once. -/
def postTask (s : CSession) (task : SessionTask) : Option CSession :=
  if task.isConnect then
    if s.connectCalled then none
    else some { s with toChannel := s.toChannel.post task, connectCalled := true }
  else some { s with toChannel := s.toChannel.post task }

/-! ## A session in an arbitrary environment -/

inductive Label where
  | post (task : SessionTask)
  | complete (i : Nat) (ec : Option ErrorCode) (frame : Frame)
  | run (alive : Bool) (sni : Option ErrorCode)

def step (s : CSession) : Label → Option CSession
  | .post task => s.postTask task
  | .complete i ec frame => (s.toChannel.complete i ec frame).map fun c => { s with toChannel := c }
  | .run alive sni => (s.runNext alive sni).map Prod.fst

/-- Every order of posted calls, completions and handler runs. -/
def system : Lib.System CSession Label := ⟨step⟩

/-- Beast's promise on a step: after an error, completions are errors. -/
def BeastOk (s : CSession) : Label → Prop
  | .complete _ ec _ => s.failed = true → ec.isSome = true
  | _ => True

/-- No read error is handled while a write is in flight. -/
def CalmOk (s : CSession) : Label → Prop
  | .run _ _ => match s.strand with
    | .completed .read (some _) _ :: _ => s.writes = 0
    | _ => True
  | _ => True

instance (s : CSession) (l : Label) : Decidable (BeastOk s l) :=
  match l with
  | .complete _ ec _ => inferInstanceAs (Decidable (s.failed = true → ec.isSome = true))
  | .post _ | .run _ _ => .isTrue trivial

variable {s s' : CSession} {l : Label}

/-! ## Every step is a move of the channel, or opens it -/

theorem runNext_inv {alive : Bool} {sni : Option ErrorCode} {calls : List SessionCall}
    (ran : s.runNext alive sni = some (s', calls)) : ∃ h rest, s.strand = h :: rest ∧
      (s', calls) = handle alive sni { s with toChannel := s.toChannel.popHandler } h := by
  unfold runNext at ran
  split at ran
  next => cases ran
  next h rest strand => exact ⟨h, rest, strand, (Option.some.inj ran).symm⟩

theorem completeConnect_channel (alive success : Bool) (stage : String) (ec : Option ErrorCode) :
    (s.completeConnect alive success stage ec).1.toChannel = s.toChannel := by
  unfold completeConnect
  simp only
  split <;> rfl

theorem onRead_channel (alive : Bool) (ec : Option ErrorCode) (frame : Frame) :
    (onRead alive s ec frame).1.toChannel = s.toChannel.onRead ec := by
  cases ec <;> rfl

theorem onWrite_channel (alive : Bool) (ec : Option ErrorCode) :
    (onWrite alive s ec).1.toChannel = s.toChannel.onWrite ec := by
  cases ec <;> rfl

/-- A connect handler leaves the channel alone or starts the next stage. -/
theorem onTcpConnect_channel (alive : Bool) (sni ec : Option ErrorCode) :
    (s.onTcpConnect alive sni ec).1.toChannel = s.toChannel ∨
      ∃ next, (s.onTcpConnect alive sni ec).1.toChannel = s.toChannel.start (.opening next) := by
  cases ec with
  | some e => exact .inl (completeConnect_channel _ _ _ _)
  | none =>
    simp only [onTcpConnect]
    split
    · cases sni with
      | some e => exact .inl (completeConnect_channel _ _ _ _)
      | none => exact .inr ⟨_, rfl⟩
    · exact .inr ⟨_, rfl⟩

theorem onWebsocketHandshake_channel (alive : Bool) :
    (s.onWebsocketHandshake alive none).1.toChannel = s.toChannel.setOpen.beginReading := by
  simp only [onWebsocketHandshake]
  rw [completeConnect_channel]

/-- A channel before its `asyncConnect` ran: nothing has been started. -/
def Unstarted (s : CSession) : Prop := s.mOpen = false ∧ s.inflight = []

/-- How many `asyncConnect` handlers are queued. -/
def connects (s : CSession) : Nat :=
  s.strand.countP fun h => match h with
    | .posted task => task.isConnect
    | _ => false

/-- `asyncConnect` runs once and first among the operations. -/
structure Fresh (s : CSession) : Prop where
  uncalled : s.connectCalled = false → s.connects = 0 ∧ s.Unstarted
  queued : s.connects = 0 ∨ s.connects = 1 ∧ s.Unstarted

/-- A step is a move, or a successful handshake that opens the channel and begins to read. -/
def Moves (beast calm : Prop) (c c' : Channel Stage SOutgoingMessage SessionTask) : Prop :=
  Channel.Move beast calm c c' ∨ ∃ opened, Channel.Opens c opened ∧ c' = opened.beginReading

theorem runNext_moves {beast calm : Prop} {alive : Bool} {sni : Option ErrorCode} {calls : List SessionCall}
    (ran : s.runNext alive sni = some (s', calls)) (fresh : s.Fresh) (calmOk : calm → CalmOk s (.run alive sni)) :
    Moves beast calm s.toChannel s'.toChannel := by
  obtain ⟨h, rest, front, result⟩ := runNext_inv ran
  have same : s' = (handle alive sni { s with toChannel := s.toChannel.popHandler } h).1 :=
    congrArg Prod.fst result
  subst same
  match h with
  | .posted (.asyncConnect args) =>
    have queued : s.connects ≠ 0 := by
      unfold connects
      rw [front, List.countP_cons_of_pos (by rfl)]
      omega
    have unstarted := (fresh.queued.resolve_left queued).2
    exact .inl (.connect front unstarted.1 unstarted.2 _)
  | .posted (.send message) =>
    simp only [handle, send]
    split
    · exact .inl (.drop front)
    · next may =>
      simp only [Channel.popHandler_mOpen, Channel.popHandler_mCloseRequested, Bool.or_eq_true,
        Bool.not_eq_true', not_or, Bool.not_eq_false, Bool.not_eq_true] at may
      exact .inl (.send front may.1 may.2 message)
  | .posted .close => exact .inl (.close front)
  | .completed (.opening (.resolve host port)) ec frame =>
    cases ec with
    | some e =>
      refine .inl ?_
      simp only [handle, onResolve, completeConnect_channel]
      exact .abandon front
    | none => exact .inl (.advance front _)
  | .completed (.opening .tcpConnect) ec frame =>
    refine .inl ?_
    simp only [handle]
    rcases onTcpConnect_channel (s := { s with toChannel := s.toChannel.popHandler }) alive sni ec with
      same | ⟨next, same⟩
    · exact same ▸ .abandon front
    · exact same ▸ .advance front next
  | .completed (.opening .sslHandshake) ec frame =>
    cases ec with
    | some e =>
      refine .inl ?_
      simp only [handle, onSslHandshake, completeConnect_channel]
      exact .abandon front
    | none => exact .inl (.advance front _)
  | .completed (.opening (.websocketHandshake host resource headers)) ec frame =>
    cases ec with
    | some e =>
      refine .inl ?_
      simp only [handle, onWebsocketHandshake, completeConnect_channel]
      exact .abandon front
    | none =>
      refine .inr ⟨_, ⟨_, frame, rest, front, rfl⟩, ?_⟩
      simp only [handle, onWebsocketHandshake_channel]
  | .completed .read ec frame =>
    refine .inl ?_
    simp only [handle, onRead_channel]
    refine .read front fun isCalm bad => ?_
    obtain ⟨e, rfl⟩ := Option.isSome_iff_exists.1 bad
    have ok := calmOk isCalm
    simpa only [CalmOk, front] using ok
  | .completed (.write isText node) ec frame =>
    refine .inl ?_
    simp only [handle, onWrite_channel]
    exact .write front
  | .completed .close ec frame => exact .inl (.closed front)

theorem step_post {task : SessionTask} (other : task.isConnect = false) :
    s.step (.post task) = some { s with toChannel := s.toChannel.post task } := by
  simp only [CSession.step, postTask, other, Bool.false_eq_true, if_false]

theorem step_connect {args : ConnectArgs} (uncalled : s.connectCalled = false) : s.step (.post (.asyncConnect args)) =
    some { s with toChannel := s.toChannel.post (.asyncConnect args), connectCalled := true } := by
  simp only [CSession.step, postTask, SessionTask.isConnect, uncalled, Bool.false_eq_true, if_false, if_true]

/-- A task put on the strand is `asyncConnect`, for the first time, or another one. -/
theorem postTask_cases {task : SessionTask} (posted : s.postTask task = some s') :
    (task.isConnect = true ∧ s.connectCalled = false ∧
      s' = { s with toChannel := s.toChannel.post task, connectCalled := true }) ∨
    (task.isConnect = false ∧ s' = { s with toChannel := s.toChannel.post task }) := by
  unfold postTask at posted
  split at posted
  · next isConnect =>
    split at posted
    · cases posted
    · next uncalled => exact .inl ⟨isConnect, Bool.eq_false_iff.2 uncalled, (Option.some.inj posted).symm⟩
  · next other => exact .inr ⟨Bool.eq_false_iff.2 other, (Option.some.inj posted).symm⟩

theorem step_moves {beast calm : Prop} (step : s.step l = some s') (fresh : s.Fresh)
    (beastOk : beast → BeastOk s l) (calmOk : calm → CalmOk s l) :
    Moves beast calm s.toChannel s'.toChannel := by
  cases l with
  | post task =>
    obtain ⟨_, _, rfl⟩ | ⟨_, rfl⟩ := postTask_cases step
    · exact .inl (.post task)
    · exact .inl (.post task)
  | complete i ec frame =>
    obtain ⟨c, done, rfl⟩ := Option.map_eq_some_iff.1 step
    exact .inl (.complete done fun isBeast broken => beastOk isBeast broken)
  | run alive sni =>
    obtain ⟨⟨r, calls⟩, ran, rfl⟩ := Option.map_eq_some_iff.1 step
    exact runNext_moves ran fresh calmOk

/-! ## `asyncConnect` runs once and first -/

theorem handle_strand (alive : Bool) (sni : Option ErrorCode) (h : Handler Stage SOutgoingMessage SessionTask) :
    (handle alive sni s h).1.strand = s.strand := by
  match h with
  | .posted (.asyncConnect args) => rfl
  | .posted (.send message) =>
    simp only [handle, send]
    split
    · rfl
    · exact Channel.enqueue_strand message
  | .posted .close => exact Channel.closeTask_strand
  | .completed (.opening (.resolve host port)) ec frame =>
    cases ec with
    | some e => exact congrArg Channel.strand (completeConnect_channel _ _ _ _)
    | none => rfl
  | .completed (.opening .tcpConnect) ec frame =>
    rcases onTcpConnect_channel (s := s) alive sni ec with same | ⟨next, same⟩
    · exact congrArg Channel.strand same
    · exact (congrArg Channel.strand same).trans Channel.start_strand
  | .completed (.opening .sslHandshake) ec frame =>
    cases ec with
    | some e => exact congrArg Channel.strand (completeConnect_channel _ _ _ _)
    | none => rfl
  | .completed (.opening (.websocketHandshake host resource headers)) ec frame =>
    cases ec with
    | some e => exact congrArg Channel.strand (completeConnect_channel _ _ _ _)
    | none =>
      simp only [handle]
      rw [onWebsocketHandshake_channel]
      exact Channel.beginReading_strand
  | .completed .read ec frame => simp only [handle, onRead_channel]; exact Channel.onRead_strand ec
  | .completed (.write isText node) ec frame =>
    simp only [handle, onWrite_channel]; exact Channel.onWrite_strand ec
  | .completed .close ec frame => rfl

theorem completeConnect_called (alive success : Bool) (stage : String) (ec : Option ErrorCode) :
    (s.completeConnect alive success stage ec).1.connectCalled = s.connectCalled := by
  unfold completeConnect
  simp only
  split <;> rfl

theorem handle_called (alive : Bool) (sni : Option ErrorCode) (h : Handler Stage SOutgoingMessage SessionTask) :
    (handle alive sni s h).1.connectCalled = s.connectCalled := by
  match h with
  | .posted (.asyncConnect args) => rfl
  | .posted (.send message) =>
    simp only [handle, send]
    split <;> rfl
  | .posted .close => rfl
  | .completed (.opening (.resolve host port)) ec frame =>
    cases ec with
    | some e => exact completeConnect_called _ _ _ _
    | none => rfl
  | .completed (.opening .tcpConnect) ec frame =>
    cases ec with
    | some e => exact completeConnect_called _ _ _ _
    | none =>
      simp only [handle, onTcpConnect]
      split
      · cases sni with
        | some e => exact completeConnect_called _ _ _ _
        | none => rfl
      · rfl
  | .completed (.opening .sslHandshake) ec frame =>
    cases ec with
    | some e => exact completeConnect_called _ _ _ _
    | none => rfl
  | .completed (.opening (.websocketHandshake host resource headers)) ec frame =>
    cases ec with
    | some e => exact completeConnect_called _ _ _ _
    | none => simp only [handle, onWebsocketHandshake]; exact completeConnect_called _ _ _ _
  | .completed .read ec frame => cases ec <;> rfl
  | .completed (.write isText node) ec frame => cases ec <;> rfl
  | .completed .close ec frame => rfl

/-- A session with an operation in flight has run its `asyncConnect`. -/
theorem Fresh.started (fresh : s.Fresh) (busy : ¬ s.Unstarted) : s.connectCalled = true ∧ s.connects = 0 := by
  constructor
  · cases called : s.connectCalled with
    | true => rfl
    | false => exact absurd (fresh.uncalled called).2 busy
  · exact fresh.queued.resolve_right fun h => busy h.2

/-- A started session stays so whatever its strand holds besides `asyncConnect`. -/
theorem Fresh.of_started (called : s.connectCalled = true) (none : s.connects = 0) : s.Fresh :=
  ⟨fun h => absurd (called.symm.trans h) (by decide), .inl none⟩

/-- A session that has not started is as it was. -/
theorem Fresh.of_unstarted (fresh : s.Fresh) (called : s'.connectCalled = s.connectCalled)
    (connects : s'.connects = s.connects) (still : s.Unstarted → s'.Unstarted) : s'.Fresh := by
  constructor
  · intro uncalled
    obtain ⟨none, unstarted⟩ := fresh.uncalled (called.symm.trans uncalled)
    exact ⟨connects.trans none, still unstarted⟩
  · rw [connects]
    exact fresh.queued.imp_right fun h => ⟨h.1, still h.2⟩

theorem runNext_fresh {alive : Bool} {sni : Option ErrorCode} {calls : List SessionCall}
    (ran : s.runNext alive sni = some (s', calls)) (fresh : s.Fresh) : s'.Fresh := by
  obtain ⟨h, rest, front, result⟩ := runNext_inv ran
  have same : s' = (handle alive sni { s with toChannel := s.toChannel.popHandler } h).1 :=
    congrArg Prod.fst result
  subst same
  have strand : (handle alive sni { s with toChannel := s.toChannel.popHandler } h).1.strand = rest := by
    rw [handle_strand]
    simp only [Channel.popHandler, front, List.tail_cons]
  have called : (handle alive sni { s with toChannel := s.toChannel.popHandler } h).1.connectCalled =
      s.connectCalled := handle_called alive sni h
  by_cases unstarted : s.Unstarted
  · cases h with
    | posted task =>
      cases task with
      | asyncConnect args =>
        have one : s.connects = 1 := by
          refine (fresh.queued.resolve_left ?_).1
          unfold connects
          rw [front, List.countP_cons_of_pos (by rfl)]
          omega
        refine .of_started ?_ ?_
        · rw [called]
          cases was : s.connectCalled with
          | true => rfl
          | false => have := (fresh.uncalled was).1; omega
        · unfold connects at one ⊢
          rw [front, List.countP_cons_of_pos (by rfl)] at one
          rw [strand]
          omega
      | send message =>
        refine fresh.of_unstarted called ?_ fun _ => ?_
        · unfold connects
          rw [strand, front, List.countP_cons_of_neg (by simp [SessionTask.isConnect])]
        · simp only [handle, send, Channel.popHandler_mOpen, unstarted.1, Bool.not_false, Bool.true_or, if_true]
          exact ⟨unstarted.1, (Channel.inflight_pop_posted front).trans unstarted.2⟩
      | close =>
        refine fresh.of_unstarted called ?_ fun _ => ?_
        · unfold connects
          rw [strand, front, List.countP_cons_of_neg (by simp [SessionTask.isConnect])]
        · simp only [handle, close, Channel.closeTask, Channel.popHandler_mOpen, unstarted.1, Bool.false_eq_true,
            if_false]
          refine ⟨unstarted.1, ?_⟩
          show Channel.inflight _ = []
          rw [Channel.inflight_cancel, Channel.inflight_requestClose, Channel.inflight_pop_posted front]
          exact unstarted.2
    | completed op ec frame =>
      have ops := (Channel.inflight_pop_completed front).length_eq
      rw [unstarted.2] at ops
      cases ops
  · obtain ⟨was, none⟩ := fresh.started unstarted
    refine .of_started (called.trans was) ?_
    unfold connects at none ⊢
    rw [front, List.countP_cons] at none
    rw [strand]
    omega

theorem step_fresh (step : s.step l = some s') (fresh : s.Fresh) : s'.Fresh := by
  cases l with
  | post task =>
    have count : (s.toChannel.post task).strand.countP (fun h => match h with
        | .posted task => task.isConnect
        | _ => false) = s.connects + if task.isConnect then 1 else 0 := by
      simp [connects, Channel.post]
    have still : s.Unstarted → (s.toChannel.post task).inflight = [] := by
      intro unstarted
      rw [Channel.inflight_post]
      exact unstarted.2
    obtain ⟨isConnect, uncalled, rfl⟩ | ⟨other, rfl⟩ := postTask_cases step
    · obtain ⟨none, unstarted⟩ := fresh.uncalled uncalled
      rw [none, if_pos isConnect] at count
      exact ⟨(fun h => by cases h), .inr ⟨count, unstarted.1, still unstarted⟩⟩
    · rw [other] at count
      exact fresh.of_unstarted rfl count fun unstarted => ⟨unstarted.1, still unstarted⟩
  | complete i ec frame =>
    obtain ⟨c, done, rfl⟩ := Option.map_eq_some_iff.1 step
    have busy : ¬ s.Unstarted := by
      intro unstarted
      obtain ⟨p, pend, -⟩ := Channel.complete_fields done
      have mem : p.op ∈ s.inflight := List.mem_append_left _ (List.mem_map_of_mem pend)
      rw [unstarted.2] at mem
      cases mem
    obtain ⟨called, none⟩ := fresh.started busy
    obtain ⟨p, -, rfl⟩ := Channel.complete_fields done
    refine .of_started called ?_
    unfold connects at none ⊢
    simpa using none
  | run alive sni =>
    obtain ⟨⟨r, calls⟩, ran, rfl⟩ := Option.map_eq_some_iff.1 step
    exact runNext_fresh ran fresh

theorem create_fresh (isSsl : Bool) : (create isSsl).Fresh :=
  ⟨fun _ => ⟨rfl, rfl, rfl⟩, .inl rfl⟩

end CSession

end Websockets
