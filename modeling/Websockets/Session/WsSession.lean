import Websockets.Lib.System
import Websockets.Session.WriteSide

/-!
# `CWsSession`: a websocket client from the server's side

The handlers of `CWsSession` (`CWebsocketServer.cpp`), each a function of the session that returns
the calls it makes on the server (`IServerEvents`) in order. `OnAccept` calls `RegisterWsClient`
and needs its result, so it is two parts: `onAccept` up to the call and `onRegistered` from its
return; `registering` is the program counter between them. `alive` says whether `mEvents.lock()`
still finds the server.
-/

namespace Websockets

/-- The one operation that opens a server session. -/
inductive AcceptStage where
  | accept
  deriving DecidableEq

/-- What other threads post to the strand. -/
inductive WsTask where
  | send (payload : SPayload)
  | close
  deriving DecidableEq

/-- Calls on `IServerEvents`. -/
inductive WsCall where
  | registerWsClient (target : Bytes) (isSsl : Bool)
  | onWsClosed (clientId : UInt32)
  | onWsMessage (clientId : UInt32) (message : Bytes)
  | onWsContent (clientId : UInt32) (content : Bytes)
  | logError (line : LogLine)
  deriving DecidableEq

structure CWsSession extends Channel AcceptStage SPayload WsTask where
  /-- `mSettings.maxSessionBacklog`. -/
  maxSessionBacklog : Nat
  mTarget : Bytes
  /-- `IS_SSL`. -/
  isSsl : Bool
  mClientId : UInt32 := 0
  mDropLogged : Bool := false
  registering : Bool := false

namespace CWsSession

/-- A new session, its `Accept` done: `async_accept` is outstanding. -/
def accept (maxSessionBacklog : Nat) (target : Bytes) (isSsl : Bool) : CWsSession where
  toChannel := Channel.start {} (.opening .accept)
  maxSessionBacklog := maxSessionBacklog
  mTarget := target
  isSsl := isSsl

/-- The handler `Send` posts. -/
def send (alive : Bool) (s : CWsSession) (payload : SPayload) : CWsSession × List WsCall :=
  if !s.mOpen || s.mCloseRequested then (s, [])
  else if 0 < s.maxSessionBacklog ∧ s.maxSessionBacklog ≤ s.mWriteQueue.length then
    if !s.mDropLogged then
      ({ s with mDropLogged := true }, if alive then
        [.logError (.text ("Session backlog full (" ++ toString s.maxSessionBacklog ++
          "); dropping payload(s) for client " ++ toString s.mClientId))] else [])
    else (s, [])
  else ({ s with toChannel := s.toChannel.enqueue payload }, [])

/-- The handler `Close` posts. -/
def close (s : CWsSession) : CWsSession × List WsCall :=
  ({ s with toChannel := s.toChannel.closeTask }, [])

def onAccept (alive : Bool) (s : CWsSession) (ec : Option ErrorCode) : CWsSession × List WsCall :=
  match ec, alive with
  | none, true =>
    ({ s with toChannel := s.toChannel.setOpen, registering := true }, [.registerWsClient s.mTarget s.isSsl])
  | some e, true => (s, if e = .operationAborted then [] else [.logError (.failed "websocket accept" e)])
  | _, false => (s, [])

/-- `OnAccept` after `RegisterWsClient` returned `clientId`. -/
def onRegistered (s : CWsSession) (clientId : UInt32) : CWsSession :=
  if clientId = 0 then
    { s with toChannel := s.toChannel.requestClose.maybeSendClose, mClientId := clientId, registering := false }
  else { s with toChannel := s.toChannel.beginReading, mClientId := clientId, registering := false }

def handleClosed (alive : Bool) (s : CWsSession) (ec : ErrorCode) : CWsSession × List WsCall :=
  let expected := ec = .closed ∨ ec = .operationAborted ∨ ec = .eof ∨ ec = .connectionReset ∨
    ec = .timeout ∨ s.mCloseRequested = true
  let log := .logError (.failed ("client " ++ toString s.mClientId ++ " connection") ec)
  ({ s with toChannel := s.toChannel.handleClosed },
    if s.mOpen && alive then (if expected then [] else [log]) ++ [.onWsClosed s.mClientId] else [])

def onRead (alive : Bool) (s : CWsSession) (ec : Option ErrorCode) (frame : Frame) :
    CWsSession × List WsCall :=
  match ec with
  | some e => handleClosed alive s e
  | none =>
    ({ s with toChannel := s.toChannel.doRead },
      if alive then
        [if frame.isText then .onWsMessage s.mClientId frame.data else .onWsContent s.mClientId frame.data]
      else [])

def onWrite (alive : Bool) (s : CWsSession) (ec : Option ErrorCode) : CWsSession × List WsCall :=
  match ec with
  | some e => handleClosed alive s e
  | none => ({ s with toChannel := s.toChannel.onWrite none }, [])

/-- Runs one handler. -/
def handle (alive : Bool) (s : CWsSession) : Handler AcceptStage SPayload WsTask → CWsSession × List WsCall
  | .posted (.send payload) => s.send alive payload
  | .posted .close => s.close
  | .completed (.opening .accept) ec _ => s.onAccept alive ec
  | .completed .read ec frame => s.onRead alive ec frame
  | .completed (.write _ _) ec _ => s.onWrite alive ec
  | .completed .close _ _ => (s, [])

/-- The strand runs its front handler, if it is not inside `RegisterWsClient`. -/
def runNext (alive : Bool) (s : CWsSession) : Option (CWsSession × List WsCall) :=
  if s.registering then none
  else match s.strand with
    | [] => none
    | h :: _ => some (handle alive { s with toChannel := s.toChannel.popHandler } h)

/-! ## A session in an arbitrary environment -/

inductive Label where
  | post (task : WsTask)
  | complete (i : Nat) (ec : Option ErrorCode) (frame : Frame)
  | run (alive : Bool)
  | registered (clientId : UInt32)

def step (s : CWsSession) : Label → Option CWsSession
  | .post task => some { s with toChannel := s.toChannel.post task }
  | .complete i ec frame => (s.toChannel.complete i ec frame).map fun c => { s with toChannel := c }
  | .run alive => (s.runNext alive).map Prod.fst
  | .registered clientId => if s.registering then some (s.onRegistered clientId) else none

/-- Every order of posted calls, completions, handler runs and registration results. -/
def system : Lib.System CWsSession Label := ⟨step⟩

/-- Beast's promise on a step: after an error, completions are errors. -/
def BeastOk (s : CWsSession) : Label → Prop
  | .complete _ ec _ => s.failed = true → ec.isSome = true
  | _ => True

/-- No read error is handled while a write is in flight. -/
def CalmOk (s : CWsSession) : Label → Prop
  | .run _ => match s.strand with
    | .completed .read (some _) _ :: _ => s.writes = 0
    | _ => True
  | _ => True

instance (s : CWsSession) (l : Label) : Decidable (BeastOk s l) :=
  match l with
  | .complete _ ec _ => inferInstanceAs (Decidable (s.failed = true → ec.isSome = true))
  | .post _ | .run _ | .registered _ => .isTrue trivial

variable {s s' : CWsSession} {l : Label}

/-! ## Every step is a move of the channel, or opens it -/

/-- What runs when a handler runs. -/
theorem runNext_inv {alive : Bool} {calls : List WsCall} (ran : s.runNext alive = some (s', calls)) :
    s.registering = false ∧ ∃ h rest, s.strand = h :: rest ∧
      (s', calls) = handle alive { s with toChannel := s.toChannel.popHandler } h := by
  unfold runNext at ran
  split at ran
  next => cases ran
  next idle =>
    split at ran
    next => cases ran
    next h rest strand =>
      exact ⟨by simpa using idle, h, rest, strand, (Option.some.inj ran).symm⟩

theorem onRead_channel (alive : Bool) (ec : Option ErrorCode) (frame : Frame) :
    (onRead alive s ec frame).1.toChannel = s.toChannel.onRead ec := by
  cases ec <;> rfl

theorem onWrite_channel (alive : Bool) (ec : Option ErrorCode) :
    (onWrite alive s ec).1.toChannel = s.toChannel.onWrite ec := by
  cases ec <;> rfl

/-- A dropped or an accepted payload. -/
theorem send_channel (alive : Bool) (payload : SPayload) :
    (send alive s payload).1.toChannel = s.toChannel ∨
      s.mOpen = true ∧ s.mCloseRequested = false ∧
        (send alive s payload).1.toChannel = s.toChannel.enqueue payload := by
  unfold send
  split
  · exact .inl rfl
  · next may =>
    split
    · split <;> exact .inl rfl
    · refine .inr ⟨?_, ?_, rfl⟩ <;> simp_all

/-- Running a handler is a move, or the accept succeeded and the strand is inside the registration. -/
theorem runNext_move {beast calm : Prop} {alive : Bool} {calls : List WsCall}
    (ran : s.runNext alive = some (s', calls)) (calmOk : calm → CalmOk s (.run alive)) :
    Channel.Move beast calm s.toChannel s'.toChannel ∨
      Channel.Opens s.toChannel s'.toChannel ∧ s'.registering = true := by
  obtain ⟨-, h, rest, front, result⟩ := runNext_inv ran
  have same : s' = (handle alive { s with toChannel := s.toChannel.popHandler } h).1 :=
    congrArg Prod.fst result
  subst same
  match h with
  | .posted (.send payload) =>
    rcases send_channel (s := { s with toChannel := s.toChannel.popHandler }) alive payload with
      dropped | ⟨opened, running, accepted⟩
    · exact .inl (dropped ▸ .drop front)
    · exact .inl (accepted ▸ .send front opened running payload)
  | .posted .close => exact .inl (.close front)
  | .completed (.opening .accept) ec frame =>
    match ec, alive with
    | none, true => exact .inr ⟨⟨_, frame, rest, front, rfl⟩, rfl⟩
    | some e, true => exact .inl (.abandon front)
    | none, false => exact .inl (.abandon front)
    | some e, false => exact .inl (.abandon front)
  | .completed .read ec frame =>
    refine .inl ?_
    simp only [handle, onRead_channel]
    refine .read front fun isCalm bad => ?_
    obtain ⟨e, rfl⟩ := Option.isSome_iff_exists.1 bad
    have ok := calmOk isCalm
    simpa only [CalmOk, front] using ok
  | .completed (.write isText node) ec frame =>
    refine .inl ?_
    simp only [handle, onWrite_channel]
    exact .write front
  | .completed .close ec frame => exact .inl (.closed front)

theorem onRegistered_move {beast calm : Prop} (opened : s.mOpen = true) (clientId : UInt32) :
    Channel.Move beast calm s.toChannel (s.onRegistered clientId).toChannel := by
  unfold onRegistered
  split
  · exact .reject opened
  · exact .begin opened

/-- While `RegisterWsClient` runs the session is open. -/
def Waiting (s : CWsSession) : Prop := s.registering = true → s.mOpen = true

theorem step_move {beast calm : Prop} (step : s.step l = some s') (waiting : s.Waiting)
    (beastOk : beast → BeastOk s l) (calmOk : calm → CalmOk s l) :
    Channel.Move beast calm s.toChannel s'.toChannel ∨
      Channel.Opens s.toChannel s'.toChannel ∧ s'.registering = true := by
  cases l with
  | post task => cases step; exact .inl (.post task)
  | complete i ec frame =>
    obtain ⟨c, done, rfl⟩ := Option.map_eq_some_iff.1 step
    exact .inl (.complete done fun isBeast broken => beastOk isBeast broken)
  | run alive =>
    obtain ⟨⟨r, calls⟩, ran, rfl⟩ := Option.map_eq_some_iff.1 step
    exact runNext_move ran calmOk
  | registered clientId =>
    simp only [CWsSession.step] at step
    split at step
    next busy =>
      cases step
      exact .inl (onRegistered_move (waiting busy) clientId)
    next => cases step

/-- Only `OnAccept` sets the program counter, with the session open. -/
theorem handle_registering {alive : Bool} {h : Handler AcceptStage SPayload WsTask}
    (idle : s.registering = false) (busy : (handle alive s h).1.registering = true) :
    (handle alive s h).1.mOpen = true := by
  match h with
  | .posted (.send payload) =>
    have same : (send alive s payload).1.registering = s.registering := by
      unfold send
      split
      · rfl
      · split
        · split <;> rfl
        · rfl
    exact absurd (idle.symm.trans (same.symm.trans busy)) (by decide)
  | .posted .close => exact absurd (idle.symm.trans busy) (by decide)
  | .completed (.opening .accept) ec frame =>
    match ec, alive with
    | none, true => rfl
    | some e, true => exact absurd (idle.symm.trans busy) (by decide)
    | none, false => exact absurd (idle.symm.trans busy) (by decide)
    | some e, false => exact absurd (idle.symm.trans busy) (by decide)
  | .completed .read ec frame => cases ec <;> exact absurd (idle.symm.trans busy) (by decide)
  | .completed (.write isText node) ec frame => cases ec <;> exact absurd (idle.symm.trans busy) (by decide)
  | .completed .close ec frame => exact absurd (idle.symm.trans busy) (by decide)

theorem step_waiting (step : s.step l = some s') (waiting : s.Waiting) : s'.Waiting := by
  cases l with
  | post task => cases step; exact waiting
  | complete i ec frame =>
    obtain ⟨c, done, rfl⟩ := Option.map_eq_some_iff.1 step
    obtain ⟨p, -, rfl⟩ := Channel.complete_fields done
    exact waiting
  | run alive =>
    obtain ⟨⟨r, calls⟩, ran, rfl⟩ := Option.map_eq_some_iff.1 step
    obtain ⟨idle, h, rest, front, result⟩ := runNext_inv ran
    have same := congrArg Prod.fst result
    simp only at same
    subst same
    exact fun busy => handle_registering idle busy
  | registered clientId =>
    simp only [CWsSession.step] at step
    split at step
    next =>
      cases step
      intro busy
      unfold onRegistered at busy
      split at busy <;> cases busy
    next => cases step

end CWsSession

end Websockets
