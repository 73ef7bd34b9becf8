import Websockets.Server.Agreement
import Websockets.Server.Endpoint
import Websockets.Session.ReadSide

/-!
# The server comes to rest

From any state of any run, let nothing more be asked of the server: no call, no connection, no request and no
frame. What is in progress then goes on in any order, and after a bounded number of steps nothing is left but the
reads of open sessions. Registry and sessions, which may disagree while operations are in progress, then agree exactly.

The rank counts the steps that everything in progress may still lead to. Only `Stop` and the broadcasts lead to
as many as there are clients; their number grows only by registrations, so the clients, the registrations in progress
and the accepts in flight together bound it.
-/

namespace Websockets

open Std Lib

/-! ## What is left of a session -/

namespace CWsSession

/-- The steps that an operation of the stream leads to from its completion on, if it is no read that succeeds. A failure
is logged and reported to `OnWsClosed`, which posts two notifications; an accept is a registration. -/
def opCost : Op AcceptStage SPayload → Nat
  | .opening _ => 29
  | .read | .write _ _ => 13
  | .close => 1

def handlerCost : Handler AcceptStage SPayload WsTask → Nat
  | .posted (.send _) => 29
  | .posted .close => 3
  | .completed .read none _ => 23
  | .completed op _ _ => opCost op

end CWsSession

namespace Channel

/-- An element of the queue counts as its write. -/
def cost (c : Channel AcceptStage SPayload WsTask) : Nat :=
  (c.pending.map fun p => CWsSession.opCost p.op + 1).sum + (c.strand.map CWsSession.handlerCost).sum +
    14 * c.mWriteQueue.length

section Cost

open CWsSession

variable {c c' : Channel AcceptStage SPayload WsTask} {op : Op AcceptStage SPayload}
  {h : Handler AcceptStage SPayload WsTask} {rest : List (Handler AcceptStage SPayload WsTask)}

@[simp] theorem cost_start : (c.start op).cost = c.cost + opCost op + 1 := by
  simp only [cost, start, List.map_append, List.sum_append, List.map_cons, List.map_nil, List.sum_cons, List.sum_nil]
  omega

@[simp] theorem cost_post (task : WsTask) : (c.post task).cost = c.cost + handlerCost (.posted task) := by
  simp only [cost, post, List.map_append, List.sum_append, List.map_cons, List.map_nil, List.sum_cons, List.sum_nil]
  omega

theorem cost_pop (front : c.strand = h :: rest) : c.popHandler.cost + handlerCost h = c.cost := by
  simp only [cost, popHandler, front, List.tail_cons, List.map_cons, List.sum_cons]
  omega

/-- The completion of an operation other than a read that succeeds. -/
theorem cost_complete {i : Nat} {ec : Option ErrorCode} {frame : Frame} (done : c.complete i ec frame = some c')
    (fails : ec = none → c.pending[i]?.any (·.op.isRead) = false) : c'.cost + 1 = c.cost := by
  unfold complete at done
  split at done
  · cases done
  · next p found =>
    obtain rfl := Option.some.inj done
    obtain ⟨lt, rfl⟩ := List.getElem?_eq_some_iff.1 found
    have split := ((List.getElem_cons_eraseIdx_perm lt).map fun p => opCost p.op + 1).sum_eq
    have handler : handlerCost (.completed c.pending[i].op ec frame : Handler AcceptStage SPayload WsTask) =
        opCost c.pending[i].op := by
      simp only [found, Option.any_some] at fails
      generalize c.pending[i].op = op at fails ⊢
      cases op with
      | read =>
        cases ec with
        | none => exact absurd (fails rfl) (by decide)
        | some e => rfl
      | opening stage | write isText node | close => rfl
    simp only [List.map_cons, List.sum_cons] at split
    simp only [cost, List.map_append, List.sum_append, List.map_cons, List.map_nil, List.sum_cons, List.sum_nil,
      handler]
    omega

theorem cost_cancel : c.cancel.cost = c.cost := by
  simp [cost, cancel, Function.comp_def]

theorem cost_handleClosed : c.handleClosed.cost ≤ c.cost := by
  simp only [cost, handleClosed, List.length_nil]
  omega

theorem cost_maybeSendClose : c.maybeSendClose.cost ≤ c.cost + 2 := by
  unfold maybeSendClose
  split
  · exact Nat.le_add_right _ _
  · rw [cost_start]
    exact Nat.le_refl _

theorem cost_doWrite : c.doWrite.cost ≤ c.cost + 14 := by
  unfold doWrite
  split
  · exact Nat.le_add_right _ _
  · rw [cost_start]
    exact Nat.le_refl _

theorem cost_enqueue (payload : SPayload) : (c.enqueue payload).cost ≤ c.cost + 28 := by
  have pushed : (c.pushBack payload).cost = c.cost + 14 := by
    simp only [cost, pushBack, List.length_append, List.length_singleton]
    omega
  simp only [enqueue]
  split
  · have := @cost_doWrite (c.pushBack payload)
    omega
  · omega

theorem cost_closeTask : c.closeTask.cost ≤ c.cost + 2 := by
  unfold closeTask
  split
  · exact cost_maybeSendClose
  · rw [cost_cancel]
    exact Nat.le_add_right _ _

theorem cost_beginReading : c.beginReading.cost ≤ c.cost + 16 := by
  unfold beginReading doRead
  rw [cost_start]
  split
  · have := @cost_maybeSendClose c
    simp only [opCost]
    omega
  · simp only [opCost]
    omega

/-- The next write takes the place of the one that has succeeded. -/
theorem cost_onWrite : (c.onWrite none).cost ≤ c.cost + 2 := by
  have popped : c.popFront.cost + (if c.mWriteQueue.isEmpty then 0 else 14) = c.cost := by
    unfold popFront
    split
    · next empty => rw [empty]; rfl
    · next queue =>
      simp only [cost, setQueue, queue, List.length_cons, List.isEmpty_cons, Bool.false_eq_true, if_false]
      omega
  simp only [onWrite, Option.isSome_none, Bool.false_eq_true, if_false]
  split
  · next more =>
    have nonempty : c.mWriteQueue.isEmpty = false := by
      cases queue : c.mWriteQueue with
      | nil => simp [popFront, queue, touchEmpty] at more
      | cons node rest => rfl
    have := @cost_doWrite c.popFront
    simp only [nonempty, Bool.false_eq_true, if_false] at popped
    omega
  · split
    · have := @cost_maybeSendClose c.popFront
      omega
    · omega

end Cost

end Channel

namespace Server

/-! ## What is left of the server -/

/-- The steps that a piece leads to, itself included, on a server with at most `n` clients. What it posts counts with
the step that takes it from its queue. -/
@[simp] def cost (n : Nat) : Action → Nat
  | .startLocked _ _ | .addUri _ _ | .removeUri _ | .joinWorker | .logError _ => 1
  | .start _ _ | .invoke _ _ | .stopQueue _ => 2
  | .call cbs _ => 2 * cbs.length + 1
  | .postCallback cbs _ => 2 * cbs.length + 3
  | .notifyClosedSync _ _ => 5
  | .sessionClose _ => 4
  | .sessionSend _ _ => 30
  | .sendToClient _ _ => 31
  | .broadcast _ _ => 30 * n + 1
  | .anyClients _ _ => 30 * n + 2
  | .removeClient _ => 10
  | .stop => 9 * n + 1
  | .shutdown _ => 9 * n + 4
  | .registered _ _ => 17
  | .registerWsClient _ _ _ => 28
  | .onWsClosed _ => 11
  | .onWsMessage _ _ | .onWsContent _ _ => 8
  | .findHttpHandler _ _ => 6
  | .nextConnectionId _ => 7

def queuedCost (fn : List Fn × Notice) : Nat := 2 * fn.1.length + 2

/-- What waits on the strands, in the streams and in the work queue. -/
def waitingCost (s : Server) : Nat :=
  (s.sessions.map fun t => t.toChannel.cost).sum + (s.mWorkQueue.mQueue.map queuedCost).sum

def rank (n : Nat) (c : Running) : Nat := c.weigh (cost n) + c.shared.waitingCost

/-- The clients there are and those that may still be entered. -/
def reach (c : Running) : Nat :=
  c.shared.impl.mClients.size + c.count isRegistration + (c.shared.sessions.map fun t => t.openings).sum

variable {c c' : Running} {s s' : Server} {i k n : Nat} {a : Action} {outs rest : List Action} {l : Label}
  {o : Owner} {throws : Bool} {t t' : CWsSession}

theorem sum_mapSession_le {w : CWsSession → Nat} {f : CWsSession → CWsSession} {d : Nat}
    (le : ∀ t, w (f t) ≤ w t + d) :
    ((s.mapSession k f).sessions.map w).sum ≤ (s.sessions.map w).sum + d := by
  cases found : s.sessions[k]? with
  | none =>
    have same : (s.mapSession k f).sessions = s.sessions := List.modify_eq_self (List.getElem?_eq_none_iff.1 found)
    rw [same]
    exact Nat.le_add_right _ _
  | some t =>
    have := Tasks.sum_modify (f := f) found w
    have := le t
    simp only [mapSession]
    omega

@[simp] theorem waitingCost_record (events : List Event) : (s.record events).waitingCost = s.waitingCost := rfl
@[simp] theorem waitingCost_setImpl (impl : CImpl) : (s.setImpl impl).waitingCost = s.waitingCost := rfl

theorem waitingCost_mapSession {f : CWsSession → CWsSession} {d : Nat}
    (le : ∀ t, (f t).toChannel.cost ≤ t.toChannel.cost + d) :
    (s.mapSession k f).waitingCost ≤ s.waitingCost + d := by
  have := sum_mapSession_le (s := s) (k := k) (w := fun t => t.toChannel.cost) le
  have queue : (s.mapSession k f).mWorkQueue = s.mWorkQueue := rfl
  unfold waitingCost
  rw [queue]
  omega

theorem waitingCost_sessionPost (task : WsTask) :
    (s.sessionPost k task).waitingCost ≤ s.waitingCost + CWsSession.handlerCost (.posted task) :=
  waitingCost_mapSession fun t => by rw [Channel.cost_post]

theorem toList_length (cb : Option Fn) : cb.toList.length ≤ 1 := by
  cases cb <;> simp

theorem broadcastTargets_length (impl : CImpl) (uri : Option Bytes) :
    (impl.broadcastTargets uri).length ≤ impl.mClients.size := by
  unfold CImpl.broadcastTargets
  rw [List.length_map]
  exact (List.length_filter_le _ _).trans_eq TreeMap.length_toList

/-- What comes out of a piece, and what it leaves to be taken, costs less than the piece. -/
def Pays (n : Nat) (s : Server) (a : Action) (s' : Server) (outs : List Action) : Prop :=
  (outs.map (cost n)).sum + s'.waitingCost < cost n a + s.waitingCost

theorem pays_of_outs (same : s'.waitingCost = s.waitingCost) (less : (outs.map (cost n)).sum < cost n a) :
    Pays n s a s' outs := by
  unfold Pays
  rw [same]
  exact Nat.add_lt_add_right less _

theorem pays_nil (less : s'.waitingCost < cost n a + s.waitingCost) : Pays n s a s' [] := by
  simpa [Pays] using less

theorem stop_pays (few : s.impl.mClients.size ≤ n) : Pays n s .stop (s.stop i).1 (s.stop i).2 := by
  refine pays_of_outs rfl ?_
  simp only [stop, CImpl.stopLocked, List.map_append, List.map_map, List.sum_append, Function.comp_def, cost,
    List.map_const', List.sum_replicate, TreeMap.length_toList, smul_eq_mul]
  omega

theorem removeClient_pays (clientId : UInt32) :
    Pays n s (.removeClient clientId) (s.removeClient i clientId).1 (s.removeClient i clientId).2 := by
  unfold removeClient
  split
  · exact pays_of_outs rfl (by simp)
  · exact pays_of_outs rfl (by simp)

theorem onWsClosed_pays (clientId : UInt32) :
    Pays n s (.onWsClosed clientId) (s.onWsClosed i clientId).1 (s.onWsClosed i clientId).2 := by
  unfold onWsClosed
  split
  · exact pays_of_outs rfl (by simp)
  · next impl closing done =>
    have := toList_length closing.closedCb
    have := toList_length closing.connectionChangeCb
    refine pays_of_outs rfl ?_
    simp only [List.map_cons, List.map_nil, List.sum_cons, List.sum_nil, cost]
    omega

theorem registerWsClient_pays (target : Bytes) (isSsl : Bool) :
    Pays n s (.registerWsClient k target isSsl) (s.registerWsClient k target isSsl).1
      (s.registerWsClient k target isSsl).2 := by
  unfold registerWsClient
  simp only
  split
  · exact pays_of_outs rfl (by simp)
  · next impl r done =>
    have := toList_length r.addedCb
    have := toList_length r.connectionChangeCb
    refine pays_of_outs rfl ?_
    simp only [List.map_cons, List.map_nil, List.sum_cons, List.sum_nil, cost]
    omega

theorem onWsReceived_pays {clientId : UInt32} {notice : Notice} (pick : CClientCallbacks → Option Fn)
    (pickUri : CUriCallbacks → Option Fn) (costs : cost n a = 8) :
    Pays n s a s (s.onWsReceived clientId pick pickUri notice) := by
  have := toList_length (s.impl.lookupReceiveCallbacks clientId pick pickUri).1
  have := toList_length (s.impl.lookupReceiveCallbacks clientId pick pickUri).2
  refine pays_of_outs rfl ?_
  rw [costs]
  simp only [onWsReceived, List.map_cons, List.map_nil, List.sum_cons, List.sum_nil, cost, List.length_append]
  omega

theorem broadcast_pays (few : s.impl.mClients.size ≤ n) (uri : Option Bytes) (payload : SPayload) :
    Pays n s (.broadcast uri payload) s ((s.impl.broadcastTargets uri).map (.sessionSend · payload)) := by
  have := broadcastTargets_length s.impl uri
  refine pays_of_outs rfl ?_
  simp only [List.map_map, Function.comp_def, cost, List.map_const', List.sum_replicate, smul_eq_mul]
  omega

theorem postCallback_pays (cbs : List Fn) (notice : Notice) :
    Pays n s (.postCallback cbs notice) (s.postCallback cbs notice) [] := by
  have posted : (if cbs.isEmpty then s.mWorkQueue else s.mWorkQueue.post (cbs, notice)).mQueue =
        s.mWorkQueue.mQueue ∨
      (if cbs.isEmpty then s.mWorkQueue else s.mWorkQueue.post (cbs, notice)).mQueue =
        s.mWorkQueue.mQueue ++ [(cbs, notice)] := by
    unfold CWorkQueue.post
    split
    · exact .inl rfl
    · split
      · exact .inl rfl
      · exact .inr rfl
  refine pays_nil ?_
  simp only [postCallback, waitingCost, record, setQueue, cost]
  rcases posted with same | added
  · rw [same]
    omega
  · rw [added]
    simp only [List.map_append, List.sum_append, List.map_cons, List.map_nil, List.sum_cons, List.sum_nil, queuedCost]
    omega

theorem call_pays (throws : Bool) (cbs : List Fn) (notice : Notice) :
    Pays n s (.call cbs notice) (s.call throws cbs notice).1 (s.call throws cbs notice).2 := by
  cases cbs with
  | nil => exact pays_of_outs rfl (by simp [call])
  | cons fn rest =>
    cases throws
    · exact pays_of_outs rfl (by simp [call])
    · exact pays_of_outs rfl (by simp [call, unhandled])

theorem registered_pays (k : Nat) (clientId : UInt32) :
    Pays n s (.registered k clientId) (s.mapSession k (·.onRegistered clientId)) [] := by
  have le : ∀ t : CWsSession, (t.onRegistered clientId).toChannel.cost ≤ t.toChannel.cost + 16 := by
    intro t
    unfold CWsSession.onRegistered
    split
    · have : t.toChannel.requestClose.maybeSendClose.cost ≤ t.toChannel.requestClose.cost + 2 :=
        Channel.cost_maybeSendClose
      have same : t.toChannel.requestClose.cost = t.toChannel.cost := rfl
      simp only
      omega
    · exact Channel.cost_beginReading
  have := waitingCost_mapSession (s := s) (k := k) le
  refine pays_nil ?_
  simp only [cost]
  omega

theorem stopQueue_pays (onWorker : Bool) :
    Pays n s (.stopQueue onWorker) (s.stopQueue onWorker).1 (s.stopQueue onWorker).2 := by
  unfold stopQueue
  split
  · exact pays_of_outs rfl (by simp)
  · unfold Pays waitingCost
    cases onWorker <;> simp [setQueue, CWorkQueue.stop] <;> omega

/-- **Every piece pays for what it leads to.** -/
theorem exec_pays (few : c.shared.impl.mClients.size ≤ n) (done : exec throws c i a = some (s', outs)) :
    Pays n c.shared a s' outs := by
  cases a with
  | start port clientCbs =>
    refine Tasks.of_result done (pays_of_outs rfl ?_)
    split <;> simp
  | startLocked port clientCbs =>
    refine Tasks.of_result done (pays_nil ?_)
    unfold startLocked
    split <;> exact Nat.lt_add_of_pos_left Nat.one_pos
  | stop => exact Tasks.of_result done (stop_pays few)
  | removeClient clientId => exact Tasks.of_result done (removeClient_pays clientId)
  | notifyClosedSync clientId uri => exact Tasks.of_result done (pays_of_outs rfl (by simp [notifyClosedSync]))
  | addUri uri callbacks => exact Tasks.of_result done (pays_of_outs rfl (by simp))
  | removeUri uri => exact Tasks.of_result done (pays_of_outs rfl (by simp))
  | sendToClient clientId payload =>
    refine Tasks.of_result done (pays_of_outs rfl ?_)
    unfold sendToClient
    split <;> simp
  | anyClients uri payload =>
    refine Tasks.of_result done (pays_of_outs rfl ?_)
    split <;> simp
  | broadcast uri payload => exact Tasks.of_result done (broadcast_pays few uri payload)
  | sessionSend k payload =>
    refine Tasks.of_result done (pays_nil ?_)
    have := @waitingCost_sessionPost c.shared k (.send payload)
    simp only [cost, CWsSession.handlerCost] at *
    omega
  | sessionClose k =>
    refine Tasks.of_result done (pays_nil ?_)
    have := @waitingCost_sessionPost c.shared k .close
    simp only [cost, CWsSession.handlerCost] at *
    omega
  | registerWsClient k target isSsl => exact Tasks.of_result done (registerWsClient_pays target isSsl)
  | registered k clientId => exact Tasks.of_result done (registered_pays k clientId)
  | onWsClosed clientId => exact Tasks.of_result done (onWsClosed_pays clientId)
  | onWsMessage clientId message => exact Tasks.of_result done (onWsReceived_pays _ _ rfl)
  | onWsContent clientId content => exact Tasks.of_result done (onWsReceived_pays _ _ rfl)
  | nextConnectionId path => exact Tasks.of_result done (pays_of_outs rfl (by simp [nextConnectionId]))
  | findHttpHandler clientId path =>
    refine Tasks.of_result done (pays_of_outs rfl ?_)
    unfold findHttpHandler
    split <;> simp
  | postCallback cbs notice => exact Tasks.of_result done (postCallback_pays cbs notice)
  | invoke cb notice =>
    cases cb with
    | none => exact Tasks.of_result done (pays_of_outs rfl (by simp [invoke]))
    | some fn => cases throws <;> exact Tasks.of_result done (pays_of_outs rfl (by simp [invoke, unhandled]))
  | call cbs notice => exact Tasks.of_result done (call_pays throws cbs notice)
  | shutdown onWorker =>
    simp only [exec, shutdown] at done
    split at done
    · exact Tasks.of_result done (pays_of_outs rfl (by simp))
    · refine Tasks.of_result done (pays_of_outs rfl ?_)
      simp only [List.map_cons, List.map_nil, List.sum_cons, List.sum_nil, cost]
      omega
  | stopQueue onWorker => exact Tasks.of_result done (stopQueue_pays onWorker)
  | joinWorker =>
    simp only [exec] at done
    split at done
    · exact Tasks.of_result done (pays_of_outs rfl (by simp))
    · cases done
  | logError line => exact Tasks.of_result done (pays_of_outs rfl (by simp))

/-! ## Who may still be entered -/

theorem yields_registration {b : Action} (yields : Yields s a b) : isRegistration b = false := by
  cases yields <;> rfl

theorem exec_registrations (done : exec throws c i a = some (s', outs)) : outs.countP isRegistration = 0 :=
  List.countP_eq_zero.2 fun b mem holds => by simp [yields_registration (exec_yields done b mem)] at holds

/-- Only a registration adds a client. -/
theorem Does.size (does : Does s i a s' outs) :
    s'.impl.mClients.size ≤ s.impl.mClients.size + if isRegistration a then 1 else 0 := by
  have erased : ∀ (id : UInt32) (e : SClientEntry),
      (s.impl.eraseClient id e).1.mClients.size ≤ s.impl.mClients.size := fun id e => by
    rw [CImpl.eraseClient_mClients]
    exact TreeMap.size_erase_le
  cases does with
  | stop => exact Nat.zero_le _
  | @removeClient id e present => exact erased id e
  | @onWsClosed id e present => exact erased id e
  | register done =>
    obtain ⟨-, -, -, -, -, -, clients, -⟩ := CImpl.registerWsClientLocked_inv done
    simp only [record_impl, setImpl_impl, clients]
    exact TreeMap.size_insert_le
  | startLocked done =>
    simp only [CImpl.startLocked] at done
    split at done
    · cases done
    · cases done
      exact Nat.le_refl _
  | _ => exact Nat.le_add_right _ _

/-- No piece begins an accept. -/
theorem Does.openings (does : Does s i a s' outs) :
    (s'.sessions.map fun t => t.openings).sum ≤ (s.sessions.map fun t => t.openings).sum := by
  have kept : ∀ (k : Nat) (f : CWsSession → CWsSession), (∀ t, (f t).openings = t.openings) →
      ((s.mapSession k f).sessions.map fun t => t.openings).sum ≤ (s.sessions.map fun t => t.openings).sum :=
    fun k f same => @sum_mapSession_le s k (fun t => t.openings) f 0 fun t => Nat.le_of_eq (same t)
  rcases does.sessions with same | ⟨k, payload, rfl, rfl⟩ | ⟨k, rfl, rfl, -⟩ | ⟨k, id, rfl, rfl, -⟩
  · rw [same]
  · exact kept k _ fun t => by simp [Channel.openings]
  · exact kept k _ fun t => by simp [Channel.openings]
  · exact kept k _ fun t => (CWsSession.onRegistered_sees t id).2.2.1

theorem reach_ran (ran : Tasks.Ran (exec throws) c i c' o a rest outs) (does : Does c.shared i a c'.shared outs) :
    reach c' ≤ reach c := by
  have size := does.size
  have openings := does.openings
  have count := ran.count isRegistration
  have none := exec_registrations ran.action
  unfold reach
  omega

end Server

/-! ## The strands -/

namespace CWsSession

variable {t : CWsSession} {n k : Nat}

/-- What a handler leads to costs less than the handler. -/
theorem handle_pays (h : Handler AcceptStage SPayload WsTask) :
    ((handle true t h).2.map fun call => Server.cost n (Server.ofWsCall k call)).sum +
      (handle true t h).1.toChannel.cost < handlerCost h + t.toChannel.cost := by
  have fails : ∀ e, ((handleClosed true t e).2.map fun call => Server.cost n (Server.ofWsCall k call)).sum +
      (handleClosed true t e).1.toChannel.cost < 13 + t.toChannel.cost := fun e => by
    have := @Channel.cost_handleClosed t.toChannel
    simp only [handleClosed]
    split
    · split <;> simp [Server.ofWsCall] <;> omega
    · simp
      omega
  cases h with
  | posted task =>
    cases task with
    | send payload =>
      have := @Channel.cost_enqueue t.toChannel payload
      simp only [handle, send, handlerCost]
      split
      · simp
      · split
        · split <;> simp [Server.ofWsCall]
        · simp
          omega
    | close =>
      have := @Channel.cost_closeTask t.toChannel
      simp [handle, close, handlerCost]
      omega
  | completed op ec frame =>
    cases op with
    | opening stage =>
      cases stage
      cases ec with
      | none =>
        have same : t.toChannel.setOpen.cost = t.toChannel.cost := rfl
        simp [handle, onAccept, handlerCost, opCost, Server.ofWsCall, same]
      | some e =>
        simp only [handle, onAccept, handlerCost, opCost]
        split <;> simp [Server.ofWsCall]
    | read =>
      cases ec with
      | none =>
        simp only [handle, onRead, Channel.doRead, Channel.cost_start, handlerCost, opCost, if_true]
        split <;> simp [Server.ofWsCall] <;> omega
      | some e => exact fails e
    | write isText node =>
      cases ec with
      | none =>
        have := @Channel.cost_onWrite t.toChannel
        simp [handle, onWrite, handlerCost, opCost]
        omega
      | some e => exact fails e
    | close => simp [handle, handlerCost, opCost]

/-- A registration is called once the accept is over. -/
theorem runNext_registrations {t' : CWsSession} {calls : List WsCall} (ran : t.runNext true = some (t', calls)) :
    (calls.map (Server.ofWsCall k)).countP Server.isRegistration + t'.openings ≤ t.openings := by
  have none : ∀ logs : List WsCall, (∀ call ∈ logs, call.isLight = true) →
      (logs.map (Server.ofWsCall k)).countP Server.isRegistration = 0 := fun logs light =>
    List.countP_eq_zero.2 fun b mem => by
      obtain ⟨call, of, rfl⟩ := List.mem_map.1 mem
      have := light call of
      cases call with
      | registerWsClient target isSsl | onWsClosed clientId => cases this
      | onWsMessage clientId message | onWsContent clientId content | logError line => exact Bool.false_ne_true
  cases (runNext_acts ran).2 with
  | works keeps flags idle light =>
    rw [none calls light, Nat.zero_add]
    exact keeps.openings
  | marks clientId openings posted flags idle => simpa using openings
  | opens keeps flags busy opening =>
    rw [opening]
    simp [Server.ofWsCall, Server.isRegistration, Nat.add_comm]
  | @closes logs keeps opened flags idle light =>
    have openings := keeps.openings
    have quiet := none logs light
    simp only [List.map_append, List.countP_append, quiet]
    simpa [Server.ofWsCall, Server.isRegistration] using openings

end CWsSession

namespace Server

variable {c c' : Running} {s s' : Server} {i k n : Nat} {a : Action} {outs rest : List Action} {l : Label}
  {o : Owner} {throws : Bool} {t t' : CWsSession}

/-! ## The steps -/

/-- Nothing new is asked of the server: no call, no connection, no request, no frame. Beast keeps its promise. -/
def Undisturbed (c : Running) : Label → Prop
  | .api _ | .upgrade _ _ | .httpRequest _ => False
  | .complete k i ec frame => BeastOk c (.complete k i ec frame) ∧
    (ec = none → c.shared.sessions[k]?.any (fun t => t.pending[i]?.any (·.op.isRead)) = false)
  | .run _ _ | .strand _ | .work => True

theorem waitingCost_setSession (found : s.sessions[k]? = some t) (t' : CWsSession) :
    (s.setSession k t').waitingCost + t.toChannel.cost = s.waitingCost + t'.toChannel.cost := by
  have sum := Tasks.sum_modify (f := fun _ => t') found fun t : CWsSession => t.toChannel.cost
  simp only [waitingCost, setSession, mapSession] at *
  omega

theorem rank_spawn (s : Server) (o : Owner) (todo : List Action) :
    rank n (Tasks.spawn { c with shared := s } o todo) =
      c.weigh (cost n) + (todo.map (cost n)).sum + s.waitingCost :=
  congrArg (· + s.waitingCost) (Tasks.weigh_spawn todo (cost n))

/-- The clients and the accepts in flight. -/
def reachable (s : Server) : Nat := s.impl.mClients.size + (s.sessions.map fun t => t.openings).sum

theorem reach_eq (c : Running) : reach c = c.count isRegistration + c.shared.reachable := by
  unfold reach reachable
  omega

theorem reachable_setSession (found : s.sessions[k]? = some t) (t' : CWsSession) :
    (s.setSession k t').reachable + t.openings = s.reachable + t'.openings := by
  have sum := Tasks.sum_modify (f := fun _ => t') found fun t : CWsSession => t.openings
  simp only [reachable, setSession, mapSession] at *
  omega

theorem reach_spawn (s : Server) (o : Owner) (todo : List Action) :
    reach (Tasks.spawn { c with shared := s } o todo) =
      c.count isRegistration + todo.countP isRegistration + s.reachable := by
  rw [reach_eq, Tasks.count_spawn]
  rfl

/-- **Every step towards rest lowers the rank.** -/
theorem step_rank (few : c.shared.impl.mClients.size ≤ n) (ok : Undisturbed c l) (step : Server.step c l = some c') :
    rank n c' < rank n c := by
  cases step_steps step with
  | api call | upgrade target isSsl listened | httpRequest path listened => exact absurd ok id
  | run ran does =>
    have weigh := ran.weigh (cost n)
    have pays : Pays n _ _ _ _ := exec_pays few ran.action
    unfold Pays at pays
    unfold rank
    omega
  | @complete k i ec frame t ch found done =>
    have less := Channel.cost_complete done fun succeeds => by simpa [found] using ok.2 succeeds
    have sum : (c.shared.setSession k { t with toChannel := ch }).waitingCost + t.toChannel.cost =
        c.shared.waitingCost + ch.cost := waitingCost_setSession found _
    have tasks : rank n { c with shared := c.shared.setSession k { t with toChannel := ch } } =
        c.weigh (cost n) + (c.shared.setSession k { t with toChannel := ch }).waitingCost := rfl
    rw [tasks, rank]
    omega
  | @strand k t t' calls idle found ran =>
    obtain ⟨-, h, rest, front, result⟩ := CWsSession.runNext_inv ran
    have pays := @CWsSession.handle_pays { t with toChannel := t.toChannel.popHandler } n k h
    rw [← result] at pays
    have popped := Channel.cost_pop front
    have sum := waitingCost_setSession found t'
    rw [rank_spawn, rank, List.map_map]
    simp only [Function.comp_def] at *
    omega
  | @work cbs notice rest idle running queue =>
    have taken : (c.shared.setQueue { c.shared.mWorkQueue with mQueue := rest }).waitingCost +
        queuedCost (cbs, notice) = c.shared.waitingCost := by
      simp only [waitingCost, setQueue, queue, List.map_cons, List.sum_cons]
      omega
    rw [rank_spawn, rank]
    simp only [List.map_cons, List.map_nil, List.sum_cons, List.sum_nil, cost, queuedCost] at *
    omega

/-- Nothing adds to those that may still be entered but an upgrade. -/
theorem step_reach (ok : Undisturbed c l) (step : Server.step c l = some c') : reach c' ≤ reach c := by
  have before := reach_eq c
  cases step_steps step with
  | api call | upgrade target isSsl listened | httpRequest path listened => exact absurd ok id
  | run ran does => exact reach_ran ran does
  | @complete k i ec frame t ch found done =>
    have sum := reachable_setSession found { t with toChannel := ch }
    have same : ch.openings = t.openings := (Channel.inflight_complete done).countP_eq _
    rw [before, reach_eq]
    simp only [Tasks.count] at *
    omega
  | @strand k t t' calls idle found ran =>
    have fewer := @CWsSession.runNext_registrations t k t' calls ran
    have sum := reachable_setSession found t'
    rw [reach_spawn]
    omega
  | @work cbs notice rest idle running queue =>
    rw [reach_spawn, before]
    exact Nat.le_refl _

/-! ## Progress -/

/-- The worker calls, and logs what a callback threw. -/
def isWork : Action → Bool
  | .call _ _ | .logError _ => true
  | _ => false

theorem yields_work {b : Action} (yields : Yields s a b) (work : isWork a = true) : isWork b = true := by
  cases yields <;> first | rfl | cases work

/-- The operations and the queue of the worker. -/
structure Works (c : Running) : Prop where
  worker : ∀ j b, c.At j .worker b → isWork b = true
  stopped : c.shared.mWorkQueue.mStopped = true → c.shared.mWorkQueue.mQueue = []

theorem Does.stays_stopped (does : Does s i a s' outs)
    (empty : s.mWorkQueue.mStopped = true → s.mWorkQueue.mQueue = []) :
    s'.mWorkQueue.mStopped = true → s'.mWorkQueue.mQueue = [] := by
  cases does with
  | postCallback cbs notice =>
    cases cbs with
    | nil => exact empty
    | cons fn cbs =>
      simp only [Server.postCallback, record, setQueue, CWorkQueue.post, List.isEmpty_cons, Bool.false_eq_true,
        if_false]
      split
      · exact empty
      · next running => exact fun stopped => absurd stopped running
  | stopQueue onWorker lights => exact fun _ => rfl
  | _ => exact empty

theorem Works.spawn {todo : List Action} (works : Works c) (queue : s'.mWorkQueue = c.shared.mWorkQueue)
    (other : o ≠ .worker) : Works (Tasks.spawn { c with shared := s' } o todo) where
  worker j b pending := by
    rcases Tasks.at_spawn.1 pending with old | ⟨-, mine, -⟩
    · exact works.worker j b old
    · exact absurd mine.symm other
  stopped := by
    have same : (Tasks.spawn { c with shared := s' } o todo).shared.mWorkQueue = c.shared.mWorkQueue := queue
    rw [same]
    exact works.stopped

theorem step_works (works : Works c) (step : Server.step c l = some c') : Works c' := by
  cases step_steps step with
  | api call => exact works.spawn rfl (by simp)
  | httpRequest path listened => exact works.spawn rfl (by simp)
  | upgrade target isSsl listened =>
    refine ⟨works.worker, ?_⟩
    have queue : (c.shared.upgrade target isSsl).mWorkQueue = c.shared.mWorkQueue := by
      unfold upgrade
      split <;> rfl
    simp only [queue]
    exact works.stopped
  | run ran does =>
    refine ⟨fun j b pending => ?_, does.stays_stopped works.stopped⟩
    rcases ran.at_inv pending with old | ⟨-, rfl, new⟩
    · exact works.worker j b old
    · exact yields_work (exec_yields ran.action b new) (works.worker _ _ ran.at_head)
  | complete found done => exact ⟨works.worker, works.stopped⟩
  | strand idle found ran => exact works.spawn rfl (by simp)
  | @work cbs notice rest idle running queue =>
    refine ⟨fun j b pending => ?_, fun stopped => absurd (running.symm.trans stopped) (by decide)⟩
    rcases Tasks.at_spawn.1 pending with old | ⟨-, -, new⟩
    · exact works.worker j b old
    · obtain rfl := List.mem_singleton.1 new
      rfl

/-- A piece goes on, if it does not wait for the worker. -/
theorem exec_goes (throws : Bool) (c : Running) (i : Nat) (a : Action)
    (free : a = .joinWorker → c.idle .worker = true) :
    (exec throws c i a).isSome = true := by
  cases a with
  | joinWorker => simp only [exec, free rfl, if_true, Option.isSome_some]
  | _ => rfl

theorem run_goes {rest : List Action} (task : c.tasks[i]? = some ⟨o, a :: rest⟩)
    (free : a = .joinWorker → c.idle .worker = true) : ∃ c', Server.step c (.run i false) = some c' := by
  obtain ⟨⟨s', outs⟩, done⟩ := Option.isSome_iff_exists.1 (exec_goes false c i a free)
  exact ⟨_, step_run task done⟩

/-- Some operation goes on until all have finished. -/
theorem Works.goes (works : Works c) (busy : ¬ c.quiet) : ∃ i c', Server.step c (.run i false) = some c' := by
  have head : ∀ t ∈ c.tasks, t.todo ≠ [] →
      ∃ (i : Nat) (a : Action) (rest : List Action), c.tasks[i]? = some (Task.mk t.owner (a :: rest)) := by
    intro ⟨o, todo⟩ mem unfinished
    obtain ⟨i, found⟩ := List.mem_iff_getElem?.1 mem
    obtain ⟨a, rest, rfl⟩ := List.exists_cons_of_ne_nil unfinished
    exact ⟨i, a, rest, found⟩
  by_cases free : c.idle .worker = true
  · obtain ⟨t, mem, unfinished⟩ : ∃ t ∈ c.tasks, t.todo ≠ [] := by
      simpa only [Tasks.quiet, not_forall, exists_prop] using busy
    obtain ⟨i, a, rest, task⟩ := head t mem unfinished
    exact ⟨i, run_goes task fun _ => free⟩
  · -- Whoever waits for the worker, the worker itself waits for nobody.
    obtain ⟨t, mem, mine, unfinished⟩ : ∃ t ∈ c.tasks, t.owner = .worker ∧ t.todo ≠ [] := by
      simpa only [Tasks.idle_iff, not_forall, exists_prop] using free
    obtain ⟨i, a, rest, task⟩ := head t mem unfinished
    have work := works.worker i a ⟨_, task, mine, List.mem_cons_self⟩
    exact ⟨i, run_goes task (by rintro rfl; cases work)⟩

/-! ## The sessions -/

/-- What holds of every session between two handlers. -/
def Sound (c : Running) : Prop := ∀ (k : Nat) (t : CWsSession), c.shared.sessions[k]? = some t → t.Inv ∧ t.Reading

theorem step_sound (step : Server.step c l = some c') (awaited : Awaited c) (ok : BeastOk c l) (sound : Sound c) :
    Sound c' := by
  intro k t' found
  have moves : ∀ t sl, c.shared.sessions[k]? = some t → t.step sl = some t' → CWsSession.BeastOk t sl →
      t'.Inv ∧ t'.Reading :=
    fun t sl before moved allowed =>
      have ⟨inv, reading⟩ := sound k t before
      ⟨CWsSession.step_inv inv allowed moved, CWsSession.step_reading inv reading moved⟩
  cases step_session step awaited k with
  | touches beside apart touches =>
    rcases touches.step found with
      same | ⟨fresh, limit, target, isSsl, rfl⟩ | ⟨t, sl, before, moved, allowed, -⟩
    · exact sound k t' same
    · refine ⟨CWsSession.accept_inv limit target isSsl, ?_⟩
      exact ⟨Nat.zero_le 1, (fun busy => by cases busy), fun opened => by cases opened⟩
    · exact moves t sl before moved allowed
  | @completes t i ec frame ch before done after =>
    cases after.symm.trans found
    have moved : t.step (.complete i ec frame) = some { t with toChannel := ch } := by
      simp only [CWsSession.step, done, Option.map_some]
    refine moves t _ before moved fun failed => ok ?_
    rw [before]
    exact failed
  | @runs t t'' calls before ran after =>
    cases after.symm.trans found
    exact moves t (.run true) before (by simp only [CWsSession.step, ran, Option.map_some]) trivial

/-- What holds in every state of a run in which Beast keeps its promise. -/
structure Inv (c : Running) : Prop where
  settled : Settled c
  awaited : Awaited c
  works : Works c
  sound : Sound c

theorem Inv.step (inv : Inv c) (ok : BeastOk c l) (step : Server.step c l = some c') : Inv c' where
  settled := step_settled inv.settled step
  awaited := step_awaited step inv.awaited
  works := step_works inv.works step
  sound := step_sound step inv.awaited ok inv.sound

theorem create_inv (allowedUris : Option (List Bytes)) (maxSessionBacklog : Nat) :
    Inv (create allowedUris maxSessionBacklog) where
  settled := create_settled allowedUris maxSessionBacklog
  awaited := create_awaited allowedUris maxSessionBacklog
  works := ⟨fun j b ⟨t, found, _⟩ => by simp [create] at found, fun _ => rfl⟩
  sound k t found := by simp [create] at found

/-! ## At rest -/

/-- Nothing is in progress, and nothing outstanding but the reads of open sessions. -/
structure Rest (c : Running) : Prop where
  operations : c.quiet
  queue : c.shared.mWorkQueue.mQueue = []
  strands : ∀ (k : Nat) (t : CWsSession), c.shared.sessions[k]? = some t → t.strand = []
  reads : ∀ (k : Nat) (t : CWsSession), c.shared.sessions[k]? = some t →
    ∀ p ∈ t.pending, p.op = .read ∧ t.mOpen = true

/-- Registry and sessions are one. -/
structure Consistent (c : Running) : Prop where
  /-- The clients are the sessions that are open and have not been asked to close, -/
  clients : ∀ (k : Nat) (t : CWsSession), c.shared.sessions[k]? = some t →
    ((∃ (id : UInt32) (e : SClientEntry), c.shared.impl.mClients[id]? = some e ∧ e.session = k) ↔
      t.mOpen = true ∧ t.mCloseRequested = false)
  /-- an open session has written all and reads, unless it was rejected, and has sent the close asked of it, -/
  drained : ∀ (k : Nat) (t : CWsSession), c.shared.sessions[k]? = some t → t.mOpen = true →
    t.mWriteQueue = [] ∧ t.pending.length = (if t.mClientId = 0 then 0 else 1) ∧
      (t.mCloseRequested = true → t.mCloseSent = true)
  /-- and whoever has left was reported closed, once. -/
  told : ∀ k id, .registered k id ∈ c.shared.log → c.shared.impl.mClients[id]? = none →
    c.shared.log.countP (isIssue id) = 1

/-- Nobody waits for a registration when no operation is in progress. -/
theorem Inv.unregistering (inv : Inv c) (quiet : c.quiet) (found : c.shared.sessions[k]? = some t) :
    t.registering = false := by
  have none : c.count (registers k) = 0 := Tasks.count_eq_zero.2 fun task mem a there => by
    rw [quiet task mem] at there
    cases there
  have waits := inv.awaited k
  rw [none, found] at waits
  cases busy : t.registering with
  | false => rfl
  | true => simp [busy] at waits

theorem not_at (quiet : c.quiet) {j : Nat} {b : Action} : ¬ c.At j o b := by
  rintro ⟨task, found, -, mem⟩
  rw [quiet task (List.mem_of_getElem? found)] at mem
  cases mem

/-- A client has a session that is open, and every open session is a client's or has been asked to close. -/
theorem Rest.clients_iff (rest : Rest c) (inv : Inv c) (bound : c.shared.impl.allocated < 2 ^ 32 - 1)
    (found : c.shared.sessions[k]? = some t) :
    (∃ (id : UInt32) (e : SClientEntry), c.shared.impl.mClients[id]? = some e ∧ e.session = k) ↔
      t.mOpen = true ∧ t.mCloseRequested = false := by
  have books := inv.settled.kept.2 bound
  have agreement := inv.settled.agreement bound
  have agrees := agreement.present k t found
  have idle := inv.unregistering rest.operations found
  constructor
  · rintro ⟨id, e, present, mine⟩
    obtain ⟨-, unasked, opened | ⟨j, reporting⟩⟩ := agrees.of_entry books idle present mine
    · exact ⟨opened, unasked⟩
    · exact absurd reporting (not_at rest.operations)
  · rintro ⟨opened, unasked⟩
    have listed := agrees.phase.listed_of_open idle opened unasked
    rcases books.live_or_left listed with ⟨e, present⟩ | ⟨how, j, left⟩
    · exact ⟨_, e, present, books.listed_unique (agreement.entry_listed present) listed⟩
    · rcases agrees.left how j _ left listed with ⟨-, closed⟩ | ⟨-, ⟨o, closing⟩ | posted | asked⟩
      · exact absurd (opened.symm.trans closed) (by decide)
      · exact absurd closing (not_at rest.operations)
      · have empty := rest.strands k t found
        rw [CWsSession.closePosted, empty] at posted
        cases posted
      · exact absurd (asked.symm.trans unasked) (by decide)

/-- The operations in flight are the reads outstanding. -/
theorem Rest.inflight (rest : Rest c) (found : c.shared.sessions[k]? = some t) :
    t.toChannel.inflight = t.pending.map (·.op) ∧ ∀ op ∈ t.toChannel.inflight, op = .read := by
  have ops : t.toChannel.inflight = t.pending.map (·.op) := by
    simp [Channel.inflight, rest.strands k t found]
  refine ⟨ops, fun op mem => ?_⟩
  rw [ops] at mem
  obtain ⟨p, pending, rfl⟩ := List.mem_map.1 mem
  exact (rest.reads k t found p pending).1

theorem Rest.drained (rest : Rest c) (inv : Inv c) (found : c.shared.sessions[k]? = some t) (opened : t.mOpen = true) :
    t.mWriteQueue = [] ∧ t.pending.length = (if t.mClientId = 0 then 0 else 1) ∧
      (t.mCloseRequested = true → t.mCloseSent = true) := by
  obtain ⟨sinv, reading⟩ := inv.sound k t found
  obtain ⟨ops, reads⟩ := rest.inflight found
  have idle := inv.unregistering rest.operations found
  have empty : t.mWriteQueue = [] := by
    by_contra more
    obtain ⟨isText, node, mem⟩ := (sinv.sound.flow.writing_iff opened).2 more
    cases reads _ mem
  refine ⟨empty, ?_, fun asked => sinv.lost idle opened asked empty⟩
  rw [← reading.reading opened idle, Channel.reads, List.countP_eq_length.2 fun op mem => by rw [reads op mem]; rfl,
    ops, List.length_map]

/-- Whoever has left was reported closed. -/
theorem Rest.told (rest : Rest c) (books : Books c) {id : UInt32} (listed : .registered k id ∈ c.shared.log)
    (gone : c.shared.impl.mClients[id]? = none) : c.shared.log.countP (isIssue id) = 1 := by
  have entered : 0 < c.shared.log.countP (isEnter id) := List.countP_pos_iff.2 ⟨_, listed, by simp [isEnter]⟩
  have once := books.once id
  have owed : c.count (owes id) = 0 := Tasks.count_eq_zero.2 fun task mem a there => by
    rw [rest.operations task mem] at there
    cases there
  have absent : live c.shared.impl id = 0 := by simp [live, gone]
  have balanced := books.balanced id
  unfold Balanced at balanced
  omega

theorem Rest.consistent (rest : Rest c) (inv : Inv c) (bound : c.shared.impl.allocated < 2 ^ 32 - 1) :
    Consistent c where
  clients _ _ found := rest.clients_iff inv bound found
  drained _ _ found opened := rest.drained inv found opened
  told _ _ listed gone := rest.told (inv.settled.kept.2 bound) listed gone

/-- An operation that is outstanding may fail. -/
theorem pending_fails (found : c.shared.sessions[k]? = some t) {p : Pending AcceptStage SPayload} (pending : p ∈ t.pending) :
    ∃ l c', Undisturbed c l ∧ Server.step c l = some c' := by
  obtain ⟨i, here⟩ := List.mem_iff_getElem?.1 pending
  have enabled : (Server.step c (.complete k i (some .eof) noFrame)).isSome = true := by
    simp only [Server.step, completeOp, found, Channel.complete, here, Option.map_some, Option.isSome_some]
  obtain ⟨c', step⟩ := Option.isSome_iff_exists.1 enabled
  exact ⟨.complete k i (some .eof) noFrame, c', ⟨fun _ => rfl, fun none => by cases none⟩, step⟩

/-- **Until the server is at rest, something goes on.** -/
theorem Inv.rests_or_goes (inv : Inv c) : Rest c ∨ ∃ l c', Undisturbed c l ∧ Server.step c l = some c' := by
  by_cases quiet : c.quiet
  · by_cases queue : c.shared.mWorkQueue.mQueue = []
    · by_cases strands : ∀ (k : Nat) (t : CWsSession), c.shared.sessions[k]? = some t → t.strand = []
      · by_cases reads : ∀ (k : Nat) (t : CWsSession), c.shared.sessions[k]? = some t →
            ∀ p ∈ t.pending, p.op = .read ∧ t.mOpen = true
        · exact .inl ⟨quiet, queue, strands, reads⟩
        · simp only [not_forall] at reads
          obtain ⟨k, t, found, p, pending, -⟩ := reads
          exact .inr (pending_fails found pending)
      · simp only [not_forall] at strands
        obtain ⟨k, t, found, nonempty⟩ := strands
        obtain ⟨h, rest, front⟩ := List.exists_cons_of_ne_nil nonempty
        have idle := inv.unregistering quiet found
        have free : c.idle (.strand k) = true := Tasks.idle_iff.2 fun task mem _ => quiet task mem
        have enabled : (Server.step c (.strand k)).isSome = true := by
          simp only [Server.step, free, if_true, runStrand, found, CWsSession.runNext, idle, Bool.false_eq_true,
            if_false, front, Option.map_some, Option.isSome_some]
        obtain ⟨c', step⟩ := Option.isSome_iff_exists.1 enabled
        exact .inr ⟨.strand k, c', (trivial : Undisturbed c (.strand k)), step⟩
    · obtain ⟨fn, rest, front⟩ := List.exists_cons_of_ne_nil queue
      have serving : c.shared.mWorkQueue.mStopped = false := by
        cases stopped : c.shared.mWorkQueue.mStopped with
        | false => rfl
        | true => exact absurd (inv.works.stopped stopped) queue
      have free : c.idle .worker = true := Tasks.idle_iff.2 fun task mem _ => quiet task mem
      have enabled : (Server.step c .work).isSome = true := by
        simp only [Server.step, free, if_true, CWorkQueue.next, serving, Bool.false_eq_true, if_false, front,
          Option.map_some, Option.isSome_some]
      obtain ⟨c', step⟩ := Option.isSome_iff_exists.1 enabled
      exact .inr ⟨.work, c', (trivial : Undisturbed c .work), step⟩
  · obtain ⟨i, c', step⟩ := inv.works.goes quiet
    exact .inr ⟨.run i false, c', (trivial : Undisturbed c (.run i false)), step⟩

theorem undisturbed_beast (ok : Undisturbed c l) : BeastOk c l := by
  cases l with
  | complete k i ec frame => exact ok.1
  | _ => trivial

end Server

end Websockets
