import Websockets.Server.System

/-!
# What a step of the server can do

`Does` says once what each atomic piece of an operation does to the server and what it leaves to
do, `Steps` what each label does; every invariant is proved by cases on these two. The pieces that
touch neither the clients nor the added, closed and count notifications are `light`.
-/

namespace Websockets

open Std Lib

/-- A notification about traffic of a client or an http request. -/
def Notice.isTraffic : Notice → Bool
  | message _ _ | content _ _ | request _ _ => true
  | _ => false

/-- Pieces without effect on clients, uris, ids, and the notifications about these. -/
def Action.isLight : Action → Bool
  | start _ _ | startLocked _ _ | sendToClient _ _ | anyClients _ _ | broadcast _ _ | sessionSend _ _ => true
  | onWsMessage _ _ | onWsContent _ _ | findHttpHandler _ _ | joinWorker | logError _ => true
  | postCallback _ notice => notice.isTraffic
  | shutdown _ | stopQueue _ => true
  | _ => false

/-- The pieces that operations begin with. -/
def Action.isEntry : Action → Bool
  | start _ _ | stop | removeClient _ | addUri _ _ | removeUri _ | shutdown _ => true
  | sendToClient _ _ | anyClients _ _ | broadcast _ _ => true
  | registerWsClient _ _ _ | onWsClosed _ | onWsMessage _ _ | onWsContent _ _ | logError _ => true
  | nextConnectionId _ | call _ _ => true
  | _ => false

namespace Server

open CImpl

@[simp] theorem record_log (s : Server) (events : List Event) : (s.record events).log = s.log ++ events := rfl
@[simp] theorem record_impl (s : Server) (events : List Event) : (s.record events).impl = s.impl := rfl
@[simp] theorem setImpl_log (s : Server) (impl : CImpl) : (s.setImpl impl).log = s.log := rfl
@[simp] theorem setImpl_impl (s : Server) (impl : CImpl) : (s.setImpl impl).impl = impl := rfl
@[simp] theorem setQueue_log (s : Server) (queue) : (s.setQueue queue).log = s.log := rfl
@[simp] theorem setQueue_impl (s : Server) (queue) : (s.setQueue queue).impl = s.impl := rfl
@[simp] theorem mapSession_log (s : Server) (k : Nat) (f) : (s.mapSession k f).log = s.log := rfl
@[simp] theorem mapSession_impl (s : Server) (k : Nat) (f) : (s.mapSession k f).impl = s.impl := rfl
@[simp] theorem sessionPost_log (s : Server) (k : Nat) (task) : (s.sessionPost k task).log = s.log := rfl
@[simp] theorem sessionPost_impl (s : Server) (k : Nat) (task) : (s.sessionPost k task).impl = s.impl := rfl
@[simp] theorem postCallback_impl (s : Server) (cbs notice) : (s.postCallback cbs notice).impl = s.impl := rfl
@[simp] theorem postCallback_log (s : Server) (cbs : List Fn) (notice : Notice) :
    (s.postCallback cbs notice).log = s.log ++ [.issued cbs notice] := rfl

/-- What a posting leaves in the queue. -/
theorem postCallback_queue (s : Server) (cbs : List Fn) (notice : Notice) :
    (s.postCallback cbs notice).mWorkQueue.mQueue = s.mWorkQueue.mQueue ∧
        (cbs = [] ∨ s.mWorkQueue.mStopped = true) ∨
      (s.postCallback cbs notice).mWorkQueue.mQueue = s.mWorkQueue.mQueue ++ [(cbs, notice)] := by
  cases cbs with
  | nil => exact .inl ⟨rfl, .inl rfl⟩
  | cons fn rest =>
    cases stopped : s.mWorkQueue.mStopped with
    | true => exact .inl ⟨by simp [postCallback, CWorkQueue.post, stopped, setQueue, record], .inr rfl⟩
    | false => exact .inr (by simp [postCallback, CWorkQueue.post, stopped, setQueue, record])

@[simp] theorem stop_impl (s : Server) (task : Nat) : (s.stop task).1.impl = s.impl.stopLocked.1 := rfl
@[simp] theorem stop_log (s : Server) (task : Nat) : (s.stop task).1.log =
    s.log ++ s.impl.mClients.toList.map fun e => .removed .stop task e.1 := rfl
@[simp] theorem stop_outs (s : Server) (task : Nat) : (s.stop task).2 =
    (s.impl.mClients.toList.map fun e => .sessionClose e.2.session) ++
      s.impl.mClients.toList.map fun e => .notifyClosedSync e.1 e.2.uri := rfl

/-- What one atomic piece of operation `i` does to the server, and what it puts before the rest. -/
inductive Does (s : Server) (i : Nat) : Action → Server → List Action → Prop
  | relay {a outs} (light : a.isLight = true) (lights : ∀ o ∈ outs, o.isLight = true) : Does s i a s outs
  | startLocked {port clientCbs impl} (done : s.impl.startLocked port clientCbs = some impl) :
      Does s i (.startLocked port clientCbs) { s with impl := impl, listened := true } []
  | stop : Does s i .stop (s.stop i).1 (s.stop i).2
  | removeUnknown {clientId} (absent : s.impl.mClients[clientId]? = none) :
      Does s i (.removeClient clientId) s []
  | removeClient {clientId entry} (present : s.impl.mClients[clientId]? = some entry) :
      Does s i (.removeClient clientId)
        ((s.setImpl (s.impl.eraseClient clientId entry).1).record [.removed .removeClient i clientId])
        [.sessionClose entry.session, .notifyClosedSync clientId entry.uri]
  | notifyClosedSync (clientId uri) : Does s i (.notifyClosedSync clientId uri) (s.setImpl s.impl.countReport)
      [.invoke s.impl.mClientCbs.mOnClientClosedCb (.closed clientId),
        .invoke (s.impl.connectionChangeCb uri)
          (.connectionChange uri (if uri.isEmpty then 0 else s.impl.uriCount uri) s.impl.reports)]
  | addUri (uri callbacks) : Does s i (.addUri uri callbacks) (s.setImpl (s.impl.addUri uri callbacks)) []
  | removeUri (uri) : Does s i (.removeUri uri) (s.setImpl (s.impl.removeUri uri)) []
  | sessionSend (k payload) : Does s i (.sessionSend k payload) (s.sessionPost k (.send payload)) []
  | sessionClose (k) : Does s i (.sessionClose k) (s.sessionPost k .close) []
  | reject {k target isSsl} (rejects : s.impl.rejects = true) :
      Does s i (.registerWsClient k target isSsl) (s.record [.rejected k]) [.registered k 0]
  | register {k target isSsl impl r}
      (done : s.impl.registerWsClientLocked k (parseTarget target).1 isSsl = some (impl, r)) :
      Does s i (.registerWsClient k target isSsl) ((s.setImpl impl).record [.registered k r.clientId])
        [.postCallback r.addedCb.toList
            (.added r.clientId (s.impl.uriAppend r.matchedUri (parseTarget target).1 target) isSsl),
          .postCallback r.connectionChangeCb.toList (.connectionChange r.matchedUri r.uriCount r.stamp),
          .registered k r.clientId]
  | registered (k clientId) :
      Does s i (.registered k clientId) (s.mapSession k (·.onRegistered clientId)) []
  | closedUnknown {clientId} (absent : s.impl.mClients[clientId]? = none) : Does s i (.onWsClosed clientId) s []
  | onWsClosed {clientId entry} (present : s.impl.mClients[clientId]? = some entry) :
      Does s i (.onWsClosed clientId)
        ((s.setImpl (s.impl.eraseClient clientId entry).1.countReport).record [.removed .onWsClosed i clientId])
        [.postCallback s.impl.mClientCbs.mOnClientClosedCb.toList (.closed clientId),
          .postCallback (s.impl.connectionChangeCb entry.uri).toList
            (.connectionChange entry.uri (s.impl.eraseClient clientId entry).2 s.impl.reports)]
  | nextConnectionId (path) : Does s i (.nextConnectionId path) (s.setImpl s.impl.nextConnectionId.1)
      [.findHttpHandler s.impl.mNextConnectionId path]
  | postCallback (cbs notice) : Does s i (.postCallback cbs notice) (s.postCallback cbs notice) []
  | unset (notice) : Does s i (.invoke none notice) (s.record [.issued [] notice]) []
  | invoke (fn notice) {outs} (lights : ∀ o ∈ outs, o.isLight = true) :
      Does s i (.invoke (some fn) notice) (s.record [.issued [fn] notice, .invoked false fn notice]) outs
  | returned (notice) : Does s i (.call [] notice) s []
  | call (fn rest notice) {outs} (left : outs = [.call rest notice] ∨ ∀ o ∈ outs, o.isLight = true) :
      Does s i (.call (fn :: rest) notice) (s.record [.invoked true fn notice]) outs
  | shutdown (onWorker) : Does s i (.shutdown onWorker) (s.setImpl { s.impl with mShutdown := true })
      [.stop, .stopQueue onWorker]
  | stopQueue (onWorker) {outs} (lights : ∀ o ∈ outs, o.isLight = true) :
      Does s i (.stopQueue onWorker) (s.setQueue s.mWorkQueue.stop) outs
  | logError (line) : Does s i (.logError line) (s.record [.logged line]) []

variable {c c' : Running} {s s' : Server} {i k : Nat} {a : Action} {outs : List Action} {throws : Bool}
  {l : Label}

theorem lights_nil : ∀ o ∈ ([] : List Action), o.isLight = true := fun _ mem => nomatch mem

theorem lights_one (light : a.isLight = true) : ∀ o ∈ [a], o.isLight = true := by
  intro o mem
  rw [List.mem_singleton.1 mem]
  exact light

theorem unhandled_lights : ∀ o ∈ (if throws then [unhandled] else []), o.isLight = true := by
  cases throws
  · exact lights_nil
  · exact lights_one rfl

theorem removeClient_does (clientId : UInt32) :
    Does s i (.removeClient clientId) (s.removeClient i clientId).1 (s.removeClient i clientId).2 := by
  unfold removeClient removeClientLocked
  cases present : s.impl.mClients[clientId]? with
  | none => exact .removeUnknown present
  | some entry => exact .removeClient present

theorem onWsClosed_does (clientId : UInt32) :
    Does s i (.onWsClosed clientId) (s.onWsClosed i clientId).1 (s.onWsClosed i clientId).2 := by
  unfold onWsClosed onWsClosedLocked
  cases present : s.impl.mClients[clientId]? with
  | none => exact .closedUnknown present
  | some entry => exact .onWsClosed present

theorem registerWsClient_does (k : Nat) (target : Bytes) (isSsl : Bool) :
    Does s i (.registerWsClient k target isSsl) (s.registerWsClient k target isSsl).1
      (s.registerWsClient k target isSsl).2 := by
  unfold registerWsClient
  simp only
  split
  next none => exact .reject (registerWsClientLocked_none.1 none)
  next impl r done => exact .register done

theorem sendToClient_lights (clientId : UInt32) (payload : SPayload) :
    ∀ o ∈ s.sendToClient clientId payload, o.isLight = true := by
  unfold sendToClient
  split <;> exact lights_one rfl

theorem findHttpHandler_lights (clientId : UInt32) (path : Bytes) :
    ∀ o ∈ s.findHttpHandler clientId path, o.isLight = true := by
  unfold findHttpHandler
  split
  · exact lights_nil
  · exact lights_one rfl

theorem invoke_does (cb : Option Fn) (notice : Notice) :
    Does s i (.invoke cb notice) (s.invoke throws cb notice).1 (s.invoke throws cb notice).2 := by
  cases cb with
  | none => exact .unset notice
  | some fn => exact .invoke fn notice unhandled_lights

theorem call_does (cbs : List Fn) (notice : Notice) :
    Does s i (.call cbs notice) (s.call throws cbs notice).1 (s.call throws cbs notice).2 := by
  cases cbs with
  | nil => exact .returned notice
  | cons fn rest =>
    refine .call fn rest notice ?_
    cases throws
    · exact .inl rfl
    · exact .inr (lights_one rfl)

theorem shutdown_does (onWorker : Bool) :
    Does s i (.shutdown onWorker) (s.shutdown onWorker).1 (s.shutdown onWorker).2 := by
  unfold shutdown
  split
  · exact .relay rfl lights_nil
  · exact .shutdown onWorker

theorem stopQueue_does (onWorker : Bool) :
    Does s i (.stopQueue onWorker) (s.stopQueue onWorker).1 (s.stopQueue onWorker).2 := by
  unfold stopQueue
  split
  · exact .relay rfl lights_nil
  · refine .stopQueue onWorker ?_
    cases onWorker
    · exact lights_one rfl
    · exact lights_nil

theorem startLocked_does (port : Nat) (clientCbs : CClientCallbacks) :
    Does s i (.startLocked port clientCbs) (s.startLocked port clientCbs) [] := by
  unfold startLocked
  split
  next => exact .relay rfl lights_nil
  next impl done => exact .startLocked done

/-- **`exec` does what `Does` says.** -/
theorem exec_does (done : exec throws c i a = some (s', outs)) : Does c.shared i a s' outs := by
  cases a with
  | start port clientCbs =>
    refine Tasks.of_result done (.relay rfl ?_)
    simp only
    split
    · exact lights_nil
    · exact lights_one rfl
  | startLocked port clientCbs => exact Tasks.of_result done (startLocked_does port clientCbs)
  | stop => exact Tasks.of_result done .stop
  | removeClient clientId => exact Tasks.of_result done (removeClient_does clientId)
  | notifyClosedSync clientId uri => exact Tasks.of_result done (.notifyClosedSync clientId uri)
  | addUri uri callbacks => exact Tasks.of_result done (.addUri uri callbacks)
  | removeUri uri => exact Tasks.of_result done (.removeUri uri)
  | sendToClient clientId payload => exact Tasks.of_result done (.relay rfl (sendToClient_lights clientId payload))
  | anyClients uri payload =>
    refine Tasks.of_result done (.relay rfl ?_)
    simp only
    split
    · exact lights_one rfl
    · exact lights_nil
  | broadcast uri payload =>
    refine Tasks.of_result done (.relay rfl fun o mem => ?_)
    obtain ⟨k, -, rfl⟩ := List.mem_map.1 mem
    rfl
  | sessionSend k payload => exact Tasks.of_result done (.sessionSend k payload)
  | sessionClose k => exact Tasks.of_result done (.sessionClose k)
  | registerWsClient k target isSsl => exact Tasks.of_result done (registerWsClient_does k target isSsl)
  | registered k clientId => exact Tasks.of_result done (.registered k clientId)
  | onWsClosed clientId => exact Tasks.of_result done (onWsClosed_does clientId)
  | onWsMessage clientId message => exact Tasks.of_result done (.relay rfl (lights_one rfl))
  | onWsContent clientId content => exact Tasks.of_result done (.relay rfl (lights_one rfl))
  | nextConnectionId path => exact Tasks.of_result done (.nextConnectionId path)
  | findHttpHandler clientId path => exact Tasks.of_result done (.relay rfl (findHttpHandler_lights clientId path))
  | postCallback cbs notice => exact Tasks.of_result done (.postCallback cbs notice)
  | invoke cb notice => exact Tasks.of_result done (invoke_does cb notice)
  | call cbs notice => exact Tasks.of_result done (call_does cbs notice)
  | shutdown onWorker => exact Tasks.of_result done (shutdown_does onWorker)
  | stopQueue onWorker => exact Tasks.of_result done (stopQueue_does onWorker)
  | joinWorker =>
    simp only [exec] at done
    split at done
    · exact Tasks.of_result done (.relay rfl lights_nil)
    · cases done
  | logError line => exact Tasks.of_result done (.logError line)

/-- The events that a piece of operation `i` records. -/
inductive Records (s : Server) (i : Nat) : Action → Event → Prop
  | stop {id entry} (present : s.impl.mClients[id]? = some entry) : Records s i .stop (.removed .stop i id)
  | removeClient (id) : Records s i (.removeClient id) (.removed .removeClient i id)
  | onWsClosed (id) : Records s i (.onWsClosed id) (.removed .onWsClosed i id)
  | registered {k target isSsl impl r}
      (done : s.impl.registerWsClientLocked k (parseTarget target).1 isSsl = some (impl, r)) :
      Records s i (.registerWsClient k target isSsl) (.registered k r.clientId)
  | rejected (k target isSsl) : Records s i (.registerWsClient k target isSsl) (.rejected k)
  | posted (cbs notice) : Records s i (.postCallback cbs notice) (.issued cbs notice)
  | issued (cb notice) : Records s i (.invoke cb notice) (.issued cb.toList notice)
  | invoked (fn notice) : Records s i (.invoke (some fn) notice) (.invoked false fn notice)
  | called (fn rest notice) : Records s i (.call (fn :: rest) notice) (.invoked true fn notice)
  | logged (line) : Records s i (.logError line) (.logged line)

/-- A piece only adds to the history. -/
theorem Does.records (does : Does s i a s' outs) : ∃ new, s'.log = s.log ++ new ∧ ∀ e ∈ new, Records s i a e := by
  cases does with
  | stop =>
    refine ⟨_, stop_log s i, fun e mem => ?_⟩
    obtain ⟨⟨id, entry⟩, taken, rfl⟩ := List.mem_map.1 mem
    exact .stop (TreeMap.mem_toList_iff_getElem?_eq_some.1 taken)
  | removeClient present => exact ⟨_, rfl, by simpa using .removeClient _⟩
  | register done => exact ⟨_, rfl, by simpa using .registered done⟩
  | onWsClosed present => exact ⟨_, rfl, by simpa using .onWsClosed _⟩
  | reject rejects => exact ⟨_, rfl, by simpa using .rejected _ _ _⟩
  | postCallback cbs notice => exact ⟨_, rfl, by simpa using .posted cbs notice⟩
  | unset notice => exact ⟨_, rfl, by simpa using .issued none notice⟩
  | invoke fn notice lights => exact ⟨_, rfl, by simpa using ⟨.issued (some fn) notice, .invoked fn notice⟩⟩
  | call fn rest notice left => exact ⟨_, rfl, by simpa using .called fn rest notice⟩
  | logError line => exact ⟨_, rfl, by simpa using .logged line⟩
  | _ => exact ⟨[], (List.append_nil _).symm, List.forall_mem_nil _⟩

/-- The history only grows. -/
theorem Does.mem_log (does : Does s i a s' outs) {e : Event} (mem : e ∈ s.log) : e ∈ s'.log := by
  obtain ⟨new, log, -⟩ := does.records
  rw [log]
  exact List.mem_append_left _ mem

/-- An event in the history is old, or the piece recorded it. -/
theorem Does.log_inv (does : Does s i a s' outs) {e : Event} (mem : e ∈ s'.log) : e ∈ s.log ∨ Records s i a e := by
  obtain ⟨new, log, records⟩ := does.records
  rw [log] at mem
  exact (List.mem_append.1 mem).imp_right (records e)

/-- What a piece may leave to do before the rest of its operation. -/
inductive Yields (s : Server) : Action → Action → Prop
  | startLocked (port clientCbs) : Yields s (.start port clientCbs) (.startLocked port clientCbs)
  | stopClose {id : UInt32} {e : SClientEntry} (present : s.impl.mClients[id]? = some e) :
      Yields s .stop (.sessionClose e.session)
  | stopNotify {id : UInt32} {e : SClientEntry} (present : s.impl.mClients[id]? = some e) :
      Yields s .stop (.notifyClosedSync id e.uri)
  | removeClose {id : UInt32} {e : SClientEntry} (present : s.impl.mClients[id]? = some e) :
      Yields s (.removeClient id) (.sessionClose e.session)
  | removeNotify {id : UInt32} {e : SClientEntry} (present : s.impl.mClients[id]? = some e) :
      Yields s (.removeClient id) (.notifyClosedSync id e.uri)
  | notifyClosed (id uri cb) : Yields s (.notifyClosedSync id uri) (.invoke cb (.closed id))
  | notifyChange (id uri cb n stamp) :
      Yields s (.notifyClosedSync id uri) (.invoke cb (.connectionChange uri n stamp))
  | notConnected (id payload line) : Yields s (.sendToClient id payload) (.logError line)
  | found (id k payload) : Yields s (.sendToClient id payload) (.sessionSend k payload)
  | anyClients (uri payload) : Yields s (.anyClients uri payload) (.broadcast uri payload)
  | broadcast {uri k} (reached : k ∈ s.impl.broadcastTargets uri) (payload) :
      Yields s (.broadcast uri payload) (.sessionSend k payload)
  | added (k target isSsl cbs id append) :
      Yields s (.registerWsClient k target isSsl) (.postCallback cbs (.added id append isSsl))
  | registerChange (k target isSsl cbs uri n stamp) :
      Yields s (.registerWsClient k target isSsl) (.postCallback cbs (.connectionChange uri n stamp))
  | registered (k target isSsl id) : Yields s (.registerWsClient k target isSsl) (.registered k id)
  | closed (id cbs) : Yields s (.onWsClosed id) (.postCallback cbs (.closed id))
  | closedChange (id cbs uri n stamp) :
      Yields s (.onWsClosed id) (.postCallback cbs (.connectionChange uri n stamp))
  | message (id m) : Yields s (.onWsMessage id m) (.postCallback
      ((s.impl.lookupReceiveCallbacks id CClientCallbacks.mOnClientMessageReceivedCb
          CUriCallbacks.mOnClientMessageReceivedCb).1.toList ++
        (s.impl.lookupReceiveCallbacks id CClientCallbacks.mOnClientMessageReceivedCb
          CUriCallbacks.mOnClientMessageReceivedCb).2.toList) (.message id m))
  | content (id m) : Yields s (.onWsContent id m) (.postCallback
      ((s.impl.lookupReceiveCallbacks id CClientCallbacks.mOnClientContentReceivedCb
          CUriCallbacks.mOnClientContentReceivedCb).1.toList ++
        (s.impl.lookupReceiveCallbacks id CClientCallbacks.mOnClientContentReceivedCb
          CUriCallbacks.mOnClientContentReceivedCb).2.toList) (.content id m))
  | findHttpHandler (path) :
      Yields s (.nextConnectionId path) (.findHttpHandler s.impl.mNextConnectionId path)
  | handler {path fn} (registered : s.impl.findHttpHandler path = some fn) (id) :
      Yields s (.findHttpHandler id path) (.postCallback [fn] (.request id path))
  | threw (cb notice) : Yields s (.invoke cb notice) unhandled
  | next (fn rest notice) : Yields s (.call (fn :: rest) notice) (.call rest notice)
  | skipped (fn rest notice) : Yields s (.call (fn :: rest) notice) unhandled
  | shutdownStop (onWorker) : Yields s (.shutdown onWorker) .stop
  | shutdownQueue (onWorker) : Yields s (.shutdown onWorker) (.stopQueue onWorker)
  | join (onWorker) : Yields s (.stopQueue onWorker) .joinWorker

theorem yields_nil : ∀ b ∈ ([] : List Action), Yields s a b := List.forall_mem_nil _

theorem yields_one {b : Action} (yields : Yields s a b) : ∀ b' ∈ [b], Yields s a b' := by
  intro b' mem
  rw [List.mem_singleton.1 mem]
  exact yields

theorem stop_yields : ∀ b ∈ (s.stop i).2, Yields s .stop b := by
  intro b mem
  rw [stop_outs] at mem
  rcases List.mem_append.1 mem with mem | mem
  · obtain ⟨e, taken, rfl⟩ := List.mem_map.1 mem
    exact .stopClose (TreeMap.mem_toList_iff_getElem?_eq_some.1 taken)
  · obtain ⟨e, taken, rfl⟩ := List.mem_map.1 mem
    exact .stopNotify (TreeMap.mem_toList_iff_getElem?_eq_some.1 taken)

theorem removeClient_yields (clientId : UInt32) :
    ∀ b ∈ (s.removeClient i clientId).2, Yields s (.removeClient clientId) b := by
  unfold removeClient removeClientLocked
  cases present : s.impl.mClients[clientId]? with
  | none => exact yields_nil
  | some entry => exact List.forall_mem_cons.2 ⟨.removeClose present, yields_one (.removeNotify present)⟩

theorem onWsClosed_yields (clientId : UInt32) :
    ∀ b ∈ (s.onWsClosed i clientId).2, Yields s (.onWsClosed clientId) b := by
  unfold onWsClosed onWsClosedLocked
  cases present : s.impl.mClients[clientId]? with
  | none => exact yields_nil
  | some entry =>
    exact List.forall_mem_cons.2 ⟨.closed clientId _, yields_one (.closedChange clientId _ _ _ _)⟩

theorem registerWsClient_yields (k : Nat) (target : Bytes) (isSsl : Bool) :
    ∀ b ∈ (s.registerWsClient k target isSsl).2, Yields s (.registerWsClient k target isSsl) b := by
  unfold registerWsClient
  simp only
  split
  · exact yields_one (.registered k target isSsl 0)
  · refine List.forall_mem_cons.2 ⟨.added k target isSsl _ _ _, ?_⟩
    exact List.forall_mem_cons.2
      ⟨.registerChange k target isSsl _ _ _ _, yields_one (.registered k target isSsl _)⟩

theorem invoke_yields (cb : Option Fn) (notice : Notice) :
    ∀ b ∈ (s.invoke throws cb notice).2, Yields s (.invoke cb notice) b := by
  cases cb with
  | none => exact yields_nil
  | some fn =>
    cases throws
    · exact yields_nil
    · exact yields_one (.threw _ notice)

theorem call_yields (cbs : List Fn) (notice : Notice) :
    ∀ b ∈ (s.call throws cbs notice).2, Yields s (.call cbs notice) b := by
  cases cbs with
  | nil => exact yields_nil
  | cons fn rest =>
    cases throws
    · exact yields_one (.next fn rest notice)
    · exact yields_one (.skipped fn rest notice)

/-- **What comes out of a piece.** -/
theorem exec_yields (done : exec throws c i a = some (s', outs)) : ∀ b ∈ outs, Yields c.shared a b := by
  have whole : ∀ r : Server × List Action, some r = some (s', outs) → (∀ b ∈ r.2, Yields c.shared a b) →
      ∀ b ∈ outs, Yields c.shared a b := by
    rintro r eq yields
    cases eq
    exact yields
  cases a with
  | start port clientCbs =>
    refine whole _ done ?_
    simp only
    split
    · exact yields_nil
    · exact yields_one (.startLocked port clientCbs)
  | stop => exact whole _ done stop_yields
  | removeClient clientId => exact whole _ done (removeClient_yields clientId)
  | notifyClosedSync clientId uri =>
    refine whole _ done (List.forall_mem_cons.2 ⟨.notifyClosed clientId uri _, ?_⟩)
    exact yields_one (.notifyChange clientId uri _ _ _)
  | sendToClient clientId payload =>
    refine whole _ done ?_
    simp only [sendToClient]
    split
    · exact yields_one (.notConnected clientId payload _)
    · exact yields_one (.found clientId _ payload)
  | anyClients uri payload =>
    refine whole _ done ?_
    simp only
    split
    · exact yields_one (.anyClients uri payload)
    · exact yields_nil
  | broadcast uri payload =>
    refine whole _ done fun b mem => ?_
    obtain ⟨k, reached, rfl⟩ := List.mem_map.1 mem
    exact .broadcast reached payload
  | registerWsClient k target isSsl => exact whole _ done (registerWsClient_yields k target isSsl)
  | onWsClosed clientId => exact whole _ done (onWsClosed_yields clientId)
  | onWsMessage clientId m => exact whole _ done (yields_one (.message clientId m))
  | onWsContent clientId m => exact whole _ done (yields_one (.content clientId m))
  | nextConnectionId path => exact whole _ done (yields_one (.findHttpHandler path))
  | findHttpHandler clientId path =>
    refine whole _ done ?_
    simp only [findHttpHandler]
    split
    · exact yields_nil
    · next fn registered => exact yields_one (.handler registered clientId)
  | invoke cb notice => exact whole _ done (invoke_yields cb notice)
  | call cbs notice => exact whole _ done (call_yields cbs notice)
  | shutdown onWorker =>
    refine whole _ done ?_
    simp only [shutdown]
    split
    · exact yields_nil
    · exact List.forall_mem_cons.2 ⟨.shutdownStop onWorker, yields_one (.shutdownQueue onWorker)⟩
  | stopQueue onWorker =>
    refine whole _ done ?_
    simp only [stopQueue]
    split
    · exact yields_nil
    · cases onWorker
      · exact yields_one (.join false)
      · exact yields_nil
  | joinWorker =>
    simp only [exec] at done
    split at done
    · exact whole _ done yields_nil
    · cases done
  | _ => exact whole _ done yields_nil

/-! ## Labels -/

/-- What each label does. -/
inductive Steps (c : Running) : Label → Running → Prop
  | api (call : Api) : Steps c (.api call) (c.spawn .user [call.action])
  | run {i throws c' o a rest outs} (ran : Tasks.Ran (exec throws) c i c' o a rest outs)
      (does : Does c.shared i a c'.shared outs) : Steps c (.run i throws) c'
  | upgrade (target isSsl) (listened : c.shared.listened = true) :
      Steps c (.upgrade target isSsl) { c with shared := c.shared.upgrade target isSsl }
  | httpRequest (path) (listened : c.shared.listened = true) :
      Steps c (.httpRequest path) (c.spawn .http [.nextConnectionId path])
  | complete {k i ec frame t ch} (found : c.shared.sessions[k]? = some t)
      (done : t.toChannel.complete i ec frame = some ch) :
      Steps c (.complete k i ec frame) { c with shared := c.shared.setSession k { t with toChannel := ch } }
  | strand {k t t' calls} (idle : c.idle (.strand k) = true) (found : c.shared.sessions[k]? = some t)
      (ran : t.runNext true = some (t', calls)) :
      Steps c (.strand k)
        (Tasks.spawn { c with shared := c.shared.setSession k t' } (.strand k) (calls.map (ofWsCall k)))
  | work {cbs notice rest} (idle : c.idle .worker = true) (running : c.shared.mWorkQueue.mStopped = false)
      (queue : c.shared.mWorkQueue.mQueue = (cbs, notice) :: rest) :
      Steps c .work (Tasks.spawn
        { c with shared := c.shared.setQueue { c.shared.mWorkQueue with mQueue := rest } } .worker
        [.call cbs notice])

/-- **`step` does what `Steps` says.** -/
theorem step_steps (step : step c l = some c') : Steps c l c' := by
  cases l with
  | api call => cases step; exact .api call
  | run i throws =>
    obtain ⟨o, a, rest, outs, ran⟩ := Tasks.run_inv step
    exact .run ran (exec_does ran.action)
  | upgrade target isSsl =>
    simp only [Server.step] at step
    split at step
    · next listened => cases step; exact .upgrade target isSsl listened
    · cases step
  | httpRequest path =>
    simp only [Server.step] at step
    split at step
    · next listened => cases step; exact .httpRequest path listened
    · cases step
  | complete k i ec frame =>
    simp only [Server.step, completeOp] at step
    split at step
    next => cases step
    next t found =>
      obtain ⟨s, made, rfl⟩ := Option.map_eq_some_iff.1 step
      obtain ⟨ch, done, rfl⟩ := Option.map_eq_some_iff.1 made
      exact .complete found done
  | strand k =>
    simp only [Server.step, runStrand] at step
    split at step
    · next idle =>
      split at step
      next => cases step
      next t found =>
        obtain ⟨r, made, rfl⟩ := Option.map_eq_some_iff.1 step
        obtain ⟨⟨t', calls⟩, ran, rfl⟩ := Option.map_eq_some_iff.1 made
        exact .strand idle found ran
    · cases step
  | work =>
    simp only [Server.step, CWorkQueue.next] at step
    split at step
    · next idle =>
      split at step
      next => cases step
      next running =>
        split at step
        next => cases step
        next fn rest queue =>
          cases step
          exact .work idle (by simpa using running) queue
    · cases step

/-! ## Rules for invariants -/

/-- The piece operation `i` performs next. -/
def head? (c : Running) (i : Nat) : Option Action := c.tasks[i]?.bind fun t => t.todo.head?

theorem head?_eq {o : Owner} {rest : List Action} (task : c.tasks[i]? = some ⟨o, a :: rest⟩) :
    head? c i = some a := by
  simp [head?, task]

theorem step_run {o : Owner} {rest : List Action} (task : c.tasks[i]? = some ⟨o, a :: rest⟩)
    (done : exec throws c i a = some (s', outs)) :
    system.step c (.run i throws) = some ⟨s', c.tasks.set i ⟨o, outs ++ rest⟩⟩ := by
  simp only [system, Server.step, Tasks.run, task, done]

/-- A step that performs no piece of an operation: registry and history stay, and at most one
operation begins. -/
structure Begins (c c' : Running) : Prop where
  log : c'.shared.log = c.shared.log
  impl : c'.shared.impl = c.shared.impl
  tasks : c'.tasks = c.tasks ∨
    ∃ o todo, c'.tasks = c.tasks ++ [⟨o, todo⟩] ∧ ∀ b ∈ todo, Action.isEntry b = true

theorem ofWsCall_isEntry (call : WsCall) : (ofWsCall k call).isEntry = true := by
  cases call <;> rfl

/-- A step performs a piece of an operation, or begins one. -/
theorem step_ran_or_begins (step : step c l = some c') :
    (∃ i throws o a rest outs, l = .run i throws ∧ Tasks.Ran (exec throws) c i c' o a rest outs ∧
      Does c.shared i a c'.shared outs) ∨ Begins c c' := by
  cases step_steps step with
  | api call =>
    refine .inr ⟨rfl, rfl, .inr ⟨_, _, rfl, fun b mem => ?_⟩⟩
    rw [List.mem_singleton.1 mem]
    cases call <;> rfl
  | run ran does => exact .inl ⟨_, _, _, _, _, _, rfl, ran, does⟩
  | upgrade target isSsl listened =>
    refine .inr ⟨?_, ?_, .inl rfl⟩ <;> simp only [upgrade] <;> split <;> rfl
  | httpRequest path listened =>
    refine .inr ⟨rfl, rfl, .inr ⟨_, _, rfl, fun b mem => ?_⟩⟩
    rw [List.mem_singleton.1 mem]
    rfl
  | complete found done => exact .inr ⟨rfl, rfl, .inl rfl⟩
  | strand idle found ran =>
    refine .inr ⟨rfl, rfl, .inr ⟨_, _, rfl, fun b mem => ?_⟩⟩
    obtain ⟨call, -, rfl⟩ := List.mem_map.1 mem
    exact ofWsCall_isEntry call
  | work idle running queue =>
    refine .inr ⟨rfl, rfl, .inr ⟨_, _, rfl, fun b mem => ?_⟩⟩
    rw [List.mem_singleton.1 mem]
    rfl

/-- Beginning an operation adds no piece that operations do not begin with. -/
theorem Begins.count (begins : Begins c c') {p : Action → Bool}
    (later : ∀ b : Action, b.isEntry = true → p b = false) : c'.count p = c.count p := by
  unfold Tasks.count
  rcases begins.tasks with same | ⟨o, todo, same, entries⟩
  · rw [same]
  · have none : todo.countP p = 0 := by
      rw [List.countP_eq_zero]
      intro b mem
      rw [later b (entries b mem)]
      exact Bool.false_ne_true
    rw [same]
    simp [none]

/-- Such a piece is in an operation that was there before. -/
theorem Begins.mem (begins : Begins c c') {j : Nat} {t : Task Owner Action} {b : Action}
    (later : b.isEntry = false) (found : c'.tasks[j]? = some t) (mem : b ∈ t.todo) : c.tasks[j]? = some t := by
  rcases begins.tasks with same | ⟨o, todo, same, entries⟩
  · rw [← same]
    exact found
  · rw [same, List.getElem?_append] at found
    split at found
    · exact found
    · have last := List.mem_of_getElem? found
      rw [List.mem_singleton] at last
      subst last
      exact absurd (entries b mem) (by rw [later]; exact Bool.false_ne_true)

/-- An operation stays as it is until a piece of it is performed. -/
theorem step_task_kept {t : Lib.Task Owner Action} (step : Server.step c l = some c') (task : c.tasks[i]? = some t)
    (other : ∀ throws, l ≠ .run i throws) : c'.tasks[i]? = some t := by
  obtain ⟨j, throws, o, a, rest, outs, rfl, ran, -⟩ | begins := step_ran_or_begins step
  · have apart : j ≠ i := fun same => other throws (by rw [same])
    rw [ran.lookup, if_neg apart, task]
  · obtain same | ⟨o, todo, same, -⟩ := begins.tasks
    · rw [same, task]
    · rw [same, List.getElem?_append_left (List.getElem?_eq_some_iff.1 task).1, task]

/-- The owners that run one operation at a time. -/
def Owner.serial : Owner → Prop
  | .strand _ => True
  | .worker => True
  | .user => False
  | .http => False

theorem step_exclusive (step : Server.step c l = some c') (exclusive : c.Exclusive Owner.serial) :
    c'.Exclusive Owner.serial := by
  cases step_steps step with
  | api call => exact exclusive.spawn _ False.elim
  | run ran does => exact ran.exclusive exclusive
  | upgrade target isSsl listened => exact exclusive
  | httpRequest path listened => exact exclusive.spawn _ False.elim
  | complete found done => exact exclusive
  | @strand k t t' calls idle found ran =>
    have same : Tasks.Exclusive { c with shared := c.shared.setSession k t' } Owner.serial := exclusive
    exact same.spawn _ fun _ => idle
  | @work cbs notice rest idle running queue =>
    have same : Tasks.Exclusive { c with shared := c.shared.setQueue { c.shared.mWorkQueue with mQueue := rest } }
      Owner.serial := exclusive
    exact same.spawn _ fun _ => idle

/-- **A strand and the worker run one operation at a time**, in every run. -/
theorem run_exclusive {allowedUris : Option (List Bytes)} {maxSessionBacklog : Nat} {ls : List Label}
    (run : system.exec (create allowedUris maxSessionBacklog) ls = some c) : c.Exclusive Owner.serial := by
  refine System.invariant (fun c => c.Exclusive Owner.serial) ?_ (fun _ _ _ holds step => step_exclusive step holds) run
  intro j k t u found
  cases found

end Server

end Websockets
