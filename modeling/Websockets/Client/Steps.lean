import Websockets.Client.System

/-!
# What a step of the client can do

`Does` says once what each atomic piece of an operation does to the client and what it leaves to do,
`Steps` what each label does. A piece `announces` something about a session if a callback is still to
be posted because of it; the pieces that neither announce nor start a session are `aside`.
-/

namespace Websockets

open Lib

namespace Client

/-- What is still to be posted because of a piece, and for which session. -/
def Action.announces : Action → Option (Nat × Notice)
  | onConnectComplete k _ true | notifyConnected k => some (k, .connect)
  | onConnectComplete k _ false | onSessionDisconnect k => some (k, .disconnect)
  | onSessionMessage k message => some (k, .message message)
  | onSessionContent k content => some (k, .content content)
  | post k _ notice => some (k, notice)
  | _ => none

/-- Pieces that neither announce, nor call back, nor start a session. -/
def Action.isAside : Action → Bool
  | installSession _ | sessionAsyncConnect _ _ | invokeCallback _ _ _ => false
  | a => a.announces.isNone

/-- Events that are not about a session. -/
def Event.isAside : Event → Bool
  | returned _ _ | logged _ => true
  | _ => false

/-- All four callbacks are set. -/
def registered (s : Client) : Bool :=
  s.mOnConnect.isSome && s.mOnDisconnect.isSome && s.mOnMessage.isSome && s.mOnContent.isSome

/-- The sessions and the queue stay, and nothing happens to a session. -/
structure Spares (s s' : Client) : Prop where
  sessions : s'.sessions = s.sessions
  queue : s'.mWorkQueue = s.mWorkQueue
  log : ∃ new, s'.log = s.log ++ new ∧ ∀ e ∈ new, Event.isAside e = true

/-- What one atomic piece of an operation does to the client, and what it puts before the rest. -/
inductive Does (s : Client) : Action → Client → List Action → Prop
  | aside {a s' outs} (aside : a.isAside = true) (spares : Spares s s')
      (asides : ∀ o ∈ outs, Action.isAside o = true) : Does s a s' outs
  | sessionPost {a} (k task) (aside : a.isAside = true) (other : task.isConnect = false) :
      Does s a (s.sessionPost k task) []
  | doConnect (host port resource promise) :
      Does s (.doConnect host port resource promise) s (s.doConnect host port resource promise)
  | installSession (args) : Does s (.installSession args) (s.installSession args).1 (s.installSession args).2
  | sessionAsyncConnect (k args) : Does s (.sessionAsyncConnect k args) (s.sessionAsyncConnect k args) []
  | onConnectComplete (k handler success) :
      Does s (.onConnectComplete k handler success) s (onConnectComplete k handler success)
  | relay {a k notice} (cb) (announces : a.announces = some (k, notice))
      (set : s.registered = true → cb.isSome = true) : Does s a s (relay cb k notice)
  | post (k cb notice) : Does s (.post k cb notice) (s.post k cb notice) []
  | invokeCallback (k cb notice) {outs} (asides : ∀ o ∈ outs, Action.isAside o = true) :
      Does s (.invokeCallback k cb notice) (s.record [.invoked k cb notice]) outs
  | stopQueue (onWorker) {outs} (asides : ∀ o ∈ outs, Action.isAside o = true) :
      Does s (.stopQueue onWorker) (s.setQueue s.mWorkQueue.stop) outs

variable {c c' : Running} {s s' : Client} {i k : Nat} {a : Action} {outs : List Action} {flag : Bool}
  {l : Label}

/-! ## Pieces -/

theorem registered_iff : s.registered = true ↔ s.mOnConnect.isSome = true ∧ s.mOnDisconnect.isSome = true ∧
    s.mOnMessage.isSome = true ∧ s.mOnContent.isSome = true := by
  simp only [registered, Bool.and_eq_true, and_assoc]

theorem Spares.same (sessions : s'.sessions = s.sessions) (queue : s'.mWorkQueue = s.mWorkQueue)
    (log : s'.log = s.log) : Spares s s' :=
  ⟨sessions, queue, [], by rw [log, List.append_nil], List.forall_mem_nil _⟩

theorem Spares.refl (s : Client) : Spares s s := .same rfl rfl rfl

theorem Spares.record {events : List Event} (asides : ∀ e ∈ events, Event.isAside e = true) :
    Spares s (s.record events) :=
  ⟨rfl, rfl, events, rfl, asides⟩

theorem asides_nil : ∀ o ∈ ([] : List Action), o.isAside = true := List.forall_mem_nil _

theorem asides_one (aside : a.isAside = true) : ∀ o ∈ [a], Action.isAside o = true := by
  intro o mem
  rw [List.mem_singleton.1 mem]
  exact aside

theorem asides_closes (sessions : List Nat) :
    ∀ o ∈ sessions.map Action.sessionClose, o.isAside = true := by
  intro o mem
  obtain ⟨k, -, rfl⟩ := List.mem_map.1 mem
  rfl

theorem connect_does (host : Bytes) (port : Nat) (resource : Bytes) :
    Does s (.connect host port resource) (s.connect host port resource).1 (s.connect host port resource).2 := by
  unfold connect
  split
  · exact .aside rfl (.refl s) asides_nil
  · refine .aside rfl (.same rfl rfl rfl) fun o mem => ?_
    rcases List.mem_cons.1 mem with rfl | mem
    · rfl
    · rw [List.mem_singleton.1 mem]
      rfl

theorem awaitConnect_does {promise : Nat} (done : s.awaitConnect flag promise = some s') :
    Does s (.awaitConnect promise) s' [] := by
  unfold awaitConnect at done
  split at done
  next success set =>
    cases done
    exact .aside rfl (.record fun e mem => by rw [List.mem_singleton.1 mem]; rfl) asides_nil
  next =>
    split at done
    · cases done
      refine .aside rfl (.record fun e mem => ?_) asides_nil
      rcases List.mem_cons.1 mem with rfl | mem
      · rfl
      · rw [List.mem_singleton.1 mem]
        rfl
    · cases done

theorem sendIfOpen_does (k : Nat) (message : SOutgoingMessage) :
    Does s (.sendIfOpen k message) (s.sendIfOpen k message).1 (s.sendIfOpen k message).2 := by
  unfold sendIfOpen
  split
  · exact .sessionPost k (.send message) rfl rfl
  · exact .aside rfl (.refl s) (asides_one rfl)

theorem resetSession_does (k : Nat) : Does s (.resetSession k) (s.resetSession k) [] := by
  unfold resetSession
  split
  · exact .aside rfl (.same rfl rfl rfl) asides_nil
  · exact .aside rfl (.refl s) asides_nil

theorem shutdown_does (onWorker : Bool) :
    Does s (.shutdown onWorker) (s.shutdown onWorker).1 (s.shutdown onWorker).2 := by
  unfold shutdown
  split
  · exact .aside rfl (.refl s) asides_nil
  · refine .aside rfl (.same rfl rfl rfl) fun o mem => ?_
    rcases List.mem_cons.1 mem with rfl | mem
    · rfl
    · rw [List.mem_singleton.1 mem]
      rfl

theorem stopQueue_does (onWorker : Bool) :
    Does s (.stopQueue onWorker) (s.stopQueue onWorker).1 (s.stopQueue onWorker).2 := by
  unfold stopQueue
  split
  · exact .aside rfl (.refl s) asides_nil
  · refine .stopQueue onWorker ?_
    cases onWorker
    · exact asides_one rfl
    · exact asides_nil

/-- **`exec` does what `Does` says.** -/
theorem exec_does (done : exec flag c i a = some (s', outs)) : Does c.shared a s' outs := by
  have set : c.shared.registered = true → _ := registered_iff.1
  cases a with
  | connect host port resource => exact Tasks.of_result done (connect_does host port resource)
  | asyncConnect host port resource =>
    refine Tasks.of_result done (.aside rfl (.refl _) ?_)
    simp only [asyncConnect]
    split
    · exact asides_nil
    · exact asides_one rfl
  | doConnect host port resource promise => exact Tasks.of_result done (.doConnect host port resource promise)
  | installSession args => exact Tasks.of_result done (.installSession args)
  | sessionAsyncConnect k args => exact Tasks.of_result done (.sessionAsyncConnect k args)
  | awaitConnect promise =>
    obtain ⟨r, waited, same⟩ := Option.map_eq_some_iff.1 done
    cases same
    exact awaitConnect_does waited
  | close => exact Tasks.of_result done (.aside rfl (.refl _) (asides_closes _))
  | sessionClose k => exact Tasks.of_result done (.sessionPost k .close rfl rfl)
  | send message =>
    refine Tasks.of_result done (.aside rfl (.refl _) ?_)
    simp only [send]
    split <;> exact asides_one rfl
  | sendIfOpen k message => exact Tasks.of_result done (sendIfOpen_does k message)
  | setHandshakeHeader name value => exact Tasks.of_result done (.aside rfl (.same rfl rfl rfl) asides_nil)
  | clearHandshakeHeaders => exact Tasks.of_result done (.aside rfl (.same rfl rfl rfl) asides_nil)
  | registerConnectCallback cb => exact Tasks.of_result done (.aside rfl (.same rfl rfl rfl) asides_nil)
  | registerDisconnectCallback cb => exact Tasks.of_result done (.aside rfl (.same rfl rfl rfl) asides_nil)
  | registerMessageCallback cb => exact Tasks.of_result done (.aside rfl (.same rfl rfl rfl) asides_nil)
  | registerContentCallback cb => exact Tasks.of_result done (.aside rfl (.same rfl rfl rfl) asides_nil)
  | onConnectComplete k handler success => exact Tasks.of_result done (.onConnectComplete k handler success)
  | resetSession k => exact Tasks.of_result done (resetSession_does k)
  | setPromise promise success => exact Tasks.of_result done (.aside rfl (.same rfl rfl rfl) asides_nil)
  | notifyConnected k => exact Tasks.of_result done (.relay _ rfl fun h => (set h).1)
  | onSessionMessage k message => exact Tasks.of_result done (.relay _ rfl fun h => (set h).2.2.1)
  | onSessionContent k content => exact Tasks.of_result done (.relay _ rfl fun h => (set h).2.2.2)
  | onSessionDisconnect k => exact Tasks.of_result done (.relay _ rfl fun h => (set h).2.1)
  | post k cb notice => exact Tasks.of_result done (.post k cb notice)
  | invokeCallback k cb notice =>
    refine Tasks.of_result done (.invokeCallback k cb notice ?_)
    cases flag
    · exact asides_nil
    · exact asides_one rfl
  | shutdown onWorker => exact Tasks.of_result done (shutdown_does onWorker)
  | takeSession => exact Tasks.of_result done (.aside rfl (.same rfl rfl rfl) (asides_closes _))
  | stopQueue onWorker => exact Tasks.of_result done (stopQueue_does onWorker)
  | joinWorker =>
    simp only [exec] at done
    split at done
    · exact Tasks.of_result done (.aside rfl (.refl _) asides_nil)
    · cases done
  | logError line =>
    exact Tasks.of_result done (.aside rfl (.record fun e mem => by rw [List.mem_singleton.1 mem]; rfl) asides_nil)

/-! ## What a piece announces -/

theorem announces_aside (aside : a.isAside = true) : a.announces = none := by
  have none : a.announces.isNone = true ∨ a.isAside = false := by
    cases a with
    | installSession args => exact .inr rfl
    | sessionAsyncConnect k args => exact .inr rfl
    | invokeCallback k cb notice => exact .inr rfl
    | _ => exact .inl aside
  exact Option.isNone_iff_eq_none.1 (none.resolve_right (by rw [aside]; decide))

theorem announces_asides (asides : ∀ o ∈ outs, o.isAside = true) : outs.filterMap Action.announces = [] :=
  Tasks.filterMap_eq_nil_of fun o mem => announces_aside (asides o mem)

theorem onConnectComplete_announces (j : Nat) (handler : OnComplete) (success : Bool) :
    (onConnectComplete j handler success).filterMap Action.announces =
      (Action.onConnectComplete j handler success).announces.toList := by
  have none : (handler.promise.toList.map (Action.setPromise · success)).filterMap Action.announces = [] := by
    refine announces_asides fun o mem => ?_
    obtain ⟨promise, -, rfl⟩ := List.mem_map.1 mem
    rfl
  rw [onConnectComplete, List.filterMap_append, none, List.append_nil]
  cases success <;> rfl

/-- A piece only passes on what it announces. -/
theorem Does.passes (does : Does s a s' outs) {b : Action} {x : Nat × Notice} (mem : b ∈ outs)
    (announces : b.announces = some x) : a.announces = some x := by
  have asides : b.isAside = true → a.announces = some x := by
    intro aside
    rw [announces_aside aside] at announces
    cases announces
  cases does with
  | aside aside spares all => exact asides (all b mem)
  | sessionPost j task aside other => cases mem
  | doConnect host port resource promise =>
    cases List.mem_singleton.1 mem
    cases announces
  | installSession args =>
    cases List.mem_singleton.1 mem
    cases announces
  | sessionAsyncConnect j args => cases mem
  | onConnectComplete j handler success =>
    have here : x ∈ (Client.onConnectComplete j handler success).filterMap Action.announces :=
      List.mem_filterMap.2 ⟨b, mem, announces⟩
    rw [onConnectComplete_announces] at here
    exact Option.mem_toList.1 here
  | relay cb same set =>
    obtain ⟨fn, -, rfl⟩ := List.mem_map.1 mem
    exact same.trans announces
  | post j cb notice => cases mem
  | invokeCallback j cb notice all => exact asides (all b mem)
  | stopQueue onWorker all => exact asides (all b mem)

theorem installSession_log (args : ConnectArgs) : (s.installSession args).1.log = s.log := by
  simp only [installSession]
  split <;> rfl

/-! ## Labels -/

/-- What each label does. -/
inductive Steps (c : Running) : Label → Running → Prop
  | api (call : Api) (asides : ∀ o ∈ call.actions, Action.isAside o = true) :
      Steps c (.api call) (c.spawn .user call.actions)
  | run {i flag c' o a rest outs} (ran : Tasks.Ran (exec flag) c i c' o a rest outs)
      (does : Does c.shared a c'.shared outs) : Steps c (.run i flag) c'
  | complete {k i ec frame t ch} (found : c.shared.sessions[k]? = some t)
      (done : t.toChannel.complete i ec frame = some ch) :
      Steps c (.complete k i ec frame) { c with shared := c.shared.setSession k { t with toChannel := ch } }
  | strand {k sni t t' calls h rest} (idle : c.idle (.strand k) = true) (found : c.shared.sessions[k]? = some t)
      (front : t.strand = h :: rest) (ran : t.runNext true sni = some (t', calls)) :
      Steps c (.strand k sni) (Tasks.spawn
        { c with shared := (c.shared.setSession k t').record (.handled k (handled h) :: calls.map (.called k)) }
        (.strand k) (calls.map (ofCall k)))
  | work {posted rest} (idle : c.idle .worker = true) (running : c.shared.mWorkQueue.mStopped = false)
      (queue : c.shared.mWorkQueue.mQueue = posted :: rest) :
      Steps c .work (Tasks.spawn
        { c with shared := c.shared.setQueue { c.shared.mWorkQueue with mQueue := rest } } .worker
        [.invokeCallback posted.session posted.cb posted.notice])

theorem actions_aside (call : Api) : ∀ o ∈ call.actions, o.isAside = true := by
  cases call with
  | sendContent content =>
    cases content with
    | none => exact asides_nil
    | some content => exact asides_one rfl
  | _ => exact asides_one rfl

/-- **`step` does what `Steps` says.** -/
theorem step_steps (step : step c l = some c') : Steps c l c' := by
  cases l with
  | api call => cases step; exact .api call (actions_aside call)
  | run i flag =>
    obtain ⟨o, a, rest, outs, ran⟩ := Tasks.run_inv step
    exact .run ran (exec_does ran.action)
  | complete k i ec frame =>
    simp only [Client.step, completeOp] at step
    split at step
    next => cases step
    next t found =>
      obtain ⟨s, made, rfl⟩ := Option.map_eq_some_iff.1 step
      obtain ⟨ch, done, rfl⟩ := Option.map_eq_some_iff.1 made
      exact .complete found done
  | strand k sni =>
    simp only [Client.step, runStrand] at step
    split at step
    · next idle =>
      split at step
      next => cases step
      next t found =>
        obtain ⟨r, made, rfl⟩ := Option.map_eq_some_iff.1 step
        obtain ⟨⟨t', calls⟩, ran, rfl⟩ := Option.map_eq_some_iff.1 made
        obtain ⟨h, rest, front, -⟩ := CSession.runNext_inv ran
        simp only [front, List.head?_cons]
        exact .strand idle found front ran
    · cases step
  | work =>
    simp only [Client.step, CWorkQueue.next] at step
    split at step
    · next idle =>
      split at step
      next => cases step
      next running =>
        split at step
        next => cases step
        next posted rest queue =>
          cases step
          exact .work idle (by simpa using running) queue
    · cases step

end Client

end Websockets
