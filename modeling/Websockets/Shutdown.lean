import Websockets.Lib.Stop
import Websockets.WorkThread
import Websockets.Client.Trace
import Websockets.Client.Current
import Websockets.Server.Order

/-!
# No callback after `Shutdown`

The `Shutdown` that finds `mShutdown` unset stops the work queue and, outside the worker, waits for it. There
is only one such call, so its `Stop` is the one that sets `mStopped`; once it has returned the worker has
nothing to do and gets nothing more.
-/

namespace Websockets

open Lib

namespace Client

def Action.stopsQueue : Action → Bool
  | stopQueue _ => true
  | _ => false

/-- The worker of the client and how `Shutdown` stops it. -/
def stoppable : Stoppable Client Owner Action where
  worker := .worker
  down s := s.mShutdown
  stopped s := s.mWorkQueue.mStopped
  stops := Action.stopsQueue
  stop := .stopQueue false
  wait := .joinWorker
  stops_stop := rfl

variable {c c' : Running} {s s' : Client} {i : Nat} {a : Action} {outs : List Action} {l : Label} {flag : Bool}

/-- **What `exec` does about the stop.** -/
theorem exec_stops (done : exec flag c i a = some (s', outs)) : stoppable.Stops c.shared a s' outs := by
  cases a with
  | connect host port resource =>
    refine Tasks.of_result done ?_
    simp only [connect]
    split
    · exact .keeps rfl rfl rfl List.countP_nil
    · exact .keeps rfl rfl rfl rfl
  | asyncConnect host port resource =>
    refine Tasks.of_result done ?_
    simp only [asyncConnect]
    split
    · exact .keeps rfl rfl rfl List.countP_nil
    · exact .keeps rfl rfl rfl (stoppable.none_one rfl)
  | doConnect host port resource promise => exact Tasks.of_result done (.keeps rfl rfl rfl (stoppable.none_one rfl))
  | installSession args =>
    refine Tasks.of_result done (.keeps rfl ?_ ?_ (stoppable.none_one rfl))
    · exact (installSession_fields args).2.1
    · simp only [stoppable, installSession]
      split <;> rfl
  | awaitConnect promise =>
    obtain ⟨r, waited, same⟩ := Option.map_eq_some_iff.1 done
    cases same
    unfold awaitConnect at waited
    split at waited
    · cases waited
      exact .keeps rfl rfl rfl List.countP_nil
    · split at waited
      · cases waited
        exact .keeps rfl rfl rfl List.countP_nil
      · cases waited
  | close => exact Tasks.of_result done (.keeps rfl rfl rfl (stoppable.none_map (fun _ => rfl) _))
  | send message =>
    refine Tasks.of_result done ?_
    simp only [send]
    split <;> exact .keeps rfl rfl rfl (stoppable.none_one rfl)
  | sendIfOpen k message =>
    refine Tasks.of_result done ?_
    simp only [sendIfOpen]
    split
    · exact .keeps rfl rfl rfl List.countP_nil
    · exact .keeps rfl rfl rfl (stoppable.none_one rfl)
  | onConnectComplete k handler success =>
    refine Tasks.of_result done (.keeps rfl rfl rfl ?_)
    have promises := stoppable.none_map (f := (Action.setPromise · success)) (fun _ => rfl) handler.promise.toList
    rw [onConnectComplete, List.countP_append, promises]
    cases success <;> rfl
  | resetSession k =>
    refine Tasks.of_result done ?_
    simp only [resetSession]
    split <;> exact .keeps rfl rfl rfl List.countP_nil
  | notifyConnected k => exact Tasks.of_result done (.keeps rfl rfl rfl (stoppable.none_map (fun _ => rfl) _))
  | onSessionMessage k message => exact Tasks.of_result done (.keeps rfl rfl rfl (stoppable.none_map (fun _ => rfl) _))
  | onSessionContent k content => exact Tasks.of_result done (.keeps rfl rfl rfl (stoppable.none_map (fun _ => rfl) _))
  | onSessionDisconnect k => exact Tasks.of_result done (.keeps rfl rfl rfl (stoppable.none_map (fun _ => rfl) _))
  | post k cb notice =>
    refine Tasks.of_result done (.keeps rfl rfl ?_ List.countP_nil)
    simp only [stoppable, Client.post, record, setQueue, CWorkQueue.post]
    split <;> rfl
  | invokeCallback k cb notice =>
    refine Tasks.of_result done (.keeps rfl rfl rfl ?_)
    simp only [stoppable, invokeCallback]
    split
    · exact stoppable.none_one rfl
    · exact List.countP_nil
  | shutdown onWorker =>
    refine Tasks.of_result done ?_
    simp only [shutdown]
    split
    · exact .keeps rfl rfl rfl List.countP_nil
    · next up => exact .shuts rfl (by simpa [stoppable] using up) rfl rfl (Nat.le_refl 1)
  | takeSession => exact Tasks.of_result done (.keeps rfl rfl rfl (stoppable.none_map (fun _ => rfl) _))
  | stopQueue onWorker =>
    refine Tasks.of_result done ?_
    simp only [stopQueue]
    split
    · next already => exact .again already rfl already List.countP_nil
    · next running =>
      refine .sets rfl (by simpa [stoppable] using running) rfl rfl ?_ fun same => ?_
      · cases onWorker <;> rfl
      · cases same
        exact List.mem_cons_self
  | joinWorker =>
    simp only [exec] at done
    split at done
    · exact Tasks.of_result done (.keeps rfl rfl rfl List.countP_nil)
    · cases done
  | _ => exact Tasks.of_result done (.keeps rfl rfl rfl List.countP_nil)

theorem step_stoppable (step : step c l = some c') : stoppable.Step c c' := by
  cases l with
  | run i flag =>
    obtain ⟨o, a, rest, outs, ran⟩ := Tasks.run_inv step
    refine .ran ran (exec_stops ran.action) fun same => ?_
    obtain rfl : a = .joinWorker := same
    have action := ran.action
    simp only [exec] at action
    split at action
    · next idle => exact idle
    · cases action
  | api call =>
    cases step
    refine .begins rfl rfl rfl ?_ (fun h => by cases h)
    cases call with
    | sendContent content => cases content <;> rfl
    | _ => rfl
  | complete k i ec frame =>
    cases step_steps step with
    | complete found done => exact .changes rfl rfl rfl
  | strand k sni =>
    cases step_steps step with
    | strand idle found front ran =>
      refine .begins rfl rfl rfl (stoppable.none_map (fun call => ?_) _) (fun h => by cases h)
      cases call <;> rfl
  | work =>
    cases step_steps step with
    | work idle running queue => exact .begins rfl rfl rfl (stoppable.none_one rfl) fun _ => running

/-- A silenced worker delivers nothing. -/
theorem step_silenced (step : step c l = some c') (del : Delivered c) (sil : stoppable.Silenced c) :
    deliveries c'.shared.log = deliveries c.shared.log := by
  cases step_steps step with
  | api call asides => rfl
  | run ran does =>
    obtain ⟨-, ⟨-, same, -⟩ | ⟨k, cb, notice, rfl, after⟩ | ⟨k, cb, notice, rfl, after⟩⟩ := does.line
    · exact same
    · rw [after]
      exact (deliveries_append).trans (List.append_nil _)
    · -- the worker is idle
      have owner := del.worker _ _ _ ran.at_head (fun h => by cases h)
      subst owner
      exact absurd ran.at_head (Tasks.not_at_of_idle sil.idle)
  | complete found done => rfl
  | strand idle found front ran =>
    refine (deliveries_append).trans ?_
    rw [(handler_events _ _ _).1]
    exact List.append_nil _
  | work idle running queue => exact absurd (sil.stopped.symm.trans running) (by decide)

/-- What holds in every state of a run. -/
structure Stoppably (c : Running) : Prop where
  delivered : Delivered c
  once : stoppable.Once c

theorem create_stoppably (sslContext : Bool) (handshakeTimeoutS : Nat) :
    Stoppably (create sslContext handshakeTimeoutS) where
  delivered := (create_traced sslContext handshakeTimeoutS).delivered
  once := Nat.le_refl 0

theorem step_stoppably (step : step c l = some c') (inv : Stoppably c) : Stoppably c' :=
  ⟨step_delivered step inv.delivered, (step_stoppable step).once inv.once⟩

/-- The first `Shutdown` begins to stop the queue. -/
theorem shutdown_stopping {o : Owner} {rest : List Action}
    (head : c.tasks[i]? = some ⟨o, .shutdown false :: rest⟩) (up : c.shared.mShutdown = false)
    (step : step c (.run i flag) = some c') : stoppable.Stopping c' i := by
  obtain ⟨o', a, rest', outs, ran⟩ := Tasks.run_inv step
  cases head.symm.trans ran.task
  have action := ran.action
  simp only [exec, shutdown, up, Bool.false_eq_true, if_false] at action
  obtain ⟨-, rfl⟩ := Prod.mk.inj (Option.some.inj action)
  exact .toStop (ran.at_new (List.mem_cons_of_mem _ List.mem_cons_self))

/-- The first `Shutdown` outside the worker was called in a state `c` of a run and has returned in `c'`. -/
structure ShutDown (sslContext : Bool) (handshakeTimeoutS : Nat) (c' : Running) : Prop where
  called : ∃ ls c i o rest flag ls', system.exec (create sslContext handshakeTimeoutS) ls = some c ∧
    c.tasks[i]? = some ⟨o, .shutdown false :: rest⟩ ∧ c.shared.mShutdown = false ∧
    system.exec c (.run i flag :: ls') = some c' ∧ c'.finished i

/-- Once it has returned, nothing is delivered in any continuation of the run. -/
theorem shutdown_silences {sslContext : Bool} {handshakeTimeoutS : Nat} {ls : List Label}
    (down : ShutDown sslContext handshakeTimeoutS c) (run : system.exec c ls = some c') :
    c'.idle .worker = true ∧ deliveries c'.shared.log = deliveries c.shared.log := by
  obtain ⟨before, c₀, i, o, rest, flag, ls', start, head, up, called, returned⟩ := down.called
  have inv₀ : Stoppably c₀ := System.invariant Stoppably (create_stoppably sslContext handshakeTimeoutS)
    (fun _ _ _ inv step => step_stoppably step inv) start
  obtain ⟨c₁, first, later⟩ := System.exec_cons_inv called
  replace first : step c₀ (.run i flag) = some c₁ := first
  -- the operation stops the queue and waits
  have stopping : Stoppably c ∧ stoppable.Stopping c i :=
    System.invariant (fun c => Stoppably c ∧ stoppable.Stopping c i)
      ⟨step_stoppably first inv₀, shutdown_stopping head up first⟩
      (fun _ _ _ inv step => ⟨step_stoppably step inv.1, (step_stoppable step).stopping inv.1.once inv.2⟩) later
  have silenced := stopping.2.of_finished returned
  have quiet : Stoppably c' ∧ stoppable.Silenced c' ∧ deliveries c'.shared.log = deliveries c.shared.log :=
    System.invariant (fun d => Stoppably d ∧ stoppable.Silenced d ∧ deliveries d.shared.log = deliveries c.shared.log)
      ⟨stopping.1, silenced, rfl⟩
      (fun _ _ _ inv step => ⟨step_stoppably step inv.1, (step_stoppable step).silenced inv.2.1,
        (step_silenced step inv.1.delivered inv.2.1).trans inv.2.2⟩) run
  exact ⟨quiet.2.1.idle, quiet.2.2⟩

end Client

namespace Server

def stopsQueue : Action → Bool
  | .stopQueue _ => true
  | _ => false

/-- The worker of the server and how `Shutdown` stops it. -/
def stoppable : Stoppable Server Owner Action where
  worker := .worker
  down s := s.impl.mShutdown
  stopped s := s.mWorkQueue.mStopped
  stops := stopsQueue
  stop := .stopQueue false
  wait := .joinWorker
  stops_stop := rfl

variable {c c' : Running} {s s' : Server} {i : Nat} {a : Action} {outs : List Action} {l : Label} {throws : Bool}

/-- **What `exec` does about the stop.** -/
theorem exec_stops (done : exec throws c i a = some (s', outs)) : stoppable.Stops c.shared a s' outs := by
  cases a with
  | start port clientCbs =>
    refine Tasks.of_result done (.keeps rfl rfl rfl ?_)
    simp only
    split
    · exact List.countP_nil
    · exact stoppable.none_one rfl
  | startLocked port clientCbs =>
    refine Tasks.of_result done ?_
    simp only [startLocked, CImpl.startLocked]
    split
    · exact .keeps rfl rfl rfl List.countP_nil
    · next impl done =>
      split at done
      · cases done
      · cases done
        exact .keeps rfl rfl rfl List.countP_nil
  | stop =>
    refine Tasks.of_result done (.keeps rfl rfl rfl ?_)
    rw [stop_outs, List.countP_append, stoppable.none_map (fun _ => rfl), stoppable.none_map (fun _ => rfl)]
  | removeClient clientId =>
    refine Tasks.of_result done ?_
    simp only [removeClient, CImpl.removeClientLocked]
    split
    · exact .keeps rfl rfl rfl List.countP_nil
    · next impl entry done =>
      split at done
      · cases done
      · cases done
        exact .keeps rfl (CImpl.eraseClient_flags _ _).1 rfl rfl
  | broadcast uri payload => exact Tasks.of_result done (.keeps rfl rfl rfl (stoppable.none_map (fun _ => rfl) _))
  | anyClients uri payload =>
    refine Tasks.of_result done (.keeps rfl rfl rfl ?_)
    simp only
    split
    · exact stoppable.none_one rfl
    · exact List.countP_nil
  | sendToClient clientId payload =>
    refine Tasks.of_result done (.keeps rfl rfl rfl ?_)
    simp only [sendToClient]
    split <;> exact stoppable.none_one rfl
  | registerWsClient k target isSsl =>
    refine Tasks.of_result done ?_
    simp only [registerWsClient, CImpl.registerWsClientLocked]
    split
    · exact .keeps rfl rfl rfl (stoppable.none_one rfl)
    · next impl r done =>
      split at done
      · cases done
      · cases done
        exact .keeps rfl rfl rfl rfl
  | onWsClosed clientId =>
    refine Tasks.of_result done ?_
    simp only [onWsClosed, CImpl.onWsClosedLocked]
    split
    · exact .keeps rfl rfl rfl List.countP_nil
    · next impl closing done =>
      split at done
      · cases done
      · cases done
        exact .keeps rfl (CImpl.eraseClient_flags _ _).1 rfl rfl
  | findHttpHandler clientId path =>
    refine Tasks.of_result done (.keeps rfl rfl rfl ?_)
    simp only [findHttpHandler]
    split
    · exact List.countP_nil
    · exact stoppable.none_one rfl
  | postCallback cbs notice =>
    refine Tasks.of_result done (.keeps rfl rfl ?_ List.countP_nil)
    simp only [stoppable, postCallback, record, setQueue, CWorkQueue.post]
    split
    · rfl
    · split <;> rfl
  | invoke cb notice =>
    refine Tasks.of_result done ?_
    cases cb with
    | none => exact .keeps rfl rfl rfl List.countP_nil
    | some fn =>
      refine .keeps rfl rfl rfl ?_
      simp only [invoke]
      split
      · exact stoppable.none_one rfl
      · exact List.countP_nil
  | call cbs notice =>
    refine Tasks.of_result done ?_
    cases cbs with
    | nil => exact .keeps rfl rfl rfl List.countP_nil
    | cons fn rest =>
      refine .keeps rfl rfl rfl ?_
      simp only [call]
      split <;> exact stoppable.none_one rfl
  | shutdown onWorker =>
    refine Tasks.of_result done ?_
    simp only [shutdown]
    split
    · exact .keeps rfl rfl rfl List.countP_nil
    · next up => exact .shuts rfl (by simpa [stoppable] using up) rfl rfl (Nat.le_refl 1)
  | stopQueue onWorker =>
    refine Tasks.of_result done ?_
    simp only [stopQueue]
    split
    · next already => exact .again already rfl already List.countP_nil
    · next running =>
      refine .sets rfl (by simpa [stoppable] using running) rfl rfl ?_ fun same => ?_
      · cases onWorker <;> rfl
      · cases same
        exact List.mem_cons_self
  | joinWorker =>
    simp only [exec] at done
    split at done
    · exact Tasks.of_result done (.keeps rfl rfl rfl List.countP_nil)
    · cases done
  | _ => exact Tasks.of_result done (.keeps rfl rfl rfl rfl)

theorem step_stoppable (step : step c l = some c') : stoppable.Step c c' := by
  cases l with
  | run i throws =>
    obtain ⟨o, a, rest, outs, ran⟩ := Tasks.run_inv step
    refine .ran ran (exec_stops ran.action) fun same => ?_
    obtain rfl : a = .joinWorker := same
    have action := ran.action
    simp only [exec] at action
    split at action
    · next idle => exact idle
    · cases action
  | api call =>
    cases step
    refine .begins rfl rfl rfl (stoppable.none_one ?_) (fun h => by cases h)
    cases call <;> rfl
  | upgrade target isSsl =>
    cases step_steps step with
    | upgrade target isSsl listened =>
      refine .changes rfl ?_ ?_
      all_goals
        simp only [stoppable, upgrade]
        split <;> rfl
  | httpRequest path =>
    cases step_steps step with
    | httpRequest path listened => exact .begins rfl rfl rfl (stoppable.none_one rfl) (fun h => by cases h)
  | complete k i ec frame =>
    cases step_steps step with
    | complete found done => exact .changes rfl rfl rfl
  | strand k =>
    cases step_steps step with
    | strand idle found ran =>
      refine .begins rfl rfl rfl (stoppable.none_map (fun call => ?_) _) (fun h => by cases h)
      cases call <;> rfl
  | work =>
    cases step_steps step with
    | work idle running queue => exact .begins rfl rfl rfl (stoppable.none_one rfl) fun _ => running

/-- Only the worker calls what was posted. -/
def Called (c : Running) : Prop := ∀ j o cbs notice, c.At j o (.call cbs notice) → o = .worker

theorem Called.spawn {o : Owner} {todo : List Action} (inv : Called c) (none : ∀ b ∈ todo, called b = none) :
    Called (c.spawn o todo) := by
  intro j q cbs notice here
  rcases Tasks.at_spawn.1 here with old | ⟨-, -, mem⟩
  · exact inv j q cbs notice old
  · cases none _ mem

theorem step_called (step : step c l = some c') (inv : Called c) : Called c' := by
  have one : ∀ {b d : Action}, called d = none → b ∈ [d] → called b = none := fun plain mem => by
    rw [List.mem_singleton.1 mem]
    exact plain
  cases step_steps step with
  | run ran does =>
    intro j q cbs notice here
    rcases ran.at_inv here with old | ⟨-, rfl, mem⟩
    · exact inv j q cbs notice old
    · obtain ⟨cbs', notice', rfl⟩ := eq_call_of_called (does.lines.called_inv mem nofun)
      exact inv _ _ _ _ ran.at_head
  | api call => exact inv.spawn fun b => one (by cases call <;> rfl)
  | httpRequest path listened => exact inv.spawn fun b => one rfl
  | upgrade target isSsl listened => exact inv
  | complete found done => exact inv
  | strand idle found ran =>
    refine Called.spawn (c := { c with shared := _ }) inv fun b mem => ?_
    obtain ⟨call, -, rfl⟩ := List.mem_map.1 mem
    exact called_ofWsCall call
  | work idle running queue =>
    intro j q cbs notice here
    rcases Tasks.at_spawn.1 here with old | ⟨-, owner, -⟩
    · exact inv j q cbs notice old
    · exact owner

/-- A silenced worker delivers nothing. -/
theorem step_silenced (step : step c l = some c') (inv : Called c) (sil : stoppable.Silenced c) :
    delivered c'.shared.log = delivered c.shared.log := by
  rcases step_ran_or_begins step with ⟨i, throws, o, a, rest, outs, rfl, ran, does⟩ | begins
  · cases does.lines with
    | same unseen none log queue => exact log
    | joins cbs notice piece none log queue => exact log
    | dropped unseen none log queue => exact log
    | calls notice piece log left queue =>
      -- the worker is idle
      cases a with
      | call cbs notice' =>
        have owner := inv _ _ _ _ ran.at_head
        subst owner
        exact absurd ran.at_head (Tasks.not_at_of_idle sil.idle)
      | _ => cases piece
    | returns notice piece none log queue => exact log
  · rw [begins.log]

/-- What holds in every state of a run. -/
structure Stoppably (c : Running) : Prop where
  called : Called c
  once : stoppable.Once c

theorem create_stoppably (allowedUris : Option (List Bytes)) (maxSessionBacklog : Nat) :
    Stoppably (create allowedUris maxSessionBacklog) where
  called := by
    rintro j o cbs notice ⟨t, found, -, -⟩
    cases found
  once := Nat.le_refl 0

theorem step_stoppably (step : step c l = some c') (inv : Stoppably c) : Stoppably c' :=
  ⟨step_called step inv.called, (step_stoppable step).once inv.once⟩

/-- The first `Shutdown` begins to stop the queue. -/
theorem shutdown_stopping {o : Owner} {rest : List Action}
    (head : c.tasks[i]? = some ⟨o, .shutdown false :: rest⟩) (up : c.shared.impl.mShutdown = false)
    (step : step c (.run i throws) = some c') : stoppable.Stopping c' i := by
  obtain ⟨o', a, rest', outs, ran⟩ := Tasks.run_inv step
  cases head.symm.trans ran.task
  have action := ran.action
  simp only [exec, shutdown, up, Bool.false_eq_true, if_false] at action
  obtain ⟨-, rfl⟩ := Prod.mk.inj (Option.some.inj action)
  exact .toStop (ran.at_new (List.mem_cons_of_mem _ List.mem_cons_self))

/-- The first `Shutdown` outside the worker was called in a state of a run and has returned in `c'`. -/
structure ShutDown (allowedUris : Option (List Bytes)) (maxSessionBacklog : Nat) (c' : Running) : Prop where
  called : ∃ ls c i o rest throws ls', system.exec (create allowedUris maxSessionBacklog) ls = some c ∧
    c.tasks[i]? = some ⟨o, .shutdown false :: rest⟩ ∧ c.shared.impl.mShutdown = false ∧
    system.exec c (.run i throws :: ls') = some c' ∧ c'.finished i

/-- Once it has returned, nothing is delivered in any continuation of the run. -/
theorem shutdown_silences {allowedUris : Option (List Bytes)} {maxSessionBacklog : Nat} {ls : List Label}
    (down : ShutDown allowedUris maxSessionBacklog c) (run : system.exec c ls = some c') :
    c'.idle .worker = true ∧ delivered c'.shared.log = delivered c.shared.log := by
  obtain ⟨before, c₀, i, o, rest, throws, ls', start, head, up, called, returned⟩ := down.called
  have inv₀ : Stoppably c₀ := System.invariant Stoppably (create_stoppably allowedUris maxSessionBacklog)
    (fun _ _ _ inv step => step_stoppably step inv) start
  obtain ⟨c₁, first, later⟩ := System.exec_cons_inv called
  replace first : step c₀ (.run i throws) = some c₁ := first
  -- the operation stops the queue and waits
  have stopping : Stoppably c ∧ stoppable.Stopping c i :=
    System.invariant (fun c => Stoppably c ∧ stoppable.Stopping c i)
      ⟨step_stoppably first inv₀, shutdown_stopping head up first⟩
      (fun _ _ _ inv step => ⟨step_stoppably step inv.1, (step_stoppable step).stopping inv.1.once inv.2⟩) later
  have silenced := stopping.2.of_finished returned
  have quiet : Stoppably c' ∧ stoppable.Silenced c' ∧ delivered c'.shared.log = delivered c.shared.log :=
    System.invariant (fun d => Stoppably d ∧ stoppable.Silenced d ∧ delivered d.shared.log = delivered c.shared.log)
      ⟨stopping.1, silenced, rfl⟩
      (fun _ _ _ inv step => ⟨step_stoppably step inv.1, (step_stoppable step).silenced inv.2.1,
        (step_silenced step inv.1.called inv.2.1).trans inv.2.2⟩) run
  exact ⟨quiet.2.1.idle, quiet.2.2⟩

end Server

/-- **The work queue.** In every run of a queue with its worker: the functions started are a prefix of those
accepted; at most one is executing; after a `Stop` every `Post` is discarded; once the `Stop` that set `mStopped`
has returned outside the worker no function is executing and none is started. So once the first `Shutdown` of a
client or a server has returned outside the worker, the worker is idle and no posted callback is invoked in any
continuation of the run. -/
theorem work_queue :
    (∀ (F : Type) (ls : List (WorkThread.Label F)) (c : WorkThread F), (WorkThread.system F).exec {} ls = some c →
      WorkThread.Reliable c) ∧
    (∀ (sslContext : Bool) (handshakeTimeoutS : Nat) (c c' : Client.Running) (ls : List Client.Label),
      Client.ShutDown sslContext handshakeTimeoutS c → Client.system.exec c ls = some c' →
      c'.idle .worker = true ∧ Client.deliveries c'.shared.log = Client.deliveries c.shared.log) ∧
    ∀ (allowedUris : Option (List Bytes)) (maxSessionBacklog : Nat) (c c' : Running) (ls : List Server.Label),
      Server.ShutDown allowedUris maxSessionBacklog c → Server.system.exec c ls = some c' →
      c'.idle .worker = true ∧ Server.delivered c'.shared.log = Server.delivered c.shared.log :=
  ⟨fun _ _ _ run => WorkThread.run_reliable run, fun _ _ _ _ _ down run => Client.shutdown_silences down run,
    fun _ _ _ _ _ down run => Server.shutdown_silences down run⟩

/-- A function is executing when `Stop` is called, another one is queued, and a third is posted too late. -/
def stopsWhileExecuting : List (WorkThread.Label Nat) :=
  [.start, .post 1, .post 2, .take, .call, .stop false, .post 3, .finish, .take, .leave]

theorem stopsWhileExecuting_runs : ((WorkThread.system Nat).exec {} stopsWhileExecuting).isSome = true := by decide

/-- There only the first one ran. -/
theorem work_queue_stopsWhileExecuting :
    ∃ c, (WorkThread.system Nat).exec {} stopsWhileExecuting = some c ∧ WorkThread.accepted c.log = [1, 2] ∧
      WorkThread.started c.log = [1] ∧ .returned false ∈ c.log ∧ WorkThread.Reliable c :=
  ⟨_, Lib.System.exec_get stopsWhileExecuting_runs, by decide, by decide, by decide,
    work_queue.1 Nat stopsWhileExecuting _ (Lib.System.exec_get stopsWhileExecuting_runs)⟩

end Websockets
