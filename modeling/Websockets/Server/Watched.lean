import Websockets.Lib.Wire
import Websockets.Server.Endpoint

/-!
# Whose frames the server's callbacks receive

A function in the work queue does not tell which connection it was posted for, and ids may come round again. A
`Watched` server is the server with this history: whose operation posted each function, and the first callback of
every function the worker has begun, which is the global one where a global one is set. The callback of a uri comes
second and may be skipped. `Inbound` follows the frames of one session from its strand to the global callbacks.
-/

namespace Websockets

open Lib

/-- The frame that a callback is told of. -/
def Notice.frame? : Notice → Option Frame
  | message _ m => some ⟨true, m⟩
  | content _ m => some ⟨false, m⟩
  | _ => none

/-- A posted function, with the owner of the operation that posted it. -/
abbrev Posted := Owner × List Fn × Notice

structure Watched where
  running : Running
  /-- The functions in the work queue. -/
  queue : List Posted := []
  /-- The function that the worker has taken and not begun. -/
  taken : Option Posted := none
  /-- The first callbacks invoked, and for whom. -/
  heard : List (Owner × Fn × Notice) := []

namespace Watched

/-- What a piece of an operation of `o` does to the history. -/
def perform (w : Watched) (o : Owner) : Action → Watched
  | .postCallback cbs notice =>
    if cbs.isEmpty || w.running.shared.mWorkQueue.mStopped then w else { w with queue := w.queue ++ [(o, cbs, notice)] }
  | .call cbs notice =>
    { w with
      taken := none
      heard := w.heard ++ (w.taken.bind fun x => cbs.head?.map fun fn => (x.1, fn, notice)).toList }
  | .stopQueue _ => if w.running.shared.mWorkQueue.mStopped then w else { w with queue := [] }
  | _ => w

/-- The history after a step of the server to `c`. -/
def follow (w : Watched) (c : Running) : Server.Label → Watched
  | .run i _ => match w.running.tasks[i]? with
    | some ⟨o, a :: _⟩ => { w.perform o a with running := c }
    | _ => { w with running := c }
  | .work => { w with running := c, queue := w.queue.tail, taken := w.queue.head? }
  | _ => { w with running := c }

def step (w : Watched) (l : Server.Label) : Option Watched := (Server.step w.running l).map fun c => w.follow c l

def create (allowedUris : Option (List Bytes)) (maxSessionBacklog : Nat) : Watched :=
  { running := Server.create allowedUris maxSessionBacklog }

/-- The global message and content callbacks invoked for session `k`, each with the frame it was told of. -/
def received (w : Watched) (k : Nat) : List (Fn × Frame) :=
  w.heard.filterMap fun x => if x.1 = .strand k then x.2.2.frame?.map (x.2.1, ·) else none

end Watched

namespace Server

/-- The first callback of a function and the frame it is told of. -/
def leading (cbs : List Fn) (notice : Notice) : Option (Fn × Websockets.Frame) :=
  cbs.head?.bind fun fn => notice.frame?.map (fn, ·)

/-- The same for a function posted for session `k`. -/
def leadingFor (k : Nat) (x : Posted) : Option (Fn × Websockets.Frame) :=
  if x.1 = .strand k then leading x.2.1 x.2.2 else none

/-- The function that a piece of the worker begins or goes on with. -/
def calling : Action → Option (List Fn × Notice)
  | .call cbs notice => some (cbs, notice)
  | _ => none

/-- The frame that a piece is about to post, with the callback for it: `f` or `g` if it is still to be looked up. -/
def brings (f g : Fn) : Action → Option (Fn × Websockets.Frame)
  | .onWsMessage _ m => some (invocation f g ⟨true, m⟩)
  | .onWsContent _ m => some (invocation f g ⟨false, m⟩)
  | .postCallback cbs notice => leading cbs notice
  | _ => none

/-- From the time session `k` exists the global message callback is `f` and the global content callback is `g`. -/
def Listens (f g : Fn) (k : Nat) (c : Running) : Prop :=
  c.shared.sessions[k]? = none ∨ c.shared.impl.mClientCbs.mOnClientMessageReceivedCb = some f ∧
    c.shared.impl.mClientCbs.mOnClientContentReceivedCb = some g

instance (f g : Fn) (k : Nat) (c : Running) : Decidable (Listens f g k c) :=
  decidable_of_iff (c.shared.sessions[k]?.isNone = true ∨ c.shared.impl.mClientCbs.mOnClientMessageReceivedCb = some f ∧
    c.shared.impl.mClientCbs.mOnClientContentReceivedCb = some g) (by rw [Option.isNone_iff_eq_none]; rfl)

/-- The history is that of the queue and of the worker. -/
structure Queued (w : Watched) : Prop where
  queue : w.queue.map Prod.snd = w.running.shared.mWorkQueue.mQueue
  worker : ∀ i q b, w.running.At i q b → calling b ≠ none → q = .worker
  single : (w.running.pending calling).length ≤ 1
  taken : ∀ x, w.taken = some x → w.running.pending calling = [x.2]

/-- The way of the frames of session `k` to the callbacks. -/
def toCallbacks (k : Nat) (w : Watched) : Wire (Fn × Websockets.Frame) where
  passed := w.received k
  transit := (w.taken.toList ++ w.queue).filterMap (leadingFor k)
  isCut := w.running.shared.mWorkQueue.mStopped

/-- Every frame handled by session `k` has been posted in its turn, or its strand is about to post it. -/
structure Inbound (f g : Fn) (k : Nat) (w : Watched) (handled : List Websockets.Frame) : Prop where
  single : (w.running.pendingOf (.strand k) (brings f g)).length ≤ 1
  carries : ∃ posted, posted ++ w.running.pendingOf (.strand k) (brings f g) = handled.map (invocation f g) ∧
    (toCallbacks k w).Carries posted

/-- What a piece does to the work queue. -/
def queueAfter (q : CWorkQueue (List Fn × Notice)) : Action → CWorkQueue (List Fn × Notice)
  | .postCallback cbs notice => if cbs.isEmpty then q else q.post (cbs, notice)
  | .stopQueue _ => if q.mStopped then q else q.stop
  | _ => q

variable {w w' : Watched} {c c' : Running} {s s' : Server} {i k : Nat} {a : Action} {outs rest : List Action} {l : Label}
  {o : Owner} {throws : Bool} {f g : Fn} {handled : List Websockets.Frame} {posted : List (Fn × Websockets.Frame)}

theorem step_inv (step : w.step l = some w') : ∃ c', Server.step w.running l = some c' ∧ w' = w.follow c' l := by
  obtain ⟨c', done, eq⟩ := Option.map_eq_some_iff.1 step
  exact ⟨c', done, eq.symm⟩

/-- The history changes nothing in the server. -/
theorem step_running (step : w.step l = some w') : Server.step w.running l = some w'.running := by
  obtain ⟨c', done, rfl⟩ := step_inv step
  have same : (w.follow c' l).running = c' := by
    cases l with
    | run i throws =>
      simp only [Watched.follow]
      split <;> rfl
    | _ => rfl
  rw [same]
  exact done

theorem follow_run (ran : Tasks.Ran (exec throws) w.running i c' o a rest outs) :
    w.follow c' (.run i throws) = { w.perform o a with running := c' } := by
  unfold Watched.follow
  simp only [ran.task]

/-! ## The queue and the worker -/

theorem exec_queue (done : exec throws c i a = some (s', outs)) :
    s'.mWorkQueue = queueAfter c.shared.mWorkQueue a := by
  cases a with
  | postCallback cbs notice => cases done; rfl
  | stopQueue onWorker =>
    simp only [exec, stopQueue] at done
    simp only [queueAfter]
    split at done <;> cases done <;> simp_all [setQueue]
  | _ => cases exec_does done <;> rfl

/-- Only a function under way is gone on with. -/
theorem exec_calling (done : exec throws c i a = some (s', outs)) :
    (∀ b ∈ outs, calling b = none) ∨ ∃ fn rest notice, a = .call (fn :: rest) notice ∧ outs = [.call rest notice] := by
  by_cases call : ∃ cbs notice, a = .call cbs notice
  · obtain ⟨cbs, notice, rfl⟩ := call
    cases cbs with
    | nil =>
      cases done
      exact .inl (List.forall_mem_nil _)
    | cons fn rest =>
      cases done
      cases throws with
      | true =>
        refine .inl fun b mem => ?_
        rw [List.mem_singleton.1 mem]
        rfl
      | false => exact .inr ⟨fn, rest, notice, rfl, rfl⟩
  · refine .inl fun b mem => ?_
    cases exec_yields done b mem with
    | next fn rest notice => exact absurd ⟨_, _, rfl⟩ call
    | _ => rfl

theorem perform_queue (o : Owner) (a : Action) (same : w.queue.map Prod.snd = w.running.shared.mWorkQueue.mQueue) :
    (w.perform o a).queue.map Prod.snd = (queueAfter w.running.shared.mWorkQueue a).mQueue := by
  cases a with
  | postCallback cbs notice =>
    simp only [Watched.perform, queueAfter, CWorkQueue.post]
    cases cbs.isEmpty with
    | true => simpa using same
    | false =>
      cases w.running.shared.mWorkQueue.mStopped with
      | true => simpa using same
      | false => simp [same]
  | stopQueue onWorker =>
    simp only [Watched.perform, queueAfter]
    split
    · exact same
    · rfl
  | _ => exact same

theorem perform_taken (o : Owner) (other : calling a = none) : (w.perform o a).taken = w.taken := by
  cases a with
  | postCallback cbs notice => simp only [Watched.perform]; split <;> rfl
  | stopQueue onWorker => simp only [Watched.perform]; split <;> rfl
  | call cbs notice => cases other
  | _ => rfl

theorem Queued.run (queued : Queued w) (ran : Tasks.Ran (exec throws) w.running i c' o a rest outs) :
    Queued { w.perform o a with running := c' } := by
  refine ⟨?_, fun j q b pending calls => ?_, ?_, fun x taken => ?_⟩
  · exact (perform_queue o a queued.queue).trans (congrArg CWorkQueue.mQueue (exec_queue ran.action).symm)
  · rcases ran.at_inv pending with old | ⟨-, rfl, mem⟩
    · exact queued.worker j q b old calls
    · rcases exec_calling ran.action with none | ⟨fn, left, notice, rfl, -⟩
      · exact absurd (none b mem) calls
      · exact queued.worker i q _ ran.at_head (fun h => nomatch h)
  · cases call : calling a with
    | none =>
      rcases exec_calling ran.action with none | ⟨fn, left, notice, rfl, -⟩
      · exact (ran.pending_same call none).symm ▸ queued.single
      · cases call
    | some x =>
      rw [(ran.pending_single queued.single call).2]
      rcases exec_calling ran.action with none | ⟨fn, left, notice, -, rfl⟩
      · rw [Tasks.filterMap_eq_nil_of none]
        exact Nat.zero_le _
      · exact Nat.le_refl 1
  · cases call : calling a with
    | none =>
      rcases exec_calling ran.action with none | ⟨fn, left, notice, rfl, -⟩
      · rw [perform_taken o call] at taken
        rw [ran.pending_same call none]
        exact queued.taken x taken
      · cases call
    | some y =>
      cases a with
      | call cbs notice => cases taken
      | _ => cases call

/-- A new operation of someone else than the worker. -/
theorem Queued.spawn {todo : List Action} (queued : Queued w) (queue : s'.mWorkQueue = w.running.shared.mWorkQueue)
    (none : ∀ b ∈ todo, calling b = none) :
    Queued { w with running := Tasks.spawn { w.running with shared := s' } o todo } := by
  have same : (Tasks.spawn { w.running with shared := s' } o todo).pending calling = w.running.pending calling := by
    rw [Tasks.pending_spawn, Tasks.filterMap_eq_nil_of none]
    exact List.append_nil _
  refine ⟨queued.queue.trans (congrArg CWorkQueue.mQueue queue.symm), fun j q b pending calls => ?_,
    same ▸ queued.single, fun x taken => same ▸ queued.taken x taken⟩
  rcases Tasks.at_spawn.1 pending with old | ⟨-, -, mem⟩
  · exact queued.worker j q b old calls
  · exact absurd (none b mem) calls

theorem calling_entry (call : WsCall) : calling (ofWsCall k call) = none := by cases call <;> rfl

/-- The worker begins with nothing under way. -/
theorem Queued.idle (queued : Queued w) (idle : w.running.idle .worker = true) :
    w.running.pending calling = [] ∧ w.taken = none := by
  have none : w.running.pending calling = [] := by
    refine Tasks.pending_eq_nil fun j q b pending => ?_
    by_contra calls
    obtain rfl := queued.worker j q b pending calls
    exact Tasks.not_at_of_idle idle pending
  refine ⟨none, ?_⟩
  cases taken : w.taken with
  | none => rfl
  | some x => cases none.symm.trans (queued.taken x taken)

theorem step_queued (step : w.step l = some w') (queued : Queued w) : Queued w' := by
  obtain ⟨c', done, rfl⟩ := step_inv step
  cases step_steps done with
  | api call =>
    refine queued.spawn rfl fun b mem => ?_
    rw [List.mem_singleton.1 mem]
    cases call <;> rfl
  | run ran does =>
    rw [follow_run ran]
    exact queued.run ran
  | upgrade target isSsl listened =>
    have queue : (w.running.shared.upgrade target isSsl).mWorkQueue = w.running.shared.mWorkQueue := by
      unfold upgrade
      split <;> rfl
    exact ⟨queued.queue.trans (congrArg CWorkQueue.mQueue queue.symm), queued.worker, queued.single, queued.taken⟩
  | httpRequest path listened =>
    refine queued.spawn rfl fun b mem => ?_
    rw [List.mem_singleton.1 mem]
    rfl
  | complete found done => exact ⟨queued.queue, queued.worker, queued.single, queued.taken⟩
  | strand idle found ran =>
    refine queued.spawn rfl fun b mem => ?_
    obtain ⟨call, -, rfl⟩ := List.mem_map.1 mem
    exact calling_entry call
  | @work cbs notice left idle running queue =>
    obtain ⟨none, -⟩ := queued.idle idle
    have old := queued.queue
    rw [queue] at old
    obtain ⟨x, later, here, front, rest⟩ := List.map_eq_cons_iff.1 old
    have pending : (Tasks.spawn
        { w.running with shared := w.running.shared.setQueue { w.running.shared.mWorkQueue with mQueue := left } }
        .worker [.call cbs notice]).pending calling = [(cbs, notice)] := by
      rw [Tasks.pending_spawn]
      exact congrArg (· ++ _) none
    refine ⟨?_, fun j q b at_ calls => ?_, ?_, fun y taken => ?_⟩
    · simp only [Watched.follow, here, List.tail_cons]
      exact rest
    · rcases Tasks.at_spawn.1 at_ with old | ⟨-, rfl, -⟩
      · exact queued.worker j q b old calls
      · rfl
    · exact pending ▸ Nat.le_refl 1
    · simp only [Watched.follow, here, List.head?_cons, Option.some.injEq] at taken
      subst taken
      exact pending.trans (congrArg (fun z => [z]) front.symm)

/-! ## From the strand to the callbacks -/

/-- The frame of session `k` that a piece of an operation of `o` puts into the queue. -/
def postsFor (k : Nat) (o : Owner) : Action → Option (Fn × Websockets.Frame)
  | .postCallback cbs notice => leadingFor k (o, cbs, notice)
  | _ => none

theorem leadingFor_nil (notice : Notice) : leadingFor k (o, [], notice) = none := by
  unfold leadingFor
  split <;> rfl

/-- Beginning a function takes it out of the queue and into what was heard. -/
theorem toCallbacks_call {cbs : List Fn} {notice : Notice} (queued : Queued w)
    (pending : w.running.pending calling = [(cbs, notice)]) (queue : c'.shared.mWorkQueue = w.running.shared.mWorkQueue) :
    (toCallbacks k { w.perform o (.call cbs notice) with running := c' }).passed ++
        (toCallbacks k { w.perform o (.call cbs notice) with running := c' }).transit =
      (toCallbacks k w).passed ++ (toCallbacks k w).transit ∧
      (toCallbacks k { w.perform o (.call cbs notice) with running := c' }).isCut = (toCallbacks k w).isCut := by
  refine ⟨?_, congrArg CWorkQueue.mStopped queue⟩
  cases taken : w.taken with
  | none => simp [toCallbacks, Watched.received, Watched.perform, taken]
  | some x =>
    obtain ⟨p, cbs', notice'⟩ := x
    cases (queued.taken _ taken).symm.trans pending
    cases cbs with
    | nil => simp [toCallbacks, Watched.received, Watched.perform, taken, leadingFor_nil]
    | cons fn others =>
      simp only [toCallbacks, Watched.received, Watched.perform, taken, Option.bind_some, List.head?_cons, Option.map_some,
        Option.toList_some, Option.toList_none, List.filterMap_append, List.nil_append, List.append_assoc]
      congr 1

theorem perform_carries (queued : Queued w) (ran : Tasks.Ran (exec throws) w.running i c' o a rest outs)
    (carries : (toCallbacks k w).Carries posted) :
    (toCallbacks k { w.perform o a with running := c' }).Carries (posted ++ (postsFor k o a).toList) := by
  have queue := exec_queue ran.action
  cases a with
  | postCallback cbs notice =>
    have put : toCallbacks k { w.perform o (.postCallback cbs notice) with running := c' } =
        (toCallbacks k w).put (leadingFor k (o, cbs, notice)).toList := by
      simp only [queueAfter, CWorkQueue.post] at queue
      cases stopped : w.running.shared.mWorkQueue.mStopped with
      | true =>
        have same : c'.shared.mWorkQueue = w.running.shared.mWorkQueue := by rw [queue, stopped, if_pos rfl, ite_self]
        simp [toCallbacks, Watched.received, Watched.perform, Wire.put, stopped, same]
      | false =>
        cases cbs with
        | nil => simp [toCallbacks, Watched.received, Watched.perform, Wire.put, stopped, queue, leadingFor_nil]
        | cons fn others =>
          have appended : w.perform o (.postCallback (fn :: others) notice) =
              { w with queue := w.queue ++ [(o, fn :: others, notice)] } := by simp [Watched.perform, stopped]
          have running : c'.shared.mWorkQueue.mStopped = false := by simp [queue, stopped]
          simp only [toCallbacks, Watched.received, appended, Wire.put, stopped, running, Bool.false_eq_true, if_false,
            List.filterMap_append, List.append_assoc]
          have one : [(o, fn :: others, notice)].filterMap (leadingFor k) =
              (leadingFor k (o, fn :: others, notice)).toList := by
            cases found : leadingFor k (o, fn :: others, notice) with
            | none => exact List.filterMap_cons_none found
            | some x => exact List.filterMap_cons_some found
          rw [one]
    rw [put]
    exact carries.put _
  | stopQueue onWorker =>
    simp only [queueAfter] at queue
    show Wire.Carries _ (posted ++ [])
    rw [List.append_nil]
    split at queue
    · next stopped =>
      refine carries.of_same ?_ (congrArg CWorkQueue.mStopped queue)
      simp only [toCallbacks, Watched.received, Watched.perform, stopped, if_true]
    · next running =>
      have cut : toCallbacks k { w.perform o (.stopQueue onWorker) with running := c' } =
          (toCallbacks k w).cut (w.taken.toList.filterMap (leadingFor k)).length := by
        simp [toCallbacks, Watched.received, Watched.perform, running, Wire.cut, queue, CWorkQueue.stop]
      rw [cut]
      exact carries.cut _
  | call cbs notice =>
    show Wire.Carries _ (posted ++ [])
    rw [List.append_nil]
    obtain ⟨same, isCut⟩ := toCallbacks_call (k := k) (o := o) queued (ran.pending_single queued.single rfl).1 queue
    exact carries.of_same same isCut
  | _ =>
    show Wire.Carries _ (posted ++ [])
    rw [List.append_nil]
    exact carries.of_same rfl (congrArg CWorkQueue.mStopped queue)

theorem leading_none {notice : Notice} (cbs : List Fn) (other : notice.frame? = none) : leading cbs notice = none := by
  rw [leading, other]
  cases cbs.head? <;> rfl

/-- The lookup finds the global callback first. -/
theorem onWsReceived_brings {clientId : UInt32} {pick : CClientCallbacks → Option Fn}
    {pickUri : CUriCallbacks → Option Fn} {notice : Notice} {frame : Websockets.Frame} {fn : Fn}
    (isSet : pick s.impl.mClientCbs = some fn) (told : notice.frame? = some frame) :
    (s.onWsReceived clientId pick pickUri notice).filterMap (brings f g) = [(fn, frame)] := by
  simp [onWsReceived, CImpl.lookupReceiveCallbacks, brings, leading, isSet, told]

/-- A piece that does not post a frame itself leaves it to be posted. -/
theorem exec_brings (done : exec throws c i a = some (s', outs)) (other : ∀ cbs notice, a ≠ .postCallback cbs notice)
    (set : brings f g a ≠ none → c.shared.impl.mClientCbs.mOnClientMessageReceivedCb = some f ∧
      c.shared.impl.mClientCbs.mOnClientContentReceivedCb = some g) :
    outs.filterMap (brings f g) = (brings f g a).toList := by
  by_cases message : ∃ id m, a = .onWsMessage id m
  · obtain ⟨id, m, rfl⟩ := message
    cases done
    exact onWsReceived_brings (set (Option.some_ne_none _)).1 rfl
  · by_cases content : ∃ id m, a = .onWsContent id m
    · obtain ⟨id, m, rfl⟩ := content
      cases done
      exact onWsReceived_brings (set (Option.some_ne_none _)).2 rfl
    · have nothing : brings f g a = none := by
        cases a with
        | onWsMessage id m => exact absurd ⟨id, m, rfl⟩ message
        | onWsContent id m => exact absurd ⟨id, m, rfl⟩ content
        | postCallback cbs notice => exact absurd rfl (other cbs notice)
        | _ => rfl
      rw [nothing]
      refine List.filterMap_eq_nil_iff.2 fun b mem => ?_
      cases exec_yields done b mem with
      | message id m => exact absurd ⟨id, m, rfl⟩ message
      | content id m => exact absurd ⟨id, m, rfl⟩ content
      | added => exact leading_none _ rfl
      | registerChange => exact leading_none _ rfl
      | closed => exact leading_none _ rfl
      | closedChange => exact leading_none _ rfl
      | handler => exact leading_none _ rfl
      | _ => rfl

theorem postCallback_outs {cbs : List Fn} {notice : Notice}
    (done : exec throws c i (.postCallback cbs notice) = some (s', outs)) : outs = [] := by
  cases done
  rfl

theorem Inbound.run (inbound : Inbound f g k w handled) (queued : Queued w)
    (ran : Tasks.Ran (exec throws) w.running i c' o a rest outs)
    (set : o = .strand k → brings f g a ≠ none →
      w.running.shared.impl.mClientCbs.mOnClientMessageReceivedCb = some f ∧
        w.running.shared.impl.mClientCbs.mOnClientContentReceivedCb = some g) :
    Inbound f g k { w.perform o a with running := c' } handled := by
  obtain ⟨posted, whole, carries⟩ := inbound.carries
  have after := perform_carries queued ran carries
  by_cases posts : ∃ cbs notice x, a = .postCallback cbs notice ∧ o = .strand k ∧ leading cbs notice = some x
  · obtain ⟨cbs, notice, x, rfl, rfl, seen⟩ := posts
    obtain ⟨was, now⟩ := ran.pendingOf_single inbound.single (show brings f g _ = some x from seen)
    rw [postCallback_outs ran.action, List.filterMap_nil] at now
    have one : postsFor k (.strand k) (.postCallback cbs notice) = some x := (if_pos rfl).trans seen
    rw [one] at after
    rw [was] at whole
    refine ⟨?_, posted ++ [x], ?_, after⟩
    · show (c'.pendingOf _ _).length ≤ 1
      rw [now]
      exact Nat.zero_le 1
    · show posted ++ [x] ++ c'.pendingOf _ _ = _
      rw [now, List.append_nil, whole]
  · have kept : c'.pendingOf (.strand k) (brings f g) = w.running.pendingOf (.strand k) (brings f g) := by
      refine ran.pendingOf_kept fun mine => ?_
      by_cases post : ∃ cbs notice, a = .postCallback cbs notice
      · obtain ⟨cbs, notice, rfl⟩ := post
        have unseen : leading cbs notice = none :=
          Option.eq_none_iff_forall_ne_some.2 fun x seen => posts ⟨cbs, notice, x, rfl, mine, seen⟩
        rw [postCallback_outs ran.action, brings, unseen]
        rfl
      · exact exec_brings ran.action (fun cbs notice eq => post ⟨cbs, notice, eq⟩) (set mine)
    have nothing : postsFor k o a = none := by
      cases a with
      | postCallback cbs notice =>
        show leadingFor k (o, cbs, notice) = none
        unfold leadingFor
        split
        · next mine => exact Option.eq_none_iff_forall_ne_some.2 fun x seen => posts ⟨cbs, notice, x, rfl, mine, seen⟩
        · rfl
      | _ => rfl
    rw [nothing, Option.toList_none, List.append_nil] at after
    exact ⟨kept.symm ▸ inbound.single, posted, kept.symm ▸ whole, after⟩

/-- A step that leaves the queue, the worker and the operations of the strand alone. -/
theorem Inbound.of_same (inbound : Inbound f g k w handled)
    (pending : c'.pendingOf (.strand k) (brings f g) = w.running.pendingOf (.strand k) (brings f g))
    (queue : c'.shared.mWorkQueue = w.running.shared.mWorkQueue) :
    Inbound f g k { w with running := c' } handled := by
  obtain ⟨posted, whole, carries⟩ := inbound.carries
  exact ⟨pending.symm ▸ inbound.single, posted, pending.symm ▸ whole,
    carries.of_same rfl (congrArg CWorkQueue.mStopped queue)⟩

theorem Inbound.spawn {todo : List Action} (inbound : Inbound f g k w handled)
    (queue : s'.mWorkQueue = w.running.shared.mWorkQueue) (none : ∀ b ∈ todo, brings f g b = none) :
    Inbound f g k { w with running := Tasks.spawn { w.running with shared := s' } o todo } handled := by
  refine inbound.of_same ?_ queue
  rw [Tasks.pendingOf_spawn, Tasks.filterMap_eq_nil_of none, ite_self, List.append_nil]
  rfl

theorem brings_ofWsCall (j : Nat) (call : WsCall) : brings f g (ofWsCall j call) = call.frame?.map (invocation f g) := by
  cases call <;> rfl

/-- The strand of session `k` handles a frame. -/
theorem Inbound.strand {t t' : CWsSession} {calls : List WsCall} (inbound : Inbound f g k w handled)
    (idle : w.running.idle (.strand k) = true) (found : w.running.shared.sessions[k]? = some t)
    (ran : t.runNext true = some (t', calls)) :
    Inbound f g k
      { w with running :=
          Tasks.spawn { w.running with shared := w.running.shared.setSession k t' } (.strand k) (calls.map (ofWsCall k)) }
      (handled ++ (handlesAt k w.running (.strand k)).toList) := by
  obtain ⟨-, h, rest, front, -⟩ := CWsSession.runNext_inv ran
  obtain ⟨posted, whole, carries⟩ := inbound.carries
  have waits : w.running.pendingOf (.strand k) (brings f g) = [] := Tasks.pendingOf_idle idle
  have handles : handlesAt k w.running (.strand k) = h.frame? := by
    simp only [handlesAt, if_true, found, Option.bind_some, front, List.head?_cons]
  have frames : (calls.map (ofWsCall k)).filterMap (brings f g) = h.frame?.toList.map (invocation f g) := by
    rw [← CWsSession.runNext_frames front ran, List.filterMap_map, List.map_filterMap]
    congr 1
    funext call
    exact brings_ofWsCall k call
  have pending : (Tasks.spawn { w.running with shared := w.running.shared.setSession k t' } (.strand k)
      (calls.map (ofWsCall k))).pendingOf (.strand k) (brings f g) = h.frame?.toList.map (invocation f g) := by
    rw [Tasks.pendingOf_spawn, if_pos rfl, frames]
    exact congrArg (· ++ _) waits
  rw [waits, List.append_nil] at whole
  refine ⟨?_, posted, ?_, carries.of_same rfl rfl⟩
  · show (Tasks.pendingOf _ _ _).length ≤ 1
    rw [pending]
    cases h.frame? <;> simp
  · show posted ++ Tasks.pendingOf _ _ _ = _
    rw [pending, handles, List.map_append, whole]

/-- The worker takes a function. -/
theorem Inbound.work {cbs : List Fn} {notice : Notice} {left : List (List Fn × Notice)}
    (inbound : Inbound f g k w handled) (queued : Queued w) (idle : w.running.idle .worker = true) :
    Inbound f g k { w with
      running := Tasks.spawn
        { w.running with shared := w.running.shared.setQueue { w.running.shared.mWorkQueue with mQueue := left } }
        .worker [.call cbs notice]
      queue := w.queue.tail
      taken := w.queue.head? } handled := by
  obtain ⟨posted, whole, carries⟩ := inbound.carries
  have kept : (Tasks.spawn
      { w.running with shared := w.running.shared.setQueue { w.running.shared.mWorkQueue with mQueue := left } }
      .worker [.call cbs notice]).pendingOf (.strand k) (brings f g) =
        w.running.pendingOf (.strand k) (brings f g) := by
    rw [Tasks.pendingOf_spawn, if_neg (fun h => nomatch h), List.append_nil]
    rfl
  have same : w.queue.head?.toList ++ w.queue.tail = w.taken.toList ++ w.queue := by
    rw [(queued.idle idle).2]
    cases w.queue <;> rfl
  refine ⟨kept.symm ▸ inbound.single, posted, kept.symm ▸ whole, carries.of_same ?_ rfl⟩
  show _ ++ (w.queue.head?.toList ++ w.queue.tail).filterMap _ = _
  rw [same]
  rfl

theorem step_inbound (step : w.step l = some w') (queued : Queued w) (inbound : Inbound f g k w handled)
    (set : ∀ i a, w.running.At i (.strand k) a → brings f g a ≠ none →
      w.running.shared.impl.mClientCbs.mOnClientMessageReceivedCb = some f ∧
        w.running.shared.impl.mClientCbs.mOnClientContentReceivedCb = some g) :
    Inbound f g k w' (handled ++ (handlesAt k w.running l).toList) := by
  obtain ⟨c', done, rfl⟩ := step_inv step
  have quiet : ∀ {w'' : Watched}, handlesAt k w.running l = none → Inbound f g k w'' handled →
      Inbound f g k w'' (handled ++ (handlesAt k w.running l).toList) := by
    intro w'' none inbound
    rw [none, Option.toList_none, List.append_nil]
    exact inbound
  cases step_steps done with
  | api call =>
    refine quiet rfl (inbound.spawn rfl fun b mem => ?_)
    rw [List.mem_singleton.1 mem]
    cases call <;> rfl
  | @run i throws _ o a rest outs ran does =>
    rw [follow_run ran]
    refine quiet rfl (inbound.run queued ran fun mine => ?_)
    subst mine
    exact set i a ran.at_head
  | upgrade target isSsl listened =>
    refine quiet rfl (inbound.of_same rfl ?_)
    simp only [upgrade]
    split <;> rfl
  | httpRequest path listened =>
    refine quiet rfl (inbound.spawn rfl fun b mem => ?_)
    rw [List.mem_singleton.1 mem]
    rfl
  | complete found done => exact quiet rfl (inbound.of_same rfl rfl)
  | @strand j t t' calls idle found ran =>
    by_cases eq : j = k
    · subst eq
      exact inbound.strand idle found ran
    · have other : Owner.strand j ≠ .strand k := fun same => eq (Owner.strand.inj same)
      refine quiet (if_neg eq) (inbound.of_same ?_ rfl)
      rw [Tasks.pendingOf_spawn, if_neg other, List.append_nil]
      rfl
  | work idle running queue => exact quiet rfl (inbound.work queued idle)

theorem create_queued (allowedUris : Option (List Bytes)) (maxSessionBacklog : Nat) :
    Queued (Watched.create allowedUris maxSessionBacklog) := by
  refine ⟨rfl, fun i q b pending => ?_, Nat.zero_le _, (fun x taken => nomatch taken)⟩
  obtain ⟨t, found, -, -⟩ := pending
  cases found

theorem create_inbound (allowedUris : Option (List Bytes)) (maxSessionBacklog : Nat) :
    Inbound f g k (Watched.create allowedUris maxSessionBacklog) [] :=
  ⟨Nat.zero_le _, [], rfl, Wire.carries_empty⟩

/-- What the global callbacks receive for a session is a beginning of what it handled. -/
theorem Inbound.received_prefix (inbound : Inbound f g k w handled) :
    w.received k <+: handled.map (invocation f g) := by
  obtain ⟨posted, whole, carries⟩ := inbound.carries
  refine carries.passed_prefix.trans ?_
  rw [← whole]
  exact List.prefix_append _ _

end Server

end Websockets
