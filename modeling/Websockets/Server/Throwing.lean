import Websockets.Server.Steps

/-!
# Callbacks that throw

A behaviour says which invocations end with an exception, by their number; what callbacks do to the server are
user calls as ever. Runs with different behaviours are compared turn by turn: a turn is a step of the system,
and what the operation then has to log or to return from belongs to it, so that both behaviours have the same
turns. A turn that is not possible passes.

An exception ends the function that was posted. Where that holds a global and a uri's callback, the second one is
skipped; everything else that calls back is posted or invoked by itself.
-/

namespace Websockets

open Lib

namespace Server

/-- Logging, and the return from a posted function. -/
def settles : Action → Bool
  | .logError _ => true
  | .call [] _ => true
  | _ => false

/-- The line a piece logs. -/
def lineOf : Action → Option Event
  | .logError line => some (.logged line)
  | _ => none

/-- Operation `i` logs and returns as far as it can. -/
def settle (c : Running) (i : Nat) : Running :=
  match c.tasks[i]? with
  | none => c
  | some t => ⟨c.shared.record ((t.todo.takeWhile settles).filterMap lineOf),
      c.tasks.set i ⟨t.owner, t.todo.dropWhile settles⟩⟩

/-- One turn; `throws` says how an invocation in it ends. -/
def turn (throws : Bool) (c : Running) : Label → Running
  | .run i _ => match step c (.run i throws) with
    | none => c
    | some c' => settle c' i
  | l => (step c l).getD c

def invocationOf : Event → Option (Bool × Fn × Notice)
  | .invoked byWorker cb notice => some (byWorker, cb, notice)
  | _ => none

/-- The callbacks invoked so far with what they were told, and whether by the worker. -/
def invocations (c : Running) : List (Bool × Fn × Notice) := c.shared.log.filterMap invocationOf

/-- The turns of a run in which the `n`-th invocation throws if `behaviour n` says so. -/
def playing (behaviour : Nat → Bool) : System Running Label :=
  ⟨fun c l => some (turn (behaviour (invocations c).length) c l)⟩

/-- The turn invokes a callback that is not the last one of the function the worker runs. -/
def cutsShort (c : Running) : Label → Bool
  | .run i _ => match head? c i with
    | some (.call (_ :: _ :: _) _) => true
    | _ => false
  | _ => false

/-- Such a callback does not throw. -/
def Spares (behaviour : Nat → Bool) (c : Running) (l : Label) : Prop :=
  cutsShort c l = true → behaviour (invocations c).length = false

instance (behaviour : Nat → Bool) (c : Running) (l : Label) : Decidable (Spares behaviour c l) :=
  inferInstanceAs (Decidable (_ = true → _ = false))

variable {c c' : Running} {s s' : Server} {i : Nat} {a : Action} {outs : List Action} {throws : Bool} {l : Label}

/-! ## Turns are runs -/

theorem record_nil (s : Server) : s.record [] = s := by
  unfold record
  rw [List.append_nil]

theorem step_return {o : Owner} {rest : List Action} (task : c.tasks[i]? = some ⟨o, a :: rest⟩)
    (returns : settles a = true) :
    system.step c (.run i false) = some ⟨c.shared.record (lineOf a).toList, c.tasks.set i ⟨o, rest⟩⟩ := by
  cases a with
  | logError line => exact step_run task rfl
  | call cbs notice =>
    cases cbs with
    | nil =>
      have same : c.shared.record (lineOf (.call [] notice)).toList = c.shared := record_nil _
      rw [same]
      exact step_run task rfl
    | cons fn cbs => cases returns
  | _ => cases returns

theorem settle_done {t : Lib.Task Owner Action} (task : c.tasks[i]? = some t)
    (first : t.todo.takeWhile settles = []) : settle c i = c := by
  have left : t.todo.dropWhile settles = t.todo := by
    have whole := List.takeWhile_append_dropWhile (p := settles) (l := t.todo)
    rwa [first, List.nil_append] at whole
  unfold settle
  rw [task]
  dsimp only
  obtain ⟨lt, here⟩ := List.getElem?_eq_some_iff.1 task
  rw [first, left, List.filterMap_nil, record_nil, ← here, List.set_getElem_self]

/-- Settling is a run. -/
theorem settle_runs (c : Running) (i : Nat) : ∃ ls, system.exec c ls = some (settle c i) := by
  cases task : c.tasks[i]? with
  | none =>
    refine ⟨[], ?_⟩
    unfold settle
    rw [task]
    rfl
  | some t =>
    obtain ⟨o, todo⟩ := t
    induction todo generalizing c with
    | nil => exact ⟨[], congrArg some (settle_done task rfl).symm⟩
    | cons a rest ih =>
      cases returns : settles a with
      | false =>
        have first : (a :: rest).takeWhile settles = [] := List.takeWhile_cons_of_neg (by rw [returns]; decide)
        exact ⟨[], congrArg some (settle_done task first).symm⟩
      | true =>
        have stepped := step_return task returns
        obtain ⟨lt, here⟩ := List.getElem?_eq_some_iff.1 task
        obtain ⟨ls, run⟩ := ih ⟨c.shared.record (lineOf a).toList, c.tasks.set i ⟨o, rest⟩⟩
          (List.getElem?_set_self lt)
        refine ⟨.run i false :: ls, ?_⟩
        rw [System.exec_cons stepped, run]
        unfold settle
        rw [task, List.getElem?_set_self lt]
        dsimp only
        rw [List.takeWhile_cons_of_pos returns, List.dropWhile_cons_of_pos returns, List.set_set]
        simp only [record, List.append_assoc]
        cases seen : lineOf a with
        | none => rw [List.filterMap_cons_none seen, Option.toList_none, List.nil_append]
        | some e => rw [List.filterMap_cons_some seen, Option.toList_some, List.singleton_append]

/-- A turn is a run. -/
theorem turn_runs (throws : Bool) (c : Running) (l : Label) : ∃ ls, system.exec c ls = some (turn throws c l) := by
  have other : ∃ ls, system.exec c ls = some ((step c l).getD c) := by
    cases stepped : step c l with
    | none => exact ⟨[], rfl⟩
    | some c' => exact ⟨[l], System.exec_cons stepped⟩
  cases l with
  | run i _ =>
    rw [turn]
    cases stepped : step c (.run i throws) with
    | none => exact ⟨[], rfl⟩
    | some c' =>
      obtain ⟨ls, run⟩ := settle_runs c' i
      exact ⟨.run i throws :: ls, (System.exec_cons stepped).trans run⟩
  | _ => exact other

/-- Turn by turn the system runs. -/
theorem playing_runs {behaviour : Nat → Bool} {turns : List Label} (played : (playing behaviour).exec c turns = some c') :
    ∃ ls, system.exec c ls = some c' := by
  refine System.invariant (fun a => ∃ ls, system.exec c ls = some a) ⟨[], rfl⟩ ?_ played
  rintro a l b ⟨ls, run⟩ step
  obtain ⟨more, next⟩ := turn_runs (behaviour (invocations a).length) a l
  cases step
  refine ⟨ls ++ more, ?_⟩
  rw [System.exec_append, run]
  exact next

/-! ## What the log lines leave alone -/

def isLine : Event → Bool
  | .logged _ => true
  | _ => false

/-- The server without its log lines. -/
def hush (s : Server) : Server := { s with log := s.log.filter (!isLine ·) }

def hushed (c : Running) : Running := ⟨hush c.shared, c.tasks⟩

@[simp] theorem hush_impl (s : Server) : (hush s).impl = s.impl := rfl
@[simp] theorem hush_queue (s : Server) : (hush s).mWorkQueue = s.mWorkQueue := rfl
@[simp] theorem hush_sessions (s : Server) : (hush s).sessions = s.sessions := rfl
@[simp] theorem hush_listened (s : Server) : (hush s).listened = s.listened := rfl
@[simp] theorem hush_setImpl (s : Server) (impl : CImpl) : hush (s.setImpl impl) = (hush s).setImpl impl := rfl
@[simp] theorem hush_setQueue (s : Server) (queue) : hush (s.setQueue queue) = (hush s).setQueue queue := rfl
@[simp] theorem hush_mapSession (s : Server) (k : Nat) (f) : hush (s.mapSession k f) = (hush s).mapSession k f := rfl
@[simp] theorem hush_sessionPost (s : Server) (k : Nat) (task) :
    hush (s.sessionPost k task) = (hush s).sessionPost k task := rfl

@[simp] theorem hush_record (s : Server) (events : List Event) :
    hush (s.record events) = (hush s).record (events.filter (!isLine ·)) := by
  simp [hush, record]

@[simp] theorem hush_hush (s : Server) : hush (hush s) = hush s := by
  simp [hush, List.filter_filter]

theorem record_lines {events : List Event} (lines : ∀ e ∈ events, isLine e = true) :
    hush (s.record events) = hush s := by
  have none : events.filter (!isLine ·) = [] := List.filter_eq_nil_iff.2 fun e mem => by simp [lines e mem]
  rw [hush_record, none, record_nil]

theorem invocations_hushed (c : Running) : invocations (hushed c) = invocations c := by
  simp only [invocations, hushed, hush, List.filterMap_filter]
  congr 1
  funext e
  cases e <;> rfl

/-- No piece reads the log. -/
theorem exec_hushed : (exec throws (hushed c) i a).map (fun r => (hush r.1, r.2)) =
    (exec throws c i a).map fun r => (hush r.1, r.2) := by
  cases a with
  | start port cbs => cases closed : c.shared.impl.mShutdown <;> simp [exec, hushed, closed]
  | startLocked port cbs =>
    simp only [exec, hushed, startLocked, hush_impl, Option.map_some]
    split <;> simp [hush, List.filter_filter]
  | stop => simp [exec, hushed, stop]
  | removeClient id =>
    simp only [exec, hushed, removeClient, hush_impl, Option.map_some]
    split <;> simp
  | notifyClosedSync => simp [exec, hushed, notifyClosedSync]
  | addUri => simp [exec, hushed]
  | removeUri => simp [exec, hushed]
  | sendToClient => simp [exec, hushed, sendToClient]
  | anyClients uri payload => cases any : c.shared.impl.anyClients uri <;> simp [exec, hushed, any]
  | broadcast => simp [exec, hushed]
  | sessionSend => simp [exec, hushed]
  | sessionClose => simp [exec, hushed]
  | registerWsClient =>
    simp only [exec, hushed, registerWsClient, hush_impl, Option.map_some]
    split <;> simp
  | registered => simp [exec, hushed]
  | onWsClosed =>
    simp only [exec, hushed, onWsClosed, hush_impl, Option.map_some]
    split <;> simp
  | onWsMessage => simp [exec, hushed, onWsMessage, onWsReceived]
  | onWsContent => simp [exec, hushed, onWsContent, onWsReceived]
  | nextConnectionId => simp [exec, hushed, nextConnectionId]
  | findHttpHandler => simp [exec, hushed, findHttpHandler]
  | postCallback => simp [exec, hushed, postCallback]
  | invoke cb notice => cases cb <;> simp [exec, hushed, invoke]
  | call cbs notice => cases cbs <;> simp [exec, hushed, call]
  | shutdown onWorker => cases closed : c.shared.impl.mShutdown <;> simp [exec, hushed, shutdown, closed]
  | stopQueue onWorker => cases stopped : c.shared.mWorkQueue.mStopped <;> simp [exec, hushed, stopQueue, stopped]
  | joinWorker =>
    have : (Tasks.idle ⟨hush c.shared, c.tasks⟩ Owner.worker) = c.idle .worker := rfl
    simp only [exec, hushed, this]
    split <;> simp
  | logError => simp [exec, hushed]

/-- Nor does anything the environment brings. -/
theorem step_hushed (other : ∀ i throws, l ≠ .run i throws) :
    (step (hushed c) l).map hushed = (step c l).map hushed := by
  cases l with
  | api call => simp [step, hushed, Tasks.spawn]
  | run i throws => exact absurd rfl (other i throws)
  | upgrade target isSsl =>
    cases listened : c.shared.listened with
    | false => simp [step, hushed, listened]
    | true =>
      cases allowed : c.shared.impl.upgradeAllowed (parseTarget target).1 <;>
        simp [step, hushed, listened, upgrade, allowed, hush, List.filter_filter]
  | httpRequest path => cases listened : c.shared.listened <;> simp [step, hushed, listened, Tasks.spawn]
  | complete k i ec frame =>
    cases session : c.shared.sessions[k]? with
    | none => simp [step, hushed, completeOp, session]
    | some t => cases done : t.toChannel.complete i ec frame <;> simp [step, hushed, completeOp, session, done, setSession]
  | strand k =>
    have idle : Tasks.idle (⟨hush c.shared, c.tasks⟩ : Running) (.strand k) = c.idle (.strand k) := rfl
    cases free : c.idle (.strand k) with
    | false => simp [step, hushed, idle, free]
    | true =>
      cases session : c.shared.sessions[k]? with
      | none => simp [step, hushed, idle, free, runStrand, session]
      | some t =>
        cases next : t.runNext true <;>
          simp [step, hushed, idle, free, runStrand, session, next, setSession, Tasks.spawn]
  | work =>
    have idle : Tasks.idle (⟨hush c.shared, c.tasks⟩ : Running) .worker = c.idle .worker := rfl
    cases free : c.idle .worker with
    | false => simp [step, hushed, idle, free]
    | true => cases next : c.shared.mWorkQueue.next <;> simp [step, hushed, idle, free, next, Tasks.spawn]

/-! ## What a throw changes -/

/-- What is seen of a piece once its operation has settled, the log lines apart. -/
def seen (rest : List Action) (done : Option (Server × List Action)) : Option (Server × List Action) :=
  done.map fun r => (hush r.1, (r.2 ++ rest).dropWhile settles)

theorem seen_hushed (rest : List Action) : seen rest (exec throws (hushed c) i a) = seen rest (exec throws c i a) := by
  have same : (exec throws (hushed c) i a).map (fun r => (hush r.1, r.2)) =
      (exec throws c i a).map fun r => (hush r.1, r.2) := exec_hushed
  replace same := congrArg (Option.map fun r : Server × List Action => (r.1, (r.2 ++ rest).dropWhile settles)) same
  rwa [Option.map_map, Option.map_map] at same

/-- Nothing more, unless callbacks are skipped. -/
theorem seen_throws {rest : List Action} (whole : ∀ f g fs notice, a ≠ .call (f :: g :: fs) notice) :
    seen rest (exec throws c i a) = seen rest (exec false c i a) := by
  cases throws with
  | false => rfl
  | true =>
    cases a with
    | invoke cb notice =>
      cases cb with
      | none => rfl
      | some fn => rfl
    | call cbs notice =>
      cases cbs with
      | nil => rfl
      | cons f others =>
        cases others with
        | nil => rfl
        | cons g fs => exact absurd rfl (whole f g fs notice)
    | _ => rfl

theorem hushed_settle (c : Running) (i : Nat) {t : Lib.Task Owner Action} (task : c.tasks[i]? = some t) :
    hushed (settle c i) = ⟨hush c.shared, c.tasks.set i ⟨t.owner, t.todo.dropWhile settles⟩⟩ := by
  unfold settle hushed
  rw [task]
  dsimp only
  rw [record_lines]
  intro e mem
  obtain ⟨b, _, line⟩ := List.mem_filterMap.1 mem
  cases b with
  | logError line' =>
    cases line
    rfl
  | _ => cases line

theorem hushed_turn {o : Owner} {rest : List Action} {flag : Bool} (task : c.tasks[i]? = some ⟨o, a :: rest⟩) :
    hushed (turn throws c (.run i flag)) =
      (seen rest (exec throws c i a)).elim (hushed c) fun r => ⟨r.1, c.tasks.set i ⟨o, r.2⟩⟩ := by
  rw [turn]
  cases done : exec throws c i a with
  | none =>
    have stuck : step c (.run i throws) = none := by simp only [step, Tasks.run, task, done]
    rw [stuck]
    rfl
  | some r =>
    have stepped : step c (.run i throws) = some ⟨r.1, c.tasks.set i ⟨o, r.2 ++ rest⟩⟩ := step_run task done
    rw [stepped]
    have lt := (List.getElem?_eq_some_iff.1 task).1
    rw [hushed_settle _ i (List.getElem?_set_self lt), List.set_set]
    rfl

theorem turn_stuck {flag : Bool} (stuck : ∀ o a rest, c.tasks[i]? ≠ some ⟨o, a :: rest⟩) :
    turn throws c (.run i flag) = c := by
  have none : step c (.run i throws) = none := by simp only [step, Tasks.run]
  rw [turn, none]

/-- **A turn goes the same way whether or not the callback throws**, unless it cuts a function short. -/
theorem turn_throws (spares : cutsShort c l = true → throws = false) (same : hushed c = hushed c') :
    hushed (turn throws c l) = hushed (turn false c' l) := by
  have tasks : (hushed c).tasks = (hushed c').tasks := by rw [same]
  replace tasks : c.tasks = c'.tasks := tasks
  by_cases run : ∃ i flag, l = .run i flag
  · obtain ⟨i, flag, rfl⟩ := run
    by_cases stuck : ∀ o a rest, c.tasks[i]? ≠ some ⟨o, a :: rest⟩
    · rw [turn_stuck stuck, turn_stuck (by rwa [← tasks]), same]
    · simp only [not_forall, not_not] at stuck
      obtain ⟨o, a, rest, task⟩ := stuck
      rw [hushed_turn task, hushed_turn (tasks ▸ task), ← seen_hushed rest (c := c), ← seen_hushed rest (c := c'), ← same,
        tasks]
      rw [show seen rest (exec throws (hushed c) i a) = seen rest (exec false (hushed c) i a) from ?_]
      cases throws with
      | false => rfl
      | true =>
        refine seen_throws fun f g fs notice is => ?_
        subst is
        have cut : cutsShort c (.run i flag) = true := by simp [cutsShort, head?, task]
        cases spares cut
  · have other : ∀ i flag, l ≠ .run i flag := fun i flag is => run ⟨i, flag, is⟩
    have passes : ∀ (b : Bool) (d : Running), turn b d l = (step d l).getD d := by
      intro b d
      cases l with
      | run i flag => exact absurd rfl (other i flag)
      | _ => rfl
    have steps : (step c l).map hushed = (step c' l).map hushed := by
      rw [← step_hushed other, same, step_hushed other]
    rw [passes, passes]
    cases one : step c l with
    | none =>
      rw [one, Option.map_none] at steps
      rw [Option.map_eq_none_iff.1 steps.symm]
      exact same
    | some d =>
      rw [one, Option.map_some] at steps
      obtain ⟨d', there, eq⟩ := Option.map_eq_some_iff.1 steps.symm
      rw [there]
      exact eq.symm

/-! ## Invocations -/

/-- What a piece invokes. -/
def invokedBy : Action → Option (Bool × Fn × Notice)
  | .call (fn :: _) notice => some (true, fn, notice)
  | .invoke (some fn) notice => some (false, fn, notice)
  | _ => none

/-- The invocation operation `i` makes in a turn. -/
def told (i : Nat) (c : Running) : Label → Option (Bool × Fn × Notice)
  | .run j _ => if j = i then (head? c i).bind invokedBy else none
  | _ => none

theorem exec_invocations (done : exec throws c i a = some (s', outs)) :
    s'.log.filterMap invocationOf = c.shared.log.filterMap invocationOf ++ (invokedBy a).toList := by
  have others (records : ∀ e, Records c.shared i a e → invocationOf e = none) (none : invokedBy a = none) :
      s'.log.filterMap invocationOf = c.shared.log.filterMap invocationOf ++ (invokedBy a).toList := by
    obtain ⟨new, log, each⟩ := (exec_does done).records
    have unseen : new.filterMap invocationOf = [] := List.filterMap_eq_nil_iff.2 fun e mem => records e (each e mem)
    rw [log, List.filterMap_append, unseen, none, Option.toList_none]
  cases a with
  | invoke cb notice =>
    cases cb <;> cases done <;> simp [invokedBy, List.filterMap_append] <;> rfl
  | call cbs notice =>
    cases cbs <;> cases done <;> simp [invokedBy, invocationOf, List.filterMap_append]
  | _ => exact others (fun e records => by cases records <;> rfl) rfl

theorem invocations_settle (c : Running) (i : Nat) : invocations (settle c i) = invocations c := by
  cases task : c.tasks[i]? with
  | none =>
    unfold settle
    rw [task]
  | some t =>
    rw [← invocations_hushed (settle c i), hushed_settle c i task, ← invocations_hushed c]
    rfl

/-- **A turn adds the invocation its operation makes**, whether that throws or not. -/
theorem invocations_turn {flag : Bool} :
    invocations (turn throws c (.run i flag)) = invocations c ++ (told i c (.run i flag)).toList ∨
      turn throws c (.run i flag) = c := by
  cases stepped : step c (.run i throws) with
  | none =>
    refine .inr ?_
    rw [turn, stepped]
  | some c' =>
    refine .inl ?_
    obtain ⟨o, a, rest, outs, ran⟩ := Tasks.run_inv stepped
    have here : head? c i = some a := head?_eq ran.task
    rw [turn, stepped]
    dsimp only
    rw [invocations_settle, told, if_pos rfl, here]
    exact exec_invocations ran.action

/-- An operation stays as it is until it has a turn. -/
theorem turn_task_kept {t : Lib.Task Owner Action} (task : c.tasks[i]? = some t) (other : ∀ flag, l ≠ .run i flag) :
    (turn throws c l).tasks[i]? = some t := by
  have kept {l' : Label} (others : ∀ flag, l' ≠ .run i flag) : ((step c l').getD c).tasks[i]? = some t := by
    cases stepped : step c l' with
    | none => exact task
    | some c' => exact step_task_kept stepped task others
  cases l with
  | run j flag =>
    have apart : j ≠ i := fun same => other flag (by rw [same])
    rw [turn]
    cases stepped : step c (.run j throws) with
    | none => exact task
    | some c' =>
      have here := step_task_kept stepped task fun flag' same => apart (by injection same)
      dsimp only
      unfold settle
      cases found : c'.tasks[j]? with
      | none => exact here
      | some u => exact (List.getElem?_set_ne apart).trans here
  | _ => exact kept other

theorem turn_finished {o : Owner} (task : c.tasks[i]? = some ⟨o, []⟩) : (turn throws c l).tasks[i]? = some ⟨o, []⟩ := by
  by_cases mine : ∃ flag, l = .run i flag
  · obtain ⟨flag, rfl⟩ := mine
    rw [turn_stuck fun o a rest other => by rw [task] at other; cases other]
    exact task
  · exact turn_task_kept task fun flag same => mine ⟨flag, same⟩

/-- What the worker still has to call of a function after a turn that does not cut it short. -/
theorem turn_function {flag : Bool} {cbs : List Fn} {notice : Notice}
    (task : c.tasks[i]? = some ⟨.worker, [.call cbs notice]⟩)
    (spares : cutsShort c (.run i flag) = true → throws = false) :
    (turn throws c (.run i flag)).tasks[i]? = some ⟨.worker, [.call cbs.tail notice].dropWhile settles⟩ := by
  have lt := (List.getElem?_eq_some_iff.1 task).1
  have moved (d : Server) (outs : List Action) (done : exec throws c i (.call cbs notice) = some (d, outs)) :
      (turn throws c (.run i flag)).tasks[i]? = some ⟨.worker, outs.dropWhile settles⟩ := by
    rw [turn, show step c (.run i throws) = _ from step_run task done]
    dsimp only
    unfold settle
    rw [List.getElem?_set_self lt]
    dsimp only
    rw [List.set_set, List.getElem?_set_self lt, List.append_nil]
  cases cbs with
  | nil => exact moved _ [] rfl
  | cons fn left =>
    refine (moved _ _ rfl).trans ?_
    cases left with
    | nil => cases throws <;> rfl
    | cons g gs =>
      have cut : cutsShort c (.run i flag) = true := by simp [cutsShort, head?, task]
      rw [spares cut]
      rfl

section Functions

variable {behaviour : Nat → Bool} {turns : List Label}

theorem told_finished {o : Owner} (task : c.tasks[i]? = some ⟨o, []⟩) :
    (playing behaviour).collect (told i) c turns = [] := by
  induction turns generalizing c with
  | nil => rfl
  | cons l turns ih =>
    have none : told i c l = none := by
      cases l with
      | run j flag => simp [told, head?, task]
      | _ => rfl
    rw [System.collect_cons (rfl : (playing behaviour).step c l = some _), none]
    exact ih (turn_finished task)

/-- **The worker calls everything a function holds**, in order. -/
theorem told_function {left : List Fn} {notice : Notice} (task : c.tasks[i]? = some ⟨.worker, [.call left notice]⟩)
    (played : (playing behaviour).exec c turns = some c') (spares : (playing behaviour).Along (Spares behaviour) c turns)
    (done : c'.finished i) :
    (playing behaviour).collect (told i) c turns = left.map fun fn => (true, fn, notice) := by
  induction turns generalizing c left with
  | nil =>
    cases played
    cases done _ task
  | cons l turns ih =>
    obtain ⟨d, stepped, rest⟩ := System.exec_cons_inv played
    obtain ⟨spare, later⟩ := (System.along_cons stepped).1 spares
    rw [System.collect_cons stepped]
    cases stepped
    by_cases mine : ∃ flag, l = .run i flag
    · obtain ⟨flag, rfl⟩ := mine
      have next := turn_function task spare
      have now : (told i c (.run i flag)).toList ++ left.tail.map (fun fn => (true, fn, notice)) =
          left.map fun fn => (true, fn, notice) := by
        rw [told, if_pos rfl, head?_eq task]
        cases left <;> rfl
      rw [← now]
      congr 1
      cases rem : left.tail with
      | nil =>
        rw [rem] at next
        exact told_finished next
      | cons g gs =>
        rw [rem] at next
        exact ih next rest later
    · have other : ∀ flag, l ≠ .run i flag := fun flag same => mine ⟨flag, same⟩
      have none : told i c l = none := by
        cases l with
        | run j flag => exact if_neg fun same => other flag (by rw [same])
        | _ => rfl
      rw [none]
      exact ih (turn_task_kept task other) rest later

/-- **A throwing callback keeps no other from being called**, as long as it is the last one of its function: however
the invocations of two runs with the same turns end, the callbacks invoked are the same, and the worker calls
all that a posted function holds. -/
theorem callbacks_isolated {allowedUris : Option (List Bytes)} {maxSessionBacklog : Nat} {behaviour' : Nat → Bool}
    (played : (playing behaviour).exec (create allowedUris maxSessionBacklog) turns = some c)
    (spares : (playing behaviour).Along (Spares behaviour) (create allowedUris maxSessionBacklog) turns)
    (played' : (playing behaviour').exec (create allowedUris maxSessionBacklog) turns = some c')
    (spares' : (playing behaviour').Along (Spares behaviour') (create allowedUris maxSessionBacklog) turns) :
    invocations c = invocations c' ∧
      ∀ before after d e cbs notice queue, turns = before ++ .work :: after →
        (playing behaviour).exec (create allowedUris maxSessionBacklog) before = some d →
        d.shared.mWorkQueue.next = some ((cbs, notice), queue) → system.step d .work = some e →
        c.finished d.tasks.length →
        (playing behaviour).collect (told d.tasks.length) e after = cbs.map fun fn => (true, fn, notice) := by
  constructor
  · have same : hushed c = hushed c' := by
      refine System.relation_along (fun c c' => hushed c = hushed c') rfl ?_ played played' spares spares'
      intro a a' l b b' same spare spare' turned turned'
      cases turned
      cases turned'
      exact (turn_throws spare same).trans (turn_throws spare' rfl).symm
    rw [← invocations_hushed c, same, invocations_hushed]
  · rintro before after d e cbs notice queue rfl run next popped done
    rw [System.exec_append, run] at played
    have later := ((System.along_append run).1 spares).2
    have turned : (playing behaviour).step d .work = some e := by
      show some ((step d .work).getD d) = some e
      rw [show step d .work = some e from popped]
      rfl
    have begun : e.tasks[d.tasks.length]? = some ⟨.worker, [.call cbs notice]⟩ := by
      simp only [system, step, next, Option.map_some] at popped
      split at popped
      · cases popped
        exact List.getElem?_concat_length
      · cases popped
    exact told_function begun ((System.exec_cons turned).symm.trans played) ((System.along_cons turned).1 later).2 done

end Functions

/-- A global and a uri's callback, and a client that sends a message. -/
def heardTwice : List Label :=
  [.api (.addUri (str "/a") { mOnClientMessageReceivedCb := some 2 }), .run 0 false,
    .api (.start 80 { mOnClientMessageReceivedCb := some 1 }), .run 1 false, .run 1 false, .upgrade (str "/a") false,
    .complete 0 0 none noFrame, .strand 0, .run 2 false, .run 2 false, .run 2 false, .run 2 false,
    .complete 0 0 none ⟨true, str "hi"⟩, .strand 0, .run 3 false, .run 3 false, .work, .run 4 false, .run 4 false]

/-- Every callback is called although the second one throws. -/
theorem callbacks_isolated_heardTwice :
    ∃ c c', (playing fun n => n == 1).exec (create none 1024) heardTwice = some c ∧
      (playing fun _ => false).exec (create none 1024) heardTwice = some c' ∧ invocations c = invocations c' ∧
      invocations c' = [(true, 1, .message 1 (str "hi")), (true, 2, .message 1 (str "hi"))] := by
  have last : (playing fun n => n == 1).Along (Spares fun n => n == 1) (create none 1024) heardTwice := by decide
  have never : (playing fun _ => false).Along (Spares fun _ => false) (create none 1024) heardTwice := by decide
  exact ⟨_, _, rfl, rfl, (callbacks_isolated rfl last rfl never).1, by decide⟩

/-- The global callback throws, and the uri's is not called. -/
theorem callback_skipped :
    ∃ c c', (playing fun n => n == 0).exec (create none 1024) heardTwice = some c ∧
      (playing fun _ => false).exec (create none 1024) heardTwice = some c' ∧
      invocations c = [(true, 1, .message 1 (str "hi"))] ∧
      invocations c' = [(true, 1, .message 1 (str "hi")), (true, 2, .message 1 (str "hi"))] :=
  ⟨_, _, rfl, rfl, by decide, by decide⟩

end Server

end Websockets
