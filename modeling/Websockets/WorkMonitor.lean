import Websockets.Lib.Tasks
import Websockets.WorkThread

/-!
# The mutex and the condition of `CWorkQueue`

`CWorkQueue` with its locking: each call of `Post` and `Stop` and the loop of `Run` is a stack of what it still has to
do, the next piece on top. A critical section is waited for, runs with `mMutex` held and unlocks it; `wait` gives the
mutex up and blocks in one step, and may wake up without a notification; `notify_one` comes after the unlock, when
another thread may have been in between.

The run is one of `WorkThread`, whose `take` waits for as long as there is nothing to do. Functions do not throw, as
those that are posted here do not. The queue is not destroyed.
-/

namespace Websockets

open Lib

namespace WorkMonitor

/-- The critical sections on `mMutex`. -/
inductive Section (F : Type) where
  | post (fn : F)
  | stop
  | run
  deriving DecidableEq

inductive Piece (F : Type) where
  /-- Waits for the mutex. -/
  | enter (sec : Section F)
  /-- Holds the mutex, before what the section does. -/
  | locked (sec : Section F)
  /-- Holds the mutex, after what the section does. -/
  | unlock
  /-- Blocked in `mCondition.wait`. -/
  | asleep
  | notify
  | call (fn : F)
  | body (fn : F)
  /-- The rest of `Stop`. -/
  | join
  deriving DecidableEq

/-- What a function that runs does next. -/
inductive Choice (F : Type) where
  | posts (fn : F)
  | stops
  | returns

end WorkMonitor

/-- `stopping` is history: the thread whose `Stop` set `mStopped` and has not returned. -/
structure WorkMonitor (F : Type) where
  queue : CWorkQueue F := {}
  /-- The worker is blocked in `mCondition` and has not been notified. -/
  waiting : Bool := false
  /-- The number of the thread that `Start` began. -/
  mThread : Option Nat := none
  joinable : Bool := false
  stopping : Option Nat := none
  log : List (WorkThread.Event F) := []

namespace WorkMonitor

variable {F : Type}

abbrev Threads (F : Type) := Lib.Tasks (WorkMonitor F) Unit (Piece F)

def record (s : WorkMonitor F) (e : WorkThread.Event F) : WorkMonitor F := { s with log := s.log ++ [e] }

def Piece.holds : Piece F → Bool
  | locked _ => true
  | unlock => true
  | _ => false

/-- What a section does, and what comes after it. -/
def Section.body (s : WorkMonitor F) (i : Nat) : Section F → WorkMonitor F × List (Piece F)
  | .post fn =>
    if s.queue.mStopped then (s.record (.discarded fn), [.unlock])
    else (record { s with queue := s.queue.post fn } (.accepted fn), [.unlock, .notify])
  | .stop =>
    if s.queue.mStopped then (s, [.unlock])
    else (record { s with queue := s.queue.stop, stopping := some i } .stopped, [.unlock, .notify, .join])
  | .run =>
    if s.queue.mStopped then (s, [.unlock])
    else match s.queue.next with
      | some (fn, queue) => ({ s with queue := queue }, [.unlock, .call fn, .enter .run])
      -- `wait` gives the mutex up
      | none => ({ s with waiting := true }, [.asleep])

/-- Thread `i` does what is on top of its stack. -/
def perform (choice : Choice F) (c : Threads F) (i : Nat) (p : Piece F) : Option (WorkMonitor F × List (Piece F)) :=
  let s := c.shared
  match p with
  | .enter sec => if 0 < c.count Piece.holds then none else some (s, [.locked sec])
  | .locked sec => some (sec.body s i)
  | .unlock => some (s, [])
  | .asleep => if s.waiting then none else some (s, [.enter .run])
  | .notify => some ({ s with waiting := false }, [])
  | .call fn => some (s.record (.started fn), [.body fn])
  | .body fn =>
    match choice with
    | .posts next => some (s, [.enter (.post next), .body fn])
    | .stops => some (s, [.enter .stop, .body fn])
    | .returns => some (s.record (.finished fn), [])
  | .join =>
    let own := s.mThread == some i
    let left := record { s with joinable := false, stopping := none } (.returned own)
    if s.joinable && !own then
      match s.mThread with
      | some w => if c.finished w then some (left, []) else none
      | none => none
    else some (left, [])

inductive Label (F : Type) where
  | start
  /-- A thread of the application, or of the pool, calls `Post`. -/
  | post (fn : F)
  | stop
  | run (i : Nat) (choice : Choice F)
  /-- `wait` wakes up without a notification. -/
  | spurious

def step (c : Threads F) : Label F → Option (Threads F)
  | .start =>
    match c.shared.mThread with
    | none => some (Tasks.spawn { c with shared := { c.shared with mThread := some c.tasks.length, joinable := true } } ()
        [.enter .run])
    | some _ => none
  | .post fn => some (c.spawn () [.enter (.post fn)])
  | .stop => some (c.spawn () [.enter .stop])
  | .run i choice => c.run (perform choice) i
  | .spurious => if c.shared.waiting then some { c with shared := { c.shared with waiting := false } } else none

/-- Every interleaving of the threads. -/
def system (F : Type) : Lib.System (Threads F) (Label F) := ⟨step⟩

def create (F : Type) : Threads F := ⟨{}, []⟩

/-! ## What a reader sees of it -/

/-- What thread `i` still has to do. -/
def stack (c : Threads F) (i : Nat) : List (Piece F) := (c.tasks[i]?.map Task.todo).getD []

/-- Where a worker with this stack is in `Run`. -/
def workerOf : List (Piece F) → WorkThread.Worker F
  | [] => .exited
  | .call fn :: _ => .popped fn
  | .body fn :: _ => .executing fn
  | .enter .run :: _ => .waiting
  | .locked .run :: _ => .waiting
  | .asleep :: _ => .waiting
  | _ :: rest => workerOf rest

def worker (c : Threads F) : WorkThread.Worker F :=
  match c.shared.mThread with
  | none => .notStarted
  | some w => workerOf (stack c w)

/-- The state at the granularity of the critical sections, with the worker as it is. -/
def view (s : WorkMonitor F) (worker : WorkThread.Worker F) : WorkThread F where
  queue := s.queue
  worker := worker
  stopping := s.stopping.map fun i => s.mThread == some i
  log := s.log

def abs (c : Threads F) : WorkThread F := c.shared.view (worker c)

/-- What of a piece is seen at that granularity. -/
def seen (s : WorkMonitor F) (i : Nat) (choice : Choice F) : Piece F → Option (WorkThread.Label F)
  | .locked (.post fn) => some (.post fn)
  | .locked .stop => some (.stop (s.mThread == some i))
  | .locked .run => if s.queue.mStopped || !s.queue.mQueue.isEmpty then some .take else none
  | .call _ => some .call
  | .body _ =>
    match choice with
    | .returns => some .finish
    | _ => none
  | .join => some .leave
  | _ => none

def see (c : Threads F) : Label F → Option (WorkThread.Label F)
  | .start => some .start
  | .run i choice => (stack c i).head?.bind (seen c.shared i choice)
  | _ => none

/-- What is below a piece that only the worker has. -/
def Piece.base : Piece F → List (Piece F)
  | call _ => [.enter .run]
  | body _ => [.enter .run]
  | _ => []

/-- What a piece does. -/
inductive Performs (c : Threads F) (i : Nat) : Choice F → Piece F → WorkMonitor F → List (Piece F) → Prop
  | enters {choice sec} (free : c.count Piece.holds = 0) : Performs c i choice (.enter sec) c.shared [.locked sec]
  | discards {choice fn} (stopped : c.shared.queue.mStopped = true) :
      Performs c i choice (.locked (.post fn)) (c.shared.record (.discarded fn)) [.unlock]
  | accepts {choice fn} (running : c.shared.queue.mStopped = false) : Performs c i choice (.locked (.post fn))
      (record { c.shared with queue := c.shared.queue.post fn } (.accepted fn)) [.unlock, .notify]
  | again {choice} (stopped : c.shared.queue.mStopped = true) : Performs c i choice (.locked .stop) c.shared [.unlock]
  | stops {choice} (running : c.shared.queue.mStopped = false) : Performs c i choice (.locked .stop)
      (record { c.shared with queue := c.shared.queue.stop, stopping := some i } .stopped) [.unlock, .notify, .join]
  | exits {choice} (stopped : c.shared.queue.mStopped = true) : Performs c i choice (.locked .run) c.shared [.unlock]
  | pops {choice fn rest} (running : c.shared.queue.mStopped = false) (queue : c.shared.queue.mQueue = fn :: rest) :
      Performs c i choice (.locked .run) { c.shared with queue := { c.shared.queue with mQueue := rest } }
        [.unlock, .call fn, .enter .run]
  | sleeps {choice} (running : c.shared.queue.mStopped = false) (queue : c.shared.queue.mQueue = []) :
      Performs c i choice (.locked .run) { c.shared with waiting := true } [.asleep]
  | unlocks {choice} : Performs c i choice .unlock c.shared []
  | wakes {choice} (notified : c.shared.waiting = false) : Performs c i choice .asleep c.shared [.enter .run]
  | notifies {choice} : Performs c i choice .notify { c.shared with waiting := false } []
  | calls {choice fn} : Performs c i choice (.call fn) (c.shared.record (.started fn)) [.body fn]
  | posts {fn next} : Performs c i (.posts next) (.body fn) c.shared [.enter (.post next), .body fn]
  | stopsInside {fn} : Performs c i .stops (.body fn) c.shared [.enter .stop, .body fn]
  | returns {fn} : Performs c i .returns (.body fn) (c.shared.record (.finished fn)) []
  | leaves {choice} (may : c.shared.joinable = true → c.shared.mThread = some i ∨
      ∃ w, c.shared.mThread = some w ∧ c.finished w) : Performs c i choice .join
        (record { c.shared with joinable := false, stopping := none } (.returned (c.shared.mThread == some i))) []

/-- A call of `Post` or `Stop`, as far as it has got. -/
inductive Calls : List (Piece F) → Prop
  | done : Calls []
  | enters {sec} (other : sec ≠ .run) : Calls [.enter sec]
  | locked {sec} (other : sec ≠ .run) : Calls [.locked sec]
  | unlocks : Calls [.unlock]
  | posted : Calls [.unlock, .notify]
  | notifies : Calls [.notify]
  | stopped : Calls [.unlock, .notify, .join]
  | stops : Calls [.notify, .join]
  | joins : Calls [.join]

/-- The worker, as far as it has got in `Run`. -/
inductive Loop : List (Piece F) → Prop
  | enters : Loop [.enter .run]
  | locked : Loop [.locked .run]
  | asleep : Loop [.asleep]
  | pops {fn} : Loop [.unlock, .call fn, .enter .run]
  | calls {fn} : Loop [.call fn, .enter .run]
  | body {fn above} (inside : Calls above) : Loop (above ++ [.body fn, .enter .run])
  | exits : Loop [.unlock]
  | gone : Loop []

variable {c c' : Threads F} {i j n w : Nat} {p : Piece F} {s' : WorkMonitor F} {outs rest above : List (Piece F)}
  {choice : Choice F} {l : Label F} {ls : List (Label F)} {fn : F} {sec : Section F}

/-- **`perform` does what `Performs` says.** -/
theorem perform_performs (done : perform choice c i p = some (s', outs)) : Performs c i choice p s' outs := by
  cases p with
  | enter sec =>
    simp only [perform] at done
    split at done
    · cases done
    · next free => cases done; exact .enters (by omega)
  | locked sec =>
    simp only [perform, Option.some.injEq] at done
    cases sec with
    | post fn =>
      simp only [Section.body] at done
      split at done
      · next stopped => cases done; exact .discards stopped
      · next running => cases done; exact .accepts (by simpa using running)
    | stop =>
      simp only [Section.body] at done
      split at done
      · next stopped => cases done; exact .again stopped
      · next running => cases done; exact .stops (by simpa using running)
    | run =>
      simp only [Section.body] at done
      split at done
      · next stopped => cases done; exact .exits stopped
      · next running =>
        have running : c.shared.queue.mStopped = false := by simpa using running
        rcases queue : c.shared.queue.mQueue with _ | ⟨fn, rest⟩
        · have next : c.shared.queue.next = none := by simp [CWorkQueue.next, queue]
          simp only [next] at done
          cases done
          exact .sleeps running queue
        · have next : c.shared.queue.next = some (fn, { c.shared.queue with mQueue := rest }) := by
            simp [CWorkQueue.next, running, queue]
          simp only [next] at done
          cases done
          exact .pops running queue
  | unlock => cases done; exact .unlocks
  | asleep =>
    simp only [perform] at done
    split at done
    · cases done
    · next notified => cases done; exact .wakes (by simpa using notified)
  | notify => cases done; exact .notifies
  | call fn => cases done; exact .calls
  | body fn => cases choice <;> cases done <;> constructor
  | join =>
    simp only [perform] at done
    split at done
    · next other =>
      simp only [Bool.and_eq_true, Bool.not_eq_true'] at other
      split at done
      · next w thread =>
        split at done
        · next gone => cases done; exact .leaves fun _ => .inr ⟨w, thread, gone⟩
        · cases done
      · cases done
    · next own =>
      cases done
      exact .leaves fun joinable => .inl (by simpa [joinable] using own)

/-! ## Stacks -/

/-- **A call goes on as a call.** -/
theorem Calls.performs (calls : Calls (p :: rest)) (performs : Performs c i choice p s' outs) : Calls (outs ++ rest) := by
  cases calls with
  | enters other =>
    cases performs
    exact .locked other
  | locked other =>
    cases performs with
    | discards stopped | again stopped => exact .unlocks
    | accepts running => exact .posted
    | stops running => exact .stopped
    | exits stopped | pops running queue | sleeps running queue => exact absurd rfl other
  | unlocks => cases performs; exact .done
  | posted => cases performs; exact .notifies
  | notifies => cases performs; exact .done
  | stopped => cases performs; exact .stops
  | stops => cases performs; exact .joins
  | joins => cases performs; exact .done

/-- **The worker goes on in its loop.** -/
theorem Loop.performs (loop : Loop (p :: rest)) (performs : Performs c i choice p s' outs) : Loop (outs ++ rest) := by
  generalize whole : p :: rest = todo at loop
  cases loop with
  | enters => cases whole; cases performs; exact .locked
  | locked =>
    cases whole
    cases performs with
    | exits stopped => exact .exits
    | pops running queue => exact .pops
    | sleeps running queue => exact .asleep
  | asleep => cases whole; cases performs; exact .enters
  | pops => cases whole; cases performs; exact .calls
  | calls => cases whole; cases performs; exact .body .done
  | @body fn above inside =>
    cases above with
    | nil =>
      cases whole
      cases performs with
      | @posts _ next => exact @Loop.body F fn [.enter (.post next)] (.enters fun h => nomatch h)
      | stopsInside => exact @Loop.body F fn [.enter .stop] (.enters fun h => nomatch h)
      | returns => exact .enters
    | cons q above =>
      cases whole
      have next := @Loop.body F fn _ (inside.performs performs)
      rwa [List.append_assoc] at next
  | exits => cases whole; cases performs; exact .gone
  | gone => cases whole

/-- What stays below a piece that only the worker has. -/
theorem Loop.base (loop : Loop (p :: rest)) (only : ∀ above : List (Piece F), ¬ Calls (p :: above)) : rest = p.base := by
  generalize whole : p :: rest = todo at loop
  cases loop with
  | @body fn above inside =>
    cases above with
    | nil => cases whole; rfl
    | cons q above => cases whole; exact absurd inside (only above)
  | pops | exits => cases whole; exact absurd .unlocks (only [])
  | gone => cases whole
  | _ => cases whole; rfl

/-- Every thread but the worker only calls. -/
structure Shaped (c : Threads F) : Prop where
  worker : ∀ w, c.shared.mThread = some w → w < c.tasks.length ∧ Loop (stack c w)
  others : ∀ i, c.shared.mThread ≠ some i → Calls (stack c i)

theorem stack_task (found : c.tasks[i]? = some ⟨(), rest⟩) : stack c i = rest := by
  rw [stack, found]
  rfl

theorem stack_ran (ran : Tasks.Ran (perform choice) c i c' () p rest outs) (j : Nat) :
    stack c' j = if i = j then outs ++ rest else stack c j := by
  rw [stack, ran.lookup]
  split <;> rfl

theorem stack_spawn (c : Threads F) (s' : WorkMonitor F) (todo : List (Piece F)) (j : Nat) :
    stack (Tasks.spawn { c with shared := s' } () todo) j = if c.tasks.length = j then todo else stack c j := by
  simp only [stack, Tasks.spawn, List.getElem?_append]
  split
  · next lt => rw [if_neg (by omega)]
  · next le =>
    split
    · next same => simp [← same]
    · next other =>
      rw [List.getElem?_eq_none (by simp; omega), List.getElem?_eq_none (by omega)]

/-- The worker's thread stays. -/
theorem Performs.mThread (performs : Performs c i choice p s' outs) : s'.mThread = c.shared.mThread := by
  cases performs <;> rfl

/-- **Every step keeps the shapes.** -/
theorem Shaped.step (shaped : Shaped c) (step : step c l = some c') : Shaped c' := by
  obtain ⟨worker, others⟩ := shaped
  -- a thread of the application calls
  have calls : ∀ todo : List (Piece F), Calls todo → Shaped (c.spawn () todo) := by
    intro todo calls
    have after := stack_spawn c c.shared todo
    refine ⟨fun w thread => ?_, fun i other => ?_⟩
    · obtain ⟨lt, loop⟩ := worker w thread
      refine ⟨by simp [Tasks.spawn]; omega, ?_⟩
      rw [after, if_neg (by omega)]
      exact loop
    · rw [after]
      split
      · exact calls
      · exact others i other
  cases l with
  | start =>
    simp only [WorkMonitor.step] at step
    split at step
    · next none =>
      cases step
      have after := stack_spawn c { c.shared with mThread := some c.tasks.length, joinable := true } [.enter .run]
      refine ⟨fun w thread => ?_, fun i other => ?_⟩
      · cases thread
        refine ⟨by simp [Tasks.spawn], ?_⟩
        rw [after, if_pos rfl]
        exact .enters
      · rw [after]
        split
        · next same => exact absurd (congrArg some same) other
        · exact others i (by simp [none])
    · cases step
  | post fn => cases step; exact calls _ (.enters (by simp))
  | stop => cases step; exact calls _ (.enters (by simp))
  | run i choice =>
    obtain ⟨⟨⟩, p, rest, outs, ran⟩ := Tasks.run_inv step
    have performs := perform_performs ran.action
    have here : stack c i = p :: rest := stack_task ran.task
    refine ⟨fun w thread => ?_, fun j other => ?_⟩
    · rw [performs.mThread] at thread
      obtain ⟨lt, loop⟩ := worker w thread
      refine ⟨by rw [ran.after, List.length_set]; exact lt, ?_⟩
      rw [stack_ran ran]
      split
      · next same =>
        subst same
        rw [here] at loop
        exact loop.performs performs
      · exact loop
    · rw [performs.mThread] at other
      rw [stack_ran ran]
      split
      · next same =>
        subst same
        have calls := others i other
        rw [here] at calls
        exact calls.performs performs
      · exact others j other
  | spurious =>
    simp only [WorkMonitor.step] at step
    split at step
    · cases step; exact ⟨worker, others⟩
    · cases step

/-- Only the worker runs the loop. -/
theorem Shaped.own (shaped : Shaped c) (here : stack c i = p :: rest) (loop : ∀ above : List (Piece F), ¬ Calls (p :: above)) :
    c.shared.mThread = some i ∧ Loop (p :: rest) := by
  by_contra other
  by_cases own : c.shared.mThread = some i
  · have := (shaped.worker i own).2
    rw [here] at this
    exact other ⟨own, this⟩
  · have calls := shaped.others i own
    rw [here] at calls
    exact loop rest calls

/-! ## The `Stop` that waits -/

/-- At most one `Stop` has the worker to wait for, and finds it joinable if it was started. -/
structure Joining (c : Threads F) : Prop where
  joins : ∀ i, .join ∈ stack c i ↔ c.shared.stopping = some i
  joinable : c.shared.stopping.isSome = true ∨ c.shared.queue.mStopped = false → c.shared.joinable = c.shared.mThread.isSome
  stopped : c.shared.stopping.isSome = true → c.shared.queue.mStopped = true

/-- What a piece does to it. -/
inductive Stops (c : Threads F) (i : Nat) : Piece F → WorkMonitor F → List (Piece F) → Prop
  | sets {s' : WorkMonitor F} (running : c.shared.queue.mStopped = false) (mStopped : s'.queue.mStopped = true) (stopping : s'.stopping = some i)
      (joinable : s'.joinable = c.shared.joinable) : Stops c i (.locked .stop) s' [.unlock, .notify, .join]
  | leaves {s' : WorkMonitor F} (mStopped : s'.queue.mStopped = c.shared.queue.mStopped) (stopping : s'.stopping = none) : Stops c i .join s' []
  | aside {p : Piece F} {s' : WorkMonitor F} {outs : List (Piece F)} (other : p ≠ .join) (none : .join ∉ outs) (mStopped : s'.queue.mStopped = c.shared.queue.mStopped)
      (stopping : s'.stopping = c.shared.stopping) (joinable : s'.joinable = c.shared.joinable) : Stops c i p s' outs

theorem Performs.stopping (performs : Performs c i choice p s' outs) : Stops c i p s' outs := by
  cases performs with
  | stops running => exact .sets running rfl rfl rfl
  | leaves may => exact .leaves rfl rfl
  | @accepts _ fn running =>
    refine .aside (by simp) (by simp) ?_ rfl rfl
    simp [record, CWorkQueue.post, running]
  | _ => exact .aside (by simp) (by simp) rfl rfl rfl

/-- What stays below a piece that waits for the worker, or that sets `mStopped`, does not wait for it. -/
theorem Shaped.below (shaped : Shaped c) (here : stack c i = p :: rest) (stop : p = .join ∨ p = .locked .stop) : .join ∉ rest := by
  have calls : ∀ above : List (Piece F), Calls (p :: above) → .join ∉ above := by
    intro above calls
    obtain rfl | rfl := stop <;> cases calls <;> exact List.not_mem_nil
  by_cases own : c.shared.mThread = some i
  · have loop := (shaped.worker i own).2
    rw [here] at loop
    generalize whole : p :: rest = todo at loop
    cases loop with
    | @body fn above inside =>
      cases above with
      | nil => obtain rfl | rfl := stop <;> cases whole
      | cons q above =>
        cases whole
        intro mem
        rcases List.mem_append.1 mem with mem | mem
        · exact calls above inside mem
        · simp at mem
    | _ => obtain rfl | rfl := stop <;> cases whole
  · have := shaped.others i own
    rw [here] at this
    exact calls rest this

theorem Joining.ran (joining : Joining c) (shaped : Shaped c) (ran : Tasks.Ran (perform choice) c i c' () p rest outs) :
    Joining c' := by
  obtain ⟨joins, joinable, stopped⟩ := joining
  have performs := perform_performs ran.action
  have thread := performs.mThread
  have here : stack c i = p :: rest := stack_task ran.task
  have after := stack_ran ran
  cases performs.stopping with
  | sets running mStopped stopping same =>
    have none : c.shared.stopping = none := by
      by_contra some
      rw [stopped (by simpa [Option.isSome_iff_ne_none] using some)] at running
      cases running
    refine ⟨fun j => ?_, fun _ => ?_, fun _ => mStopped⟩
    · rw [after, stopping]
      split
      · next eq => simp [eq]
      · next other =>
        rw [joins, none]
        simp [other]
    · rw [same, thread, joinable (.inr running)]
  | leaves mStopped stopping =>
    have mine : c.shared.stopping = some i := (joins i).1 (by rw [here]; exact List.mem_cons_self)
    refine ⟨fun j => ?_, fun h => ?_, fun h => ?_⟩
    · rw [after, stopping]
      split
      · exact ⟨fun mem => absurd mem (shaped.below here (.inl rfl)), fun h => nomatch h⟩
      · next other =>
        rw [joins, mine]
        simp [other]
    · rw [stopping, mStopped, stopped (by rw [mine]; rfl)] at h
      simp at h
    · rw [stopping] at h
      cases h
  | aside other none mStopped stopping same =>
    refine ⟨fun j => ?_, fun h => ?_, fun h => ?_⟩
    · rw [after, stopping, ← joins]
      split
      · next eq =>
        subst eq
        rw [here, List.mem_append, List.mem_cons]
        simp [none, other.symm]
      · rfl
    · rw [stopping, mStopped] at h
      rw [same, thread, joinable h]
    · rw [stopping] at h
      rw [mStopped, stopped h]

/-- **Every step keeps it.** -/
theorem Joining.step (joining : Joining c) (shaped : Shaped c) (step : step c l = some c') : Joining c' := by
  have calls : ∀ (s' : WorkMonitor F) (todo : List (Piece F)), .join ∉ todo → s'.stopping = c.shared.stopping →
      ∀ j, .join ∈ stack (Tasks.spawn { c with shared := s' } () todo) j ↔ s'.stopping = some j := by
    intro s' todo none same j
    rw [stack_spawn, same, ← joining.joins]
    split
    · next eq =>
      subst eq
      simp [none, stack]
    · rfl
  cases l with
  | start =>
    simp only [WorkMonitor.step] at step
    split at step
    · cases step
      exact ⟨calls _ _ (by simp) rfl, fun _ => rfl, joining.stopped⟩
    · cases step
  | post fn | stop => cases step; exact ⟨calls c.shared _ (by simp) rfl, joining.joinable, joining.stopped⟩
  | run i choice =>
    obtain ⟨⟨⟩, p, rest, outs, ran⟩ := Tasks.run_inv step
    exact joining.ran shaped ran
  | spurious =>
    simp only [WorkMonitor.step] at step
    split at step
    · cases step; exact ⟨joining.joins, joining.joinable, joining.stopped⟩
    · cases step

/-! ## The coarser run -/

theorem lt_of_stack (here : stack c i = p :: rest) : i < c.tasks.length := by
  by_contra out
  rw [stack, List.getElem?_eq_none (by omega)] at here
  cases here

theorem worker_own (own : c.shared.mThread = some i) : worker c = workerOf (stack c i) := by
  simp only [worker, own]

/-- The worker after a thread moved. -/
theorem worker_ran (ran : Tasks.Ran (perform choice) c i c' () p rest outs) :
    worker c' = if c.shared.mThread = some i then workerOf (outs ++ rest) else worker c := by
  simp only [worker, (perform_performs ran.action).mThread]
  split
  · next none => rw [if_neg (by simp [none])]
  · next w thread =>
    rw [stack_ran ran]
    by_cases same : i = w
    · rw [if_pos same, if_pos (by rw [thread, same])]
    · rw [if_neg same, if_neg (by simp [thread, Ne.symm same])]

/-- A call of the worker's own is made by a function that runs. -/
theorem Shaped.executing (shaped : Shaped c) (here : stack c i = p :: rest) (own : c.shared.mThread = some i)
    (call : p = .locked .stop ∨ p = .join) : ∃ fn, WorkMonitor.worker c = .executing fn := by
  have loop := (shaped.worker i own).2
  rw [worker_own own]
  rw [here] at loop ⊢
  generalize whole : p :: rest = todo at loop ⊢
  cases loop with
  | @body fn above inside =>
    refine ⟨fn, ?_⟩
    cases inside with
    | enters other =>
      obtain rfl | rfl := call <;> cases whole
    | @locked sec other =>
      cases sec with
      | run => exact absurd rfl other
      | post _ | stop => rfl
    | _ => rfl
  | _ => obtain rfl | rfl := call <;> cases whole

/-- The thread that a `Stop` outside waits for has left `Run`, or was never there. -/
theorem Joining.gone (joining : Joining c) (here : stack c i = .join :: rest) (other : c.shared.mThread ≠ some i)
    (may : c.shared.joinable = true → c.shared.mThread = some i ∨ ∃ w, c.shared.mThread = some w ∧ c.finished w) :
    worker c = .notStarted ∨ worker c = .exited := by
  have mine : c.shared.stopping = some i := (joining.joins i).1 (by rw [here]; exact List.mem_cons_self)
  have joinable := joining.joinable (.inl (by rw [mine]; rfl))
  rcases thread : c.shared.mThread with _ | w
  · exact .inl (by simp only [worker, thread])
  · obtain own | ⟨v, same, gone⟩ := may (by rw [joinable, thread]; rfl)
    · exact absurd own other
    · cases thread.symm.trans same
      refine .inr ?_
      have none : stack c w = [] := by
        rw [stack]
        rcases found : c.tasks[w]? with _ | t
        · rfl
        · exact gone t found
      rw [worker_own thread, none]
      rfl

theorem stop_of_executing {t : WorkThread F} {onWorker : Bool} (may : onWorker = true → ∃ fn, t.worker = .executing fn) :
    t.stop onWorker = if t.queue.mStopped then some t
      else some (WorkThread.record { t with queue := t.queue.stop, stopping := some onWorker } .stopped) := by
  cases onWorker with
  | false => rfl
  | true =>
    obtain ⟨fn, executing⟩ := may rfl
    simp only [WorkThread.stop, executing]

/-- **A piece does what is seen of it.** -/
theorem ran_matched (shaped : Shaped c) (joining : Joining c) (ran : Tasks.Ran (perform choice) c i c' () p rest outs) :
    (WorkThread.system F).exec (abs c) (seen c.shared i choice p).toList = some (abs c') := by
  have performs := perform_performs ran.action
  have here : stack c i = p :: rest := stack_task ran.task
  have after := worker_ran ran
  -- a piece after which the worker is where it was
  have stays : (c.shared.mThread = some i → workerOf (outs ++ rest) = workerOf (p :: rest)) → worker c' = worker c := by
    intro same
    rw [after]
    split
    · next own => rw [same own, worker_own own, here]
    · rfl
  have own : (∀ above : List (Piece F), ¬ Calls (p :: above)) → c.shared.mThread = some i ∧
      worker c = workerOf (p :: rest) ∧ worker c' = workerOf (outs ++ rest) ∧ Loop (p :: rest) := by
    intro only
    obtain ⟨mine, loop⟩ := shaped.own here only
    exact ⟨mine, by rw [worker_own mine, here], by rw [after, if_pos mine], loop⟩
  simp only [abs]
  generalize c'.shared = s' at performs ⊢
  cases performs with
  | @enters _ sec free =>
    rw [stays fun _ => by cases sec <;> rfl]
    rfl
  | @discards _ fn stopped =>
    rw [stays fun _ => rfl]
    simp [seen, System.exec, WorkThread.system, WorkThread.step, WorkThread.post, WorkThread.record, view, record, stopped,
      CWorkQueue.post]
  | @accepts _ fn running =>
    rw [stays fun _ => rfl]
    simp [seen, System.exec, WorkThread.system, WorkThread.step, WorkThread.post, WorkThread.record, view, record, running]
  | again stopped =>
    have inside : (c.shared.mThread == some i) = true → ∃ fn, (c.shared.view (worker c)).worker = .executing fn :=
      fun own => shaped.executing here (by simpa using own) (.inl rfl)
    rw [stays fun _ => rfl]
    simp only [seen, Option.toList_some, System.exec, WorkThread.system, WorkThread.step, stop_of_executing inside]
    simp [view, stopped]
  | stops running =>
    have inside : (c.shared.mThread == some i) = true → ∃ fn, (c.shared.view (worker c)).worker = .executing fn :=
      fun own => shaped.executing here (by simpa using own) (.inl rfl)
    rw [stays fun _ => rfl]
    simp only [seen, Option.toList_some, System.exec, WorkThread.system, WorkThread.step, stop_of_executing inside]
    simp [view, running, record, WorkThread.record]
  | exits stopped =>
    have only : ∀ above : List (Piece F), ¬ Calls (.locked .run :: above) := fun _ calls => by
      cases calls
      contradiction
    obtain ⟨-, before, after, loop⟩ := own only
    obtain rfl : rest = [] := loop.base only
    rw [before, after]
    simp [seen, System.exec, WorkThread.system, WorkThread.step, WorkThread.take, view, workerOf, stopped]
  | pops running queue =>
    have only : ∀ above : List (Piece F), ¬ Calls (.locked .run :: above) := fun _ calls => by
      cases calls
      contradiction
    obtain ⟨-, before, after, loop⟩ := own only
    rw [before, after]
    simp [seen, System.exec, WorkThread.system, WorkThread.step, WorkThread.take, view, workerOf, running, queue, CWorkQueue.next]
  | sleeps running queue =>
    rw [stays fun _ => rfl]
    simp [seen, running, queue, System.exec, view]
  | unlocks | notifies | wakes notified | posts | stopsInside =>
    rw [stays fun _ => rfl]
    rfl
  | calls =>
    obtain ⟨-, before, after, -⟩ := own (by rintro _ ⟨⟩)
    rw [before, after]
    rfl
  | @returns fn =>
    obtain ⟨mine, before, after, loop⟩ := own (by rintro _ ⟨⟩)
    obtain rfl : rest = [.enter .run] := loop.base (by rintro _ ⟨⟩)
    rw [before, after]
    -- its own call of `Stop` has returned
    have none : ∀ k, c.shared.stopping = some k → (c.shared.mThread == some k) = false := by
      intro k stopping
      by_contra same
      have eq : c.shared.mThread = some k := by simpa using same
      cases mine.symm.trans eq
      have mem := (joining.joins i).2 stopping
      rw [here] at mem
      simp at mem
    rcases stopping : c.shared.stopping with _ | k
    · simp [seen, System.exec, WorkThread.system, WorkThread.step, WorkThread.finish, view, workerOf, record, WorkThread.record,
        stopping]
    · simp [seen, System.exec, WorkThread.system, WorkThread.step, WorkThread.finish, view, workerOf, record, WorkThread.record,
        stopping, none k stopping]
  | leaves may =>
    have mine : c.shared.stopping = some i := (joining.joins i).1 (by rw [here]; exact List.mem_cons_self)
    rw [stays fun _ => rfl]
    by_cases same : c.shared.mThread = some i
    · simp [seen, System.exec, WorkThread.system, WorkThread.step, WorkThread.leave, view, record, WorkThread.record, mine, same]
    · have other : (c.shared.mThread == some i) = false := by simpa using same
      obtain gone | gone := joining.gone here same may <;>
        simp [seen, System.exec, WorkThread.system, WorkThread.step, WorkThread.leave, view, record, WorkThread.record, mine,
          other, gone]

theorem worker_spawn (shaped : Shaped c) (todo : List (Piece F)) : worker (c.spawn () todo) = worker c := by
  have after := stack_spawn c c.shared todo
  simp only [worker]
  rw [show (c.spawn () todo).shared = c.shared from rfl]
  split
  · rfl
  · next w thread =>
    have lt := (shaped.worker w thread).1
    have other := after w
    rw [if_neg (by omega)] at other
    exact congrArg workerOf other

/-- **A step is what is seen of it.** -/
theorem see_matched (shaped : Shaped c) (joining : Joining c) (step : step c l = some c') :
    (WorkThread.system F).exec (abs c) (see c l).toList = some (abs c') := by
  cases l with
  | start =>
    simp only [WorkMonitor.step] at step
    split at step
    · next thread =>
      cases step
      have after := stack_spawn c { c.shared with mThread := some c.tasks.length, joinable := true } [.enter .run] c.tasks.length
      rw [if_pos rfl] at after
      have idle : (abs c).worker = .notStarted := by simp only [abs, view, worker, thread]
      have started : (abs c).start = some { abs c with worker := .waiting } := by simp only [WorkThread.start, idle]
      -- a `Stop` that has not returned is on another thread
      have stopping : (c.shared.stopping.map fun k => some c.tasks.length == some k) = (abs c).stopping := by
        simp only [abs, view, thread]
        rcases stopping : c.shared.stopping with _ | k
        · rfl
        · have mem := (joining.joins k).2 stopping
          rcases here : stack c k with _ | ⟨q, below⟩
          · rw [here] at mem
            cases mem
          · have lt := lt_of_stack here
            have other : c.tasks.length ≠ k := by omega
            simp [other]
      have same : abs (Tasks.spawn { c with shared := { c.shared with mThread := some c.tasks.length, joinable := true } }
          () [.enter .run]) = { abs c with worker := .waiting } := by
        have fresh : worker (Tasks.spawn { c with shared := { c.shared with mThread := some c.tasks.length, joinable := true } }
            () [.enter .run]) = .waiting := congrArg workerOf after
        simp only [abs, view, fresh] at stopping ⊢
        simp only [Tasks.spawn, stopping]
      simp only [see, Option.toList_some, System.exec, WorkThread.system, WorkThread.step, started, same]
    · cases step
  | post fn | stop =>
    cases step
    simp only [see, Option.toList_none, System.exec, abs, worker_spawn shaped]
    rfl
  | run i choice =>
    obtain ⟨⟨⟩, p, rest, outs, ran⟩ := Tasks.run_inv step
    have matched := ran_matched shaped joining ran
    simpa only [see, stack_task ran.task, List.head?_cons, Option.bind_some] using matched
  | spurious =>
    simp only [WorkMonitor.step] at step
    split at step
    · cases step; rfl
    · cases step

theorem create_shaped : Shaped (create F) := ⟨(fun _ thread => nomatch thread), fun _ _ => .done⟩

theorem create_joining : Joining (create F) :=
  ⟨fun _ => ⟨fun mem => absurd mem List.not_mem_nil, (fun h => nomatch h)⟩, fun _ => rfl, (fun h => nomatch h)⟩

/-- **The condition does what `WorkThread` says.** A run, with its waits, wake-ups and notifications, is one in which
critical sections are atomic and the worker sleeps for as long as there is nothing to do. -/
theorem monitor_refines (run : (system F).exec (create F) ls = some c) :
    (WorkThread.system F).exec {} ((system F).collect see (create F) ls) = some (abs c) ∧ (abs c).Reliable := by
  have coarse : (WorkThread.system F).exec (abs (create F)) ((system F).collect see (create F) ls) = some (abs c) :=
    System.exec_collect (fun c => Shaped c ∧ Joining c) ⟨create_shaped, create_joining⟩
      (fun _ _ _ inv _ step => ⟨inv.1.step step, inv.2.step inv.1 step⟩) (fun _ _ _ inv _ step => see_matched inv.1 inv.2 step)
      run System.along_true
  exact ⟨coarse, WorkThread.run_reliable coarse⟩

/-! ## No notification is lost -/

/-- A worker that blocks has nothing to do, or is about to be notified. -/
structure Notified (c : Threads F) : Prop where
  asleep : c.shared.waiting = true → ∃ w, c.shared.mThread = some w ∧ stack c w = [.asleep]
  due : c.shared.waiting = true → c.shared.queue.mStopped = false ∧ c.shared.queue.mQueue = [] ∨ ∃ i, .notify ∈ stack c i

/-- What a piece does to it. -/
inductive Notification (c : Threads F) : Piece F → WorkMonitor F → List (Piece F) → Prop
  | sleeps {s' : WorkMonitor F} (running : s'.queue.mStopped = false) (queue : s'.queue.mQueue = []) :
      Notification c (.locked .run) s' [.asleep]
  | notifies {p : Piece F} {s' : WorkMonitor F} {outs : List (Piece F)} (waiting : s'.waiting = c.shared.waiting)
      (mem : .notify ∈ outs) (other : p ≠ .asleep) : Notification c p s' outs
  | wakes {p : Piece F} {s' : WorkMonitor F} {outs : List (Piece F)} (awake : s'.waiting = false) : Notification c p s' outs
  | pops {s' : WorkMonitor F} {outs : List (Piece F)} (waiting : s'.waiting = c.shared.waiting) : Notification c (.locked .run) s' outs
  | aside {p : Piece F} {s' : WorkMonitor F} {outs : List (Piece F)} (waiting : s'.waiting = c.shared.waiting)
      (queue : s'.queue = c.shared.queue) (other : p ≠ .asleep) (still : p ≠ .notify) : Notification c p s' outs

theorem Performs.notification (performs : Performs c i choice p s' outs) : Notification c p s' outs := by
  cases performs with
  | accepts running | stops running => exact .notifies rfl (by simp) (fun h => nomatch h)
  | exits stopped | pops running queue => exact .pops rfl
  | sleeps running queue => exact .sleeps running queue
  | wakes notified => exact .wakes notified
  | notifies => exact .wakes rfl
  | _ => exact .aside rfl rfl (fun h => nomatch h) (fun h => nomatch h)

theorem Notified.ran (notified : Notified c) (shaped : Shaped c) (ran : Tasks.Ran (perform choice) c i c' () p rest outs) :
    Notified c' := by
  obtain ⟨asleep, due⟩ := notified
  have performs := perform_performs ran.action
  have thread := performs.mThread
  have here : stack c i = p :: rest := stack_task ran.task
  have after := stack_ran ran
  -- the worker sleeps on while another thread moves
  have sleeps : p ≠ .asleep → c.shared.waiting = true → ∃ w, c'.shared.mThread = some w ∧ stack c' w = [.asleep] := by
    intro other waiting
    obtain ⟨w, same, sleeping⟩ := asleep waiting
    refine ⟨w, thread.trans same, ?_⟩
    rw [after]
    split
    · next eq =>
      subst eq
      cases here.symm.trans sleeping
      exact absurd rfl other
    · exact sleeping
  have only : ∀ above : List (Piece F), ¬ Calls (.locked .run :: above) := fun _ calls => by
    cases calls
    contradiction
  cases performs.notification with
  | sleeps running queue =>
    obtain ⟨mine, loop⟩ := shaped.own here only
    obtain rfl : rest = [] := loop.base only
    exact ⟨fun _ => ⟨i, thread.trans mine, by rw [after, if_pos rfl]; rfl⟩, fun _ => .inl ⟨running, queue⟩⟩
  | notifies waiting mem other =>
    refine ⟨fun h => sleeps other (waiting ▸ h), fun _ => .inr ⟨i, ?_⟩⟩
    rw [after, if_pos rfl]
    exact List.mem_append_left _ mem
  | wakes awake =>
    refine ⟨fun h => ?_, fun h => ?_⟩ <;>
    · rw [awake] at h
      cases h
  | pops waiting =>
    -- the worker is at its section, so it does not sleep
    have awake : c.shared.waiting = true → False := by
      intro waiting
      obtain ⟨w, same, sleeping⟩ := asleep waiting
      obtain ⟨mine, -⟩ := shaped.own here only
      cases mine.symm.trans same
      cases here.symm.trans sleeping
    exact ⟨fun h => (awake (waiting ▸ h)).elim, fun h => (awake (waiting ▸ h)).elim⟩
  | aside waiting queue other still =>
    refine ⟨fun h => sleeps other (waiting ▸ h), fun h => ?_⟩
    rw [queue]
    refine (due (waiting ▸ h)).imp id fun ⟨j, mem⟩ => ⟨j, ?_⟩
    rw [after]
    split
    · next eq =>
      subst eq
      rw [here] at mem
      rcases List.mem_cons.1 mem with same | mem
      · exact absurd same.symm still
      · exact List.mem_append_right _ mem
    · exact mem

/-- **Every step keeps it.** -/
theorem Notified.step (notified : Notified c) (shaped : Shaped c) (step : step c l = some c') : Notified c' := by
  have kept : ∀ (s' : WorkMonitor F) (todo : List (Piece F)), s'.waiting = c.shared.waiting → s'.queue = c.shared.queue →
      (c.shared.waiting = true → s'.mThread = c.shared.mThread) → Notified (Tasks.spawn { c with shared := s' } () todo) := by
    intro s' todo waiting queue thread
    have after := stack_spawn c s' todo
    have old : ∀ {j q}, q ∈ stack c j → c.tasks.length ≠ j := by
      intro j q mem
      rcases here : stack c j with _ | ⟨r, below⟩
      · rw [here] at mem
        cases mem
      · have := lt_of_stack here
        omega
    refine ⟨fun h => ?_, fun h => ?_⟩
    · have h : c.shared.waiting = true := waiting ▸ h
      obtain ⟨w, same, sleeping⟩ := notified.asleep h
      refine ⟨w, (thread h).trans same, ?_⟩
      rw [after, if_neg (old (q := .asleep) (by rw [sleeping]; exact List.mem_cons_self)), sleeping]
    · have h : c.shared.waiting = true := waiting ▸ h
      refine (notified.due h).imp (fun idle => ?_) fun ⟨j, mem⟩ => ⟨j, ?_⟩
      · exact ⟨(congrArg CWorkQueue.mStopped queue).trans idle.1, (congrArg CWorkQueue.mQueue queue).trans idle.2⟩
      · rw [after, if_neg (old mem)]
        exact mem
  cases l with
  | start =>
    simp only [WorkMonitor.step] at step
    split at step
    · next none =>
      cases step
      refine kept _ _ rfl rfl fun h => ?_
      obtain ⟨w, same, -⟩ := notified.asleep h
      cases none.symm.trans same
    · cases step
  | post fn | stop => cases step; exact kept c.shared _ rfl rfl fun _ => rfl
  | run i choice =>
    obtain ⟨⟨⟩, p, rest, outs, ran⟩ := Tasks.run_inv step
    exact notified.ran shaped ran
  | spurious =>
    simp only [WorkMonitor.step] at step
    split at step
    · cases step; exact ⟨(fun h => nomatch h), (fun h => nomatch h)⟩
    · cases step

/-! ## What is posted runs -/

/-- A thread goes on; a function that runs returns. -/
def Winds (_ : Threads F) (l : Label F) : Prop := ∃ i, l = .run i .returns

/-- Every call has returned, and the worker has run all that was accepted or has left. -/
inductive Settled (c : Threads F) : Prop
  | served (running : c.shared.queue.mStopped = false) (returned : ∀ i, c.shared.mThread ≠ some i → c.finished i)
      (all : WorkThread.finished c.shared.log = WorkThread.accepted c.shared.log) : Settled c
  | left (stopped : c.shared.queue.mStopped = true) (returned : c.quiet) : Settled c

/-- What the next piece of a thread waits for, if it waits. -/
inductive Waits (c : Threads F) (i : Nat) : Piece F → Prop
  | mutex {sec : Section F} (held : 0 < c.count Piece.holds) : Waits c i (.enter sec)
  | condition (waiting : c.shared.waiting = true) : Waits c i .asleep
  | worker (joinable : c.shared.joinable = true) (other : c.shared.mThread ≠ some i)
      (busy : ∀ w, c.shared.mThread = some w → ¬ c.finished w) : Waits c i .join

def weight : Piece F → Nat
  | .enter (.post _) => 12
  | .locked (.post _) => 11
  | .enter .stop => 8
  | .locked .stop => 7
  | .asleep => 4
  | .notify => 4
  | .enter .run => 3
  | .locked .run => 2
  | .call _ => 2
  | .unlock => 1
  | .body _ => 1
  | .join => 1

/-- What the queue and the condition add; a worker that is awake looks at the queue again. -/
def owed (s : WorkMonitor F) : Nat := 5 * s.queue.mQueue.length + if s.waiting then 0 else 3

@[simp] theorem owed_record (s : WorkMonitor F) (e : WorkThread.Event F) : owed (s.record e) = owed s := rfl

/-- How many steps there may be still. -/
def rank (c : Threads F) : Nat := c.weigh weight + owed c.shared

/-- A piece makes less than it was. -/
theorem Performs.shrinks (performs : Performs c i .returns p s' outs) (awake : p = .locked .run → c.shared.waiting = false) :
    (outs.map weight).sum + owed s' < weight p + owed c.shared := by
  cases performs with
  | @enters _ sec free => cases sec <;> simp [weight]
  | accepts running =>
    simp [weight, owed, record, CWorkQueue.post, running]
    omega
  | stops running =>
    rcases waiting : c.shared.waiting <;> simp [weight, owed, record, CWorkQueue.stop, waiting] <;> omega
  | pops running queue =>
    simp [weight, owed, queue]
    omega
  | sleeps running queue =>
    simp [weight, owed, awake rfl]
    omega
  | notifies =>
    simp [weight, owed]
    split <;> omega
  | leaves may =>
    have same : owed { c.shared with joinable := false, stopping := none } = owed c.shared := rfl
    simp [weight, same]
  | _ => simp [weight]

theorem rank_step (shaped : Shaped c) (notified : Notified c) (winds : Winds c l) (step : step c l = some c') : rank c' < rank c := by
  obtain ⟨i, rfl⟩ := winds
  obtain ⟨⟨⟩, p, rest, outs, ran⟩ := Tasks.run_inv step
  have here : stack c i = p :: rest := stack_task ran.task
  have awake : p = .locked .run → c.shared.waiting = false := by
    rintro rfl
    by_contra waiting
    obtain ⟨w, same, sleeping⟩ := notified.asleep (by simpa using waiting)
    obtain ⟨mine, -⟩ := shaped.own here fun _ calls => by
      cases calls
      contradiction
    cases mine.symm.trans same
    cases here.symm.trans sleeping
  have weigh := ran.weigh weight
  have shrinks := (perform_performs ran.action).shrinks awake
  simp only [rank]
  omega

theorem perform_or_waits : (∃ r, perform .returns c i p = some r) ∨ Waits c i p := by
  cases p with
  | enter sec =>
    by_cases held : 0 < c.count Piece.holds
    · exact .inr (.mutex held)
    · exact .inl ⟨_, by simp only [perform]; rw [if_neg held]⟩
  | asleep =>
    by_cases waiting : c.shared.waiting = true
    · exact .inr (.condition waiting)
    · exact .inl ⟨_, by simp only [perform]; rw [if_neg waiting]⟩
  | join =>
    simp only [perform]
    by_cases other : (c.shared.joinable && !(c.shared.mThread == some i)) = true
    · rw [if_pos other]
      simp only [Bool.and_eq_true, Bool.not_eq_true', beq_eq_false_iff_ne] at other
      rcases thread : c.shared.mThread with _ | w
      · exact .inr (.worker other.1 other.2 (by simp [thread]))
      · by_cases gone : c.finished w
        · exact .inl ⟨_, by simp only; rw [if_pos gone]⟩
        · exact .inr (.worker other.1 other.2 fun v same => Option.some.inj (thread.symm.trans same) ▸ gone)
    · exact .inl ⟨_, by rw [if_neg other]⟩
  | locked sec | unlock | notify | call fn | body fn => exact .inl ⟨_, rfl⟩

theorem step_of_perform {r : WorkMonitor F × List (Piece F)} (here : stack c i = p :: rest)
    (done : perform .returns c i p = some r) : ∃ l b, Winds c l ∧ (system F).step c l = some b := by
  have lt := lt_of_stack here
  obtain ⟨todo, found⟩ : ∃ todo, c.tasks[i]? = some ⟨(), todo⟩ := ⟨_, List.getElem?_eq_getElem lt⟩
  rw [stack_task found] at here
  subst here
  refine ⟨.run i .returns, ⟨r.1, c.tasks.set i ⟨(), r.2 ++ rest⟩⟩, ⟨i, rfl⟩, ?_⟩
  simp only [system, WorkMonitor.step, Tasks.run, found, done]

/-- A thread with a piece of this kind goes on: the piece is on top, or below an unlock. -/
theorem Shaped.onTop (shaped : Shaped c) (mem : p ∈ stack c i) (kind : p.holds = true ∨ p = .notify) :
    ∃ q below, stack c i = q :: below ∧ ∀ j, ¬ Waits c j q := by
  have calls : ∀ todo : List (Piece F), Calls todo → p ∈ todo → ∃ q below, todo = q :: below ∧ ∀ j, ¬ Waits c j q := by
    intro todo calls mem
    cases calls with
    | done => cases mem
    | enters _ | joins => 
      cases List.mem_singleton.1 mem
      obtain h | h := kind <;> cases h
    | _ => exact ⟨_, _, rfl, fun j waits => nomatch waits⟩
  by_cases own : c.shared.mThread = some i
  · have loop := (shaped.worker i own).2
    generalize stack c i = todo at loop mem
    cases loop with
    | @body fn above inside =>
      rcases List.mem_append.1 mem with mem | mem
      · obtain ⟨q, below, rfl, free⟩ := calls above inside mem
        exact ⟨q, below ++ _, rfl, free⟩
      · simp only [List.mem_cons, List.not_mem_nil, or_false] at mem
        obtain rfl | rfl := mem <;> obtain h | h := kind <;> cases h
    | enters | asleep =>
      cases List.mem_singleton.1 mem
      obtain h | h := kind <;> cases h
    | gone => cases mem
    | _ => exact ⟨_, _, rfl, fun j waits => nomatch waits⟩
  · exact calls _ (shaped.others i own) mem

/-- A worker that has left was stopped. -/
def LeftStopped (t : WorkThread F) : Prop := t.worker = .exited → t.queue.mStopped = true

theorem step_leftStopped {t t' : WorkThread F} {l : WorkThread.Label F} (left : LeftStopped t) (step : WorkThread.step t l = some t') :
    LeftStopped t' := by
  intro exited
  cases WorkThread.step_steps step with
  | stop running => rfl
  | exit waiting stopped => exact stopped
  | again stopped => exact stopped
  | discard stopped => exact stopped
  | accept running => exact left exited
  | detach stopping | join stopping gone => exact left exited
  | _ => cases exited

/-- What holds in every run. -/
structure Sound (c : Threads F) : Prop where
  shaped : Shaped c
  joining : Joining c
  notified : Notified c
  inv : (abs c).Inv
  left : LeftStopped (abs c)

theorem create_sound : Sound (create F) :=
  ⟨create_shaped, create_joining, ⟨(fun h => nomatch h), (fun h => nomatch h)⟩, WorkThread.create_inv, fun h => nomatch h⟩

theorem Sound.step (sound : Sound c) (step : step c l = some c') : Sound c' := by
  obtain ⟨shaped, joining, notified, inv, left⟩ := sound
  have matched := see_matched shaped joining step
  exact ⟨shaped.step step, joining.step shaped step, notified.step shaped step,
    System.invariant WorkThread.Inv inv (fun _ _ _ inv step => WorkThread.step_inv step inv) matched,
    System.invariant LeftStopped left (fun _ _ _ left step => step_leftStopped left step) matched⟩

theorem run_sound (run : (system F).exec (create F) ls = some c) : Sound c :=
  System.invariant Sound create_sound (fun _ _ _ sound step => sound.step step) run

/-- **Where nothing goes on, all is done.** -/
theorem Sound.settled_or_step (sound : Sound c) (started : c.shared.mThread.isSome = true) :
    Settled c ∨ ∃ l b, Winds c l ∧ (system F).step c l = some b := by
  obtain ⟨shaped, joining, notified, inv, left⟩ := sound
  by_contra not
  obtain ⟨unsettled, none⟩ := not_or.1 not
  -- every thread that is not done waits
  have waits : ∀ i p rest, stack c i = p :: rest → Waits c i p := by
    intro i p rest here
    obtain ⟨r, done⟩ | waits := perform_or_waits (c := c) (i := i) (p := p)
    · exact absurd (step_of_perform here done) none
    · exact waits
  have notOnTop : ∀ i p, p ∈ stack c i → ¬ (p.holds = true ∨ p = .notify) := by
    intro i p mem kind
    obtain ⟨q, below, here, free⟩ := shaped.onTop mem kind
    exact free i (waits i q below here)
  have free : c.count Piece.holds = 0 := by
    refine Tasks.count_eq_zero.2 fun t mem q here => ?_
    obtain ⟨i, found⟩ := List.mem_iff_getElem?.1 mem
    by_contra holds
    refine notOnTop i q ?_ (.inl (by simpa using holds))
    rw [stack, found]
    exact here
  have finished : ∀ i, stack c i = [] → c.finished i := by
    intro i nothing t found
    rw [stack, found] at nothing
    exact nothing
  obtain ⟨w, thread⟩ := Option.isSome_iff_exists.1 started
  have loop := (shaped.worker w thread).2
  rcases here : stack c w with _ | ⟨p, rest⟩
  · -- the worker has left, and nobody waits for it
    have exited : worker c = .exited := by
      rw [worker_own thread, here]
      rfl
    refine unsettled (.left (left exited) fun t mem => ?_)
    obtain ⟨i, found⟩ := List.mem_iff_getElem?.1 mem
    rcases stuck : stack c i with _ | ⟨q, below⟩
    · exact finished i stuck t found
    · exfalso
      cases waits i q below stuck with
      | mutex held => omega
      | condition waiting =>
        obtain ⟨v, same, sleeping⟩ := notified.asleep waiting
        cases thread.symm.trans same
        rw [here] at sleeping
        cases sleeping
      | worker joinable other busy => exact busy w thread (finished w here)
  · -- the worker sleeps, so there is nothing to do
    have waiting : c.shared.waiting = true ∧ p = .asleep := by
      cases waits w p rest here with
      | mutex held => omega
      | condition waiting => exact ⟨waiting, rfl⟩
      | worker joinable other busy => exact absurd thread other
    obtain ⟨waiting, rfl⟩ := waiting
    obtain ⟨running, queue⟩ : c.shared.queue.mStopped = false ∧ c.shared.queue.mQueue = [] := by
      refine (notified.due waiting).resolve_right ?_
      rintro ⟨i, mem⟩
      exact notOnTop i _ mem (.inr rfl)
    refine unsettled (.served running (fun i other => ?_) ?_)
    · rcases stuck : stack c i with _ | ⟨q, below⟩
      · exact finished i stuck
      · exfalso
        cases waits i q below stuck with
        | mutex held => omega
        | condition _ =>
          have calls := shaped.others i other
          rw [stuck] at calls
          cases calls
        | worker joinable _ busy =>
          have stopping := (joining.joins i).1 (by rw [stuck]; exact List.mem_cons_self)
          have stopped := joining.stopped (by rw [stopping]; rfl)
          rw [running] at stopped
          cases stopped
    · have idle : (abs c).worker = .waiting := by
        rw [abs, view, worker_own thread, here]
        rfl
      have whole := inv.whole running
      have serial := inv.serial
      rw [idle] at whole serial
      simp only [abs, view, queue, WorkThread.Worker.toCall, WorkThread.Worker.running, List.append_nil] at whole serial
      exact serial.symm.trans whole

/-- The worker's thread stays, whatever is done. -/
theorem step_started (started : c.shared.mThread.isSome = true) (step : step c l = some c') : c'.shared.mThread.isSome = true := by
  cases l with
  | start =>
    simp only [WorkMonitor.step] at step
    split at step <;> cases step
    rfl
  | post fn | stop => cases step; exact started
  | run i choice =>
    obtain ⟨⟨⟩, p, rest, outs, ran⟩ := Tasks.run_inv step
    rw [(perform_performs ran.action).mThread]
    exact started
  | spurious =>
    simp only [WorkMonitor.step] at step
    split at step <;> cases step
    exact started

/-- **No notification is lost.** From any state of a run in which the worker was started, if no more is asked of the queue
and functions return, every `Post` and `Stop` returns, and what was accepted has run or the queue was stopped. -/
theorem functions_run (run : (system F).exec (create F) ls = some c) (started : c.shared.mThread.isSome = true) :
    (system F).Inevitable Winds Settled c :=
  System.inevitable_of_rank (fun c => Sound c ∧ c.shared.mThread.isSome = true) rank ⟨run_sound run, started⟩
    (fun _ _ _ inv _ step => ⟨inv.1.step step, step_started inv.2 step⟩)
    (fun _ _ _ inv winds step => rank_step inv.1.shaped inv.1.notified winds step)
    (fun _ inv => inv.1.settled_or_step inv.2)

/-- The worker sleeps; two functions are posted, and it wakes up by itself after the first is in the queue and before
anybody is notified. -/
def wokenEarly : List (Label Nat) :=
  [.start, .run 0 .returns, .run 0 .returns, .post 7, .run 1 .returns, .run 1 .returns, .spurious, .run 0 .returns, .post 8]

theorem functions_run_wokenEarly : ∃ c, (system Nat).exec (create Nat) wokenEarly = some c ∧ c.shared.mThread.isSome = true ∧
    (system Nat).Inevitable Winds Settled c :=
  ⟨_, System.exec_get (by decide), by decide, functions_run (System.exec_get (by decide)) (by decide)⟩

theorem monitor_refines_wokenEarly : ∃ c, (system Nat).exec (create Nat) wokenEarly = some c ∧
    (WorkThread.system Nat).exec {} ((system Nat).collect see (create Nat) wokenEarly) = some (abs c) ∧ (abs c).Reliable :=
  ⟨_, System.exec_get (by decide), monitor_refines (System.exec_get (by decide))⟩

end WorkMonitor

end Websockets
