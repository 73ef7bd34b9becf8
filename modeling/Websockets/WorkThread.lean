import Websockets.Lib.System
import Websockets.WorkQueue

/-!
# The worker of `CWorkQueue`

The loop of `Run` and the calls of `Post` and `Stop`, cut at the critical sections of `mMutex`. `Post` may be
called on any thread, also by the function that runs. The worker may be anywhere in its loop when `Stop`
sets `mStopped`; the call that does then joins the worker, or detaches it if it is made on the worker.
`log` records history.
-/

namespace Websockets

namespace WorkThread

/-- Where the worker is in `Run`. -/
inductive Worker (F : Type) where
  | notStarted
  | waiting
  /-- It has popped `fn` and not called it yet. -/
  | popped (fn : F)
  | executing (fn : F)
  | exited
  deriving DecidableEq

inductive Event (F : Type) where
  | accepted (fn : F)
  | discarded (fn : F)
  | started (fn : F)
  | finished (fn : F)
  /-- A `Stop` set `mStopped`. -/
  | stopped
  /-- That `Stop` returned. -/
  | returned (onWorker : Bool)
  deriving DecidableEq

end WorkThread

structure WorkThread (F : Type) where
  queue : CWorkQueue F := {}
  worker : WorkThread.Worker F := .notStarted
  /-- The `Stop` that set `mStopped` has not returned; whether it was called on the worker. -/
  stopping : Option Bool := none
  log : List (WorkThread.Event F) := []

namespace WorkThread

variable {F : Type}

def record (c : WorkThread F) (e : Event F) : WorkThread F := { c with log := c.log ++ [e] }

/-- `Start`. -/
def start (c : WorkThread F) : Option (WorkThread F) := match c.worker with
  | .notStarted => some { c with worker := .waiting }
  | _ => none

/-- The critical section of `Post`. -/
def post (c : WorkThread F) (fn : F) : WorkThread F :=
  record { c with queue := c.queue.post fn } (if c.queue.mStopped then .discarded fn else .accepted fn)

/-- The critical section of `Stop`. A function that runs may call it on the worker. -/
def stop (c : WorkThread F) (onWorker : Bool) : Option (WorkThread F) :=
  match onWorker, c.worker with
  | true, .executing _ | false, _ =>
    if c.queue.mStopped then some c
    else some (record { c with queue := c.queue.stop, stopping := some onWorker } .stopped)
  | _, _ => none

/-- The rest of `Stop`: the worker is joined if it was started, or detached. -/
def leave (c : WorkThread F) : Option (WorkThread F) :=
  match c.stopping, c.worker with
  | some true, _ => some (record { c with stopping := none } (.returned true))
  | some false, .notStarted | some false, .exited => some (record { c with stopping := none } (.returned false))
  | _, _ => none

/-- The critical section of `Run`. It waits while there is nothing to do. -/
def take (c : WorkThread F) : Option (WorkThread F) := match c.worker with
  | .waiting =>
    if c.queue.mStopped then some { c with worker := .exited }
    else c.queue.next.map fun r => { c with queue := r.2, worker := .popped r.1 }
  | _ => none

/-- `fn()` begins. -/
def call (c : WorkThread F) : Option (WorkThread F) := match c.worker with
  | .popped fn => some (record { c with worker := .executing fn } (.started fn))
  | _ => none

/-- `fn()` returns, which it does not while its own call of `Stop` has not returned. -/
def finish (c : WorkThread F) : Option (WorkThread F) := match c.worker, c.stopping with
  | .executing _, some true => none
  | .executing fn, _ => some (record { c with worker := .waiting } (.finished fn))
  | _, _ => none

inductive Label (F : Type) where
  | start
  | post (fn : F)
  | stop (onWorker : Bool)
  | leave
  | take
  | call
  | finish

def step (c : WorkThread F) : Label F → Option (WorkThread F)
  | .start => c.start
  | .post fn => some (c.post fn)
  | .stop onWorker => c.stop onWorker
  | .leave => c.leave
  | .take => c.take
  | .call => c.call
  | .finish => c.finish

/-- Every interleaving of the worker and of the calls of `Post` and `Stop`. -/
def system (F : Type) : Lib.System (WorkThread F) (Label F) := ⟨step⟩

def accepted (log : List (Event F)) : List F :=
  log.filterMap fun
    | .accepted fn => some fn
    | _ => none

def started (log : List (Event F)) : List F :=
  log.filterMap fun
    | .started fn => some fn
    | _ => none

def finished (log : List (Event F)) : List F :=
  log.filterMap fun
    | .finished fn => some fn
    | _ => none

/-- What the worker has popped and not called. -/
def Worker.toCall : Worker F → List F
  | popped fn => [fn]
  | _ => []

/-- What the worker is executing. -/
def Worker.running : Worker F → List F
  | executing fn => [fn]
  | _ => []

/-- What each label does. -/
inductive Steps (c : WorkThread F) : Label F → WorkThread F → Prop
  | start (fresh : c.worker = .notStarted) : Steps c .start { c with worker := .waiting }
  | discard {fn} (stopped : c.queue.mStopped = true) : Steps c (.post fn) (c.record (.discarded fn))
  | accept {fn} (running : c.queue.mStopped = false) : Steps c (.post fn)
      (record { c with queue := { c.queue with mQueue := c.queue.mQueue ++ [fn] } } (.accepted fn))
  | again {onWorker} (stopped : c.queue.mStopped = true) : Steps c (.stop onWorker) c
  | stop {onWorker} (running : c.queue.mStopped = false) : Steps c (.stop onWorker)
      (record { c with queue := c.queue.stop, stopping := some onWorker } .stopped)
  | detach (stopping : c.stopping = some true) : Steps c .leave (record { c with stopping := none } (.returned true))
  | join (stopping : c.stopping = some false) (gone : c.worker = .notStarted ∨ c.worker = .exited) :
      Steps c .leave (record { c with stopping := none } (.returned false))
  | exit (waiting : c.worker = .waiting) (stopped : c.queue.mStopped = true) : Steps c .take { c with worker := .exited }
  | pop {fn rest} (waiting : c.worker = .waiting) (running : c.queue.mStopped = false)
      (queue : c.queue.mQueue = fn :: rest) :
      Steps c .take { c with queue := { c.queue with mQueue := rest }, worker := .popped fn }
  | call {fn} (popped : c.worker = .popped fn) : Steps c .call (record { c with worker := .executing fn } (.started fn))
  | finish {fn} (executing : c.worker = .executing fn) :
      Steps c .finish (record { c with worker := .waiting } (.finished fn))

variable {c c' : WorkThread F} {l : Label F} {log : List (Event F)} {e : Event F}

/-- **`step` does what `Steps` says.** -/
theorem step_steps (step : step c l = some c') : Steps c l c' := by
  cases l with
  | start =>
    simp only [WorkThread.step, WorkThread.start] at step
    split at step
    · next fresh => cases step; exact .start fresh
    · cases step
  | post fn =>
    simp only [WorkThread.step, WorkThread.post, CWorkQueue.post] at step
    cases step
    split
    · next stopped => exact .discard stopped
    · next running => exact .accept (by simpa using running)
  | stop onWorker =>
    have either : Steps c (.stop onWorker) (if c.queue.mStopped then c else
        record { c with queue := c.queue.stop, stopping := some onWorker } .stopped) := by
      split
      · next stopped => exact .again stopped
      · next running => exact .stop (by simpa using running)
    have result : (if c.queue.mStopped then c else
        record { c with queue := c.queue.stop, stopping := some onWorker } .stopped) = c' := by
      simp only [WorkThread.step, WorkThread.stop] at step
      split at step
      · split at step <;> split <;> simp_all
      · split at step <;> split <;> simp_all
      · cases step
    exact result ▸ either
  | leave =>
    simp only [WorkThread.step, WorkThread.leave] at step
    split at step
    · next stopping => cases step; exact .detach stopping
    · next stopping fresh => cases step; exact .join stopping (.inl fresh)
    · next stopping exited => cases step; exact .join stopping (.inr exited)
    · cases step
  | take =>
    simp only [WorkThread.step, WorkThread.take, CWorkQueue.next] at step
    split at step
    · next waiting =>
      split at step
      · next stopped => cases step; exact .exit waiting stopped
      · next running =>
        split at step
        · cases step
        · next fn rest queue => cases step; exact .pop waiting (by simpa using running) queue
    · cases step
  | call =>
    simp only [WorkThread.step, WorkThread.call] at step
    split at step
    · next fn popped => cases step; exact .call popped
    · cases step
  | finish =>
    simp only [WorkThread.step, WorkThread.finish] at step
    split at step
    · cases step
    · next fn executing _ => cases step; exact .finish executing
    · cases step

/-! ## The invariant -/

/-- Where everything that was accepted is, and what the worker may still do after a `Stop`. -/
structure Inv (c : WorkThread F) : Prop where
  line : started c.log ++ c.worker.toCall ++ c.queue.mQueue <+: accepted c.log
  whole : c.queue.mStopped = false → started c.log ++ c.worker.toCall ++ c.queue.mQueue = accepted c.log
  serial : started c.log = finished c.log ++ c.worker.running
  stopping : c.stopping.isSome = true → c.queue.mStopped = true
  stopped : .stopped ∈ c.log → c.queue.mStopped = true
  returned : .returned false ∈ c.log → c.queue.mStopped = true ∧ c.worker.toCall = [] ∧ c.worker.running = []
  discards : c.log.Pairwise fun x y => x = .stopped → ∀ fn, y ≠ .accepted fn
  barrier : c.log.Pairwise fun x y => x = .returned false → ∀ fn, y ≠ .started fn

@[simp] theorem record_queue : (c.record e).queue = c.queue := rfl
@[simp] theorem record_worker : (c.record e).worker = c.worker := rfl
@[simp] theorem record_stopping : (c.record e).stopping = c.stopping := rfl
@[simp] theorem record_log : (c.record e).log = c.log ++ [e] := rfl

theorem accepted_snoc : accepted (log ++ [e]) = accepted log ++ accepted [e] := List.filterMap_append
theorem started_snoc : started (log ++ [e]) = started log ++ started [e] := List.filterMap_append
theorem finished_snoc : finished (log ++ [e]) = finished log ++ finished [e] := List.filterMap_append

theorem pairwise_snoc {R : Event F → Event F → Prop} (old : log.Pairwise R) (new : ∀ x ∈ log, R x e) :
    (log ++ [e]).Pairwise R := by
  refine List.pairwise_append.2 ⟨old, List.pairwise_singleton R e, fun x mem y last => ?_⟩
  rw [List.mem_singleton.1 last]
  exact new x mem

theorem mem_snoc {x : Event F} (mem : x ∈ log ++ [e]) (other : x ≠ e) : x ∈ log :=
  (List.mem_append.1 mem).resolve_right fun last => other (List.mem_singleton.1 last)

/-- A new event that neither accepts nor starts. -/
theorem Inv.orders (inv : Inv c) (accepts : ∀ fn, e ≠ .accepted fn) (starts : ∀ fn, e ≠ .started fn) :
    ((c.log ++ [e]).Pairwise fun x y => x = .stopped → ∀ fn, y ≠ .accepted fn) ∧
      (c.log ++ [e]).Pairwise fun x y => x = .returned false → ∀ fn, y ≠ .started fn :=
  ⟨pairwise_snoc inv.discards fun _ _ _ => accepts, pairwise_snoc inv.barrier fun _ _ _ => starts⟩

theorem Inv.mem_returned (inv : Inv c) (mem : .returned false ∈ c.log ++ [e]) (other : .returned false ≠ e) :
    c.queue.mStopped = true ∧ c.worker.toCall = [] ∧ c.worker.running = [] :=
  inv.returned (mem_snoc mem other)

/-- **Every step keeps the invariant.** -/
theorem step_inv (step : step c l = some c') (inv : Inv c) : Inv c' := by
  obtain ⟨line, whole, serial, stopping, stopped, returned, discards, barrier⟩ := id inv
  cases step_steps step with
  | start fresh =>
    rw [fresh] at line whole serial
    exact ⟨line, whole, serial, stopping, stopped, fun h => ⟨(returned h).1, rfl, rfl⟩, discards, barrier⟩
  | @discard fn isStopped =>
    obtain ⟨discards', barrier'⟩ := inv.orders (e := .discarded fn) (fun _ h => nomatch h) fun _ h => nomatch h
    refine ⟨?_, fun running => absurd (isStopped.symm.trans running) (by decide), ?_, stopping, fun _ => isStopped,
      fun h => inv.mem_returned h (fun h => nomatch h), discards', barrier'⟩
    · simpa [accepted_snoc, started_snoc, accepted, started] using line
    · simpa [started_snoc, finished_snoc, started, finished] using serial
  | @accept fn running =>
    have all := whole running
    refine ⟨?_, fun _ => ?_, ?_, stopping, fun h => stopped (mem_snoc h (fun h => nomatch h)),
      fun h => inv.mem_returned h (fun h => nomatch h), ?_, ?_⟩
    · simp only [record_log, record_queue, record_worker, accepted_snoc, started_snoc]
      rw [← all]
      simp [accepted, started]
    · simp only [record_log, record_queue, record_worker, accepted_snoc, started_snoc]
      rw [← all]
      simp [accepted, started]
    · simpa [started_snoc, finished_snoc, started, finished] using serial
    · refine pairwise_snoc discards fun x mem same => ?_
      subst same
      exact absurd ((stopped mem).symm.trans running) (by decide)
    · exact pairwise_snoc barrier fun _ _ _ _ h => nomatch h
  | again _ => exact inv
  | @stop onWorker running =>
    obtain ⟨discards', barrier'⟩ := inv.orders (e := .stopped) (fun _ h => nomatch h) fun _ h => nomatch h
    refine ⟨?_, fun h => (nomatch h), ?_, fun _ => rfl, fun _ => rfl, fun h => ?_, discards', barrier'⟩
    · -- the queue is cleared
      have all := whole running
      simp only [record_log, record_queue, record_worker, accepted_snoc, started_snoc, CWorkQueue.stop]
      rw [← all]
      simp [accepted, started]
    · simpa [started_snoc, finished_snoc, started, finished] using serial
    · exact ⟨rfl, (inv.mem_returned h (fun h => nomatch h)).2⟩
  | detach isStopping =>
    obtain ⟨discards', barrier'⟩ := inv.orders (e := .returned true) (fun _ h => nomatch h) fun _ h => nomatch h
    have isStopped : c.queue.mStopped = true := stopping (by rw [isStopping]; rfl)
    refine ⟨?_, fun running => absurd (isStopped.symm.trans running) (by decide), ?_, fun h => (nomatch h),
      fun _ => isStopped, fun h => inv.mem_returned h (fun h => nomatch h), discards', barrier'⟩
    · simpa [accepted_snoc, started_snoc, accepted, started] using line
    · simpa [started_snoc, finished_snoc, started, finished] using serial
  | join isStopping gone =>
    obtain ⟨discards', barrier'⟩ := inv.orders (e := .returned false) (fun _ h => nomatch h) fun _ h => nomatch h
    have isStopped : c.queue.mStopped = true := stopping (by rw [isStopping]; rfl)
    refine ⟨?_, fun running => absurd (isStopped.symm.trans running) (by decide), ?_, fun h => (nomatch h),
      fun _ => isStopped, fun _ => ?_, discards', barrier'⟩
    · simpa [accepted_snoc, started_snoc, accepted, started] using line
    · simpa [started_snoc, finished_snoc, started, finished] using serial
    · -- the worker is out of its loop, or was never in it
      rcases gone with fresh | exited
      · exact ⟨isStopped, by rw [record_worker, fresh]; rfl, by rw [record_worker, fresh]; rfl⟩
      · exact ⟨isStopped, by rw [record_worker, exited]; rfl, by rw [record_worker, exited]; rfl⟩
  | exit waiting isStopped =>
    rw [waiting] at line whole serial
    exact ⟨line, whole, serial, stopping, stopped, fun h => ⟨isStopped, rfl, rfl⟩, discards, barrier⟩
  | @pop fn rest waiting running queue =>
    rw [waiting, queue] at line whole
    rw [waiting] at serial
    refine ⟨?_, fun _ => ?_, serial, stopping, stopped, fun h => ?_, discards, barrier⟩
    · simpa [Worker.toCall] using line
    · simpa [Worker.toCall] using whole running
    · exact absurd ((returned h).1.symm.trans running) (by decide)
  | @call fn popped =>
    rw [popped] at line whole serial
    have called : .returned false ∈ c.log → False := by
      intro mem
      have none := (returned mem).2.1
      rw [popped] at none
      cases none
    refine ⟨?_, fun running => ?_, ?_, stopping, fun h => stopped (mem_snoc h (fun h => nomatch h)), fun h => ?_, ?_, ?_⟩
    · simpa [Worker.toCall, accepted_snoc, started_snoc, accepted, started] using line
    · simpa [Worker.toCall, accepted_snoc, started_snoc, accepted, started] using whole running
    · simpa [Worker.running, started_snoc, finished_snoc, started, finished] using serial
    · exact absurd (mem_snoc h (fun h => nomatch h)) called
    · exact pairwise_snoc discards fun _ _ _ _ h => nomatch h
    · refine pairwise_snoc barrier fun x mem same => ?_
      subst same
      exact absurd mem called
  | @finish fn executing =>
    obtain ⟨discards', barrier'⟩ := inv.orders (e := .finished fn) (fun _ h => nomatch h) fun _ h => nomatch h
    rw [executing] at line whole serial
    refine ⟨?_, fun running => ?_, ?_, stopping, fun h => stopped (mem_snoc h (fun h => nomatch h)),
      fun h => ⟨(inv.mem_returned h (fun h => nomatch h)).1, rfl, rfl⟩, discards', barrier'⟩
    · simpa [Worker.toCall, accepted_snoc, started_snoc, accepted, started] using line
    · simpa [Worker.toCall, accepted_snoc, started_snoc, accepted, started] using whole running
    · simpa [Worker.running, started_snoc, finished_snoc, started, finished] using serial

theorem create_inv : Inv ({} : WorkThread F) where
  line := List.nil_prefix
  whole _ := rfl
  serial := rfl
  stopping h := nomatch h
  stopped h := nomatch h
  returned h := nomatch h
  discards := List.Pairwise.nil
  barrier := List.Pairwise.nil

/-- What callers rely on: functions start in the order in which they were accepted, one at a time; after a `Stop`
nothing is accepted, and once the one that set `mStopped` has returned outside the worker nothing runs. -/
structure Reliable (c : WorkThread F) : Prop where
  fifo : started c.log <+: accepted c.log
  serial : started c.log = finished c.log ∨ ∃ fn, started c.log = finished c.log ++ [fn]
  discards : c.log.Pairwise fun x y => x = .stopped → ∀ fn, y ≠ .accepted fn
  finished : .returned false ∈ c.log → started c.log = finished c.log
  barrier : c.log.Pairwise fun x y => x = .returned false → ∀ fn, y ≠ .started fn

theorem Inv.reliable (inv : Inv c) : Reliable c where
  fifo := by
    refine List.IsPrefix.trans ?_ inv.line
    rw [List.append_assoc]
    exact List.prefix_append _ _
  serial := by
    rw [inv.serial]
    cases c.worker with
    | executing fn => exact .inr ⟨fn, rfl⟩
    | _ => exact .inl (List.append_nil _)
  discards := inv.discards
  finished mem := by
    rw [inv.serial, (inv.returned mem).2.2, List.append_nil]
  barrier := inv.barrier

/-- **The queue is reliable in every run.** -/
theorem run_reliable {ls : List (Label F)} (run : (system F).exec {} ls = some c) : Reliable c :=
  (Lib.System.invariant Inv create_inv (fun _ _ _ inv step => step_inv step inv) run).reliable

end WorkThread

end Websockets
