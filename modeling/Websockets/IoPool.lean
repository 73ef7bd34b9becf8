import Websockets.Lib.Tasks

/-!
# The pool of IO threads

`CIoPool`: threads that run the handlers of one `io_context` until `Stop`. A thread is a stack of what it still has
to do, the next piece on top, and is known by its number; the pool's own come first. A handler, as any caller, may
make further handlers ready, start asynchronous operations and call `Stop`, from any number of threads at once.

Of the `io_context` there is what is documented: `run` starts the handlers that are ready, first come first served,
and returns once the context is stopped or no work is left; work is a handler that is ready or runs, an
asynchronous operation, or the guard.
-/

namespace Websockets

open Lib

structure IoContext (F : Type) where
  ready : List F := []
  /-- Asynchronous operations whose handler is not ready yet. -/
  outstanding : Nat := 0
  stopped : Bool := false

namespace CIoPool

inductive Event (F : Type) where
  | posted (f : F)
  | started (thread : Nat) (f : F)
  | finished (thread : Nat) (f : F)
  /-- The `Stop` that set `mStopped` returned. -/
  | returned (thread : Nat)
  deriving DecidableEq

/-- What a thread has on its stack. -/
inductive Piece (F : Type) where
  /-- `mIoc.run()`, between handlers. -/
  | run
  | handler (f : F)
  /-- Code outside the pool. -/
  | caller
  | stop
  | resetGuard
  | stopContext
  /-- The loop of `Stop` at a thread of `mThreads`. -/
  | join (k : Nat)
  deriving DecidableEq

/-- What the code on top of a stack does next. -/
inductive Choice (F : Type) where
  | posts (f : F)
  | begins
  | stops
  | returns

end CIoPool

structure CIoPool (F : Type) where
  mIoc : IoContext F := {}
  mWorkGuard : Bool := true
  /-- Each thread by whether it is joinable. -/
  mThreads : List Bool
  mStopped : Bool := false
  log : List (CIoPool.Event F) := []

namespace CIoPool

variable {F : Type}

abbrev Threads (F : Type) := Lib.Tasks (CIoPool F) Unit (Piece F)

def record (p : CIoPool F) (e : Event F) : CIoPool F := { p with log := p.log ++ [e] }

def post (p : CIoPool F) (f : F) : CIoPool F :=
  record { p with mIoc := { p.mIoc with ready := p.mIoc.ready ++ [f] } } (.posted f)

def detachOrJoin (p : CIoPool F) (k : Nat) : CIoPool F := { p with mThreads := p.mThreads.set k false }

def Piece.isHandler : Piece F → Bool
  | handler _ => true
  | _ => false

/-- The context has work. -/
def working (c : Threads F) : Bool :=
  c.shared.mWorkGuard || !c.shared.mIoc.ready.isEmpty || decide (0 < c.shared.mIoc.outstanding) ||
    decide (0 < c.count Piece.isHandler)

/-- Code on top of a stack, and what it records when it returns. -/
def code (s : CIoPool F) (p : Piece F) (done : CIoPool F) : Choice F → CIoPool F × List (Piece F)
  | .posts f => (s.post f, [p])
  | .begins => ({ s with mIoc := { s.mIoc with outstanding := s.mIoc.outstanding + 1 } }, [p])
  | .stops => (s, [.stop, p])
  | .returns => (done, [])

/-- Thread `i` does what is on top of its stack. -/
def perform (choice : Choice F) (c : Threads F) (i : Nat) (p : Piece F) : Option (CIoPool F × List (Piece F)) :=
  let s := c.shared
  match p with
  | .run =>
    if s.mIoc.stopped then some (s, [])
    else match s.mIoc.ready with
      | f :: rest => some (record { s with mIoc := { s.mIoc with ready := rest } } (.started i f), [.handler f, .run])
      | [] => if working c then none else some ({ s with mIoc := { s.mIoc with stopped := true } }, [])
  | .handler f => some (s.code p (s.record (.finished i f)) choice)
  | .caller => some (s.code p s choice)
  | .stop =>
    if s.mStopped then some (s, [])
    else some ({ s with mStopped := true }, [.resetGuard, .stopContext, .join 0])
  | .resetGuard => some ({ s with mWorkGuard := false }, [])
  | .stopContext => some ({ s with mIoc := { s.mIoc with stopped := true } }, [])
  | .join k =>
    match s.mThreads[k]? with
    | none => some (s.record (.returned i), [])
    | some false => some (s, [.join (k + 1)])
    | some true =>
      -- the thread itself, or one that is waited for
      if k = i then some (s.detachOrJoin k, [.join (k + 1)])
      else if c.finished k then some (s.detachOrJoin k, [.join (k + 1)]) else none

inductive Label (F : Type) where
  /-- Another thread of the application starts. -/
  | thread
  | run (i : Nat) (choice : Choice F)
  /-- An asynchronous operation completes. -/
  | complete (f : F)

def step (c : Threads F) : Label F → Option (Threads F)
  | .thread => some (c.spawn () [.caller])
  | .run i choice => c.run (perform choice) i
  | .complete f =>
    match c.shared.mIoc.outstanding with
    | 0 => none
    | n + 1 => some { c with shared := post { c.shared with mIoc := { c.shared.mIoc with outstanding := n } } f }

/-- Every interleaving of the threads. -/
def system (F : Type) : Lib.System (Threads F) (Label F) := ⟨step⟩

/-- How many threads the constructor starts. -/
def threadCount (numThreads : Int) : Nat := (max 1 numThreads).toNat

def create (numThreads : Int) : Threads F :=
  ⟨{ mThreads := List.replicate (threadCount numThreads) true },
    List.replicate (threadCount numThreads) ⟨(), [.run]⟩⟩

def posted (log : List (Event F)) : List F :=
  log.filterMap fun
    | .posted f => some f
    | _ => none

def started (log : List (Event F)) : List F :=
  log.filterMap fun
    | .started _ f => some f
    | _ => none

/-- What is on top of the stack of thread `i`. -/
def top (c : Threads F) (i : Nat) : Option (Piece F) := c.tasks[i]?.bind fun t => t.todo.head?

/-- The code that a piece stands for is the application's. -/
def Piece.isCode : Piece F → Bool
  | handler _ => true
  | caller => true
  | _ => false

/-- What belongs to the `Stop` that set `mStopped`. -/
def Piece.ofStop : Piece F → Bool
  | resetGuard => true
  | stopContext => true
  | join _ => true
  | _ => false

/-- What only the pool's own threads have on their loops. -/
def Piece.ofPool : Piece F → Bool
  | run => true
  | handler _ => true
  | _ => false

/-- What a thread does next. -/
inductive Performs (c : Threads F) (i : Nat) : Piece F → CIoPool F → List (Piece F) → Prop
  | exits (stopped : c.shared.mIoc.stopped = true) : Performs c i .run c.shared []
  | takes {f rest} (running : c.shared.mIoc.stopped = false) (ready : c.shared.mIoc.ready = f :: rest) : Performs c i .run
      (record { c.shared with mIoc := { c.shared.mIoc with ready := rest } } (.started i f)) [.handler f, .run]
  | runsOut (running : c.shared.mIoc.stopped = false) (ready : c.shared.mIoc.ready = []) (idle : working c = false) :
      Performs c i .run { c.shared with mIoc := { c.shared.mIoc with stopped := true } } []
  | posts {p f} (code : p.isCode = true) : Performs c i p (c.shared.post f) [p]
  | begins {p} (code : p.isCode = true) :
      Performs c i p { c.shared with mIoc := { c.shared.mIoc with outstanding := c.shared.mIoc.outstanding + 1 } } [p]
  | stops {p} (code : p.isCode = true) : Performs c i p c.shared [.stop, p]
  | finishes {f} : Performs c i (.handler f) (c.shared.record (.finished i f)) []
  | ends : Performs c i .caller c.shared []
  | again (already : c.shared.mStopped = true) : Performs c i .stop c.shared []
  | wins (first : c.shared.mStopped = false) :
      Performs c i .stop { c.shared with mStopped := true } [.resetGuard, .stopContext, .join 0]
  | resets : Performs c i .resetGuard { c.shared with mWorkGuard := false } []
  | stopsContext : Performs c i .stopContext { c.shared with mIoc := { c.shared.mIoc with stopped := true } } []
  | skips {k} (gone : c.shared.mThreads[k]? = some false) : Performs c i (.join k) c.shared [.join (k + 1)]
  | joins {k} (here : k < c.shared.mThreads.length) (done : k = i ∨ c.finished k) :
      Performs c i (.join k) (c.shared.detachOrJoin k) [.join (k + 1)]
  | leaves {k} (last : c.shared.mThreads.length ≤ k) : Performs c i (.join k) (c.shared.record (.returned i)) []

variable {c c' : Threads F} {i k n : Nat} {p : Piece F} {s' : CIoPool F} {outs rest : List (Piece F)}
  {choice : Choice F} {l : Label F} {ls : List (Label F)} {f : F}

theorem code_performs {done : CIoPool F} (code : p.isCode = true) (returns : Performs c i p done [])
    (result : some (c.shared.code p done choice) = some (s', outs)) : Performs c i p s' outs := by
  cases choice with
  | posts f => cases result; exact .posts code
  | begins => cases result; exact .begins code
  | stops => cases result; exact .stops code
  | returns => cases result; exact returns

/-- **`perform` does what `Performs` says.** -/
theorem perform_performs (done : perform choice c i p = some (s', outs)) : Performs c i p s' outs := by
  cases p with
  | run =>
    simp only [perform] at done
    split at done
    · next stopped => cases done; exact .exits stopped
    · next running =>
      have running : c.shared.mIoc.stopped = false := by simpa using running
      split at done
      · next f rest ready => cases done; exact .takes running ready
      · next ready =>
        split at done
        · cases done
        · next idle => cases done; exact .runsOut running ready (by simpa using idle)
  | handler f => exact code_performs rfl .finishes done
  | caller => exact code_performs rfl .ends done
  | stop =>
    simp only [perform] at done
    split at done
    · next already => cases done; exact .again already
    · next first => cases done; exact .wins (by simpa using first)
  | resetGuard => cases done; exact .resets
  | stopContext => cases done; exact .stopsContext
  | join k =>
    simp only [perform] at done
    split at done
    · next last => cases done; exact .leaves (List.getElem?_eq_none_iff.1 last)
    · next gone => cases done; exact .skips gone
    · next here =>
      have lt : k < c.shared.mThreads.length := (List.getElem?_eq_some_iff.1 here).1
      split at done
      · next own => cases done; exact .joins lt (.inl own)
      · split at done
        · next gone => cases done; exact .joins lt (.inr gone)
        · cases done

/-! ## The threads and their loops -/

/-- The stacks: `run` is at the bottom of the pool's threads and of no other; a thread without it has left because
the context is stopped. -/
structure Loops (n : Nat) (c : Threads F) : Prop where
  joinable : c.shared.mThreads.length = n
  pool : ∀ k < n, ∃ todo, c.tasks[k]? = some ⟨(), todo⟩ ∧
    (todo = [] ∨ ∃ above, todo = above ++ [.run] ∧ ∀ q ∈ above, q ≠ .run)
  others : ∀ k t, c.tasks[k]? = some t → n ≤ k → ∀ q ∈ t.todo, q.ofPool = false
  gone : ∀ k < n, c.finished k → c.shared.mIoc.stopped = true

theorem Loops.lt (loops : Loops n c) (pool : k < n) : k < c.tasks.length := by
  obtain ⟨todo, found, -⟩ := loops.pool k pool
  exact (List.getElem?_eq_some_iff.1 found).1

/-- Only a thread of the pool has pieces of the pool. -/
theorem Loops.own (loops : Loops n c) {t : Task Unit (Piece F)} (found : c.tasks[k]? = some t) {q : Piece F}
    (mem : q ∈ t.todo) (pool : q.ofPool = true) : k < n := by
  by_contra other
  rw [loops.others k t found (by omega) q mem] at pool
  cases pool

/-- What a piece puts on the stack instead of itself. -/
theorem Performs.stack (performs : Performs c i p s' outs) :
    (∀ q ∈ outs, q.ofPool = true → p.ofPool = true) ∧ (p ≠ .run → ∀ q ∈ outs, q ≠ .run) ∧
      (p = .run → outs = [] ∧ s'.mIoc.stopped = true ∨ ∃ f, outs = [.handler f, .run]) := by
  cases performs with
  | exits stopped => exact ⟨by simp, fun h => absurd rfl h, fun _ => .inl ⟨rfl, stopped⟩⟩
  | takes running ready => exact ⟨fun _ _ _ => rfl, fun h => absurd rfl h, fun _ => .inr ⟨_, rfl⟩⟩
  | runsOut running ready idle => exact ⟨by simp, fun h => absurd rfl h, fun _ => .inl ⟨rfl, rfl⟩⟩
  | posts code | begins code =>
    refine ⟨by simp, fun h q mem => List.mem_singleton.1 mem ▸ h, ?_⟩
    rintro rfl
    cases code
  | stops code =>
    refine ⟨?_, ?_, ?_⟩
    · intro q mem pool
      rcases List.mem_cons.1 mem with rfl | mem
      · cases pool
      · exact List.mem_singleton.1 mem ▸ pool
    · intro h q mem
      rcases List.mem_cons.1 mem with rfl | mem
      · exact fun h => nomatch h
      · exact List.mem_singleton.1 mem ▸ h
    · rintro rfl
      cases code
  | finishes | ends | again already | resets | stopsContext | leaves last => exact ⟨by simp, by simp, fun h => nomatch h⟩
  | wins first => exact ⟨by simp [Piece.ofPool], by simp, fun h => nomatch h⟩
  | skips gone => exact ⟨by simp [Piece.ofPool], by simp, fun h => nomatch h⟩
  | joins here done => exact ⟨by simp [Piece.ofPool], by simp, fun h => nomatch h⟩

/-- The context stays stopped, and the list of threads keeps its length. -/
theorem Performs.context (performs : Performs c i p s' outs) :
    (c.shared.mIoc.stopped = true → s'.mIoc.stopped = true) ∧ s'.mThreads.length = c.shared.mThreads.length := by
  cases performs <;> simp_all [record, post, detachOrJoin]

theorem Loops.ran (loops : Loops n c) (ran : Tasks.Ran (perform choice) c i c' () p rest outs) : Loops n c' := by
  obtain ⟨joinable, pool, others, gone⟩ := loops
  have performs := perform_performs ran.action
  obtain ⟨owns, keeps, bottom⟩ := performs.stack
  obtain ⟨stays, length⟩ := performs.context
  refine ⟨length.trans joinable, ?_, ?_, ?_⟩
  · intro k lt
    by_cases same : i = k
    · subst same
      obtain ⟨todo, found, shape⟩ := pool i lt
      cases ran.task.symm.trans found
      refine ⟨outs ++ rest, by rw [ran.lookup, if_pos rfl], ?_⟩
      obtain none | ⟨above, eq, free⟩ := shape
      · cases none
      · cases above with
        | nil =>
          cases eq
          obtain ⟨rfl, -⟩ | ⟨f, rfl⟩ := bottom rfl
          · exact .inl rfl
          · exact .inr ⟨[.handler f], rfl, by simp⟩
        | cons q above =>
          cases eq
          refine .inr ⟨outs ++ above, (List.append_assoc outs above [.run]).symm, fun q mem => ?_⟩
          rcases List.mem_append.1 mem with new | old
          · exact keeps (free p List.mem_cons_self) q new
          · exact free q (List.mem_cons_of_mem _ old)
    · obtain ⟨todo, found, shape⟩ := pool k lt
      exact ⟨todo, by rw [ran.lookup, if_neg same, found], shape⟩
  · intro k t found outside q mem
    rw [ran.lookup] at found
    split at found
    · next same =>
      subst same
      cases found
      rcases List.mem_append.1 mem with new | old
      · by_contra pool
        have := others i _ ran.task outside p List.mem_cons_self
        rw [owns q new (by simpa using pool)] at this
        cases this
      · exact others i _ ran.task outside q (List.mem_cons_of_mem _ old)
    · exact others k t found outside q mem
  · intro k lt past
    by_cases same : i = k
    · subst same
      have nothing : outs ++ rest = [] := past _ (by rw [ran.lookup, if_pos rfl])
      obtain ⟨todo, found, shape⟩ := pool i lt
      cases ran.task.symm.trans found
      obtain none | ⟨above, eq, free⟩ := shape
      · cases none
      · cases above with
        | nil =>
          cases eq
          obtain ⟨-, stopped⟩ | ⟨f, rfl⟩ := bottom rfl
          · exact stopped
          · cases nothing
        | cons q above =>
          cases eq
          simp at nothing
    · refine stays (gone k lt fun t found => past t ?_)
      rw [ran.lookup, if_neg same, found]

/-- **Every step keeps them.** -/
theorem Loops.step (loops : Loops n c) (step : step c l = some c') : Loops n c' := by
  cases l with
  | thread =>
    cases step
    refine ⟨loops.joinable, fun k lt => ?_, fun k t found outside q mem => ?_, fun k lt past => ?_⟩
    · obtain ⟨todo, found, shape⟩ := loops.pool k lt
      exact ⟨todo, by rw [Tasks.spawn, List.getElem?_append_left (loops.lt lt), found], shape⟩
    · simp only [Tasks.spawn, List.getElem?_append] at found
      split at found
      · exact loops.others k t found outside q mem
      · cases List.mem_singleton.1 (List.mem_of_getElem? found)
        cases List.mem_singleton.1 mem
        rfl
    · exact loops.gone k lt ((Tasks.finished_spawn (loops.lt lt)).1 past)
  | run i choice =>
    obtain ⟨⟨⟩, p, rest, outs, ran⟩ := Tasks.run_inv step
    exact loops.ran ran
  | complete f =>
    simp only [CIoPool.step] at step
    split at step
    · cases step
    · cases step
      exact ⟨loops.joinable, loops.pool, loops.others, loops.gone⟩

theorem create_loops (numThreads : Int) : Loops (F := F) (threadCount numThreads) (create numThreads) := by
  have found : ∀ k < threadCount numThreads, (create (F := F) numThreads).tasks[k]? = some ⟨(), [.run]⟩ := by
    intro k lt
    simp [create, lt]
  refine ⟨List.length_replicate, fun k lt => ⟨_, found k lt, .inr ⟨[], rfl, by simp⟩⟩, fun k t here outside => ?_,
    fun k lt past => ?_⟩
  · have bound := (List.getElem?_eq_some_iff.1 here).1
    simp only [create, List.length_replicate] at bound
    omega
  · cases past _ (found k lt)

/-! ## The one `Stop` that does the work -/

/-- How far it has got. -/
inductive Stage where
  | guard
  | context
  | joining (k : Nat)

def Stage.pieces : Stage → List (Piece F)
  | guard => [.resetGuard, .stopContext, .join 0]
  | context => [.stopContext, .join 0]
  | joining k => [.join k]

/-- Every thread of the pool below `k` has left `run`, but for `w`. -/
def Gone (c : Threads F) (n k w : Nat) : Prop := ∀ j < n, j < k → j = w ∨ c.finished j

/-- The threads from `k` on are joinable. -/
def Joinable (s : CIoPool F) (k : Nat) : Prop := ∀ j, s.mThreads[j]? = some false → j < k

def Stage.reached (n : Nat) (c : Threads F) (w : Nat) : Stage → Prop
  | guard => Joinable c.shared 0
  | context => Joinable c.shared 0
  | joining k => Joinable c.shared k ∧ c.shared.mIoc.stopped = true ∧ Gone c n k w

/-- No thread but `w` has a piece of the `Stop`. -/
def Alone (c : Threads F) (w : Nat) : Prop :=
  ∀ j t, c.tasks[j]? = some t → j ≠ w → ∀ q ∈ t.todo, q.ofStop = false

inductive Phase (n : Nat) (c : Threads F) : Prop
  | serving (no : c.shared.mStopped = false) (guard : c.shared.mWorkGuard = true) (running : c.shared.mIoc.stopped = false)
      (joinable : Joinable c.shared 0) (none : ∀ w, Alone c w) (silent : ∀ v, .returned v ∉ c.shared.log)
  | stopping (w : Nat) (stage : Stage) (below : List (Piece F)) (yes : c.shared.mStopped = true)
      (found : c.tasks[w]? = some ⟨(), stage.pieces ++ below⟩) (reached : stage.reached n c w)
      (free : ∀ q ∈ below, q.ofStop = false) (alone : Alone c w) (silent : ∀ v, .returned v ∉ c.shared.log)
  | stopped (w : Nat) (yes : c.shared.mStopped = true) (context : c.shared.mIoc.stopped = true)
      (none : ∀ w, Alone c w) (gone : Gone c n n w) (once : ∀ v, .returned v ∈ c.shared.log → v = w)

/-- What a piece that is not of the `Stop` does to it. -/
structure Aside (s s' : CIoPool F) (outs : List (Piece F)) : Prop where
  mStopped : s'.mStopped = s.mStopped
  mWorkGuard : s'.mWorkGuard = s.mWorkGuard
  mThreads : s'.mThreads = s.mThreads
  context : s.mIoc.stopped = true → s'.mIoc.stopped = true
  guarded : s.mWorkGuard = true → s'.mIoc.stopped = s.mIoc.stopped
  silent : ∀ v, .returned v ∈ s'.log → .returned v ∈ s.log
  none : ∀ q ∈ outs, q.ofStop = false

theorem Piece.code_aside (code : p.isCode = true) : p.ofStop = false := by
  cases p <;> first | rfl | cases code

theorem record_silent {s : CIoPool F} {e : Event F} (other : ∀ v, e ≠ .returned v) (v : Nat)
    (mem : .returned v ∈ (s.record e).log) : .returned v ∈ s.log := by
  rcases List.mem_append.1 mem with old | new
  · exact old
  · exact absurd (List.mem_singleton.1 new).symm (other v)

/-- A piece that is not of the `Stop` leaves it alone, or starts it. -/
theorem Performs.aside (performs : Performs c i p s' outs) (other : p.ofStop = false) : Aside c.shared s' outs ∨
    c.shared.mStopped = false ∧ s' = { c.shared with mStopped := true } ∧ outs = Stage.guard.pieces := by
  cases performs with
  | exits stopped => exact .inl ⟨rfl, rfl, rfl, id, fun _ => rfl, fun _ => id, by simp⟩
  | takes running ready =>
    exact .inl ⟨rfl, rfl, rfl, id, fun _ => rfl, record_silent (fun v h => nomatch h), by simp [Piece.ofStop]⟩
  | runsOut running ready idle =>
    refine .inl ⟨rfl, rfl, rfl, fun _ => rfl, fun guard => ?_, fun _ => id, by simp⟩
    simp [working, guard] at idle
  | posts code =>
    refine .inl ⟨rfl, rfl, rfl, id, fun _ => rfl, record_silent (fun v h => nomatch h), ?_⟩
    simpa using Piece.code_aside code
  | begins code => exact .inl ⟨rfl, rfl, rfl, id, fun _ => rfl, fun _ => id, by simpa using Piece.code_aside code⟩
  | stops code =>
    refine .inl ⟨rfl, rfl, rfl, id, fun _ => rfl, fun _ => id, ?_⟩
    simpa [Piece.ofStop] using Piece.code_aside code
  | finishes => exact .inl ⟨rfl, rfl, rfl, id, fun _ => rfl, record_silent (by simp), by simp⟩
  | ends | again already => exact .inl ⟨rfl, rfl, rfl, id, fun _ => rfl, fun _ => id, by simp⟩
  | wins first => exact .inr ⟨first, rfl, rfl⟩
  | resets | stopsContext | skips gone | joins here done | leaves last => cases other

/-- What the loop of `Stop` does at thread `k`. -/
theorem Performs.join (performs : Performs c i (.join k) s' outs) (joinable : Joinable c.shared k) :
    (k < c.shared.mThreads.length ∧ (k = i ∨ c.finished k) ∧ s' = c.shared.detachOrJoin k ∧ outs = [.join (k + 1)]) ∨
      (c.shared.mThreads.length ≤ k ∧ s' = c.shared.record (.returned i) ∧ outs = []) := by
  cases performs with
  | posts code | begins code | stops code => cases code
  | skips gone => exact absurd (joinable k gone) (lt_irrefl k)
  | joins here done => exact .inl ⟨here, done, rfl, rfl⟩
  | leaves last => exact .inr ⟨last, rfl, rfl⟩

theorem Performs.resetGuard (performs : Performs c i .resetGuard s' outs) :
    s' = { c.shared with mWorkGuard := false } ∧ outs = [] := by
  cases performs with
  | posts code | begins code | stops code => cases code
  | resets => exact ⟨rfl, rfl⟩

theorem Performs.stopContext (performs : Performs c i .stopContext s' outs) :
    s' = { c.shared with mIoc := { c.shared.mIoc with stopped := true } } ∧ outs = [] := by
  cases performs with
  | posts code | begins code | stops code => cases code
  | stopsContext => exact ⟨rfl, rfl⟩

theorem Gone.ran {w : Nat} (gone : Gone c n k w) (ran : Tasks.Ran (perform choice) c i c' () p rest outs) : Gone c' n k w :=
  fun j pool lt => (gone j pool lt).imp id ran.finished_kept

theorem Alone.ran {w : Nat} (alone : Alone c w) (ran : Tasks.Ran (perform choice) c i c' () p rest outs)
    (none : i ≠ w → ∀ q ∈ outs, q.ofStop = false) : Alone c' w := by
  intro j t found other q mem
  rw [ran.lookup] at found
  split at found
  · next same =>
    subst same
    cases found
    rcases List.mem_append.1 mem with new | old
    · exact none other q new
    · exact alone i _ ran.task other q (List.mem_cons_of_mem _ old)
  · exact alone j t found other q mem

/-- Nothing of the `Stop` on `w` either. -/
theorem Alone.all {w : Nat} {todo : List (Piece F)} (alone : Alone c w) (found : c.tasks[w]? = some ⟨(), todo⟩)
    (free : ∀ q ∈ todo, q.ofStop = false) (v : Nat) : Alone c v := by
  intro j t here _ q mem
  by_cases same : j = w
  · subst same
    cases found.symm.trans here
    exact free q mem
  · exact alone j t here same q mem

/-- The thread that stops goes on to the next stage, or leaves. -/
theorem Phase.advance {w : Nat} {stage : Stage} {below : List (Piece F)} (loops : Loops n c)
    (ran : Tasks.Ran (perform choice) c w c' () p rest outs) (stack : p :: rest = stage.pieces ++ below)
    (yes : c.shared.mStopped = true) (reached : stage.reached n c w) (free : ∀ q ∈ below, q.ofStop = false)
    (alone : Alone c w) (silent : ∀ v, .returned v ∉ c.shared.log) : Phase n c' := by
  have performs := perform_performs ran.action
  have alone' : Alone c' w := alone.ran ran fun other => absurd rfl other
  have found : c'.tasks[w]? = some ⟨(), outs ++ rest⟩ := by rw [ran.lookup, if_pos rfl]
  cases stage with
  | guard =>
    obtain ⟨rfl, rfl⟩ := List.cons.inj stack
    obtain ⟨after, rfl⟩ := performs.resetGuard
    refine .stopping w .context below (by rw [after]; exact yes) found ?_ free alone' (by rw [after]; exact silent)
    simp only [Stage.reached, after]
    exact reached
  | context =>
    obtain ⟨rfl, rfl⟩ := List.cons.inj stack
    obtain ⟨after, rfl⟩ := performs.stopContext
    refine .stopping w (.joining 0) below (by rw [after]; exact yes) found ?_ free alone' (by rw [after]; exact silent)
    simp only [Stage.reached, after]
    exact ⟨reached, trivial, fun j _ lt => absurd lt (Nat.not_lt_zero j)⟩
  | joining k =>
    obtain ⟨rfl, rfl⟩ := List.cons.inj stack
    obtain ⟨joinable, context, gone⟩ := reached
    obtain ⟨lt, done, after, rfl⟩ | ⟨last, after, rfl⟩ := performs.join joinable
    · refine .stopping w (.joining (k + 1)) rest (by rw [after]; exact yes) found ⟨?_, ?_, ?_⟩ free alone'
        (by rw [after]; exact silent)
      · intro j gone
        rw [after] at gone
        simp only [detachOrJoin, List.getElem?_set] at gone
        split at gone
        · omega
        · exact Nat.lt_succ_of_lt (joinable j gone)
      · rw [after]
        exact context
      · intro j pool next
        rcases Nat.lt_succ_iff_lt_or_eq.1 next with earlier | rfl
        · exact gone.ran ran j pool earlier
        · exact done.imp id ran.finished_kept
    · refine .stopped w (by rw [after]; exact yes) (by rw [after]; exact context) (alone'.all found free) ?_ ?_
      · exact fun j pool _ => gone.ran ran j pool (by rw [loops.joinable] at last; omega)
      · intro v mem
        rw [after] at mem
        rcases List.mem_append.1 mem with old | new
        · exact absurd old (silent v)
        · cases List.mem_singleton.1 new
          rfl

/-- What leaves the `Stop` alone keeps its phase. -/
theorem Phase.kept (phase : Phase n c) (aside : Aside c.shared c'.shared outs) (alone : ∀ w, Alone c w → Alone c' w)
    (gone : ∀ j < n, c.finished j → c'.finished j)
    (stays : ∀ (w : Nat) (stage : Stage) (below : List (Piece F)), c.tasks[w]? = some ⟨(), stage.pieces ++ below⟩ →
      c'.tasks[w]? = some ⟨(), stage.pieces ++ below⟩) : Phase n c' := by
  have joinable : ∀ k, Joinable c.shared k → Joinable c'.shared k := by
    intro k
    unfold Joinable
    rw [aside.mThreads]
    exact id
  have left : ∀ k w, Gone c n k w → Gone c' n k w := fun k w here j pool lt => (here j pool lt).imp id (gone j pool)
  cases phase with
  | serving no guard running fresh none silent =>
    exact .serving (aside.mStopped.trans no) (aside.mWorkGuard.trans guard) ((aside.guarded guard).trans running)
      (joinable 0 fresh) (fun w => alone w (none w)) fun v mem => silent v (aside.silent v mem)
  | stopping w stage below yes found reached free others silent =>
    refine .stopping w stage below (aside.mStopped.trans yes) (stays w stage below found) ?_ free (alone w others)
      fun v mem => silent v (aside.silent v mem)
    cases stage with
    | guard | context => exact joinable 0 reached
    | joining k => exact ⟨joinable k reached.1, aside.context reached.2.1, left k w reached.2.2⟩
  | stopped w yes context none here once =>
    exact .stopped w (aside.mStopped.trans yes) (aside.context context) (fun w => alone w (none w)) (left n w here)
      fun v mem => once v (aside.silent v mem)

/-- A thread that is not at a piece of the `Stop` moves. -/
theorem Phase.beside (phase : Phase n c) (ran : Tasks.Ran (perform choice) c i c' () p rest outs)
    (other : p.ofStop = false) (free : ∀ q ∈ rest, q.ofStop = false) : Phase n c' := by
  obtain aside | ⟨first, after, rfl⟩ := (perform_performs ran.action).aside other
  · refine phase.kept aside (fun w alone => alone.ran ran fun _ => aside.none) (fun j _ => ran.finished_kept)
      fun w stage below found => ?_
    have elsewhere : i ≠ w := by
      rintro rfl
      have stack : p :: rest = stage.pieces ++ below := (Task.mk.inj (Option.some.inj (ran.task.symm.trans found))).2
      cases stage <;> cases stack <;> cases other
    rw [ran.lookup, if_neg elsewhere, found]
  · cases phase with
    | serving no guard running joinable none silent =>
      refine .stopping i .guard rest (by rw [after]) (by rw [ran.lookup, if_pos rfl]) ?_ free
        ((none i).ran ran fun other => absurd rfl other) (by rw [after]; exact silent)
      simp only [Stage.reached, after]
      exact joinable
    | stopping w stage below yes | stopped w yes => exact absurd (first.symm.trans yes) (by decide)

/-- What is on the stack of another thread than the one that stops. -/
theorem Alone.below {w : Nat} (alone : Alone c w) (ran : Tasks.Ran (perform choice) c i c' () p rest outs) (other : i ≠ w) :
    p.ofStop = false ∧ ∀ q ∈ rest, q.ofStop = false :=
  have free := alone i _ ran.task other
  ⟨free p List.mem_cons_self, fun q mem => free q (List.mem_cons_of_mem _ mem)⟩

theorem Phase.ran (phase : Phase n c) (loops : Loops n c) (ran : Tasks.Ran (perform choice) c i c' () p rest outs) :
    Phase n c' := by
  cases id phase with
  | serving no guard running joinable none silent =>
    have free := (none (i + 1)).below ran (by omega)
    exact phase.beside ran free.1 free.2
  | stopping w stage below yes found reached free alone silent =>
    by_cases same : i = w
    · subst same
      have stack : p :: rest = stage.pieces ++ below := (Task.mk.inj (Option.some.inj (ran.task.symm.trans found))).2
      exact Phase.advance loops ran stack yes reached free alone silent
    · have free := alone.below ran same
      exact phase.beside ran free.1 free.2
  | stopped w yes context none gone once =>
    have free := (none (i + 1)).below ran (by omega)
    exact phase.beside ran free.1 free.2

theorem Alone.spawn {w : Nat} (alone : Alone c w) : Alone (c.spawn () [.caller]) w := by
  intro j t found other q mem
  simp only [Tasks.spawn, List.getElem?_append] at found
  split at found
  · exact alone j t found other q mem
  · cases List.mem_singleton.1 (List.mem_of_getElem? found)
    cases List.mem_singleton.1 mem
    rfl

/-- **Every step keeps the phase or goes on to the next.** -/
theorem Phase.step (phase : Phase n c) (loops : Loops n c) (step : step c l = some c') : Phase n c' := by
  cases l with
  | thread =>
    cases step
    have aside : Aside c.shared c.shared [] := ⟨rfl, rfl, rfl, id, fun _ => rfl, fun _ => id, by simp⟩
    refine phase.kept aside (fun _ alone => alone.spawn) (fun j pool => (Tasks.finished_spawn (loops.lt pool)).2)
      fun w stage below found => ?_
    rw [Tasks.spawn, List.getElem?_append_left (List.getElem?_eq_some_iff.1 found).1, found]
  | run i choice =>
    obtain ⟨⟨⟩, p, rest, outs, ran⟩ := Tasks.run_inv step
    exact phase.ran loops ran
  | complete f =>
    simp only [CIoPool.step] at step
    split at step
    · cases step
    · next m _ =>
      cases step
      have aside : Aside c.shared (post { c.shared with mIoc := { c.shared.mIoc with outstanding := m } } f) [] :=
        ⟨rfl, rfl, rfl, id, fun _ => rfl, record_silent (by simp), by simp⟩
      exact phase.kept aside (fun _ => id) (fun _ _ => id) fun _ _ _ => id

theorem create_phase (numThreads : Int) : Phase (F := F) (threadCount numThreads) (create numThreads) := by
  refine .serving rfl rfl rfl (fun j gone => ?_) (fun w j t found _ q mem => ?_) fun v mem => nomatch mem
  · simp only [create, List.getElem?_replicate] at gone
    split at gone <;> cases gone
  · obtain ⟨-, rfl⟩ := List.mem_replicate.1 (List.mem_of_getElem? found)
    cases List.mem_singleton.1 mem
    rfl

/-! ## What the pool guarantees -/

/-- Handlers start in the order in which they became ready, each of them once, and none is lost. -/
def InOrder (s : CIoPool F) : Prop := posted s.log = started s.log ++ s.mIoc.ready

theorem posted_snoc (log : List (Event F)) (e : Event F) : posted (log ++ [e]) = posted log ++ posted [e] := List.filterMap_append
theorem started_snoc (log : List (Event F)) (e : Event F) : started (log ++ [e]) = started log ++ started [e] :=
  List.filterMap_append

theorem InOrder.post {s : CIoPool F} (order : InOrder s) : InOrder (s.post f) := by
  unfold InOrder at *
  simp only [CIoPool.post, CIoPool.record, posted_snoc, started_snoc]
  rw [order]
  exact (List.append_assoc _ _ _).trans (by simp [posted, started])

/-- A further event that is neither. -/
theorem InOrder.record {s : CIoPool F} {e : Event F} (order : InOrder s) (posts : posted [e] = []) (starts : started [e] = []) :
    InOrder (s.record e) := by
  unfold InOrder at *
  simp only [CIoPool.record, posted_snoc, started_snoc, posts, starts, List.append_nil]
  exact order

theorem Performs.inOrder (performs : Performs c i p s' outs) (order : InOrder c.shared) : InOrder s' := by
  cases performs with
  | @takes f rest running ready =>
    unfold InOrder at *
    simp only [CIoPool.record, posted_snoc, started_snoc]
    rw [order, ready]
    simp [posted, started]
  | posts code => exact order.post
  | finishes => exact order.record rfl rfl
  | leaves last => exact order.record rfl rfl
  | exits | runsOut | begins | stops | ends | again | wins | resets | stopsContext | skips | joins => exact order

theorem step_inOrder (order : InOrder c.shared) (step : step c l = some c') : InOrder c'.shared := by
  cases l with
  | thread => cases step; exact order
  | run i choice =>
    obtain ⟨⟨⟩, p, rest, outs, ran⟩ := Tasks.run_inv step
    exact (perform_performs ran.action).inOrder order
  | complete f =>
    simp only [CIoPool.step] at step
    split at step
    · cases step
    · next m _ =>
      cases step
      have same : InOrder { c.shared with mIoc := { c.shared.mIoc with outstanding := m } } := order
      exact same.post

theorem Performs.stopped_kept (performs : Performs c i p s' outs) (yes : c.shared.mStopped = true) : s'.mStopped = true := by
  cases performs <;> first | exact yes | rfl

theorem stopped_kept (yes : c.shared.mStopped = true) (step : step c l = some c') : c'.shared.mStopped = true := by
  cases l with
  | thread => cases step; exact yes
  | run i choice =>
    obtain ⟨⟨⟩, p, rest, outs, ran⟩ := Tasks.run_inv step
    exact (perform_performs ran.action).stopped_kept yes
  | complete f =>
    simp only [CIoPool.step] at step
    split at step
    · cases step
    · cases step; exact yes

/-- What a client of the pool relies on until `Stop` is called. -/
structure Serves (n : Nat) (c : Threads F) : Prop where
  inOrder : InOrder c.shared
  stays : c.shared.mStopped = false → ∀ k < n, ¬ c.finished k
  /-- A thread between handlers starts the first one that is ready. -/
  works : c.shared.mStopped = false → ∀ k < n, top c k = some .run → ∀ f rest, c.shared.mIoc.ready = f :: rest →
    ∀ choice, ∃ c', step c (.run k choice) = some c' ∧ top c' k = some (.handler f) ∧ c'.shared.mIoc.ready = rest

theorem top_task (here : top c i = some p) : ∃ rest, c.tasks[i]? = some ⟨(), p :: rest⟩ := by
  unfold top at here
  obtain ⟨⟨⟨⟩, todo⟩, found, head⟩ := Option.bind_eq_some_iff.1 here
  obtain ⟨rest, rfl⟩ := List.head?_eq_some_iff.1 head
  exact ⟨rest, found⟩

theorem run_step (here : c.tasks[i]? = some ⟨(), p :: rest⟩) (done : perform choice c i p = some (s', outs)) :
    step c (.run i choice) = some ⟨s', c.tasks.set i ⟨(), outs ++ rest⟩⟩ := by
  simp only [step, Tasks.run, here, done]

theorem Phase.running (phase : Phase n c) (no : c.shared.mStopped = false) : c.shared.mIoc.stopped = false := by
  cases phase with
  | serving _ _ running => exact running
  | stopping w stage below yes | stopped w yes => exact absurd (no.symm.trans yes) (by decide)

theorem Phase.serves (phase : Phase n c) (loops : Loops n c) (order : InOrder c.shared) : Serves n c where
  inOrder := order
  stays no k lt past := absurd ((loops.gone k lt past).symm.trans (phase.running no)) (by decide)
  works no k lt here f rest ready choice := by
    obtain ⟨below, found⟩ := top_task here
    have takes : perform choice c k .run = some
        (record { c.shared with mIoc := { c.shared.mIoc with ready := rest } } (.started k f), [.handler f, .run]) := by
      simp [perform, phase.running no, ready]
    exact ⟨_, run_step found takes, by simp [top, loops.lt lt], rfl⟩

/-- When the `Stop` that set `mStopped` has returned on thread `w`, every other thread of the pool has left `run`, no
handler starts any more, and none finishes but the one that `w` itself is in. -/
structure Barrier (n : Nat) (c : Threads F) : Prop where
  once : ∀ v w, .returned v ∈ c.shared.log → .returned w ∈ c.shared.log → v = w
  gone : ∀ w, .returned w ∈ c.shared.log → ∀ k < n, k = w ∨ c.finished k
  silent : c.shared.log.Pairwise fun x y => ∀ w, x = .returned w →
    (∀ k f, y ≠ .started k f) ∧ ∀ k f, y = .finished k f → k = w

theorem Phase.returned {w : Nat} (phase : Phase n c) (mem : .returned w ∈ c.shared.log) :
    c.shared.mIoc.stopped = true ∧ (∀ k < n, k = w ∨ c.finished k) ∧ ∀ v, .returned v ∈ c.shared.log → v = w := by
  cases phase with
  | serving no guard running joinable none silent => exact absurd mem (silent w)
  | stopping v stage below yes found reached free alone silent => exact absurd mem (silent w)
  | stopped v yes context none gone once =>
    cases once w mem
    exact ⟨context, fun k lt => gone k lt lt, once⟩

/-- What a step adds to the record once a `Stop` has returned on `w`. -/
theorem Performs.silent {w : Nat} (performs : Performs c i p s' outs) (stopped : c.shared.mIoc.stopped = true)
    (own : p.ofPool = true → i = w) : s'.log = c.shared.log ∨ ∃ e, s'.log = c.shared.log ++ [e] ∧
      (∀ k f, e ≠ .started k f) ∧ ∀ k f, e = .finished k f → k = w := by
  cases performs with
  | takes running ready => exact absurd (running.symm.trans stopped) (by decide)
  | @posts _ f code => exact .inr ⟨.posted f, rfl, (fun _ _ h => nomatch h), fun _ _ h => nomatch h⟩
  | leaves last => exact .inr ⟨.returned i, rfl, (fun _ _ h => nomatch h), fun _ _ h => nomatch h⟩
  | @finishes f =>
    refine .inr ⟨.finished i f, rfl, (fun _ _ h => nomatch h), fun k g same => ?_⟩
    cases same
    exact own rfl
  | exits | runsOut | begins | stops | ends | again | wins | resets | stopsContext | skips | joins => exact .inl rfl

theorem Barrier.of_phase (phase : Phase n c) (silent : c.shared.log.Pairwise fun x y => ∀ w, x = .returned w →
    (∀ k f, y ≠ .started k f) ∧ ∀ k f, y = .finished k f → k = w) : Barrier n c :=
  ⟨fun v _ first second => (phase.returned second).2.2 v first, fun _ mem => (phase.returned mem).2.1, silent⟩

theorem Barrier.extend {s : CIoPool F} {e : Event F} (barrier : Barrier n c) (log : s.log = c.shared.log ++ [e])
    (new : ∀ w, .returned w ∈ c.shared.log → (∀ k f, e ≠ .started k f) ∧ ∀ k f, e = .finished k f → k = w) :
    s.log.Pairwise fun x y => ∀ w, x = .returned w → (∀ k f, y ≠ .started k f) ∧ ∀ k f, y = .finished k f → k = w := by
  rw [log]
  refine List.pairwise_append.2 ⟨barrier.silent, List.pairwise_singleton _ _, fun x mem y last w same => ?_⟩
  subst same
  rw [List.mem_singleton.1 last]
  exact new w mem

/-- What a step adds to the record. -/
theorem Performs.log (performs : Performs c i p s' outs) :
    s'.log = c.shared.log ∨ ∃ e, s'.log = c.shared.log ++ [e] := by
  cases performs with
  | takes | posts | finishes | leaves => exact .inr ⟨_, rfl⟩
  | exits | runsOut | begins | stops | ends | again | wins | resets | stopsContext | skips | joins => exact .inl rfl

/-- **Every step keeps the barrier.** -/
theorem Barrier.step (barrier : Barrier n c) (loops : Loops n c) (phase : Phase n c) (step : step c l = some c') :
    Barrier n c' := by
  refine .of_phase (phase.step loops step) ?_
  cases l with
  | thread => cases step; exact barrier.silent
  | run i choice =>
    obtain ⟨⟨⟩, p, rest, outs, ran⟩ := Tasks.run_inv step
    have performs := perform_performs ran.action
    obtain same | ⟨e, log⟩ := performs.log
    · rw [same]
      exact barrier.silent
    · refine barrier.extend log fun w mem => ?_
      obtain ⟨stopped, gone, -⟩ := phase.returned mem
      have own : p.ofPool = true → i = w := by
        intro pool
        refine (gone i (loops.own ran.task List.mem_cons_self pool)).resolve_right fun past => ?_
        cases past _ ran.task
      obtain same | ⟨e', log', starts, finishes⟩ := performs.silent stopped own
      · simp [log] at same
      · cases List.append_cancel_left (log.symm.trans log')
        exact ⟨starts, finishes⟩
  | complete f =>
    simp only [CIoPool.step] at step
    split at step
    · cases step
    · cases step
      exact barrier.extend (e := .posted f) rfl fun _ _ => ⟨(fun _ _ h => nomatch h), fun _ _ h => nomatch h⟩

/-- What every run of a pool keeps. -/
structure Inv (n : Nat) (c : Threads F) : Prop where
  loops : Loops n c
  phase : Phase n c
  inOrder : InOrder c.shared
  barrier : Barrier n c

theorem step_inv (inv : Inv n c) (step : step c l = some c') : Inv n c' :=
  ⟨inv.loops.step step, inv.phase.step inv.loops step, step_inOrder inv.inOrder step,
    inv.barrier.step inv.loops inv.phase step⟩

theorem run_inv {numThreads : Int} (run : (system F).exec (create numThreads) ls = some c) : Inv (threadCount numThreads) c :=
  Lib.System.invariant (Inv _) ⟨create_loops numThreads, create_phase numThreads, rfl,
    .of_phase (create_phase numThreads) List.Pairwise.nil⟩ (fun _ _ _ inv step => step_inv inv step) run

/-- A handler of the pool stops it while another thread tries to; a handler that is ready is left. -/
def stoppedInHandler : List (Label Nat) :=
  [.thread, .run 2 (.posts 7), .run 2 (.posts 8), .run 0 .returns, .run 0 .stops, .run 0 .returns, .run 2 .stops,
    .run 2 .returns, .run 0 .returns, .run 0 .returns, .run 1 .returns, .run 0 .returns, .run 0 .returns, .run 0 .returns,
    .run 0 .returns, .run 0 .returns]

/-- **`Stop` is a barrier**, in every run. -/
theorem stop_barrier {numThreads : Int} (run : (system F).exec (create numThreads) ls = some c) :
    Barrier (threadCount numThreads) c :=
  (run_inv run).barrier

theorem stop_barrier_stoppedInHandler : ∃ c, (system Nat).exec (create 2) stoppedInHandler = some c ∧
    .returned 0 ∈ c.shared.log ∧ Barrier (threadCount 2) c :=
  ⟨_, Lib.System.exec_get (by decide), by decide, stop_barrier (Lib.System.exec_get (by decide))⟩

/-! ## `Stop` returns -/

/-- A thread moves, and code it is in returns. -/
def Winding (_ : Threads F) (l : Label F) : Prop := ∃ i, l = .run i .returns

def Piece.weight (n : Nat) : Piece F → Nat
  | stop => n + 4
  | join k => n - k + 1
  | _ => 1

def rank (n : Nat) (c : Threads F) : Nat := c.weigh (Piece.weight n) + 2 * c.shared.mIoc.ready.length

theorem winding_shrinks (joinable : c.shared.mThreads.length = n) (done : perform .returns c i p = some (s', outs)) :
    (outs.map (Piece.weight n)).sum + 2 * s'.mIoc.ready.length < p.weight n + 2 * c.shared.mIoc.ready.length := by
  cases p with
  | run =>
    simp only [perform] at done
    split at done
    · cases done; simp [Piece.weight]
    · split at done
      · next f rest ready => cases done; simp [Piece.weight, record, ready]; omega
      · split at done
        · cases done
        · cases done; simp [Piece.weight]
  | handler f => cases done; simp [Piece.weight, record]
  | caller => cases done; simp [Piece.weight]
  | stop =>
    simp only [perform] at done
    split at done
    · cases done; simp [Piece.weight]
    · cases done; simp [Piece.weight]; omega
  | resetGuard => cases done; simp [Piece.weight]
  | stopContext => cases done; simp [Piece.weight]
  | join k =>
    simp only [perform] at done
    split at done
    · cases done; simp [Piece.weight, record]
    · next gone =>
      have lt : k < c.shared.mThreads.length := (List.getElem?_eq_some_iff.1 gone).1
      cases done
      simp [Piece.weight]
      omega
    · next here =>
      have lt : k < c.shared.mThreads.length := (List.getElem?_eq_some_iff.1 here).1
      have less : (([.join (k + 1)] : List (Piece F)).map (Piece.weight n)).sum < (Piece.join (F := F) k).weight n := by
        simp [Piece.weight]
        omega
      split at done
      · cases done; simpa [detachOrJoin] using less
      · split at done
        · cases done; simpa [detachOrJoin] using less
        · cases done

/-- What is not of the `Stop` is never waited for in a stopped context. -/
theorem perform_enabled (other : p.ofStop = false) (stopped : c.shared.mIoc.stopped = true) :
    ∃ r, perform .returns c i p = some r := by
  cases p with
  | run => exact ⟨_, if_pos stopped⟩
  | handler f => exact ⟨_, rfl⟩
  | caller => exact ⟨_, rfl⟩
  | stop =>
    by_cases already : c.shared.mStopped = true
    · exact ⟨_, if_pos already⟩
    · exact ⟨_, if_neg already⟩
  | resetGuard | stopContext | join k => cases other

/-- The next thread to move while the `Stop` is in progress, or after it. -/
theorem Phase.progress (phase : Phase n c) (loops : Loops n c) (yes : c.shared.mStopped = true) :
    c.quiet ∨ ∃ (i : Nat) (p : Piece F) (rest : List (Piece F)) (r : CIoPool F × List (Piece F)), c.tasks[i]? = some ⟨(), p :: rest⟩ ∧ perform .returns c i p = some r := by
  have unfinished : c.quiet ∨ ∃ (i : Nat) (p : Piece F) (rest : List (Piece F)), c.tasks[i]? = some ⟨(), p :: rest⟩ := by
    by_cases quiet : c.quiet
    · exact .inl quiet
    · simp only [Tasks.quiet, not_forall] at quiet
      obtain ⟨⟨⟨⟩, todo⟩, mem, left⟩ := quiet
      obtain ⟨i, found⟩ := List.mem_iff_getElem?.1 mem
      obtain ⟨p, rest, rfl⟩ := List.exists_cons_of_ne_nil left
      exact .inr ⟨i, p, rest, found⟩
  cases phase with
  | serving no => exact absurd (no.symm.trans yes) (by decide)
  | stopped w _ context none gone once =>
    refine unfinished.imp id ?_
    rintro ⟨i, p, rest, found⟩
    obtain ⟨r, done⟩ := perform_enabled (none (i + 1) i _ found (by omega) p List.mem_cons_self) context
    exact ⟨i, p, rest, r, found, done⟩
  | stopping w stage below _ found reached free alone silent =>
    refine .inr ?_
    cases stage with
    | guard => exact ⟨w, _, _, _, found, rfl⟩
    | context => exact ⟨w, _, _, _, found, rfl⟩
    | joining k =>
      obtain ⟨joinable, context, gone⟩ := reached
      by_cases last : c.shared.mThreads.length ≤ k
      · refine ⟨w, _, _, (c.shared.record (.returned w), []), found, ?_⟩
        simp only [perform, List.getElem?_eq_none last]
      · have lt : k < c.shared.mThreads.length := by omega
        have here : c.shared.mThreads[k]? = some true := by
          cases h : c.shared.mThreads[k] with
          | true => rw [List.getElem?_eq_getElem lt, h]
          | false => exact absurd (joinable k (by rw [List.getElem?_eq_getElem lt, h])) (lt_irrefl k)
        by_cases done : k = w ∨ c.finished k
        · refine ⟨w, _, _, (c.shared.detachOrJoin k, [.join (k + 1)]), found, ?_⟩
          simp only [perform, here]
          obtain own | past := done
          · rw [if_pos own]
          · rw [if_pos past, ite_self]
        · -- the thread that is waited for goes on itself
          obtain ⟨other, left⟩ := not_or.1 done
          obtain ⟨todo, task, -⟩ := loops.pool k (by rw [← loops.joinable]; exact lt)
          obtain ⟨p, rest, rfl⟩ := List.exists_cons_of_ne_nil fun none => left fun t at' => by
            cases task.symm.trans at'
            exact none
          obtain ⟨r, done⟩ := perform_enabled (alone k _ task other p List.mem_cons_self) context
          exact ⟨k, p, rest, r, task, done⟩

/-- **Every `Stop` returns.** Once `Stop` has been called, however many threads call it, handlers of the pool among
them: if code only returns, then after a bounded number of steps in any order every call has returned and every thread
of the pool has left. -/
theorem stop_returns {numThreads : Int} (run : (system F).exec (create numThreads) ls = some c)
    (stopped : c.shared.mStopped = true) : (system F).Inevitable Winding Tasks.quiet c := by
  have keep : ∀ (a : Threads F) (l : Label F) (b : Threads F), Inv (threadCount numThreads) a ∧ a.shared.mStopped = true → Winding a l → step a l = some b →
      Inv (threadCount numThreads) b ∧ b.shared.mStopped = true := by
    rintro a l b ⟨inv, yes⟩ - step
    exact ⟨step_inv inv step, stopped_kept yes step⟩
  refine Lib.System.inevitable_of_rank _ (rank (threadCount numThreads)) ⟨run_inv run, stopped⟩ keep ?_ ?_
  · rintro a l b ⟨inv, -⟩ ⟨i, rfl⟩ step
    obtain ⟨⟨⟩, p, rest, outs, ran⟩ := Tasks.run_inv step
    have less := winding_shrinks inv.loops.joinable ran.action
    have moved := ran.weigh (Piece.weight (threadCount numThreads))
    unfold rank
    omega
  · rintro a ⟨inv, yes⟩
    refine (inv.phase.progress inv.loops yes).imp id ?_
    rintro ⟨i, p, rest, r, found, done⟩
    exact ⟨.run i .returns, _, ⟨i, rfl⟩, run_step found done⟩

/-- Both calls of `Stop` have begun, and the thread that does not do the work has not left `run`. -/
theorem stop_returns_stoppedInHandler : ∃ c, (system Nat).exec (create 2) (stoppedInHandler.take 7) = some c ∧
    (system Nat).Inevitable Winding Tasks.quiet c :=
  ⟨_, Lib.System.exec_get (by decide), stop_returns (Lib.System.exec_get (by decide)) (by decide)⟩

end CIoPool

end Websockets
