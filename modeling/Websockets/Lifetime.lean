import Websockets.Lib.Tasks
import Websockets.WorkQueue

/-!
# The lifetime of a client or a server

The `CImpl` of a `CWebsocketClient` or a `CWebsocketServer` is kept by the `mImpl` of that object, and by handlers of
the pool while they have locked their weak reference to it. The worker of its `CWorkQueue` has `this` and keeps nothing;
the destructor of the object stops the queue before it lets go of `mImpl`.

A thread is a stack of what it still has to do, the next piece on top. A call of the interface may call back in
its own thread, as the `Stop` of a server does, also the one of its destructor. What the calls do is left out. The
documented rule is that an object is not destroyed inside one of its own callbacks.
-/

namespace Websockets

open Lib

namespace Lifetime

inductive Owner where
  | worker
  | io
  | user
  deriving DecidableEq

inductive Piece where
  /-- `Run`, between functions. -/
  | loop
  /-- A callback. -/
  | body
  /-- The application's own code. -/
  | user
  /-- A call of the interface, inside `CImpl`. -/
  | access
  /-- A handler that is to lock its reference, and the callback it posts. -/
  | lock (fn : Option Fn)
  | event (fn : Option Fn)
  /-- The end of life of a locked reference. -/
  | release
  | shutdown
  | stop
  | stopQueue
  | join
  /-- The end of life of `mImpl`. -/
  | resetImpl
  | free
  deriving DecidableEq

/-- What the code on top of a stack does next. -/
inductive Choice where
  | calls
  | destroys
  | callsBack
  | returns
  deriving DecidableEq

end Lifetime

/-- `facade` until the destructor of the object begins, `mImpl` until that pointer is gone. `freed` is history: how often
`CImpl` has been destroyed. -/
structure Lifetime where
  facade : Bool := true
  mImpl : Bool := true
  mShutdown : Bool := false
  mWorkQueue : CWorkQueue Fn := {}
  freed : Nat := 0

namespace Lifetime

abbrev Threads := Lib.Tasks Lifetime Owner Piece

def Piece.isRelease : Piece → Bool
  | release => true
  | _ => false

/-- The strong references. -/
def refs (c : Threads) : Nat := c.shared.mImpl.toNat + c.count Piece.isRelease

/-- `~CImpl`, run by the thread that drops the last reference. -/
def dropped (last : Bool) : List Piece := if last then [.shutdown, .stopQueue, .free] else []

def code (s : Lifetime) (p : Piece) : Choice → Option (Lifetime × List Piece)
  | .calls => some (s, [.access, p])
  | .destroys => if s.facade then some ({ s with facade := false }, [.shutdown, .resetImpl, p]) else none
  | .callsBack => none
  | .returns => some (s, [])

/-- A call that may call back. -/
def sync (s : Lifetime) (p : Piece) : Choice → Option (Lifetime × List Piece)
  | .callsBack => some (s, [.body, p])
  | .returns => some (s, [])
  | _ => none

/-- Thread `i` does what is on top of its stack. -/
def perform (choice : Choice) (c : Threads) (i : Nat) (p : Piece) : Option (Lifetime × List Piece) :=
  let s := c.shared
  match p with
  | .loop =>
    if s.mWorkQueue.mStopped then some (s, [])
    else s.mWorkQueue.next.map fun r => ({ s with mWorkQueue := r.2 }, [.body, .loop])
  | .body => code s p choice
  | .user => code s p choice
  | .access => sync s p choice
  | .lock fn => some (s, if 0 < refs c then [.event fn, .release] else [])
  | .event none => some (s, [])
  | .event (some fn) => some ({ s with mWorkQueue := s.mWorkQueue.post fn }, [])
  | .release => some (s, dropped (refs c == 1))
  | .shutdown => some (if s.mShutdown then (s, []) else ({ s with mShutdown := true }, [.stop, .stopQueue]))
  | .stop => sync s p choice
  | .stopQueue =>
    some (if s.mWorkQueue.mStopped then (s, [])
      else ({ s with mWorkQueue := s.mWorkQueue.stop }, if c.tasks[i]?.any fun t => t.owner == .worker then [] else [.join]))
  | .join => if c.idle .worker then some (s, []) else none
  | .resetImpl => some ({ s with mImpl := false }, dropped (refs c == 1))
  | .free => some ({ s with freed := s.freed + 1 }, [])

inductive Label where
  | thread
  /-- A session has a handler to run. -/
  | io (fn : Option Fn)
  | run (i : Nat) (choice : Choice)
  deriving DecidableEq

def step (c : Threads) : Label → Option Threads
  | .thread => some (c.spawn .user [.user])
  | .io fn => some (c.spawn .io [.lock fn])
  | .run i choice => c.run (perform choice) i

/-- Every interleaving of the threads. -/
def system : Lib.System Threads Label := ⟨step⟩

/-- The object is constructed and its worker started. -/
def create : Threads := ⟨{}, [⟨.worker, [.loop]⟩]⟩

/-- An object is called while it exists, or by a callback it waits for; it is destroyed while no call of it is in
progress, and not by its worker. -/
def Proper (c : Threads) : Label → Prop
  | .run i .calls => ∀ t ∈ c.tasks[i]?, c.shared.facade = true ∨ t.owner = .worker ∨ .stop ∈ t.todo
  | .run i .destroys => (∀ t ∈ c.tasks[i]?, t.owner ≠ .worker) ∧ ∀ t ∈ c.tasks, t.owner ≠ .worker → .access ∉ t.todo
  | _ => True

instance (c : Threads) : (l : Label) → Decidable (Proper c l)
  | .thread => .isTrue trivial
  | .io _ => .isTrue trivial
  | .run i .calls =>
    inferInstanceAs (Decidable (∀ t ∈ c.tasks[i]?, c.shared.facade = true ∨ t.owner = .worker ∨ .stop ∈ t.todo))
  | .run i .destroys => inferInstanceAs (Decidable ((∀ t ∈ c.tasks[i]?, t.owner ≠ .worker) ∧
      ∀ t ∈ c.tasks, t.owner ≠ .worker → .access ∉ t.todo))
  | .run _ .callsBack => .isTrue trivial
  | .run _ .returns => .isTrue trivial

/-- What is inside `CImpl`. -/
def Piece.touches : Piece → Bool
  | loop => true
  | access => true
  | event _ => true
  | shutdown => true
  | stop => true
  | stopQueue => true
  | join => true
  | free => true
  | _ => false

/-- `CImpl` is destroyed once at most, and nothing is inside it or will be by then; once the object's destructor has returned,
no callback of the worker runs or will run. -/
structure Safe (c : Threads) : Prop where
  once : c.shared.freed ≤ 1
  touched : c.shared.freed = 1 → ∀ t ∈ c.tasks, ∀ p ∈ t.todo, p.touches = false
  silent : c.shared.mImpl = false → c.idle .worker = true

/-! ## What a piece does -/

def Piece.isCode : Piece → Bool
  | body => true
  | user => true
  | _ => false

/-- What belongs to a destructor. -/
def Piece.ofEnd : Piece → Bool
  | shutdown => true
  | stop => true
  | stopQueue => true
  | join => true
  | resetImpl => true
  | free => true
  | _ => false

inductive Performs (c : Threads) (i : Nat) : Choice → Piece → Lifetime → List Piece → Prop
  | calls {p : Piece} (code : p.isCode = true) : Performs c i .calls p c.shared [.access, p]
  | destroys {p : Piece} (code : p.isCode = true) (facade : c.shared.facade = true) :
      Performs c i .destroys p { c.shared with facade := false } [.shutdown, .resetImpl, p]
  | returns {p : Piece} (code : p.isCode = true) : Performs c i .returns p c.shared []
  | callsBack : Performs c i .callsBack .access c.shared [.body, .access]
  | called : Performs c i .returns .access c.shared []
  | exits {choice : Choice} (stopped : c.shared.mWorkQueue.mStopped = true) : Performs c i choice .loop c.shared []
  | takes {choice : Choice} {rest : List Fn} (running : c.shared.mWorkQueue.mStopped = false) : Performs c i choice .loop
      { c.shared with mWorkQueue := { c.shared.mWorkQueue with mQueue := rest } } [.body, .loop]
  | locks {choice : Choice} {fn : Option Fn} (alive : 0 < refs c) : Performs c i choice (.lock fn) c.shared [.event fn, .release]
  | expired {choice : Choice} {fn : Option Fn} : Performs c i choice (.lock fn) c.shared []
  | posts {choice : Choice} {fn : Option Fn} {queue : CWorkQueue Fn} (same : queue.mStopped = c.shared.mWorkQueue.mStopped) :
      Performs c i choice (.event fn) { c.shared with mWorkQueue := queue } []
  | drops {choice : Choice} (more : refs c ≠ 1) : Performs c i choice .release c.shared []
  | dropsLast {choice : Choice} (last : refs c = 1) : Performs c i choice .release c.shared [.shutdown, .stopQueue, .free]
  | resets {choice : Choice} (more : refs c ≠ 1) : Performs c i choice .resetImpl { c.shared with mImpl := false } []
  | resetsLast {choice : Choice} (last : refs c = 1) :
      Performs c i choice .resetImpl { c.shared with mImpl := false } [.shutdown, .stopQueue, .free]
  | isDown {choice : Choice} (down : c.shared.mShutdown = true) : Performs c i choice .shutdown c.shared []
  | shutsDown {choice : Choice} (up : c.shared.mShutdown = false) :
      Performs c i choice .shutdown { c.shared with mShutdown := true } [.stop, .stopQueue]
  | stopCallsBack : Performs c i .callsBack .stop c.shared [.body, .stop]
  | stopped : Performs c i .returns .stop c.shared []
  | isStopped {choice : Choice} (stopped : c.shared.mWorkQueue.mStopped = true) : Performs c i choice .stopQueue c.shared []
  | detaches {choice : Choice} (running : c.shared.mWorkQueue.mStopped = false) (own : ∃ t, c.tasks[i]? = some t ∧ t.owner = .worker) :
      Performs c i choice .stopQueue { c.shared with mWorkQueue := c.shared.mWorkQueue.stop } []
  | stops {choice : Choice} (running : c.shared.mWorkQueue.mStopped = false) :
      Performs c i choice .stopQueue { c.shared with mWorkQueue := c.shared.mWorkQueue.stop } [.join]
  | joins {choice : Choice} (gone : c.idle .worker = true) : Performs c i choice .join c.shared []
  | frees {choice : Choice} : Performs c i choice .free { c.shared with freed := c.shared.freed + 1 } []

variable {c c' : Threads} {i j w : Nat} {p : Piece} {s' : Lifetime} {outs rest below : List Piece} {o : Owner}
  {choice : Choice} {l : Label} {ls : List Label}

/-- **`perform` does what `Performs` says.** -/
theorem perform_performs (done : perform choice c i p = some (s', outs)) : Performs c i choice p s' outs := by
  have user : p.isCode = true → code c.shared p choice = some (s', outs) → Performs c i choice p s' outs := by
    intro isCode done
    cases choice with
    | calls => cases done; exact .calls isCode
    | destroys =>
      simp only [code] at done
      split at done
      · next facade => cases done; exact .destroys isCode facade
      · cases done
    | callsBack => cases done
    | returns => cases done; exact .returns isCode
  cases p with
  | loop =>
    simp only [perform] at done
    split at done
    · next stopped => cases done; exact .exits stopped
    · next running =>
      obtain ⟨r, next, is⟩ := Option.map_eq_some_iff.1 done
      cases is
      have running : c.shared.mWorkQueue.mStopped = false := by simpa using running
      simp only [CWorkQueue.next, running] at next
      split at next
      · cases next
      · split at next
        · cases next
        · cases next
          exact running ▸ .takes running
  | body => exact user rfl done
  | user => exact user rfl done
  | access => cases choice <;> cases done; exacts [.callsBack, .called]
  | lock fn =>
    cases done
    split
    · next alive => exact .locks alive
    · exact .expired
  | event fn =>
    cases fn with
    | none => cases done; exact .posts rfl
    | some fn =>
      cases done
      refine .posts ?_
      unfold CWorkQueue.post
      split <;> rfl
  | release =>
    cases done
    by_cases last : refs c = 1
    · simp only [last]
      exact .dropsLast last
    · simp only [dropped, beq_eq_false_iff_ne.2 last]
      exact .drops last
  | shutdown =>
    simp only [perform] at done
    split at done
    · next down => cases done; exact .isDown down
    · next up => cases done; exact .shutsDown (by simpa using up)
  | stop => cases choice <;> cases done; exacts [.stopCallsBack, .stopped]
  | stopQueue =>
    simp only [perform] at done
    split at done
    · next stopped => cases done; exact .isStopped stopped
    · next running =>
      cases done
      have running : c.shared.mWorkQueue.mStopped = false := by simpa using running
      split
      · next own =>
        obtain ⟨t, found, mine⟩ := (Option.any_eq_true ..).1 own
        exact .detaches running ⟨t, found, by simpa using mine⟩
      · exact .stops running
  | join =>
    simp only [perform] at done
    split at done
    · next gone => cases done; exact .joins gone
    · cases done
  | resetImpl =>
    cases done
    by_cases last : refs c = 1
    · simp only [last]
      exact .resetsLast last
    · simp only [dropped, beq_eq_false_iff_ne.2 last]
      exact .resets last
  | free => cases done; exact .frees

/-! ## Stacks -/

/-- A handler, as far as it has got; the last one drops the last reference. -/
inductive Handler : List Piece → Prop
  | locks {fn : Option Fn} : Handler [.lock fn]
  | event {fn : Option Fn} : Handler [.event fn, .release]
  | releases : Handler [.release]
  | shutdown : Handler [.shutdown, .stopQueue, .free]
  | stopQueue : Handler [.stopQueue, .free]
  | frees : Handler [.free]
  | done : Handler []

def Piece.ofWorker : Piece → Bool
  | loop => true
  | body => true
  | access => true
  | _ => false

def Piece.ofUser : Piece → Bool
  | loop => false
  | lock _ => false
  | event _ => false
  | release => false
  | _ => true

structure Shaped (c : Threads) : Prop where
  worker : ∀ t ∈ c.tasks, t.owner = .worker → ∀ q ∈ t.todo, q.ofWorker = true
  io : ∀ t ∈ c.tasks, t.owner = .io → Handler t.todo
  user : ∀ t ∈ c.tasks, t.owner = .user → ∀ q ∈ t.todo, q.ofUser = true

/-! ## The end of the object, and of `CImpl` -/

/-- How far the destructor of the object has got. -/
inductive Stage where
  | shutdown
  /-- In `Stop`, or in what it has called back. -/
  | stop (above : List Piece)
  | stopQueue
  | join
  | reset

def Stage.pieces : Stage → List Piece
  | shutdown => [.shutdown, .resetImpl]
  | stop above => above ++ [.stop, .stopQueue, .resetImpl]
  | stopQueue => [.stopQueue, .resetImpl]
  | join => [.join, .resetImpl]
  | reset => [.resetImpl]

def Stage.reached (c : Threads) : Stage → Prop
  | shutdown => c.shared.mShutdown = false ∧ c.shared.mWorkQueue.mStopped = false
  | stop above => c.shared.mShutdown = true ∧ c.shared.mWorkQueue.mStopped = false ∧ ∀ q ∈ above, q = .body ∨ q = .access
  | stopQueue => c.shared.mShutdown = true ∧ c.shared.mWorkQueue.mStopped = false
  | join => c.shared.mShutdown = true ∧ c.shared.mWorkQueue.mStopped = true
  | reset => c.shared.mShutdown = true ∧ c.shared.mWorkQueue.mStopped = true ∧ c.idle .worker = true

/-- How far that of `CImpl` has got. -/
inductive Last where
  | shutdown
  | stopQueue
  | free

def Last.pieces : Last → List Piece
  | shutdown => [.shutdown, .stopQueue, .free]
  | stopQueue => [.stopQueue, .free]
  | free => [.free]

/-- No thread but `w` is in a destructor. -/
def Alone (c : Threads) (w : Nat) : Prop :=
  ∀ j t, c.tasks[j]? = some t → j ≠ w → ∀ q ∈ t.todo, q.ofEnd = false

/-- No thread but `w` and the worker is in a call. -/
def Hushed (c : Threads) (w : Nat) : Prop :=
  ∀ j t, c.tasks[j]? = some t → j ≠ w → t.owner ≠ .worker → .access ∉ t.todo

/-- The destructor of the object has let go. -/
structure Gone (c : Threads) : Prop where
  facade : c.shared.facade = false
  mImpl : c.shared.mImpl = false
  mShutdown : c.shared.mShutdown = true
  mStopped : c.shared.mWorkQueue.mStopped = true
  idle : c.idle .worker = true
  hushed : ∀ w, Hushed c w

inductive Phase (c : Threads) : Prop
  | serving (facade : c.shared.facade = true) (mImpl : c.shared.mImpl = true) (up : c.shared.mShutdown = false)
      (running : c.shared.mWorkQueue.mStopped = false) (never : c.shared.freed = 0) (none : ∀ w, Alone c w)
  | leaving (w : Nat) (stage : Stage) (below : List Piece) (facade : c.shared.facade = false) (mImpl : c.shared.mImpl = true)
      (never : c.shared.freed = 0) (found : c.tasks[w]? = some ⟨.user, stage.pieces ++ below⟩) (reached : stage.reached c)
      (plain : ∀ q ∈ below, q.isCode = true) (alone : Alone c w) (hushed : Hushed c w)
  | kept (gone : Gone c) (never : c.shared.freed = 0) (none : ∀ w, Alone c w) (refs : 0 < c.count Piece.isRelease)
  | dying (w : Nat) (o : Owner) (last : Last) (below : List Piece) (gone : Gone c) (never : c.shared.freed = 0)
      (found : c.tasks[w]? = some ⟨o, last.pieces ++ below⟩) (other : o ≠ .worker) (plain : ∀ q ∈ below, q.isCode = true)
      (alone : Alone c w) (refs : c.count Piece.isRelease = 0)
  | freed (gone : Gone c) (once : c.shared.freed = 1) (none : ∀ w, Alone c w) (refs : c.count Piece.isRelease = 0)

theorem Alone.ran (alone : Alone c w) (ran : Tasks.Ran (perform choice) c i c' o p rest outs)
    (none : i ≠ w → ∀ q ∈ outs, q.ofEnd = false) : Alone c' w := by
  intro j t found other q mem
  rw [ran.lookup] at found
  split at found
  · next same =>
    subst same
    cases found
    rcases List.mem_append.1 mem with new | old
    · exact none other q new
    · exact alone i _ ran.task other q (List.mem_cons_of_mem _ old)
  · exact alone j t found other q mem

theorem Hushed.ran (hushed : Hushed c w) (ran : Tasks.Ran (perform choice) c i c' o p rest outs)
    (none : i ≠ w → o ≠ .worker → .access ∉ outs) : Hushed c' w := by
  intro j t found other owner mem
  rw [ran.lookup] at found
  split at found
  · next same =>
    subst same
    cases found
    rcases List.mem_append.1 mem with new | old
    · exact none other owner new
    · exact hushed i _ ran.task other owner (List.mem_cons_of_mem _ old)
  · exact hushed j t found other owner mem

/-- Nothing of a destructor on `w` either. -/
theorem Alone.all (alone : Alone c w) (found : c.tasks[w]? = some ⟨o, below⟩) (free : ∀ q ∈ below, q.ofEnd = false) (v : Nat) :
    Alone c v := by
  intro j t here _ q mem
  by_cases same : j = w
  · subst same
    cases found.symm.trans here
    exact free q mem
  · exact alone j t here same q mem

theorem Hushed.all (hushed : Hushed c w) (found : c.tasks[w]? = some ⟨o, below⟩) (free : .access ∉ below) (v : Nat) :
    Hushed c v := by
  intro j t here _ owner mem
  by_cases same : j = w
  · subst same
    cases found.symm.trans here
    exact free mem
  · exact hushed j t here same owner mem

theorem plain_free {below : List Piece} (plain : ∀ q ∈ below, q.isCode = true) :
    (∀ q ∈ below, q.ofEnd = false) ∧ .access ∉ below := by
  refine ⟨fun q mem => ?_, fun mem => nomatch plain _ mem⟩
  have code := plain q mem
  cases q <;> first | rfl | cases code

/-- What a piece outside the destructors leaves. -/
structure Aside (s s' : Lifetime) (outs : List Piece) : Prop where
  facade : s'.facade = s.facade
  mImpl : s'.mImpl = s.mImpl
  mShutdown : s'.mShutdown = s.mShutdown
  mStopped : s'.mWorkQueue.mStopped = s.mWorkQueue.mStopped
  freed : s'.freed = s.freed
  none : ∀ q ∈ outs, q.ofEnd = false

theorem Piece.code_free (code : p.isCode = true) : p.ofEnd = false := by
  cases p <;> first | rfl | cases code

/-- A piece outside the destructors leaves them alone, or it begins one. -/
theorem Performs.aside (performs : Performs c i choice p s' outs) (other : p.ofEnd = false) :
    (Aside c.shared s' outs ∧ (p = .release → refs c ≠ 1)) ∨
    (choice = .destroys ∧ c.shared.facade = true ∧ s' = { c.shared with facade := false } ∧ p.isCode = true ∧
      outs = Stage.shutdown.pieces ++ [p]) ∨
    (p = .release ∧ refs c = 1 ∧ s' = c.shared ∧ outs = Last.shutdown.pieces) := by
  cases performs with
  | calls code =>
    refine .inl ⟨⟨rfl, rfl, rfl, rfl, rfl, List.forall_mem_cons.2 ⟨rfl, List.forall_mem_singleton.2 other⟩⟩, ?_⟩
    rintro rfl
    cases code
  | destroys code facade => exact .inr (.inl ⟨rfl, facade, rfl, code, rfl⟩)
  | returns code =>
    refine .inl ⟨⟨rfl, rfl, rfl, rfl, rfl, List.forall_mem_nil _⟩, ?_⟩
    rintro rfl
    cases code
  | callsBack | takes running | locks alive =>
    exact .inl ⟨⟨rfl, rfl, rfl, rfl, rfl, by simp [Piece.ofEnd]⟩, fun h => nomatch h⟩
  | called | exits stopped | expired => exact .inl ⟨⟨rfl, rfl, rfl, rfl, rfl, List.forall_mem_nil _⟩, fun h => nomatch h⟩
  | posts same => exact .inl ⟨⟨rfl, rfl, rfl, same, rfl, List.forall_mem_nil _⟩, fun h => nomatch h⟩
  | drops more => exact .inl ⟨⟨rfl, rfl, rfl, rfl, rfl, List.forall_mem_nil _⟩, fun _ => more⟩
  | dropsLast last => exact .inr (.inr ⟨rfl, last, rfl, rfl⟩)
  | _ => cases other

/-- Where a call comes from. -/
theorem Performs.access (performs : Performs c i choice p s' outs) (mem : .access ∈ outs) : choice = .calls ∨ p = .access := by
  cases performs with
  | calls code => exact .inl rfl
  | callsBack => exact .inr rfl
  | destroys code facade =>
    simp only [List.mem_cons, List.not_mem_nil, or_false, reduceCtorEq, false_or] at mem
    exact .inr mem.symm
  | _ => simp at mem

/-- While the object is not there, a thread comes into a call only out of one. -/
theorem Performs.hushed (performs : Performs c i choice p s' outs) (proper : Proper c (.run i choice))
    (task : c.tasks[i]? = some ⟨o, p :: rest⟩) (facade : c.shared.facade = false) (owner : o ≠ .worker)
    (silent : .access ∉ p :: rest) (stop : .stop ∉ p :: rest) : .access ∉ outs := by
  intro mem
  obtain rfl | rfl := performs.access mem
  · obtain here | here | here := proper _ task
    · rw [facade] at here
      cases here
    · exact owner here
    · exact stop here
  · exact silent List.mem_cons_self

@[simp] theorem isRelease_iff : p.isRelease = true ↔ p = .release := by
  cases p <;> simp [Piece.isRelease]

/-- Without `mImpl`, handlers lock the object exactly while another one has. -/
theorem Performs.release (performs : Performs c i choice p s' outs) (ran : Tasks.Ran (perform choice) c i c' o p rest outs)
    (mImpl : c.shared.mImpl = false) (more : p = .release → refs c ≠ 1) :
    0 < c'.count Piece.isRelease ↔ 0 < c.count Piece.isRelease := by
  have moved := ran.count Piece.isRelease
  have here := Tasks.count_pos (p := Piece.isRelease) ran.at_head
  simp only [refs, mImpl, Bool.toNat_false, Nat.zero_add] at more
  simp only [isRelease_iff] at moved here
  cases performs with
  | locks alive =>
    simp only [refs, mImpl, Bool.toNat_false, Nat.zero_add] at alive
    simp at moved
    omega
  | drops _ =>
    have one := more rfl
    have pending := here rfl
    simp at moved
    omega
  | dropsLast last =>
    simp only [refs, mImpl, Bool.toNat_false, Nat.zero_add] at last
    exact absurd last (more rfl)
  | calls code | destroys code facade | returns code =>
    have other : p ≠ .release := by
      rintro rfl
      cases code
    simp [other] at moved
    simp [moved]
  | _ =>
    simp at moved
    simp [moved]

/-- What is in a destructor is on the thread that runs it. -/
theorem Alone.outside (alone : Alone c w) (ran : Tasks.Ran (perform choice) c i c' o p rest outs) (other : i ≠ w) :
    p.ofEnd = false ∧ .stop ∉ p :: rest := by
  have free := alone i _ ran.task other
  exact ⟨free p List.mem_cons_self, fun mem => nomatch free _ mem⟩

/-- Another thread moves outside the destructors, after the object is gone. -/
theorem Gone.ran (gone : Gone c) (ran : Tasks.Ran (perform choice) c i c' o p rest outs) (proper : Proper c (.run i choice))
    (stop : .stop ∉ p :: rest) (aside : Aside c.shared c'.shared outs) : Gone c' := by
  obtain ⟨facade, mImpl, mShutdown, mStopped, idle, hushed⟩ := gone
  have owner : o ≠ .worker := by
    rintro rfl
    exact Tasks.not_at_of_idle idle ran.at_head
  have silent := hushed (i + 1) i _ ran.task (by omega) owner
  have none := (perform_performs ran.action).hushed proper ran.task facade owner silent stop
  exact ⟨aside.facade.trans facade, aside.mImpl.trans mImpl, aside.mShutdown.trans mShutdown, aside.mStopped.trans mStopped,
    ran.idle_kept idle, fun w => (hushed w).ran ran fun _ _ => none⟩

/-- The stages do not depend on other threads. -/
theorem Stage.reached_ran {stage : Stage} (reached : stage.reached c) (ran : Tasks.Ran (perform choice) c i c' o p rest outs)
    (mShutdown : c'.shared.mShutdown = c.shared.mShutdown)
    (mStopped : c'.shared.mWorkQueue.mStopped = c.shared.mWorkQueue.mStopped) : stage.reached c' := by
  cases stage <;> simp only [Stage.reached, mShutdown, mStopped] at reached ⊢
  · exact reached
  · exact reached
  · exact reached
  · exact reached
  · exact ⟨reached.1, reached.2.1, ran.idle_kept reached.2.2⟩

/-- The thread that destroys the object goes on. -/
theorem Stage.ran {stage : Stage} (facade : c.shared.facade = false) (mImpl : c.shared.mImpl = true) (never : c.shared.freed = 0)
    (found : c.tasks[i]? = some ⟨.user, stage.pieces ++ below⟩) (reached : stage.reached c)
    (plain : ∀ q ∈ below, q.isCode = true) (alone : Alone c i) (hushed : Hushed c i)
    (ran : Tasks.Ran (perform choice) c i c' o p rest outs) : Phase c' := by
  have performs := perform_performs ran.action
  have after : c'.tasks[i]? = some ⟨o, outs ++ rest⟩ := by rw [ran.lookup, if_pos rfl]
  have alone' := alone.ran ran fun h => absurd rfl h
  have hushed' := hushed.ran ran fun h => absurd rfl h
  have stack := ran.task.symm.trans found
  -- to the next stage
  have goes : ∀ next : Stage, o = .user → outs ++ rest = next.pieces ++ below → c'.shared.facade = false → c'.shared.mImpl = true →
      c'.shared.freed = 0 → next.reached c' → Phase c' := by
    rintro next rfl eq facade' mImpl' never' reached'
    exact .leaving i next below facade' mImpl' never' (by rw [after, eq]) reached' plain alone' hushed'
  obtain ⟨rfl, eq⟩ := Task.mk.inj (Option.some.inj stack)
  have moved := ran.count Piece.isRelease
  generalize is : c'.shared = s' at performs
  cases stage with
  | shutdown =>
    obtain ⟨up, running⟩ := reached
    cases eq
    cases performs with
    | isDown down => rw [up] at down; cases down
    | shutsDown _ =>
      exact goes (.stop []) rfl rfl (by rw [is]; exact facade) (by rw [is]; exact mImpl) (by rw [is]; exact never)
        ⟨by rw [is], by rw [is]; exact running, by simp⟩
    | calls code | destroys code _ | returns code => cases code
  | stop above =>
    obtain ⟨down, running, inside⟩ := reached
    have stays : ∀ above', s' = c.shared → outs ++ rest = (Stage.stop above').pieces ++ below →
        (∀ q ∈ above', q = .body ∨ q = .access) → Phase c' := by
      rintro above' rfl eq inside'
      exact goes (.stop above') rfl eq (by rw [is]; exact facade) (by rw [is]; exact mImpl) (by rw [is]; exact never)
        ⟨by rw [is]; exact down, by rw [is]; exact running, inside'⟩
    cases above with
    | nil =>
      cases eq
      cases performs with
      | stopCallsBack => exact stays [.body] rfl rfl (by simp)
      | stopped =>
        exact goes .stopQueue rfl rfl (by rw [is]; exact facade) (by rw [is]; exact mImpl) (by rw [is]; exact never)
          ⟨by rw [is]; exact down, by rw [is]; exact running⟩
      | calls code | destroys code _ | returns code => cases code
    | cons q above =>
      obtain ⟨rfl, rfl⟩ := List.cons.inj eq
      have inside' := fun r mem => inside r (List.mem_cons_of_mem _ mem)
      obtain rfl | rfl := inside p List.mem_cons_self
      · cases performs with
        | calls _ => exact stays (.access :: .body :: above) rfl rfl (by simpa using inside')
        | destroys _ there => rw [facade] at there; cases there
        | returns _ => exact stays above rfl rfl inside'
      · cases performs with
        | callsBack => exact stays (.body :: .access :: above) rfl rfl (by simpa using inside')
        | called => exact stays above rfl rfl inside'
        | calls code | destroys code _ | returns code => cases code
  | stopQueue =>
    obtain ⟨down, running⟩ := reached
    cases eq
    cases performs with
    | isStopped stopped => rw [running] at stopped; cases stopped
    | detaches _ own =>
      obtain ⟨t, here, mine⟩ := own
      cases ran.task.symm.trans here
      cases mine
    | stops _ =>
      exact goes .join rfl rfl (by rw [is]; exact facade) (by rw [is]; exact mImpl) (by rw [is]; exact never)
        ⟨by rw [is]; exact down, by rw [is]; rfl⟩
    | calls code | destroys code _ | returns code => cases code
  | join =>
    obtain ⟨down, stopped⟩ := reached
    cases eq
    cases performs with
    | joins idle =>
      exact goes .reset rfl rfl (by rw [is]; exact facade) (by rw [is]; exact mImpl) (by rw [is]; exact never)
        ⟨by rw [is]; exact down, by rw [is]; exact stopped, ran.idle_kept idle⟩
    | calls code | destroys code _ | returns code => cases code
  | reset =>
    obtain ⟨down, stopped, idle⟩ := reached
    cases eq
    obtain ⟨free, silent⟩ := plain_free plain
    have gone : s' = { c.shared with mImpl := false } → .access ∉ outs ++ below → Gone c' := by
      rintro rfl silent
      exact ⟨by rw [is]; exact facade, by rw [is], by rw [is]; exact down, by rw [is]; exact stopped, ran.idle_kept idle,
        hushed'.all after silent⟩
    cases performs with
    | resets more =>
      simp only [refs, mImpl, Bool.toNat_true] at more
      simp at moved
      exact .kept (gone rfl silent) (by rw [is]; exact never) (alone'.all after free) (by omega)
    | resetsLast last =>
      simp only [refs, mImpl, Bool.toNat_true] at last
      simp at moved
      exact .dying i .user .shutdown below (gone rfl (by simpa using silent)) (by rw [is]; exact never) after (fun h => nomatch h)
        plain alone' (by omega)
    | calls code | destroys code _ | returns code => cases code

/-- The thread that destroys `CImpl` goes on; the queue has been stopped. -/
theorem Last.ran {last : Last} (gone : Gone c) (never : c.shared.freed = 0)
    (found : c.tasks[i]? = some ⟨o, last.pieces ++ below⟩) (other : o ≠ .worker) (plain : ∀ q ∈ below, q.isCode = true)
    (alone : Alone c i) (refs : c.count Piece.isRelease = 0)
    (ran : Tasks.Ran (perform choice) c i c' o p rest outs) : Phase c' := by
  have performs := perform_performs ran.action
  have after : c'.tasks[i]? = some ⟨o, outs ++ rest⟩ := by rw [ran.lookup, if_pos rfl]
  have alone' := alone.ran ran fun h => absurd rfl h
  have moved := ran.count Piece.isRelease
  obtain ⟨-, eq⟩ := Task.mk.inj (Option.some.inj (ran.task.symm.trans found))
  obtain ⟨free, silent⟩ := plain_free plain
  obtain ⟨facade, mImpl, down, stopped, idle, hushed⟩ := gone
  generalize is : c'.shared = s' at performs
  have goes : ∀ next : Last, s' = c.shared → outs = [] → rest = next.pieces ++ below → p.isRelease = false → Phase c' := by
    rintro next rfl rfl rfl head
    rw [head] at moved
    have none : c'.count Piece.isRelease = 0 := by simpa [refs] using moved
    refine .dying i o next below ⟨by rw [is]; exact facade, by rw [is]; exact mImpl, by rw [is]; exact down, by rw [is]; exact stopped,
      ran.idle_kept idle, fun w => (hushed w).ran ran fun _ _ => List.not_mem_nil⟩ (by rw [is]; exact never) after other plain alone'
      none
  cases last with
  | shutdown =>
    cases eq
    cases performs with
    | isDown _ => exact goes .stopQueue rfl rfl rfl rfl
    | shutsDown up => rw [down] at up; cases up
    | calls code | destroys code _ | returns code => cases code
  | stopQueue =>
    cases eq
    cases performs with
    | isStopped _ => exact goes .free rfl rfl rfl rfl
    | detaches running _ | stops running => rw [stopped] at running; cases running
    | calls code | destroys code _ | returns code => cases code
  | free =>
    cases eq
    cases performs with
    | frees =>
      refine .freed ⟨by rw [is]; exact facade, by rw [is]; exact mImpl, by rw [is]; exact down, by rw [is]; exact stopped,
        ran.idle_kept idle, fun w => (hushed w).ran ran fun _ _ => List.not_mem_nil⟩ (by rw [is]; simp [never])
        (alone'.all after free) ?_
      simpa [refs] using moved
    | calls code | destroys code _ | returns code => cases code

theorem Phase.ran (phase : Phase c) (shaped : Shaped c) (ran : Tasks.Ran (perform choice) c i c' o p rest outs)
    (proper : Proper c (.run i choice)) : Phase c' := by
  have performs := perform_performs ran.action
  have after : c'.tasks[i]? = some ⟨o, outs ++ rest⟩ := by rw [ran.lookup, if_pos rfl]
  cases phase with
  | serving facade mImpl up running never none =>
    obtain ⟨other, stop⟩ := (none (i + 1)).outside ran (by omega)
    obtain ⟨aside, -⟩ | ⟨rfl, -, is, code, rfl⟩ | ⟨rfl, last, -, -⟩ := performs.aside other
    · exact .serving (aside.facade.trans facade) (aside.mImpl.trans mImpl) (aside.mShutdown.trans up) (aside.mStopped.trans running)
        (aside.freed.trans never) fun w => (none w).ran ran fun _ => aside.none
    · obtain ⟨notWorker, calls⟩ := proper
      have owner : o = .user := by
        cases o with
        | user => rfl
        | worker => exact absurd rfl (notWorker _ ran.task)
        | io => cases shaped.io _ ran.mem rfl <;> cases code
      subst owner
      have silent : .access ∉ p :: rest := calls _ ran.mem (fun h => nomatch h)
      have plain : ∀ q ∈ p :: rest, q.isCode = true := by
        intro q mem
        have user := shaped.user _ ran.mem rfl q mem
        have free := none (i + 1) i _ ran.task (by omega) q mem
        cases q <;> first | rfl | exact absurd mem silent | (cases user; done) | cases free
      refine .leaving i .shutdown (p :: rest) (by rw [is]) (by rw [is]; exact mImpl) (by rw [is]; exact never) ?_ ?_ plain
        ((none i).ran ran fun h => absurd rfl h) ?_
      · rw [after]
        rfl
      · rw [Stage.reached, is]
        exact ⟨up, running⟩
      · intro j t found other owner
        rw [ran.lookup, if_neg (Ne.symm other)] at found
        exact calls t (List.mem_of_getElem? found) owner
    · have pending := Tasks.count_pos (p := Piece.isRelease) ran.at_head rfl
      simp only [Lifetime.refs, mImpl, Bool.toNat_true] at last
      omega
  | leaving w stage below facade mImpl never found reached plain alone hushed =>
    by_cases same : i = w
    · subst same
      exact Stage.ran facade mImpl never found reached plain alone hushed ran
    · obtain ⟨other, stop⟩ := alone.outside ran same
      obtain ⟨aside, -⟩ | ⟨-, there, -⟩ | ⟨rfl, last, -⟩ := performs.aside other
      · refine .leaving w stage below (aside.facade.trans facade) (aside.mImpl.trans mImpl) (aside.freed.trans never) ?_
          (Stage.reached_ran reached ran aside.mShutdown aside.mStopped) plain (alone.ran ran fun _ => aside.none) ?_
        · rw [ran.lookup, if_neg same, found]
        · exact hushed.ran ran fun other owner => performs.hushed proper ran.task facade owner
            (hushed i _ ran.task other owner) stop
      · rw [facade] at there
        cases there
      · have pending := Tasks.count_pos (p := Piece.isRelease) ran.at_head rfl
        simp only [Lifetime.refs, mImpl, Bool.toNat_true] at last
        omega
  | kept gone never none refs =>
    obtain ⟨other, stop⟩ := (none (i + 1)).outside ran (by omega)
    obtain ⟨aside, more⟩ | ⟨-, there, -⟩ | ⟨rfl, last, is, rfl⟩ := performs.aside other
    · exact .kept (gone.ran ran proper stop aside) (aside.freed.trans never) (fun w => (none w).ran ran fun _ => aside.none)
        ((performs.release ran gone.mImpl more).2 refs)
    · rw [gone.facade] at there
      cases there
    · obtain ⟨rfl, rfl⟩ : o = .io ∧ rest = [] := by
        cases o with
        | io => cases shaped.io _ ran.mem rfl; exact ⟨rfl, rfl⟩
        | worker => cases shaped.worker _ ran.mem rfl _ List.mem_cons_self
        | user => cases shaped.user _ ran.mem rfl _ List.mem_cons_self
      have moved := ran.count Piece.isRelease
      simp only [Lifetime.refs, gone.mImpl, Bool.toNat_false, Nat.zero_add] at last
      refine .dying i .io .shutdown [] ?_ (by rw [is]; exact never) after (fun h => nomatch h) (List.forall_mem_nil _)
        ((none i).ran ran fun h => absurd rfl h) (by simp [Last.pieces] at moved; omega)
      obtain ⟨facade, mImpl, mShutdown, mStopped, idle, hushed⟩ := gone
      exact ⟨by rw [is, facade], by rw [is, mImpl], by rw [is, mShutdown], by rw [is, mStopped], ran.idle_kept idle,
        fun w => (hushed w).ran ran fun _ _ => by simp [Last.pieces]⟩
  | dying w o' last below gone never found other plain alone refs =>
    by_cases same : i = w
    · subst same
      obtain ⟨rfl, stack⟩ := Task.mk.inj (Option.some.inj (ran.task.symm.trans found))
      exact Last.ran gone never (stack ▸ ran.task) other plain alone refs ran
    · obtain ⟨outside, stop⟩ := alone.outside ran same
      obtain ⟨aside, more⟩ | ⟨-, there, -⟩ | ⟨rfl, -, -⟩ := performs.aside outside
      · refine .dying w o' last below (gone.ran ran proper stop aside) (aside.freed.trans never) ?_ other plain
          (alone.ran ran fun _ => aside.none) ?_
        · rw [ran.lookup, if_neg same, found]
        · have none := (performs.release ran gone.mImpl more).not
          omega
      · rw [gone.facade] at there
        cases there
      · have pending := Tasks.count_pos (p := Piece.isRelease) ran.at_head rfl
        omega
  | freed gone once none refs =>
    obtain ⟨other, stop⟩ := (none (i + 1)).outside ran (by omega)
    obtain ⟨aside, more⟩ | ⟨-, there, -⟩ | ⟨rfl, -, -⟩ := performs.aside other
    · refine .freed (gone.ran ran proper stop aside) (aside.freed.trans once) (fun w => (none w).ran ran fun _ => aside.none) ?_
      have none := (performs.release ran gone.mImpl more).not
      omega
    · rw [gone.facade] at there
      cases there
    · have pending := Tasks.count_pos (p := Piece.isRelease) ran.at_head rfl
      omega

/-- A handler is in a destructor only after the object is gone. -/
theorem Phase.gone_of_io (phase : Phase c) (task : c.tasks[i]? = some ⟨.io, p :: rest⟩) (ends : p.ofEnd = true) : Gone c := by
  have not_alone : ∀ {w}, i ≠ w → Alone c w → False := by
    intro w other alone
    rw [alone i _ task other p List.mem_cons_self] at ends
    cases ends
  cases phase with
  | serving facade mImpl up running never none => exact (not_alone (by omega) (none (i + 1))).elim
  | leaving w stage below facade mImpl never found reached plain alone hushed =>
    by_cases same : i = w
    · subst same
      cases task.symm.trans found
    · exact (not_alone same alone).elim
  | kept gone => exact gone
  | dying w o last below gone => exact gone
  | freed gone => exact gone

/-- **A thread stays what it is.** -/
theorem Shaped.ran (shaped : Shaped c) (phase : Phase c) (ran : Tasks.Ran (perform choice) c i c' o p rest outs)
    (proper : Proper c (.run i choice)) : Shaped c' := by
  have performs := perform_performs ran.action
  generalize c'.shared = s' at performs
  refine ⟨fun t mem owner => ?_, fun t mem owner => ?_, fun t mem owner => ?_⟩ <;> obtain rfl | old := ran.mem_after mem
  · -- the worker
    cases owner
    have own := shaped.worker _ ran.mem rfl
    have piece := own p List.mem_cons_self
    refine List.forall_mem_append.2 ⟨fun q mem => ?_, fun q mem => own q (List.mem_cons_of_mem _ mem)⟩
    cases performs with
    | destroys code facade => exact absurd rfl (proper.1 _ ran.task)
    | calls code =>
      simp only [List.mem_cons, List.not_mem_nil, or_false] at mem
      obtain rfl | rfl := mem
      · rfl
      · exact piece
    | callsBack | takes running =>
      simp only [List.mem_cons, List.not_mem_nil, or_false] at mem
      obtain rfl | rfl := mem <;> rfl
    | returns code | called | exits stopped => cases mem
    | _ => cases piece
  · exact shaped.worker t old owner
  · -- a handler
    cases owner
    have handler := shaped.io _ ran.mem rfl
    cases handler with
    | locks =>
      cases performs with
      | locks alive => exact .event
      | expired => exact .done
      | calls code | destroys code facade | returns code => cases code
    | event =>
      cases performs with
      | posts same => exact .releases
      | calls code | destroys code facade | returns code => cases code
    | releases =>
      cases performs with
      | drops more => exact .done
      | dropsLast last => exact .shutdown
      | calls code | destroys code facade | returns code => cases code
    | shutdown =>
      have gone := phase.gone_of_io ran.task rfl
      cases performs with
      | isDown down => exact .stopQueue
      | shutsDown up => rw [gone.mShutdown] at up; cases up
      | calls code | destroys code facade | returns code => cases code
    | stopQueue =>
      have gone := phase.gone_of_io ran.task rfl
      cases performs with
      | isStopped stopped => exact .frees
      | detaches running _ | stops running => rw [gone.mStopped] at running; cases running
      | calls code | destroys code facade | returns code => cases code
    | frees =>
      cases performs with
      | frees => exact .done
      | calls code | destroys code facade | returns code => cases code
  · exact shaped.io t old owner
  · -- the application's own
    cases owner
    have own := shaped.user _ ran.mem rfl
    have piece := own p List.mem_cons_self
    refine List.forall_mem_append.2 ⟨fun q mem => ?_, fun q mem => own q (List.mem_cons_of_mem _ mem)⟩
    cases performs with
    | calls code =>
      simp only [List.mem_cons, List.not_mem_nil, or_false] at mem
      obtain rfl | rfl := mem
      · rfl
      · exact piece
    | destroys code facade =>
      simp only [List.mem_cons, List.not_mem_nil, or_false] at mem
      obtain rfl | rfl | rfl := mem
      · rfl
      · rfl
      · exact piece
    | callsBack | stopCallsBack | shutsDown up =>
      simp only [List.mem_cons, List.not_mem_nil, or_false] at mem
      obtain rfl | rfl := mem <;> rfl
    | resetsLast last =>
      simp only [List.mem_cons, List.not_mem_nil, or_false] at mem
      obtain rfl | rfl | rfl := mem <;> rfl
    | stops running =>
      cases List.mem_singleton.1 mem
      rfl
    | exits stopped | takes running | locks alive | dropsLast last => cases piece
    | _ => cases mem
  · exact shaped.user t old owner

/-- What holds in every run that keeps the rules. -/
structure Sound (c : Threads) : Prop where
  shaped : Shaped c
  phase : Phase c

theorem Sound.spawn {q : Piece} (sound : Sound c) (owner : o ≠ .worker) (outside : q.ofEnd = false) (call : q ≠ .access)
    (counted : q.isRelease = false) (io : o = .io → Handler [q]) (user : o = .user → q.ofUser = true) : Sound (c.spawn o [q]) := by
  obtain ⟨⟨workers, ios, users⟩, phase⟩ := sound
  have alone : ∀ {w}, Alone c w → Alone (c.spawn o [q]) w := by
    intro w alone j t found other r mem
    simp only [Tasks.spawn, List.getElem?_append] at found
    split at found
    · exact alone j t found other r mem
    · cases List.mem_singleton.1 (List.mem_of_getElem? found)
      cases List.mem_singleton.1 mem
      exact outside
  have hushed : ∀ {w}, Hushed c w → Hushed (c.spawn o [q]) w := by
    intro w hushed j t found other owner mem
    simp only [Tasks.spawn, List.getElem?_append] at found
    split at found
    · exact hushed j t found other owner mem
    · cases List.mem_singleton.1 (List.mem_of_getElem? found)
      exact call (List.mem_singleton.1 mem).symm
  have kept : ∀ {w : Nat} {t : Task Owner Piece}, c.tasks[w]? = some t → (c.spawn o [q]).tasks[w]? = some t := by
    intro w t found
    rw [Tasks.spawn, List.getElem?_append_left (List.getElem?_eq_some_iff.1 found).1, found]
  have gone : Gone c → Gone (c.spawn o [q]) := fun gone =>
    ⟨gone.facade, gone.mImpl, gone.mShutdown, gone.mStopped, Tasks.idle_spawn_other gone.idle owner, fun w => hushed (gone.hushed w)⟩
  have count : (c.spawn o [q]).count Piece.isRelease = c.count Piece.isRelease := by
    rw [Tasks.count_spawn, List.countP_cons_of_neg (by rw [counted]; decide)]
    rfl
  refine ⟨⟨?_, ?_, ?_⟩, ?_⟩
  · intro t mem is
    rcases Tasks.mem_spawn.1 mem with old | rfl
    · exact workers t old is
    · exact absurd is owner
  · intro t mem is
    rcases Tasks.mem_spawn.1 mem with old | rfl
    · exact ios t old is
    · exact io is
  · intro t mem is r here
    rcases Tasks.mem_spawn.1 mem with old | rfl
    · exact users t old is r here
    · cases List.mem_singleton.1 here
      exact user is
  · cases phase with
    | serving facade mImpl up running never none => exact .serving facade mImpl up running never fun w => alone (none w)
    | leaving w stage below facade mImpl never found reached plain only silent =>
      refine .leaving w stage below facade mImpl never (kept found) ?_ plain (alone only) (hushed silent)
      cases stage
      · exact reached
      · exact reached
      · exact reached
      · exact reached
      · exact ⟨reached.1, reached.2.1, Tasks.idle_spawn_other reached.2.2 owner⟩
    | kept away never none refs => exact .kept (gone away) never (fun w => alone (none w)) (count ▸ refs)
    | dying w o' last below away never found other plain only refs =>
      exact .dying w o' last below (gone away) never (kept found) other plain (alone only) (count.trans refs)
    | freed away once none refs => exact .freed (gone away) once (fun w => alone (none w)) (count.trans refs)

/-- **Every step keeps it.** -/
theorem Sound.step (sound : Sound c) (proper : Proper c l) (step : step c l = some c') : Sound c' := by
  cases l with
  | thread => cases step; exact sound.spawn (fun h => nomatch h) rfl (fun h => nomatch h) rfl (fun h => nomatch h) fun _ => rfl
  | io fn => cases step; exact sound.spawn (fun h => nomatch h) rfl (fun h => nomatch h) rfl (fun _ => .locks) fun h => nomatch h
  | run i choice =>
    obtain ⟨o, p, rest, outs, ran⟩ := Tasks.run_inv step
    exact ⟨sound.shaped.ran sound.phase ran proper, sound.phase.ran sound.shaped ran proper⟩

theorem create_sound : Sound create := by
  refine ⟨⟨?_, ?_, ?_⟩, .serving rfl rfl rfl rfl rfl ?_⟩
  · intro t mem owner q here
    cases List.mem_singleton.1 mem
    cases List.mem_singleton.1 here
    rfl
  · intro t mem owner
    cases List.mem_singleton.1 mem
    cases owner
  · intro t mem owner
    cases List.mem_singleton.1 mem
    cases owner
  · intro w j t found other q mem
    cases List.mem_singleton.1 (List.mem_of_getElem? found)
    cases List.mem_singleton.1 mem
    rfl

/-- A handler that is inside the object has locked it. -/
theorem Shaped.untouched (shaped : Shaped c) (gone : Gone c) (none : ∀ w, Alone c w) (refs : c.count Piece.isRelease = 0) :
    ∀ t ∈ c.tasks, ∀ p ∈ t.todo, p.touches = false := by
  intro t mem p here
  obtain ⟨i, found⟩ := List.mem_iff_getElem?.1 mem
  have outside := none (i + 1) i t found (by omega) p here
  have silent := gone.hushed (i + 1) i t found (by omega)
  rcases owner : t.owner with _ | _ | _
  · rw [Tasks.idle_iff.1 gone.idle t mem owner] at here
    cases here
  · have handler := shaped.io t mem owner
    have released : ∀ q ∈ t.todo, q.isRelease = false := Tasks.count_eq_zero.1 refs t mem
    generalize t.todo = todo at here handler released
    cases handler with
    | locks => cases List.mem_singleton.1 here; rfl
    | event => cases released .release (by simp)
    | releases => cases List.mem_singleton.1 here; rfl
    | shutdown | stopQueue | frees =>
      simp only [List.mem_cons, List.not_mem_nil, or_false] at here
      rcases here with rfl | rfl | rfl <;> cases outside
    | done => cases here
  · have user := shaped.user t mem owner p here
    have call : p ≠ .access := by
      rintro rfl
      exact silent (by rw [owner]; decide) here
    cases p <;> first | rfl | (cases user; done) | (cases outside; done) | exact absurd rfl call

theorem Sound.safe (sound : Sound c) : Safe c := by
  cases sound.phase with
  | serving facade mImpl up running never none =>
    exact ⟨by omega, fun h => by omega, fun h => absurd (mImpl.symm.trans h) (by decide)⟩
  | leaving w stage below facade mImpl never found reached plain alone hushed =>
    exact ⟨by omega, fun h => by omega, fun h => absurd (mImpl.symm.trans h) (by decide)⟩
  | kept gone never none refs => exact ⟨by omega, fun h => by omega, fun _ => gone.idle⟩
  | dying w o last below gone never found other plain alone refs => exact ⟨by omega, fun h => by omega, fun _ => gone.idle⟩
  | freed gone once none refs => exact ⟨by omega, fun _ => sound.shaped.untouched gone none refs, fun _ => gone.idle⟩

/-- When every thread is done with an object that was destroyed, `CImpl` is destroyed. -/
theorem Sound.freed (sound : Sound c) (facade : c.shared.facade = false) (quiet : c.quiet) : c.shared.freed = 1 := by
  cases sound.phase with
  | serving there => exact absurd (there.symm.trans facade) (by decide)
  | leaving w stage below _ mImpl never found =>
    have done := quiet _ (List.mem_of_getElem? found)
    cases stage <;> simp [Stage.pieces] at done
  | kept gone never none refs =>
    have none : c.count Piece.isRelease = 0 := Tasks.count_eq_zero.2 fun t mem q here => by
      rw [quiet t mem] at here
      cases here
    omega
  | dying w o last below gone never found =>
    have done := quiet _ (List.mem_of_getElem? found)
    cases last <;> simp [Last.pieces] at done
  | freed gone once => exact once

/-- A handler has the object locked while it is destroyed, which waits for a callback that calls it; the handler drops the
last reference. -/
def handlerLast : List Label :=
  [.io (some 1), .run 1 .returns, .run 1 .returns, .run 0 .returns, .thread, .run 2 .destroys, .run 2 .returns, .run 2 .returns,
    .run 2 .returns, .run 0 .calls, .run 0 .returns, .run 0 .returns, .run 0 .returns, .run 2 .returns, .run 2 .returns,
    .run 1 .returns, .run 1 .returns, .run 1 .returns, .run 1 .returns, .run 2 .returns]

/-- The rule is needed: a callback that destroys its object returns into what is no longer there. -/
example : ∃ c, system.exec create [.io (some 1), .run 1 .returns, .run 1 .returns, .run 1 .returns, .run 0 .returns,
    .run 0 .destroys, .run 0 .returns, .run 0 .returns, .run 0 .returns, .run 0 .returns, .run 0 .returns, .run 0 .returns,
    .run 0 .returns] = some c ∧ c.shared.freed = 1 ∧ c.tasks[0]? = some ⟨.worker, [.body, .loop]⟩ :=
  ⟨_, rfl, rfl, rfl⟩

end Lifetime

end Websockets
