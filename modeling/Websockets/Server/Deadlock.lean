import Websockets.Server.Locking

/-!
# Deadlocks

Threads wait in two places: for a mutex, and in `CWorkQueue::Stop` for a worker. The holder of a mutex never waits, so
what is left are workers that wait for one another, each in a callback that shuts the other's server down.
-/

namespace Websockets

open Std Lib

namespace Locking

/-- The server a piece is about. -/
def Piece.server? : Piece → Option Nat
  | .build n _ => some n
  | .enter n _ => some n
  | .locked n _ => some n
  | .unlock n => some n
  | .start n _ _ => some n
  | .post n _ => some n
  | .shutdown n => some n
  | .stopQueue n => some n
  | .joinWorker n => some n
  | _ => none

/-- Calls are made on servers that have been constructed. -/
def Named (c : Threads) : Label → Prop
  | .io n _ => n < c.shared.servers.length
  | .run _ (.calls n _) => n < c.shared.servers.length
  | _ => True

instance (c : Threads) : (l : Label) → Decidable (Named c l)
  | .io n _ => inferInstanceAs (Decidable (n < c.shared.servers.length))
  | .run _ (.calls n _) => inferInstanceAs (Decidable (n < c.shared.servers.length))
  | .run _ (.keeps _) => .isTrue trivial
  | .run _ (.drops _) => .isTrue trivial
  | .run _ (.returns _) => .isTrue trivial
  | .server _ _ => .isTrue trivial
  | .thread => .isTrue trivial
  | .work _ => .isTrue trivial

/-- Every piece is about a server there is. -/
def Known (c : Threads) : Prop := ∀ t ∈ c.tasks, ∀ p ∈ t.todo, ∀ n, p.server? = some n → n < c.shared.servers.length

/-- The worker of `n` waits for the worker of `m`. -/
def Joins (c : Threads) (n m : Nat) : Prop :=
  ∃ (i : Nat) (t : Task Owner Piece), c.tasks[i]? = some t ∧ t.owner = .worker n ∧ t.todo.head? = some (.joinWorker m)

/-- The workers of these servers wait for one another. -/
structure Ring (c : Threads) (servers : Set Nat) : Prop where
  nonempty : servers.Nonempty
  joins : ∀ n ∈ servers, ∃ m ∈ servers, m ≠ n ∧ Joins c n m

/-- Some thread is not done, and none can go on. -/
def Stuck (c : Threads) : Prop := ¬ c.quiet ∧ ∀ i choice, step c (.run i choice) = none

variable {c c' d : Threads} {i j n m : Nat} {p : Piece} {sec : Section} {s' : Shared} {outs rest : List Piece} {o : Owner}
  {choice : Choice} {l : Label} {ls : List Label} {servers : Set Nat}

/-! ## Servers that are named -/

theorem postBoth_server (n : Nat) (first second : Option Fn) : ∀ q ∈ postBoth n first second, ∀ m, q.server? = some m → m = n := by
  intro q mem m at'
  simp only [postBoth, List.mem_cons, List.not_mem_nil, or_false] at mem
  obtain rfl | rfl | rfl := mem
  · exact (Option.some.inj at').symm
  · exact (Option.some.inj at').symm
  · cases at'

/-- What comes after an unlock is about the same server. -/
theorem Section.body_server (n : Nat) (impl : CImpl) (sec : Section) :
    ∀ q ∈ (sec.body n impl).2, ∀ m, q.server? = some m → m = n := by
  intro q mem m at'
  cases sec with
  | stop =>
    obtain ⟨e, -, rfl⟩ := List.mem_map.1 mem
    exact (Option.some.inj at').symm
  | removeClient clientId =>
    simp only [Section.body] at mem
    split at mem
    · cases mem
    · cases List.mem_singleton.1 mem
      exact (Option.some.inj at').symm
  | anyClients uri delayed =>
    simp only [Section.body] at mem
    split at mem
    · cases List.mem_singleton.1 mem
      exact (Option.some.inj at').symm
    · cases mem
  | registerWsClient session path isSsl =>
    simp only [Section.body] at mem
    split at mem
    · cases mem
    · exact postBoth_server n _ _ q mem m at'
  | onWsClosed clientId =>
    simp only [Section.body] at mem
    split at mem
    · cases mem
    · exact postBoth_server n _ _ q mem m at'
  | lookupReceiveCallbacks clientId wantMessage =>
    simp only [Section.body, List.mem_cons, List.not_mem_nil, or_false] at mem
    obtain rfl | rfl := mem
    · exact (Option.some.inj at').symm
    · cases at'
  | findHttpHandler path =>
    simp only [Section.body, List.mem_cons, List.not_mem_nil, or_false] at mem
    obtain rfl | rfl := mem
    · exact (Option.some.inj at').symm
    · cases at'
  | notifyClosedSync clientId uri =>
    simp only [Section.body, List.mem_cons, List.not_mem_nil, or_false] at mem
    obtain rfl | rfl | rfl := mem <;> cases at'
  | _ => cases mem

/-- An unlock is not followed by a wait for a worker. -/
theorem Section.body_joins (n : Nat) (impl : CImpl) (sec : Section) (m : Nat) : .joinWorker m ∉ (sec.body n impl).2 := by
  intro mem
  cases sec <;> simp only [Section.body] at mem <;> (repeat' split at mem) <;> simp [postBoth] at mem

theorem Call.pieces_server (n : Nat) (call : Call) : ∀ q ∈ call.pieces n, ∀ m, q.server? = some m → m = n := by
  intro q mem m at'
  cases call with
  | start number clientCbs | addUri uri callbacks =>
    simp only [Call.pieces, List.mem_cons, List.not_mem_nil, or_false] at mem
    obtain rfl | rfl := mem
    · exact (Option.some.inj at').symm
    · cases at'
  | _ =>
    cases List.mem_singleton.1 mem
    exact (Option.some.inj at').symm

theorem Handled.pieces_server (n : Nat) (call : Handled) : ∀ q ∈ call.pieces n, ∀ m, q.server? = some m → m = n := by
  intro q mem m at'
  cases call with
  | httpRequest path =>
    simp only [Handled.pieces, List.mem_cons, List.not_mem_nil, or_false] at mem
    obtain rfl | rfl := mem <;> exact (Option.some.inj at').symm
  | _ =>
    cases List.mem_singleton.1 mem
    exact (Option.some.inj at').symm

/-- User code comes back, after a call on a server that is named. -/
theorem userCode_known {s : Shared} (known : ∀ n, p.server? = some n → n < s.servers.length)
    (named : ∀ n call, choice = .calls n call → n < s.servers.length) :
    (s.userCode p choice).1.servers.length = s.servers.length ∧
      ∀ q ∈ (s.userCode p choice).2, ∀ m, q.server? = some m → m < s.servers.length := by
  cases choice with
  | calls n call =>
    refine ⟨rfl, fun q mem m at' => ?_⟩
    rcases List.mem_append.1 mem with mem | mem
    · rw [call.pieces_server n q mem m at']
      exact named n call rfl
    · cases List.mem_singleton.1 mem
      exact known m at'
  | keeps g | drops g =>
    refine ⟨rfl, fun q mem m at' => ?_⟩
    cases List.mem_singleton.1 mem
    exact known m at'
  | returns throws =>
    refine ⟨by cases p <;> rfl, fun q mem m at' => ?_⟩
    cases p <;> cases throws <;> simp only [Shared.userCode, List.mem_singleton, List.not_mem_nil, if_true, if_false,
      Bool.false_eq_true] at mem
    · subst mem
      cases at'
    · subst mem
      exact known m at'

/-- What a thread does next is about servers there are. -/
theorem perform_known (done : perform choice c i p = some (s', outs)) (known : ∀ n, p.server? = some n → n < c.shared.servers.length)
    (named : Named c (.run i choice)) : s'.servers.length = c.shared.servers.length ∧
      ∀ q ∈ outs, ∀ m, q.server? = some m → m < c.shared.servers.length := by
  have called : ∀ n call, choice = .calls n call → n < c.shared.servers.length := by
    rintro n call rfl
    exact named
  -- pieces about the server of `p`
  have same : ∀ n, p.server? = some n → (∀ q ∈ outs, ∀ m, q.server? = some m → m = n) →
      ∀ q ∈ outs, ∀ m, q.server? = some m → m < c.shared.servers.length := by
    intro n at' about q mem m this
    rw [about q mem m this]
    exact known n at'
  cases p with
  | user | body left | build n uri | destroy g =>
    obtain ⟨rfl, rfl⟩ := Prod.mk.inj (Option.some.inj done)
    exact userCode_known known called
  | call cbs =>
    cases cbs with
    | nil => cases done; exact ⟨rfl, fun q mem => nomatch mem⟩
    | cons g left =>
      cases done
      refine ⟨rfl, fun q mem m at' => ?_⟩
      cases List.mem_singleton.1 mem
      cases at'
  | enter n sec =>
    simp only [perform] at done
    split at done
    · cases done
    · split at done
      · cases done
      · cases done
        refine ⟨rfl, same n rfl fun q mem m at' => ?_⟩
        cases List.mem_singleton.1 mem
        exact (Option.some.inj at').symm
  | locked n sec =>
    obtain ⟨node, -, is⟩ := Option.map_eq_some_iff.1 done
    cases is
    refine ⟨List.length_set, same n rfl fun q mem m at' => ?_⟩
    rcases List.mem_cons.1 mem with rfl | mem
    · exact (Option.some.inj at').symm
    · exact Section.body_server n node.impl sec q mem m at'
  | unlock n | release cbs => cases done; exact ⟨rfl, fun q mem => nomatch mem⟩
  | start n number clientCbs =>
    obtain ⟨node, -, is⟩ := Option.map_eq_some_iff.1 done
    cases is
    refine ⟨rfl, same n rfl fun q mem m at' => ?_⟩
    split at mem
    · cases mem
    · cases List.mem_singleton.1 mem
      exact (Option.some.inj at').symm
  | post n cbs =>
    obtain ⟨node, -, is⟩ := Option.map_eq_some_iff.1 done
    cases is
    refine ⟨?_, fun q mem => nomatch mem⟩
    split
    · rfl
    · exact List.length_set
  | shutdown n =>
    obtain ⟨node, -, is⟩ := Option.map_eq_some_iff.1 done
    split at is
    · cases is; exact ⟨rfl, fun q mem => nomatch mem⟩
    · cases is
      refine ⟨List.length_set, same n rfl fun q mem m at' => ?_⟩
      simp only [List.mem_cons, List.not_mem_nil, or_false] at mem
      obtain rfl | rfl := mem <;> exact (Option.some.inj at').symm
  | stopQueue n =>
    obtain ⟨node, -, is⟩ := Option.map_eq_some_iff.1 done
    split at is
    · cases is; exact ⟨rfl, fun q mem => nomatch mem⟩
    · cases is
      refine ⟨List.length_set, same n rfl fun q mem m at' => ?_⟩
      split at mem
      · cases mem
      · cases List.mem_singleton.1 mem
        exact (Option.some.inj at').symm
  | joinWorker n =>
    simp only [perform] at done
    split at done
    · cases done; exact ⟨rfl, fun q mem => nomatch mem⟩
    · cases done

theorem Known.spawn {todo : List Piece} (known : Known c) (fresh : ∀ q ∈ todo, ∀ m, q.server? = some m → m < c.shared.servers.length) :
    Known (c.spawn o todo) := by
  intro t mem
  rcases Tasks.mem_spawn.1 mem with old | rfl
  · exact known t old
  · exact fresh

/-- What a step is: a thread goes on, a thread is new, or a server is. -/
inductive Stepped (c : Threads) : Label → Threads → Prop
  | run {i : Nat} {choice : Choice} {c₁ : Threads} {o : Owner} {p : Piece} {rest outs : List Piece}
      (ran : Tasks.Ran (perform choice) c i c₁ o p rest outs) : Stepped c (.run i choice) (c₁.push i ((lost c c₁).map .destroy))
  | begins {l : Label} {o : Owner} {todo : List Piece} (joins : ∀ m, .joinWorker m ∉ todo)
      (fresh : ∀ q ∈ todo, ∀ m, q.server? = some m → Named c l → m < c.shared.servers.length) : Stepped c l (c.spawn o todo)
  | works {n : Nat} {node : Node} {s' : Shared} {cbs : List Fn} {queue : CWorkQueue (List Fn)}
      (idle : c.idle (.worker n) = true) (found : c.shared.servers[n]? = some node)
      (after : s' = c.shared.setNode n { node with mWorkQueue := queue }) :
      Stepped c (.work n) (Tasks.spawn { c with shared := s' } (.worker n) [.call cbs, .release cbs])
  | server {mutex : Nat} {allowedUris : Option (List Bytes)} :
      Stepped c (.server mutex allowedUris) { c with shared := { c.shared with
        servers := c.shared.servers ++ [{ mutex := mutex, impl := { allowedUris := allowedUris } }] } }

theorem step_stepped (step : step c l = some c') : Stepped c l c' := by
  cases l with
  | server mutex allowedUris => cases step; exact .server
  | thread =>
    cases step
    refine .begins (fun m mem => ?_) fun q mem m at' => ?_
    · cases List.mem_singleton.1 mem
    · cases List.mem_singleton.1 mem
      cases at'
  | io n call =>
    cases step
    refine .begins (fun m mem => ?_) fun q mem m at' named => ?_
    · cases call <;> simp [Handled.pieces] at mem
    · rw [call.pieces_server n q mem m at']
      exact named
  | work n =>
    simp only [Locking.step] at step
    split at step
    · next idle =>
      obtain ⟨node, found, taken⟩ := Option.bind_eq_some_iff.1 step
      obtain ⟨r, -, is⟩ := Option.map_eq_some_iff.1 taken
      cases is
      exact .works idle found rfl
    · cases step
  | run i choice =>
    obtain ⟨c₁, moved, is⟩ := Option.map_eq_some_iff.1 step
    cases is
    obtain ⟨o, p, rest, outs, ran⟩ := Tasks.run_inv moved
    exact .run ran

/-- **Every step keeps the servers known.** -/
theorem Known.step (known : Known c) (named : Named c l) (step : step c l = some c') : Known c' := by
  cases step_stepped step with
  | run ran =>
    obtain ⟨length, fresh⟩ := perform_known ran.action (known _ ran.mem _ List.mem_cons_self) named
    intro t mem q here m at'
    refine lt_of_lt_of_eq ?_ length.symm
    rcases ran.mem_push mem with rfl | old
    · rcases List.mem_append.1 here with dies | here
      · obtain ⟨g, -, rfl⟩ := List.mem_map.1 dies
        cases at'
      · rcases List.mem_append.1 here with new | old
        · exact fresh q new m at'
        · exact known _ ran.mem q (List.mem_cons_of_mem _ old) m at'
    · exact known t old q here m at'
  | begins joins fresh => exact known.spawn fun q mem m at' => fresh q mem m at' named
  | @works n node s' cbs queue idle found after =>
    have same : s'.servers.length = c.shared.servers.length := by
      rw [after]
      exact List.length_set
    have still : Known { c with shared := s' } := fun t mem q here m at' => by
      rw [same]
      exact known t mem q here m at'
    refine still.spawn fun q mem m at' => ?_
    simp only [List.mem_cons, List.not_mem_nil, or_false] at mem
    obtain rfl | rfl := mem <;> cases at'
  | server =>
    intro t mem q here m at'
    simp only [List.length_append]
    exact Nat.lt_add_right _ (known t mem q here m at')

/-! ## Who waits -/

/-- No worker waits for itself. -/
def Outside (c : Threads) : Prop := ∀ t ∈ c.tasks, ∀ n, .joinWorker n ∈ t.todo → t.owner ≠ .worker n

/-- A worker is waited for by a thread that is another. -/
theorem perform_joins (ran : Tasks.Ran (perform choice) c i c' o p rest outs) (mem : .joinWorker n ∈ outs) : o ≠ .worker n := by
  have done := ran.action
  generalize c'.shared = s' at done
  have user : ∀ p : Piece, (∀ m, p ≠ .joinWorker m) → .joinWorker n ∉ (c.shared.userCode p choice).2 := by
    intro p other mem
    cases choice with
    | calls m call =>
      rcases List.mem_append.1 mem with mem | mem
      · cases call <;> simp [Call.pieces] at mem
      · exact other n (List.mem_singleton.1 mem).symm
    | keeps g | drops g => exact other n (List.mem_singleton.1 mem).symm
    | returns throws => cases p <;> cases throws <;> simp [Shared.userCode] at mem
  cases p with
  | stopQueue m =>
    obtain ⟨node, -, is⟩ := Option.map_eq_some_iff.1 done
    split at is
    · cases is; cases mem
    · cases is
      split at mem
      · cases mem
      · next outside =>
        cases List.mem_singleton.1 mem
        rintro rfl
        simp [ran.task] at outside
  | user | body left | build m uri | destroy g =>
    obtain ⟨-, rfl⟩ := Prod.mk.inj (Option.some.inj done)
    exact absurd mem (user _ (fun m h => nomatch h))
  | call cbs => cases cbs <;> cases done <;> simp at mem
  | enter m sec =>
    simp only [perform] at done
    split at done
    · cases done
    · split at done
      · cases done
      · cases done; simp at mem
  | locked m sec =>
    obtain ⟨node, -, is⟩ := Option.map_eq_some_iff.1 done
    cases is
    rcases List.mem_cons.1 mem with h | mem
    · cases h
    · have := Section.body_joins m node.impl sec
      exact absurd mem (this n)
  | unlock m | release cbs => cases done; cases mem
  | start m number clientCbs =>
    obtain ⟨node, -, is⟩ := Option.map_eq_some_iff.1 done
    cases is
    split at mem <;> simp at mem
  | post m cbs => obtain ⟨node, -, is⟩ := Option.map_eq_some_iff.1 done; cases is; cases mem
  | shutdown m =>
    obtain ⟨node, -, is⟩ := Option.map_eq_some_iff.1 done
    split at is <;> cases is <;> simp at mem
  | joinWorker m =>
    simp only [perform] at done
    split at done <;> cases done
    cases mem

theorem Outside.step (outside : Outside c) (step : step c l = some c') : Outside c' := by
  cases step_stepped step with
  | run ran =>
    intro t mem n here
    rcases ran.mem_push mem with rfl | old
    · rcases List.mem_append.1 here with dies | here
      · obtain ⟨g, -, h⟩ := List.mem_map.1 dies
        cases h
      · rcases List.mem_append.1 here with new | old
        · exact perform_joins ran new
        · exact outside _ ran.mem n (List.mem_cons_of_mem _ old)
    · exact outside t old n here
  | begins joins fresh =>
    intro t mem n here
    rcases Tasks.mem_spawn.1 mem with old | rfl
    · exact outside t old n here
    · exact absurd here (joins n)
  | works idle found after =>
    intro t mem n here
    rcases Tasks.mem_spawn.1 mem with old | rfl
    · exact outside t old n here
    · simp at here
  | server => exact outside

/-- What the next piece of a thread waits for, if it waits. -/
inductive Waits (c : Threads) : Piece → Prop
  | mutex {n : Nat} {sec : Section} {mutex : Nat} (at' : c.shared.mutexOf n = some mutex) (held : holds c mutex = true) :
      Waits c (.enter n sec)
  | worker {n : Nat} (busy : c.idle (.worker n) = false) : Waits c (.joinWorker n)

/-- Every other piece is performed, whatever the code on top chooses. -/
theorem perform_or_waits (known : ∀ n, p.server? = some n → n < c.shared.servers.length) (choice : Choice) :
    (∃ r, perform choice c i p = some r) ∨ Waits c p := by
  have server : ∀ n, p.server? = some n → ∃ node, c.shared.servers[n]? = some node := fun n at' =>
    ⟨_, List.getElem?_eq_getElem (known n at')⟩
  cases p with
  | user | body left | build n uri | destroy g | unlock n | release cbs => exact .inl ⟨_, rfl⟩
  | call cbs => cases cbs <;> exact .inl ⟨_, rfl⟩
  | enter n sec =>
    obtain ⟨node, found⟩ := server n rfl
    by_cases held : holds c node.mutex = true
    · exact .inr (.mutex (by rw [Shared.mutexOf, found, Option.map_some]) held)
    · exact .inl ⟨_, by simp only [perform, Shared.mutexOf, found, Option.map_some]; rw [if_neg held]⟩
  | locked n sec | start n number clientCbs | post n cbs | shutdown n | stopQueue n =>
    obtain ⟨node, found⟩ := server n rfl
    exact .inl ⟨_, by simp only [perform, found, Option.map_some]; rfl⟩
  | joinWorker n =>
    by_cases idle : c.idle (.worker n) = true
    · exact .inl ⟨_, by simp only [perform]; rw [if_pos idle]⟩
    · exact .inr (.worker (by simpa using idle))

/-- A thread whose next piece can be performed has a step. -/
theorem step_of_perform {r : Shared × List Piece} (task : c.tasks[i]? = some ⟨o, p :: rest⟩) (done : perform choice c i p = some r) :
    ∃ c', step c (.run i choice) = some c' := by
  obtain ⟨s', outs⟩ := r
  simp only [Locking.step, Tasks.run, task, done, Option.map_some]
  exact ⟨_, rfl⟩

/-- What holds in every run of the assumptions. -/
structure Sound (c : Threads) : Prop where
  shallow : Shallow c
  known : Known c
  outside : Outside c

theorem Sound.step (sound : Sound c) (ok : LastCopyOk c l ∧ Named c l) (step : step c l = some c') : Sound c' :=
  ⟨step_shallow sound.shallow ok.1 step, sound.known.step ok.2 step, sound.outside.step step⟩

theorem run_sound (run : system.exec start ls = some c) (along : system.Along (fun c l => LastCopyOk c l ∧ Named c l) start ls) :
    Sound c :=
  Lib.System.invariant_along Sound
    ⟨(fun _ mem => absurd mem List.not_mem_nil), (fun _ mem => absurd mem List.not_mem_nil), fun _ mem => absurd mem List.not_mem_nil⟩
    (fun _ _ _ sound ok step => sound.step ok step) run along

/-- The thread that holds a mutex has it on top, and goes on. -/
theorem Sound.holder {mutex : Nat} (sound : Sound c) (held : holds c mutex = true) : ∃ j p m, top c j = some p ∧
    p.lock? = some m ∧ c.shared.mutexOf m = some mutex ∧ ∀ choice, ∃ c', Locking.step c (.run j choice) = some c' := by
  simp only [holds, List.any_eq_true] at held
  obtain ⟨⟨o, todo⟩, mem, p, here, locks⟩ := held
  split at locks
  · cases locks
  · next m at' =>
    have mutex : c.shared.mutexOf m = some mutex := by simpa using locks
    obtain ⟨j, found⟩ := List.mem_iff_getElem?.1 mem
    cases todo with
    | nil => cases here
    | cons q rest =>
      have onTop : p = q := by
        rcases List.mem_cons.1 here with same | deep
        · exact same
        · exact absurd (show p.lock?.isSome = true by rw [at']; rfl) (sound.shallow _ mem p deep)
      subst onTop
      refine ⟨j, p, m, by rw [top, found]; rfl, at', mutex, fun choice => ?_⟩
      obtain ⟨r, done⟩ | waits := perform_or_waits (i := j) (sound.known _ mem p List.mem_cons_self) choice
      · exact step_of_perform found done
      · cases waits <;> cases at'

/-- `Port` is called while another thread is inside `Stop`. -/
def portWhileStop : List Label :=
  [.server 0 none, .thread, .thread, .run 0 (.calls 0 .stop), .run 0 (.returns false), .run 1 (.calls 0 .port)]

theorem Joins.busy (joins : Joins c n m) : c.idle (.worker n) = false := by
  obtain ⟨i, t, found, owner, head⟩ := joins
  by_contra idle
  have none := Tasks.idle_iff.1 (by simpa using idle) t (List.mem_of_getElem? found) owner
  rw [none] at head
  cases head

/-- A wait for a worker that is busy stays. -/
theorem Joins.step (joins : Joins c n m) (busy : c.idle (.worker m) = false) (step : step c l = some c') : Joins c' n m := by
  obtain ⟨i, t, found, owner, head⟩ := joins
  have spawned : ∀ (s' : Shared) (o : Owner) (todo : List Piece), Joins (Tasks.spawn { c with shared := s' } o todo) n m :=
    fun s' o todo => ⟨i, t, by
      rw [Tasks.spawn, List.getElem?_append_left (List.getElem?_eq_some_iff.1 found).1, found], owner, head⟩
  cases step_stepped step with
  | @run j choice c₁ o p rest outs ran =>
    by_cases same : j = i
    · subst same
      cases ran.task.symm.trans found
      cases head
      have done := ran.action
      simp [perform, busy] at done
    · refine ⟨i, t, ?_, owner, head⟩
      simp only [Tasks.push]
      rw [List.getElem?_modify_ne _ _ same, ran.lookup, if_neg same, found]
  | begins joins fresh => exact spawned c.shared _ _
  | works idle at' after => exact spawned _ _ _
  | server => exact ⟨i, t, found, owner, head⟩

/-- A ring stays. -/
theorem Ring.step (ring : Ring c servers) (step : step c l = some c') : Ring c' servers := by
  refine ⟨ring.nonempty, fun n mem => ?_⟩
  obtain ⟨m, here, other, joins⟩ := ring.joins n mem
  obtain ⟨k, -, -, next⟩ := ring.joins m here
  exact ⟨m, here, other, joins.step next.busy step⟩

/-- Where nothing goes on, the busy workers wait for one another. -/
theorem Sound.ring (sound : Sound c) (stuck : Stuck c) : Ring c { n | c.idle (.worker n) = false } := by
  obtain ⟨left, still⟩ := stuck
  -- every thread that is not done waits for a worker
  have waits : ∀ (i : Nat) (o : Owner) (p : Piece) (rest : List Piece), c.tasks[i]? = some ⟨o, p :: rest⟩ →
      ∃ m, p = .joinWorker m ∧ c.idle (.worker m) = false := by
    intro i o p rest found
    obtain ⟨r, done⟩ | waits :=
      perform_or_waits (i := i) (sound.known _ (List.mem_of_getElem? found) p List.mem_cons_self) (.returns false)
    · obtain ⟨c', step⟩ := step_of_perform found done
      rw [still] at step
      cases step
    · cases waits with
      | mutex at' held =>
        obtain ⟨j, q, m, -, -, -, goes⟩ := sound.holder held
        obtain ⟨c', step⟩ := goes (.returns false)
        rw [still] at step
        cases step
      | worker busy => exact ⟨_, rfl, busy⟩
  constructor
  · simp only [Tasks.quiet, not_forall] at left
    obtain ⟨⟨o, todo⟩, mem, unfinished⟩ := left
    obtain ⟨i, found⟩ := List.mem_iff_getElem?.1 mem
    obtain ⟨p, rest, rfl⟩ := List.exists_cons_of_ne_nil unfinished
    obtain ⟨m, -, busy⟩ := waits i o p rest found
    exact ⟨m, busy⟩
  · intro n busy
    have some : ∃ t ∈ c.tasks, t.owner = .worker n ∧ t.todo ≠ [] := by
      by_contra none
      have idle : c.idle (.worker n) = true := Tasks.idle_iff.2 fun t mem owner => by
        by_contra unfinished
        exact none ⟨t, mem, owner, unfinished⟩
      exact absurd (idle.symm.trans busy) (by decide)
    obtain ⟨⟨o, todo⟩, mem, rfl, unfinished⟩ := some
    obtain ⟨i, found⟩ := List.mem_iff_getElem?.1 mem
    obtain ⟨p, rest, rfl⟩ := List.exists_cons_of_ne_nil unfinished
    obtain ⟨m, rfl, next⟩ := waits i _ p rest found
    refine ⟨m, next, ?_, i, _, found, rfl, rfl⟩
    rintro rfl
    exact sound.outside _ mem _ List.mem_cons_self rfl

/-- Some thread is not done, and each such waits for a worker that is not. -/
def joined (c : Threads) : Bool :=
  (c.tasks.any fun t => !t.todo.isEmpty) && c.tasks.all fun t =>
    match t.todo with
    | [] => true
    | .joinWorker m :: _ => !c.idle (.worker m)
    | _ => false

theorem stuck_of_joined (all : joined c = true) : Stuck c := by
  simp only [joined, Bool.and_eq_true, List.any_eq_true, List.all_eq_true] at all
  obtain ⟨⟨t, mem, unfinished⟩, all⟩ := all
  refine ⟨fun quiet => by simp [quiet t mem] at unfinished, fun i choice => ?_⟩
  rcases h : step c (.run i choice) with _ | d
  · rfl
  · obtain ⟨c₁, moved, -⟩ := Option.map_eq_some_iff.1 h
    obtain ⟨o, p, rest, outs, ran⟩ := Tasks.run_inv moved
    have waits := all _ ran.mem
    have done := ran.action
    cases p with
    | joinWorker m =>
      simp only [perform] at done
      rw [if_neg (by simpa using waits)] at done
      cases done
    | _ => cases waits

/-- Two servers with a request handler each; each handler shuts the other server down. -/
def shutEachOther : List Label :=
  ([.server 0 none, .server 1 none, .thread,
    .run 0 (.calls 0 (.addUri (str "/a") { mOnRequestReceivedCb := some 1 })), .run 0 (.returns false),
    .run 0 (.returns false), .run 0 (.returns false), .run 0 (.returns false),
    .run 0 (.calls 1 (.addUri (str "/a") { mOnRequestReceivedCb := some 2 })), .run 0 (.returns false),
    .run 0 (.returns false), .run 0 (.returns false), .run 0 (.returns false), .run 0 (.returns false)] : List Label) ++
  ([.io 0 (.httpRequest (str "/a"))] : List Label) ++ List.replicate 8 (Label.run 1 (.returns false)) ++
  ([.io 1 (.httpRequest (str "/a"))] : List Label) ++ List.replicate 8 (Label.run 2 (.returns false)) ++
  ([.work 0, .run 3 (.returns false), .run 3 (.calls 1 .shutdown), .work 1, .run 4 (.returns false),
    .run 4 (.calls 0 .shutdown)] : List Label) ++
  List.replicate 5 (Label.run 3 (.returns false)) ++ List.replicate 5 (Label.run 4 (.returns false))

end Locking

end Websockets
