import Websockets.Server.Routing

/-!
# After `Stop`

`Stop` takes the acceptor away. `RegisterWsClient` looks for it and rejects; `FindHttpHandler` does not, so a
connection that was there before, or one accepted while the acceptor was being closed, still has its requests
handled. A request is told from those read before by its operation, which began later.
-/

namespace Websockets

open Std Lib

/-- The piece posts a request handler. -/
def Action.dispatches : Action → Bool
  | postCallback (_ :: _) (.request _ _) => true
  | _ => false

namespace Server

open CImpl

/-- No `Start` takes effect. -/
def NoStart (c : Running) : Label → Prop
  | .run i _ => ∀ port clientCbs, head? c i ≠ some (.startLocked port clientCbs)
  | _ => True

/-- The longest registered uri that `path` lies within has no request handler. -/
def unserved (impl : CImpl) (path : Bytes) : Bool :=
  (impl.longestUriMatchLocked path).isEmpty ||
    impl.mUris[impl.longestUriMatchLocked path]?.all fun callbacks => callbacks.mOnRequestReceivedCb.isNone

/-- A request that began as operation `n` or later has no handler when it is looked up. -/
def UnservedOk (n : Nat) (c : Running) : Label → Prop
  | .run i _ => n ≤ i → ∀ clientId path, head? c i = some (.findHttpHandler clientId path) →
      unserved c.shared.impl path = true
  | _ => True

/-- No handler is posted for such a request. -/
def NotDispatched (n : Nat) (c : Running) : Label → Prop
  | .run i _ => n ≤ i → ∀ a, head? c i = some a → a.dispatches = false
  | _ => True

/-- No client is registered. -/
def NotRegistered (c : Running) (l : Label) : Prop := registration c l = none

instance (n : Nat) (c : Running) (l : Label) : Decidable (NotDispatched n c l) :=
  match l with
  | .run i _ => decidable_of_iff (n ≤ i → (head? c i).all (fun a => !a.dispatches) = true)
      (by simp only [NotDispatched, Option.all_eq_true, Bool.not_eq_true'])
  | .api _ | .upgrade _ _ | .httpRequest _ | .complete _ _ _ _ | .strand _ | .work => .isTrue trivial

/-- What `UnservedOk` asks of the piece that is performed. -/
def unservedPiece (impl : CImpl) : Action → Bool
  | .findHttpHandler _ path => unserved impl path
  | _ => true

instance (n : Nat) (c : Running) (l : Label) : Decidable (UnservedOk n c l) :=
  match l with
  | .run i _ => decidable_of_iff (n ≤ i → (head? c i).all (unservedPiece c.shared.impl) = true) (by
      simp only [UnservedOk, Option.all_eq_true]
      refine imp_congr_right fun _ => ⟨fun h clientId path head => h _ head, fun h a head => ?_⟩
      cases a with
      | findHttpHandler clientId path => exact h clientId path head
      | _ => rfl)
  | .api _ | .upgrade _ _ | .httpRequest _ | .complete _ _ _ _ | .strand _ | .work => .isTrue trivial

/-- The piece sets the acceptor. -/
def startsServing : Action → Bool
  | .startLocked _ _ => true
  | _ => false

instance (c : Running) (l : Label) : Decidable (NoStart c l) :=
  match l with
  | .run i _ => decidable_of_iff ((head? c i).all (fun a => !startsServing a) = true) (by
      simp only [NoStart, Option.all_eq_true, Bool.not_eq_true']
      refine ⟨fun h port clientCbs head => ?_, fun h a head => ?_⟩
      · have := h _ head
        cases this
      · cases a with
        | startLocked port clientCbs => exact absurd head (h port clientCbs)
        | _ => rfl)
  | .api _ | .upgrade _ _ | .httpRequest _ | .complete _ _ _ _ | .strand _ | .work => .isTrue trivial

variable {c c' : Running} {s s' : Server} {i n : Nat} {a : Action} {outs : List Action} {l : Label}

/-! ## The acceptor stays away -/

/-- Only `Start` sets the acceptor. -/
theorem Does.acceptor_kept (does : Does s i a s' outs) (stopped : s.impl.mAcceptor = none)
    (other : startsServing a = false) : s'.impl.mAcceptor = none := by
  cases does with
  | startLocked done => cases other
  | stop => rfl
  | removeClient present =>
    rw [record_impl, setImpl_impl, (eraseClient_flags _ _).2]
    exact stopped
  | onWsClosed present =>
    rw [record_impl, setImpl_impl, countReport, (eraseClient_flags _ _).2]
    exact stopped
  | register done =>
    have accepted := (registerWsClientLocked_inv done).accepted
    rw [rejects, stopped, Option.isNone_none, Bool.or_true] at accepted
    cases accepted
  | _ => exact stopped

theorem step_stopped (stopped : c.shared.impl.mAcceptor = none) (noStart : NoStart c l) (step : step c l = some c') :
    c'.shared.impl.mAcceptor = none := by
  rcases step_ran_or_begins step with ⟨i, throws, o, a, rest, outs, rfl, ran, does⟩ | begins
  · refine does.acceptor_kept stopped ?_
    cases a with
    | startLocked port clientCbs => exact absurd (head?_eq ran.task) (noStart port clientCbs)
    | _ => rfl
  · rw [begins.impl]
    exact stopped

/-- A server without an acceptor registers nobody. -/
theorem registration_stopped (stopped : c.shared.impl.mAcceptor = none) (l : Label) : NotRegistered c l := by
  have rejects : c.shared.impl.rejects = true := by
    rw [CImpl.rejects, stopped, Option.isNone_none, Bool.or_true]
  cases l with
  | run i throws =>
    simp only [NotRegistered, registration]
    split
    · rw [registerWsClientLocked_none.2 rejects, Option.map_none]
    · rfl
  | _ => rfl

/-- `Stop` under the lock, as a step. -/
theorem step_stop {throws : Bool} (head : head? c i = some .stop) (step : step c (.run i throws) = some c') :
    c'.shared.impl.mAcceptor = none := by
  obtain ⟨o, a, rest, outs, ran⟩ := Tasks.run_inv step
  obtain rfl : a = .stop := Option.some.inj ((head?_eq ran.task).symm.trans head)
  have done : some (c.shared.stop i) = some (c'.shared, outs) := ran.action
  have same : (c.shared.stop i).1 = c'.shared := congrArg Prod.fst (Option.some.inj done)
  rw [← same]
  rfl

/-! ## Handlers come from lookups -/

theorem findHttpHandler_unserved {impl : CImpl} {path : Bytes} (missing : unserved impl path = true) :
    impl.findHttpHandler path = none := by
  unfold CImpl.findHttpHandler
  simp only
  split
  · rfl
  · next nonempty =>
    rw [unserved, Bool.or_eq_true] at missing
    have unset := missing.resolve_left nonempty
    cases found : impl.mUris[impl.longestUriMatchLocked path]? with
    | none => rfl
    | some callbacks =>
      rw [found, Option.all_some, Option.isNone_iff_eq_none] at unset
      exact unset

/-- Only a lookup that finds a handler leads to a dispatch. -/
theorem yields_dispatch {b : Action} (yields : Yields s a b) (dispatches : b.dispatches = true) :
    ∃ clientId path fn, a = .findHttpHandler clientId path ∧ s.impl.findHttpHandler path = some fn := by
  have other : ∀ {cbs : List Fn} {notice : Notice}, (∀ clientId uri, notice ≠ .request clientId uri) →
      (Action.postCallback cbs notice).dispatches ≠ true := by
    intro cbs notice apart
    cases cbs with
    | nil => exact nofun
    | cons fn rest =>
      cases notice with
      | request clientId uri => exact absurd rfl (apart clientId uri)
      | _ => exact nofun
  cases yields with
  | @handler path fn registered id => exact ⟨id, path, fn, rfl, registered⟩
  | added => exact absurd dispatches (other nofun)
  | registerChange => exact absurd dispatches (other nofun)
  | closed => exact absurd dispatches (other nofun)
  | closedChange => exact absurd dispatches (other nofun)
  | message => exact absurd dispatches (other nofun)
  | content => exact absurd dispatches (other nofun)
  | _ => cases dispatches

/-- No operation from `n` on is about to post a request handler. -/
def Undispatched (n : Nat) (c : Running) : Prop :=
  ∀ j o b, c.At j o b → n ≤ j → b.dispatches = false

theorem undispatched_fresh (c : Running) : Undispatched c.tasks.length c := by
  rintro j o b ⟨t, found, -⟩ later
  exact absurd (List.getElem?_eq_some_iff.1 found).1 (by omega)

theorem dispatches_entry (entry : a.isEntry = true) : a.dispatches = false := by
  cases a with
  | postCallback cbs notice => cases entry
  | _ => rfl

theorem step_undispatched (undispatched : Undispatched n c) (unserved : UnservedOk n c l)
    (step : step c l = some c') : Undispatched n c' := by
  rcases step_ran_or_begins step with ⟨i, throws, o, a, rest, outs, rfl, ran, does⟩ | begins
  · intro j q b here later
    rcases ran.at_inv here with old | ⟨rfl, -, mem⟩
    · exact undispatched j q b old later
    · cases dispatches : b.dispatches with
      | false => rfl
      | true =>
        obtain ⟨clientId, path, fn, rfl, found⟩ := yields_dispatch (exec_yields ran.action b mem) dispatches
        rw [findHttpHandler_unserved (unserved later clientId path (head?_eq ran.task))] at found
        cases found
  · rintro j q b ⟨t, found, owner, mem⟩ later
    cases dispatches : b.dispatches with
    | false => rfl
    | true =>
      have inner : b.isEntry = false := by
        cases entry : b.isEntry with
        | false => rfl
        | true =>
          rw [dispatches_entry entry] at dispatches
          cases dispatches
      rw [← dispatches]
      exact undispatched j q b ⟨t, begins.mem inner found mem, owner, mem⟩ later

/-- **After `Stop`.** From the moment `Stop` has taken the acceptor until a `Start` takes effect, no client is
registered; and if no request that is read after some later state, such as the one in which `Stop` returns, has a
handler when it is looked up, none of these requests is dispatched. -/
theorem stop_serving (j : Nat) (throws : Bool) (during after : List Label) (c₀ c₁ c₂ : Running)
    (stops : head? c₀ j = some .stop) (run₁ : system.exec c₀ (.run j throws :: during) = some c₁)
    (run₂ : system.exec c₁ after = some c₂)
    (noStart : system.Along NoStart c₀ (.run j throws :: during ++ after))
    (unserved : system.Along (UnservedOk c₁.tasks.length) c₁ after) :
    system.Along NotRegistered c₁ after ∧ system.Along (NotDispatched c₁.tasks.length) c₁ after := by
  obtain ⟨d, step, rest⟩ := System.exec_cons_inv run₁
  rw [List.cons_append, System.along_cons step, System.along_append rest] at noStart
  have stopped : c₁.shared.impl.mAcceptor = none :=
    System.invariant_along (fun c => c.shared.impl.mAcceptor = none) (step_stop stops step)
      (fun _ _ _ => step_stopped) rest noStart.2.1
  constructor
  · exact System.along_of_invariant (fun c => c.shared.impl.mAcceptor = none) stopped
      (fun _ _ _ => step_stopped) (fun _ l gone _ => registration_stopped gone l) run₂ noStart.2.2
  · refine System.along_of_invariant (Undispatched c₁.tasks.length) (undispatched_fresh c₁)
      (fun _ _ _ => step_undispatched) (fun c l undispatched _ => ?_) run₂ unserved
    cases l with
    | run i throws =>
      intro later a head
      obtain ⟨t, found, first⟩ := Option.bind_eq_some_iff.1 head
      exact undispatched i t.owner a ⟨t, found, rfl, List.mem_of_head? first⟩ later
    | _ => trivial

/-- A server with a handler for `/a`, which a first request of a connection reaches. -/
def handles : List Label :=
  [.api (.addUri (str "/a") { mOnRequestReceivedCb := some 5 }), .run 0 false, .api (.start 80 {}), .run 1 false,
    .run 1 false, .httpRequest (str "/a"), .run 2 false, .run 2 false, .run 2 false, .api .stop]

/-- The connection stays and sends one more request. -/
def further (path : Bytes) : List Label := [.httpRequest path, .run 4 false, .run 4 false]

theorem handles_runs : (system.exec (create none 1024) handles).isSome = true := by decide

/-- The server when `Stop` has returned. -/
theorem handles_stops : (system.exec ((system.exec (create none 1024) handles).get handles_runs)
    [.run 3 false]).isSome = true := by decide

theorem unserved_runs : (system.exec ((system.exec ((system.exec (create none 1024) handles).get handles_runs)
    [.run 3 false]).get handles_stops) (further (str "/b"))).isSome = true := by decide

/-- Nothing is served under `/b`. -/
theorem stop_serving_unserved :
    ∃ c₀ c₁, system.exec (create none 1024) handles = some c₀ ∧ system.exec c₀ [.run 3 false] = some c₁ ∧
      system.Along NotRegistered c₁ (further (str "/b")) ∧
        system.Along (NotDispatched c₁.tasks.length) c₁ (further (str "/b")) :=
  ⟨_, _, System.exec_get handles_runs, System.exec_get handles_stops,
    stop_serving 3 false [] (further (str "/b")) _ _ _ (by decide) (System.exec_get handles_stops)
      (System.exec_get unserved_runs) (by decide) (by decide)⟩

theorem served_runs : (system.exec ((system.exec ((system.exec (create none 1024) handles).get handles_runs)
    [.run 3 false]).get handles_stops) (further (str "/a") ++ [.run 4 false])).isSome = true := by decide

/-- After `Stop` has returned, a request for `/a` is read and its handler posted. -/
theorem stopped_server_dispatches :
    ∃ before during after j c₀ c₁ c₂, system.exec (create none 1024) before = some c₀ ∧ head? c₀ j = some .stop ∧
      system.exec c₀ (.run j false :: during) = some c₁ ∧ c₁.finished j ∧ system.exec c₁ after = some c₂ ∧
      system.Along NoStart c₀ (.run j false :: during ++ after) ∧
      ¬ system.Along (NotDispatched c₁.tasks.length) c₁ after :=
  ⟨handles, [], further (str "/a") ++ [.run 4 false], 3, _, _, _, System.exec_get handles_runs, by decide,
    System.exec_get handles_stops, by decide, System.exec_get served_runs, by decide,
    by decide⟩

end Server

end Websockets
