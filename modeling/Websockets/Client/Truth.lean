import Websockets.Client.Standing
import Websockets.Lib.Last
import Websockets.Shutdown

/-!
# What the last state callback says

Sessions that are replaced go on talking on strands of their own, and all post to one queue. When everything
has come to rest, the last of the connect and disconnect callbacks is right about `IsConnected()` if it is the
current session's, or says the same. Nothing in the code keeps a replaced session from posting last.
-/

namespace Websockets

open Lib

namespace Client

def isConnected (s : Client) : Bool :=
  match s.mSession with
  | none => false
  | some k => s.sessions[k]?.any (·.mOpen)

def stateOf (x : Nat × Notice) : Option Notice := if x.2.isState then some x.2 else none

def stateOfSession (k : Nat) (x : Nat × Notice) : Option Notice := if x.1 = k then stateOf x else none

/-- From the first session on the connect and the disconnect callback are set. -/
def CallbacksOk (c : Running) (_ : Label) : Prop :=
  c.shared.sessions.isEmpty = true ∨ c.shared.mOnConnect.isSome = true ∧ c.shared.mOnDisconnect.isSome = true

instance (c : Running) (l : Label) : Decidable (CallbacksOk c l) :=
  inferInstanceAs (Decidable (_ ∨ _ ∧ _))

/-- The notice about a session's state that a step posts. -/
def postsState (c : Running) : Label → Option (Nat × Notice)
  | .run i _ => (c.tasks[i]?.bind (·.todo.head?)).bind fun
    | .post k _ notice => if notice.isState then some (k, notice) else none
    | _ => none
  | _ => none

/-- A replaced session does not post its state behind a notice of the current session that says otherwise. -/
def PostOk (c : Running) (l : Label) : Prop :=
  ∀ x ∈ postsState c l, x.1 + 1 < c.shared.sessions.length →
    ∀ notice ∈ lastOf (stateOfSession (c.shared.sessions.length - 1)) (postings c.shared.log), notice = x.2

instance (c : Running) (l : Label) : Decidable (PostOk c l) :=
  inferInstanceAs (Decidable (∀ x ∈ postsState c l, x.1 + 1 < c.shared.sessions.length →
    ∀ notice ∈ lastOf (stateOfSession (c.shared.sessions.length - 1)) (postings c.shared.log), notice = x.2))

/-- Nothing is going on: every session has got its `AsyncConnect` and run its handlers, only reads on open
sessions are outstanding, and the worker has delivered everything. -/
structure Settled (c : Running) : Prop where
  strands : ∀ k < c.shared.sessions.length, c.idle (.strand k) = true
  handlers : ∀ t ∈ c.shared.sessions, t.connectCalled = true ∧ t.strand.isEmpty = true
  operations : ∀ t ∈ c.shared.sessions, ∀ p ∈ t.pending, p.op.isRead = true ∧ t.mOpen = true
  queue : c.shared.mWorkQueue.mQueue = []
  worker : c.idle .worker = true

instance (c : Running) : Decidable (Settled c) :=
  decidable_of_iff ((∀ k < c.shared.sessions.length, c.idle (.strand k) = true) ∧
      (∀ t ∈ c.shared.sessions, t.connectCalled = true ∧ t.strand.isEmpty = true) ∧
      (∀ t ∈ c.shared.sessions, ∀ p ∈ t.pending, p.op.isRead = true ∧ t.mOpen = true) ∧
      c.shared.mWorkQueue.mQueue = [] ∧ c.idle .worker = true)
    ⟨fun ⟨strands, handlers, operations, queue, worker⟩ => ⟨strands, handlers, operations, queue, worker⟩,
      fun ⟨strands, handlers, operations, queue, worker⟩ => ⟨strands, handlers, operations, queue, worker⟩⟩

/-- The last state callback was the connect callback exactly if the client is connected. -/
def Truthful (c : Running) : Prop :=
  lastOf stateOf (deliveries c.shared.log) = some .connect ↔ c.shared.isConnected = true

/-- What the current session has last posted is what was last posted. -/
def Foremost (c : Running) : Prop :=
  ∀ k, k + 1 = c.shared.sessions.length → ∀ notice ∈ lastOf (stateOfSession k) (postings c.shared.log),
    lastOf stateOf (postings c.shared.log) = some notice

variable {c c' : Running} {k : Nat} {l : Label}

theorem states_posted (k : Nat) (notices : List (Nat × Notice)) :
    notices.filterMap (stateOfSession k) = (ofSession k notices).filter Notice.isState := by
  rw [ofSession, List.filter_filterMap]
  congr 1
  funext x
  unfold stateOfSession stateOf
  by_cases own : x.1 = k
  · rw [if_pos own, if_pos own, Option.filter_some]
  · rw [if_neg own, if_neg own, Option.filter_none]

/-- A session that is to post its state, or has posted it, exists. -/
theorem Relayed.bound (rel : Relayed (fun _ => Notice.isState) c) (inv : Stood c) {notice : Notice}
    (here : notice ∈ c.pending (Action.announcesOf (fun _ => Notice.isState) k) ∨
      notice ∈ (ofSession k (postings c.shared.log)).filter Notice.isState) : k < c.shared.sessions.length := by
  have heard : notice ∈ (spoken k c.shared.log).filter Notice.isState := by
    rw [← rel.posted k]
    exact List.mem_append.2 here.symm
  by_contra beyond
  rw [inv.absent k (List.getElem?_eq_none (Nat.le_of_not_lt beyond))] at heard
  cases heard

/-- A session that is to post its state exists. -/
theorem Relayed.bound_at (rel : Relayed (fun _ => Notice.isState) c) (inv : Stood c) {j : Nat} {q : Owner} {b : Action}
    {x : Nat × Notice} (pending : c.At j q b) (announces : b.announces = some x) (state : x.2.isState = true) :
    x.1 < c.shared.sessions.length := by
  have here : x.2 ∈ c.pending (Action.announcesOf (fun _ => Notice.isState) x.1) := by
    refine Tasks.mem_pending.2 ⟨j, q, b, pending, ?_⟩
    simp [Action.announcesOf, Action.announcesFor, announces, state]
  exact rel.bound inv (.inl here)

/-- The callback for it is set. -/
theorem Relayed.callback_set (rel : Relayed (fun _ => Notice.isState) c) (inv : Stood c) (ok : CallbacksOk c l) {j : Nat}
    {q : Owner} {b : Action} {x : Nat × Notice} (pending : c.At j q b) (announces : b.announces = some x)
    (state : x.2.isState = true) : (c.shared.callbackFor x.2).isSome = true := by
  have bound := rel.bound_at inv pending announces state
  have some : c.shared.sessions.isEmpty ≠ true := by
    rw [Ne, List.isEmpty_iff_length_eq_zero]
    omega
  obtain ⟨connect, disconnect⟩ := ok.resolve_left some
  obtain ⟨k, notice⟩ := x
  cases notice with
  | connect => exact connect
  | disconnect => exact disconnect
  | message message => cases state
  | content content => cases state

/-! ## A step of a client that is not shut down -/

/-- Who shuts the client down is seen afterwards; sessions are only added. -/
theorem Swaps.up {s s' : Client} {a : Action} {outs : List Action} (swaps : Swaps s a s' outs)
    (up : s'.mShutdown = false) : s.mShutdown = false ∧ a.isShutdown = false ∧
      (s'.sessions.length = s.sessions.length ∨ s'.sessions.length = s.sessions.length + 1) := by
  cases swaps with
  | keeps session shutdown len connecting fails takes no => exact ⟨shutdown.symm.trans up, no, .inl len⟩
  | installs args =>
    obtain ⟨-, shutdown, len⟩ := installSession_fields (s := s) args
    exact ⟨shutdown.symm.trans up, rfl, .inr len⟩
  | resets k =>
    unfold resetSession at up ⊢
    split at up
    · next own => exact ⟨up, rfl, .inl (by rw [if_pos own])⟩
    · next other => exact ⟨up, rfl, .inl (by rw [if_neg other])⟩
  | takes => exact ⟨up, rfl, .inl rfl⟩
  | shuts onWorker =>
    unfold shutdown at up
    split at up
    · next down => exact absurd (down.symm.trans up) (by decide)
    · cases up

theorem step_up (step : step c l = some c') (up : c'.shared.mShutdown = false) :
    c.shared.mShutdown = false ∧ ShutdownOk c l := by
  cases step_steps step with
  | run ran does =>
    obtain ⟨was, other, -⟩ := (exec_swaps ran.action).up up
    refine ⟨was, fun shuts => ?_⟩
    rw [ran.task, Option.bind_some, List.head?_cons, Option.any_some, other] at shuts
    cases shuts
  | _ => exact ⟨up, trivial⟩

/-- Nothing is posted and no session is added, or one is of which nothing was posted. -/
theorem Foremost.kept (foremost : Foremost c) (postings : postings c'.shared.log = postings c.shared.log)
    (len : c'.shared.sessions.length = c.shared.sessions.length ∨
      c'.shared.sessions.length = c.shared.sessions.length + 1)
    (unheard : lastOf (stateOfSession c.shared.sessions.length) (Client.postings c.shared.log) = none) : Foremost c' := by
  intro k last notice posted
  rw [postings] at posted ⊢
  rcases len with same | more
  · exact foremost k (last.trans same) notice posted
  · obtain rfl : k = c.shared.sessions.length := by omega
    rw [unheard] at posted
    cases posted

/-- A notice is posted. -/
theorem Foremost.posts {j : Nat} {notice : Notice} (foremost : Foremost c)
    (postings : postings c'.shared.log = postings c.shared.log ++ [(j, notice)])
    (len : c'.shared.sessions.length = c.shared.sessions.length)
    (ok : notice.isState = true → j < c.shared.sessions.length ∧ (j + 1 < c.shared.sessions.length →
      ∀ other ∈ lastOf (stateOfSession (c.shared.sessions.length - 1)) (Client.postings c.shared.log), other = notice)) :
    Foremost c' := by
  intro k last n posted
  rw [len] at last
  rw [postings] at posted ⊢
  cases state : notice.isState with
  | false =>
    have unseen : stateOf (j, notice) = none := by simp [stateOf, state]
    rw [lastOf_unseen_one unseen]
    rw [lastOf_unseen_one (by simp [stateOfSession, unseen])] at posted
    exact foremost k last n posted
  | true =>
    have seen : stateOf (j, notice) = some notice := by simp [stateOf, state]
    obtain ⟨bound, agree⟩ := ok state
    rw [lastOf_seen seen]
    by_cases own : j = k
    · have here : stateOfSession k (j, notice) = some notice := (if_pos own).trans seen
      rw [lastOf_seen here] at posted
      exact posted
    · rw [lastOf_unseen_one (by simp [stateOfSession, own])] at posted
      obtain rfl : k = c.shared.sessions.length - 1 := by omega
      rw [agree (by omega) n posted]

/-- The invariant of a client that is not shut down. -/
structure Hears (c : Running) : Prop where
  stood : Stood c
  relayed : Relayed (fun _ => Notice.isState) c
  delivered : Delivered c
  current : Current c
  stops : stoppable.Once c
  foremost : Foremost c

theorem Hears.unheard (hears : Hears c) :
    lastOf (stateOfSession c.shared.sessions.length) (postings c.shared.log) = none := by
  by_contra heard
  obtain ⟨notice, last⟩ := Option.ne_none_iff_exists'.1 heard
  have mem : notice ∈ (ofSession c.shared.sessions.length (postings c.shared.log)).filter Notice.isState := by
    rw [← states_posted]
    exact List.mem_of_getLast? last
  exact Nat.lt_irrefl _ (hears.relayed.bound hears.stood (.inr mem))

/-- A session that is to post its state exists. -/
theorem Hears.bound {j : Nat} {q : Owner} {b : Action} {x : Nat × Notice} (hears : Hears c) (pending : c.At j q b)
    (announces : b.announces = some x) (state : x.2.isState = true) : x.1 < c.shared.sessions.length :=
  hears.relayed.bound_at hears.stood pending announces state

theorem step_foremost (step : step c l = some c') (up : c'.shared.mShutdown = false) (ok : PostOk c l)
    (hears : Hears c) : Foremost c' := by
  have unheard := hears.unheard
  cases step_steps step with
  | api call asides => exact hears.foremost
  | @run i flag c' o a rest outs ran does =>
    obtain ⟨-, -, len⟩ := (exec_swaps ran.action).up up
    rcases exec_relays ran.action with ⟨j, cb, notice, rfl, after, rfl⟩ | ⟨postings, -, -, -⟩
    · have log : c'.shared.log = c.shared.log ++ [.posted j notice] := by rw [after]; rfl
      refine hears.foremost.posts (by rw [log, postings_append]; rfl) (by rw [after]; rfl) fun state => ⟨?_, ?_⟩
      · exact hears.bound ran.at_head rfl state
      · refine ok (j, notice) ?_
        simp only [postsState, ran.task, Option.bind_some, List.head?_cons]
        exact if_pos state
    · exact hears.foremost.kept postings len unheard
  | complete found done => exact hears.foremost.kept rfl (.inl (mapSession_length _ _ _)) unheard
  | @strand k sni t t' calls h rest idle found front ran =>
    refine hears.foremost.kept ?_ (.inl (mapSession_length _ _ _)) unheard
    change postings (c.shared.log ++ _) = _
    rw [postings_append, (handler_events k (handled h) calls).2, List.append_nil]
  | work idle running queue => exact hears.foremost

/-- **A step keeps the invariant**, unless it shuts the client down. -/
theorem step_hears (step : step c l = some c') (callbacks : CallbacksOk c l) (ok : PostOk c l)
    (up : c'.shared.mShutdown = false) (hears : Hears c) : Hears c' where
  stood := step_stood step hears.stood
  relayed := step_relayed step hears.relayed fun _ _ _ _ => hears.relayed.callback_set hears.stood callbacks
  delivered := step_delivered step hears.delivered
  current := step_current step (step_up step up).2 hears.stood.once hears.current
  stops := (step_stoppable step).once hears.stops
  foremost := step_foremost step up ok hears

theorem create_hears (sslContext : Bool) (handshakeTimeoutS : Nat) : Hears (create sslContext handshakeTimeoutS) where
  stood := create_stood sslContext handshakeTimeoutS
  relayed := create_relayed sslContext handshakeTimeoutS
  delivered := (create_traced sslContext handshakeTimeoutS).delivered
  current := create_current sslContext handshakeTimeoutS
  stops := Nat.le_refl _
  foremost _ last := nomatch last

theorem run_hears {sslContext : Bool} {handshakeTimeoutS : Nat} {ls : List Label}
    (run : system.exec (create sslContext handshakeTimeoutS) ls = some c)
    (callbacks : system.Along CallbacksOk (create sslContext handshakeTimeoutS) ls)
    (ok : system.Along PostOk (create sslContext handshakeTimeoutS) ls) (up : c.shared.mShutdown = false) : Hears c := by
  have either : c.shared.mShutdown = false → Hears c := by
    refine System.invariant_along (fun c => c.shared.mShutdown = false → Hears c)
      (fun _ => create_hears sslContext handshakeTimeoutS) (fun a l b hears ok step up => ?_) run (callbacks.and ok)
    exact step_hears step ok.1 ok.2 up (hears (step_up step up).1)
  exact either up

/-! ## At rest -/

/-- Everything that was posted has been delivered. -/
theorem Settled.deliveries (settled : Settled c) (hears : Hears c) (up : c.shared.mShutdown = false) :
    deliveries c.shared.log = postings c.shared.log := by
  have running : c.shared.mWorkQueue.mStopped = false := by
    have once : c.count _ + Bool.toNat c.shared.mWorkQueue.mStopped ≤ Bool.toNat c.shared.mShutdown := hears.stops
    rw [up] at once
    cases stopped : c.shared.mWorkQueue.mStopped with
    | false => rfl
    | true =>
      rw [stopped] at once
      exact absurd once (by simp)
  have idle := hears.delivered.waits settled.worker
  have line := hears.delivered.complete running
  rw [Client.line, idle, settled.queue, List.append_nil] at line
  exact (List.append_nil _).symm.trans line

/-- Everything a session said about its state has been posted. -/
theorem Settled.posted (settled : Settled c) (hears : Hears c) (bound : k < c.shared.sessions.length) :
    (postings c.shared.log).filterMap (stateOfSession k) = saidStates k c.shared.log := by
  have idle := hears.relayed.waits (settled.strands k bound)
  have posted := hears.relayed.posted k
  rw [idle, List.append_nil, ← states_posted] at posted
  exact posted

/-- A session at rest has said whether it is connected. -/
theorem Settled.stands {t : CSession} {states : List Notice} (settled : Settled c) (mem : t ∈ c.shared.sessions)
    (stands : Stands t states) : states.getLast? = some (if t.mOpen then .connect else .disconnect) := by
  cases stands with
  | waiting closed one waits queued =>
    obtain ⟨called, empty⟩ := settled.handlers t mem
    have strand : t.strand = [] := List.isEmpty_iff.1 empty
    have openings : 0 < t.openings := by
      have none : t.connects = 0 := by
        unfold CSession.connects
        rw [strand]
        rfl
      unfold CSession.attempts at one
      rw [called, if_pos rfl, none] at one
      omega
    obtain ⟨op, here, isOpening⟩ := List.countP_pos_iff.1 openings
    rw [Channel.inflight, strand, List.filterMap_nil, List.append_nil] at here
    obtain ⟨p, pending, rfl⟩ := List.mem_map.1 here
    have isRead := (settled.operations t mem p pending).1
    cases op : p.op with
    | opening stage =>
      rw [op] at isRead
      cases isRead
    | _ =>
      rw [op] at isOpening
      cases isOpening
  | up opened none => rw [opened]; rfl
  | down closed none before =>
    rw [closed, List.getLast?_concat]
    rfl

theorem Failed.said (failed : Failed k c.shared.log) : .disconnect ∈ saidStates k c.shared.log := by
  obtain ⟨handler, mem⟩ := failed
  exact List.mem_filter.2 ⟨List.mem_filterMap.2 ⟨_, mem, if_pos rfl⟩, rfl⟩

theorem Stands.closed {t : CSession} {states : List Notice} (stands : Stands t states) (said : .disconnect ∈ states) :
    t.mOpen = false := by
  cases stands with
  | waiting closed one waits queued => exact closed
  | up opened none => cases List.mem_singleton.1 said
  | down closed none before => exact closed

theorem isConnected_of_some {t : CSession} (current : c.shared.mSession = some k)
    (found : c.shared.sessions[k]? = some t) : c.shared.isConnected = t.mOpen := by
  unfold isConnected
  rw [current]
  simp [found]

/-- A client at rest with a session. -/
theorem Settled.truthful {t : CSession} (settled : Settled c) (hears : Hears c) (up : c.shared.mShutdown = false)
    (last : k + 1 = c.shared.sessions.length) (found : c.shared.sessions[k]? = some t) : Truthful c := by
  have stands := hears.stood.sessions k t found
  have said := settled.stands (List.mem_of_getElem? found) stands
  have latest : lastOf stateOf (Client.deliveries c.shared.log) = some (if t.mOpen then .connect else .disconnect) := by
    rw [settled.deliveries hears up]
    refine hears.foremost k last _ ?_
    unfold lastOf
    rw [settled.posted hears (by omega)]
    exact said
  unfold Truthful
  rw [latest]
  cases current : c.shared.mSession with
  | some j =>
    obtain rfl : j = k := by
      have := hears.current.latest j current
      omega
    rw [isConnected_of_some current found]
    cases t.mOpen <;> decide
  | none =>
    -- the current attempt has failed, so the session is down
    have closed : t.mOpen = false := stands.closed (hears.current.gone current up k last).said
    have none : c.shared.isConnected = false := by
      unfold isConnected
      rw [current]
    rw [closed, none]
    decide

/-- **The last state callback tells the truth** in every state at rest of a client that is not shut down, if the
connect and disconnect callbacks are set from the first session on and no replaced session posts its state behind
a notice of the current session that says otherwise. -/
theorem last_state_callback (sslContext : Bool) (handshakeTimeoutS : Nat) (ls : List Label) (c : Running)
    (run : system.exec (create sslContext handshakeTimeoutS) ls = some c)
    (callbacks : system.Along CallbacksOk (create sslContext handshakeTimeoutS) ls)
    (ok : system.Along PostOk (create sslContext handshakeTimeoutS) ls) (up : c.shared.mShutdown = false)
    (settled : Settled c) : Truthful c := by
  have hears := run_hears run callbacks ok up
  by_cases empty : c.shared.sessions.length = 0
  · -- nothing was ever said
    have silent : lastOf stateOf (deliveries c.shared.log) ≠ some .connect := by
      intro last
      rw [settled.deliveries hears up] at last
      obtain ⟨x, mem, seen⟩ := mem_of_lastOf last
      have posted : .connect ∈ (ofSession x.1 (postings c.shared.log)).filter Notice.isState := by
        rw [← states_posted]
        exact List.mem_filterMap.2 ⟨x, mem, (if_pos rfl).trans seen⟩
      have bound := hears.relayed.bound hears.stood (.inr posted)
      omega
    have none : c.shared.isConnected = false := by
      unfold isConnected
      cases current : c.shared.mSession with
      | none => rfl
      | some k =>
        have := hears.current.latest k current
        omega
    exact iff_of_false silent (by rw [none]; decide)
  · have last : c.shared.sessions.length - 1 + 1 = c.shared.sessions.length := by omega
    exact settled.truthful hears up last (List.getElem?_eq_getElem (by omega))

/-- A client that has set both callbacks and is connected. -/
def connected : List Label :=
  ([.api (.registerConnectCallback (some 1)), .run 0 false, .api (.registerDisconnectCallback (some 2)), .run 1 false,
    .api (.asyncConnect [] 80 [])] : List Label) ++ runs 2 4 ++
  ([.strand 0 none, .complete 0 0 none noFrame, .strand 0 none, .complete 0 0 none noFrame, .strand 0 none,
    .complete 0 0 none noFrame, .strand 0 none] : List Label) ++ runs 6 3 ++ ([.work, .run 7 false] : List Label)

/-- The second session connects. -/
def connectsAgain (i : Nat) : List Label :=
  ([.strand 1 none, .complete 1 0 none noFrame, .strand 1 none, .complete 1 0 none noFrame, .strand 1 none,
    .complete 1 0 none noFrame, .strand 1 none] : List Label) ++ runs (i + 3) 3 ++ ([.work, .run (i + 4) false] : List Label)

/-- The first session closes. -/
def disconnects (i : Nat) : List Label :=
  ([.strand 0 none, .complete 0 1 none noFrame, .strand 0 none, .complete 0 0 (some .closed) noFrame, .strand 0 none] : List Label) ++
    runs (i + 2) 2 ++ ([.work, .run (i + 3) false] : List Label)

/-- A second `AsyncConnect` replaces the session, which closes before the new one connects. -/
def replacesInOrder : List Label := connected ++ [.api (.asyncConnect [] 80 [])] ++ runs 8 4 ++ disconnects 9 ++ connectsAgain 13

theorem replacesInOrder_runs : (system.exec (create false 30) replacesInOrder).isSome = true := by decide

/-- There the last callback is right. -/
theorem last_state_callback_replacesInOrder : ∃ c, system.exec (create false 30) replacesInOrder = some c ∧
    Settled c ∧ c.shared.isConnected = true ∧ Truthful c :=
  ⟨_, System.exec_get replacesInOrder_runs, by decide, by decide,
    last_state_callback false 30 replacesInOrder _ (System.exec_get replacesInOrder_runs) (by decide)
      (by decide) (by decide) (by decide)⟩

/-- The old session closes when the new one is connected. -/
def replacesLate : List Label := connected ++ [.api (.asyncConnect [] 80 [])] ++ runs 8 4 ++ connectsAgain 9 ++ disconnects 14

theorem replacesLate_runs : (system.exec (create false 30) replacesLate).isSome = true := by decide

/-- There the last callback is the disconnect callback, and the client is connected. -/
theorem replaced_session_speaks_last : ¬ ∀ sslContext handshakeTimeoutS ls c,
    system.exec (create sslContext handshakeTimeoutS) ls = some c →
      system.Along CallbacksOk (create sslContext handshakeTimeoutS) ls → c.shared.mShutdown = false → Settled c →
      Truthful c := by
  intro claim
  have truthful := claim false 30 replacesLate _ (System.exec_get replacesLate_runs) (by decide)
    (by decide) (by decide)
  have connected : ((system.exec (create false 30) replacesLate).get replacesLate_runs).shared.isConnected = true := by
    decide
  have last : lastOf stateOf (deliveries ((system.exec (create false 30) replacesLate).get replacesLate_runs).shared.log) =
      some .disconnect := by
    decide
  exact absurd (last.symm.trans (truthful.2 connected)) (by decide)

end Client

end Websockets
