import Websockets.Client.Talk

/-!
# One attempt a session

`DoConnect` creates a session and calls its `AsyncConnect` once, with a completion handler; in between,
the session can already be closed. From that follows what a step of the client is to one of its sessions:
nothing, its creation, a posted task, the one call of `AsyncConnect`, a completion, or a handler run.
-/

namespace Websockets

open Lib

namespace Client

/-- The piece calls `AsyncConnect` of session `k`. -/
def Action.starts (k : Nat) : Action → Bool
  | sessionAsyncConnect k' _ => k' = k
  | _ => false

/-- A piece that is going to start a session has a completion handler for it. -/
def Action.Complete : Action → Prop
  | installSession args | sessionAsyncConnect _ args => args.onComplete.isSome = true
  | _ => True

/-- `AsyncConnect` of session `k` has been called. -/
def started (s : Client) (k : Nat) : Bool := s.sessions[k]?.any (·.connectCalled)

/-- Every session has been started, or one operation is going to start it. -/
structure Once (c : Running) : Prop where
  starts : ∀ k, c.count (Action.starts k) + (c.shared.started k).toNat = if k < c.shared.sessions.length then 1 else 0
  complete : ∀ j q b, c.At j q b → b.Complete

variable {c c' : Running} {s s' : Client} {a : Action} {outs : List Action} {k : Nat} {l : Label}

/-! ## Lookup of sessions -/

theorem mapSession_get (s : Client) (j k : Nat) (f : CSession → CSession) :
    (s.mapSession j f).sessions[k]? = s.sessions[k]?.map fun t => if j = k then f t else t := by
  simp only [mapSession, List.getElem?_modify]
  rfl

theorem mapSession_length (s : Client) (j : Nat) (f : CSession → CSession) :
    (s.mapSession j f).sessions.length = s.sessions.length := List.length_modify ..

theorem mapSession_started {j : Nat} {f : CSession → CSession}
    (same : ∀ t, s.sessions[j]? = some t → (f t).connectCalled = t.connectCalled) :
    (s.mapSession j f).started k = s.started k := by
  unfold started
  rw [mapSession_get]
  cases found : s.sessions[k]? with
  | none => rfl
  | some t =>
    by_cases eq : j = k
    · subst eq
      simp only [Option.map_some, if_true, Option.any_some, same t found]
    · simp only [Option.map_some, if_neg eq, Option.any_some]

theorem sessionPost_started (j : Nat) (task : SessionTask) : (s.sessionPost j task).started k = s.started k :=
  mapSession_started fun _ _ => rfl

theorem setSession_started {j : Nat} {t t' : CSession} (found : s.sessions[j]? = some t)
    (same : t'.connectCalled = t.connectCalled) : (s.setSession j t').started k = s.started k := by
  apply mapSession_started
  intro u here
  cases found.symm.trans here
  exact same

theorem started_of_sessions (same : s'.sessions = s.sessions) : s'.started k = s.started k := by
  unfold started
  rw [same]

/-- The session `DoConnect` closes is one of the old ones. -/
def closeOld (s : Client) : Client := match s.mSession with
  | none => s
  | some old => s.sessionPost old .close

theorem installSession_sessions (args : ConnectArgs) :
    (s.installSession args).1.sessions = s.closeOld.sessions ++ [.create s.sslContext] := rfl

theorem closeOld_length : s.closeOld.sessions.length = s.sessions.length := by
  unfold closeOld
  split
  · rfl
  · exact mapSession_length s _ _

theorem closeOld_started : s.closeOld.started k = s.started k := by
  unfold closeOld
  split
  · rfl
  · exact sessionPost_started _ _

theorem installSession_started (args : ConnectArgs) : (s.installSession args).1.started k = s.started k := by
  have old : s.closeOld.started k = s.started k := closeOld_started
  rw [← old]
  unfold started
  rw [installSession_sessions, List.getElem?_append]
  split
  · rfl
  · next beyond =>
    have absent : s.closeOld.sessions[k]? = none := List.getElem?_eq_none (by omega)
    rw [absent]
    cases found : ([.create s.sslContext] : List CSession)[k - s.closeOld.sessions.length]? with
    | none => rfl
    | some t =>
      rw [List.mem_singleton.1 (List.mem_of_getElem? found)]
      rfl

/-! ## Every session is started once -/

theorem starts_aside (aside : a.isAside = true) : a.starts k = false := by
  cases a with
  | sessionAsyncConnect k args => cases aside
  | _ => rfl

theorem complete_aside (aside : a.isAside = true) : a.Complete := by
  cases a with
  | installSession args => cases aside
  | sessionAsyncConnect k args => cases aside
  | _ => trivial

theorem starts_announces {n : Nat × Notice} (announces : a.announces = some n) : a.starts k = false := by
  cases a with
  | sessionAsyncConnect k args => cases announces
  | _ => rfl

theorem countP_starts (none : ∀ o ∈ outs, o.starts k = false) : outs.countP (Action.starts k) = 0 := by
  rw [List.countP_eq_zero]
  intro o mem
  rw [none o mem]
  exact Bool.false_ne_true

theorem relay_starts (cb : Option Fn) (j : Nat) (notice : Notice) :
    ∀ o ∈ relay cb j notice, o.starts k = false ∧ o.Complete := by
  intro o mem
  obtain ⟨fn, -, rfl⟩ := List.mem_map.1 mem
  exact ⟨rfl, trivial⟩

theorem onConnectComplete_starts (j : Nat) (handler : OnComplete) (success : Bool) :
    ∀ o ∈ onConnectComplete j handler success, o.starts k = false ∧ o.Complete := by
  intro o mem
  rcases List.mem_append.1 mem with mem | mem
  · cases success with
    | true =>
      rw [List.mem_singleton.1 mem]
      exact ⟨rfl, trivial⟩
    | false =>
      rcases List.mem_cons.1 mem with rfl | mem
      · exact ⟨rfl, trivial⟩
      · rw [List.mem_singleton.1 mem]
        exact ⟨rfl, trivial⟩
  · obtain ⟨promise, -, rfl⟩ := List.mem_map.1 mem
    exact ⟨rfl, trivial⟩

theorem ofCall_starts (j : Nat) (calls : List SessionCall) :
    ∀ o ∈ calls.map (ofCall j), o.starts k = false ∧ o.Complete := by
  intro o mem
  obtain ⟨call, -, rfl⟩ := List.mem_map.1 mem
  cases call <;> exact ⟨rfl, trivial⟩

/-- Starts to come, started and existing sessions change together. -/
def Balanced (k : Nat) (s : Client) (a : Action) (s' : Client) (outs : List Action) : Prop :=
  outs.countP (Action.starts k) + (s'.started k).toNat + (if k < s.sessions.length then 1 else 0) =
    (if a.starts k then 1 else 0) + (s.started k).toNat + if k < s'.sessions.length then 1 else 0

theorem Balanced.of_same (started : s'.started k = s.started k) (len : s'.sessions.length = s.sessions.length)
    (other : a.starts k = false) (none : ∀ o ∈ outs, o.starts k = false) : Balanced k s a s' outs := by
  unfold Balanced
  rw [countP_starts none, started, len, other, if_neg Bool.false_ne_true]

theorem installSession_balanced (args : ConnectArgs) :
    Balanced k s (.installSession args) (s.installSession args).1 (s.installSession args).2 := by
  have len : (s.installSession args).1.sessions.length = s.sessions.length + 1 := by
    rw [installSession_sessions, List.length_append, closeOld_length]
    rfl
  have one : (s.installSession args).2.countP (Action.starts k) = if s.sessions.length = k then 1 else 0 := by
    simp [Client.installSession, Action.starts, List.countP_cons]
  have other : Action.starts k (.installSession args) = false := rfl
  unfold Balanced
  rw [installSession_started, len, one, other, if_neg Bool.false_ne_true]
  by_cases last : s.sessions.length = k
  · rw [if_pos last, if_neg (by omega), if_pos (by omega)]
    omega
  · by_cases old : k < s.sessions.length
    · rw [if_neg last, if_pos old, if_pos (by omega)]
    · rw [if_neg last, if_neg old, if_neg (by omega)]

theorem sessionAsyncConnect_balanced {j : Nat} (args : ConnectArgs)
    (present : j = k → s.started k = false ∧ k < s.sessions.length) :
    Balanced k s (.sessionAsyncConnect j args) (s.sessionAsyncConnect j args) [] := by
  have len : (s.sessionAsyncConnect j args).sessions.length = s.sessions.length := mapSession_length _ _ _
  by_cases eq : j = k
  · obtain ⟨uncalled, bound⟩ := present eq
    subst eq
    have now : (s.sessionAsyncConnect j args).started j = true := by
      unfold started Client.sessionAsyncConnect
      rw [mapSession_get, List.getElem?_eq_getElem bound]
      simp only [Option.map_some, if_true, Option.any_some]
    have this : Action.starts j (.sessionAsyncConnect j args) = true := decide_eq_true rfl
    unfold Balanced
    rw [now, uncalled, len, if_pos this]
    rfl
  · refine .of_same ?_ len (decide_eq_false eq) (List.forall_mem_nil _)
    unfold started Client.sessionAsyncConnect
    rw [mapSession_get]
    simp only [if_neg eq, Option.map_id']

/-- What a piece changes in the balance of starts. -/
theorem Does.balanced (does : Does s a s' outs)
    (present : a.starts k = true → s.started k = false ∧ k < s.sessions.length) : Balanced k s a s' outs := by
  cases does with
  | aside aside spares asides =>
    exact .of_same (started_of_sessions spares.sessions) (congrArg List.length spares.sessions) (starts_aside aside)
      fun o mem => starts_aside (asides o mem)
  | sessionPost j task aside other =>
    exact .of_same (sessionPost_started j task) (mapSession_length _ _ _) (starts_aside aside) (List.forall_mem_nil _)
  | doConnect host port resource promise =>
    refine .of_same rfl rfl rfl fun o mem => ?_
    rw [List.mem_singleton.1 mem]
    rfl
  | installSession args => exact installSession_balanced args
  | sessionAsyncConnect j args => exact sessionAsyncConnect_balanced args fun eq => present (decide_eq_true eq)
  | onConnectComplete j handler success =>
    exact .of_same rfl rfl rfl fun o mem => (onConnectComplete_starts j handler success o mem).1
  | relay cb announces set =>
    exact .of_same rfl rfl (starts_announces announces) fun o mem => (relay_starts cb _ _ o mem).1
  | post j cb notice => exact .of_same rfl rfl rfl (List.forall_mem_nil _)
  | invokeCallback j cb notice asides => exact .of_same rfl rfl rfl fun o mem => starts_aside (asides o mem)
  | stopQueue onWorker asides => exact .of_same rfl rfl rfl fun o mem => starts_aside (asides o mem)

/-- What a piece leaves to do has its handler. -/
theorem Does.complete (does : Does s a s' outs) (complete : a.Complete) : ∀ o ∈ outs, o.Complete := by
  cases does with
  | aside aside spares asides => exact fun o mem => complete_aside (asides o mem)
  | sessionPost j task aside other => exact List.forall_mem_nil _
  | doConnect host port resource promise =>
    intro o mem
    rw [List.mem_singleton.1 mem]
    rfl
  | installSession args =>
    intro o mem
    rw [List.mem_singleton.1 mem]
    exact complete
  | sessionAsyncConnect j args => exact List.forall_mem_nil _
  | onConnectComplete j handler success => exact fun o mem => (onConnectComplete_starts (k := 0) j handler success o mem).2
  | relay cb announces set => exact fun o mem => (relay_starts (k := 0) cb _ _ o mem).2
  | post j cb notice => exact List.forall_mem_nil _
  | invokeCallback j cb notice asides => exact fun o mem => complete_aside (asides o mem)
  | stopQueue onWorker asides => exact fun o mem => complete_aside (asides o mem)

/-- A pending start is of a session that exists and was not started. -/
theorem Once.present (once : Once c) {j : Nat} {q : Owner} (pending : c.At j q a) (starts : a.starts k = true) :
    c.shared.started k = false ∧ k < c.shared.sessions.length := by
  have count := once.starts k
  have some := Tasks.count_pos pending starts
  cases was : c.shared.started k with
  | false =>
    refine ⟨rfl, ?_⟩
    split at count
    · assumption
    · omega
  | true =>
    rw [was, Bool.toNat_true] at count
    split at count <;> omega

theorem Once.of_same (once : Once c) (started : ∀ k, s'.started k = c.shared.started k)
    (len : s'.sessions.length = c.shared.sessions.length) : Once { c with shared := s' } := by
  refine ⟨fun k => ?_, once.complete⟩
  have count := once.starts k
  rw [← started k, ← len] at count
  exact count

/-- A new operation that starts nothing. -/
theorem Once.spawn {o : Owner} {todo : List Action} (once : Once c)
    (light : ∀ k, ∀ b ∈ todo, Action.starts k b = false ∧ b.Complete) : Once (c.spawn o todo) := by
  refine ⟨fun k => ?_, fun j q b pending => ?_⟩
  · rw [Tasks.count_spawn, countP_starts fun b mem => (light k b mem).1]
    exact once.starts k
  · rcases Tasks.at_spawn.1 pending with old | ⟨-, -, mem⟩
    · exact once.complete j q b old
    · exact (light 0 b mem).2

theorem step_once (step : step c l = some c') (once : Once c) : Once c' := by
  cases step_steps step with
  | api call asides => exact once.spawn fun _ b mem => ⟨starts_aside (asides b mem), complete_aside (asides b mem)⟩
  | run ran does =>
    refine ⟨fun k => ?_, fun j q b pending => ?_⟩
    · have moved := ran.count (Action.starts k)
      have balance := does.balanced (k := k) fun starts => once.present ran.at_head starts
      have count := once.starts k
      unfold Balanced at balance
      omega
    · rcases ran.at_inv pending with old | ⟨-, -, mem⟩
      · exact once.complete j q b old
      · exact does.complete (once.complete _ _ _ ran.at_head) b mem
  | complete found done => exact once.of_same (fun _ => setSession_started found rfl) (mapSession_length _ _ _)
  | strand idle found front ran =>
    have same := once.of_same (fun _ => setSession_started found (CSession.runNext_strand front ran).2)
      (mapSession_length _ _ _)
    exact Once.spawn ⟨same.starts, same.complete⟩ fun _ b mem => ofCall_starts _ _ b mem
  | work idle running queue =>
    refine Once.spawn ⟨once.starts, once.complete⟩ fun _ b mem => ?_
    rw [List.mem_singleton.1 mem]
    exact ⟨rfl, trivial⟩

theorem create_once (sslContext : Bool) (handshakeTimeoutS : Nat) : Once (create sslContext handshakeTimeoutS) where
  starts _ := rfl
  complete j q b pending := by
    obtain ⟨t, found, -, -⟩ := pending
    cases found

/-! ## What a step is to a session -/

/-- What a piece of an operation is to a session. -/
inductive Touches : Option CSession → Option CSession → Prop
  | stays (t) : Touches t t
  | creates (isSsl) : Touches none (some (.create isSsl))
  | posts (t : CSession) (task) (other : task.isConnect = false) :
      Touches (some t) (some { t with toChannel := t.toChannel.post task })
  | connects (t : CSession) (args) (uncalled : t.connectCalled = false) (complete : args.onComplete.isSome = true) :
      Touches (some t) (some { t with toChannel := t.toChannel.post (.asyncConnect args), connectCalled := true })

theorem Touches.absent {before after : Option CSession} (touches : Touches before after) (gone : after = none) :
    before = none := by
  cases touches with
  | stays t => exact gone
  | _ => cases gone

/-- The session on whose strand the event happened. -/
def Event.strand? : Event → Option Nat
  | handled k _ | called k _ => some k
  | _ => none

/-- What a step of the client is to session `k`, with the events it adds. -/
inductive SessionStep (c : Running) (k : Nat) (c' : Running) : Label → List Event → Prop
  | touches {l new} (touches : Touches c.shared.sessions[k]? c'.shared.sessions[k]?)
      (quiet : ∀ e ∈ new, Event.strand? e ≠ some k) : SessionStep c k c' l new
  | completes {t i ec frame ch} (before : c.shared.sessions[k]? = some t)
      (done : t.toChannel.complete i ec frame = some ch)
      (after : c'.shared.sessions[k]? = some { t with toChannel := ch }) :
      SessionStep c k c' (.complete k i ec frame) []
  | runs {t sni t' calls h rest} (before : c.shared.sessions[k]? = some t) (front : t.strand = h :: rest)
      (ran : t.runNext true sni = some (t', calls)) (after : c'.shared.sessions[k]? = some t') :
      SessionStep c k c' (.strand k sni) (.handled k (handled h) :: calls.map (.called k))

theorem touches_map {j : Nat} {f : CSession → CSession}
    (touches : ∀ t, s.sessions[k]? = some t → j = k → Touches (some t) (some (f t))) :
    Touches s.sessions[k]? (s.mapSession j f).sessions[k]? := by
  rw [mapSession_get]
  cases found : s.sessions[k]? with
  | none => exact .stays none
  | some t =>
    by_cases eq : j = k
    · simp only [Option.map_some, if_pos eq]
      exact touches t found eq
    · simp only [Option.map_some, if_neg eq]
      exact .stays (some t)

theorem sessionPost_touches (j : Nat) {task : SessionTask} (other : task.isConnect = false) :
    Touches s.sessions[k]? (s.sessionPost j task).sessions[k]? :=
  touches_map fun t _ _ => .posts t task other

theorem closeOld_touches : Touches s.sessions[k]? s.closeOld.sessions[k]? := by
  unfold closeOld
  split
  · exact .stays _
  · exact sessionPost_touches _ rfl

theorem installSession_touches (args : ConnectArgs) :
    Touches s.sessions[k]? (s.installSession args).1.sessions[k]? := by
  rw [installSession_sessions, List.getElem?_append, closeOld_length]
  split
  · exact closeOld_touches
  · next beyond =>
    rw [List.getElem?_eq_none (Nat.le_of_not_lt beyond)]
    cases found : ([.create s.sslContext] : List CSession)[k - s.sessions.length]? with
    | none => exact .stays none
    | some t =>
      rw [List.mem_singleton.1 (List.mem_of_getElem? found)]
      exact .creates s.sslContext

/-- What a piece is to the sessions and the history. -/
theorem Does.touches (does : Does s a s' outs) (present : a.starts k = true → s.started k = false)
    (complete : a.Complete) : Touches s.sessions[k]? s'.sessions[k]? ∧
      ∃ new, s'.log = s.log ++ new ∧ ∀ e ∈ new, Event.strand? e = none := by
  have same : ∃ new, s.log = s.log ++ new ∧ ∀ e ∈ new, Event.strand? e = none :=
    ⟨[], (List.append_nil _).symm, List.forall_mem_nil _⟩
  cases does with
  | aside aside spares asides =>
    obtain ⟨new, log, quiet⟩ := spares.log
    refine ⟨by rw [spares.sessions]; exact .stays _, new, log, fun e mem => ?_⟩
    have isAside := quiet e mem
    cases e with
    | handled k h => cases isAside
    | called k call => cases isAside
    | _ => rfl
  | sessionPost j task aside other => exact ⟨sessionPost_touches j other, same⟩
  | doConnect host port resource promise => exact ⟨.stays _, same⟩
  | installSession args =>
    refine ⟨installSession_touches args, [], ?_, List.forall_mem_nil _⟩
    rw [installSession_log, List.append_nil]
  | sessionAsyncConnect j args =>
    refine ⟨touches_map fun t found eq => .connects t args ?_ complete, same⟩
    have uncalled := present (decide_eq_true eq)
    unfold started at uncalled
    rw [found] at uncalled
    exact uncalled
  | onConnectComplete j handler success => exact ⟨.stays _, same⟩
  | relay cb announces set => exact ⟨.stays _, same⟩
  | post j cb notice =>
    refine ⟨.stays _, _, rfl, fun e mem => ?_⟩
    rw [List.mem_singleton.1 mem]
    rfl
  | invokeCallback j cb notice asides =>
    refine ⟨.stays _, _, rfl, fun e mem => ?_⟩
    rw [List.mem_singleton.1 mem]
    rfl
  | stopQueue onWorker asides => exact ⟨.stays _, same⟩

theorem setSession_get {t t' : CSession} (found : s.sessions[k]? = some t) :
    (s.setSession k t').sessions[k]? = some t' := by
  rw [setSession, mapSession_get, found]
  simp only [Option.map_some, if_true]

theorem setSession_other {j : Nat} {t' : CSession} (other : j ≠ k) :
    (s.setSession j t').sessions[k]? = s.sessions[k]? := by
  rw [setSession, mapSession_get]
  simp only [if_neg other, Option.map_id']

/-- **What a step is to session `k`.** -/
theorem step_session (step : step c l = some c') (once : Once c) (k : Nat) :
    ∃ new, c'.shared.log = c.shared.log ++ new ∧ SessionStep c k c' l new := by
  cases step_steps step with
  | api call asides => exact ⟨[], (List.append_nil _).symm, .touches (.stays _) (List.forall_mem_nil _)⟩
  | run ran does =>
    obtain ⟨touches, new, log, quiet⟩ := does.touches (k := k)
      (fun starts => (once.present ran.at_head starts).1) (once.complete _ _ _ ran.at_head)
    refine ⟨new, log, .touches touches fun e mem eq => ?_⟩
    rw [quiet e mem] at eq
    cases eq
  | @complete j i ec frame t ch found done =>
    refine ⟨[], (List.append_nil _).symm, ?_⟩
    by_cases eq : j = k
    · subst eq
      exact .completes found done (setSession_get found)
    · refine .touches ?_ (List.forall_mem_nil _)
      rw [setSession_other eq]
      exact .stays _
  | @strand j sni t t' calls h rest idle found front ran =>
    refine ⟨_, rfl, ?_⟩
    by_cases eq : j = k
    · subst eq
      exact .runs found front ran (setSession_get found)
    · refine .touches ?_ fun e mem => ?_
      · simp only [Tasks.spawn, record]
        rw [setSession_other eq]
        exact .stays _
      · rcases List.mem_cons.1 mem with rfl | mem
        · exact fun same => eq (Option.some.inj same)
        · obtain ⟨call, -, rfl⟩ := List.mem_map.1 mem
          exact fun same => eq (Option.some.inj same)
  | work idle running queue => exact ⟨[], (List.append_nil _).symm, .touches (.stays _) (List.forall_mem_nil _)⟩

/-- The same operation runs `n` pieces. -/
def runs (i n : Nat) : List Label := List.replicate n (.run i false)

end Client

end Websockets
