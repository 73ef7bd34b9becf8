import Websockets.Client.Truth

/-!
# Promises and attempts

The attempts of a client are its sessions, in the order in which they were installed. A `Connect` call makes a
promise, which its attempt carries until its completion handler sets it; each promise has one attempt. When the
promise is set, the session has said that the attempt ended that way, and the callback for it has been posted.
-/

namespace Websockets

open Lib

def ConnectArgs.promise (args : ConnectArgs) : Option Nat := args.onComplete.bind OnComplete.promise

namespace CSession

/-- The promises that a session is going to answer: those of queued `asyncConnect`s, and that of its handler. -/
def carried (t : CSession) : List (Option Nat) :=
  (t.strand.filterMap fun
    | .posted (.asyncConnect args) => some args.promise
    | _ => none) ++ t.mOnConnectComplete.toList.map (·.promise)

end CSession

namespace Client

/-- The promise of the attempt that a piece installs. -/
def Action.installs : Action → Option (Option Nat)
  | installSession args => some args.promise
  | _ => none

/-- The promise of the attempt that a step installs. -/
def attempt (c : Running) : Label → Option (Option Nat)
  | .run i _ => (c.tasks[i]?.bind (·.todo.head?)).bind Action.installs
  | _ => none

/-! ## What a piece is to the promises -/

/-- The promise for which a piece is going to install an attempt. -/
def Action.brings : Action → Option Nat
  | doConnect _ _ _ promise => promise
  | installSession args => args.promise
  | _ => none

/-- Pieces behind the call of `Connect` and behind that of the completion handler. -/
def Action.isInner : Action → Bool
  | doConnect _ _ _ _ | installSession _ | sessionAsyncConnect _ _ | awaitConnect _ | onConnectComplete _ _ _
  | setPromise _ _ => true
  | _ => false

def Event.isPlain : Event → Bool
  | posted _ _ | invoked _ _ _ | logged _ => true
  | _ => false

inductive Vows (s : Client) : Action → Client → List Action → Prop
  | asks (host port resource) :
      Vows s (.connect host port resource) { s with promises := s.promises ++ [none] }
        [.doConnect host port resource (some s.promises.length), .awaitConnect s.promises.length]
  | asksAsync (host port resource) : Vows s (.asyncConnect host port resource) s [.doConnect host port resource none]
  | copies (host port resource promise headers) : Vows s (.doConnect host port resource promise) s
      [.installSession ⟨host, port, resource, headers, some ⟨promise⟩⟩]
  | installs (args) : Vows s (.installSession args) (s.installSession args).1 [.sessionAsyncConnect s.sessions.length args]
  | calls (k args) : Vows s (.sessionAsyncConnect k args) (s.sessionAsyncConnect k args) []
  | returns {promise success} (set : s.promises[promise]? = some (some success)) :
      Vows s (.awaitConnect promise) (s.record [.returned promise success]) []
  | expires {promise} (unset : ∀ success, s.promises[promise]? ≠ some (some success)) :
      Vows s (.awaitConnect promise)
        (s.record [.logged (.text "Connect timed out"), .returned promise false]) []
  | completes (k handler success) :
      Vows s (.onConnectComplete k handler success) s (onConnectComplete k handler success)
  | sets (promise success) : Vows s (.setPromise promise success) (s.setPromise promise success) []
  | plain {a s' outs} (outer : a.isInner = false) (promises : s'.promises = s.promises)
      (sessions : s'.sessions = s.sessions ∨
        ∃ k task, SessionTask.isConnect task = false ∧ s'.sessions = (s.sessionPost k task).sessions)
      (outers : ∀ o ∈ outs, Action.isInner o = false)
      (log : ∃ new, s'.log = s.log ++ new ∧ ∀ e ∈ new, Event.isPlain e = true) : Vows s a s' outs

variable {c c' : Running} {s s' : Client} {i k : Nat} {a : Action} {outs : List Action} {flag : Bool} {l : Label}
  {log new : List Event} {attempts : List (Option Nat)}

theorem Vows.still (outer : a.isInner = false) (outers : ∀ o ∈ outs, o.isInner = false) : Vows s a s outs :=
  .plain outer rfl (.inl rfl) outers ⟨[], (List.append_nil _).symm, List.forall_mem_nil _⟩

theorem Vows.change (outer : a.isInner = false) (promises : s'.promises = s.promises) (sessions : s'.sessions = s.sessions)
    (log : s'.log = s.log) (outers : ∀ o ∈ outs, o.isInner = false) : Vows s a s' outs :=
  .plain outer promises (.inl sessions) outers ⟨[], log.trans (List.append_nil _).symm, List.forall_mem_nil _⟩

theorem outers_one (outer : a.isInner = false) : ∀ o ∈ [a], Action.isInner o = false := by
  intro o mem
  rw [List.mem_singleton.1 mem]
  exact outer

theorem outers_closes (sessions : List Nat) : ∀ o ∈ sessions.map Action.sessionClose, o.isInner = false := by
  intro o mem
  obtain ⟨k, -, rfl⟩ := List.mem_map.1 mem
  rfl

theorem outers_relay (cb : Option Fn) (k : Nat) (notice : Notice) : ∀ o ∈ relay cb k notice, o.isInner = false := by
  intro o mem
  obtain ⟨fn, -, rfl⟩ := List.mem_map.1 mem
  rfl

/-- **What `exec` is to the promises.** -/
theorem exec_vows (done : exec flag c i a = some (s', outs)) : Vows c.shared a s' outs := by
  cases a with
  | connect host port resource =>
    refine Tasks.of_result done ?_
    unfold connect
    split
    · exact .still rfl (List.forall_mem_nil _)
    · exact .asks host port resource
  | asyncConnect host port resource =>
    refine Tasks.of_result done ?_
    unfold asyncConnect
    split
    · exact .still rfl (List.forall_mem_nil _)
    · exact .asksAsync host port resource
  | doConnect host port resource promise => exact Tasks.of_result done (.copies host port resource promise _)
  | installSession args => exact Tasks.of_result done (.installs args)
  | sessionAsyncConnect k args => exact Tasks.of_result done (.calls k args)
  | awaitConnect promise =>
    obtain ⟨r, waited, same⟩ := Option.map_eq_some_iff.1 done
    cases same
    unfold awaitConnect at waited
    split at waited
    next success set =>
      cases waited
      exact .returns set
    next unset =>
      split at waited
      · cases waited
        exact .expires unset
      · cases waited
  | onConnectComplete k handler success => exact Tasks.of_result done (.completes k handler success)
  | setPromise promise success => exact Tasks.of_result done (.sets promise success)
  | close => exact Tasks.of_result done (.still rfl (outers_closes _))
  | sessionClose k =>
    exact Tasks.of_result done (.plain rfl rfl (.inr ⟨k, .close, rfl, rfl⟩) (List.forall_mem_nil _)
      ⟨[], (List.append_nil _).symm, List.forall_mem_nil _⟩)
  | send message =>
    refine Tasks.of_result done (.still rfl ?_)
    unfold send
    split <;> exact outers_one rfl
  | sendIfOpen k message =>
    refine Tasks.of_result done ?_
    unfold sendIfOpen
    split
    · exact .plain rfl rfl (.inr ⟨k, .send message, rfl, rfl⟩) (List.forall_mem_nil _)
        ⟨[], (List.append_nil _).symm, List.forall_mem_nil _⟩
    · exact .still rfl (outers_one rfl)
  | resetSession k =>
    refine Tasks.of_result done ?_
    unfold resetSession
    split <;> exact .change rfl rfl rfl rfl (List.forall_mem_nil _)
  | notifyConnected k => exact Tasks.of_result done (.still rfl (outers_relay _ k _))
  | onSessionMessage k message => exact Tasks.of_result done (.still rfl (outers_relay _ k _))
  | onSessionContent k content => exact Tasks.of_result done (.still rfl (outers_relay _ k _))
  | onSessionDisconnect k => exact Tasks.of_result done (.still rfl (outers_relay _ k _))
  | post k cb notice =>
    exact Tasks.of_result done (.plain rfl rfl (.inl rfl) (List.forall_mem_nil _)
      ⟨_, rfl, fun e mem => by rw [List.mem_singleton.1 mem]; rfl⟩)
  | invokeCallback k cb notice =>
    refine Tasks.of_result done (.plain rfl rfl (.inl rfl) ?_ ⟨_, rfl, fun e mem => by rw [List.mem_singleton.1 mem]; rfl⟩)
    cases flag
    · exact List.forall_mem_nil _
    · exact outers_one rfl
  | shutdown onWorker =>
    refine Tasks.of_result done ?_
    unfold shutdown
    split
    · exact .still rfl (List.forall_mem_nil _)
    · exact .change rfl rfl rfl rfl (List.forall_mem_cons.2 ⟨rfl, outers_one rfl⟩)
  | takeSession => exact Tasks.of_result done (.change rfl rfl rfl rfl (outers_closes _))
  | stopQueue onWorker =>
    refine Tasks.of_result done ?_
    unfold stopQueue
    split
    · exact .still rfl (List.forall_mem_nil _)
    · refine .change rfl rfl rfl rfl ?_
      cases onWorker
      · exact outers_one rfl
      · exact List.forall_mem_nil _
  | joinWorker =>
    simp only [exec] at done
    split at done
    · exact Tasks.of_result done (.still rfl (List.forall_mem_nil _))
    · cases done
  | logError line =>
    exact Tasks.of_result done (.plain rfl rfl (.inl rfl) (List.forall_mem_nil _)
      ⟨_, rfl, fun e mem => by rw [List.mem_singleton.1 mem]; rfl⟩)
  | setHandshakeHeader name value => exact Tasks.of_result done (.change rfl rfl rfl rfl (List.forall_mem_nil _))
  | clearHandshakeHeaders => exact Tasks.of_result done (.change rfl rfl rfl rfl (List.forall_mem_nil _))
  | registerConnectCallback cb => exact Tasks.of_result done (.change rfl rfl rfl rfl (List.forall_mem_nil _))
  | registerDisconnectCallback cb => exact Tasks.of_result done (.change rfl rfl rfl rfl (List.forall_mem_nil _))
  | registerMessageCallback cb => exact Tasks.of_result done (.change rfl rfl rfl rfl (List.forall_mem_nil _))
  | registerContentCallback cb => exact Tasks.of_result done (.change rfl rfl rfl rfl (List.forall_mem_nil _))

/-! ## The attempt of a promise -/

/-- Whatever refers to a session's promise refers to that of its attempt. -/
structure Tied (attempts : List (Option Nat)) (c : Running) : Prop where
  length : attempts.length = c.shared.sessions.length
  calls : ∀ j q k args, c.At j q (.sessionAsyncConnect k args) → attempts[k]? = some args.promise
  carried : ∀ (k : Nat) (t : CSession), c.shared.sessions[k]? = some t → ∀ x ∈ t.carried, attempts[k]? = some x
  called : ∀ k handler success, .called k (.onConnectComplete handler success) ∈ c.shared.log →
    attempts[k]? = some handler.promise

theorem post_carried {t : CSession} {task : SessionTask} (other : task.isConnect = false) :
    CSession.carried { t with toChannel := t.toChannel.post task } = t.carried := by
  unfold CSession.carried Channel.post
  cases task with
  | asyncConnect args => cases other
  | _ => simp

theorem complete_carried {t : CSession} {i : Nat} {ec : Option ErrorCode} {frame : Frame}
    {ch : Channel Stage SOutgoingMessage SessionTask} (done : t.toChannel.complete i ec frame = some ch) :
    CSession.carried { t with toChannel := ch } = t.carried := by
  obtain ⟨p, -, rfl⟩ := Channel.complete_fields done
  simp [CSession.carried]

/-- A handler run drops promises, or answers them. -/
theorem run_carried {t t' : CSession} {h : Handler Stage SOutgoingMessage SessionTask}
    {rest : List (Handler Stage SOutgoingMessage SessionTask)} {sni : Option ErrorCode} {calls : List SessionCall}
    (front : t.strand = h :: rest) (ran : t.runNext true sni = some (t', calls)) :
    (∀ x ∈ t'.carried, x ∈ t.carried) ∧
      ∀ handler success, .onConnectComplete handler success ∈ calls → handler.promise ∈ t.carried := by
  have strand := (CSession.runNext_strand front ran).1
  constructor
  · intro x mem
    unfold CSession.carried at mem ⊢
    rw [strand] at mem
    rw [front]
    rcases List.mem_append.1 mem with queued | mine
    · obtain ⟨g, later, is⟩ := List.mem_filterMap.1 queued
      exact List.mem_append_left _ (List.mem_filterMap.2 ⟨g, List.mem_cons_of_mem _ later, is⟩)
    · rcases CSession.runNext_handler front ran with none | same | ⟨args, rfl, taken⟩
      · rw [none] at mine
        cases mine
      · rw [same] at mine
        exact List.mem_append_right _ mine
      · rw [taken] at mine
        refine List.mem_append_left _ (List.mem_filterMap.2 ⟨_, List.mem_cons_self, ?_⟩)
        obtain ⟨handler, isSet, rfl⟩ := List.mem_map.1 mine
        show some (args.onComplete.bind OnComplete.promise) = _
        rw [Option.mem_toList.1 isSet, Option.bind_some]
  · intro handler success mem
    have mine : some handler = t.mOnConnectComplete → handler.promise ∈ t.carried := by
      intro isSet
      refine List.mem_append_right _ (List.mem_map.2 ⟨handler, ?_, rfl⟩)
      rw [← isSet]
      exact List.mem_singleton_self _
    have logged : ∀ {logs : List SessionCall}, (∀ call ∈ logs, SessionCall.isLog call = true) →
        .onConnectComplete handler success ∉ logs := fun light mem => Bool.false_ne_true (light _ mem)
    cases CSession.runNext_acts front ran with
    | begins args opened same => cases mem
    | advances opened same openings => cases mem
    | fails opened openings pending light =>
      rcases List.mem_append.1 mem with mem | mem
      · exact absurd mem (logged light)
      · obtain ⟨other, isSet, is⟩ := List.mem_map.1 mem
        cases is
        exact mine (Option.mem_toList.1 isSet).symm
    | opens opened =>
      obtain ⟨other, isSet, is⟩ := List.mem_map.1 mem
      cases is
      exact mine (Option.mem_toList.1 isSet).symm
    | reads frame keeps =>
      have is := List.mem_singleton.1 mem
      unfold SessionCall.ofFrame at is
      split at is <;> cases is
    | closes was closed openings light =>
      rcases List.mem_append.1 mem with mem | mem
      · exact absurd mem (logged light)
      · cases List.mem_singleton.1 mem
    | works keeps other light => exact absurd mem (logged light)

theorem prefix_get {x : Option Nat} {more : List (Option Nat)} (here : attempts[k]? = some x) :
    (attempts ++ more)[k]? = some x := by
  rw [List.getElem?_append_left (List.getElem?_eq_some_iff.1 here).1]
  exact here

/-- A step that neither installs nor starts a session, and calls no completion handler. -/
theorem Tied.keep (tied : Tied attempts c) (length : c'.shared.sessions.length = c.shared.sessions.length)
    (calls : ∀ j q k args, c'.At j q (.sessionAsyncConnect k args) → c.At j q (.sessionAsyncConnect k args))
    (carried : ∀ (k : Nat) (t' : CSession), c'.shared.sessions[k]? = some t' →
      ∃ t, c.shared.sessions[k]? = some t ∧ ∀ x ∈ t'.carried, x ∈ t.carried)
    (called : ∀ k handler success, .called k (.onConnectComplete handler success) ∈ c'.shared.log →
      .called k (.onConnectComplete handler success) ∈ c.shared.log) : Tied attempts c' where
  length := tied.length.trans length.symm
  calls j q k args pending := tied.calls j q k args (calls j q k args pending)
  carried k t' found x mem := by
    obtain ⟨t, here, fewer⟩ := carried k t' found
    exact tied.carried k t here x (fewer x mem)
  called k handler success mem := tied.called k handler success (called k handler success mem)

/-- Sessions that differ in posted tasks only. -/
theorem posted_carried {task : SessionTask} (other : task.isConnect = false) (j k : Nat) (t' : CSession)
    (found : (s.sessionPost j task).sessions[k]? = some t') :
    ∃ t, s.sessions[k]? = some t ∧ ∀ x ∈ t'.carried, x ∈ t.carried := by
  rw [sessionPost, mapSession_get] at found
  obtain ⟨t, here, same⟩ := Option.map_eq_some_iff.1 found
  refine ⟨t, here, fun x mem => ?_⟩
  subst same
  split at mem
  · rwa [post_carried other] at mem
  · exact mem

theorem installSession_carried {args : ConnectArgs} {t' : CSession}
    (found : (s.installSession args).1.sessions[k]? = some t') (x : Option Nat) (mem : x ∈ t'.carried) :
    ∃ t, s.sessions[k]? = some t ∧ x ∈ t.carried := by
  rw [installSession_sessions, List.getElem?_append, closeOld_length] at found
  split at found
  · have old : ∃ t, s.sessions[k]? = some t ∧ ∀ x ∈ t'.carried, x ∈ t.carried := by
      unfold closeOld at found
      split at found
      · exact ⟨t', found, fun _ => id⟩
      · exact posted_carried rfl _ k t' found
    obtain ⟨t, here, fewer⟩ := old
    exact ⟨t, here, fewer x mem⟩
  · rw [List.mem_singleton.1 (List.mem_of_getElem? found)] at mem
    cases mem

theorem attempt_run {o : Owner} {rest : List Action} (task : c.tasks[i]? = some ⟨o, a :: rest⟩) :
    attempt c (.run i flag) = a.installs := by
  simp only [attempt, task, Option.bind_some, List.head?_cons]

theorem installs_outer (outer : a.isInner = false) : a.installs = none := by
  cases a with
  | installSession args => cases outer
  | _ => rfl

/-- A completion that was called before such events. -/
theorem plain_called (log : s'.log = s.log ++ new) (plain : ∀ e ∈ new, Event.isPlain e = true ∨ ∃ p b, e = .returned p b)
    (k : Nat) (call : SessionCall) (mem : .called k call ∈ s'.log) : .called k call ∈ s.log := by
  rw [log] at mem
  refine (List.mem_append.1 mem).resolve_right fun here => ?_
  rcases plain _ here with isPlain | ⟨p, b, is⟩
  · cases isPlain
  · cases is

theorem Vows.tied {exec : Running → Nat → Action → Option (Client × List Action)} {o : Owner} {rest : List Action}
    (vows : Vows c.shared a c'.shared outs) (ran : Tasks.Ran exec c i c' o a rest outs) (tied : Tied attempts c) :
    Tied (attempts ++ a.installs.toList) c' := by
  have kept (length : c'.shared.sessions.length = c.shared.sessions.length)
      (unseen : ∀ k args, .sessionAsyncConnect k args ∉ outs)
      (carried : ∀ (k : Nat) (t' : CSession), c'.shared.sessions[k]? = some t' →
        ∃ t, c.shared.sessions[k]? = some t ∧ ∀ x ∈ t'.carried, x ∈ t.carried)
      (called : ∀ k call, .called k call ∈ c'.shared.log → .called k call ∈ c.shared.log)
      (none : a.installs = none) : Tied (attempts ++ a.installs.toList) c' := by
    rw [none, Option.toList_none, List.append_nil]
    refine tied.keep length (fun j q k args pending => ?_) carried fun k handler success => called k _
    exact (ran.at_inv pending).resolve_right fun new => unseen k args new.2.2
  generalize after : c'.shared = s' at vows
  have same (sessions : s'.sessions = c.shared.sessions) : ∀ (k : Nat) (t' : CSession), c'.shared.sessions[k]? = some t' →
      ∃ t, c.shared.sessions[k]? = some t ∧ ∀ x ∈ t'.carried, x ∈ t.carried := by
    intro k t' found
    rw [after, sessions] at found
    exact ⟨t', found, fun _ => id⟩
  have quiet (log : s'.log = c.shared.log) : ∀ k call, .called k call ∈ c'.shared.log → .called k call ∈ c.shared.log := by
    intro k call mem
    rwa [after, log] at mem
  cases vows with
  | asks host port resource => exact kept (by rw [after]) (by simp) (same rfl) (quiet rfl) rfl
  | asksAsync host port resource => exact kept (by rw [after]) (by simp) (same rfl) (quiet rfl) rfl
  | copies host port resource promise headers => exact kept (by rw [after]) (by simp) (same rfl) (quiet rfl) rfl
  | installs args =>
    have length : c'.shared.sessions.length = c.shared.sessions.length + 1 := by
      rw [after, installSession_sessions, List.length_append, closeOld_length]
      rfl
    refine ⟨by rw [length, ← tied.length]; exact List.length_append, ?_, ?_, ?_⟩
    · intro j q k args' pending
      rcases ran.at_inv pending with old | ⟨-, -, mem⟩
      · exact prefix_get (tied.calls j q k args' old)
      · cases List.mem_singleton.1 mem
        rw [← tied.length]
        exact List.getElem?_concat_length
    · intro k t' found x mem
      rw [after] at found
      obtain ⟨t, here, old⟩ := installSession_carried found x mem
      exact prefix_get (tied.carried k t here x old)
    · intro k handler success mem
      exact prefix_get (tied.called k handler success (quiet (installSession_log args) k _ mem))
  | calls k args =>
    rw [show Action.installs (.sessionAsyncConnect k args) = none from rfl, Option.toList_none, List.append_nil]
    refine ⟨?_, ?_, ?_, fun k' handler success mem => tied.called k' handler success (quiet rfl k' _ mem)⟩
    · rw [after]
      exact tied.length.trans (mapSession_length _ _ _).symm
    · intro j q k' args' pending
      exact tied.calls j q k' args' ((ran.at_inv pending).resolve_right fun new => List.not_mem_nil new.2.2)
    · intro k' t' found x mem
      rw [after, sessionAsyncConnect, mapSession_get] at found
      obtain ⟨t, here, is⟩ := Option.map_eq_some_iff.1 found
      split at is
      · next eq =>
        subst eq is
        have either : x = args.promise ∨ x ∈ t.carried := by
          simp only [CSession.carried, Channel.post, List.filterMap_append, List.mem_append] at mem ⊢
          rcases mem with (queued | new) | mine
          · exact .inr (.inl queued)
          · exact .inl (List.mem_singleton.1 new)
          · exact .inr (.inr mine)
        rcases either with rfl | old
        · exact tied.calls _ _ _ _ ran.at_head
        · exact tied.carried _ t here x old
      · subst is
        exact tied.carried k' t here x mem
  | returns set =>
    exact kept (by rw [after]; rfl) (by simp) (same rfl)
      (fun k call mem => plain_called rfl (fun e here => .inr ⟨_, _, List.mem_singleton.1 here⟩) k call (after ▸ mem)) rfl
  | expires unset =>
    refine kept (by rw [after]; rfl) (by simp) (same rfl) (fun k call mem => ?_) rfl
    refine plain_called rfl (fun e here => ?_) k call (after ▸ mem)
    rcases List.mem_cons.1 here with rfl | here
    · exact .inl rfl
    · exact .inr ⟨_, _, List.mem_singleton.1 here⟩
  | completes k handler success =>
    exact kept (by rw [after]) (fun k' args mem => by
      have light := (onConnectComplete_starts (k := k') k handler success _ mem).1
      simp [Action.starts] at light) (same rfl) (quiet rfl) rfl
  | sets promise success => exact kept (by rw [after]; rfl) (by simp) (same rfl) (quiet rfl) rfl
  | plain outer promises sessions outers log =>
    obtain ⟨new, log, plain⟩ := log
    refine kept ?_ (fun k args mem => Bool.noConfusion (outers _ mem)) (fun k t' found => ?_) (fun k call mem =>
      plain_called log (fun e here => .inl (plain e here)) k call (after ▸ mem)) (installs_outer outer)
    · rcases sessions with same | ⟨k, task, -, same⟩
      · rw [after, same]
      · rw [after, same]
        exact mapSession_length _ _ _
    · rw [after] at found
      rcases sessions with same | ⟨j, task, other, same⟩
      · rw [same] at found
        exact ⟨t', found, fun _ => id⟩
      · rw [same] at found
        exact posted_carried other j k t' found

/-- A new operation that starts no session. -/
theorem spawn_calls {q' : Owner} {todo : List Action} (unseen : ∀ k args, .sessionAsyncConnect k args ∉ todo) :
    ∀ j q k args, (c.spawn q' todo).At j q (.sessionAsyncConnect k args) → c.At j q (.sessionAsyncConnect k args) :=
  fun _ _ k args pending => (Tasks.at_spawn.1 pending).resolve_right fun new => unseen k args new.2.2

theorem session_replaced {t t' : CSession} (found : c.shared.sessions[k]? = some t)
    (fewer : ∀ x ∈ t'.carried, x ∈ t.carried) (j : Nat) (u' : CSession)
    (here : (c.shared.setSession k t').sessions[j]? = some u') :
    ∃ u, c.shared.sessions[j]? = some u ∧ ∀ x ∈ u'.carried, x ∈ u.carried := by
  by_cases eq : k = j
  · subst eq
    rw [setSession_get found] at here
    cases here
    exact ⟨t, found, fewer⟩
  · rw [setSession_other eq] at here
    exact ⟨u', here, fun _ => id⟩

/-- **A step keeps the promises with their attempts.** -/
theorem step_tied (step : step c l = some c') (tied : Tied attempts c) :
    Tied (attempts ++ (attempt c l).toList) c' := by
  have same : attempts ++ (none : Option (Option Nat)).toList = attempts := List.append_nil _
  cases step_steps step with
  | api call asides =>
    rw [show attempt c (.api call) = none from rfl, same]
    refine tied.keep rfl (spawn_calls fun k args mem => ?_) (fun k t found => ⟨t, found, fun _ => id⟩) fun _ _ _ => id
    exact Bool.noConfusion (asides _ mem)
  | run ran does =>
    rw [attempt_run ran.task]
    exact (exec_vows ran.action).tied ran tied
  | @complete k i ec frame t ch found done =>
    rw [show attempt c (.complete k i ec frame) = none from rfl, same]
    refine tied.keep (mapSession_length _ _ _) (fun _ _ _ _ => id) (session_replaced found fun x mem => ?_) fun _ _ _ => id
    rwa [complete_carried done] at mem
  | @strand k sni t t' calls h rest idle found front ran =>
    rw [show attempt c (.strand k sni) = none from rfl, same]
    obtain ⟨fewer, answers⟩ := run_carried front ran
    have kept := session_replaced found fewer
    refine ⟨tied.length.trans (mapSession_length _ _ _).symm, ?_, ?_, ?_⟩
    · intro j q k' args pending
      refine tied.calls j q k' args ((Tasks.at_spawn.1 pending).resolve_right ?_)
      rintro ⟨-, -, mem⟩
      have light := (ofCall_starts (k := k') k calls _ mem).1
      simp [Action.starts] at light
    · intro j u' here x mem
      obtain ⟨u, was, old⟩ := kept j u' here
      exact tied.carried j u was x (old x mem)
    · intro j handler success mem
      rcases List.mem_append.1 mem with old | new
      · exact tied.called j handler success old
      · rcases List.mem_cons.1 new with is | new
        · cases is
        · obtain ⟨call, called, is⟩ := List.mem_map.1 new
          cases is
          exact tied.carried k t found _ (answers handler success called)
  | work idle running queue =>
    rw [show attempt c .work = none from rfl, same]
    exact tied.keep rfl (spawn_calls (by simp)) (fun k t found => ⟨t, found, fun _ => id⟩) fun _ _ _ => id

theorem create_tied (sslContext : Bool) (handshakeTimeoutS : Nat) : Tied [] (create sslContext handshakeTimeoutS) where
  length := rfl
  calls j q k args pending := by
    obtain ⟨t, found, -, -⟩ := pending
    cases found
  carried k t found := nomatch found
  called k handler success mem := nomatch mem

/-! ## One attempt a promise -/

/-- Every promise is brought to an attempt once. -/
def Single (attempts : List (Option Nat)) (c : Running) : Prop :=
  ∀ promise, c.count (fun a => a.brings == some promise) + attempts.count (some promise) =
    if promise < c.shared.promises.length then 1 else 0

theorem brings_outer (outer : a.isInner = false) : a.brings = none := by
  cases a with
  | doConnect host port resource promise => cases outer
  | installSession args => cases outer
  | _ => rfl

theorem countP_brings {todo : List Action} (none : ∀ b ∈ todo, b.brings = none) (promise : Nat) :
    todo.countP (fun a => a.brings == some promise) = 0 := by
  rw [List.countP_eq_zero]
  intro b mem
  rw [none b mem]
  exact Bool.false_ne_true

theorem Vows.single {exec : Running → Nat → Action → Option (Client × List Action)} {o : Owner} {rest : List Action}
    (vows : Vows c.shared a c'.shared outs) (ran : Tasks.Ran exec c i c' o a rest outs) (single : Single attempts c) :
    Single (attempts ++ a.installs.toList) c' := by
  intro promise
  have moved := ran.count (fun a => a.brings == some promise)
  have before := single promise
  generalize after : c'.shared = s' at vows
  have kept (promises : s'.promises.length = c.shared.promises.length) (none : a.installs = none)
      (count : outs.countP (fun a => a.brings == some promise) = if a.brings == some promise then 1 else 0) :
      c'.count (fun a => a.brings == some promise) + (attempts ++ a.installs.toList).count (some promise) =
        if promise < s'.promises.length then 1 else 0 := by
    rw [none, Option.toList_none, List.append_nil, promises]
    omega
  cases vows with
  | asks host port resource =>
    have more : (c.shared.promises ++ [none]).length = c.shared.promises.length + 1 := List.length_append
    have one : ([.doConnect host port resource (some c.shared.promises.length), .awaitConnect c.shared.promises.length] :
        List Action).countP (fun a => a.brings == some promise) = if c.shared.promises.length = promise then 1 else 0 := by
      simp [Action.brings, List.countP_cons]
    rw [one, if_neg (by exact Bool.false_ne_true)] at moved
    rw [more, show Action.installs (.connect host port resource) = none from rfl, Option.toList_none, List.append_nil]
    split at before <;> split at moved <;> split <;> omega
  | asksAsync host port resource => exact kept rfl rfl rfl
  | copies host port resource p headers =>
    refine kept rfl rfl ?_
    simp [Action.brings, ConnectArgs.promise, List.countP_cons]
  | installs args =>
    have promises : (c.shared.installSession args).1.promises = c.shared.promises := by
      simp only [installSession]
      split <;> rfl
    have one : [args.promise].count (some promise) = if args.promise == some promise then 1 else 0 := List.count_singleton
    have none : ([.sessionAsyncConnect c.shared.sessions.length args] : List Action).countP
        (fun a => a.brings == some promise) = 0 := rfl
    have head : (Action.brings (.installSession args) == some promise) = (args.promise == some promise) := rfl
    rw [none, head] at moved
    rw [show Action.installs (.installSession args) = some args.promise from rfl, Option.toList_some, List.count_append,
      one, promises]
    omega
  | calls k args => exact kept rfl rfl rfl
  | returns set => exact kept rfl rfl rfl
  | expires unset => exact kept rfl rfl rfl
  | completes k handler success =>
    refine kept rfl rfl (countP_brings (fun b mem => ?_) promise)
    rcases List.mem_append.1 mem with mem | mem
    · cases success with
      | true => rw [List.mem_singleton.1 mem]; rfl
      | false =>
        rcases List.mem_cons.1 mem with rfl | mem
        · rfl
        · rw [List.mem_singleton.1 mem]
          rfl
    · obtain ⟨p, -, rfl⟩ := List.mem_map.1 mem
      rfl
  | sets p success => exact kept (List.length_set ..) rfl rfl
  | plain outer promises sessions outers log =>
    refine kept (by rw [promises]) (installs_outer outer) ?_
    rw [countP_brings (fun b mem => brings_outer (outers b mem)), brings_outer outer]
    rfl

theorem actions_outer (call : Api) : ∀ o ∈ call.actions, o.isInner = false := by
  cases call with
  | sendContent content =>
    cases content with
    | none => exact List.forall_mem_nil _
    | some content => exact outers_one rfl
  | _ => exact outers_one rfl

theorem ofCall_brings (j : Nat) (calls : List SessionCall) : ∀ b ∈ calls.map (ofCall j), b.brings = none := by
  intro b mem
  obtain ⟨call, -, rfl⟩ := List.mem_map.1 mem
  cases call <;> rfl

theorem Single.spawn {q : Owner} {todo : List Action} (single : Single attempts c) (none : ∀ b ∈ todo, b.brings = none) :
    Single attempts (c.spawn q todo) := by
  intro promise
  rw [Tasks.count_spawn, countP_brings none]
  exact single promise

theorem step_single (step : step c l = some c') (single : Single attempts c) :
    Single (attempts ++ (attempt c l).toList) c' := by
  have same : attempts ++ (none : Option (Option Nat)).toList = attempts := List.append_nil _
  cases step_steps step with
  | api call asides =>
    rw [show attempt c (.api call) = none from rfl, same]
    exact single.spawn fun b mem => brings_outer (actions_outer call b mem)
  | run ran does =>
    rw [attempt_run ran.task]
    exact (exec_vows ran.action).single ran single
  | @complete k i ec frame t ch found done =>
    rw [show attempt c (.complete k i ec frame) = none from rfl, same]
    exact single
  | @strand k sni t t' calls h rest idle found front ran =>
    rw [show attempt c (.strand k sni) = none from rfl, same]
    exact Single.spawn (c := ⟨_, c.tasks⟩) single (ofCall_brings k calls)
  | work idle running queue =>
    rw [show attempt c .work = none from rfl, same]
    exact Single.spawn (c := ⟨_, c.tasks⟩) single (by simp [Action.brings])

/-- A promise has one attempt at most, and only one that was asked for has one. -/
theorem Single.unique (single : Single attempts c) {promise j : Nat} (one : attempts[k]? = some (some promise))
    (other : attempts[j]? = some (some promise)) : k = j := by
  have twice {m n : Nat} (lt : m < n) (first : attempts[m]? = some (some promise))
      (second : attempts[n]? = some (some promise)) : False := by
    obtain ⟨bound, here⟩ := List.getElem?_eq_some_iff.1 first
    obtain ⟨bound', there⟩ := List.getElem?_eq_some_iff.1 second
    have twice := List.duplicate_iff_sublist.1
      (List.duplicate_iff_exists_distinct_get.2 ⟨⟨m, bound⟩, ⟨n, bound'⟩, lt, here.symm, there.symm⟩)
    have two : 2 ≤ attempts.count (some promise) := List.replicate_sublist_iff.1 twice
    have count := single promise
    split at count <;> omega
  rcases Nat.lt_trichotomy k j with lt | eq | lt
  · exact (twice lt one other).elim
  · exact eq
  · exact (twice lt other one).elim

/-- Only a promise that was made has an attempt. -/
theorem Single.bound (single : Single attempts c) {promise : Nat} (mem : some promise ∈ attempts) :
    promise < c.shared.promises.length := by
  have count := single promise
  have some := List.count_pos_iff.2 mem
  split at count
  · assumption
  · omega

/-! ## What the pieces of a completion say -/

/-- Completion handlers run on their strand, and promises are set, as the session has said. -/
structure Answers (c : Running) : Prop where
  completing : ∀ j q k handler success, c.At j q (.onConnectComplete k handler success) →
    q = .strand k ∧ .called k (.onConnectComplete handler success) ∈ c.shared.log
  setting : ∀ j q promise success, c.At j q (.setPromise promise success) →
    ∃ k, q = .strand k ∧ .called k (.onConnectComplete ⟨some promise⟩ success) ∈ c.shared.log

theorem Vows.no_completion (vows : Vows s a s' outs) {handler : OnComplete} {success : Bool} :
    .onConnectComplete k handler success ∉ outs := by
  intro mem
  cases vows with
  | plain outer promises sessions outers log => exact Bool.noConfusion (outers _ mem)
  | completes j handler' success' =>
    rcases List.mem_append.1 mem with mem | mem
    · cases success' with
      | true => cases List.mem_singleton.1 mem
      | false => simp at mem
    · obtain ⟨promise, -, is⟩ := List.mem_map.1 mem
      cases is
  | _ => simp at mem

/-- Promises are set by completion handlers. -/
theorem Vows.setting (vows : Vows s a s' outs) {promise : Nat} {success : Bool} (mem : .setPromise promise success ∈ outs) :
    ∃ k, a = .onConnectComplete k ⟨some promise⟩ success := by
  cases vows with
  | plain outer promises sessions outers log => exact Bool.noConfusion (outers _ mem)
  | completes j handler success' =>
    rcases List.mem_append.1 mem with mem | mem
    · cases success' with
      | true => cases List.mem_singleton.1 mem
      | false => simp at mem
    · obtain ⟨p, isSet, is⟩ := List.mem_map.1 mem
      cases is
      have same : handler = ⟨some promise⟩ := congrArg OnComplete.mk (Option.mem_toList.1 isSet)
      exact ⟨j, by rw [same]⟩
  | _ => simp at mem

theorem ofCalls_completion {j : Nat} {calls : List SessionCall} {handler : OnComplete} {success : Bool}
    (mem : .onConnectComplete k handler success ∈ calls.map (ofCall j)) :
    k = j ∧ .onConnectComplete handler success ∈ calls := by
  obtain ⟨call, here, is⟩ := List.mem_map.1 mem
  cases call with
  | onConnectComplete handler' success' =>
    cases is
    exact ⟨rfl, here⟩
  | _ => cases is

theorem ofCalls_setting {j : Nat} {calls : List SessionCall} {promise : Nat} {success : Bool} :
    .setPromise promise success ∉ calls.map (ofCall j) := by
  intro mem
  obtain ⟨call, -, is⟩ := List.mem_map.1 mem
  cases call <;> cases is

/-- A new operation without completions. -/
theorem Answers.spawn {q' : Owner} {todo : List Action} (answers : Answers c)
    (none : ∀ b ∈ todo, b.isInner = false) : Answers (c.spawn q' todo) where
  completing j q k handler success pending :=
    answers.completing j q k handler success
      ((Tasks.at_spawn.1 pending).resolve_right fun new => Bool.noConfusion (none _ new.2.2))
  setting j q promise success pending :=
    answers.setting j q promise success
      ((Tasks.at_spawn.1 pending).resolve_right fun new => Bool.noConfusion (none _ new.2.2))

theorem step_answers (step : step c l = some c') (grows : ∀ e ∈ c.shared.log, e ∈ c'.shared.log) (answers : Answers c) :
    Answers c' := by
  cases step_steps step with
  | api call asides => exact answers.spawn (actions_outer call)
  | run ran does =>
    have vows := exec_vows ran.action
    refine ⟨fun j q k handler success pending => ?_, fun j q promise success pending => ?_⟩
    · have old := (ran.at_inv pending).resolve_right fun new => vows.no_completion new.2.2
      obtain ⟨owner, called⟩ := answers.completing j q k handler success old
      exact ⟨owner, grows _ called⟩
    · rcases ran.at_inv pending with old | ⟨-, rfl, mem⟩
      · obtain ⟨k, owner, called⟩ := answers.setting j q promise success old
        exact ⟨k, owner, grows _ called⟩
      · obtain ⟨k, rfl⟩ := vows.setting mem
        obtain ⟨owner, called⟩ := answers.completing _ _ k _ success ran.at_head
        exact ⟨k, owner, grows _ called⟩
  | complete found done => exact ⟨answers.completing, answers.setting⟩
  | @strand k sni t t' calls h rest idle found front ran =>
    refine ⟨fun j q k' handler success pending => ?_, fun j q promise success pending => ?_⟩
    · rcases Tasks.at_spawn.1 pending with old | ⟨-, rfl, mem⟩
      · obtain ⟨owner, called⟩ := answers.completing j q k' handler success old
        exact ⟨owner, grows _ called⟩
      · obtain ⟨rfl, here⟩ := ofCalls_completion mem
        exact ⟨rfl, List.mem_append_right _ (List.mem_cons_of_mem _ (List.mem_map.2 ⟨_, here, rfl⟩))⟩
    · have old := (Tasks.at_spawn.1 pending).resolve_right fun new => ofCalls_setting new.2.2
      obtain ⟨k', owner, called⟩ := answers.setting j q promise success old
      exact ⟨k', owner, grows _ called⟩
  | work idle running queue =>
    exact Answers.spawn (c := ⟨_, c.tasks⟩) ⟨answers.completing, answers.setting⟩ (outers_one rfl)

/-! ## What comes before what -/

/-- A wait is for a promise that has an attempt. -/
def NeedsAttempt (a : Action) (promise : Nat) : Prop := a = .awaitConnect promise

def BringsAttempt (a : Action) (promise : Nat) : Prop := a.brings = some promise

def Installed (attempts : List (Option Nat)) : Running → Prop :=
  Tasks.Guarded NeedsAttempt BringsAttempt fun _ promise => some promise ∈ attempts

/-- A connect or disconnect callback was posted for the session. -/
def Notified (k : Nat) (log : List Event) : Prop := ∃ notice, notice.isState = true ∧ .posted k notice ∈ log

/-- A promise is set when the session has told how its attempt ended. -/
def NeedsNotice (a : Action) (_ : Nat) : Prop := ∃ promise success, a = .setPromise promise success

def BringsNotice (a : Action) (k : Nat) : Prop := ∃ notice, notice.isState = true ∧ a.announces = some (k, notice)

def Notifies : Running → Prop := fun c =>
  c.Guarded NeedsNotice BringsNotice fun q k => q = .strand k → Notified k c.shared.log

theorem needsAttempt_outer (outer : a.isInner = false) (promise : Nat) : ¬ NeedsAttempt a promise := by
  rintro rfl
  cases outer

theorem needsNotice_outer (outer : a.isInner = false) (k : Nat) : ¬ NeedsNotice a k := by
  rintro ⟨promise, success, rfl⟩
  cases outer

theorem ofCalls_needs (j : Nat) (calls : List SessionCall) : ∀ b ∈ calls.map (ofCall j),
    (∀ promise, ¬ NeedsAttempt b promise) ∧ ∀ k, ¬ NeedsNotice b k := by
  intro b mem
  refine ⟨fun promise is => ?_, fun k ⟨promise, success, is⟩ => ofCalls_setting (is ▸ mem)⟩
  obtain ⟨call, -, rfl⟩ := List.mem_map.1 mem
  cases call <;> cases is

theorem Vows.installed {exec : Running → Nat → Action → Option (Client × List Action)} {o : Owner} {rest : List Action}
    (vows : Vows c.shared a s' outs) (ran : Tasks.Ran exec c i c' o a rest outs) (installed : Installed attempts c) :
    Installed (attempts ++ a.installs.toList) c' := by
  have old : ∀ (q : Owner) promise, some promise ∈ attempts → some promise ∈ attempts ++ a.installs.toList :=
    fun _ _ => List.mem_append_left _
  have idle (unneeded : ∀ b ∈ outs, ∀ promise, ¬ NeedsAttempt b promise) (brings : a.brings = none) :
      Installed (attempts ++ a.installs.toList) c' := by
    refine ran.guarded installed old (Tasks.guarded_of_none unneeded) fun promise given => ?_
    rw [BringsAttempt, brings] at given
    cases given
  cases vows with
  | asks host port resource =>
    refine ran.guarded installed old ⟨fun _ need => ?_, fun promise need => ?_, trivial⟩ fun promise given => ?_
    · cases need
    · cases need
      exact .inr rfl
    · cases given
  | asksAsync host port resource => exact idle (by simp [NeedsAttempt]) rfl
  | copies host port resource promise headers =>
    refine ran.guarded installed old (Tasks.guarded_of_none (by simp [NeedsAttempt])) fun p given => ?_
    exact .inr ⟨_, List.mem_singleton_self _, given⟩
  | installs args =>
    refine ran.guarded installed old (Tasks.guarded_of_none (by simp [NeedsAttempt])) fun p given => .inl ?_
    have mine : args.promise = some p := given
    rw [show Action.installs (.installSession args) = some args.promise from rfl, mine]
    exact List.mem_append_right _ (List.mem_singleton_self _)
  | calls k args => exact idle (List.forall_mem_nil _) rfl
  | returns set => exact idle (List.forall_mem_nil _) rfl
  | expires unset => exact idle (List.forall_mem_nil _) rfl
  | completes k handler success =>
    refine idle (fun b mem promise is => ?_) rfl
    subst is
    rcases List.mem_append.1 mem with mem | mem
    · cases success with
      | true => cases List.mem_singleton.1 mem
      | false => simp at mem
    · obtain ⟨promise, -, is⟩ := List.mem_map.1 mem
      cases is
  | sets promise success => exact idle (List.forall_mem_nil _) rfl
  | plain outer promises sessions outers log =>
    exact idle (fun b mem => needsAttempt_outer (outers b mem)) (brings_outer outer)

theorem step_installed (step : step c l = some c') (installed : Installed attempts c) :
    Installed (attempts ++ (attempt c l).toList) c' := by
  have same : attempts ++ (none : Option (Option Nat)).toList = attempts := List.append_nil _
  cases step_steps step with
  | api call asides =>
    rw [show attempt c (.api call) = none from rfl, same]
    exact installed.spawn (Tasks.guarded_of_none fun b mem => needsAttempt_outer (actions_outer call b mem))
  | run ran does =>
    rw [attempt_run ran.task]
    exact (exec_vows ran.action).installed ran installed
  | @complete k i ec frame t ch found done =>
    rw [show attempt c (.complete k i ec frame) = none from rfl, same]
    exact installed
  | @strand k sni t t' calls h rest idle found front ran =>
    rw [show attempt c (.strand k sni) = none from rfl, same]
    exact Tasks.Guarded.spawn (c := ⟨_, c.tasks⟩) installed
      (Tasks.guarded_of_none fun b mem => (ofCalls_needs k calls b mem).1)
  | work idle running queue =>
    rw [show attempt c .work = none from rfl, same]
    exact Tasks.Guarded.spawn (c := ⟨_, c.tasks⟩) installed
      (Tasks.guarded_of_none fun b mem => needsAttempt_outer (outers_one rfl b mem))

theorem Notified.mono (grows : ∀ e ∈ log, e ∈ new) (notified : Notified k log) : Notified k new := by
  obtain ⟨notice, state, mem⟩ := notified
  exact ⟨notice, state, grows _ mem⟩

/-- Before the promise is set, the callback for the end of the attempt is posted. -/
theorem onConnectComplete_notifies (handler : OnComplete) (success : Bool) {holds : Nat → Prop}
    (other : ∀ j, j ≠ k → holds j) :
    Tasks.guarded NeedsNotice BringsNotice holds (onConnectComplete k handler success) := by
  have told : ∀ todo : List Action, (∃ b ∈ todo, BringsNotice b k) → (∀ b ∈ todo, ∀ j, ¬ NeedsNotice b j) →
      Tasks.guarded NeedsNotice BringsNotice holds (todo ++ handler.promise.toList.map (.setPromise · success)) := by
    rintro todo ⟨b, mem, brings⟩ none
    have all : ∀ j, holds j ∨ ∃ b ∈ todo, BringsNotice b j := by
      intro j
      by_cases eq : j = k
      · exact .inr ⟨b, mem, eq ▸ brings⟩
      · exact .inl (other j eq)
    refine Tasks.guarded_append (Tasks.guarded_of_none none) ?_
    cases handler.promise with
    | none => trivial
    | some promise => exact ⟨fun j _ => all j, trivial⟩
  cases success with
  | true => exact told [.notifyConnected k] ⟨_, List.mem_singleton_self _, .connect, rfl, rfl⟩ (by simp [NeedsNotice])
  | false =>
    exact told [.resetSession k, .onSessionDisconnect k] ⟨.onSessionDisconnect k, by simp, .disconnect, rfl, rfl⟩
      (by simp [NeedsNotice])

theorem step_notifies (step : step c l = some c') (grows : ∀ e ∈ c.shared.log, e ∈ c'.shared.log) (answers : Answers c)
    (set : ∀ j q b k notice, c.At j q b → b.announces = some (k, notice) → notice.isState = true →
      (c.shared.callbackFor notice).isSome = true) (notifies : Notifies c) : Notifies c' := by
  have more : ∀ (q : Owner) k, (q = .strand k → Notified k c.shared.log) → q = .strand k → Notified k c'.shared.log :=
    fun _ _ before owner => (before owner).mono grows
  have spawned {q : Owner} {todo : List Action} (tasks : c'.tasks = (c.spawn q todo).tasks)
      (none : ∀ b ∈ todo, ∀ k, ¬ NeedsNotice b k) : Notifies c' := by
    intro t mem
    rw [tasks] at mem
    rcases Tasks.mem_spawn.1 mem with old | rfl
    · exact Tasks.guarded_mono (more t.owner) (notifies t old)
    · exact Tasks.guarded_of_none none
  cases step_steps step with
  | api call asides => exact spawned rfl fun b mem => needsNotice_outer (actions_outer call b mem)
  | @run i flag c' o a rest outs ran does =>
    have vows := exec_vows ran.action
    refine ran.guarded notifies more ?_ ?_
    · generalize c'.shared = s' at vows
      cases vows with
      | completes k handler success =>
        obtain ⟨rfl, -⟩ := answers.completing _ _ _ _ _ ran.at_head
        exact onConnectComplete_notifies handler success fun j other owner => absurd (Owner.strand.inj owner).symm other
      | plain outer promises sessions outers log =>
        exact Tasks.guarded_of_none fun b mem => needsNotice_outer (outers b mem)
      | _ => exact Tasks.guarded_of_none (by simp [NeedsNotice])
    · rintro k ⟨notice, state, announces⟩
      rcases exec_relays ran.action with ⟨j, cb, notice', rfl, after, rfl⟩ | ⟨-, -, -, whole⟩
      · cases announces
        refine .inl fun _ => ⟨notice, state, ?_⟩
        rw [after]
        exact List.mem_append_right _ (List.mem_singleton_self _)
      · have isSet := set _ _ _ k notice ran.at_head announces state
        have all := whole (k, notice) announces isSet
        obtain ⟨b, mem, here⟩ := List.mem_filterMap.1 (all ▸ List.mem_singleton_self _)
        exact .inr ⟨b, mem, notice, state, here⟩
  | complete found done => exact notifies
  | @strand k sni t t' calls h rest idle found front ran => exact spawned rfl fun b mem => (ofCalls_needs k calls b mem).2
  | work idle running queue => exact spawned rfl fun b mem => needsNotice_outer (outers_one rfl b mem)

/-- A promise that is set says how its attempt has ended, and the callback for that has been posted. -/
def Kept (c : Running) : Prop :=
  ∀ (promise : Nat) (success : Bool), c.shared.promises[promise]? = some (some success) →
    ∃ k, .called k (.onConnectComplete ⟨some promise⟩ success) ∈ c.shared.log ∧ Notified k c.shared.log

theorem Kept.of_promises (kept : Kept c) (grows : ∀ e ∈ c.shared.log, e ∈ c'.shared.log)
    (promises : ∀ (promise : Nat) (success : Bool), c'.shared.promises[promise]? = some (some success) →
      c.shared.promises[promise]? = some (some success)) : Kept c' := by
  intro promise success isSet
  obtain ⟨k, called, notified⟩ := kept promise success (promises promise success isSet)
  exact ⟨k, grows _ called, notified.mono grows⟩

theorem step_kept (step : step c l = some c') (grows : ∀ e ∈ c.shared.log, e ∈ c'.shared.log) (answers : Answers c)
    (notifies : Notifies c) (kept : Kept c) : Kept c' := by
  cases step_steps step with
  | @run i flag c' o a rest outs ran does =>
    have vows := exec_vows ran.action
    have same (promises : c'.shared.promises = c.shared.promises) : Kept c' :=
      kept.of_promises grows fun promise success isSet => promises ▸ isSet
    generalize after : c'.shared = s' at vows
    cases vows with
    | asks host port resource =>
      refine kept.of_promises grows fun promise success isSet => ?_
      rw [after, List.getElem?_append] at isSet
      split at isSet
      · exact isSet
      · cases List.mem_singleton.1 (List.mem_of_getElem? isSet)
    | installs args =>
      refine same ?_
      rw [after]
      simp only [installSession]
      split <;> rfl
    | sets promise success =>
      intro p b isSet
      rw [after, setPromise, List.getElem?_set] at isSet
      split at isSet
      · next eq =>
        obtain ⟨k, owner, called⟩ := answers.setting _ _ promise success ran.at_head
        have notified := ran.has notifies (x := k) ⟨promise, success, rfl⟩ owner
        split at isSet
        · cases isSet
          exact ⟨k, eq ▸ grows _ called, notified.mono grows⟩
        · cases isSet
      · obtain ⟨k, called, notified⟩ := kept p b isSet
        exact ⟨k, grows _ called, notified.mono grows⟩
    | plain outer promises sessions outers log => exact same (after ▸ promises)
    | _ => exact same ((congrArg Client.promises after).trans rfl)
  | _ => exact kept.of_promises grows fun promise success isSet => isSet

end Client

end Websockets
