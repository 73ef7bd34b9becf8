import Websockets.Client.Attempts

/-!
# The current session

`mSession` is the session of the latest `DoConnect`, or null once that attempt has failed: `DoConnect` closes
the session it replaces, and the completion handler of an attempt only clears its own session. `Swaps` says
what each piece of an operation does to `mSession` and `mShutdown`.
-/

namespace Websockets

open Lib

namespace CSession

/-- The handler is that of `Close`. -/
def isClosing : Handler Stage SOutgoingMessage SessionTask → Bool
  | .posted .close => true
  | _ => false

/-- `Close` has been called on the session: its handler has run or is queued. -/
def closePosted (t : CSession) : Bool := t.mCloseRequested || t.strand.any isClosing

variable {t t' : CSession} {sni : Option ErrorCode}

/-- Only the handler of `Close` changes `mCloseRequested`. -/
theorem handle_requested (alive : Bool) (sni : Option ErrorCode) (h : Handler Stage SOutgoingMessage SessionTask) :
    (handle alive sni t h).1.mCloseRequested = (t.mCloseRequested || isClosing h) := by
  have keep : ∀ r : CSession, r.mCloseRequested = t.mCloseRequested →
      r.mCloseRequested = (t.mCloseRequested || false) := fun r same => same.trans (Bool.or_false _).symm
  have completes : ∀ name e, (t.completeConnect alive false name (some e)).1.mCloseRequested = t.mCloseRequested :=
    fun name e => congrArg Channel.mCloseRequested (completeConnect_channel alive false name (some e))
  match h with
  | .posted (.asyncConnect args) => exact keep _ rfl
  | .posted (.send message) =>
    refine keep _ ?_
    simp only [handle, send]
    split
    · rfl
    · exact congrArg Prod.snd (Channel.flags_enqueue message)
  | .posted .close =>
    rw [isClosing, Bool.or_true]
    exact congrArg Prod.snd Channel.flags_closeTask
  | .completed (.opening (.resolve host port)) (some e) frame => exact keep _ (completes _ e)
  | .completed (.opening (.resolve host port)) none frame => exact keep _ rfl
  | .completed (.opening .tcpConnect) ec frame =>
    refine keep _ ?_
    rcases onTcpConnect_channel (s := t) alive sni ec with same | ⟨next, same⟩
    · exact congrArg Channel.mCloseRequested same
    · exact (congrArg Channel.mCloseRequested same).trans rfl
  | .completed (.opening .sslHandshake) (some e) frame => exact keep _ (completes _ e)
  | .completed (.opening .sslHandshake) none frame => exact keep _ rfl
  | .completed (.opening (.websocketHandshake host resource headers)) (some e) frame => exact keep _ (completes _ e)
  | .completed (.opening (.websocketHandshake host resource headers)) none frame =>
    refine keep _ ?_
    have channel := onWebsocketHandshake_channel (s := t) alive
    exact (congrArg Channel.mCloseRequested channel).trans (congrArg Prod.snd Channel.flags_beginReading)
  | .completed .read (some e) frame => exact keep _ rfl
  | .completed .read none frame => exact keep _ rfl
  | .completed (.write isText node) (some e) frame => exact keep _ rfl
  | .completed (.write isText node) none frame => exact keep _ (congrArg Prod.snd Channel.flags_onWrite)
  | .completed .close ec frame => exact keep _ rfl

theorem closePosted_post (task : SessionTask) (posted : t.closePosted = true) :
    closePosted { t with toChannel := t.toChannel.post task } = true := by
  unfold closePosted at posted ⊢
  simp only [Channel.post, List.any_append]
  rw [← Bool.or_assoc, posted, Bool.true_or]

theorem closePosted_complete {i : Nat} {ec : Option ErrorCode} {frame : Frame}
    {ch : Channel Stage SOutgoingMessage SessionTask} (done : t.toChannel.complete i ec frame = some ch)
    (posted : t.closePosted = true) : closePosted { t with toChannel := ch } = true := by
  obtain ⟨p, -, rfl⟩ := Channel.complete_fields done
  unfold closePosted at posted ⊢
  simp only [List.any_append]
  rw [← Bool.or_assoc, posted, Bool.true_or]

/-- A handler that runs leaves a posted close behind it or is its handler. -/
theorem closePosted_run {h rest} {calls : List SessionCall} (front : t.strand = h :: rest)
    (ran : t.runNext true sni = some (t', calls)) (posted : t.closePosted = true) : t'.closePosted = true := by
  obtain ⟨strand, -⟩ := runNext_strand front ran
  obtain ⟨h', rest', front', result⟩ := runNext_inv ran
  cases front.symm.trans front'
  have same : t' = (handle true sni t.popped h).1 := congrArg Prod.fst result
  have requested : t'.mCloseRequested = (t.mCloseRequested || isClosing h) := by
    rw [same]
    exact handle_requested true sni h
  unfold closePosted at posted ⊢
  rw [front, List.any_cons] at posted
  rw [requested, strand, Bool.or_assoc]
  exact posted

end CSession

namespace Client

/-- The completion handler of session `k` was called with `success = false`. -/
def Failed (k : Nat) (log : List Event) : Prop := ∃ handler, .called k (.onConnectComplete handler false) ∈ log

/-- `Close` has been posted to session `k`. -/
def closePosted (s : Client) (k : Nat) : Bool := s.sessions[k]?.any (·.closePosted)

/-- A `DoConnect` that has not put its session in place. -/
def Action.isConnecting : Action → Bool
  | doConnect _ _ _ _ | installSession _ => true
  | _ => false

/-- The piece is going to clear `mSession` if it still is session `k`. -/
def Action.fails : Action → Option Nat
  | onConnectComplete k _ false | resetSession k => some k
  | _ => none

def Action.isShutdown : Action → Bool
  | shutdown _ => true
  | _ => false

/-- `Shutdown` takes effect while no `DoConnect` is under way. -/
def ShutdownOk (c : Running) : Label → Prop
  | .run i _ => (c.tasks[i]?.bind (·.todo.head?)).any Action.isShutdown = true → c.count Action.isConnecting = 0
  | _ => True

instance (c : Running) (l : Label) : Decidable (ShutdownOk c l) :=
  match l with
  | .run i _ => inferInstanceAs (Decidable
      ((c.tasks[i]?.bind (·.todo.head?)).any Action.isShutdown = true → c.count Action.isConnecting = 0))
  | .api _ | .complete _ _ _ _ | .strand _ _ | .work => .isTrue trivial

/-- What a piece does to `mSession` and `mShutdown`, and what it leaves to do about them. -/
inductive Swaps (s : Client) : Action → Client → List Action → Prop
  | keeps {a s' outs} (session : s'.mSession = s.mSession) (shutdown : s'.mShutdown = s.mShutdown)
      (len : s'.sessions.length = s.sessions.length)
      (connecting : ∀ o ∈ outs, Action.isConnecting o = true → s.mShutdown = false ∨ a.isConnecting = true)
      (fails : ∀ o ∈ outs, ∀ k, Action.fails o = some k → a.fails = some k)
      (takes : Action.takeSession ∉ outs) (other : a.isShutdown = false) : Swaps s a s' outs
  | installs (args) : Swaps s (.installSession args) (s.installSession args).1 (s.installSession args).2
  | resets (k) : Swaps s (.resetSession k) (s.resetSession k) []
  | takes : Swaps s .takeSession s.takeSession.1 s.takeSession.2
  | shuts (onWorker) : Swaps s (.shutdown onWorker) (s.shutdown onWorker).1 (s.shutdown onWorker).2

variable {c c' : Running} {s s' : Client} {a : Action} {outs : List Action} {k : Nat} {l : Label} {flag : Bool}

/-! ## Pieces -/

theorem swaps_same {a : Action} (session : s'.mSession = s.mSession) (shutdown : s'.mShutdown = s.mShutdown)
    (len : s'.sessions.length = s.sessions.length) (other : a.isShutdown = false) : Swaps s a s' [] :=
  .keeps session shutdown len (List.forall_mem_nil _) (List.forall_mem_nil _) List.not_mem_nil other

/-- A piece that leaves only harmless ones. -/
theorem swaps_calm {a : Action} (session : s'.mSession = s.mSession) (shutdown : s'.mShutdown = s.mShutdown)
    (len : s'.sessions.length = s.sessions.length) (other : a.isShutdown = false)
    (calm : ∀ o ∈ outs, Action.isConnecting o = false ∧ Action.fails o = none ∧ o ≠ .takeSession) :
    Swaps s a s' outs := by
  refine .keeps session shutdown len (fun o mem is => ?_) (fun o mem k is => ?_) (fun mem => (calm _ mem).2.2 rfl) other
  · rw [(calm o mem).1] at is
    cases is
  · rw [(calm o mem).2.1] at is
    cases is

theorem calm_one {o : Action} (calm : Action.isConnecting o = false ∧ Action.fails o = none ∧ o ≠ .takeSession) :
    ∀ b ∈ [o], Action.isConnecting b = false ∧ Action.fails b = none ∧ b ≠ .takeSession := by
  intro b mem
  rw [List.mem_singleton.1 mem]
  exact calm

theorem calm_closes (sessions : List Nat) : ∀ b ∈ sessions.map Action.sessionClose,
    Action.isConnecting b = false ∧ Action.fails b = none ∧ b ≠ .takeSession := by
  intro b mem
  obtain ⟨k, -, rfl⟩ := List.mem_map.1 mem
  exact ⟨rfl, rfl, Action.noConfusion⟩

theorem relay_swaps (other : a.isShutdown = false) (cb : Option Fn) (k : Nat) (notice : Notice) :
    Swaps s a s (relay cb k notice) := by
  refine swaps_calm rfl rfl rfl other fun b mem => ?_
  obtain ⟨fn, -, rfl⟩ := List.mem_map.1 mem
  exact ⟨rfl, rfl, Action.noConfusion⟩

theorem connect_swaps (host : Bytes) (port : Nat) (resource : Bytes) :
    Swaps s (.connect host port resource) (s.connect host port resource).1 (s.connect host port resource).2 := by
  unfold connect
  split
  · exact swaps_same rfl rfl rfl rfl
  · next up =>
    refine .keeps rfl rfl rfl (fun _ _ _ => .inl (by simpa using up)) (fun o mem k is => ?_) (fun mem => ?_) rfl
    · rcases List.mem_cons.1 mem with rfl | mem
      · cases is
      · rw [List.mem_singleton.1 mem] at is
        cases is
    · rcases List.mem_cons.1 mem with eq | mem
      · cases eq
      · cases List.mem_singleton.1 mem

theorem asyncConnect_swaps (host : Bytes) (port : Nat) (resource : Bytes) :
    Swaps s (.asyncConnect host port resource) s (s.asyncConnect host port resource) := by
  unfold asyncConnect
  split
  · exact swaps_same rfl rfl rfl rfl
  · next up =>
    refine .keeps rfl rfl rfl (fun _ _ _ => .inl (by simpa using up)) (fun o mem k is => ?_) (fun mem => ?_) rfl
    · rw [List.mem_singleton.1 mem] at is
      cases is
    · cases List.mem_singleton.1 mem

theorem doConnect_swaps (host : Bytes) (port : Nat) (resource : Bytes) (promise : Option Nat) :
    Swaps s (.doConnect host port resource promise) s (s.doConnect host port resource promise) := by
  refine .keeps rfl rfl rfl (fun _ _ _ => .inr rfl) (fun o mem k is => ?_) (fun mem => ?_) rfl
  · rw [List.mem_singleton.1 mem] at is
    cases is
  · cases List.mem_singleton.1 mem

theorem awaitConnect_swaps {promise : Nat} (done : s.awaitConnect flag promise = some s') :
    Swaps s (.awaitConnect promise) s' [] := by
  unfold awaitConnect at done
  split at done
  · cases done
    exact swaps_same rfl rfl rfl rfl
  · split at done
    · cases done
      exact swaps_same rfl rfl rfl rfl
    · cases done

theorem onConnectComplete_swaps (j : Nat) (handler : OnComplete) (success : Bool) :
    Swaps s (.onConnectComplete j handler success) s (onConnectComplete j handler success) := by
  have promises : ∀ o ∈ handler.promise.toList.map (Action.setPromise · success),
      Action.isConnecting o = false ∧ Action.fails o = none ∧ o ≠ .takeSession := by
    intro o mem
    obtain ⟨promise, -, rfl⟩ := List.mem_map.1 mem
    exact ⟨rfl, rfl, Action.noConfusion⟩
  cases success with
  | true =>
    refine swaps_calm rfl rfl rfl rfl fun o mem => ?_
    rcases List.mem_cons.1 mem with rfl | mem
    · exact ⟨rfl, rfl, Action.noConfusion⟩
    · exact promises o mem
  | false =>
    refine .keeps rfl rfl rfl (fun o mem is => ?_) (fun o mem k is => ?_) (fun mem => ?_) rfl
    · rcases List.mem_cons.1 mem with rfl | mem
      · cases is
      · rcases List.mem_cons.1 mem with rfl | mem
        · cases is
        · rw [(promises o mem).1] at is
          cases is
    · rcases List.mem_cons.1 mem with rfl | mem
      · exact is
      · rcases List.mem_cons.1 mem with rfl | mem
        · cases is
        · rw [(promises o mem).2.1] at is
          cases is
    · rcases List.mem_cons.1 mem with eq | mem
      · cases eq
      · rcases List.mem_cons.1 mem with eq | mem
        · cases eq
        · exact (promises _ mem).2.2 rfl

/-- **`exec` does to `mSession` what `Swaps` says.** -/
theorem exec_swaps {i : Nat} (done : exec flag c i a = some (s', outs)) : Swaps c.shared a s' outs := by
  cases a with
  | connect host port resource => exact Tasks.of_result done (connect_swaps host port resource)
  | asyncConnect host port resource => exact Tasks.of_result done (asyncConnect_swaps host port resource)
  | doConnect host port resource promise => exact Tasks.of_result done (doConnect_swaps host port resource promise)
  | installSession args => exact Tasks.of_result done (.installs args)
  | sessionAsyncConnect j args => exact Tasks.of_result done (swaps_same rfl rfl (mapSession_length _ _ _) rfl)
  | awaitConnect promise =>
    obtain ⟨r, waited, same⟩ := Option.map_eq_some_iff.1 done
    cases same
    exact awaitConnect_swaps waited
  | close => exact Tasks.of_result done (swaps_calm rfl rfl rfl rfl (calm_closes _))
  | sessionClose j => exact Tasks.of_result done (swaps_same rfl rfl (mapSession_length _ _ _) rfl)
  | send message =>
    refine Tasks.of_result done (swaps_calm rfl rfl rfl rfl ?_)
    simp only [send]
    split <;> exact calm_one ⟨rfl, rfl, Action.noConfusion⟩
  | sendIfOpen j message =>
    refine Tasks.of_result done ?_
    simp only [sendIfOpen]
    split
    · exact swaps_same rfl rfl (mapSession_length _ _ _) rfl
    · exact swaps_calm rfl rfl rfl rfl (calm_one ⟨rfl, rfl, Action.noConfusion⟩)
  | setHandshakeHeader name value => exact Tasks.of_result done (swaps_same rfl rfl rfl rfl)
  | clearHandshakeHeaders => exact Tasks.of_result done (swaps_same rfl rfl rfl rfl)
  | registerConnectCallback cb => exact Tasks.of_result done (swaps_same rfl rfl rfl rfl)
  | registerDisconnectCallback cb => exact Tasks.of_result done (swaps_same rfl rfl rfl rfl)
  | registerMessageCallback cb => exact Tasks.of_result done (swaps_same rfl rfl rfl rfl)
  | registerContentCallback cb => exact Tasks.of_result done (swaps_same rfl rfl rfl rfl)
  | onConnectComplete j handler success => exact Tasks.of_result done (onConnectComplete_swaps j handler success)
  | resetSession j => exact Tasks.of_result done (.resets j)
  | setPromise promise success => exact Tasks.of_result done (swaps_same rfl rfl rfl rfl)
  | notifyConnected j => exact Tasks.of_result done (relay_swaps rfl _ _ _)
  | onSessionMessage j message => exact Tasks.of_result done (relay_swaps rfl _ _ _)
  | onSessionContent j content => exact Tasks.of_result done (relay_swaps rfl _ _ _)
  | onSessionDisconnect j => exact Tasks.of_result done (relay_swaps rfl _ _ _)
  | post j cb notice => exact Tasks.of_result done (swaps_same rfl rfl rfl rfl)
  | invokeCallback j cb notice =>
    refine Tasks.of_result done (swaps_calm rfl rfl rfl rfl ?_)
    simp only [invokeCallback]
    split
    · exact calm_one ⟨rfl, rfl, Action.noConfusion⟩
    · exact List.forall_mem_nil _
  | shutdown onWorker => exact Tasks.of_result done (.shuts onWorker)
  | takeSession => exact Tasks.of_result done .takes
  | stopQueue onWorker =>
    refine Tasks.of_result done ?_
    simp only [stopQueue]
    split
    · exact swaps_same rfl rfl rfl rfl
    · refine swaps_calm rfl rfl rfl rfl ?_
      split
      · exact List.forall_mem_nil _
      · exact calm_one ⟨rfl, rfl, Action.noConfusion⟩
  | joinWorker =>
    simp only [exec] at done
    split at done
    · exact Tasks.of_result done (swaps_same rfl rfl rfl rfl)
    · cases done
  | logError line => exact Tasks.of_result done (swaps_same rfl rfl rfl rfl)

/-! ## What a step keeps -/

theorem Failed.append {log : List Event} (failed : Failed k log) (new : List Event) : Failed k (log ++ new) := by
  obtain ⟨handler, mem⟩ := failed
  exact ⟨handler, List.mem_append_left _ mem⟩

theorem Touches.closePosted {before after : Option CSession} (touches : Touches before after)
    (posted : before.any (·.closePosted) = true) : after.any (·.closePosted) = true := by
  cases touches with
  | stays => exact posted
  | creates isSsl => cases posted
  | posts t task other => exact CSession.closePosted_post task posted
  | connects t args uncalled complete => exact CSession.closePosted_post _ posted

/-- A posted close stays posted. -/
theorem step_closePosted (step : step c l = some c') (once : Once c) (posted : c.shared.closePosted k = true) :
    c'.shared.closePosted k = true := by
  unfold Client.closePosted at posted ⊢
  obtain ⟨new, -, session⟩ := step_session step once k
  cases session with
  | touches touches quiet => exact touches.closePosted posted
  | completes before done after =>
    rw [before] at posted
    rw [after]
    exact CSession.closePosted_complete done posted
  | runs before front ran after =>
    rw [before] at posted
    rw [after]
    exact CSession.closePosted_run front ran posted

/-- `DoConnect` closes the session it replaces. -/
theorem installSession_closes (args : ConnectArgs) (old : s.mSession = some k) (bound : k < s.sessions.length) :
    (s.installSession args).1.closePosted k = true := by
  have closed : s.closeOld = s.sessionPost k .close := by
    unfold closeOld
    rw [old]
  unfold Client.closePosted
  rw [installSession_sessions, List.getElem?_append_left (by rw [closeOld_length]; exact bound), closed,
    sessionPost, mapSession_get, List.getElem?_eq_getElem bound]
  simp only [if_true, Option.map_some, Option.any_some, CSession.closePosted, Channel.post, List.any_append]
  simp [CSession.isClosing]

/-! ## The invariant -/

/-- `mSession` is the latest session or null, and what is behind that. -/
structure Current (c : Running) : Prop where
  latest : ∀ k, c.shared.mSession = some k → k + 1 = c.shared.sessions.length
  gone : c.shared.mSession = none → c.shared.mShutdown = false →
    ∀ k, k + 1 = c.shared.sessions.length → Failed k c.shared.log
  others : ∀ k, k + 1 < c.shared.sessions.length → Failed k c.shared.log ∨ c.shared.closePosted k = true
  resets : ∀ j q b k, c.At j q b → b.fails = some k → Failed k c.shared.log
  calm : c.shared.mShutdown = true → ∀ j q b, c.At j q b → b.isConnecting = false
  taken : ∀ j q, c.At j q .takeSession → c.shared.mShutdown = true

/-- What a new piece may be while `mSession` stays. -/
structure Allowed (c : Running) (b : Action) : Prop where
  calm : c.shared.mShutdown = true → b.isConnecting = false
  fails : ∀ k, b.fails = some k → Failed k c.shared.log
  takes : b ≠ .takeSession

/-- A step that leaves `mSession` alone. -/
theorem Current.moved (cur : Current c) (session : c'.shared.mSession = c.shared.mSession)
    (shutdown : c'.shared.mShutdown = c.shared.mShutdown) (len : c'.shared.sessions.length = c.shared.sessions.length)
    (log : ∃ new, c'.shared.log = c.shared.log ++ new)
    (posted : ∀ k, c.shared.closePosted k = true → c'.shared.closePosted k = true)
    (pending : ∀ j q b, c'.At j q b → c.At j q b ∨ Allowed c' b) : Current c' := by
  obtain ⟨new, log⟩ := log
  have later : ∀ k, Failed k c.shared.log → Failed k c'.shared.log := fun k failed => log ▸ failed.append new
  refine ⟨?_, ?_, fun k => ?_, fun j q b k here fails => ?_, fun down j q b here => ?_, fun j q here => ?_⟩
  · rw [session, len]
    exact cur.latest
  · rw [session, len, shutdown]
    exact fun none up k last => later k (cur.gone none up k last)
  · rw [len]
    exact fun old => (cur.others k old).imp (later k) (posted k)
  · rcases pending j q b here with before | new
    · exact later k (cur.resets j q b k before fails)
    · exact new.fails k fails
  · rcases pending j q b here with before | new
    · exact cur.calm (shutdown ▸ down) j q b before
    · exact new.calm down
  · rcases pending j q _ here with before | new
    · exact shutdown ▸ cur.taken j q before
    · exact absurd rfl new.takes

theorem actions_calm (call : Api) :
    ∀ o ∈ call.actions, Action.isConnecting o = false ∧ Action.fails o = none ∧ o ≠ .takeSession := by
  cases call with
  | sendContent content =>
    cases content with
    | none => exact List.forall_mem_nil _
    | some content => exact calm_one ⟨rfl, rfl, Action.noConfusion⟩
  | _ => exact calm_one ⟨rfl, rfl, Action.noConfusion⟩

theorem allowed_of_calm {b : Action}
    (calm : Action.isConnecting b = false ∧ Action.fails b = none ∧ b ≠ .takeSession) : Allowed c b := by
  refine ⟨fun _ => calm.1, fun k fails => ?_, calm.2.2⟩
  rw [calm.2.1] at fails
  cases fails

theorem ofCall_allowed {j : Nat} {call : SessionCall} (called : .called j call ∈ c.shared.log) :
    Allowed c (ofCall j call) := by
  cases call with
  | onConnectComplete handler success =>
    refine ⟨fun _ => rfl, fun k fails => ?_, Action.noConfusion⟩
    cases success with
    | true => cases fails
    | false => cases fails; exact ⟨handler, called⟩
  | _ => exact allowed_of_calm ⟨rfl, rfl, Action.noConfusion⟩

theorem installSession_fields (args : ConnectArgs) :
    (s.installSession args).1.mSession = some s.sessions.length ∧ (s.installSession args).1.mShutdown = s.mShutdown ∧
      (s.installSession args).1.sessions.length = s.sessions.length + 1 := by
  refine ⟨rfl, ?_, ?_⟩
  · simp only [installSession]
    split <;> rfl
  · rw [installSession_sessions, List.length_append, closeOld_length]
    rfl

section Run

variable {i : Nat} {o : Owner} {rest : List Action}

/-- A new session takes the place of the old one. -/
theorem Current.installs {args : ConnectArgs} (cur : Current c)
    (ran : Tasks.Ran (exec flag) c i c' o (.installSession args) rest outs)
    (after : c'.shared = (c.shared.installSession args).1) (left : outs = (c.shared.installSession args).2)
    (posted : ∀ k, c.shared.closePosted k = true → c'.shared.closePosted k = true) : Current c' := by
  obtain ⟨session, shutdown, len⟩ := installSession_fields (s := c.shared) args
  rw [← after] at session shutdown len
  have log : c'.shared.log = c.shared.log := by
    rw [after]
    exact installSession_log args
  have up : c.shared.mShutdown = false := by
    cases down : c.shared.mShutdown with
    | false => rfl
    | true => cases cur.calm down _ _ _ ran.at_head
  have light : ∀ b ∈ outs, b.fails = none ∧ b ≠ .takeSession := by
    intro b mem
    rw [left] at mem
    rw [List.mem_singleton.1 mem]
    exact ⟨rfl, Action.noConfusion⟩
  refine ⟨fun k eq => ?_, fun none => ?_, fun k old => ?_, fun j q b k here fails => ?_, fun down => ?_,
    fun j q here => ?_⟩
  · cases session.symm.trans eq
    exact len.symm
  · cases session.symm.trans none
  · rw [log]
    rw [len] at old
    rcases Nat.lt_or_ge (k + 1) c.shared.sessions.length with older | last
    · exact (cur.others k older).imp id (posted k)
    · -- the session that is replaced
      have replaced : k + 1 = c.shared.sessions.length := by omega
      cases was : c.shared.mSession with
      | none => exact .inl (cur.gone was up k replaced)
      | some old =>
        have same : old = k := by
          have := cur.latest old was
          omega
        subst same
        refine .inr ?_
        rw [after]
        exact installSession_closes args was (by omega)
  · rw [log]
    rcases ran.at_inv here with before | ⟨-, -, mem⟩
    · exact cur.resets j q b k before fails
    · rw [(light b mem).1] at fails
      cases fails
  · exact absurd (down.symm.trans (shutdown.trans up)) (by decide)
  · rw [shutdown]
    rcases ran.at_inv here with before | ⟨-, -, mem⟩
    · exact cur.taken j q before
    · exact absurd rfl (light _ mem).2

/-- The completion handler of a failed attempt clears its own session only. -/
theorem Current.resetSession (cur : Current c)
    (ran : Tasks.Ran (exec flag) c i c' o (.resetSession k) rest []) (after : c'.shared = c.shared.resetSession k) :
    Current c' := by
  have old : ∀ {j q b}, c'.At j q b → c.At j q b := fun here =>
    (ran.at_inv here).resolve_right fun h => List.not_mem_nil h.2.2
  unfold Client.resetSession at after
  split at after
  · next own =>
    refine ⟨fun k' eq => ?_, fun _ _ k' last => ?_, ?_, fun j q b k' here => ?_, fun down j q b here => ?_,
      fun j q here => ?_⟩
    · rw [after] at eq
      cases eq
    · rw [after] at last ⊢
      have mine := cur.latest k own
      obtain rfl : k' = k := by
        have : k' + 1 = c.shared.sessions.length := last
        omega
      exact cur.resets _ _ _ k' ran.at_head rfl
    · rw [after]
      exact cur.others
    · rw [after]
      exact cur.resets j q b k' (old here)
    · rw [after] at down
      exact cur.calm down j q b (old here)
    · rw [after]
      exact cur.taken j q (old here)
  · exact cur.moved (congrArg _ after) (congrArg _ after) (by rw [after]) ⟨[], by rw [after, List.append_nil]⟩
      (fun k' posted => after ▸ posted) fun j q b here => .inl (old here)

theorem Current.takeSession (cur : Current c)
    (ran : Tasks.Ran (exec flag) c i c' o .takeSession rest outs) (after : c'.shared = c.shared.takeSession.1)
    (left : outs = c.shared.takeSession.2) : Current c' := by
  have down : c.shared.mShutdown = true := cur.taken _ _ ran.at_head
  have light : ∀ b ∈ outs, b.isConnecting = false ∧ b.fails = none ∧ b ≠ .takeSession := left ▸ calm_closes _
  refine ⟨fun k eq => ?_, fun _ up => ?_, ?_, fun j q b k here fails => ?_, fun _ j q b here => ?_, fun j q here => ?_⟩
  · rw [after] at eq
    cases eq
  · rw [after] at up
    exact absurd (down.symm.trans up) (by decide)
  · rw [after]
    exact cur.others
  · rw [after]
    rcases ran.at_inv here with before | ⟨-, -, mem⟩
    · exact cur.resets j q b k before fails
    · rw [(light b mem).2.1] at fails
      cases fails
  · rcases ran.at_inv here with before | ⟨-, -, mem⟩
    · exact cur.calm down j q b before
    · exact (light b mem).1
  · rw [after]
    exact down

/-- `Shutdown` begins while no `DoConnect` is under way. -/
theorem Current.shutdown {onWorker : Bool} (cur : Current c)
    (ran : Tasks.Ran (exec flag) c i c' o (.shutdown onWorker) rest outs)
    (after : c'.shared = (c.shared.shutdown onWorker).1) (left : outs = (c.shared.shutdown onWorker).2)
    (alone : c.count Action.isConnecting = 0) : Current c' := by
  have quiet : ∀ {j q b}, c.At j q b → b.isConnecting = false := by
    intro j q b here
    cases is : b.isConnecting with
    | false => rfl
    | true =>
      have some := Tasks.count_pos here is
      omega
  unfold Client.shutdown at after left
  split at after
  · next down =>
    rw [if_pos down] at left
    subst left
    exact cur.moved (congrArg _ after) (congrArg _ after) (by rw [after]) ⟨[], by rw [after, List.append_nil]⟩
      (fun k' posted => after ▸ posted) fun j q b here => ran.at_inv here |>.imp id fun h => nomatch h.2.2
  · next up =>
    rw [if_neg up] at left
    have light : ∀ b ∈ outs, b.isConnecting = false ∧ b.fails = none := by
      intro b mem
      rw [left] at mem
      rcases List.mem_cons.1 mem with rfl | mem
      · exact ⟨rfl, rfl⟩
      · rw [List.mem_singleton.1 mem]
        exact ⟨rfl, rfl⟩
    refine ⟨?_, fun _ isUp => ?_, ?_, fun j q b k here fails => ?_, fun _ j q b here => ?_, fun j q _ => ?_⟩
    · rw [after]
      exact cur.latest
    · rw [after] at isUp
      cases isUp
    · rw [after]
      exact cur.others
    · rw [after]
      rcases ran.at_inv here with before | ⟨-, -, mem⟩
      · exact cur.resets j q b k before fails
      · rw [(light b mem).2] at fails
        cases fails
    · rcases ran.at_inv here with before | ⟨-, -, mem⟩
      · exact quiet before
      · exact (light b mem).1
    · rw [after]

/-- What a piece of an operation does to the invariant. -/
theorem Current.run (cur : Current c) (ran : Tasks.Ran (exec flag) c i c' o a rest outs)
    (after : c'.shared = s') (swaps : Swaps c.shared a s' outs) (log : ∃ new, c'.shared.log = c.shared.log ++ new)
    (posted : ∀ k, c.shared.closePosted k = true → c'.shared.closePosted k = true)
    (alone : a.isShutdown = true → c.count Action.isConnecting = 0) : Current c' := by
  have later : ∀ k, Failed k c.shared.log → Failed k c'.shared.log := by
    obtain ⟨new, log⟩ := log
    exact fun k failed => log ▸ failed.append new
  cases swaps with
  | keeps session down len connecting fails takes other =>
    subst after
    refine cur.moved session down len log posted fun j q b here => ?_
    refine (ran.at_inv here).imp id fun ⟨_, _, mem⟩ => ⟨fun isDown => ?_, fun k eq => ?_, fun eq => takes (eq ▸ mem)⟩
    · cases is : b.isConnecting with
      | false => rfl
      | true =>
        rw [down] at isDown
        rcases connecting b mem is with up | head
        · exact absurd (isDown.symm.trans up) (by decide)
        · rw [cur.calm isDown _ _ _ ran.at_head] at head
          cases head
    · exact later k (cur.resets _ _ _ k ran.at_head (fails b mem k eq))
  | installs args => exact cur.installs ran after rfl posted
  | resets k => exact cur.resetSession ran after
  | takes => exact cur.takeSession ran after rfl
  | shuts onWorker => exact cur.shutdown ran after rfl (alone rfl)

end Run

/-- **A step keeps the invariant.** -/
theorem step_current (step : step c l = some c') (ok : ShutdownOk c l) (once : Once c) (cur : Current c) :
    Current c' := by
  have posted : ∀ k, c.shared.closePosted k = true → c'.shared.closePosted k = true :=
    fun k => step_closePosted step once
  obtain ⟨new, log, -⟩ := step_session step once 0
  cases step_steps step with
  | api call asides =>
    refine cur.moved rfl rfl rfl ⟨new, log⟩ posted fun j q b here => (Tasks.at_spawn.1 here).imp id fun h => ?_
    exact allowed_of_calm (actions_calm call b h.2.2)
  | run ran does =>
    refine cur.run ran rfl (exec_swaps ran.action) ⟨new, log⟩ posted fun isShutdown => ok ?_
    rw [ran.task]
    exact isShutdown
  | complete found done =>
    exact cur.moved rfl rfl (mapSession_length _ _ _) ⟨new, log⟩ posted fun _ _ _ here => .inl here
  | @strand k sni t t' calls h rest idle found front ran =>
    refine cur.moved rfl rfl (mapSession_length _ _ _) ⟨new, log⟩ posted fun j q b here => ?_
    refine (Tasks.at_spawn.1 here).imp id fun h => ?_
    obtain ⟨call, called, rfl⟩ := List.mem_map.1 h.2.2
    exact ofCall_allowed (List.mem_append_right _ (List.mem_cons_of_mem _ (List.mem_map_of_mem called)))
  | work idle running queue =>
    refine cur.moved rfl rfl rfl ⟨new, log⟩ posted fun j q b here => (Tasks.at_spawn.1 here).imp id fun h => ?_
    rw [List.mem_singleton.1 h.2.2]
    exact allowed_of_calm ⟨rfl, rfl, Action.noConfusion⟩

theorem create_current (sslContext : Bool) (handshakeTimeoutS : Nat) : Current (create sslContext handshakeTimeoutS) := by
  have nothing : ∀ {j q b}, ¬ (create sslContext handshakeTimeoutS).At j q b := by
    rintro j q b ⟨t, found, -, -⟩
    cases found
  exact ⟨fun _ eq => (nomatch eq), fun _ _ _ last => (nomatch last), fun _ old => absurd old (Nat.not_lt_zero _),
    fun _ _ _ _ here => absurd here nothing, fun _ _ _ _ here => absurd here nothing,
    fun _ _ here => absurd here nothing⟩

/-- **The current session.** In every run in which `Shutdown` begins while no `DoConnect` is under way:
`mSession` is null or the session of the latest `DoConnect`; until `Shutdown` it is null only if there was no
`DoConnect` or the latest attempt failed; a failure of an older attempt does not change it; every older session has
failed its connect or has had `Close` posted, so at most one session has neither. -/
theorem current_session (sslContext : Bool) (handshakeTimeoutS : Nat) (ls : List Label) (c : Running)
    (run : system.exec (create sslContext handshakeTimeoutS) ls = some c)
    (shutdowns : system.Along ShutdownOk (create sslContext handshakeTimeoutS) ls) :
    (∀ k, c.shared.mSession = some k → k + 1 = c.shared.sessions.length) ∧
      (c.shared.mSession = none → c.shared.mShutdown = false →
        c.shared.sessions = [] ∨ Failed (c.shared.sessions.length - 1) c.shared.log) ∧
      (∀ k, k + 1 < c.shared.sessions.length → c.shared.resetSession k = c.shared) ∧
      (∀ k, k + 1 < c.shared.sessions.length → Failed k c.shared.log ∨ c.shared.closePosted k = true) ∧
      ∀ j k, j < c.shared.sessions.length → k < c.shared.sessions.length →
        ¬ Failed j c.shared.log → c.shared.closePosted j = false →
        ¬ Failed k c.shared.log → c.shared.closePosted k = false → j = k := by
  have inv : Once c ∧ Current c := Lib.System.invariant_along (fun c => Once c ∧ Current c)
    ⟨create_once sslContext handshakeTimeoutS, create_current sslContext handshakeTimeoutS⟩
    (fun _ _ _ inv ok step => ⟨step_once step inv.1, step_current step ok inv.1 inv.2⟩) run shutdowns
  have cur := inv.2
  have last : ∀ k, k < c.shared.sessions.length → ¬ Failed k c.shared.log → c.shared.closePosted k = false →
      k + 1 = c.shared.sessions.length := by
    intro k bound works opened
    by_contra other
    rcases cur.others k (by omega) with failed | closed
    · exact works failed
    · exact absurd (closed.symm.trans opened) (by decide)
  refine ⟨cur.latest, fun none up => ?_, fun k old => ?_, cur.others, fun j k jBound kBound jWorks jOpen kWorks kOpen => ?_⟩
  · cases sessions : c.shared.sessions with
    | nil => exact .inl rfl
    | cons t rest =>
      refine .inr ?_
      rw [← sessions]
      exact cur.gone none up _ (by rw [sessions]; exact Nat.succ_pred_eq_of_pos (Nat.succ_pos _))
  · unfold resetSession
    refine if_neg fun own => ?_
    have := cur.latest k own
    omega
  · have one := last j jBound jWorks jOpen
    have other := last k kBound kWorks kOpen
    omega

/-- A second connect replaces the first attempt, whose failure comes late. -/
def failsLate : List Label :=
  ([.api (.asyncConnect [] 80 [])] : List Label) ++ runs 0 4 ++ ([.strand 0 none, .api (.asyncConnect [] 80 [])] : List Label) ++ runs 2 4 ++
  ([.strand 0 none, .complete 0 0 (some .operationAborted) noFrame, .strand 0 none] : List Label) ++ runs 4 2

theorem failsLate_runs : (system.exec (create false 30) failsLate).isSome = true := by decide

/-- There the second session stays the current one. -/
theorem current_session_failsLate : ∃ c, system.exec (create false 30) failsLate = some c ∧
    c.shared.mSession = some 1 ∧ .called 0 (.onConnectComplete ⟨none⟩ false) ∈ c.shared.log ∧
    1 + 1 = c.shared.sessions.length ∧ c.shared.resetSession 0 = c.shared := by
  have facts := current_session false 30 failsLate _ (System.exec_get failsLate_runs) (by decide)
  have current : ((system.exec (create false 30) failsLate).get failsLate_runs).shared.mSession = some 1 := by
    decide
  refine ⟨_, System.exec_get failsLate_runs, current, by decide, facts.1 1 current, facts.2.2.1 0 ?_⟩
  have len := facts.1 1 current
  omega

end Client

end Websockets
