import Websockets.Client.Cancel
import Websockets.Client.Promises

/-!
# What `Connect` returns

`Connect` waits for its promise, which says how its attempt has ended. The wait may also end before: then `Connect`
returns false, and the attempt goes on.
-/

namespace Websockets

open Lib

/-- The next handler is that of a successful websocket handshake. -/
def CSession.succeeding (t : CSession) : Bool := match t.strand with
  | .completed (.opening (.websocketHandshake _ _ _)) none _ :: _ => true
  | _ => false

namespace Client

/-- The connect completions of session `k`. -/
def completions (k : Nat) (log : List Event) : List (OnComplete × Bool) :=
  log.filterMap fun
    | .called k' (.onConnectComplete handler success) => if k' = k then some (handler, success) else none
    | _ => none

/-- The attempt for the promise has succeeded. -/
def succeeded (promise : Nat) (log : List Event) : Bool :=
  log.any fun
    | .called _ (.onConnectComplete handler true) => handler.promise == some promise
    | _ => false

/-- The promise that an operation waits for. -/
def awaited (c : Running) (i : Nat) : Option Nat := (c.tasks[i]?.bind (·.todo.head?)).bind fun
  | .awaitConnect promise => some promise
  | _ => none

/-- No wait ends before its promise is set when the attempt has succeeded, and no attempt succeeds whose wait has
ended so. -/
def WaitOk (c : Running) : Label → Prop
  | .run i _ => ∀ promise ∈ awaited c i, c.shared.promises[promise]? = some none →
      succeeded promise c.shared.log = false
  | .strand k _ => ∀ t ∈ c.shared.sessions[k]?, t.succeeding = true →
      ∀ promise ∈ t.mOnConnectComplete.bind (·.promise), .returned promise false ∉ c.shared.log
  | _ => True

instance (c : Running) (l : Label) : Decidable (WaitOk c l) :=
  match l with
  | .run i _ => inferInstanceAs (Decidable (∀ promise ∈ awaited c i, c.shared.promises[promise]? = some none →
      succeeded promise c.shared.log = false))
  | .strand k _ => inferInstanceAs (Decidable (∀ t ∈ c.shared.sessions[k]?, t.succeeding = true →
      ∀ promise ∈ t.mOnConnectComplete.bind (·.promise), .returned promise false ∉ c.shared.log))
  | .api _ | .complete _ _ _ _ | .work => .isTrue trivial

/-- Nothing is left of attempt `k`: its `AsyncConnect` was called, and no operation, handler or call of a handler
is outstanding. -/
structure AttemptOver (c : Running) (k : Nat) : Prop where
  called : c.shared.started k = true
  handlers : ∀ t ∈ c.shared.sessions[k]?, t.strand.isEmpty = true
  operations : ∀ t ∈ c.shared.sessions[k]?, t.pending.isEmpty = true
  calls : c.idle (.strand k) = true

instance (c : Running) (k : Nat) : Decidable (AttemptOver c k) :=
  decidable_of_iff (c.shared.started k = true ∧ (∀ t ∈ c.shared.sessions[k]?, t.strand.isEmpty = true) ∧
      (∀ t ∈ c.shared.sessions[k]?, t.pending.isEmpty = true) ∧ c.idle (.strand k) = true)
    ⟨fun ⟨called, handlers, operations, calls⟩ => ⟨called, handlers, operations, calls⟩,
      fun ⟨called, handlers, operations, calls⟩ => ⟨called, handlers, operations, calls⟩⟩

/-- The notices posted for attempt `k`. -/
def posted (k : Nat) (log : List Event) : List Notice := ofSession k (postings log)

/-- What the result of `Connect` says about its attempt. -/
def Outcome (c : Running) (k : Nat) : Bool → Prop
  | true => (posted k c.shared.log).count .connect = 1
  | false => .connect ∉ posted k c.shared.log ∧ (∀ t ∈ c.shared.sessions[k]?, t.mOpen = false) ∧
      (posted k c.shared.log).count .disconnect ≤ 1 ∧
      (AttemptOver c k → (posted k c.shared.log).count .disconnect = 1)

variable {c c' : Running} {s s' : Client} {i k : Nat} {a : Action} {outs : List Action} {flag : Bool} {l : Label}
  {log new : List Event} {attempts : List (Option Nat)}

/-! ## How an attempt ends -/

/-- The connect completions of a session with what it says about its state. -/
inductive Concluded : List (OnComplete × Bool) → List Notice → Prop
  | waiting : Concluded [] []
  | up (handler) : Concluded [(handler, true)] [.connect]
  | down (handler) : Concluded [(handler, true)] [.connect, .disconnect]
  | failed (handler) : Concluded [(handler, false)] [.disconnect]

def completion : SessionCall → Option (OnComplete × Bool)
  | .onConnectComplete handler success => some (handler, success)
  | _ => none

theorem mem_completions {handler : OnComplete} {success : Bool} :
    (handler, success) ∈ completions k log ↔ .called k (.onConnectComplete handler success) ∈ log := by
  constructor
  · intro mem
    obtain ⟨e, here, is⟩ := List.mem_filterMap.1 mem
    split at is
    · split at is
      · next eq =>
        cases is
        exact eq ▸ here
      · cases is
    · cases is
  · intro mem
    exact List.mem_filterMap.2 ⟨_, mem, if_pos rfl⟩

theorem completions_append : completions k (log ++ new) = completions k log ++ completions k new := List.filterMap_append

theorem completions_quiet (quiet : ∀ e ∈ new, Event.strand? e ≠ some k) : completions k new = [] := by
  refine List.filterMap_eq_nil_iff.2 fun e mem => ?_
  split
  · next k' handler success => exact if_neg fun eq => quiet _ mem (congrArg some eq)
  · rfl

theorem completions_calls (handler : Handled) (calls : List SessionCall) :
    completions k (.handled k handler :: calls.map (.called k)) = calls.filterMap completion := by
  simp only [completions, List.filterMap_cons_none, List.filterMap_map]
  congr 1
  funext call
  cases call <;> simp [completion]

theorem completion_logs {logs : List SessionCall} (light : ∀ call ∈ logs, call.isLog = true) :
    logs.filterMap completion = [] := by
  refine List.filterMap_eq_nil_iff.2 fun call mem => ?_
  have isLog := light call mem
  cases call with
  | logSessionError line => rfl
  | _ => cases isLog

theorem Concluded.run {t t' : CSession} {h : Handler Stage SOutgoingMessage SessionTask}
    {rest : List (Handler Stage SOutgoingMessage SessionTask)} {sni : Option ErrorCode} {calls : List SessionCall}
    {ends : List (OnComplete × Bool)} {states : List Notice} (concluded : Concluded ends states) (stands : Stands t states)
    (front : t.strand = h :: rest) (ran : t.runNext true sni = some (t', calls)) :
    Concluded (ends ++ calls.filterMap completion) (states ++ (calls.filterMap said).filter Notice.isState) := by
  have still (none : calls.filterMap completion = []) (silent : (calls.filterMap said).filter Notice.isState = []) :
      Concluded (ends ++ calls.filterMap completion) (states ++ (calls.filterMap said).filter Notice.isState) := by
    rwa [none, silent, List.append_nil, List.append_nil]
  -- with an operation of the chain in front, nothing has been said
  have first {stage ec frame} (front : t.strand = .completed (.opening stage) ec frame :: rest) :
      states = [] ∧ ∃ handler, t.mOnConnectComplete = some handler := by
    have openings : t.toChannel.popHandler.openings + 1 = t.openings := Channel.openings_pop front
    have busy : t.attempts ≠ 0 := by
      unfold CSession.attempts
      omega
    obtain ⟨none, -, -, waits, -⟩ := stands.of_busy busy
    exact ⟨none, Option.isSome_iff_exists.1 (waits (by omega))⟩
  cases CSession.runNext_acts front ran with
  | begins args opened handler => exact still rfl rfl
  | advances opened handler openings => exact still rfl rfl
  | fails opened openings pending light =>
    obtain ⟨rfl, handler, isSet⟩ := first front
    cases concluded
    rw [isSet, List.filterMap_append, List.filterMap_append, completion_logs light, said_logs light]
    exact .failed handler
  | opens opened =>
    obtain ⟨rfl, handler, isSet⟩ := first front
    cases concluded
    rw [isSet]
    exact .up handler
  | reads frame keeps =>
    refine still ?_ ?_
    · unfold SessionCall.ofFrame
      split <;> rfl
    · rw [List.filterMap_cons_some (said_ofFrame frame), List.filterMap_nil]
      unfold told
      split <;> rfl
  | closes was closed openings light =>
    have connected : states = [.connect] := by
      cases stands with
      | waiting shut one waits queued => exact absurd (was.symm.trans shut) (by decide)
      | up opened none => rfl
      | down shut none before => exact absurd (was.symm.trans shut) (by decide)
    subst connected
    cases concluded with
    | up handler =>
      rw [List.filterMap_append, List.filterMap_append, completion_logs light, said_logs light]
      exact .down handler
  | works keeps other light => exact still (completion_logs light) (states_logs light)

def Concludes (c : Running) : Prop := ∀ k, Concluded (completions k c.shared.log) (saidStates k c.shared.log)

theorem step_concludes (step : step c l = some c') (stood : Stood c) (concludes : Concludes c) : Concludes c' := by
  intro k
  obtain ⟨new, log, session⟩ := step_session step stood.once k
  rw [saidStates, log, spoken_append, completions_append, List.filter_append]
  cases session with
  | touches touches quiet =>
    rw [spoken_quiet quiet, completions_quiet quiet, List.filter_nil, List.append_nil, List.append_nil]
    exact concludes k
  | completes before done after =>
    rw [show completions k [] = [] from rfl, show spoken k [] = [] from rfl, List.filter_nil, List.append_nil, List.append_nil]
    exact concludes k
  | runs before front ran after =>
    rw [spoken_calls, completions_calls]
    exact (concludes k).run (stood.sessions k _ before) front ran

/-! ## Results -/

/-- What the results of `Connect` say about their attempts. -/
structure Answered (attempts : List (Option Nat)) (c : Running) : Prop where
  attempted : ∀ promise success, .returned promise success ∈ c.shared.log → some promise ∈ attempts
  success : ∀ promise, .returned promise true ∈ c.shared.log →
    ∃ k, .called k (.onConnectComplete ⟨some promise⟩ true) ∈ c.shared.log ∧ Notified k c.shared.log
  failure : ∀ promise, .returned promise false ∈ c.shared.log → succeeded promise c.shared.log = false

/-- Promises, attempts and what sessions say agree. -/
structure Agreed (attempts : List (Option Nat)) (c : Running) : Prop where
  stood : Stood c
  relayed : Relayed (fun _ => Notice.isState) c
  tied : Tied attempts c
  single : Single attempts c
  answers : Answers c
  installed : Installed attempts c
  notifies : Notifies c
  kept : Kept c
  concludes : Concludes c
  answered : Answered attempts c

theorem succeeded_iff {promise : Nat} :
    succeeded promise log = true ↔ ∃ k, .called k (.onConnectComplete ⟨some promise⟩ true) ∈ log := by
  unfold succeeded
  rw [List.any_eq_true]
  constructor
  · rintro ⟨e, mem, is⟩
    split at is
    · next k handler =>
      obtain ⟨p⟩ := handler
      obtain rfl : p = some promise := eq_of_beq is
      exact ⟨k, mem⟩
    · cases is
  · rintro ⟨k, mem⟩
    exact ⟨_, mem, beq_self_eq_true _⟩

/-- Success is reported by the handler of the websocket handshake. -/
theorem success_calls {t t' : CSession} {h : Handler Stage SOutgoingMessage SessionTask}
    {rest : List (Handler Stage SOutgoingMessage SessionTask)} {sni : Option ErrorCode} {calls : List SessionCall}
    {handler : OnComplete} (front : t.strand = h :: rest) (ran : t.runNext true sni = some (t', calls))
    (mem : .onConnectComplete handler true ∈ calls) : t.succeeding = true ∧ t.mOnConnectComplete = some handler := by
  obtain ⟨⟨host, resource, headers, frame, rfl⟩, isSet⟩ := success_opens front ran mem
  unfold CSession.succeeding
  rw [front]
  exact ⟨rfl, isSet⟩

/-- An attempt ends one way. -/
theorem Agreed.one_end (agreed : Agreed attempts c) {promise j : Nat} {success : Bool}
    (one : .called k (.onConnectComplete ⟨some promise⟩ success) ∈ c.shared.log)
    (other : .called j (.onConnectComplete ⟨some promise⟩ true) ∈ c.shared.log) : success = true := by
  obtain rfl := agreed.single.unique (agreed.tied.called k _ _ one) (agreed.tied.called j _ _ other)
  have one' := mem_completions.2 one
  have other' := mem_completions.2 other
  have concluded := agreed.concludes k
  generalize completions k c.shared.log = ends at one' other' concluded
  generalize saidStates k c.shared.log = states at concluded
  cases concluded with
  | waiting => cases one'
  | up handler => exact congrArg Prod.snd (List.mem_singleton.1 one')
  | down handler => exact congrArg Prod.snd (List.mem_singleton.1 one')
  | failed handler => cases List.mem_singleton.1 other'

/-- Events that neither return a result nor report a success. -/
theorem Answered.quiet (answered : Answered attempts c) {more : List (Option Nat)}
    (log : c'.shared.log = c.shared.log ++ new) (results : ∀ promise success, .returned promise success ∉ new)
    (fails : ∀ promise, .returned promise false ∈ c.shared.log → succeeded promise new = false) :
    Answered (attempts ++ more) c' := by
  have old : ∀ promise success, .returned promise success ∈ c'.shared.log → .returned promise success ∈ c.shared.log := by
    intro promise success mem
    rw [log] at mem
    exact (List.mem_append.1 mem).resolve_right (results promise success)
  refine ⟨fun promise success mem => List.mem_append_left _ (answered.attempted promise success (old _ _ mem)), ?_, ?_⟩
  · intro promise mem
    obtain ⟨k, called, notified⟩ := answered.success promise (old _ _ mem)
    rw [log]
    exact ⟨k, List.mem_append_left _ called, notified.mono fun _ => List.mem_append_left _⟩
  · intro promise mem
    rw [log, succeeded, List.any_append, Bool.or_eq_false_iff]
    exact ⟨answered.failure promise (old _ _ mem), fails promise (old _ _ mem)⟩

/-- A result is returned. -/
theorem Answered.result (answered : Answered attempts c) {promise : Nat} {success : Bool} {line : List Event}
    (log : c'.shared.log = c.shared.log ++ (line ++ [.returned promise success]))
    (lines : ∀ e ∈ line, ∃ text, e = .logged text) (attempted : some promise ∈ attempts)
    (good : success = true → ∃ k, .called k (.onConnectComplete ⟨some promise⟩ true) ∈ c.shared.log ∧
      Notified k c.shared.log)
    (bad : success = false → succeeded promise c.shared.log = false) : Answered attempts c' := by
  have old : ∀ p b, .returned p b ∈ c'.shared.log → .returned p b ∈ c.shared.log ∨ p = promise ∧ b = success := by
    intro p b mem
    rw [log] at mem
    rcases List.mem_append.1 mem with mem | mem
    · exact .inl mem
    · rcases List.mem_append.1 mem with mem | mem
      · obtain ⟨text, is⟩ := lines _ mem
        cases is
      · cases List.mem_singleton.1 mem
        exact .inr ⟨rfl, rfl⟩
  have quiet : ∀ p, succeeded p (line ++ [.returned promise success]) = false := by
    intro p
    rw [succeeded, List.any_append, Bool.or_eq_false_iff]
    refine ⟨List.any_eq_false.2 fun e mem => ?_, rfl⟩
    obtain ⟨text, rfl⟩ := lines e mem
    exact Bool.false_ne_true
  refine ⟨fun p b mem => ?_, fun p mem => ?_, fun p mem => ?_⟩
  · rcases old p b mem with mem | ⟨rfl, -⟩
    · exact answered.attempted p b mem
    · exact attempted
  · have before : ∃ k, .called k (.onConnectComplete ⟨some p⟩ true) ∈ c.shared.log ∧ Notified k c.shared.log := by
      rcases old p true mem with mem | ⟨rfl, is⟩
      · exact answered.success p mem
      · exact good is.symm
    obtain ⟨k, called, notified⟩ := before
    rw [log]
    exact ⟨k, List.mem_append_left _ called, notified.mono fun _ => List.mem_append_left _⟩
  · have before : succeeded p c.shared.log = false := by
      rcases old p false mem with mem | ⟨rfl, is⟩
      · exact answered.failure p mem
      · exact bad is.symm
    have after := quiet p
    rw [log, succeeded, List.any_append, Bool.or_eq_false_iff]
    exact ⟨before, after⟩

theorem awaited_head {promise : Nat} {o : Owner} {rest : List Action}
    (task : c.tasks[i]? = some ⟨o, .awaitConnect promise :: rest⟩) : promise ∈ awaited c i := by
  simp [awaited, task]

/-- **A step keeps the results right**, if its wait is. -/
theorem step_answered (step : step c l = some c') (ok : WaitOk c l) (agreed : Agreed attempts c) :
    Answered (attempts ++ (attempt c l).toList) c' := by
  have answered := agreed.answered
  have same (log : c'.shared.log = c.shared.log) : Answered (attempts ++ (attempt c l).toList) c' := by
    have nothing : c'.shared.log = c.shared.log ++ [] := log.trans (List.append_nil _).symm
    exact answered.quiet nothing (fun _ _ mem => nomatch mem) fun _ _ => rfl
  cases step_steps step with
  | api call asides => exact same rfl
  | @run i flag c' o a rest outs ran does =>
    have vows := exec_vows ran.action
    rw [attempt_run ran.task] at same ⊢
    generalize after : c'.shared = s' at vows
    cases vows with
    | @returns promise success isSet =>
      have attempted : some promise ∈ attempts := ran.has agreed.installed rfl
      obtain ⟨k, called, notified⟩ := agreed.kept promise success isSet
      rw [show Action.installs (.awaitConnect promise) = none from rfl, Option.toList_none, List.append_nil]
      have log : c'.shared.log = c.shared.log ++ ([] ++ [.returned promise success]) := congrArg Client.log after
      refine answered.result log (fun _ mem => nomatch mem) attempted ?_ ?_
      · rintro rfl
        exact ⟨k, called, notified⟩
      · rintro rfl
        by_contra succeeds
        obtain ⟨j, other⟩ := succeeded_iff.1 (Bool.eq_true_of_not_eq_false succeeds)
        cases agreed.one_end called other
    | @expires promise unset =>
      have attempted : some promise ∈ attempts := ran.has agreed.installed rfl
      have made : c.shared.promises[promise]? = some none := by
        cases here : c.shared.promises[promise]? with
        | none => exact absurd (List.getElem?_eq_none_iff.1 here) (Nat.not_le.2 (agreed.single.bound attempted))
        | some x =>
          cases x with
          | none => rfl
          | some success => exact absurd here (unset success)
      rw [show Action.installs (.awaitConnect promise) = none from rfl, Option.toList_none, List.append_nil]
      have log : c'.shared.log =
          c.shared.log ++ ([.logged (.text "Connect timed out")] ++ [.returned promise false]) := congrArg Client.log after
      refine answered.result log (fun e mem => ⟨_, List.mem_singleton.1 mem⟩) attempted (fun is => by cases is) fun _ => ?_
      exact ok promise (awaited_head ran.task) made
    | installs args => exact same (by rw [after, installSession_log])
    | plain outer promises sessions outers log =>
      obtain ⟨new, log, plain⟩ := log
      rw [← after] at log
      refine answered.quiet log (fun promise success mem => ?_) fun promise _ => ?_
      · exact Bool.noConfusion (plain _ mem)
      · by_contra succeeds
        obtain ⟨k, mem⟩ := succeeded_iff.1 (Bool.eq_true_of_not_eq_false succeeds)
        exact Bool.noConfusion (plain _ mem)
    | _ => exact same ((congrArg Client.log after).trans rfl)
  | complete found done => exact same rfl
  | @strand k sni t t' calls h rest idle found front ran =>
    refine answered.quiet rfl (fun promise success mem => ?_) fun promise returned => ?_
    · rcases List.mem_cons.1 mem with is | mem
      · cases is
      · obtain ⟨call, -, is⟩ := List.mem_map.1 mem
        cases is
    · by_contra succeeds
      obtain ⟨j, mem⟩ := succeeded_iff.1 (Bool.eq_true_of_not_eq_false succeeds)
      rcases List.mem_cons.1 mem with is | mem
      · cases is
      · obtain ⟨call, here, is⟩ := List.mem_map.1 mem
        cases is
        obtain ⟨succeeding, handler⟩ := success_calls front ran here
        exact ok t found succeeding promise (by rw [handler]; rfl) returned
  | work idle running queue => exact same rfl

/-- **A step keeps the agreement.** -/
theorem step_agreed (step : step c l = some c') (callbacks : CallbacksOk c l) (ok : WaitOk c l)
    (agreed : Agreed attempts c) : Agreed (attempts ++ (attempt c l).toList) c' := by
  have grows : ∀ e ∈ c.shared.log, e ∈ c'.shared.log := by
    obtain ⟨new, log, -⟩ := step_session step agreed.stood.once 0
    intro e mem
    rw [log]
    exact List.mem_append_left _ mem
  have set : ∀ j q b k notice, c.At j q b → b.announces = some (k, notice) → notice.isState = true →
      (c.shared.callbackFor notice).isSome = true :=
    fun _ _ _ _ _ => agreed.relayed.callback_set agreed.stood callbacks
  exact {
    stood := step_stood step agreed.stood
    relayed := step_relayed step agreed.relayed fun j q b x => set j q b x.1 x.2
    tied := step_tied step agreed.tied
    single := step_single step agreed.single
    answers := step_answers step grows agreed.answers
    installed := step_installed step agreed.installed
    notifies := step_notifies step grows agreed.answers set agreed.notifies
    kept := step_kept step grows agreed.answers agreed.notifies agreed.kept
    concludes := step_concludes step agreed.stood agreed.concludes
    answered := step_answered step ok agreed }

theorem create_agreed (sslContext : Bool) (handshakeTimeoutS : Nat) : Agreed [] (create sslContext handshakeTimeoutS) where
  stood := create_stood sslContext handshakeTimeoutS
  relayed := create_relayed sslContext handshakeTimeoutS
  tied := create_tied sslContext handshakeTimeoutS
  single _ := rfl
  answers := by
    constructor
    · rintro j q k handler success ⟨t, found, -, -⟩
      cases found
    · rintro j q promise success ⟨t, found, -, -⟩
      cases found
  installed _ mem := nomatch mem
  notifies _ mem := nomatch mem
  kept _ _ isSet := nomatch isSet
  concludes _ := .waiting
  answered := ⟨fun _ _ mem => (nomatch mem), fun _ mem => (nomatch mem), fun _ _ => rfl⟩

/-- The promises of the attempts of a run. -/
def attemptsOf (sslContext : Bool) (handshakeTimeoutS : Nat) (ls : List Label) : List (Option Nat) :=
  system.collect attempt (create sslContext handshakeTimeoutS) ls

theorem run_agreed {sslContext : Bool} {handshakeTimeoutS : Nat} {ls : List Label}
    (run : system.exec (create sslContext handshakeTimeoutS) ls = some c)
    (callbacks : system.Along CallbacksOk (create sslContext handshakeTimeoutS) ls)
    (ok : system.Along WaitOk (create sslContext handshakeTimeoutS) ls) :
    Agreed (attemptsOf sslContext handshakeTimeoutS ls) c := by
  refine System.invariant_run (fun pre c => Agreed (attemptsOf sslContext handshakeTimeoutS pre) c)
    (create_agreed sslContext handshakeTimeoutS) (fun pre a l b before agreed ok step => ?_) run (callbacks.and ok)
  rw [attemptsOf, System.collect_snoc before]
  exact step_agreed step ok.1 ok.2 agreed

/-- What was posted of a session's state begins what it said. -/
theorem Agreed.posted_states (agreed : Agreed attempts c) (k : Nat) :
    (posted k c.shared.log).filter Notice.isState <+: saidStates k c.shared.log := by
  rw [saidStates, ← agreed.relayed.posted k]
  exact List.prefix_append _ _

theorem count_states (notices : List Notice) {notice : Notice} (state : notice.isState = true) :
    notices.count notice = (notices.filter Notice.isState).count notice :=
  (List.count_filter state).symm

/-- `Connect` has returned true: the session has said that it is connected, and posted that. -/
theorem Agreed.success (agreed : Agreed attempts c) {promise : Nat} (attempted : attempts[k]? = some (some promise))
    (returned : .returned promise true ∈ c.shared.log) : Outcome c k true := by
  obtain ⟨j, called, notice, state, mem⟩ := agreed.answered.success promise returned
  obtain rfl := agreed.single.unique attempted (agreed.tied.called j _ _ called)
  have ends := mem_completions.2 called
  have said := agreed.concludes k
  have begins := agreed.posted_states k
  have heard : notice ∈ (posted k c.shared.log).filter Notice.isState := by
    refine List.mem_filter.2 ⟨List.mem_filterMap.2 ⟨(k, notice), ?_, if_pos rfl⟩, state⟩
    exact List.mem_filterMap.2 ⟨_, mem, rfl⟩
  unfold Outcome
  rw [count_states _ rfl]
  generalize completions k c.shared.log = completions at ends said
  generalize saidStates k c.shared.log = states at said begins
  generalize (posted k c.shared.log).filter Notice.isState = heard' at heard begins
  cases said with
  | waiting => cases ends
  | failed handler => cases List.mem_singleton.1 ends
  | up handler =>
    rcases List.prefix_cons_iff.1 begins with rfl | ⟨more, rfl, none⟩
    · cases heard
    · rw [List.prefix_nil.1 none]
      rfl
  | down handler =>
    rcases List.prefix_cons_iff.1 begins with rfl | ⟨more, rfl, tail⟩
    · cases heard
    · rcases List.prefix_cons_iff.1 tail with rfl | ⟨none, rfl, empty⟩
      · rfl
      · rw [List.prefix_nil.1 empty]
        rfl

/-- What a session of an attempt that is over has said, has been posted. -/
theorem Agreed.all_posted (agreed : Agreed attempts c) (ended : AttemptOver c k) :
    (posted k c.shared.log).filter Notice.isState = saidStates k c.shared.log := by
  have idle := agreed.relayed.waits ended.calls
  rw [saidStates, ← agreed.relayed.posted k, idle, List.append_nil]
  rfl

theorem AttemptOver.none_left (ended : AttemptOver c k) {t : CSession} (found : c.shared.sessions[k]? = some t) :
    t.attempts = 0 := by
  have called : c.shared.sessions[k]?.any (·.connectCalled) = true := ended.called
  rw [found, Option.any_some] at called
  have strand : t.strand = [] := List.isEmpty_iff.1 (ended.handlers t found)
  have pending : t.pending = [] := List.isEmpty_iff.1 (ended.operations t found)
  simp [CSession.attempts, CSession.connects, Channel.openings, Channel.inflight, strand, pending, called]

/-- A session of an attempt that is over has said how it ended. -/
theorem AttemptOver.said (ended : AttemptOver c k) {t : CSession} {states : List Notice}
    (found : c.shared.sessions[k]? = some t) (stands : Stands t states) : states ≠ [] := by
  cases stands with
  | waiting closed one waits queued =>
    rw [ended.none_left found] at one
    cases one
  | up opened none => exact List.cons_ne_nil _ _
  | down closed none before => exact List.concat_ne_nil _ _

/-- `Connect` has returned false: the session has not connected, and will have posted its failure. -/
theorem Agreed.failure (agreed : Agreed attempts c) {promise : Nat} (attempted : attempts[k]? = some (some promise))
    (returned : .returned promise false ∈ c.shared.log) : Outcome c k false := by
  have fails := agreed.answered.failure promise returned
  have said := agreed.concludes k
  have begins := agreed.posted_states k
  have silent : saidStates k c.shared.log = [] ∨ saidStates k c.shared.log = [.disconnect] := by
    have never : ∀ handler, (handler, true) ∉ completions k c.shared.log := by
      rintro ⟨p⟩ mem
      have called := mem_completions.1 mem
      have mine := agreed.tied.called k _ _ called
      rw [attempted] at mine
      cases mine
      rw [succeeded_iff.2 ⟨k, called⟩] at fails
      cases fails
    generalize completions k c.shared.log = completions at never said
    generalize saidStates k c.shared.log = states at said
    cases said with
    | waiting => exact .inl rfl
    | failed handler => exact .inr rfl
    | up handler => exact absurd (List.mem_singleton_self _) (never handler)
    | down handler => exact absurd (List.mem_singleton_self _) (never handler)
  have closed : ∀ t ∈ c.shared.sessions[k]?, t.mOpen = false := by
    intro t found
    have stands := agreed.stood.sessions k t found
    cases opened : t.mOpen with
    | false => rfl
    | true =>
      generalize saidStates k c.shared.log = states at silent stands
      cases stands with
      | waiting shut one waits queued => exact absurd (opened.symm.trans shut) (by decide)
      | up _ none => simp at silent
      | down shut none before => exact absurd (opened.symm.trans shut) (by decide)
  refine ⟨?_, closed, ?_, fun ended => ?_⟩
  · intro mem
    have heard : Notice.connect ∈ (posted k c.shared.log).filter Notice.isState := List.mem_filter.2 ⟨mem, rfl⟩
    have said := begins.subset heard
    rcases silent with none | one
    · rw [none] at said
      cases said
    · rw [one] at said
      cases List.mem_singleton.1 said
  · rw [count_states _ rfl]
    refine Nat.le_trans (begins.sublist.count_le _) ?_
    rcases silent with none | one
    · rw [none]
      exact Nat.zero_le _
    · rw [one]
      exact Nat.le_refl _
  · rw [count_states _ rfl, agreed.all_posted ended]
    have bound : k < c.shared.sessions.length := by
      rw [← agreed.tied.length]
      exact (List.getElem?_eq_some_iff.1 attempted).1
    have some := List.getElem?_eq_getElem bound
    rw [silent.resolve_left (ended.said some (agreed.stood.sessions k _ some))]
    rfl

/-- **`Connect` returns the outcome of its attempt**, in every run in which the connect and disconnect callbacks are
set from the first session on, and no wait ends before its promise is set whose attempt succeeds, then or later. -/
theorem connect_outcome {sslContext : Bool} {handshakeTimeoutS : Nat} {ls : List Label} {promise : Nat} {success : Bool}
    (run : system.exec (create sslContext handshakeTimeoutS) ls = some c)
    (callbacks : system.Along CallbacksOk (create sslContext handshakeTimeoutS) ls)
    (waits : system.Along WaitOk (create sslContext handshakeTimeoutS) ls)
    (returned : .returned promise success ∈ c.shared.log) :
    ∃ k, (∀ j, (attemptsOf sslContext handshakeTimeoutS ls)[j]? = some (some promise) ↔ j = k) ∧ Outcome c k success := by
  have agreed := run_agreed run callbacks waits
  obtain ⟨k, attempted⟩ := List.mem_iff_getElem?.1 (agreed.answered.attempted promise success returned)
  refine ⟨k, fun j => ⟨fun other => agreed.single.unique other attempted, fun eq => eq ▸ attempted⟩, ?_⟩
  cases success with
  | true => exact agreed.success attempted returned
  | false => exact agreed.failure attempted returned

/-- A client that has set both callbacks calls `Connect`, which comes to its wait. -/
def connecting : List Label :=
  ([.api (.registerConnectCallback (some 1)), .run 0 false, .api (.registerDisconnectCallback (some 2)), .run 1 false,
    .api (.connect [] 80 [])] : List Label) ++ runs 2 4 ++ ([.strand 0 none] : List Label)

/-- The session connects. -/
def connects : List Label :=
  ([.complete 0 0 none noFrame, .strand 0 none, .complete 0 0 none noFrame, .strand 0 none, .complete 0 0 none noFrame,
    .strand 0 none] : List Label) ++ runs 6 4

/-- The host is not found. -/
def failsToResolve : List Label :=
  ([.complete 0 0 (some (.other 1)) noFrame, .strand 0 none] : List Label) ++ runs 4 6

theorem connects_runs : (system.exec (create false 30) (connecting ++ connects ++ [.run 2 false])).isSome = true := by
  decide

/-- `Connect` returns when the session has connected. -/
def onTime : Running := (system.exec (create false 30) (connecting ++ connects ++ [.run 2 false])).get connects_runs

theorem failsToResolve_runs :
    (system.exec (create false 30) (connecting ++ [.run 2 true] ++ failsToResolve)).isSome = true := by
  decide

/-- The wait ends first, and then the host is not found. -/
def unresolved : Running :=
  (system.exec (create false 30) (connecting ++ [.run 2 true] ++ failsToResolve)).get failsToResolve_runs

/-- In the one run `Connect` returns true, in the other false. -/
theorem connect_outcome_connecting :
    (.returned 0 true ∈ onTime.shared.log ∧ Outcome onTime 0 true) ∧
      .returned 0 false ∈ unresolved.shared.log ∧ AttemptOver unresolved 0 ∧ Outcome unresolved 0 false := by
  have good : .returned 0 true ∈ onTime.shared.log := by decide
  have bad : .returned 0 false ∈ unresolved.shared.log := by decide
  obtain ⟨k, only, success⟩ :=
    connect_outcome (System.exec_get connects_runs) (by decide) (by decide) good
  obtain rfl := (only 0).1 (by decide)
  obtain ⟨k, only, failure⟩ :=
    connect_outcome (System.exec_get failsToResolve_runs) (by decide) (by decide) bad
  obtain rfl := (only 0).1 (by decide)
  exact ⟨⟨good, success⟩, bad, by decide, failure⟩

theorem connectsLate_runs : (system.exec (create false 30) (connecting ++ [.run 2 true] ++ connects)).isSome = true := by
  decide

/-- The wait ends first, and then the session connects: `Connect` has returned false, and the client is connected. -/
theorem connect_timed_out :
    ∃ c, system.exec (create false 30) (connecting ++ [.run 2 true] ++ connects) = some c ∧
      system.Along CallbacksOk (create false 30) (connecting ++ [.run 2 true] ++ connects) ∧
      attemptsOf false 30 (connecting ++ [.run 2 true] ++ connects) = [some 0] ∧ .returned 0 false ∈ c.shared.log ∧
      .posted 0 .connect ∈ c.shared.log ∧ c.shared.isConnected = true ∧ ¬ Outcome c 0 false := by
  refine ⟨_, System.exec_get connectsLate_runs, by decide, by decide, by decide,
    by decide, by decide, fun outcome => ?_⟩
  exact absurd outcome.1 (by decide)

end Client

end Websockets
