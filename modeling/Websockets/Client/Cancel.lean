import Websockets.Client.Attempts

/-!
# A close during the connect

`Close` on a session that is not open yet cancels what is pending. That ends the attempt if an operation of
the connect chain is pending then: it completes with `operation_aborted`, and no handler starts another one.
It does not end it if the chain has not begun, because the dispatch of `AsyncConnect` is still on its way, or
if the operation has completed already and its handler is queued behind the close: cancelling finds nothing,
and no handler of the chain looks at `mCloseRequested` until the session is open and connected.
-/

namespace Websockets

open Lib

namespace CSession

/-- The next handler is that of `Close`. -/
def closing (t : CSession) : Bool := match t.strand with
  | .posted .close :: _ => true
  | _ => false

/-- The chain has begun, and none of its operations has completed with its handler still to run. -/
def cancellable (t : CSession) : Bool :=
  t.connectCalled && t.connects == 0 && t.strand.all fun h => match h with
    | .completed (.opening _) none _ => false
    | _ => true

end CSession

namespace Client

/-- What `cancel()` promises on a step: a cancelled operation completes with `operation_aborted`. -/
def CancelOk (c : Running) : Label → Prop
  | .complete k i ec _ =>
    (c.shared.sessions[k]?.bind fun t => t.pending[i]?).any (·.cancelled) = true → ec = some .operationAborted
  | _ => True

instance (c : Running) (l : Label) : Decidable (CancelOk c l) :=
  match l with
  | .complete k i ec _ => inferInstanceAs (Decidable
      ((c.shared.sessions[k]?.bind fun t => t.pending[i]?).any (·.cancelled) = true → ec = some .operationAborted))
  | .api _ | .run _ _ | .strand _ _ | .work => .isTrue trivial

/-- The handler of `Close` runs on an open session, or when the attempt can be cancelled. -/
def CloseOk (c : Running) : Label → Prop
  | .strand k _ => c.shared.sessions[k]?.all fun t => !t.closing || t.mOpen || t.cancellable
  | _ => True

instance (c : Running) (l : Label) : Decidable (CloseOk c l) :=
  match l with
  | .strand k _ =>
    inferInstanceAs (Decidable (c.shared.sessions[k]?.all (fun t => !t.closing || t.mOpen || t.cancellable) = true))
  | .api _ | .run _ _ | .complete _ _ _ _ | .work => .isTrue trivial

/-- The completion handler of session `k` was called with `success = true`. -/
def Succeeded (k : Nat) (log : List Event) : Prop := ∃ handler, .called k (.onConnectComplete handler true) ∈ log

/-- The handler of `Close` ran on session `k` before that of the websocket handshake. -/
def ClosedEarly (k : Nat) (log : List Event) : Prop :=
  ∃ before after, log = before ++ .handled k .close :: after ∧ .handled k .websocketHandshake ∉ before

/-- An attempt that can no longer succeed. -/
structure Doomed (t : CSession) : Prop where
  closed : t.mOpen = false
  called : t.connectCalled = true
  begun : t.connects = 0
  pending : ∀ p ∈ t.pending, p.op.isOpening = true → p.cancelled = true
  strand : ∀ stage frame, .completed (.opening stage) none frame ∉ t.strand

variable {c c' : Running} {s s' : Client} {a : Action} {outs : List Action} {k : Nat} {l : Label}
  {log new : List Event} {t t' : CSession}

/-! ## A doomed session -/

theorem cancellable_iff : t.cancellable = true ↔ t.connectCalled = true ∧ t.connects = 0 ∧
    ∀ stage frame, .completed (.opening stage) none frame ∉ t.strand := by
  unfold CSession.cancellable
  simp only [Bool.and_eq_true, beq_iff_eq, List.all_eq_true, and_assoc]
  refine and_congr_right fun _ => and_congr_right fun _ => ⟨fun none stage frame mem => ?_, fun none h mem => ?_⟩
  · exact Bool.false_ne_true (none _ mem)
  · split
    · next stage frame => exact absurd mem (none stage frame)
    · rfl

/-- Neither posting a task nor creating a session brings a doomed one back. -/
theorem Touches.doomed {before after : Option CSession} (touches : Touches before after)
    (doomed : ∃ t, before = some t ∧ Doomed t) : ∃ t, after = some t ∧ Doomed t := by
  obtain ⟨t, rfl, doomed⟩ := doomed
  cases touches with
  | stays => exact ⟨t, rfl, doomed⟩
  | posts _ task other =>
    refine ⟨_, rfl, doomed.closed, doomed.called, ?_, doomed.pending, fun stage frame mem => ?_⟩
    · have same := (post_alike (t := t) other).begun
      exact same.trans doomed.begun
    · rcases List.mem_append.1 mem with mem | mem
      · exact doomed.strand stage frame mem
      · cases List.mem_singleton.1 mem
  | connects _ args uncalled complete => exact absurd (doomed.called.symm.trans uncalled) (by decide)

theorem Doomed.complete {i : Nat} {ec : Option ErrorCode} {frame : Frame}
    {ch : Channel Stage SOutgoingMessage SessionTask} (doomed : Doomed t)
    (done : t.toChannel.complete i ec frame = some ch)
    (cancel : t.pending[i]?.any (·.cancelled) = true → ec = some .operationAborted) :
    Doomed { t with toChannel := ch } := by
  unfold Channel.complete at done
  split at done
  next => cases done
  next p found =>
    cases done
    refine ⟨doomed.closed, doomed.called, ?_, fun q mem => doomed.pending q (List.mem_of_mem_eraseIdx mem), ?_⟩
    · have begun := doomed.begun
      unfold CSession.connects at begun ⊢
      simpa using begun
    · intro stage frame' mem
      rcases List.mem_append.1 mem with mem | mem
      · exact doomed.strand stage frame' mem
      · obtain ⟨op, good, -⟩ := Handler.completed.inj (List.mem_singleton.1 mem)
        have cancelled := doomed.pending p (List.mem_of_getElem? found) (by rw [← op]; rfl)
        rw [found] at cancel
        cases good.trans (cancel cancelled)

section Run

variable {h : Handler Stage SOutgoingMessage SessionTask}
  {rest : List (Handler Stage SOutgoingMessage SessionTask)} {sni : Option ErrorCode} {calls : List SessionCall}

theorem logs_fail {logs : List SessionCall} (light : ∀ call ∈ logs, call.isLog = true) (handler : OnComplete) :
    .onConnectComplete handler true ∉ logs :=
  fun mem => Bool.false_ne_true (light _ mem)

/-- A doomed session stays so, and does not report success. -/
theorem Doomed.run (doomed : Doomed t) (front : t.strand = h :: rest)
    (ran : t.runNext true sni = some (t', calls)) :
    Doomed t' ∧ ∀ handler, .onConnectComplete handler true ∉ calls := by
  obtain ⟨strand, called⟩ := CSession.runNext_strand front ran
  have begun : t'.connects = 0 := by
    have none := doomed.begun
    unfold CSession.connects at none ⊢
    rw [front, List.countP_cons] at none
    rw [strand]
    omega
  have later : ∀ stage frame, .completed (.opening stage) none frame ∉ t'.strand := by
    intro stage frame mem
    rw [strand] at mem
    exact doomed.strand stage frame (front ▸ List.mem_cons_of_mem _ mem)
  have keep : t'.mOpen = t.mOpen → t.toChannel.Kept t'.toChannel → Doomed t' := fun opened kept =>
    ⟨opened.trans doomed.closed, called.trans doomed.called, begun,
      fun p mem opening => (kept p mem opening).elim id fun old => doomed.pending p old opening, later⟩
  have success : ∀ stage frame, h ≠ .completed (.opening stage) none frame := by
    rintro stage frame rfl
    exact doomed.strand stage frame (front ▸ List.mem_cons_self)
  cases CSession.runNext_acts front ran with
  | begins args opened handler =>
    have none := doomed.begun
    unfold CSession.connects at none
    rw [front, List.countP_cons_of_pos (by rfl)] at none
    omega
  | advances opened handler openings => exact absurd rfl (success _ _)
  | fails opened openings pending light =>
    refine ⟨keep opened pending, fun handler mem => ?_⟩
    rcases List.mem_append.1 mem with mem | mem
    · exact logs_fail light handler mem
    · obtain ⟨other, -, same⟩ := List.mem_map.1 mem
      cases same
  | opens opened => exact absurd rfl (success _ _)
  | reads frame keeps =>
    refine ⟨keep keeps.opened keeps.pending, fun handler mem => ?_⟩
    have same := List.mem_singleton.1 mem
    unfold SessionCall.ofFrame at same
    split at same <;> cases same
  | closes was closed openings light => exact absurd (was.symm.trans doomed.closed) (by decide)
  | works keeps other light => exact ⟨keep keeps.opened keeps.pending, logs_fail light⟩

/-- `Close` dooms an attempt that can be cancelled. -/
theorem doomed_of_close (front : t.strand = .posted .close :: rest) (closed : t.mOpen = false)
    (cancellable : t.cancellable = true) (ran : t.runNext true sni = some (t', calls)) : Doomed t' ∧ calls = [] := by
  obtain ⟨called, none, success⟩ := cancellable_iff.1 cancellable
  obtain ⟨strand, same⟩ := CSession.runNext_strand front ran
  obtain ⟨h, rest', front', result⟩ := CSession.runNext_inv ran
  cases front.symm.trans front'
  obtain ⟨after, quiet⟩ := Prod.mk.inj result
  have channel : t'.toChannel = t.toChannel.popHandler.requestClose.cancel := by
    rw [after]
    show t.toChannel.popHandler.closeTask = _
    simp only [Channel.closeTask, Channel.popHandler_mOpen, closed, Bool.false_eq_true, if_false]
  refine ⟨⟨by rw [channel]; exact closed, same.trans called, ?_, fun p mem _ => ?_, fun stage frame mem => ?_⟩, quiet⟩
  · unfold CSession.connects at none ⊢
    rw [front, List.countP_cons] at none
    rw [strand]
    omega
  · rw [channel] at mem
    obtain ⟨q, -, rfl⟩ := List.mem_map.1 mem
    rfl
  · rw [strand] at mem
    exact success stage frame (front ▸ List.mem_cons_of_mem _ mem)

/-- Only the handler of the websocket handshake reports success, and to the handler that is set. -/
theorem success_opens {handler : OnComplete} (front : t.strand = h :: rest) (ran : t.runNext true sni = some (t', calls))
    (mem : .onConnectComplete handler true ∈ calls) :
    (∃ host resource headers frame, h = .completed (.opening (.websocketHandshake host resource headers)) none frame) ∧
      t.mOnConnectComplete = some handler := by
  cases CSession.runNext_acts front ran with
  | begins args opened same => cases mem
  | advances opened same openings => cases mem
  | fails opened openings pending light =>
    rcases List.mem_append.1 mem with mem | mem
    · exact absurd mem (logs_fail light handler)
    · obtain ⟨other, -, is⟩ := List.mem_map.1 mem
      cases is
  | opens opened =>
    obtain ⟨other, isSet, is⟩ := List.mem_map.1 mem
    cases is
    exact ⟨⟨_, _, _, _, rfl⟩, Option.mem_toList.1 isSet⟩
  | reads frame keeps =>
    have is := List.mem_singleton.1 mem
    unfold SessionCall.ofFrame at is
    split at is <;> cases is
  | closes was closed openings light =>
    rcases List.mem_append.1 mem with mem | mem
    · exact absurd mem (logs_fail light handler)
    · cases List.mem_singleton.1 mem
  | works keeps other light => exact absurd mem (logs_fail light handler)

/-- Only that handler opens a session, too. -/
theorem opens_in_handshake (front : t.strand = h :: rest) (ran : t.runNext true sni = some (t', calls))
    (success : t'.mOpen = true ∧ t.mOpen = false ∨ ∃ handler, .onConnectComplete handler true ∈ calls) :
    handled h = .websocketHandshake := by
  obtain ⟨now, was⟩ | ⟨handler, mem⟩ := success
  · have changed : t'.mOpen ≠ t.mOpen := by
      rw [now, was]
      decide
    cases CSession.runNext_acts front ran with
    | opens opened => rfl
    | begins args opened same => exact absurd opened changed
    | advances opened same openings => exact absurd opened changed
    | fails opened openings pending light => exact absurd opened changed
    | reads frame keeps => exact absurd keeps.opened changed
    | closes was' closed openings light => exact absurd (now.symm.trans closed) (by decide)
    | works keeps other light => exact absurd keeps.opened changed
  · obtain ⟨⟨host, resource, headers, frame, rfl⟩, -⟩ := success_opens front ran mem
    rfl

theorem handled_close (close : handled h = .close) : h = .posted .close := by
  unfold handled at close
  split at close
  · rfl
  all_goals cases close

end Run

/-! ## The history of an attempt -/

theorem Succeeded.append (succeeded : Succeeded k log) (new : List Event) : Succeeded k (log ++ new) := by
  obtain ⟨handler, mem⟩ := succeeded
  exact ⟨handler, List.mem_append_left _ mem⟩

theorem succeeded_quiet (quiet : ∀ e ∈ new, Event.strand? e ≠ some k) (succeeded : Succeeded k (log ++ new)) :
    Succeeded k log := by
  obtain ⟨handler, mem⟩ := succeeded
  rcases List.mem_append.1 mem with mem | mem
  · exact ⟨handler, mem⟩
  · exact absurd rfl (quiet _ mem)

/-- An early close was early before, or is among the new events with no handshake before them. -/
theorem closedEarly_append (early : ClosedEarly k (log ++ new)) :
    ClosedEarly k log ∨ .handled k .close ∈ new ∧ .handled k .websocketHandshake ∉ log := by
  obtain ⟨before, after, split, first⟩ := early
  rcases List.append_eq_append_iff.1 split with ⟨more, rfl, rest⟩ | ⟨more, rfl, rest⟩
  · refine .inr ⟨?_, fun mem => first (List.mem_append_left _ mem)⟩
    rw [rest]
    exact List.mem_append_right _ List.mem_cons_self
  · cases more with
    | nil =>
      refine .inr ⟨?_, ?_⟩
      · rw [List.nil_append] at rest
        rw [← rest]
        exact List.mem_cons_self
      · rw [List.append_nil]
        exact first
    | cons e more =>
      cases (List.cons.inj rest).1
      exact .inl ⟨before, more, rfl, first⟩

theorem closedEarly_quiet (quiet : ∀ e ∈ new, Event.strand? e ≠ some k) (early : ClosedEarly k (log ++ new)) :
    ClosedEarly k log :=
  (closedEarly_append early).resolve_right fun h => quiet _ h.1 rfl

/-- What holds of a session's connect attempt when its closes come in time. -/
structure Attempt (log : List Event) (k : Nat) (session : Option CSession) : Prop where
  opened : ∀ t, session = some t → t.mOpen = true → .handled k .websocketHandshake ∈ log
  succeeded : Succeeded k log → .handled k .websocketHandshake ∈ log
  early : ClosedEarly k log → (∃ t, session = some t ∧ Doomed t) ∧ ¬ Succeeded k log

theorem Touches.opened {before after : Option CSession} (touches : Touches before after)
    (found : after = some t') (opened : t'.mOpen = true) : ∃ t, before = some t ∧ t.mOpen = true := by
  cases touches with
  | stays => exact ⟨t', found, opened⟩
  | creates isSsl => cases found; cases opened
  | posts t task other => cases found; exact ⟨t, rfl, opened⟩
  | connects t args uncalled complete => cases found; exact ⟨t, rfl, opened⟩

theorem step_attempt (step : step c l = some c') (once : Once c) (cancel : CancelOk c l) (close : CloseOk c l)
    (attempt : Attempt c.shared.log k c.shared.sessions[k]?) : Attempt c'.shared.log k c'.shared.sessions[k]? := by
  obtain ⟨new, log, session⟩ := step_session step once k
  rw [log]
  cases session with
  | touches touches quiet =>
    refine ⟨fun t' found opened => ?_, fun succeeded => ?_, fun early => ?_⟩
    · obtain ⟨t, before, was⟩ := touches.opened found opened
      exact List.mem_append_left _ (attempt.opened t before was)
    · exact List.mem_append_left _ (attempt.succeeded (succeeded_quiet quiet succeeded))
    · obtain ⟨doomed, fails⟩ := attempt.early (closedEarly_quiet quiet early)
      exact ⟨touches.doomed doomed, fun succeeded => fails (succeeded_quiet quiet succeeded)⟩
  | @completes t i ec frame ch before done after =>
    rw [List.append_nil, after]
    refine ⟨fun t' found opened => ?_, attempt.succeeded, fun early => ?_⟩
    · cases found
      exact attempt.opened t before ((complete_alike done).opened.symm.trans opened)
    · obtain ⟨⟨u, same, doomed⟩, fails⟩ := attempt.early early
      cases before.symm.trans same
      refine ⟨⟨_, rfl, doomed.complete done fun cancelled => cancel ?_⟩, fails⟩
      rw [before]
      exact cancelled
  | @runs t sni t' calls h rest before front ran after =>
    have success : ∀ handler, .called k (.onConnectComplete handler true) ∈
        (.handled k (handled h) :: calls.map (.called k) : List Event) → .onConnectComplete handler true ∈ calls := by
      intro handler mem
      rcases List.mem_cons.1 mem with same | mem
      · cases same
      · obtain ⟨call, here, same⟩ := List.mem_map.1 mem
        cases same
        exact here
    have handshake : t'.mOpen = true ∧ t.mOpen = false ∨ (∃ handler, .onConnectComplete handler true ∈ calls) →
        .handled k .websocketHandshake ∈ c.shared.log ++ (.handled k (handled h) :: calls.map (.called k)) := by
      intro opens
      rw [opens_in_handshake front ran opens]
      exact List.mem_append_right _ List.mem_cons_self
    refine ⟨fun u found opened => ?_, ?_, fun early => ?_⟩
    · cases after.symm.trans found
      cases was : t.mOpen with
      | true => exact List.mem_append_left _ (attempt.opened t before was)
      | false => exact handshake (.inl ⟨opened, was⟩)
    · rintro ⟨handler, mem⟩
      rcases List.mem_append.1 mem with mem | mem
      · exact List.mem_append_left _ (attempt.succeeded ⟨handler, mem⟩)
      · exact handshake (.inr ⟨handler, success handler mem⟩)
    · rw [after]
      rcases closedEarly_append early with early | ⟨closes, first⟩
      · obtain ⟨⟨u, same, doomed⟩, fails⟩ := attempt.early early
        cases before.symm.trans same
        obtain ⟨still, quiet⟩ := doomed.run front ran
        refine ⟨⟨t', rfl, still⟩, ?_⟩
        rintro ⟨handler, mem⟩
        rcases List.mem_append.1 mem with mem | mem
        · exact fails ⟨handler, mem⟩
        · exact quiet handler (success handler mem)
      · -- the handler that runs is that of `Close`
        have isClose : handled h = .close := by
          rcases List.mem_cons.1 closes with same | mem
          · exact (Event.handled.inj same).2.symm
          · obtain ⟨call, -, same⟩ := List.mem_map.1 mem
            cases same
        cases handled_close isClose
        have closed : t.mOpen = false := by
          cases opened : t.mOpen with
          | false => rfl
          | true => exact absurd (attempt.opened t before opened) first
        have may : t.cancellable = true := by
          have ok : (!t.closing || t.mOpen || t.cancellable) = true := by
            have := close
            simpa only [CloseOk, before, Option.all_some] using this
          have closing : t.closing = true := by
            unfold CSession.closing
            rw [front]
          rw [closing, closed] at ok
          exact ok
        obtain ⟨doomed, rfl⟩ := doomed_of_close front closed may ran
        refine ⟨⟨t', rfl, doomed⟩, ?_⟩
        rintro ⟨handler, mem⟩
        rcases List.mem_append.1 mem with mem | mem
        · exact first (attempt.succeeded ⟨handler, mem⟩)
        · cases success handler mem

/-! ## What is posted of it -/

/-- A connect that is posted, or still to be posted, is that of an attempt that succeeded. -/
structure Earned (c : Running) : Prop where
  pending : ∀ j q b k, c.At j q b → b.announces = some (k, .connect) → Succeeded k c.shared.log
  posted : ∀ k, .posted k .connect ∈ c.shared.log → Succeeded k c.shared.log

/-- A posted notice was posted before, or announced by the piece that posts it. -/
theorem Does.posted_inv (does : Does s a s' outs) {notice : Notice} (mem : .posted k notice ∈ s'.log) :
    .posted k notice ∈ s.log ∨ a.announces = some (k, notice) := by
  cases does with
  | aside aside spares asides =>
    obtain ⟨new, log, quiet⟩ := spares.log
    rw [log] at mem
    rcases List.mem_append.1 mem with mem | mem
    · exact .inl mem
    · cases quiet _ mem
  | installSession args =>
    rw [installSession_log] at mem
    exact .inl mem
  | post j cb notice' =>
    rcases List.mem_append.1 mem with mem | mem
    · exact .inl mem
    · cases List.mem_singleton.1 mem
      exact .inr rfl
  | invokeCallback j cb notice' asides =>
    rcases List.mem_append.1 mem with mem | mem
    · exact .inl mem
    · cases List.mem_singleton.1 mem
  | sessionPost j task aside other => exact .inl mem
  | doConnect host port resource promise => exact .inl mem
  | sessionAsyncConnect j args => exact .inl mem
  | onConnectComplete j handler success => exact .inl mem
  | relay cb same set => exact .inl mem
  | stopQueue onWorker asides => exact .inl mem

theorem said_connect {call : SessionCall} (connect : said call = some .connect) :
    ∃ handler, call = .onConnectComplete handler true := by
  cases call with
  | onConnectComplete handler success =>
    cases success with
    | true => exact ⟨handler, rfl⟩
    | false => cases connect
  | _ => cases connect

theorem step_earned (step : step c l = some c') (once : Once c) (earned : Earned c) : Earned c' := by
  obtain ⟨new, log, -⟩ := step_session step once 0
  have later : ∀ {k}, Succeeded k c.shared.log → Succeeded k c'.shared.log := fun h => log ▸ h.append new
  cases step_steps step with
  | api call asides =>
    refine ⟨fun j q b k pending announces => ?_, earned.posted⟩
    rcases Tasks.at_spawn.1 pending with old | ⟨-, -, mem⟩
    · exact earned.pending j q b k old announces
    · rw [announces_aside (asides b mem)] at announces
      cases announces
  | run ran does =>
    refine ⟨fun j q b k pending announces => ?_, fun k mem => ?_⟩
    · rcases ran.at_inv pending with old | ⟨-, rfl, mem⟩
      · exact later (earned.pending j q b k old announces)
      · exact later (earned.pending _ _ _ k ran.at_head (does.passes mem announces))
    · rcases does.posted_inv mem with old | announces
      · exact later (earned.posted k old)
      · exact later (earned.pending _ _ _ k ran.at_head announces)
  | complete found done => exact ⟨earned.pending, earned.posted⟩
  | strand idle found front ran =>
    refine ⟨fun j q b k pending announces => ?_, fun k mem => ?_⟩
    · rcases Tasks.at_spawn.1 pending with old | ⟨-, rfl, mem⟩
      · exact later (earned.pending j q b k old announces)
      · obtain ⟨call, here, rfl⟩ := List.mem_map.1 mem
        rw [ofCall_announces] at announces
        obtain ⟨notice, connect, same⟩ := Option.map_eq_some_iff.1 announces
        cases same
        obtain ⟨handler, rfl⟩ := said_connect connect
        exact ⟨handler, List.mem_append_right _ (List.mem_cons_of_mem _ (List.mem_map_of_mem here))⟩
    · rcases List.mem_append.1 mem with old | mem
      · exact later (earned.posted k old)
      · rcases List.mem_cons.1 mem with same | mem
        · cases same
        · obtain ⟨call, -, same⟩ := List.mem_map.1 mem
          cases same
  | work idle running queue =>
    refine ⟨fun j q b k pending announces => ?_, earned.posted⟩
    rcases Tasks.at_spawn.1 pending with old | ⟨-, -, mem⟩
    · exact earned.pending j q b k old announces
    · rw [List.mem_singleton.1 mem] at announces
      cases announces

/-! ## A close in time prevents the connect -/

/-- The invariant of a run whose closes come in time. -/
structure InTime (c : Running) : Prop where
  once : Once c
  attempts : ∀ k, Attempt c.shared.log k c.shared.sessions[k]?
  earned : Earned c

theorem create_inTime (sslContext : Bool) (handshakeTimeoutS : Nat) : InTime (create sslContext handshakeTimeoutS) where
  once := create_once sslContext handshakeTimeoutS
  attempts k := by
    refine ⟨fun _ found => (nomatch found), fun ⟨_, mem⟩ => (nomatch mem), ?_⟩
    rintro ⟨before, after, split, -⟩
    cases before <;> cases split
  earned := by
    refine ⟨fun j q b k pending => ?_, fun _ mem => nomatch mem⟩
    obtain ⟨t, found, -, -⟩ := pending
    cases found

/-- **Close during connect.** In every run in which cancelled operations complete with `operation_aborted` and
the handler of `Close` on a session not open yet finds the chain begun and no successful completion of it
queued: if that handler runs before the one of the websocket handshake, the attempt never calls its
completion handler with success and never posts the connect callback. -/
theorem close_prevents_connect (sslContext : Bool) (handshakeTimeoutS : Nat) (ls : List Label) (c : Running)
    (run : system.exec (create sslContext handshakeTimeoutS) ls = some c)
    (cancel : system.Along CancelOk (create sslContext handshakeTimeoutS) ls)
    (close : system.Along CloseOk (create sslContext handshakeTimeoutS) ls) (k : Nat) (before after : List Event)
    (split : c.shared.log = before ++ .handled k .close :: after) (early : .handled k .websocketHandshake ∉ before) :
    (∀ handler, .called k (.onConnectComplete handler true) ∉ c.shared.log) ∧ .posted k .connect ∉ c.shared.log := by
  have inv : InTime c := Lib.System.invariant_along InTime (create_inTime sslContext handshakeTimeoutS)
    (fun _ _ _ inv ok step => ⟨step_once step inv.once,
      fun k => step_attempt step inv.once ok.1 ok.2 (inv.attempts k), step_earned step inv.once inv.earned⟩)
    run (cancel.and close)
  have fails : ¬ Succeeded k c.shared.log := ((inv.attempts k).early ⟨before, after, split, early⟩).2
  exact ⟨fun handler mem => fails ⟨handler, mem⟩, fun mem => fails (inv.earned.posted k mem)⟩

/-- A close while the name is being resolved. -/
def closesInTime : List Label :=
  ([.api (.registerConnectCallback (some 1)), .run 0 false, .api (.asyncConnect [] 80 [])] : List Label) ++ runs 1 4 ++
  ([.strand 0 none, .api .close, .run 3 false, .run 3 false, .strand 0 none,
    .complete 0 0 (some .operationAborted) noFrame, .strand 0 none] : List Label) ++ runs 5 3

theorem closesInTime_runs : (system.exec (create false 30) closesInTime).isSome = true := by decide

/-- There the attempt fails. -/
theorem close_prevents_connect_closesInTime :
    ∃ c before after, system.exec (create false 30) closesInTime = some c ∧
      c.shared.log = before ++ .handled 0 .close :: after ∧
      .called 0 (.onConnectComplete ⟨none⟩ false) ∈ c.shared.log ∧
      (∀ handler, .called 0 (.onConnectComplete handler true) ∉ c.shared.log) ∧ .posted 0 .connect ∉ c.shared.log :=
  ⟨_, [.handled 0 .other], [.handled 0 .other, .called 0 (.onConnectComplete ⟨none⟩ false)],
    System.exec_get closesInTime_runs, by decide, by decide,
    close_prevents_connect false 30 closesInTime _ (System.exec_get closesInTime_runs) (by decide)
      (by decide) 0 [.handled 0 .other] [.handled 0 .other, .called 0 (.onConnectComplete ⟨none⟩ false)]
      (by decide) (by decide)⟩

/-! ## Closes that come too soon or too late -/

/-- A close whose handler runs after the websocket handshake has completed, and before its handler. -/
def closesTooLate : List Label :=
  ([.api (.registerConnectCallback (some 1)), .run 0 false, .api (.asyncConnect [] 80 [])] : List Label) ++ runs 1 4 ++
  ([.strand 0 none, .complete 0 0 none noFrame, .strand 0 none, .complete 0 0 none noFrame, .strand 0 none,
    .api .close, .run 5 false, .run 5 false, .complete 0 0 none noFrame, .strand 0 none, .strand 0 none] : List Label) ++ runs 7 3

/-- A close whose handler runs between the creation of the session and the dispatch of `AsyncConnect`. -/
def closesTooSoon : List Label :=
  ([.api (.registerConnectCallback (some 1)), .run 0 false, .api (.asyncConnect [] 80 [])] : List Label) ++ runs 1 3 ++
  ([.api .close, .run 2 false, .run 2 false, .strand 0 none, .run 1 false, .strand 0 none,
    .complete 0 0 none noFrame, .strand 0 none, .complete 0 0 none noFrame, .strand 0 none,
    .complete 0 0 none noFrame, .strand 0 none] : List Label) ++ runs 7 3

/-- The first session of the run connects, although `Close` was handled first. -/
def ConnectsThoughClosed (ls : List Label) : Prop :=
  ∃ c before after, system.exec (create false 30) ls = some c ∧ system.Along CancelOk (create false 30) ls ∧
    c.shared.log = before ++ .handled 0 .close :: after ∧ .handled 0 .websocketHandshake ∉ before ∧
    .called 0 (.onConnectComplete ⟨none⟩ true) ∈ c.shared.log ∧ .posted 0 .connect ∈ c.shared.log

theorem closesTooLate_runs : (system.exec (create false 30) closesTooLate).isSome = true := by decide

theorem closesTooSoon_runs : (system.exec (create false 30) closesTooSoon).isSome = true := by decide

theorem close_during_connect_ignored : ConnectsThoughClosed closesTooLate ∧ ConnectsThoughClosed closesTooSoon :=
  ⟨⟨_, [.handled 0 .other, .handled 0 .other, .handled 0 .other],
      [.handled 0 .websocketHandshake, .called 0 (.onConnectComplete ⟨none⟩ true), .posted 0 .connect],
      System.exec_get closesTooLate_runs, by decide, by decide, by decide, by decide,
      by decide⟩,
    ⟨_, [], [.handled 0 .other, .handled 0 .other, .handled 0 .other, .handled 0 .websocketHandshake,
      .called 0 (.onConnectComplete ⟨none⟩ true), .posted 0 .connect],
      System.exec_get closesTooSoon_runs, by decide, by decide, by decide, by decide,
      by decide⟩⟩

end Client

end Websockets
