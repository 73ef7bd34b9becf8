import Websockets.Client.Relay

/-!
# The callback trace of a session

What the callbacks deliver for a session is a beginning of what was posted for it, which is a beginning of
what the session said: the work queue is first in, first out and has one worker, and a handler says at
most one thing, which is posted before the strand runs its next handler. With all four callbacks set
nothing said is dropped on the way, so the trace of a session is a beginning of a failed or of a
successful attempt.
-/

namespace Websockets

open Lib

namespace Client

/-- The frames session `k` has read. -/
def framesRead (k : Nat) (log : List Event) : List Frame :=
  log.filterMap fun
    | .handled k' handler => if k' = k then handler.frame? else none
    | _ => none

/-- The callbacks delivered on behalf of session `k`, in the order of their delivery. -/
def delivered (k : Nat) (log : List Event) : List Notice := ofSession k (deliveries log)

/-- Beast's promise on a step: after an error on a session's stream, its completions are errors. -/
def BeastOk (c : Running) : Label → Prop
  | .complete k _ ec _ => c.shared.sessions[k]?.any (·.failed) = true → ec.isSome = true
  | _ => True

instance (c : Running) (l : Label) : Decidable (BeastOk c l) :=
  match l with
  | .complete k _ ec _ => inferInstanceAs (Decidable (c.shared.sessions[k]?.any (·.failed) = true → ec.isSome = true))
  | .api _ | .run _ _ | .strand _ _ | .work => .isTrue trivial

/-- From the first session on all four callbacks are set. -/
def RegisteredOk (c : Running) (_ : Label) : Prop := c.shared.sessions = [] ∨ c.shared.registered = true

instance (c : Running) (l : Label) : Decidable (RegisteredOk c l) :=
  decidable_of_iff (c.shared.sessions.isEmpty = true ∨ c.shared.registered = true) (by rw [List.isEmpty_iff]; rfl)

variable {c c' : Running} {s s' : Client} {a : Action} {outs : List Action} {k : Nat} {l : Label}
  {log new : List Event}

theorem framesRead_append : framesRead k (log ++ new) = framesRead k log ++ framesRead k new :=
  List.filterMap_append

/-! ## What a session says -/

theorem framesRead_quiet (quiet : ∀ e ∈ new, Event.strand? e ≠ some k) : framesRead k new = [] := by
  apply List.filterMap_eq_nil_iff.2
  intro e mem
  cases e with
  | handled k' handler =>
    have other : k' ≠ k := fun eq => quiet _ mem (congrArg some eq)
    simp only [if_neg other]
  | _ => rfl

theorem framesRead_calls (handler : Handled) (calls : List SessionCall) :
    framesRead k (.handled k handler :: calls.map (.called k)) = handler.frame?.toList := by
  have none : framesRead k (calls.map (.called k)) = [] := by
    apply List.filterMap_eq_nil_iff.2
    intro e mem
    obtain ⟨call, -, rfl⟩ := List.mem_map.1 mem
    rfl
  have one : framesRead k [.handled k handler] = handler.frame?.toList := by
    cases found : handler.frame? <;> simp [framesRead, found]
  rw [← List.singleton_append, framesRead_append, none, one, List.append_nil]

/-- Every session talks as it should. -/
structure Spoken (c : Running) : Prop where
  once : Once c
  sessions : ∀ k t, c.shared.sessions[k]? = some t →
    t.Inv ∧ Talks t (spoken k c.shared.log) (framesRead k c.shared.log)
  absent : ∀ k, c.shared.sessions[k]? = none → spoken k c.shared.log = [] ∧ framesRead k c.shared.log = []

/-- A session talks on as a step lets it. -/
theorem Touches.talks {before after : Option CSession} {notices : List Notice} {frames : List Frame} {t' : CSession}
    (touches : Touches before after) (found : after = some t')
    (talks : ∀ t, before = some t → t.Inv ∧ Talks t notices frames)
    (absent : before = none → notices = [] ∧ frames = []) : t'.Inv ∧ Talks t' notices frames := by
  cases touches with
  | stays t => exact talks t' found
  | creates isSsl =>
    cases found
    obtain ⟨rfl, rfl⟩ := absent rfl
    exact ⟨CSession.create_inv isSsl, .silent rfl (fun busy => absurd rfl busy) fun _ mem => nomatch mem⟩
  | posts t task other =>
    cases found
    obtain ⟨inv, speaks⟩ := talks t rfl
    exact ⟨CSession.step_inv (l := .post task) inv trivial (CSession.step_post other), speaks.alike (post_alike other)⟩
  | connects t args uncalled complete =>
    cases found
    obtain ⟨inv, speaks⟩ := talks t rfl
    exact ⟨CSession.step_inv (l := .post (.asyncConnect args)) inv trivial (CSession.step_connect uncalled),
      speaks.connect inv.fresh uncalled complete⟩

theorem step_spoken (step : step c l = some c') (ok : BeastOk c l) (inv : Spoken c) : Spoken c' := by
  refine ⟨step_once step inv.once, fun k t' found => ?_, fun k gone => ?_⟩
  · obtain ⟨new, log, session⟩ := step_session step inv.once k
    rw [log, spoken_append, framesRead_append]
    cases session with
    | touches touches quiet =>
      rw [spoken_quiet quiet, framesRead_quiet quiet, List.append_nil, List.append_nil]
      exact touches.talks found (inv.sessions k) (inv.absent k)
    | @completes t i ec frame ch before done after =>
      cases after.symm.trans found
      obtain ⟨sound, talks⟩ := inv.sessions k t before
      refine ⟨CSession.step_inv (l := .complete i ec frame) sound (fun failed => ok ?_) ?_, ?_⟩
      · rw [before]
        exact failed
      · simp only [CSession.step, done, Option.map_some]
      · simpa only [spoken, framesRead, List.filterMap_nil, List.append_nil] using talks.alike (complete_alike done)
    | @runs t sni t' calls h rest before front ran after =>
      cases after.symm.trans found
      obtain ⟨sound, talks⟩ := inv.sessions k _ before
      refine ⟨CSession.step_inv (l := .run true sni) sound trivial ?_, ?_⟩
      · simp only [CSession.step, ran, Option.map_some]
      · rw [spoken_calls, framesRead_calls]
        exact talks.run sound front ran
  · obtain ⟨new, log, session⟩ := step_session step inv.once k
    rw [log, spoken_append, framesRead_append]
    cases session with
    | touches touches quiet =>
      rw [spoken_quiet quiet, framesRead_quiet quiet, List.append_nil, List.append_nil]
      exact inv.absent k (touches.absent gone)
    | completes before done after => cases after.symm.trans gone
    | runs before front ran after => cases after.symm.trans gone

theorem create_spoken (sslContext : Bool) (handshakeTimeoutS : Nat) : Spoken (create sslContext handshakeTimeoutS) :=
  ⟨create_once sslContext handshakeTimeoutS, fun _ _ found => (nomatch found), fun _ _ => ⟨rfl, rfl⟩⟩

/-! ## From a session to the queue -/

/-- What was said and is not yet posted is being posted by the strand. -/
structure Announced (c : Running) : Prop where
  owner : ∀ j q b x, c.At j q b → b.announces = some x → q = .strand x.1
  single : ∀ k, (c.pending (Action.announcesFor k)).length ≤ 1
  posted : ∀ k, ofSession k (postings c.shared.log) ++ c.pending (Action.announcesFor k) = spoken k c.shared.log

/-- What is still to be posted was said by a session, so there is one. -/
theorem Announced.exists_session (ann : Announced c) (inv : Spoken c) {j : Nat} {q : Owner} (pending : c.At j q a)
    (announces : a.announces ≠ none) : c.shared.sessions ≠ [] := by
  obtain ⟨x, some⟩ := Option.ne_none_iff_exists'.1 announces
  have here : x.2 ∈ c.pending (Action.announcesFor x.1) :=
    Tasks.mem_pending.2 ⟨j, q, a, pending, by simp [Action.announcesFor, some]⟩
  have heard : x.2 ∈ spoken x.1 c.shared.log := by
    rw [← ann.posted x.1]
    exact List.mem_append_right _ here
  intro empty
  rw [(inv.absent x.1 (by rw [empty]; rfl)).1] at heard
  cases heard

/-- Nothing said is left out. -/
theorem announced_iff : Announced c ↔ Relayed (fun _ _ => true) c := by
  have same : ∀ k, Action.announcesOf (fun _ _ => true) k = Action.announcesFor k := by
    intro k
    funext a
    unfold Action.announcesOf
    cases a.announcesFor k <;> rfl
  constructor
  · refine fun ann => ⟨ann.owner, fun k => ?_, fun k => ?_⟩
    · rw [same]
      exact ann.single k
    · rw [same, List.filter_true, List.filter_true]
      exact ann.posted k
  · refine fun rel => ⟨rel.owner, fun k => ?_, fun k => ?_⟩
    · rw [← same]
      exact rel.single k
    · have posted := rel.posted k
      rw [same, List.filter_true, List.filter_true] at posted
      exact posted

theorem step_announced (step : step c l = some c') (ok : RegisteredOk c l) (inv : Spoken c) (ann : Announced c) :
    Announced c' := by
  refine announced_iff.2 (step_relayed step (announced_iff.1 ann) ?_)
  rintro j q b ⟨k, notice⟩ pending announces -
  have heard : b.announces ≠ none := by
    rw [announces]
    exact Option.some_ne_none _
  have set := registered_iff.1 (ok.resolve_left (ann.exists_session inv pending heard))
  cases notice with
  | connect => exact set.1
  | disconnect => exact set.2.1
  | message message => exact set.2.2.1
  | content content => exact set.2.2.2

/-! ## From the queue to the callbacks -/

/-- The callback a piece invokes. -/
def Action.invokes : Action → Option (Nat × Notice)
  | invokeCallback k _ notice => some (k, notice)
  | _ => none

/-- The line to the callbacks: invoked, being invoked, queued. -/
def line (c : Running) : List (Nat × Notice) :=
  deliveries c.shared.log ++ c.pending Action.invokes ++ c.shared.mWorkQueue.mQueue.map fun p => (p.session, p.notice)

/-- The worker takes what was posted in its order; until the queue is stopped it misses nothing. -/
structure Delivered (c : Running) : Prop where
  worker : ∀ j q b, c.At j q b → b.invokes ≠ none → q = .worker
  single : (c.pending Action.invokes).length ≤ 1
  inOrder : line c <+: postings c.shared.log
  complete : c.shared.mWorkQueue.mStopped = false → line c = postings c.shared.log

theorem invokes_aside (aside : a.isAside = true) : a.invokes = none := by
  cases a with
  | invokeCallback k cb notice => cases aside
  | _ => rfl

theorem invokes_announces {x : Nat × Notice} (announces : a.announces = some x) : a.invokes = none := by
  cases a with
  | invokeCallback k cb notice => cases announces
  | _ => rfl

/-- A piece posts, invokes, stops the queue, or leaves the line alone. -/
theorem Does.line (does : Does s a s' outs) : (∀ b ∈ outs, b.invokes = none) ∧
    ((a.invokes = none ∧ deliveries s'.log = deliveries s.log ∧ postings s'.log = postings s.log ∧
        (s'.mWorkQueue = s.mWorkQueue ∨ s'.mWorkQueue = s.mWorkQueue.stop)) ∨
      (∃ k cb notice, a = .post k cb notice ∧ s' = s.post k cb notice) ∨
      ∃ k cb notice, a = .invokeCallback k cb notice ∧ s' = s.record [.invoked k cb notice]) := by
  cases does with
  | aside aside spares asides =>
    obtain ⟨new, log, quiet⟩ := spares.log
    refine ⟨fun b mem => invokes_aside (asides b mem), .inl ⟨invokes_aside aside, ?_, ?_, .inl spares.queue⟩⟩
    · rw [log, deliveries_append, (aside_events quiet).2.1, List.append_nil]
    · rw [log, postings_append, (aside_events quiet).1, List.append_nil]
  | sessionPost j task aside other => exact ⟨List.forall_mem_nil _, .inl ⟨invokes_aside aside, rfl, rfl, .inl rfl⟩⟩
  | doConnect host port resource promise =>
    refine ⟨fun b mem => ?_, .inl ⟨rfl, rfl, rfl, .inl rfl⟩⟩
    rw [List.mem_singleton.1 mem]
    rfl
  | installSession args =>
    have queue : (s.installSession args).1.mWorkQueue = s.mWorkQueue := by
      simp only [Client.installSession]
      split <;> rfl
    refine ⟨fun b mem => ?_, .inl ⟨rfl, by rw [installSession_log], by rw [installSession_log], .inl queue⟩⟩
    rw [List.mem_singleton.1 mem]
    rfl
  | sessionAsyncConnect j args => exact ⟨List.forall_mem_nil _, .inl ⟨rfl, rfl, rfl, .inl rfl⟩⟩
  | onConnectComplete j handler success =>
    refine ⟨fun b mem => ?_, .inl ⟨rfl, rfl, rfl, .inl rfl⟩⟩
    rcases List.mem_append.1 mem with mem | mem
    · cases success with
      | true => rw [List.mem_singleton.1 mem]; rfl
      | false =>
        rcases List.mem_cons.1 mem with rfl | mem
        · rfl
        · rw [List.mem_singleton.1 mem]; rfl
    · obtain ⟨promise, -, rfl⟩ := List.mem_map.1 mem
      rfl
  | relay cb announces isSet =>
    refine ⟨fun b mem => ?_, .inl ⟨invokes_announces announces, rfl, rfl, .inl rfl⟩⟩
    obtain ⟨fn, -, rfl⟩ := List.mem_map.1 mem
    rfl
  | post j cb notice => exact ⟨List.forall_mem_nil _, .inr (.inl ⟨j, cb, notice, rfl, rfl⟩)⟩
  | invokeCallback j cb notice asides =>
    exact ⟨fun b mem => invokes_aside (asides b mem), .inr (.inr ⟨j, cb, notice, rfl, rfl⟩)⟩
  | stopQueue onWorker asides =>
    exact ⟨fun b mem => invokes_aside (asides b mem), .inl ⟨rfl, rfl, rfl, .inr rfl⟩⟩

theorem Delivered.run {exec : Running → Nat → Action → Option (Client × List Action)} {i : Nat} {o : Owner}
    {rest : List Action} (del : Delivered c) (ran : Tasks.Ran exec c i c' o a rest outs)
    (does : Does c.shared a c'.shared outs) : Delivered c' := by
  obtain ⟨unseen, change⟩ := does.line
  have worker : ∀ j q b, c'.At j q b → b.invokes ≠ none → q = .worker := by
    intro j q b pending invokes
    rcases ran.at_inv pending with old | ⟨-, -, mem⟩
    · exact del.worker j q b old invokes
    · exact absurd (unseen b mem) invokes
  rcases change with ⟨none, deliveries, postings, queue⟩ | ⟨k, cb, notice, rfl, after⟩ | ⟨k, cb, notice, rfl, after⟩
  · have kept : c'.pending Action.invokes = c.pending Action.invokes := ran.pending_same none unseen
    refine ⟨worker, kept ▸ del.single, ?_, ?_⟩
    · rcases queue with queue | queue
      · rw [line, deliveries, kept, postings, queue]
        exact del.inOrder
      · rw [line, deliveries, kept, postings, queue]
        refine List.IsPrefix.trans ?_ del.inOrder
        exact (List.append_nil _).symm ▸ List.prefix_append _ _
    · rcases queue with queue | queue
      · rw [line, deliveries, kept, postings, queue]
        exact del.complete
      · rw [queue]
        exact fun running => nomatch running
  · have kept : c'.pending Action.invokes = c.pending Action.invokes := ran.pending_same rfl unseen
    have log : c'.shared.log = c.shared.log ++ [.posted k notice] := by rw [after]; rfl
    have same : deliveries c'.shared.log = deliveries c.shared.log := by
      rw [log, deliveries_append]
      exact List.append_nil _
    have more : postings c'.shared.log = postings c.shared.log ++ [(k, notice)] := by rw [log, postings_append]; rfl
    cases stopped : c.shared.mWorkQueue.mStopped with
    | true =>
      have queue : c'.shared.mWorkQueue = c.shared.mWorkQueue := by
        rw [after]
        simp [Client.post, CWorkQueue.post, setQueue, record, stopped]
      refine ⟨worker, kept ▸ del.single, ?_, fun running => ?_⟩
      · rw [line, same, kept, more, queue]
        exact del.inOrder.trans (List.prefix_append _ _)
      · rw [queue] at running
        exact absurd (stopped.symm.trans running) (by decide)
    | false =>
      have queue : c'.shared.mWorkQueue.mQueue = c.shared.mWorkQueue.mQueue ++ [⟨k, cb, notice⟩] := by
        rw [after]
        simp [Client.post, CWorkQueue.post, setQueue, record, stopped]
      have whole : line c' = postings c'.shared.log := by
        rw [line, same, kept, more, queue, ← del.complete stopped, line, List.map_append, List.append_assoc _ _ [_]]
        rfl
      exact ⟨worker, kept ▸ del.single, whole ▸ List.prefix_refl _, fun _ => whole⟩
  · obtain ⟨was, now⟩ := ran.pending_single del.single (show Action.invokes _ = some (k, notice) from rfl)
    rw [Tasks.filterMap_eq_nil_of unseen] at now
    have log : c'.shared.log = c.shared.log ++ [.invoked k cb notice] := by rw [after]; rfl
    have queue : c'.shared.mWorkQueue = c.shared.mWorkQueue := by rw [after]; rfl
    have same : line c' = line c := by
      rw [line, line, log, deliveries_append, now, was, queue, List.append_nil]
      rfl
    have postings : postings c'.shared.log = postings c.shared.log := by
      rw [log, postings_append]
      exact List.append_nil _
    refine ⟨worker, by rw [now]; exact Nat.zero_le _, ?_, ?_⟩
    · rw [same, postings]
      exact del.inOrder
    · rw [same, postings, queue]
      exact del.complete

/-- A new operation that invokes nothing, with nothing posted or invoked. -/
theorem Delivered.spawn {o : Owner} {todo : List Action} (del : Delivered c) (queue : s'.mWorkQueue = c.shared.mWorkQueue)
    (log : deliveries s'.log = deliveries c.shared.log ∧ postings s'.log = postings c.shared.log)
    (unseen : ∀ b ∈ todo, b.invokes = none) : Delivered (Tasks.spawn { c with shared := s' } o todo) := by
  have kept : (Tasks.spawn { c with shared := s' } o todo).pending Action.invokes = c.pending Action.invokes := by
    rw [Tasks.pending_spawn, Tasks.filterMap_eq_nil_of unseen]
    exact List.append_nil _
  have same : line (Tasks.spawn { c with shared := s' } o todo) = line c := by
    rw [line, kept, line, ← log.1, ← queue]
    rfl
  refine ⟨fun j q b pending invokes => ?_, kept ▸ del.single, ?_, ?_⟩
  · rcases Tasks.at_spawn.1 pending with old | ⟨-, -, mem⟩
    · exact del.worker j q b old invokes
    · exact absurd (unseen b mem) invokes
  · rw [same]
    exact log.2 ▸ del.inOrder
  · rw [same]
    show s'.mWorkQueue.mStopped = false → _ = postings s'.log
    rw [queue, log.2]
    exact del.complete

/-- While the worker is idle nothing is left to be invoked. -/
theorem Delivered.waits (del : Delivered c) (idle : c.idle .worker = true) : c.pending Action.invokes = [] := by
  refine Tasks.pending_eq_nil fun j q b pending => ?_
  by_contra invokes
  obtain rfl := del.worker j q b pending invokes
  exact Tasks.not_at_of_idle idle pending

theorem step_delivered (step : step c l = some c') (del : Delivered c) : Delivered c' := by
  cases step_steps step with
  | api call asides =>
    exact del.spawn rfl ⟨rfl, rfl⟩ fun b mem => invokes_aside (asides b mem)
  | run ran does => exact del.run ran does
  | complete found done => exact ⟨del.worker, del.single, del.inOrder, del.complete⟩
  | @strand j sni t t' calls h rest idle found front ran =>
    have none := handler_events j (handled h) calls
    refine del.spawn rfl ⟨?_, ?_⟩ fun b mem => ?_
    · rw [record, deliveries_append, none.1]
      exact List.append_nil _
    · rw [record, postings_append, none.2]
      exact List.append_nil _
    · obtain ⟨call, -, rfl⟩ := List.mem_map.1 mem
      cases call <;> rfl
  | @work posted rest idle running queue =>
    have waits := del.waits idle
    have pending : (Tasks.spawn { c with shared := c.shared.setQueue { c.shared.mWorkQueue with mQueue := rest } } .worker
        [.invokeCallback posted.session posted.cb posted.notice]).pending Action.invokes =
          [(posted.session, posted.notice)] := by
      rw [Tasks.pending_spawn]
      exact congrArg (· ++ _) waits
    have same : line (Tasks.spawn { c with shared := c.shared.setQueue { c.shared.mWorkQueue with mQueue := rest } } .worker
        [.invokeCallback posted.session posted.cb posted.notice]) = line c := by
      rw [line, pending, line, waits, queue, List.append_nil, List.map_cons, List.append_assoc]
      rfl
    refine ⟨fun j q b here invokes => ?_, by rw [pending]; exact Nat.le_refl 1, ?_, fun _ => ?_⟩
    · rcases Tasks.at_spawn.1 here with old | ⟨-, rfl, -⟩
      · exact del.worker j q b old invokes
      · rfl
    · rw [same]
      exact del.inOrder
    · rw [same]
      exact del.complete running

/-! ## The trace -/

/-- The invariant of a run with Beast's promise and all callbacks set. -/
structure Traced (c : Running) : Prop where
  spoken : Spoken c
  announced : Announced c
  delivered : Delivered c

theorem create_traced (sslContext : Bool) (handshakeTimeoutS : Nat) : Traced (create sslContext handshakeTimeoutS) where
  spoken := create_spoken sslContext handshakeTimeoutS
  announced := by
    refine ⟨fun j q b x pending => ?_, fun _ => Nat.zero_le _, fun _ => rfl⟩
    obtain ⟨t, found, -, -⟩ := pending
    cases found
  delivered := by
    refine ⟨fun j q b pending => ?_, Nat.zero_le _, List.prefix_refl _, fun _ => rfl⟩
    obtain ⟨t, found, -, -⟩ := pending
    cases found

/-- What is delivered for a session is a beginning of what it said. -/
theorem Traced.delivered_prefix (traced : Traced c) (k : Nat) :
    Client.delivered k c.shared.log <+: Client.spoken k c.shared.log := by
  have invoked : deliveries c.shared.log <+: postings c.shared.log := by
    refine List.IsPrefix.trans ?_ traced.delivered.inOrder
    rw [line, List.append_assoc]
    exact List.prefix_append _ _
  rw [← traced.announced.posted k]
  exact (invoked.filterMap _).trans (List.prefix_append _ _)

/-- **Callback trace.** In every run of a client in which Beast keeps its promise and all four callbacks are
set from the first session on, the callbacks delivered on behalf of a session are a beginning of the one
disconnect of a failed attempt, or of a connect, the frames the session read in their order, and one
disconnect. -/
theorem callback_trace (sslContext : Bool) (handshakeTimeoutS : Nat) (ls : List Label) (c : Running)
    (run : system.exec (create sslContext handshakeTimeoutS) ls = some c)
    (beast : system.Along BeastOk (create sslContext handshakeTimeoutS) ls)
    (registered : system.Along RegisteredOk (create sslContext handshakeTimeoutS) ls) (k : Nat) :
    delivered k c.shared.log <+: [.disconnect] ∨
      delivered k c.shared.log <+: .connect :: (framesRead k c.shared.log).map told ++ [.disconnect] := by
  have traced : Traced c := Lib.System.invariant_along Traced (create_traced sslContext handshakeTimeoutS)
    (fun _ _ _ inv ok step => ⟨step_spoken step ok.1 inv.spoken, step_announced step ok.2 inv.spoken inv.announced,
      step_delivered step inv.delivered⟩) run (beast.and registered)
  have beginning := traced.delivered_prefix k
  cases found : c.shared.sessions[k]? with
  | none =>
    rw [(traced.spoken.absent k found).1] at beginning
    exact .inl (beginning.trans List.nil_prefix)
  | some t => exact (traced.spoken.sessions k t found).2.spoken_begins.imp beginning.trans beginning.trans

/-- A client that sets its callbacks, connects, reads a message, loses the connection and fails to
connect again. -/
def reconnects : List Label :=
  ([.api (.registerConnectCallback (some 1)), .run 0 false, .api (.registerDisconnectCallback (some 2)), .run 1 false,
    .api (.registerMessageCallback (some 3)), .run 2 false, .api (.registerContentCallback (some 4)), .run 3 false,
    .api (.asyncConnect [] 80 [])] : List Label) ++ runs 4 4 ++
  ([.strand 0 none, .complete 0 0 none noFrame, .strand 0 none, .complete 0 0 none noFrame, .strand 0 none,
    .complete 0 0 none noFrame, .strand 0 none] : List Label) ++ runs 8 3 ++
  ([.complete 0 0 none ⟨true, greeting⟩, .work, .run 9 false, .strand 0 none] : List Label) ++ runs 10 2 ++
  ([.complete 0 0 (some .eof) noFrame, .strand 0 none] : List Label) ++ runs 11 3 ++
  ([.api (.asyncConnect [] 80 [])] : List Label) ++ runs 12 4 ++
  ([.strand 1 none, .complete 1 0 (some .timeout) noFrame, .strand 1 none] : List Label) ++ runs 14 5 ++
  ([.work, .run 15 true, .run 15 false, .work, .run 16 false, .work, .run 17 false] : List Label)

theorem reconnects_runs : (system.exec (create false 30) reconnects).isSome = true := by decide

/-- The trace of that client: a whole attempt and a failed one. -/
theorem callback_trace_reconnects :
    ∃ c, system.exec (create false 30) reconnects = some c ∧
      delivered 0 c.shared.log = [.connect, .message greeting, .disconnect] ∧
      delivered 1 c.shared.log = [.disconnect] ∧
      ∀ k, delivered k c.shared.log <+: [.disconnect] ∨
        delivered k c.shared.log <+: .connect :: (framesRead k c.shared.log).map told ++ [.disconnect] :=
  ⟨_, System.exec_get reconnects_runs, by decide, by decide,
    callback_trace false 30 reconnects _ (System.exec_get reconnects_runs) (by decide) (by decide)⟩

end Client

end Websockets
