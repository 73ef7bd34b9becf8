import Websockets.Client.Trace
import Websockets.Session.Inbound

/-!
# A client session as one end of a connection

Seen from its peer a session accepts payloads and hands them to the wire, and takes frames from the wire that end
in the message and the content callback. `Endpoint` ties the first two and the frames taken to the steps of the
client; `received_prefix` follows the frames to the callbacks.
-/

namespace Websockets

open Lib

namespace Client

/-- The payload that session `k` accepts in a step. -/
def acceptsAt (k : Nat) (c : Running) : Label → Option SOutgoingMessage
  | .strand k' sni => if k' = k then c.shared.sessions[k]?.bind (·.accepts (.run true sni)) else none
  | _ => none

/-- The frame that a read of session `k` takes from the wire in a step. -/
def readsAt (k : Nat) (c : Running) : Label → Option Frame
  | .complete k' i ec frame => if k' = k then c.shared.sessions[k]?.bind (·.toChannel.delivers i ec frame) else none
  | _ => none

/-- What session `k` has put on the wire. -/
def writtenAt (k : Nat) (c : Running) : List Frame := (c.shared.sessions[k]?.map (·.toChannel.written)).getD []

/-- Session `k` with the payloads it has accepted and the frames it has taken from the wire. -/
structure Endpoint (k : Nat) (c : Running) (accepted : List SOutgoingMessage) (passed : List Frame) : Prop where
  present : ∀ t, c.shared.sessions[k]? = some t →
    (∃ written, t.Kept accepted written) ∧ framesRead k c.shared.log ++ t.arrived = passed
  absent : c.shared.sessions[k]? = none → accepted = [] ∧ passed = []

variable {c c' : Running} {k : Nat} {l : Label} {accepted : List SOutgoingMessage} {passed : List Frame}

theorem handled_frame? (h : Handler Stage SOutgoingMessage SessionTask) : (handled h).frame? = h.frame? := by
  by_cases read : ∃ frame, h = .completed .read none frame
  · obtain ⟨frame, rfl⟩ := read
    rfl
  · have other : ∀ frame, h ≠ .completed .read none frame := fun frame eq => read ⟨frame, eq⟩
    rw [handled_frame other]
    unfold Handler.frame?
    split
    · exact absurd rfl (other _)
    · rfl

/-- A new or a touched session has been posted to, at most. -/
theorem Touches.step {before after : Option CSession} {t' : CSession} (touches : Touches before after)
    (found : after = some t') : before = some t' ∨ (before = none ∧ ∃ isSsl, t' = .create isSsl) ∨
      ∃ t task, before = some t ∧ t.step (.post task) = some t' ∧ t'.arrived = t.arrived := by
  cases touches with
  | stays t => exact .inl found
  | creates isSsl =>
    cases found
    exact .inr (.inl ⟨rfl, isSsl, rfl⟩)
  | posts t task other =>
    cases found
    exact .inr (.inr ⟨t, task, rfl, CSession.step_post other, Channel.arrived_post task⟩)
  | connects t args uncalled complete =>
    cases found
    exact .inr (.inr ⟨t, .asyncConnect args, rfl, CSession.step_connect uncalled, Channel.arrived_post _⟩)

/-- A step that neither completes an operation of the session nor runs its strand. -/
theorem Endpoint.touched (ends : Endpoint k c accepted passed) (spoken : Spoken c)
    (touches : Touches c.shared.sessions[k]? c'.shared.sessions[k]?)
    (frames : framesRead k c'.shared.log = framesRead k c.shared.log) : Endpoint k c' accepted passed := by
  refine ⟨fun t' found => ?_, fun gone => ends.absent (touches.absent gone)⟩
  rcases touches.step found with same | ⟨fresh, isSsl, rfl⟩ | ⟨t, task, before, step, arrived⟩
  · rw [frames]
    exact ends.present t' same
  · obtain ⟨rfl, rfl⟩ := ends.absent fresh
    refine ⟨⟨[], CSession.create_kept isSsl⟩, ?_⟩
    rw [frames, (spoken.absent k fresh).2]
    rfl
  · obtain ⟨⟨written, kept⟩, whole⟩ := ends.present t before
    have after := CSession.step_kept kept (spoken.sessions k t before).1 step
    refine ⟨⟨written, ?_⟩, by rw [frames, arrived]; exact whole⟩
    simpa [CSession.accepts, CSession.arrives, CSession.writesOut] using after

theorem step_endpoint (step : step c l = some c') (spoken : Spoken c) (ends : Endpoint k c accepted passed) :
    Endpoint k c' (accepted ++ (acceptsAt k c l).toList) (passed ++ (readsAt k c l).toList) := by
  have quiet : ∀ {c'' : Running}, acceptsAt k c l = none → readsAt k c l = none → Endpoint k c'' accepted passed →
      Endpoint k c'' (accepted ++ (acceptsAt k c l).toList) (passed ++ (readsAt k c l).toList) := by
    intro c'' accepts reads ends
    rw [accepts, reads, Option.toList_none, Option.toList_none, List.append_nil, List.append_nil]
    exact ends
  cases step_steps step with
  | api call asides => exact quiet rfl rfl (ends.touched spoken (.stays _) rfl)
  | run ran does =>
    obtain ⟨touches, new, log, silent⟩ := does.touches (k := k)
      (fun starts => (spoken.once.present ran.at_head starts).1) (spoken.once.complete _ _ _ ran.at_head)
    have none : framesRead k new = [] := framesRead_quiet fun e mem eq => by cases (silent e mem).symm.trans eq
    refine quiet rfl rfl (ends.touched spoken touches ?_)
    rw [log, framesRead_append, none, List.append_nil]
  | @complete j i ec frame t ch found done =>
    by_cases eq : j = k
    · subst eq
      obtain ⟨⟨written, kept⟩, whole⟩ := ends.present t found
      have completed : t.step (.complete i ec frame) = some { t with toChannel := ch } := by
        simp only [CSession.step, done, Option.map_some]
      have after := CSession.step_kept kept (spoken.sessions j t found).1 completed
      refine ⟨fun t' here => ?_, (fun gone => by cases (setSession_get found).symm.trans gone)⟩
      cases (setSession_get found).symm.trans here
      refine ⟨⟨written, ?_⟩, ?_⟩
      · simpa [acceptsAt, CSession.accepts, CSession.arrives, CSession.writesOut] using after
      · simp only [readsAt, if_true, found, Option.bind_some]
        rw [Channel.arrived_complete done, ← List.append_assoc]
        exact congrArg (· ++ _) whole
    · refine quiet rfl (if_neg eq) (ends.touched spoken ?_ rfl)
      rw [setSession_other eq]
      exact .stays _
  | @strand j sni t t' calls h rest idle found front ran =>
    by_cases eq : j = k
    · subst eq
      obtain ⟨⟨written, kept⟩, whole⟩ := ends.present t found
      have handled : t.step (.run true sni) = some t' := by simp only [CSession.step, ran, Option.map_some]
      have after := CSession.step_kept kept (spoken.sessions j t found).1 handled
      refine ⟨fun t'' here => ?_, (fun gone => by cases (setSession_get found).symm.trans gone)⟩
      cases (setSession_get found).symm.trans here
      refine ⟨⟨written ++ (t.writesOut (.run true sni)).toList, ?_⟩, ?_⟩
      · simp only [acceptsAt, if_true, found, Option.bind_some]
        exact after
      · have popped := (CSession.runNext_strand front ran).1
        show framesRead j (c.shared.log ++ _) ++ _ = passed ++ []
        rw [framesRead_append, framesRead_calls, handled_frame?, List.append_assoc,
          Channel.arrived_pop (popped ▸ front), List.append_nil]
        exact whole
    · refine quiet (if_neg eq) rfl (ends.touched spoken ?_ ?_)
      · show Touches _ (c.shared.setSession j t').sessions[k]?
        rw [setSession_other eq]
        exact .stays _
      · have none : framesRead k (.handled j (handled h) :: calls.map (.called j)) = [] := by
          refine framesRead_quiet fun e mem => ?_
          rcases List.mem_cons.1 mem with rfl | mem
          · exact fun same => eq (Option.some.inj same)
          · obtain ⟨call, -, rfl⟩ := List.mem_map.1 mem
            exact fun same => eq (Option.some.inj same)
        show framesRead k (c.shared.log ++ _) = _
        rw [framesRead_append, none, List.append_nil]
  | work idle running queue => exact quiet rfl rfl (ends.touched spoken (.stays _) rfl)

theorem step_written (step : step c l = some c') (spoken : Spoken c) (k : Nat) : writtenAt k c <+: writtenAt k c' := by
  have grows : ∀ {t t' : CSession} {l' : CSession.Label}, c.shared.sessions[k]? = some t →
      c'.shared.sessions[k]? = some t' → t.step l' = some t' → writtenAt k c <+: writtenAt k c' := by
    intro t t' l' before after stepped
    rw [writtenAt, writtenAt, before, after]
    exact Channel.written_grows (CSession.step_started stepped (spoken.sessions k t before).1.fresh)
  obtain ⟨new, -, session⟩ := step_session step spoken.once k
  cases session with
  | touches touches quiet =>
    cases after : c'.shared.sessions[k]? with
    | none =>
      rw [writtenAt, touches.absent after]
      exact List.nil_prefix
    | some t' =>
      rcases touches.step after with same | ⟨fresh, -⟩ | ⟨t, task, before, stepped, -⟩
      · have unchanged : writtenAt k c = writtenAt k c' := by rw [writtenAt, writtenAt, same, after]
        exact unchanged ▸ List.prefix_refl _
      · rw [writtenAt, fresh]
        exact List.nil_prefix
      · exact grows before after stepped
  | @completes t i ec frame ch before done after =>
    have stepped : t.step (.complete i ec frame) = some { t with toChannel := ch } := by
      simp only [CSession.step, done, Option.map_some]
    exact grows before after stepped
  | @runs t sni t' calls h rest before front ran after =>
    have stepped : t.step (.run true sni) = some t' := by simp only [CSession.step, ran, Option.map_some]
    exact grows before after stepped

/-- What is on the wire was accepted. -/
theorem Endpoint.written_prefix (ends : Endpoint k c accepted passed) : writtenAt k c <+: accepted.map frameOf := by
  rw [writtenAt]
  cases found : c.shared.sessions[k]? with
  | none => exact List.nil_prefix
  | some t =>
    obtain ⟨⟨written, kept⟩, -⟩ := ends.present t found
    exact kept.ledger.written_prefix

/-- What was read had been taken from the wire. -/
theorem Endpoint.read_prefix (ends : Endpoint k c accepted passed) (spoken : Spoken c) :
    framesRead k c.shared.log <+: passed := by
  cases found : c.shared.sessions[k]? with
  | none =>
    rw [(spoken.absent k found).2]
    exact List.nil_prefix
  | some t =>
    rw [← (ends.present t found).2]
    exact List.prefix_append _ _

/-! ## From the wire to the callbacks -/

/-- The frame that a callback is told of. -/
def Notice.frame? : Notice → Option Frame
  | message m => some ⟨true, m⟩
  | content m => some ⟨false, m⟩
  | _ => none

/-- The message and the content callbacks invoked on behalf of session `k`, each with the frame it was told of. -/
def received (k : Nat) (log : List Event) : List (Fn × Frame) :=
  log.filterMap fun
    | .invoked k' cb notice => if k' = k then notice.frame?.map (cb, ·) else none
    | _ => none

/-- From the time session `k` exists the message callback is `f` and the content callback is `g`. -/
def Listens (f g : Fn) (k : Nat) (c : Running) : Prop :=
  c.shared.sessions[k]? = none ∨ c.shared.mOnMessage = some f ∧ c.shared.mOnContent = some g

instance (f g : Fn) (k : Nat) (c : Running) : Decidable (Listens f g k c) :=
  decidable_of_iff (c.shared.sessions[k]?.isNone = true ∨ c.shared.mOnMessage = some f ∧ c.shared.mOnContent = some g)
    (by rw [Option.isNone_iff_eq_none]; rfl)

/-- The callback is the right one for what it is told. -/
def Suits (f g : Fn) (cb : Fn) (notice : Notice) : Prop :=
  ∀ frame, notice.frame? = some frame → (cb, frame) = invocation f g frame

/-- What a piece posts or invokes for session `k`. -/
def Action.tells (k : Nat) : Action → Option (Fn × Notice)
  | post k' cb notice | invokeCallback k' cb notice => if k' = k then some (cb, notice) else none
  | _ => none

/-- Frames of session `k` meet the right callbacks only. -/
structure Suited (f g : Fn) (k : Nat) (c : Running) : Prop where
  pieces : ∀ j q b x, c.At j q b → b.tells k = some x → Suits f g x.1 x.2
  queue : ∀ p ∈ c.shared.mWorkQueue.mQueue, p.session = k → Suits f g p.cb p.notice
  invoked : ∀ cb notice, .invoked k cb notice ∈ c.shared.log → Suits f g cb notice

variable {f g : Fn} {a : Action} {outs : List Action} {s s' : Client}

/-- A posting comes from the lookup of its callback. -/
theorem exec_post {flag : Bool} {i : Nat} {cb : Fn} {notice : Notice} (done : exec flag c i a = some (s', outs))
    (mem : .post k cb notice ∈ outs) :
    a.announces = some (k, notice) ∧ c.shared.callbackFor notice = some cb := by
  have announces := (exec_does done).passes mem rfl
  have relayed : ∀ {found : Option Fn} {j : Nat} {n : Notice}, some (c.shared, relay found j n) = some (s', outs) →
      c.shared.callbackFor n = found → c.shared.callbackFor notice = some cb := by
    intro found j n same callback
    cases same
    obtain ⟨fn, isSet, eq⟩ := List.mem_map.1 mem
    cases eq
    exact callback.trans (Option.mem_toList.1 isSet)
  refine ⟨announces, ?_⟩
  cases a with
  | notifyConnected j => exact relayed done rfl
  | onSessionMessage j message => exact relayed done rfl
  | onSessionContent j content => exact relayed done rfl
  | onSessionDisconnect j => exact relayed done rfl
  | onConnectComplete j handler success =>
    cases done
    rcases List.mem_append.1 mem with mem | mem
    · cases success <;> simp at mem
    · obtain ⟨promise, -, eq⟩ := List.mem_map.1 mem
      cases eq
  | post j cb' notice' =>
    cases done
    cases mem
  | _ => cases announces

theorem suits_of_callback {notice : Notice} {cb : Fn} (set : s.mOnMessage = some f ∧ s.mOnContent = some g)
    (callback : s.callbackFor notice = some cb) : Suits f g cb notice := by
  intro frame told
  cases notice with
  | message m =>
    cases told
    cases set.1.symm.trans callback
    rfl
  | content m =>
    cases told
    cases set.2.symm.trans callback
    rfl
  | _ => cases told

/-- Only `invokeCallback` invokes, and only `post` posts. -/
theorem Does.invoked {cb : Fn} {notice : Notice} (does : Does s a s' outs) (mem : .invoked k cb notice ∈ s'.log) :
    .invoked k cb notice ∈ s.log ∨ a = .invokeCallback k cb notice := by
  cases does with
  | aside aside spares asides =>
    obtain ⟨new, log, quiet⟩ := spares.log
    rw [log] at mem
    exact .inl ((List.mem_append.1 mem).resolve_right fun new => nomatch quiet _ new)
  | installSession args =>
    rw [installSession_log] at mem
    exact .inl mem
  | post j cb' notice' =>
    refine .inl ((List.mem_append.1 mem).resolve_right fun new => ?_)
    cases List.mem_singleton.1 new
  | invokeCallback j cb' notice' asides =>
    rcases List.mem_append.1 mem with old | new
    · exact .inl old
    · cases List.mem_singleton.1 new
      exact .inr rfl
  | _ => exact .inl mem

theorem Does.queued {p : Posted} (does : Does s a s' outs) (mem : p ∈ s'.mWorkQueue.mQueue) :
    p ∈ s.mWorkQueue.mQueue ∨ a = .post p.session p.cb p.notice := by
  cases does with
  | aside aside spares asides =>
    rw [spares.queue] at mem
    exact .inl mem
  | installSession args =>
    have queue : (s.installSession args).1.mWorkQueue = s.mWorkQueue := by
      simp only [Client.installSession]
      split <;> rfl
    rw [queue] at mem
    exact .inl mem
  | post j cb notice =>
    simp only [Client.post, record, setQueue, CWorkQueue.post] at mem
    split at mem
    · exact .inl mem
    · rcases List.mem_append.1 mem with old | new
      · exact .inl old
      · cases List.mem_singleton.1 new
        exact .inr rfl
  | stopQueue onWorker asides => cases mem
  | _ => exact .inl mem

theorem Suited.run {flag : Bool} {i : Nat} {o : Owner} {rest : List Action} (suited : Suited f g k c)
    (ran : Tasks.Ran (exec flag) c i c' o a rest outs)
    (set : ∀ notice frame, a.announces = some (k, notice) → notice.frame? = some frame →
      c.shared.mOnMessage = some f ∧ c.shared.mOnContent = some g) : Suited f g k c' := by
  have does := exec_does ran.action
  refine ⟨fun j q b x here tells => ?_, fun p mem mine => ?_, fun cb notice mem => ?_⟩
  · rcases ran.at_inv here with old | ⟨-, -, mem⟩
    · exact suited.pieces j q b x old tells
    · cases b with
      | post k' cb notice =>
        simp only [Action.tells] at tells
        split at tells
        · next eq =>
          cases tells
          subst eq
          obtain ⟨announces, callback⟩ := exec_post ran.action mem
          exact fun frame told => suits_of_callback (set notice frame announces told) callback frame told
        · cases tells
      | invokeCallback k' cb notice => cases does.line.1 _ mem
      | _ => cases tells
  · rcases does.queued mem with old | rfl
    · exact suited.queue p old mine
    · exact suited.pieces i o _ (p.cb, p.notice) ran.at_head (if_pos mine)
  · rcases does.invoked mem with old | rfl
    · exact suited.invoked cb notice old
    · exact suited.pieces i o _ (cb, notice) ran.at_head (if_pos rfl)

/-- Nothing posted, queued or invoked. -/
theorem Suited.spawn {o : Owner} {todo : List Action} (suited : Suited f g k c)
    (queue : ∀ p ∈ s'.mWorkQueue.mQueue, p ∈ c.shared.mWorkQueue.mQueue)
    (log : ∀ cb notice, .invoked k cb notice ∈ s'.log → .invoked k cb notice ∈ c.shared.log)
    (silent : ∀ b ∈ todo, ∀ x, b.tells k = some x → Suits f g x.1 x.2) :
    Suited f g k (Tasks.spawn { c with shared := s' } o todo) := by
  refine ⟨fun j q b x here tells => ?_, fun p mem => suited.queue p (queue p mem),
    fun cb notice mem => suited.invoked cb notice (log cb notice mem)⟩
  rcases Tasks.at_spawn.1 here with old | ⟨-, -, mem⟩
  · exact suited.pieces j q b x old tells
  · exact silent b mem x tells

theorem tells_aside (aside : a.isAside = true) : a.tells k = none := by
  cases a with
  | post k' cb notice => cases aside
  | invokeCallback k' cb notice => cases aside
  | _ => rfl

theorem step_suited (step : step c l = some c') (suited : Suited f g k c)
    (set : ∀ j q b notice frame, c.At j q b → b.announces = some (k, notice) → notice.frame? = some frame →
      c.shared.mOnMessage = some f ∧ c.shared.mOnContent = some g) : Suited f g k c' := by
  cases step_steps step with
  | api call asides =>
    refine suited.spawn (fun _ => id) (fun _ _ => id) fun b mem x tells => ?_
    rw [tells_aside (asides b mem)] at tells
    cases tells
  | run ran does => exact suited.run ran fun notice frame => set _ _ _ notice frame ran.at_head
  | complete found done => exact ⟨suited.pieces, suited.queue, suited.invoked⟩
  | @strand j sni t t' calls h rest idle found front ran =>
    refine suited.spawn (fun _ => id) (fun cb notice mem => ?_) fun b mem x tells => ?_
    · refine (List.mem_append.1 mem).resolve_right fun new => ?_
      rcases List.mem_cons.1 new with eq | new
      · cases eq
      · obtain ⟨call, -, eq⟩ := List.mem_map.1 new
        cases eq
    · obtain ⟨call, -, rfl⟩ := List.mem_map.1 mem
      cases call <;> cases tells
  | @work posted rest idle running queue =>
    have head : posted ∈ c.shared.mWorkQueue.mQueue := queue ▸ List.mem_cons_self
    refine suited.spawn (fun p mem => queue ▸ List.mem_cons_of_mem _ mem) (fun _ _ => id) fun b mem x tells => ?_
    rw [List.mem_singleton.1 mem] at tells
    simp only [Action.tells] at tells
    split at tells
    · next mine =>
      cases tells
      exact suited.queue posted head mine
    · cases tells

/-- The frames of session `k`. -/
def frameFor (k j : Nat) (notice : Notice) : Bool := j == k && notice.frame?.isSome

/-- The way of a frame of session `k` from its handler to the callback. -/
structure Receives (f g : Fn) (k : Nat) (c : Running) : Prop where
  spoken : Spoken c
  relayed : Relayed (frameFor k) c
  delivered : Delivered c
  suited : Suited f g k c

theorem create_receives (sslContext : Bool) (handshakeTimeoutS : Nat) :
    Receives f g k (create sslContext handshakeTimeoutS) where
  spoken := create_spoken sslContext handshakeTimeoutS
  relayed := create_relayed sslContext handshakeTimeoutS
  delivered := (create_traced sslContext handshakeTimeoutS).delivered
  suited := by
    refine ⟨fun j q b x pending => ?_, (fun p mem => nomatch mem), (fun cb notice mem => nomatch mem)⟩
    obtain ⟨t, found, -, -⟩ := pending
    cases found

/-- What is still to be posted for a session was said by it. -/
theorem Relayed.present {p : Nat → Notice → Bool} {j : Nat} {q : Owner} {x : Nat × Notice} (rel : Relayed p c)
    (inv : Spoken c) (pending : c.At j q a) (announces : a.announces = some x) (picked : p x.1 x.2 = true) :
    c.shared.sessions[x.1]? ≠ none := by
  have here : x.2 ∈ c.pending (Action.announcesOf p x.1) := by
    refine Tasks.mem_pending.2 ⟨j, q, a, pending, ?_⟩
    simp [Action.announcesOf, Action.announcesFor, announces, picked]
  have heard : x.2 ∈ (spoken x.1 c.shared.log).filter (p x.1) := by
    rw [← rel.posted x.1]
    exact List.mem_append_right _ here
  intro gone
  rw [(inv.absent x.1 gone).1] at heard
  cases heard

theorem step_receives (step : step c l = some c') (beast : BeastOk c l) (listens : Listens f g k c)
    (receives : Receives f g k c) : Receives f g k c' := by
  have set : ∀ j q b notice frame, c.At j q b → b.announces = some (k, notice) → notice.frame? = some frame →
      c.shared.mOnMessage = some f ∧ c.shared.mOnContent = some g := by
    intro j q b notice frame pending announces told
    refine listens.resolve_left (receives.relayed.present receives.spoken pending announces ?_)
    simp [frameFor, told]
  refine ⟨step_spoken step beast receives.spoken, step_relayed step receives.relayed ?_,
    step_delivered step receives.delivered, step_suited step receives.suited set⟩
  rintro j q b ⟨k', notice⟩ pending announces picked
  simp only [frameFor, Bool.and_eq_true, beq_iff_eq] at picked
  obtain ⟨rfl, told⟩ := picked
  obtain ⟨frame, told⟩ := Option.isSome_iff_exists.1 told
  obtain ⟨message, content⟩ := set j q b notice frame pending announces told
  cases notice with
  | message m => simp [callbackFor, message]
  | content m => simp [callbackFor, content]
  | _ => cases told

/-! ## The callbacks of a session -/

theorem received_eq {log : List Event} (suits : ∀ cb notice, .invoked k cb notice ∈ log → Suits f g cb notice) :
    received k log = ((Client.delivered k log).filterMap Notice.frame?).map (invocation f g) := by
  induction log with
  | nil => rfl
  | cons e log ih =>
    have later := ih fun cb notice mem => suits cb notice (List.mem_cons_of_mem _ mem)
    have one : received k [e] = ((Client.delivered k [e]).filterMap Notice.frame?).map (invocation f g) := by
      cases e with
      | invoked k' cb notice =>
        by_cases eq : k' = k
        · subst eq
          have right := suits cb notice List.mem_cons_self
          cases told : notice.frame? with
          | none => simp [received, Client.delivered, ofSession, deliveries, told]
          | some frame => simp [received, Client.delivered, ofSession, deliveries, told, right frame told]
        · simp [received, Client.delivered, ofSession, deliveries, eq]
      | _ => rfl
    have split : Client.delivered k (e :: log) = Client.delivered k [e] ++ Client.delivered k log := by
      rw [Client.delivered, ← List.singleton_append, deliveries_append, ofSession_append]
      rfl
    rw [split, List.filterMap_append, List.map_append, ← later, ← one]
    exact List.filterMap_append (l := [e])

theorem told_frame (frame : Frame) : (told frame).frame? = some frame := by
  obtain ⟨isText, data⟩ := frame
  cases isText <;> rfl

/-- What a session says of frames is a beginning of those it read. -/
theorem Spoken.frames (inv : Spoken c) (k : Nat) :
    (Client.spoken k c.shared.log).filterMap Notice.frame? <+: framesRead k c.shared.log := by
  cases found : c.shared.sessions[k]? with
  | none =>
    rw [(inv.absent k found).1]
    exact List.nil_prefix
  | some t =>
    rcases (inv.sessions k t found).2.spoken_begins with failed | talked
    · exact (failed.filterMap Notice.frame?).trans List.nil_prefix
    · have frames := talked.filterMap Notice.frame?
      have every : ((framesRead k c.shared.log).map told).filterMap Notice.frame? = framesRead k c.shared.log := by
        rw [List.filterMap_map, show Notice.frame? ∘ told = some from funext told_frame, List.filterMap_some]
      rw [List.filterMap_append, List.filterMap_cons_none rfl, every] at frames
      exact (List.append_nil (framesRead k c.shared.log)) ▸ frames

theorem Receives.received_prefix (receives : Receives f g k c) :
    received k c.shared.log <+: (framesRead k c.shared.log).map (invocation f g) := by
  have invoked : deliveries c.shared.log <+: postings c.shared.log := by
    refine List.IsPrefix.trans ?_ receives.delivered.inOrder
    rw [line, List.append_assoc]
    exact List.prefix_append _ _
  have picked : ∀ notices : List Notice, (notices.filter (frameFor k k)).filterMap Notice.frame? =
      notices.filterMap Notice.frame? := by
    intro notices
    rw [List.filterMap_filter]
    congr 1
    funext notice
    cases told : notice.frame? <;> simp [frameFor, told]
  have posted : (ofSession k (postings c.shared.log)).filterMap Notice.frame? <+:
      (Client.spoken k c.shared.log).filterMap Notice.frame? := by
    rw [← picked, ← picked (Client.spoken k c.shared.log), ← receives.relayed.posted k, List.filterMap_append]
    exact List.prefix_append _ _
  rw [received_eq receives.suited.invoked]
  exact ((((invoked.filterMap _).filterMap _).trans posted).trans (receives.spoken.frames k)).map _

end Client

end Websockets
