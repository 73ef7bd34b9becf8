import Websockets.Client.Attempts

/-!
# From a session to the work queue

What a session says through the calls of its handlers is posted for it in the same order: a handler says at
most one thing, which is posted before the strand runs its next handler, and nothing is dropped on the way as
long as the callback for it is set. `p` picks the sessions and the notices one is interested in.
-/

namespace Websockets

open Lib

namespace Client

/-- What session `k` has said through the calls of its handlers. -/
def spoken (k : Nat) (log : List Event) : List Notice :=
  log.filterMap fun
    | .called k' call => if k' = k then said call else none
    | _ => none

/-- Every notice posted to the work queue. -/
def postings (log : List Event) : List (Nat × Notice) :=
  log.filterMap fun
    | .posted k notice => some (k, notice)
    | _ => none

/-- Every callback invoked. -/
def deliveries (log : List Event) : List (Nat × Notice) :=
  log.filterMap fun
    | .invoked k _ notice => some (k, notice)
    | _ => none

/-- The notices for session `k`. -/
def ofSession (k : Nat) (notices : List (Nat × Notice)) : List Notice :=
  notices.filterMap fun x => if x.1 = k then some x.2 else none

/-- The callback for a notice. -/
def callbackFor (s : Client) : Notice → Option Fn
  | .connect => s.mOnConnect
  | .disconnect => s.mOnDisconnect
  | .message _ => s.mOnMessage
  | .content _ => s.mOnContent

/-- What a piece announces for session `k`. -/
def Action.announcesFor (k : Nat) (a : Action) : Option Notice :=
  a.announces.bind fun x => if x.1 = k then some x.2 else none

/-- What a piece announces for session `k`, if `p` picks it. -/
def Action.announcesOf (p : Nat → Notice → Bool) (k : Nat) (a : Action) : Option Notice := (a.announcesFor k).filter (p k)

/-- What was said and is not yet posted is being posted by the strand. -/
structure Relayed (p : Nat → Notice → Bool) (c : Running) : Prop where
  owner : ∀ j q b x, c.At j q b → b.announces = some x → q = .strand x.1
  single : ∀ k, (c.pending (Action.announcesOf p k)).length ≤ 1
  posted : ∀ k, (ofSession k (postings c.shared.log)).filter (p k) ++ c.pending (Action.announcesOf p k) =
    (spoken k c.shared.log).filter (p k)

variable {c c' : Running} {s s' : Client} {a : Action} {outs : List Action} {k : Nat} {l : Label}
  {log new : List Event} {p : Nat → Notice → Bool}

theorem spoken_append : spoken k (log ++ new) = spoken k log ++ spoken k new := List.filterMap_append

theorem postings_append : postings (log ++ new) = postings log ++ postings new := List.filterMap_append

theorem deliveries_append : deliveries (log ++ new) = deliveries log ++ deliveries new := List.filterMap_append

theorem ofSession_append (one other : List (Nat × Notice)) :
    ofSession k (one ++ other) = ofSession k one ++ ofSession k other := List.filterMap_append

theorem aside_events (quiet : ∀ e ∈ new, Event.isAside e = true) :
    postings new = [] ∧ deliveries new = [] ∧ ∀ k, spoken k new = [] := by
  refine ⟨?_, ?_, fun k => ?_⟩
  all_goals
    refine List.filterMap_eq_nil_iff.2 fun e mem => ?_
    have isAside := quiet e mem
    cases e with
    | returned promise success => rfl
    | logged line => rfl
    | _ => cases isAside

/-- A handler run neither posts nor delivers. -/
theorem handler_events (j : Nat) (handler : Handled) (calls : List SessionCall) :
    deliveries (.handled j handler :: calls.map (.called j)) = [] ∧
      postings (.handled j handler :: calls.map (.called j)) = [] := by
  constructor
  all_goals
    refine List.filterMap_eq_nil_iff.2 fun e mem => ?_
    rcases List.mem_cons.1 mem with rfl | mem
    · rfl
    · obtain ⟨call, -, rfl⟩ := List.mem_map.1 mem
      rfl

theorem spoken_quiet (quiet : ∀ e ∈ new, Event.strand? e ≠ some k) : spoken k new = [] := by
  apply List.filterMap_eq_nil_iff.2
  intro e mem
  cases e with
  | called k' call =>
    have other : k' ≠ k := fun eq => quiet _ mem (congrArg some eq)
    simp only [if_neg other]
  | _ => rfl

theorem spoken_calls (handler : Handled) (calls : List SessionCall) :
    spoken k (.handled k handler :: calls.map (.called k)) = calls.filterMap said := by
  simp only [spoken, List.filterMap_cons_none, List.filterMap_map]
  congr 1
  funext call
  simp

theorem filterMap_announcesFor (todo : List Action) :
    todo.filterMap (Action.announcesFor k) = ofSession k (todo.filterMap Action.announces) := by
  rw [ofSession, List.filterMap_filterMap]
  rfl

/-- A piece that announces nothing posts nothing. -/
theorem Does.silent (does : Does s a s' outs) (silent : a.announces = none) :
    outs.filterMap Action.announces = [] ∧ postings s'.log = postings s.log ∧ ∀ k, spoken k s'.log = spoken k s.log := by
  have nothing : outs.filterMap Action.announces = [] := by
    refine List.filterMap_eq_nil_iff.2 fun b mem => ?_
    cases announces : b.announces with
    | none => rfl
    | some x =>
      rw [does.passes mem announces] at silent
      cases silent
  refine ⟨nothing, ?_⟩
  cases does with
  | aside aside spares asides =>
    obtain ⟨new, log, quiet⟩ := spares.log
    refine ⟨?_, fun k => ?_⟩
    · rw [log, postings_append, (aside_events quiet).1, List.append_nil]
    · rw [log, spoken_append, (aside_events quiet).2.2, List.append_nil]
  | sessionPost j task aside other => exact ⟨rfl, fun _ => rfl⟩
  | doConnect host port resource promise => exact ⟨rfl, fun _ => rfl⟩
  | installSession args => exact ⟨by rw [installSession_log], fun _ => by rw [installSession_log]⟩
  | sessionAsyncConnect j args => exact ⟨rfl, fun _ => rfl⟩
  | onConnectComplete j handler success => exact ⟨rfl, fun _ => rfl⟩
  | relay cb announces isSet => exact ⟨rfl, fun _ => rfl⟩
  | post j cb notice => cases silent
  | invokeCallback j cb notice asides =>
    refine ⟨?_, fun k => ?_⟩
    · rw [record, postings_append]
      exact List.append_nil _
    · rw [record, spoken_append]
      exact List.append_nil _
  | stopQueue onWorker asides => exact ⟨rfl, fun _ => rfl⟩

/-- What `NotifyConnected` and the `OnSession...` calls leave to do: the notice, if its callback is set. -/
theorem relay_announces (cb : Option Fn) (k : Nat) (notice : Notice) :
    (relay cb k notice).filterMap Action.announces = if cb.isSome then [(k, notice)] else [] := by
  cases cb <;> rfl

/-- A piece posts what it announces, or hands it on if its callback is set. -/
theorem exec_relays {flag : Bool} {i : Nat} (done : exec flag c i a = some (s', outs)) :
    (∃ k cb notice, a = .post k cb notice ∧ s' = c.shared.post k cb notice ∧ outs = []) ∨
      (postings s'.log = postings c.shared.log ∧ (∀ k, spoken k s'.log = spoken k c.shared.log) ∧
        outs.filterMap Action.announces ⊆ a.announces.toList ∧
        ∀ x, a.announces = some x → (c.shared.callbackFor x.2).isSome = true → outs.filterMap Action.announces = [x]) := by
  have relays : ∀ {cb : Option Fn} {x : Nat × Notice}, some (c.shared, relay cb x.1 x.2) = some (s', outs) →
      a.announces = some x → c.shared.callbackFor x.2 = cb →
      postings s'.log = postings c.shared.log ∧ (∀ k, spoken k s'.log = spoken k c.shared.log) ∧
        outs.filterMap Action.announces ⊆ a.announces.toList ∧
        ∀ x, a.announces = some x → (c.shared.callbackFor x.2).isSome = true →
          outs.filterMap Action.announces = [x] := by
    intro cb x same announces callback
    cases same
    rw [relay_announces, announces]
    refine ⟨rfl, fun _ => rfl, ?_, fun y here isSet => ?_⟩
    · split
      · exact List.Subset.refl _
      · exact List.nil_subset _
    · cases here
      rw [callback] at isSet
      rw [if_pos isSet]
  by_cases silent : a.announces = none
  · obtain ⟨nothing, postings, spoken⟩ := (exec_does done).silent silent
    refine .inr ⟨postings, spoken, by rw [nothing]; exact List.nil_subset _, fun x announces => ?_⟩
    rw [silent] at announces
    cases announces
  · cases a with
    | onConnectComplete j handler success =>
      cases done
      have announced := onConnectComplete_announces j handler success
      refine .inr ⟨rfl, fun _ => rfl, by rw [announced]; exact List.Subset.refl _, fun x here _ => ?_⟩
      rw [announced, here]
      rfl
    | notifyConnected j => exact .inr (relays (x := (j, .connect)) done rfl rfl)
    | onSessionMessage j message => exact .inr (relays (x := (j, .message message)) done rfl rfl)
    | onSessionContent j content => exact .inr (relays (x := (j, .content content)) done rfl rfl)
    | onSessionDisconnect j => exact .inr (relays (x := (j, .disconnect)) done rfl rfl)
    | post j cb notice =>
      cases done
      exact .inl ⟨j, cb, notice, rfl, rfl, rfl⟩
    | _ => exact absurd rfl silent

theorem ofSession_announces (a : Action) : ofSession k a.announces.toList = (a.announcesFor k).toList := by
  unfold Action.announcesFor ofSession
  cases a.announces with
  | none => rfl
  | some x =>
    simp only [Option.toList_some, Option.bind_some]
    by_cases eq : x.1 = k
    · simp [eq]
    · simp [eq]

theorem ofCalls_announcesFor (j : Nat) (calls : List SessionCall) :
    (calls.map (ofCall j)).filterMap (Action.announcesFor k) = if j = k then calls.filterMap said else [] := by
  have each : ∀ call, (ofCall j call).announcesFor k = if j = k then said call else none := by
    intro call
    rw [Action.announcesFor, ofCall_announces]
    cases said call with
    | none => simp
    | some notice => simp
  rw [List.filterMap_map]
  by_cases eq : j = k
  · rw [if_pos eq]
    congr 1
    funext call
    rw [Function.comp_apply, each, if_pos eq]
  · rw [if_neg eq]
    refine List.filterMap_eq_nil_iff.2 fun call _ => ?_
    rw [Function.comp_apply, each, if_neg eq]

theorem filterMap_announcesOf (todo : List Action) :
    todo.filterMap (Action.announcesOf p k) = (ofSession k (todo.filterMap Action.announces)).filter (p k) := by
  rw [← filterMap_announcesFor, List.filter_filterMap]
  rfl

theorem announcesOf_toList (a : Action) :
    (a.announcesOf p k).toList = (ofSession k a.announces.toList).filter (p k) := by
  rw [ofSession_announces, Action.announcesOf]
  cases a.announcesFor k with
  | none => rfl
  | some notice =>
    cases picked : p k notice with
    | true => simp [picked]
    | false => simp [picked]

/-- What is picked of what a piece hands on. -/
theorem relays_picked (subset : outs.filterMap Action.announces ⊆ a.announces.toList)
    (whole : ∀ x, a.announces = some x → p x.1 x.2 = true → outs.filterMap Action.announces = [x]) :
    outs.filterMap (Action.announcesOf p k) = (a.announcesOf p k).toList := by
  rw [filterMap_announcesOf, announcesOf_toList]
  cases announces : a.announces with
  | none =>
    rw [announces] at subset
    rw [List.subset_nil.1 subset]
    rfl
  | some x =>
    rw [announces] at subset
    cases picked : p x.1 x.2 with
    | true =>
      rw [whole x announces picked]
      rfl
    | false =>
      have unpicked : ∀ todo : List (Nat × Notice), todo ⊆ [x] → (ofSession k todo).filter (p k) = [] := by
        intro todo sub
        refine List.filter_eq_nil_iff.2 fun notice mem => ?_
        obtain ⟨y, here, is⟩ := List.mem_filterMap.1 mem
        obtain rfl := List.mem_singleton.1 (sub here)
        split at is
        · next mine =>
          cases is
          rw [← mine, picked]
          exact Bool.false_ne_true
        · cases is
      rw [unpicked _ subset, Option.toList_some, unpicked _ (List.Subset.refl _)]

theorem Relayed.run {flag : Bool} {i : Nat} {o : Owner} {rest : List Action} (rel : Relayed p c)
    (ran : Tasks.Ran (exec flag) c i c' o a rest outs)
    (set : ∀ x, a.announces = some x → p x.1 x.2 = true → (c.shared.callbackFor x.2).isSome = true) : Relayed p c' := by
  rcases exec_relays ran.action with ⟨k', cb, notice, rfl, after, rfl⟩ | ⟨postings, spoken, subset, whole⟩
  · have log : c'.shared.log = c.shared.log ++ [.posted k' notice] := by rw [after]; rfl
    have old : ∀ {j q b}, c'.At j q b → c.At j q b := fun here =>
      (ran.at_inv here).resolve_right fun h => List.not_mem_nil h.2.2
    have here : ∀ k, Action.announcesOf p k (.post k' cb notice) = if k' = k ∧ p k notice = true then some notice else none := by
      intro k
      by_cases eq : k' = k
      · simp [Action.announcesOf, Action.announcesFor, Action.announces, eq, Option.filter_some]
      · simp [Action.announcesOf, Action.announcesFor, Action.announces, eq]
    refine ⟨fun j q b x pending announces => rel.owner j q b x (old pending) announces, fun k => ?_, fun k => ?_⟩
    all_goals by_cases seen : k' = k ∧ p k notice = true
    · rw [(ran.pending_single (rel.single k) ((here k).trans (if_pos seen))).2]
      exact Nat.zero_le _
    · rw [ran.pending_same ((here k).trans (if_neg seen)) (List.forall_mem_nil _)]
      exact rel.single k
    · obtain ⟨was, now⟩ := ran.pending_single (rel.single k) ((here k).trans (if_pos seen))
      have before := rel.posted k
      have one : (ofSession k (postings [.posted k' notice])).filter (p k) = [notice] := by
        simp [ofSession, postings, seen.1, seen.2]
      rw [was] at before
      rw [now, log, postings_append, ofSession_append, spoken_append, List.filter_append, List.filter_append, ← before, one]
      rfl
    · have zero : (ofSession k (postings [.posted k' notice])).filter (p k) = [] := by
        by_cases eq : k' = k
        · have unpicked : p k notice = false := Bool.eq_false_iff.2 fun picked => seen ⟨eq, picked⟩
          simp [ofSession, postings, eq, unpicked]
        · simp [ofSession, postings, eq]
      rw [ran.pending_same ((here k).trans (if_neg seen)) (List.forall_mem_nil _), log, postings_append,
        ofSession_append, spoken_append, List.filter_append, List.filter_append, zero, List.append_nil, rel.posted k]
      exact (List.append_nil _).symm
  · have kept : ∀ k, c'.pending (Action.announcesOf p k) = c.pending (Action.announcesOf p k) := by
      intro k
      apply ran.pending_kept
      exact relays_picked subset fun x announces picked => whole x announces (set x announces picked)
    refine ⟨fun j q b x pending announces => ?_, fun k => ?_, fun k => ?_⟩
    · rcases ran.at_inv pending with old | ⟨-, rfl, mem⟩
      · exact rel.owner j q b x old announces
      · have seen := subset (List.mem_filterMap.2 ⟨b, mem, announces⟩)
        exact rel.owner i q a x ran.at_head (Option.mem_toList.1 seen)
    · rw [kept]
      exact rel.single k
    · rw [kept, postings, spoken]
      exact rel.posted k

/-- A new operation that announces nothing. -/
theorem Relayed.spawn {o : Owner} {todo : List Action} (rel : Relayed p c) (none : ∀ b ∈ todo, b.announces = none) :
    Relayed p (c.spawn o todo) := by
  have kept : ∀ k, (c.spawn o todo).pending (Action.announcesOf p k) = c.pending (Action.announcesOf p k) := by
    intro k
    rw [Tasks.pending_spawn, filterMap_announcesOf, Tasks.filterMap_eq_nil_of none]
    exact List.append_nil _
  refine ⟨fun j q b x pending announces => ?_, fun k => ?_, fun k => ?_⟩
  · rcases Tasks.at_spawn.1 pending with old | ⟨-, -, mem⟩
    · exact rel.owner j q b x old announces
    · rw [none b mem] at announces
      cases announces
  · rw [kept]
    exact rel.single k
  · rw [kept]
    exact rel.posted k

theorem ofCalls_announcesOf (j : Nat) (calls : List SessionCall) :
    (calls.map (ofCall j)).filterMap (Action.announcesOf p k) =
      if j = k then (calls.filterMap said).filter (p k) else [] := by
  rw [filterMap_announcesOf, ← filterMap_announcesFor, ofCalls_announcesFor]
  split <;> rfl

/-- While the strand is idle nothing of its session is left to be posted. -/
theorem Relayed.waits (rel : Relayed p c) (idle : c.idle (.strand k) = true) :
    c.pending (Action.announcesOf p k) = [] := by
  refine Tasks.pending_eq_nil fun i q b pending => ?_
  cases announces : b.announces with
  | none => simp [Action.announcesOf, Action.announcesFor, announces]
  | some x =>
    have other : x.1 ≠ k := by
      rintro rfl
      obtain rfl := rel.owner i q b x pending announces
      exact Tasks.not_at_of_idle idle pending
    simp [Action.announcesOf, Action.announcesFor, announces, other]

/-- The strand of session `j` runs a handler. -/
theorem Relayed.strand {j : Nat} {handler : Handled} {calls : List SessionCall} (rel : Relayed p c)
    (idle : c.idle (.strand j) = true) (once : (calls.filterMap said).length ≤ 1)
    (log : s'.log = c.shared.log ++ .handled j handler :: calls.map (.called j)) :
    Relayed p (Tasks.spawn { c with shared := s' } (.strand j) (calls.map (ofCall j))) := by
  have waits := rel.waits idle
  have pending : ∀ k, (Tasks.spawn { c with shared := s' } (.strand j) (calls.map (ofCall j))).pending
      (Action.announcesOf p k) =
        c.pending (Action.announcesOf p k) ++ if j = k then (calls.filterMap said).filter (p k) else [] := by
    intro k
    rw [Tasks.pending_spawn, ofCalls_announcesOf]
    rfl
  have postings : postings s'.log = postings c.shared.log := by
    rw [log, postings_append, (handler_events j handler calls).2, List.append_nil]
  refine ⟨fun i q b x here announces => ?_, fun k => ?_, fun k => ?_⟩
  · rcases Tasks.at_spawn.1 here with old | ⟨-, rfl, mem⟩
    · exact rel.owner i q b x old announces
    · obtain ⟨call, -, rfl⟩ := List.mem_map.1 mem
      rw [ofCall_announces] at announces
      obtain ⟨notice, -, rfl⟩ := Option.map_eq_some_iff.1 announces
      rfl
  · rw [pending]
    by_cases eq : j = k
    · subst eq
      rw [waits, if_pos rfl]
      exact Nat.le_trans (List.length_filter_le _ _) once
    · rw [if_neg eq, List.append_nil]
      exact rel.single k
  · rw [pending]
    show (ofSession k (Client.postings s'.log)).filter (p k) ++ _ = (spoken k s'.log).filter (p k)
    rw [postings, log, spoken_append, List.filter_append, ← rel.posted k, List.append_assoc]
    congr 2
    by_cases eq : j = k
    · subst eq
      rw [if_pos rfl, spoken_calls]
    · rw [if_neg eq]
      have quiet : spoken k (.handled j handler :: calls.map (.called j)) = [] := by
        refine spoken_quiet fun e mem => ?_
        rcases List.mem_cons.1 mem with rfl | mem
        · exact fun same => eq (Option.some.inj same)
        · obtain ⟨call, -, rfl⟩ := List.mem_map.1 mem
          exact fun same => eq (Option.some.inj same)
      rw [quiet]
      rfl

/-- **A step relays what sessions say**, if the callback is set for what is still to be posted. -/
theorem step_relayed (step : step c l = some c') (rel : Relayed p c)
    (set : ∀ j q b x, c.At j q b → b.announces = some x → p x.1 x.2 = true →
      (c.shared.callbackFor x.2).isSome = true) : Relayed p c' := by
  cases step_steps step with
  | api call asides => exact rel.spawn fun b mem => announces_aside (asides b mem)
  | run ran does => exact rel.run ran fun x => set _ _ _ x ran.at_head
  | complete found done => exact ⟨rel.owner, rel.single, rel.posted⟩
  | strand idle found front ran => exact rel.strand idle (said_once front ran) rfl
  | work idle running queue =>
    refine Relayed.spawn ⟨rel.owner, rel.single, rel.posted⟩ fun b mem => ?_
    rw [List.mem_singleton.1 mem]
    rfl

theorem create_relayed (sslContext : Bool) (handshakeTimeoutS : Nat) :
    Relayed p (create sslContext handshakeTimeoutS) := by
  refine ⟨fun j q b x pending => ?_, fun _ => Nat.zero_le _, fun _ => rfl⟩
  obtain ⟨t, found, -, -⟩ := pending
  cases found

end Client

end Websockets
