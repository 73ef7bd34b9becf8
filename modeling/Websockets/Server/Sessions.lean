import Websockets.Server.Closed
import Websockets.Session.WsHandlers

/-!
# Sessions and the registry

A session's accept passes through phases: before it, inside `RegisterWsClient`, on the way back from
it, and after it. `Agrees` ties a session to the registry in each of them, with the closes that are
still on their way to its strand. The history supplies what the registry forgets: the id a session
was entered under and the operation that took it out.
-/

namespace Websockets

open Std Lib

namespace Server

open CImpl

/-- The piece enters session `k`. -/
def isCall (k : Nat) : Action → Bool
  | .registerWsClient j _ _ => j == k
  | _ => false

/-- The piece brings session `k` the result. -/
def isReturn (k : Nat) : Action → Bool
  | .registered j _ => j == k
  | _ => false

/-- Session `k` was entered under `id`. -/
def Listed (c : Running) (k : Nat) (id : UInt32) : Prop := .registered k id ∈ c.shared.log

/-- The client `id` was taken out by operation `j`. -/
def Left (c : Running) (how : Removal) (j : Nat) (id : UInt32) : Prop := .removed how j id ∈ c.shared.log

/-- A close of session `k` is still to be posted by operation `j`. -/
def Closing (c : Running) (j k : Nat) : Prop := ∃ o, c.At j o (.sessionClose k)

/-- The strand of session `k` is on its way to `OnWsClosed`. -/
def Reporting (c : Running) (k : Nat) (id : UInt32) : Prop := ∃ j, c.At j (.strand k) (.onWsClosed id)

/-- How far the accept of session `k` has come. -/
inductive Phase (c : Running) (k : Nat) (t : CWsSession) : Prop
  | before (idle : t.registering = false) (closed : t.mOpen = false) (clientId : t.mClientId = 0)
      (unlisted : ∀ id, ¬ Listed c k id) (calls : c.count (isCall k) = 0) (returns : c.count (isReturn k) = 0)
      (single : t.openings ≤ 1)
  | calling (busy : t.registering = true) (opened : t.mOpen = true) (clientId : t.mClientId = 0)
      (unlisted : ∀ id, ¬ Listed c k id) (calls : c.count (isCall k) = 1) (returns : c.count (isReturn k) = 0)
      (spent : t.openings = 0)
  | returning (result : UInt32) (busy : t.registering = true) (opened : t.mOpen = true) (clientId : t.mClientId = 0)
      (listed : ∀ id, Listed c k id ↔ id = result ∧ id ≠ 0) (calls : c.count (isCall k) = 0)
      (returns : c.count (isReturn k) = 1)
      (brings : ∀ j o id, c.At j o (.registered k id) → id = result) (spent : t.openings = 0)
  | done (idle : t.registering = false) (listed : ∀ id, Listed c k id ↔ id = t.mClientId ∧ id ≠ 0)
      (calls : c.count (isCall k) = 0) (returns : c.count (isReturn k) = 0) (spent : t.openings = 0)
      (rejected : t.mClientId = 0 → t.mCloseRequested = true)

/-- Session `k` and the registry agree. -/
structure Agrees (c : Running) (k : Nat) (t : CWsSession) : Prop where
  phase : Phase c k t
  /-- A close comes from `Stop` or `RemoveClient`, or from a rejection. -/
  closing : (t.mCloseRequested = true ∨ t.closePosted ∨ ∃ j, Closing c j k) →
    (∃ how j id, how ≠ .onWsClosed ∧ Left c how j id ∧ Listed c k id) ∨
      t.registering = false ∧ t.openings = 0 ∧ ∀ id, ¬ Listed c k id
  reporting : ∀ id, Reporting c k id → t.mOpen = false ∧ t.registering = false ∧ t.mClientId = id
  entry : ∀ (id : UInt32) e, c.shared.impl.mClients[id]? = some e → e.session = k →
    Listed c k id ∧ (t.mOpen = true ∨ Reporting c k id)
  /-- Who was taken out by its own `OnWsClosed` is closed; the others have a close on its way. -/
  left : ∀ how j id, Left c how j id → Listed c k id →
    how = .onWsClosed ∧ t.mOpen = false ∨
      how ≠ .onWsClosed ∧ (Closing c j k ∨ t.closePosted ∨ t.mCloseRequested = true)

/-- Nothing refers to a session that does not exist. -/
structure Absent (c : Running) (k : Nat) : Prop where
  unlisted : ∀ id, ¬ Listed c k id
  calls : c.count (isCall k) = 0
  returns : c.count (isReturn k) = 0
  closing : ∀ j, ¬ Closing c j k
  entry : ∀ (id : UInt32) e, c.shared.impl.mClients[id]? = some e → e.session ≠ k

structure Agreement (c : Running) : Prop where
  present : ∀ k t, c.shared.sessions[k]? = some t → Agrees c k t
  absent : ∀ k, c.shared.sessions[k]? = none → Absent c k
  /-- Only strands report, and each strand has its session. -/
  strands : ∀ j o id, c.At j o (.onWsClosed id) → ∃ k, o = .strand k
  owners : ∀ task ∈ c.tasks, ∀ k, task.owner = .strand k → k < c.shared.sessions.length

variable {c c' : Running} {s s' : Server} {i k : Nat} {a : Action} {outs rest : List Action} {l : Label}
  {o : Owner} {throws : Bool} {t t' : CWsSession}

/-! ## What does not concern session `k` -/

/-- Nothing about the registration of `k` changed. -/
structure SameCalls (c c' : Running) (k : Nat) : Prop where
  listed : ∀ id, Listed c' k id ↔ Listed c k id
  calls : c'.count (isCall k) = c.count (isCall k)
  returns : c'.count (isReturn k) = c.count (isReturn k)
  brings : ∀ j o id, c'.At j o (.registered k id) → c.At j o (.registered k id)

/-- Nothing about `k` changed but that its report may have found its entry gone. -/
structure Frame (c c' : Running) (k : Nat) : Prop extends SameCalls c c' k where
  left : ∀ how j id, Left c' how j id ↔ Left c how j id
  closing : ∀ j, Closing c' j k ↔ Closing c j k
  reporting : ∀ id, Reporting c' k id → Reporting c k id
  reported : ∀ id, Reporting c k id → Reporting c' k id ∨ c'.shared.impl.mClients[id]? = none
  entry : ∀ (id : UInt32) e, c'.shared.impl.mClients[id]? = some e → e.session = k →
    c.shared.impl.mClients[id]? = some e

/-- The phase depends only on what `SameCalls` keeps, and on little of the session. -/
theorem Phase.keep (phase : Phase c k t) (same : SameCalls c c' k) (registering : t'.registering = t.registering)
    (opened : t'.mOpen = t.mOpen ∨ t.registering = false ∧ t.mOpen = true)
    (asked : t.mCloseRequested = true → t'.mCloseRequested = true) (clientId : t'.mClientId = t.mClientId)
    (fewer : t'.openings ≤ t.openings) : Phase c' k t' := by
  cases phase with
  | before idle closed fresh unlisted calls returns single =>
    refine .before (registering.trans idle) ?_ (clientId.trans fresh)
      (fun id h => unlisted id ((same.listed id).1 h)) (same.calls.trans calls) (same.returns.trans returns)
      (Nat.le_trans fewer single)
    rcases opened with eq | ⟨-, was⟩
    · exact eq.trans closed
    · exact absurd (was.symm.trans closed) (by decide)
  | calling busy was fresh unlisted calls returns spent =>
    refine .calling (registering.trans busy) ?_ (clientId.trans fresh)
      (fun id h => unlisted id ((same.listed id).1 h)) (same.calls.trans calls) (same.returns.trans returns)
      (by omega)
    rcases opened with eq | ⟨idle, -⟩
    · exact eq.trans was
    · exact absurd (busy.symm.trans idle) (by decide)
  | returning result busy was fresh listed calls returns brings spent =>
    refine .returning result (registering.trans busy) ?_ (clientId.trans fresh)
      (fun id => (same.listed id).trans (listed id)) (same.calls.trans calls) (same.returns.trans returns)
      (fun j o id h => brings j o id (same.brings j o id h)) (by omega)
    rcases opened with eq | ⟨idle, -⟩
    · exact eq.trans was
    · exact absurd (busy.symm.trans idle) (by decide)
  | done idle listed calls returns spent rejected =>
    refine .done (registering.trans idle) (fun id => ?_) (same.calls.trans calls)
      (same.returns.trans returns) (by omega) ?_
    · rw [clientId]
      exact (same.listed id).trans (listed id)
    · rw [clientId]
      exact fun zero => asked (rejected zero)

theorem Phase.alike (phase : Phase c k t) (same : SameCalls c c' k) (alike : CWsSession.Alike t t') :
    Phase c' k t' := by
  have asked : t'.mCloseRequested = t.mCloseRequested := congrArg Prod.snd alike.flags
  exact phase.keep same alike.registering (.inl (congrArg Prod.fst alike.flags)) (fun h => asked.trans h)
    alike.keeps.clientId alike.keeps.openings

theorem Agrees.alike (agrees : Agrees c k t) (frame : Frame c c' k) (alike : CWsSession.Alike t t') :
    Agrees c' k t' := by
  have opened : t'.mOpen = t.mOpen := congrArg Prod.fst alike.flags
  have asked : t'.mCloseRequested = t.mCloseRequested := congrArg Prod.snd alike.flags
  refine ⟨agrees.phase.alike frame.toSameCalls alike, fun evidence => ?_, fun id report => ?_,
    fun id e present mine => ?_, fun how j id removed listed => ?_⟩
  · have before : t.mCloseRequested = true ∨ t.closePosted ∨ ∃ j, Closing c j k := by
      rcases evidence with h | h | ⟨j, h⟩
      · exact .inl (asked ▸ h)
      · exact .inr (.inl (alike.keeps.posted.1 h))
      · exact .inr (.inr ⟨j, (frame.closing j).1 h⟩)
    rcases agrees.closing before with ⟨how, j, id, other, removed, listed⟩ | ⟨idle, spent, unlisted⟩
    · exact .inl ⟨how, j, id, other, (frame.left how j id).2 removed, (frame.listed id).2 listed⟩
    · refine .inr ⟨alike.registering.trans idle, ?_, fun id h => unlisted id ((frame.listed id).1 h)⟩
      have := alike.keeps.openings
      omega
  · rw [opened, alike.registering, alike.keeps.clientId]
    exact agrees.reporting id (frame.reporting id report)
  · obtain ⟨listed, state⟩ := agrees.entry id e (frame.entry id e present mine) mine
    refine ⟨(frame.listed id).2 listed, ?_⟩
    rw [opened]
    rcases state with h | h
    · exact .inl h
    · rcases frame.reported id h with h | gone
      · exact .inr h
      · rw [gone] at present
        cases present
  · rw [opened, asked, alike.keeps.posted, frame.closing j]
    exact agrees.left how j id ((frame.left how j id).1 removed) ((frame.listed id).1 listed)

theorem Absent.frame (absent : Absent c k) (frame : Frame c c' k) : Absent c' k where
  unlisted id h := absent.unlisted id ((frame.listed id).1 h)
  calls := frame.calls.trans absent.calls
  returns := frame.returns.trans absent.returns
  closing j h := absent.closing j ((frame.closing j).1 h)
  entry id e present mine := absent.entry id e (frame.entry id e present mine) mine

/-! ## Pieces of operations that concern no client, or another session -/

/-- The piece is about the registration or the close of session `k`. -/
def concerns (k : Nat) : Action → Bool
  | .registerWsClient j _ _ | .registered j _ | .sessionClose j => j == k
  | _ => false

theorem isCall_of_concerns {b : Action} (other : concerns k b = false) : isCall k b = false := by
  cases b with
  | registerWsClient j target isSsl => exact other
  | _ => rfl

theorem isReturn_of_concerns {b : Action} (other : concerns k b = false) : isReturn k b = false := by
  cases b with
  | registered j id => exact other
  | _ => rfl

theorem concerns_light (light : a.isLight = true) : concerns k a = false := by
  cases a with
  | registerWsClient j target isSsl => cases light
  | registered j id => cases light
  | sessionClose j => cases light
  | _ => rfl

theorem countP_eq_zero_of {p : Action → Bool} (none : ∀ b ∈ outs, p b = false) : outs.countP p = 0 := by
  rw [List.countP_eq_zero]
  intro b mem
  rw [none b mem]
  exact Bool.false_ne_true

theorem SameCalls.of_ran (ran : Tasks.Ran (exec throws) c i c' o a rest outs)
    (listed : ∀ id, Listed c' k id ↔ Listed c k id) (call : isCall k a = false) (ret : isReturn k a = false)
    (calls : ∀ b ∈ outs, isCall k b = false) (rets : ∀ b ∈ outs, isReturn k b = false) : SameCalls c c' k where
  listed := listed
  calls := by
    have := ran.count (isCall k)
    rw [call, countP_eq_zero_of calls] at this
    exact this
  returns := by
    have := ran.count (isReturn k)
    rw [ret, countP_eq_zero_of rets] at this
    exact this
  brings j q id pending := by
    rcases ran.at_inv pending with old | ⟨-, -, new⟩
    · exact old
    · have := rets _ new
      simp [isReturn] at this

/-- What a piece does that concerns neither session `k` nor a removal. -/
structure Outside (s s' : Server) (k : Nat) (a : Action) (outs : List Action) : Prop where
  listed : ∀ id, .registered k id ∈ s'.log ↔ .registered k id ∈ s.log
  left : ∀ how j id, .removed how j id ∈ s'.log ↔ .removed how j id ∈ s.log
  outs : ∀ b ∈ outs, concerns k b = false ∧ ∀ id, b ≠ .onWsClosed id
  entry : ∀ (id : UInt32) e, s'.impl.mClients[id]? = some e → e.session = k → s.impl.mClients[id]? = some e
  reported : ∀ id, a = .onWsClosed id → s'.impl.mClients[id]? = none

theorem Frame.of_ran (ran : Tasks.Ran (exec throws) c i c' o a rest outs)
    (outside : Outside c.shared c'.shared k a outs) (other : concerns k a = false) : Frame c c' k where
  toSameCalls := .of_ran ran outside.listed (isCall_of_concerns other) (isReturn_of_concerns other)
    (fun b mem => isCall_of_concerns (outside.outs b mem).1) (fun b mem => isReturn_of_concerns (outside.outs b mem).1)
  left := outside.left
  closing j := by
    constructor
    · rintro ⟨q, pending⟩
      rcases ran.at_inv pending with old | ⟨-, -, new⟩
      · exact ⟨q, old⟩
      · have := (outside.outs _ new).1
        simp [concerns] at this
    · rintro ⟨q, pending⟩
      refine ⟨q, ran.at_kept pending ?_⟩
      rintro rfl
      simp [concerns] at other
  reporting id := by
    rintro ⟨j, pending⟩
    rcases ran.at_inv pending with old | ⟨-, -, new⟩
    · exact ⟨j, old⟩
    · exact absurd rfl ((outside.outs _ new).2 id)
  reported id := by
    rintro ⟨j, pending⟩
    by_cases same : a = .onWsClosed id
    · exact .inr (outside.reported id same)
    · exact .inl ⟨j, ran.at_kept pending fun eq => same eq.symm⟩
  entry := outside.entry

theorem outside_lights (lights : ∀ b ∈ outs, b.isLight = true) :
    ∀ b ∈ outs, concerns k b = false ∧ ∀ id, b ≠ .onWsClosed id := by
  intro b mem
  refine ⟨concerns_light (lights b mem), ?_⟩
  rintro id rfl
  cases lights _ mem

theorem Outside.of_same {a : Action} (log : s'.log = s.log) (clients : s'.impl.mClients = s.impl.mClients)
    (others : ∀ b ∈ outs, concerns k b = false ∧ ∀ id, b ≠ .onWsClosed id)
    (reported : ∀ id, a = .onWsClosed id → s'.impl.mClients[id]? = none) : Outside s s' k a outs where
  listed id := by rw [log]
  left how j id := by rw [log]
  outs := others
  entry id e present _ := clients ▸ present
  reported := reported

/-- The pieces that take clients out. -/
def isTaking (s : Server) : Action → Bool
  | .stop => true
  | .removeClient id | .onWsClosed id => s.impl.mClients[id]?.isSome
  | _ => false

/-- Every other piece leaves session `k` alone unless it concerns it. -/
theorem Does.outside (does : Does s i a s' outs) (kept : isTaking s a = false) (other : concerns k a = false) :
    Outside s s' k a outs := by
  cases does with
  | relay light lights =>
    refine .of_same rfl rfl (outside_lights lights) fun id eq => ?_
    rw [eq] at light
    cases light
  | startLocked done =>
    unfold CImpl.startLocked at done
    split at done
    · cases done
    · cases done
      exact .of_same rfl rfl (fun _ mem => nomatch mem) (fun _ eq => nomatch eq)
  | stop => cases kept
  | removeUnknown absent => exact .of_same rfl rfl (fun _ mem => nomatch mem) (fun _ eq => nomatch eq)
  | removeClient present => simp [isTaking, present] at kept
  | notifyClosedSync clientId uri =>
    refine .of_same rfl rfl (fun b mem => ?_) (fun _ eq => nomatch eq)
    simp only [List.mem_cons, List.not_mem_nil, or_false] at mem
    rcases mem with rfl | rfl <;> exact ⟨rfl, fun _ eq => nomatch eq⟩
  | addUri uri callbacks => exact .of_same rfl rfl (fun _ mem => nomatch mem) (fun _ eq => nomatch eq)
  | removeUri uri => exact .of_same rfl rfl (fun _ mem => nomatch mem) (fun _ eq => nomatch eq)
  | sessionSend j payload => exact .of_same rfl rfl (fun _ mem => nomatch mem) (fun _ eq => nomatch eq)
  | sessionClose j => exact .of_same rfl rfl (fun _ mem => nomatch mem) (fun _ eq => nomatch eq)
  | @reject j target isSsl rejects =>
    refine ⟨fun id => by simp, fun how m id => by simp, fun b mem => ?_, fun _ _ present _ => present,
      (fun _ eq => nomatch eq)⟩
    rw [List.mem_singleton.1 mem]
    exact ⟨other, fun _ eq => nomatch eq⟩
  | @register j target isSsl impl r done =>
    have registers := registerWsClientLocked_inv done
    have apart : k ≠ j := by
      rintro rfl
      simp [concerns] at other
    refine ⟨fun id => by simp [apart], fun how m id => by simp, fun b mem => ?_, fun id e present mine => ?_,
      (fun _ eq => nomatch eq)⟩
    · simp only [List.mem_cons, List.not_mem_nil, or_false] at mem
      rcases mem with rfl | rfl | rfl
      · exact ⟨rfl, fun _ eq => nomatch eq⟩
      · exact ⟨rfl, fun _ eq => nomatch eq⟩
      · exact ⟨other, fun _ eq => nomatch eq⟩
    · simp only [record_impl, setImpl_impl, registers.mClients, TreeMap.getElem?_insert] at present
      split at present
      · cases present
        exact absurd mine.symm apart
      · exact present
  | registered j clientId => exact .of_same rfl rfl (fun _ mem => nomatch mem) (fun _ eq => nomatch eq)
  | closedUnknown absent =>
    refine .of_same rfl rfl (fun _ mem => nomatch mem) fun id eq => ?_
    cases eq
    exact absent
  | onWsClosed present => simp [isTaking, present] at kept
  | nextConnectionId path =>
    refine .of_same rfl rfl (fun b mem => ?_) (fun _ eq => nomatch eq)
    rw [List.mem_singleton.1 mem]
    exact ⟨rfl, fun _ eq => nomatch eq⟩
  | postCallback cbs notice =>
    exact ⟨fun id => by simp, fun how m id => by simp, (fun _ mem => nomatch mem), fun _ _ present _ => present,
      (fun _ eq => nomatch eq)⟩
  | unset notice =>
    exact ⟨fun id => by simp, fun how m id => by simp, (fun _ mem => nomatch mem), fun _ _ present _ => present,
      (fun _ eq => nomatch eq)⟩
  | invoke fn notice lights =>
    exact ⟨fun id => by simp, fun how m id => by simp, outside_lights lights, fun _ _ present _ => present,
      (fun _ eq => nomatch eq)⟩
  | returned notice => exact .of_same rfl rfl (fun _ mem => nomatch mem) (fun _ eq => nomatch eq)
  | call fn rest notice left =>
    refine ⟨fun id => by simp, fun how m id => by simp, ?_, fun _ _ present _ => present,
      (fun _ eq => nomatch eq)⟩
    rcases left with rfl | lights
    · intro b mem
      rw [List.mem_singleton.1 mem]
      exact ⟨rfl, fun _ eq => nomatch eq⟩
    · exact outside_lights lights
  | shutdown onWorker =>
    refine .of_same rfl rfl (fun b mem => ?_) (fun _ eq => nomatch eq)
    simp only [List.mem_cons, List.not_mem_nil, or_false] at mem
    rcases mem with rfl | rfl <;> exact ⟨rfl, fun _ eq => nomatch eq⟩
  | stopQueue onWorker lights => exact .of_same rfl rfl (outside_lights lights) (fun _ eq => nomatch eq)
  | logError line =>
    exact ⟨fun id => by simp, fun how m id => by simp, (fun _ mem => nomatch mem), fun _ _ present _ => present,
      (fun _ eq => nomatch eq)⟩

/-! ## Taking clients out -/

/-- What `Stop`, `RemoveClient` and `OnWsClosed` do when they take clients out. -/
structure Takes (s s' : Server) (i : Nat) (a : Action) (outs : List Action) (how : Removal) : Prop where
  listed : ∀ k id, .registered k id ∈ s'.log ↔ .registered k id ∈ s.log
  left : ∀ how' j id, .removed how' j id ∈ s'.log ↔ .removed how' j id ∈ s.log ∨
    how' = how ∧ j = i ∧ s.impl.mClients[id]?.isSome ∧ s'.impl.mClients[id]? = none
  entry : ∀ (id : UInt32) e, s'.impl.mClients[id]? = some e → s.impl.mClients[id]? = some e
  closes : how ≠ .onWsClosed → ∀ (id : UInt32) e, s.impl.mClients[id]? = some e → s'.impl.mClients[id]? = none →
    .sessionClose e.session ∈ outs
  only : ∀ k, .sessionClose k ∈ outs → how ≠ .onWsClosed ∧
    ∃ (id : UInt32) (e : SClientEntry), s.impl.mClients[id]? = some e ∧ e.session = k ∧ s'.impl.mClients[id]? = none
  outs : ∀ b ∈ outs, ∀ k, isCall k b = false ∧ isReturn k b = false ∧ ∀ id, b ≠ .onWsClosed id
  piece : ∀ k, concerns k a = false
  report : ∀ id, a = .onWsClosed id → s'.impl.mClients[id]? = none
  /-- Its own `OnWsClosed` takes out only the client it reports. -/
  own : how = .onWsClosed → ∃ clientId, a = .onWsClosed clientId ∧
    ∀ id : UInt32, s.impl.mClients[id]?.isSome → s'.impl.mClients[id]? = none → id = clientId

theorem getElem?_eraseClient {impl : CImpl} (clientId : UInt32) (entry : SClientEntry) (id : UInt32) :
    (impl.eraseClient clientId entry).1.mClients[id]? =
      if clientId = id then none else impl.mClients[id]? := by
  rw [eraseClient_mClients, TreeMap.getElem?_erase]
  simp only [LawfulEqCmp.compare_eq_iff_eq]

theorem stop_takes : Takes s (s.stop i).1 i .stop (s.stop i).2 .stop := by
  have empty : ∀ id : UInt32, (s.stop i).1.impl.mClients[id]? = none := by
    intro id
    simp [stopLocked]
  refine ⟨fun k id => by simp, fun how' j id => ?_, fun id e present => ?_, fun _ id e present _ => ?_,
    fun k mem => ?_, fun b mem k => ?_, fun k => rfl, (fun _ eq => by cases eq), (fun eq => by cases eq)⟩
  · simp only [stop_log, List.mem_append, List.mem_map, Event.removed.injEq]
    refine or_congr .rfl ⟨?_, ?_⟩
    · rintro ⟨⟨id', e⟩, mem, rfl, rfl, rfl⟩
      have present := TreeMap.mem_toList_iff_getElem?_eq_some.1 mem
      exact ⟨rfl, rfl, by simp [present], empty _⟩
    · rintro ⟨rfl, rfl, present, -⟩
      obtain ⟨e, present⟩ := Option.isSome_iff_exists.1 present
      exact ⟨(id, e), TreeMap.mem_toList_iff_getElem?_eq_some.2 present, rfl, rfl, rfl⟩
  · rw [empty] at present
    cases present
  · rw [stop_outs]
    refine List.mem_append_left _ (List.mem_map.2 ⟨(id, e), ?_, rfl⟩)
    exact TreeMap.mem_toList_iff_getElem?_eq_some.2 present
  · rw [stop_outs, List.mem_append] at mem
    rcases mem with mem | mem
    · obtain ⟨⟨id, e⟩, taken, eq⟩ := List.mem_map.1 mem
      cases eq
      exact ⟨by decide, id, e, TreeMap.mem_toList_iff_getElem?_eq_some.1 taken, rfl, empty id⟩
    · obtain ⟨e, -, eq⟩ := List.mem_map.1 mem
      cases eq
  · rw [stop_outs, List.mem_append] at mem
    rcases mem with mem | mem <;> obtain ⟨e, -, rfl⟩ := List.mem_map.1 mem <;>
      exact ⟨rfl, rfl, fun _ eq => by cases eq⟩

/-- One client was erased and the removal recorded. -/
structure Erases (s s' : Server) (i : Nat) (how : Removal) (clientId : UInt32) : Prop where
  log : s'.log = s.log ++ [.removed how i clientId]
  present : s.impl.mClients[clientId]?.isSome
  after : ∀ id : UInt32, s'.impl.mClients[id]? = if clientId = id then none else s.impl.mClients[id]?

section Erases

variable {how : Removal} {clientId : UInt32}

theorem Erases.gone (erases : Erases s s' i how clientId) : s'.impl.mClients[clientId]? = none := by
  rw [erases.after, if_pos rfl]

/-- Only the erased client is missing. -/
theorem Erases.same (erases : Erases s s' i how clientId) {id : UInt32} (some : s.impl.mClients[id]?.isSome)
    (gone : s'.impl.mClients[id]? = none) : id = clientId := by
  rw [erases.after] at gone
  split at gone
  · next eq => exact eq.symm
  · rw [gone] at some
    cases some

theorem Erases.entry (erases : Erases s s' i how clientId) {id : UInt32} {e : SClientEntry}
    (found : s'.impl.mClients[id]? = some e) : s.impl.mClients[id]? = some e := by
  rw [erases.after] at found
  split at found
  · cases found
  · exact found

theorem Erases.left (erases : Erases s s' i how clientId) (how' : Removal) (j : Nat) (id : UInt32) :
    .removed how' j id ∈ s'.log ↔ .removed how' j id ∈ s.log ∨
      how' = how ∧ j = i ∧ s.impl.mClients[id]?.isSome ∧ s'.impl.mClients[id]? = none := by
  rw [erases.log, List.mem_append, List.mem_singleton, Event.removed.injEq]
  refine or_congr .rfl ⟨?_, ?_⟩
  · rintro ⟨rfl, rfl, rfl⟩
    exact ⟨rfl, rfl, erases.present, erases.gone⟩
  · rintro ⟨rfl, rfl, some, gone⟩
    exact ⟨rfl, rfl, erases.same some gone⟩

theorem Erases.listed (erases : Erases s s' i how clientId) (k : Nat) (id : UInt32) :
    .registered k id ∈ s'.log ↔ .registered k id ∈ s.log := by
  simp [erases.log]

end Erases

theorem removeClient_takes {clientId : UInt32} {e : SClientEntry}
    (present : s.impl.mClients[clientId]? = some e) :
    Takes s ((s.setImpl (s.impl.eraseClient clientId e).1).record [.removed .removeClient i clientId]) i
      (.removeClient clientId) [.sessionClose e.session, .notifyClosedSync clientId e.uri] .removeClient := by
  have erases : Erases s ((s.setImpl (s.impl.eraseClient clientId e).1).record [.removed .removeClient i clientId])
      i .removeClient clientId := ⟨rfl, by simp [present], getElem?_eraseClient clientId e⟩
  refine ⟨erases.listed, erases.left, fun _ _ found => erases.entry found, fun _ id e' found gone => ?_,
    fun k mem => ?_, fun b mem k => ?_, fun k => rfl, (fun _ eq => nomatch eq), (fun eq => nomatch eq)⟩
  · obtain rfl := erases.same (by simp [found]) gone
    cases present.symm.trans found
    exact List.mem_cons_self
  · simp only [List.mem_cons, List.not_mem_nil, or_false] at mem
    rcases mem with eq | eq
    · cases eq
      exact ⟨by decide, clientId, e, present, rfl, erases.gone⟩
    · cases eq
  · simp only [List.mem_cons, List.not_mem_nil, or_false] at mem
    rcases mem with rfl | rfl <;> exact ⟨rfl, rfl, fun _ eq => nomatch eq⟩

theorem onWsClosed_takes {clientId : UInt32} {e : SClientEntry} {cbs cbs' : List Fn} {n n' : Nat}
    (present : s.impl.mClients[clientId]? = some e) :
    Takes s
      ((s.setImpl (s.impl.eraseClient clientId e).1.countReport).record [.removed .onWsClosed i clientId]) i
      (.onWsClosed clientId)
      [.postCallback cbs (.closed clientId), .postCallback cbs' (.connectionChange e.uri n n')] .onWsClosed := by
  have erases : Erases s
      ((s.setImpl (s.impl.eraseClient clientId e).1.countReport).record [.removed .onWsClosed i clientId])
      i .onWsClosed clientId := ⟨rfl, by simp [present], getElem?_eraseClient clientId e⟩
  refine ⟨erases.listed, erases.left, fun _ _ found => erases.entry found, fun other => absurd rfl other,
    fun k mem => ?_, fun b mem k => ?_, fun k => rfl, fun id eq => ?_,
    fun _ => ⟨clientId, rfl, fun id some gone => erases.same some gone⟩⟩
  · simp at mem
  · simp only [List.mem_cons, List.not_mem_nil, or_false] at mem
    rcases mem with rfl | rfl <;> exact ⟨rfl, rfl, fun _ eq => nomatch eq⟩
  · cases eq
    exact erases.gone

theorem Does.takes (does : Does s i a s' outs) (taking : isTaking s a = true) :
    ∃ how, Takes s s' i a outs how := by
  cases does with
  | stop => exact ⟨_, stop_takes⟩
  | removeClient present => exact ⟨_, removeClient_takes present⟩
  | onWsClosed present => exact ⟨_, onWsClosed_takes present⟩
  | removeUnknown absent => simp [isTaking, absent] at taking
  | closedUnknown absent => simp [isTaking, absent] at taking
  | relay light lights =>
    cases a with
    | stop => cases light
    | removeClient id => cases light
    | onWsClosed id => cases light
    | _ => cases taking
  | _ => cases taking

/-- Two sessions entered under one id are the same. -/
theorem Books.listed_unique (books : Books c) {k j : Nat} {id : UInt32} (one : Listed c k id)
    (other : Listed c j id) : k = j := by
  have same := eq_of_countP_le_one (books.once id) one (by simp [isEnter]) other (by simp [isEnter])
  cases same
  rfl

/-- An id under which a session was entered is not 0 before the counter wraps. -/
theorem Books.listed_ne_zero (books : Books c) (bound : c.shared.impl.allocated < 2 ^ 32) {id : UInt32}
    (listed : Listed c k id) : id ≠ 0 := by
  rintro rfl
  obtain ⟨n, pos, le, same⟩ := books.numbered k 0 listed
  have := (ofNat_eq_zero n).1 same.symm
  omega

theorem Books.not_left (books : Books c) {id : UInt32} {e : SClientEntry}
    (present : c.shared.impl.mClients[id]? = some e) (how : Removal) (j : Nat) : ¬ Left c how j id := by
  intro left
  have removed := books.removed id
  have once := books.once id
  have some : 0 < c.shared.log.countP (isRemoval id) := List.countP_pos_iff.2 ⟨_, left, by simp [isRemoval]⟩
  have one : live c.shared.impl id = 1 := by simp [live, present]
  unfold Removed at removed
  omega

/-- The id of a session whose accept is over, and only that, is the one it was entered under. -/
theorem Phase.clientId_of_listed (phase : Phase c k t) (idle : t.registering = false) {id : UInt32}
    (listed : Listed c k id) : t.mClientId = id := by
  cases phase with
  | before _ _ _ unlisted => exact absurd listed (unlisted id)
  | calling busy => exact absurd (busy.symm.trans idle) (by decide)
  | returning result busy => exact absurd (busy.symm.trans idle) (by decide)
  | done _ listed' => exact ((listed' id).1 listed).1.symm

theorem Phase.listed_of_clientId (phase : Phase c k t) (nonzero : t.mClientId ≠ 0) : Listed c k t.mClientId := by
  cases phase with
  | before _ _ clientId => exact absurd clientId nonzero
  | calling _ _ clientId => exact absurd clientId nonzero
  | returning result _ _ clientId => exact absurd clientId nonzero
  | done _ listed => exact (listed _).2 ⟨rfl, nonzero⟩

/-- A session that was entered opens no more. -/
theorem Phase.spent (phase : Phase c k t) {id : UInt32} (listed : Listed c k id) : t.openings = 0 := by
  cases phase with
  | before _ _ _ unlisted => exact absurd listed (unlisted id)
  | calling _ _ _ _ _ _ spent => exact spent
  | returning result _ _ _ _ _ _ _ spent => exact spent
  | done _ _ _ _ spent => exact spent

/-- The session of an entry is the one entered under its id. -/
theorem Agreement.entry_listed (agreement : Agreement c) {id : UInt32} {e : SClientEntry}
    (present : c.shared.impl.mClients[id]? = some e) : Listed c e.session id := by
  cases found : c.shared.sessions[e.session]? with
  | none => exact absurd rfl ((agreement.absent _ found).entry id e present)
  | some t => exact ((agreement.present _ t found).entry id e present rfl).1

/-- Taking clients out keeps the agreement of every session. -/
theorem Agrees.takes {how : Removal} (agrees : Agrees c k t) (agreement : Agreement c) (books : Books c)
    (bound : c.shared.impl.allocated < 2 ^ 32) (found : c.shared.sessions[k]? = some t)
    (ran : Tasks.Ran (exec throws) c i c' o a rest outs) (takes : Takes c.shared c'.shared i a outs how) :
    Agrees c' k t := by
  have same : SameCalls c c' k := .of_ran ran (takes.listed k) (isCall_of_concerns (takes.piece k))
    (isReturn_of_concerns (takes.piece k)) (fun b mem => (takes.outs b mem k).1)
    (fun b mem => (takes.outs b mem k).2.1)
  have stays : ∀ j, Closing c j k → Closing c' j k := by
    rintro j ⟨q, pending⟩
    refine ⟨q, ran.at_kept pending ?_⟩
    rintro rfl
    have := takes.piece k
    simp [concerns] at this
  have older : ∀ {how' j id}, Left c how' j id → Left c' how' j id := fun h => (takes.left _ _ _).2 (.inl h)
  refine ⟨agrees.phase.alike same (.refl t), fun evidence => ?_, fun id => ?_, fun id e present mine => ?_,
    fun how' j id removed listed => ?_⟩
  · have old : (t.mCloseRequested = true ∨ t.closePosted ∨ ∃ j, Closing c j k) →
        (∃ how j id, how ≠ .onWsClosed ∧ Left c' how j id ∧ Listed c' k id) ∨
          t.registering = false ∧ t.openings = 0 ∧ ∀ id, ¬ Listed c' k id := by
      intro before
      rcases agrees.closing before with ⟨how', j, id, other, removed, listed⟩ | ⟨idle, spent, unlisted⟩
      · exact .inl ⟨how', j, id, other, older removed, (same.listed id).2 listed⟩
      · exact .inr ⟨idle, spent, fun id h => unlisted id ((same.listed id).1 h)⟩
    rcases evidence with h | h | ⟨j, q, pending⟩
    · exact old (.inl h)
    · exact old (.inr (.inl h))
    · rcases ran.at_inv pending with pending | ⟨-, -, new⟩
      · exact old (.inr (.inr ⟨j, q, pending⟩))
      · obtain ⟨other, id, e, present, mine, gone⟩ := takes.only k new
        refine .inl ⟨how, i, id, other, (takes.left _ _ _).2 (.inr ⟨rfl, rfl, by simp [present], gone⟩), ?_⟩
        exact (same.listed id).2 (agrees.entry id e present mine).1
  · rintro ⟨j, pending⟩
    rcases ran.at_inv pending with old | ⟨-, -, new⟩
    · exact agrees.reporting id ⟨j, old⟩
    · exact absurd rfl ((takes.outs _ new k).2.2 id)
  · obtain ⟨listed, state⟩ := agrees.entry id e (takes.entry id e present) mine
    refine ⟨(same.listed id).2 listed, ?_⟩
    rcases state with h | ⟨j, pending⟩
    · exact .inl h
    · refine .inr ⟨j, ran.at_kept pending ?_⟩
      rintro rfl
      rw [takes.report id rfl] at present
      cases present
  · have listed' := (same.listed id).1 listed
    rcases (takes.left how' j id).1 removed with old | ⟨rfl, rfl, was, gone⟩
    · rcases agrees.left how' j id old listed' with h | ⟨other, h | h⟩
      · exact .inl h
      · exact .inr ⟨other, .inl (stays j h)⟩
      · exact .inr ⟨other, .inr h⟩
    · obtain ⟨e, present⟩ := Option.isSome_iff_exists.1 was
      have mine : e.session = k := books.listed_unique (agreement.entry_listed present) listed'
      by_cases own : how' = .onWsClosed
      · -- the report comes from the strand of the session entered under the id, and that is `k`
        obtain ⟨clientId, rfl, single⟩ := takes.own own
        obtain rfl := single id was gone
        obtain ⟨m, rfl⟩ := agreement.strands j o id ran.at_head
        have lt := agreement.owners _ ran.mem m rfl
        have here : c.shared.sessions[m]? = some (c.shared.sessions.get ⟨m, lt⟩) := by simp
        have reports := (agreement.present m _ here).reporting id ⟨j, ran.at_head⟩
        have nonzero := books.listed_ne_zero bound listed'
        have theirs : Listed c m id := by
          have := (agreement.present m _ here).phase.listed_of_clientId (by rw [reports.2.2]; exact nonzero)
          rwa [reports.2.2] at this
        obtain rfl := books.listed_unique theirs listed'
        cases found.symm.trans here
        exact .inl ⟨own, reports.1⟩
      · exact .inr ⟨own, .inl ⟨o, ran.at_new (mine ▸ takes.closes own id e present gone)⟩⟩

theorem Absent.takes {how : Removal} (absent : Absent c k) (ran : Tasks.Ran (exec throws) c i c' o a rest outs)
    (takes : Takes c.shared c'.shared i a outs how) : Absent c' k := by
  have same : SameCalls c c' k := .of_ran ran (takes.listed k) (isCall_of_concerns (takes.piece k))
    (isReturn_of_concerns (takes.piece k)) (fun b mem => (takes.outs b mem k).1)
    (fun b mem => (takes.outs b mem k).2.1)
  refine ⟨fun id h => absent.unlisted id ((same.listed id).1 h), same.calls.trans absent.calls,
    same.returns.trans absent.returns, ?_, fun id e present => absent.entry id e (takes.entry id e present)⟩
  rintro j ⟨q, pending⟩
  rcases ran.at_inv pending with old | ⟨-, -, new⟩
  · exact absent.closing j ⟨q, old⟩
  · obtain ⟨-, id, e, present, mine, -⟩ := takes.only k new
    exact absent.entry id e present mine

end Server

end Websockets
