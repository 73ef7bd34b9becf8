import Websockets.Server.Sessions

/-!
# The registry and the sessions agree

Every step keeps `Agreement`: the accept of a session moves through its phases, a close travels from
the operation that took the client out to the strand and into the session, and a session that closes
by itself reports it.
-/

namespace Websockets

open Std Lib

namespace Server

open CImpl

variable {c c' : Running} {s s' : Server} {i k : Nat} {a : Action} {outs rest : List Action} {l : Label}
  {o : Owner} {throws : Bool} {t t' : CWsSession}

/-! ## The phases of the accept -/

/-- Frames for what concerns the registration of `k` itself: everything but the calls. -/
structure Beside (c c' : Running) (k : Nat) : Prop where
  left : ∀ how j id, Left c' how j id ↔ Left c how j id
  closing : ∀ j, Closing c' j k ↔ Closing c j k
  reporting : ∀ id, Reporting c' k id ↔ Reporting c k id

theorem Beside.of_ran (ran : Tasks.Ran (exec throws) c i c' o a rest outs)
    (left : ∀ how j id, Left c' how j id ↔ Left c how j id)
    (piece : a ≠ .sessionClose k ∧ ∀ id, a ≠ .onWsClosed id)
    (others : ∀ b ∈ outs, b ≠ .sessionClose k ∧ ∀ id, b ≠ .onWsClosed id) : Beside c c' k where
  left := left
  closing j := by
    constructor
    · rintro ⟨q, pending⟩
      rcases ran.at_inv pending with old | ⟨-, -, new⟩
      · exact ⟨q, old⟩
      · exact absurd rfl (others _ new).1
    · rintro ⟨q, pending⟩
      exact ⟨q, ran.at_kept pending piece.1.symm⟩
  reporting id := by
    constructor
    · rintro ⟨j, pending⟩
      rcases ran.at_inv pending with old | ⟨-, -, new⟩
      · exact ⟨j, old⟩
      · exact absurd rfl ((others _ new).2 id)
    · rintro ⟨j, pending⟩
      exact ⟨j, ran.at_kept pending (piece.2 id).symm⟩

/-- A session with a call pending is inside it. -/
theorem Phase.of_call (phase : Phase c k t) (some : 0 < c.count (isCall k)) :
    t.registering = true ∧ t.mOpen = true ∧ t.mClientId = 0 ∧ (∀ id, ¬ Listed c k id) ∧
      c.count (isCall k) = 1 ∧ c.count (isReturn k) = 0 ∧ t.openings = 0 := by
  cases phase with
  | before _ _ _ _ calls => omega
  | calling busy opened clientId unlisted calls returns spent =>
    exact ⟨busy, opened, clientId, unlisted, calls, returns, spent⟩
  | returning result _ _ _ _ calls => omega
  | done _ _ calls => omega

/-- A session with a result pending is on its way back. -/
theorem Phase.of_return (phase : Phase c k t) (some : 0 < c.count (isReturn k)) :
    ∃ result, t.registering = true ∧ t.mOpen = true ∧ (∀ id, Listed c k id ↔ id = result ∧ id ≠ 0) ∧
      c.count (isCall k) = 0 ∧ c.count (isReturn k) = 1 ∧
      (∀ j o id, c.At j o (.registered k id) → id = result) ∧ t.openings = 0 := by
  cases phase with
  | before _ _ _ _ _ returns => omega
  | calling _ _ _ _ _ returns => omega
  | returning result busy opened _ listed calls returns brings spent =>
    exact ⟨result, busy, opened, listed, calls, returns, brings, spent⟩
  | done _ _ _ returns => omega

/-- The counts when session `k`'s call ends in the pieces `outs`, the result being the last. -/
theorem Phase.returns {target : Bytes} {isSsl : Bool} {result : UInt32} (phase : Phase c k t)
    (ran : Tasks.Ran (exec throws) c i c' o (.registerWsClient k target isSsl) rest outs)
    (listed : ∀ id, Listed c' k id ↔ id = result ∧ id ≠ 0) (calls : outs.countP (isCall k) = 0)
    (returns : outs.countP (isReturn k) = 1) (brings : ∀ id, .registered k id ∈ outs → id = result) :
    Phase c' k t := by
  obtain ⟨busy, opened, clientId, -, one, zero, spent⟩ :=
    phase.of_call (Tasks.count_pos ran.at_head (by simp [isCall]))
  refine .returning result busy opened clientId listed ?_ ?_ (fun j q id pending => ?_) spent
  · have := ran.count (isCall k)
    simp only [isCall, beq_self_eq_true, if_true] at this
    omega
  · have := ran.count (isReturn k)
    simp only [isReturn, Bool.false_eq_true, if_false] at this
    omega
  · rcases ran.at_inv pending with old | ⟨-, -, new⟩
    · have : 0 < c.count (isReturn k) := Tasks.count_pos old (by simp [isReturn])
      omega
    · exact brings id new

/-- A session inside its registration has no close on its way, and its strand reports nothing. -/
theorem Agrees.unlisted_quiet (agrees : Agrees c k t) (busy : t.registering = true)
    (unlisted : ∀ id, ¬ Listed c k id) :
    ¬ (t.mCloseRequested = true ∨ t.closePosted ∨ ∃ j, Closing c j k) := by
  intro evidence
  rcases agrees.closing evidence with ⟨how, j, id, -, -, listed⟩ | ⟨idle, -⟩
  · exact unlisted id listed
  · exact absurd (busy.symm.trans idle) (by decide)

/-- Session `k` is entered. -/
theorem Agrees.register {target : Bytes} {isSsl : Bool} {impl : CImpl} {r : Registration} (agrees : Agrees c k t)
    (books : Books c) (numbered : c.shared.impl.Numbered) (bound : c.shared.impl.allocated + 1 < 2 ^ 32)
    (done : c.shared.impl.registerWsClientLocked k (parseTarget target).1 isSsl = some (impl, r))
    (ran : Tasks.Ran (exec throws) c i c' o (.registerWsClient k target isSsl) rest outs)
    (state : c'.shared = (c.shared.setImpl impl).record [.registered k r.clientId])
    (pieces : ∃ cbs cbs' n n' uri append, outs =
      [.postCallback cbs (.added r.clientId append isSsl), .postCallback cbs' (.connectionChange uri n n'),
        .registered k r.clientId]) : Agrees c' k t := by
  have registers := registerWsClientLocked_inv done
  obtain ⟨busy, opened, clientId, unlisted, -, -, -⟩ :=
    agrees.phase.of_call (Tasks.count_pos ran.at_head (by simp [isCall]))
  obtain ⟨cbs, cbs', n, n', uri, append, rfl⟩ := pieces
  have quiet := agrees.unlisted_quiet busy unlisted
  have fresh := numbered.nextFree bound
  have listed : ∀ id, Listed c' k id ↔ id = r.clientId ∧ id ≠ 0 := by
    intro id
    rw [Listed, state, record_log, setImpl_log, List.mem_append, List.mem_singleton, Event.registered.injEq]
    constructor
    · rintro (old | ⟨-, rfl⟩)
      · exact absurd old (unlisted id)
      · exact ⟨rfl, registers.clientId ▸ fresh.2⟩
    · rintro ⟨rfl, -⟩
      exact .inr ⟨rfl, rfl⟩
  have beside : Beside c c' k := by
    refine .of_ran ran (fun how j id => by simp [Left, state]) ⟨nofun, nofun⟩ fun b mem => ?_
    simp only [List.mem_cons, List.not_mem_nil, or_false] at mem
    rcases mem with rfl | rfl | rfl <;> exact ⟨nofun, nofun⟩
  refine ⟨agrees.phase.returns ran listed rfl (by simp [isReturn]) (fun id mem => ?_), fun evidence => ?_,
    fun id report => ?_, fun id e present mine => ?_, fun how j id removed entered => ?_⟩
  · simpa using mem
  · refine absurd ?_ quiet
    rcases evidence with h | h | ⟨j, h⟩
    · exact .inl h
    · exact .inr (.inl h)
    · exact .inr (.inr ⟨j, (beside.closing j).1 h⟩)
  · exact agrees.reporting id ((beside.reporting id).1 report)
  · rw [state, record_impl, setImpl_impl, registers.mClients, TreeMap.getElem?_insert] at present
    split at present
    · next eq =>
      obtain rfl := LawfulEqCmp.eq_of_compare eq
      exact ⟨(listed _).2 ⟨rfl, registers.clientId ▸ fresh.2⟩, .inl opened⟩
    · exact absurd (agrees.entry id e present mine).1 (unlisted id)
  · -- the id is only now drawn, so nobody can have been taken out under it
    obtain ⟨rfl, -⟩ := (listed id).1 entered
    have old := (beside.left how j _).1 removed
    have removed' := books.removed r.clientId
    have gone : live c.shared.impl r.clientId = 0 := by
      have : c.shared.impl.mClients[r.clientId]? = none := registers.clientId ▸ fresh.1
      simp [live, this]
    have some : 0 < c.shared.log.countP (isRemoval r.clientId) :=
      List.countP_pos_iff.2 ⟨_, old, by simp [isRemoval]⟩
    unfold Removed at removed'
    obtain ⟨m, mem⟩ := mem_of_enter (by omega : 0 < c.shared.log.countP (isEnter r.clientId))
    obtain ⟨n, -, le, same⟩ := books.numbered m _ mem
    rw [registers.clientId, numbered.next] at same
    have := ofNat_inj bound (by omega) same
    omega

/-- Session `k` is rejected. -/
theorem Agrees.reject {target : Bytes} {isSsl : Bool} (agrees : Agrees c k t)
    (ran : Tasks.Ran (exec throws) c i c' o (.registerWsClient k target isSsl) rest [.registered k 0])
    (state : c'.shared = c.shared.record [.rejected k]) : Agrees c' k t := by
  obtain ⟨busy, opened, clientId, unlisted, -, -, -⟩ :=
    agrees.phase.of_call (Tasks.count_pos ran.at_head (by simp [isCall]))
  have same : ∀ id, Listed c' k id ↔ Listed c k id := fun id => by simp [Listed, state]
  have beside : Beside c c' k := by
    refine .of_ran ran (fun how j id => by simp [Left, state]) ⟨nofun, nofun⟩ fun b mem => ?_
    rw [List.mem_singleton.1 mem]
    exact ⟨nofun, nofun⟩
  have listed : ∀ id, Listed c' k id ↔ id = 0 ∧ id ≠ 0 := by
    intro id
    rw [same]
    exact ⟨fun h => absurd h (unlisted id), fun h => absurd h.1 h.2⟩
  refine ⟨agrees.phase.returns ran listed rfl (by simp [isReturn]) (fun id mem => by simpa using mem),
    fun evidence => ?_, fun id report => ?_, fun id e present mine => ?_, fun how j id removed entered => ?_⟩
  · refine absurd ?_ (agrees.unlisted_quiet busy unlisted)
    rcases evidence with h | h | ⟨j, h⟩
    · exact .inl h
    · exact .inr (.inl h)
    · exact .inr (.inr ⟨j, (beside.closing j).1 h⟩)
  · exact agrees.reporting id ((beside.reporting id).1 report)
  · rw [state] at present
    exact absurd (agrees.entry id e present mine).1 (unlisted id)
  · exact absurd ((same id).1 entered) (unlisted id)

/-- The result of the registration reaches session `k`. -/
theorem Agrees.registered {clientId : UInt32} (agrees : Agrees c k t)
    (ran : Tasks.Ran (exec throws) c i c' o (.registered k clientId) rest [])
    (log : c'.shared.log = c.shared.log) (clients : c'.shared.impl.mClients = c.shared.impl.mClients) :
    Agrees c' k (t.onRegistered clientId) := by
  obtain ⟨result, busy, opened, listed, noCalls, oneReturn, brings, spent⟩ :=
    agrees.phase.of_return (Tasks.count_pos ran.at_head (by simp [isReturn]))
  obtain rfl := brings i o clientId ran.at_head
  obtain ⟨sameId, idle, openings, posted, flags⟩ := t.onRegistered_sees clientId
  have stillOpen : (t.onRegistered clientId).mOpen = true := (congrArg Prod.fst flags).trans opened
  have asked : (t.onRegistered clientId).mCloseRequested = (t.mCloseRequested || clientId == 0) :=
    congrArg Prod.snd flags
  have same : ∀ id, Listed c' k id ↔ Listed c k id := fun id => by rw [Listed, Listed, log]
  have beside : Beside c c' k :=
    .of_ran ran (fun how j id => by rw [Left, Left, log]) ⟨(fun h => by cases h), (fun _ h => by cases h)⟩ (fun _ mem => by cases mem)
  refine ⟨.done idle (fun id => ?_) ?_ ?_ (openings.trans spent) ?_, fun evidence => ?_, fun id report => ?_,
    fun id e present mine => ?_, fun how j id removed entered => ?_⟩
  · rw [same, sameId]
    exact listed id
  · have := ran.count (isCall k)
    simp only [isCall, Bool.false_eq_true, if_false, List.countP_nil] at this
    omega
  · have := ran.count (isReturn k)
    simp only [isReturn, beq_self_eq_true, if_true, List.countP_nil] at this
    omega
  · intro zero
    rw [asked, ← sameId, zero]
    simp
  · have split : (t.mCloseRequested = true ∨ t.closePosted ∨ ∃ j, Closing c j k) ∨ clientId = 0 := by
      rcases evidence with h | h | ⟨j, h⟩
      · rw [asked, Bool.or_eq_true, beq_iff_eq] at h
        exact h.imp .inl id
      · exact .inl (.inr (.inl (posted.1 h)))
      · exact .inl (.inr (.inr ⟨j, (beside.closing j).1 h⟩))
    rcases split with before | rfl
    · rcases agrees.closing before with ⟨how, j, id, other, removed, entered⟩ | ⟨wasIdle, -⟩
      · exact .inl ⟨how, j, id, other, (beside.left how j id).2 removed, (same id).2 entered⟩
      · exact absurd (busy.symm.trans wasIdle) (by decide)
    · refine .inr ⟨idle, openings.trans spent, fun id h => ?_⟩
      obtain ⟨zero, nonzero⟩ := (listed id).1 ((same id).1 h)
      exact nonzero zero
  · have := agrees.reporting id ((beside.reporting id).1 report)
    exact absurd (busy.symm.trans this.2.1) (by decide)
  · rw [clients] at present
    obtain ⟨entered, -⟩ := agrees.entry id e present mine
    exact ⟨(same id).2 entered, .inl stillOpen⟩
  · rcases agrees.left how j id ((beside.left how j id).1 removed) ((same id).1 entered) with
      ⟨-, closed⟩ | ⟨other, h | h | h⟩
    · exact absurd (opened.symm.trans closed) (by decide)
    · exact .inr ⟨other, .inl ((beside.closing j).2 h)⟩
    · exact .inr ⟨other, .inr (.inl (posted.2 h))⟩
    · exact .inr ⟨other, .inr (.inr (by rw [asked, h]; rfl))⟩

/-! ## Beginning an operation, and running a handler -/

/-- An operation begins that does not concern session `k`. -/
theorem Frame.of_spawn {todo : List Action} (log : c'.shared.log = c.shared.log)
    (impl : c'.shared.impl = c.shared.impl) (tasks : c'.tasks = (c.spawn o todo).tasks)
    (others : ∀ b ∈ todo, concerns k b = false ∧ (o = .strand k → ∀ id, b ≠ .onWsClosed id)) : Frame c c' k := by
  have pending : ∀ j q b, c'.At j q b ↔ (c.spawn o todo).At j q b := fun j q b => by
    rw [Tasks.At, Tasks.At, tasks]
  have count : ∀ p, c'.count p = (c.spawn o todo).count p := fun p => by
    rw [Tasks.count, Tasks.count, tasks]
  have calls : todo.countP (isCall k) = 0 := countP_eq_zero_of fun b mem => isCall_of_concerns (others b mem).1
  have returns : todo.countP (isReturn k) = 0 := countP_eq_zero_of fun b mem => isReturn_of_concerns (others b mem).1
  refine ⟨⟨fun id => by rw [Listed, Listed, log], ?_, ?_, fun j q id => ?_⟩, fun how j id => by rw [Left, Left, log],
    fun j => ⟨?_, ?_⟩, fun id => ?_, fun id => ?_, fun id e present _ => impl ▸ present⟩
  · rw [count, Tasks.count_spawn, calls]
    rfl
  · rw [count, Tasks.count_spawn, returns]
    rfl
  · rw [pending, Tasks.at_spawn]
    rintro (old | ⟨-, -, mem⟩)
    · exact old
    · have := (others _ mem).1
      simp [concerns] at this
  · rintro ⟨q, new⟩
    rcases Tasks.at_spawn.1 ((pending _ _ _).1 new) with old | ⟨-, -, mem⟩
    · exact ⟨q, old⟩
    · have := (others _ mem).1
      simp [concerns] at this
  · rintro ⟨q, old⟩
    exact ⟨q, (pending _ _ _).2 (Tasks.at_spawn.2 (.inl old))⟩
  · rintro ⟨j, new⟩
    rcases Tasks.at_spawn.1 ((pending _ _ _).1 new) with old | ⟨-, owner, mem⟩
    · exact ⟨j, old⟩
    · exact absurd rfl ((others _ mem).2 owner.symm id)
  · rintro ⟨j, old⟩
    exact .inl ⟨j, (pending _ _ _).2 (Tasks.at_spawn.2 (.inl old))⟩

/-- Nothing begins. -/
theorem Frame.of_tasks (log : c'.shared.log = c.shared.log) (impl : c'.shared.impl = c.shared.impl)
    (tasks : c'.tasks = c.tasks) : Frame c c' k := by
  have pending : ∀ j q b, c'.At j q b ↔ c.At j q b := fun j q b => by rw [Tasks.At, Tasks.At, tasks]
  have count : ∀ p, c'.count p = c.count p := fun p => by rw [Tasks.count, Tasks.count, tasks]
  refine ⟨⟨fun id => by rw [Listed, Listed, log], count _, count _, fun j q id => (pending _ _ _).1⟩,
    fun how j id => by rw [Left, Left, log], fun j => by simp only [Closing, pending], fun id => ?_, fun id => ?_,
    fun id e present _ => impl ▸ present⟩
  · rintro ⟨j, new⟩
    exact ⟨j, (pending _ _ _).1 new⟩
  · rintro ⟨j, old⟩
    exact .inl ⟨j, (pending _ _ _).2 old⟩

theorem ofWsCall_light {call : WsCall} (light : call.isLight = true) : (ofWsCall k call).isLight = true := by
  cases call with
  | registerWsClient target isSsl => cases light
  | onWsClosed clientId => cases light
  | onWsMessage clientId message => rfl
  | onWsContent clientId content => rfl
  | logError line => rfl

/-- A close on its way before is still accounted for after. -/
theorem Agrees.closing_of (agrees : Agrees c k t) (same : SameCalls c c' k)
    (left : ∀ how j id, Left c how j id → Left c' how j id) (registering : t'.registering = t.registering)
    (fewer : t'.openings ≤ t.openings) (evidence : t.mCloseRequested = true ∨ t.closePosted ∨ ∃ j, Closing c j k) :
    (∃ how j id, how ≠ .onWsClosed ∧ Left c' how j id ∧ Listed c' k id) ∨
      t'.registering = false ∧ t'.openings = 0 ∧ ∀ id, ¬ Listed c' k id := by
  rcases agrees.closing evidence with ⟨how, j, id, other, removed, listed⟩ | ⟨idle, spent, unlisted⟩
  · exact .inl ⟨how, j, id, other, left how j id removed, (same.listed id).2 listed⟩
  · exact .inr ⟨registering.trans idle, by omega, fun id h => unlisted id ((same.listed id).1 h)⟩

section Strand

variable {calls : List WsCall}

/-- The configuration after the strand of `k` ran a handler that made `calls`. -/
def afterHandler (c : Running) (k : Nat) (t' : CWsSession) (calls : List WsCall) : Running :=
  Tasks.spawn { c with shared := c.shared.setSession k t' } (.strand k) (calls.map (ofWsCall k))

theorem at_afterHandler {j : Nat} {q : Owner} {b : Action} : (afterHandler c k t' calls).At j q b ↔
    c.At j q b ∨ j = c.tasks.length ∧ q = .strand k ∧ b ∈ calls.map (ofWsCall k) := by
  rw [afterHandler, Tasks.at_spawn]
  rfl

theorem lights_map (light : ∀ call ∈ calls, call.isLight = true) :
    ∀ b ∈ calls.map (ofWsCall k), b.isLight = true := by
  intro b mem
  obtain ⟨call, here, rfl⟩ := List.mem_map.1 mem
  exact ofWsCall_light (light call here)

/-- A session the strand of `k` does not concern. -/
theorem frame_afterHandler {m : Nat} (apart : m ≠ k) : Frame c (afterHandler c k t' calls) m := by
  refine .of_spawn rfl rfl rfl fun b mem => ?_
  obtain ⟨call, -, rfl⟩ := List.mem_map.1 mem
  refine ⟨?_, fun eq => absurd (Owner.strand.inj eq).symm apart⟩
  cases call with
  | registerWsClient target isSsl => simpa [ofWsCall, concerns] using apart.symm
  | _ => rfl

theorem frame_afterHandler_light (light : ∀ call ∈ calls, call.isLight = true) :
    Frame c (afterHandler c k t' calls) k := by
  refine .of_spawn rfl rfl rfl fun b mem => ?_
  have here := outside_lights (k := k) (lights_map light) b mem
  exact ⟨here.1, fun _ => here.2⟩

/-- The queued close runs. -/
theorem Agrees.marks (agrees : Agrees c k t) (free : c.idle (.strand k) = true) (idle : t.registering = false)
    (clientId : t'.mClientId = t.mClientId) (openings : t'.openings ≤ t.openings) (posted : t.closePosted)
    (flags : t'.flags = (t.mOpen, true)) (idle' : t'.registering = false) :
    Agrees (afterHandler c k t' []) k t' := by
  have frame : Frame c (afterHandler c k t' []) k := frame_afterHandler_light CWsSession.light_nil
  have opened : t'.mOpen = t.mOpen := congrArg Prod.fst flags
  have asked : t'.mCloseRequested = true := congrArg Prod.snd flags
  have registering : t'.registering = t.registering := idle'.trans idle.symm
  refine ⟨agrees.phase.keep frame.toSameCalls registering (.inl opened) (fun _ => asked) clientId openings,
    fun _ => ?_, fun id report => ?_, fun id e present mine => ?_, fun how j id removed listed => ?_⟩
  · exact agrees.closing_of frame.toSameCalls (fun how j id h => (frame.left how j id).2 h) registering openings
      (.inr (.inl posted))
  · obtain ⟨j, pending⟩ := frame.reporting id report
    exact absurd pending (Tasks.not_at_of_idle free)
  · obtain ⟨listed, state⟩ := agrees.entry id e present mine
    refine ⟨(frame.listed id).2 listed, .inl ?_⟩
    rcases state with h | ⟨j, pending⟩
    · exact opened.trans h
    · exact absurd pending (Tasks.not_at_of_idle free)
  · rcases agrees.left how j id ((frame.left how j id).1 removed) ((frame.listed id).1 listed) with
      ⟨own, closed⟩ | ⟨other, -⟩
    · exact .inl ⟨own, opened.trans closed⟩
    · exact .inr ⟨other, .inr (.inr asked)⟩

/-- The accept succeeds and the strand calls `RegisterWsClient`. -/
theorem Agrees.opens (agrees : Agrees c k t) (free : c.idle (.strand k) = true) {target : Bytes} {isSsl : Bool}
    (keeps : CWsSession.Keeps t t') (flags : t'.flags = (true, t.mCloseRequested)) (busy : t'.registering = true)
    (opening : t.openings = t'.openings + 1) :
    Agrees (afterHandler c k t' [.registerWsClient target isSsl]) k t' := by
  have opened : t'.mOpen = true := congrArg Prod.fst flags
  have asked : t'.mCloseRequested = t.mCloseRequested := congrArg Prod.snd flags
  have pending : ∀ {j q b}, (afterHandler c k t' [.registerWsClient target isSsl]).At j q b →
      b ≠ .registerWsClient k target isSsl → c.At j q b := by
    intro j q b new other
    rcases at_afterHandler.1 new with old | ⟨-, -, mem⟩
    · exact old
    · exact absurd (List.mem_singleton.1 mem) other
  obtain ⟨fresh, unlisted, calls, returns, single⟩ : t.mClientId = 0 ∧ (∀ id, ¬ Listed c k id) ∧
      c.count (isCall k) = 0 ∧ c.count (isReturn k) = 0 ∧ t.openings ≤ 1 := by
    cases agrees.phase with
    | before _ _ fresh unlisted calls returns single => exact ⟨fresh, unlisted, calls, returns, single⟩
    | calling _ _ _ _ _ _ spent => omega
    | returning result _ _ _ _ _ _ _ spent => omega
    | done _ _ _ _ spent => omega
  have unlisted' : ∀ id, ¬ Listed (afterHandler c k t' [.registerWsClient target isSsl]) k id := unlisted
  refine ⟨.calling busy opened (keeps.clientId.trans fresh) unlisted' ?_ ?_ (by omega), fun evidence => ?_,
    fun id report => ?_, fun id e present mine => ?_, fun how j id _ listed => absurd listed (unlisted' id)⟩
  · rw [afterHandler, Tasks.count_spawn]
    have one : ([WsCall.registerWsClient target isSsl].map (ofWsCall k)).countP (isCall k) = 1 := by
      simp [ofWsCall, isCall]
    rw [one]
    exact congrArg (· + 1) calls
  · rw [afterHandler, Tasks.count_spawn]
    exact returns
  · -- an unopened session has no close on its way
    have before : t.mCloseRequested = true ∨ t.closePosted ∨ ∃ j, Closing c j k := by
      rcases evidence with h | h | ⟨j, q, h⟩
      · exact .inl (asked ▸ h)
      · exact .inr (.inl (keeps.posted.1 h))
      · exact .inr (.inr ⟨j, q, pending h nofun⟩)
    rcases agrees.closing before with ⟨how, j, id, -, -, listed⟩ | ⟨-, spent, -⟩
    · exact absurd listed (unlisted id)
    · omega
  · obtain ⟨j, new⟩ := report
    exact absurd (pending new nofun) (Tasks.not_at_of_idle free)
  · exact absurd (agrees.entry id e present mine).1 (unlisted id)

/-- The session closes and the strand goes on to `OnWsClosed`. -/
theorem Agrees.closes (agrees : Agrees c k t) (free : c.idle (.strand k) = true) (idle : t.registering = false)
    (keeps : CWsSession.Keeps t t') (opened : t.mOpen = true) (flags : t'.flags = (false, t.mCloseRequested))
    (idle' : t'.registering = false) {logs : List WsCall} (light : ∀ call ∈ logs, call.isLight = true) :
    Agrees (afterHandler c k t' (logs ++ [.onWsClosed t.mClientId])) k t' := by
  have closed : t'.mOpen = false := congrArg Prod.fst flags
  have asked : t'.mCloseRequested = t.mCloseRequested := congrArg Prod.snd flags
  have registering : t'.registering = t.registering := idle'.trans idle.symm
  have todo : ∀ b ∈ (logs ++ [WsCall.onWsClosed t.mClientId]).map (ofWsCall k),
      b.isLight = true ∨ b = .onWsClosed t.mClientId := by
    intro b mem
    rw [List.map_append, List.mem_append] at mem
    rcases mem with mem | mem
    · exact .inl (lights_map light b mem)
    · exact .inr (List.mem_singleton.1 mem)
  have plain : ∀ b ∈ (logs ++ [WsCall.onWsClosed t.mClientId]).map (ofWsCall k), concerns k b = false := by
    intro b mem
    rcases todo b mem with light | rfl
    · exact concerns_light light
    · rfl
  have same : SameCalls c (afterHandler c k t' (logs ++ [.onWsClosed t.mClientId])) k := by
    refine ⟨fun _ => .rfl, ?_, ?_, fun j q id new => ?_⟩
    · rw [afterHandler, Tasks.count_spawn, countP_eq_zero_of fun b mem => isCall_of_concerns (plain b mem)]
      rfl
    · rw [afterHandler, Tasks.count_spawn, countP_eq_zero_of fun b mem => isReturn_of_concerns (plain b mem)]
      rfl
    · rcases at_afterHandler.1 new with old | ⟨-, -, mem⟩
      · exact old
      · have := plain _ mem
        simp [concerns] at this
  have closing : ∀ j, Closing (afterHandler c k t' (logs ++ [.onWsClosed t.mClientId])) j k ↔ Closing c j k := by
    intro j
    constructor
    · rintro ⟨q, new⟩
      rcases at_afterHandler.1 new with old | ⟨-, -, mem⟩
      · exact ⟨q, old⟩
      · have := plain _ mem
        simp [concerns] at this
    · rintro ⟨q, old⟩
      exact ⟨q, at_afterHandler.2 (.inl old)⟩
  refine ⟨agrees.phase.keep same registering (.inr ⟨idle, opened⟩) (fun h => asked.trans h) keeps.clientId
    keeps.openings, fun evidence => ?_, fun id report => ?_, fun id e present mine => ?_,
    fun how j id removed listed => ?_⟩
  · refine agrees.closing_of same (fun _ _ _ h => h) registering keeps.openings ?_
    rcases evidence with h | h | ⟨j, h⟩
    · exact .inl (asked ▸ h)
    · exact .inr (.inl (keeps.posted.1 h))
    · exact .inr (.inr ⟨j, (closing j).1 h⟩)
  · obtain ⟨j, new⟩ := report
    rcases at_afterHandler.1 new with old | ⟨-, -, mem⟩
    · exact absurd old (Tasks.not_at_of_idle free)
    · rcases todo _ mem with light | eq
      · cases light
      · cases eq
        exact ⟨closed, idle', keeps.clientId⟩
  · obtain ⟨listed, -⟩ := agrees.entry id e present mine
    refine ⟨listed, .inr ⟨c.tasks.length, at_afterHandler.2 (.inr ⟨rfl, rfl, ?_⟩)⟩⟩
    obtain rfl := agrees.phase.clientId_of_listed idle listed
    simp [ofWsCall]
  · rcases agrees.left how j id removed listed with ⟨-, shut⟩ | ⟨other, h⟩
    · exact absurd (opened.symm.trans shut) (by decide)
    · refine .inr ⟨other, ?_⟩
      rw [closing, keeps.posted, asked]
      exact h

/-- A handler run keeps the agreement of its session. -/
theorem Agrees.handler (agrees : Agrees c k t) (free : c.idle (.strand k) = true)
    (ran : t.runNext true = some (t', calls)) : Agrees (afterHandler c k t' calls) k t' := by
  obtain ⟨idle, acts⟩ := CWsSession.runNext_acts ran
  cases acts with
  | works keeps flags idle' light =>
    exact agrees.alike (frame_afterHandler_light light) ⟨keeps, flags, idle'.trans idle.symm⟩
  | marks clientId openings posted flags idle' =>
    exact agrees.marks free idle clientId openings posted flags idle'
  | opens keeps flags busy opening => exact agrees.opens free keeps flags busy opening
  | closes keeps opened flags idle' light => exact agrees.closes free idle keeps opened flags idle' light

end Strand

/-! ## Every step keeps the agreement -/

theorem getElem?_mapSession (s : Server) (k : Nat) (f : CWsSession → CWsSession) (m : Nat) :
    (s.mapSession k f).sessions[m]? = if k = m then s.sessions[m]?.map f else s.sessions[m]? := by
  simp only [mapSession, List.getElem?_modify]
  split <;> simp

theorem length_mapSession (s : Server) (k : Nat) (f : CWsSession → CWsSession) :
    (s.mapSession k f).sessions.length = s.sessions.length := by
  simp [mapSession]

/-- A piece keeps the sessions but for the one it concerns. -/
theorem Does.sessions (does : Does s i a s' outs) :
    s'.sessions = s.sessions ∨ (∃ k payload, a = .sessionSend k payload ∧ s' = s.sessionPost k (.send payload)) ∨
      (∃ k, a = .sessionClose k ∧ s' = s.sessionPost k .close ∧ outs = []) ∨
      ∃ k id, a = .registered k id ∧ s' = s.mapSession k (·.onRegistered id) ∧ outs = [] := by
  cases does with
  | sessionSend k payload => exact .inr (.inl ⟨k, payload, rfl, rfl⟩)
  | sessionClose k => exact .inr (.inr (.inl ⟨k, rfl, rfl, rfl⟩))
  | registered k id => exact .inr (.inr (.inr ⟨k, id, rfl, rfl, rfl⟩))
  | _ => exact .inl rfl

/-- A close reaches the strand of session `k`. -/
theorem Agrees.posted (agrees : Agrees c k t) (ran : Tasks.Ran (exec throws) c i c' o (.sessionClose k) rest [])
    (log : c'.shared.log = c.shared.log) (clients : c'.shared.impl.mClients = c.shared.impl.mClients) :
    Agrees c' k { t with toChannel := t.toChannel.post .close } := by
  have same : SameCalls c c' k := .of_ran ran (fun id => by rw [Listed, Listed, log]) rfl rfl
    (fun _ mem => by cases mem) (fun _ mem => by cases mem)
  have now := t.post_close_posted
  have openings : Channel.openings (t.toChannel.post .close) = t.openings := by
    rw [Channel.openings, Channel.inflight_post]
    rfl
  have kept : ∀ {j q b}, c'.At j q b → c.At j q b := fun new => by
    rcases ran.at_inv new with old | ⟨-, -, mem⟩
    · exact old
    · cases mem
  refine ⟨agrees.phase.keep same rfl (.inl rfl) id rfl (Nat.le_of_eq openings), fun _ => ?_, fun id report => ?_,
    fun id e present mine => ?_, fun how j id removed listed => ?_⟩
  · exact agrees.closing_of same (fun how j id h => by rw [Left, log]; exact h) rfl (Nat.le_of_eq openings)
      (.inr (.inr ⟨i, o, ran.at_head⟩))
  · obtain ⟨j, new⟩ := report
    exact agrees.reporting id ⟨j, kept new⟩
  · rw [clients] at present
    obtain ⟨listed, state⟩ := agrees.entry id e present mine
    refine ⟨(same.listed id).2 listed, ?_⟩
    rcases state with h | ⟨j, old⟩
    · exact .inl h
    · exact .inr ⟨j, ran.at_kept old (fun h => by cases h)⟩
  · have removed' : Left c how j id := by rw [Left, ← log]; exact removed
    rcases agrees.left how j id removed' ((same.listed id).1 listed) with h | ⟨other, -⟩
    · exact .inl h
    · exact .inr ⟨other, .inr (.inl now)⟩

/-- The session a post to strand `m` leaves at `k`. -/
theorem found_mapSession {m : Nat} {f : CWsSession → CWsSession}
    (found : (s.mapSession m f).sessions[k]? = some t') :
    m ≠ k ∧ s.sessions[k]? = some t' ∨ m = k ∧ ∃ t, s.sessions[k]? = some t ∧ t' = f t := by
  rw [getElem?_mapSession] at found
  split at found
  · next same =>
    obtain ⟨t, here, rfl⟩ := Option.map_eq_some_iff.1 found
    exact .inr ⟨same, t, here, rfl⟩
  · next apart => exact .inl ⟨apart, found⟩

/-- A piece that does not concern session `k`. -/
theorem Agreement.beside (agreement : Agreement c) (ran : Tasks.Ran (exec throws) c i c' o a rest outs)
    (does : Does c.shared i a c'.shared outs) (kept : isTaking c.shared a = false) (other : concerns k a = false)
    (found : c'.shared.sessions[k]? = some t') : Agrees c' k t' := by
  have frame : Frame c c' k := .of_ran ran (does.outside kept other) other
  rcases does.sessions with same | ⟨m, payload, rfl, state⟩ | ⟨m, rfl, state, -⟩ | ⟨m, id, rfl, state, -⟩
  · rw [same] at found
    exact (agreement.present k t' found).alike frame (.refl t')
  · rw [state] at found
    rcases found_mapSession found with ⟨-, here⟩ | ⟨-, t, here, rfl⟩
    · exact (agreement.present k t' here).alike frame (.refl t')
    · exact (agreement.present k t here).alike frame (t.post_send_alike payload)
  · rw [state] at found
    rcases found_mapSession found with ⟨-, here⟩ | ⟨same, -⟩
    · exact (agreement.present k t' here).alike frame (.refl t')
    · simp [concerns, same] at other
  · rw [state] at found
    rcases found_mapSession found with ⟨-, here⟩ | ⟨same, -⟩
    · exact (agreement.present k t' here).alike frame (.refl t')
    · simp [concerns, same] at other

/-- A piece about the registration or the close of session `k`. -/
theorem Agreement.mine (agreement : Agreement c) (books : Books c) (numbered : c.shared.impl.Numbered)
    (bound : c.shared.impl.allocated + 1 < 2 ^ 32) (ran : Tasks.Ran (exec throws) c i c' o a rest outs)
    (does : Does c.shared i a c'.shared outs) (mine : concerns k a = true)
    (found : c'.shared.sessions[k]? = some t') : Agrees c' k t' := by
  generalize shared : c'.shared = s' at does found
  cases does with
  | sessionClose m =>
    obtain rfl : m = k := by simpa [concerns] using mine
    rcases found_mapSession found with ⟨apart, -⟩ | ⟨-, t, here, rfl⟩
    · exact absurd rfl apart
    · exact (agreement.present m t here).posted ran (by rw [shared]; rfl) (by rw [shared]; rfl)
  | @reject m target isSsl rejects =>
    obtain rfl : m = k := by simpa [concerns] using mine
    exact (agreement.present m t' found).reject ran shared
  | @register m target isSsl impl r done =>
    obtain rfl : m = k := by simpa [concerns] using mine
    exact (agreement.present m t' found).register books numbered bound done ran shared
      ⟨_, _, _, _, _, _, rfl⟩
  | registered m clientId =>
    obtain rfl : m = k := by simpa [concerns] using mine
    rcases found_mapSession found with ⟨apart, -⟩ | ⟨-, t, here, rfl⟩
    · exact absurd rfl apart
    · exact (agreement.present m t here).registered ran (by rw [shared]; rfl) (by rw [shared]; rfl)
  | relay light lights => rw [concerns_light light] at mine; cases mine
  | _ => cases mine

/-- One piece keeps the agreement of every session. -/
theorem Agreement.piece (agreement : Agreement c) (books : Books c) (numbered : c.shared.impl.Numbered)
    (bound : c.shared.impl.allocated + 1 < 2 ^ 32) (ran : Tasks.Ran (exec throws) c i c' o a rest outs)
    (does : Does c.shared i a c'.shared outs) (found : c'.shared.sessions[k]? = some t') : Agrees c' k t' := by
  cases taking : isTaking c.shared a with
  | true =>
    obtain ⟨how, takes⟩ := does.takes taking
    have same : c'.shared.sessions = c.shared.sessions := by
      rcases does.sessions with same | ⟨m, payload, rfl, -⟩ | ⟨m, rfl, -⟩ | ⟨m, id, rfl, -⟩
      · exact same
      · cases taking
      · cases taking
      · cases taking
    rw [same] at found
    exact (agreement.present k t' found).takes agreement books (by omega) found ran takes
  | false =>
    cases mine : concerns k a with
    | true => exact agreement.mine books numbered bound ran does mine found
    | false => exact agreement.beside ran does taking mine found

/-- No piece creates a session. -/
theorem Does.length_sessions (does : Does s i a s' outs) : s'.sessions.length = s.sessions.length := by
  rcases does.sessions with same | ⟨m, payload, -, rfl⟩ | ⟨m, -, rfl, -⟩ | ⟨m, id, -, rfl, -⟩
  · rw [same]
  · exact length_mapSession s m _
  · exact length_mapSession s m _
  · exact length_mapSession s m _

/-- A piece concerns no session that does not exist. -/
theorem Absent.piece (absent : Absent c k) (ran : Tasks.Ran (exec throws) c i c' o a rest outs)
    (does : Does c.shared i a c'.shared outs) : Absent c' k := by
  cases taking : isTaking c.shared a with
  | true =>
    obtain ⟨how, takes⟩ := does.takes taking
    exact absent.takes ran takes
  | false =>
    have other : concerns k a = false := by
      cases mine : concerns k a with
      | false => rfl
      | true =>
        cases a with
        | registerWsClient m target isSsl =>
          have := Tasks.count_pos (p := isCall k) ran.at_head mine
          rw [absent.calls] at this
          cases this
        | registered m id =>
          have := Tasks.count_pos (p := isReturn k) ran.at_head mine
          rw [absent.returns] at this
          cases this
        | sessionClose m =>
          obtain rfl : m = k := by simpa [concerns] using mine
          exact absurd ⟨o, ran.at_head⟩ (absent.closing i)
        | _ => cases mine
    exact absent.frame (.of_ran ran (does.outside taking other) other)

/-- No piece puts a report into an operation. -/
theorem Does.reports (does : Does s i a s' outs) (id : UInt32) : .onWsClosed id ∉ outs := by
  intro mem
  cases does with
  | relay light lights => cases lights _ mem
  | invoke fn notice lights => cases lights _ mem
  | stopQueue onWorker lights => cases lights _ mem
  | call fn rest notice left =>
    rcases left with rfl | lights
    · simp at mem
    · cases lights _ mem
  | stop => simp at mem
  | _ => simp at mem

theorem Agreement.ran (agreement : Agreement c) (books : Books c) (numbered : c.shared.impl.Numbered)
    (bound : c.shared.impl.allocated + 1 < 2 ^ 32) (ran : Tasks.Ran (exec throws) c i c' o a rest outs)
    (does : Does c.shared i a c'.shared outs) : Agreement c' where
  present k t found := agreement.piece books numbered bound ran does found
  absent k missing := by
    refine (agreement.absent k ?_).piece ran does
    rw [List.getElem?_eq_none_iff] at missing ⊢
    rwa [does.length_sessions] at missing
  strands j q id pending := by
    rcases ran.at_inv pending with old | ⟨-, -, new⟩
    · exact agreement.strands j q id old
    · exact absurd new (does.reports id)
  owners task mem k owner := by
    rw [does.length_sessions]
    rcases ran.mem_after mem with rfl | old
    · exact agreement.owners _ ran.mem k owner
    · exact agreement.owners task old k owner

/-- An operation begins that concerns no session, for an owner that is no strand. -/
theorem Agreement.begins {todo : List Action} (agreement : Agreement c) (log : c'.shared.log = c.shared.log)
    (impl : c'.shared.impl = c.shared.impl) (sessions : c'.shared.sessions = c.shared.sessions)
    (tasks : c'.tasks = (c.spawn o todo).tasks) (others : ∀ b ∈ todo, ∀ k, concerns k b = false)
    (reports : ∀ id, .onWsClosed id ∉ todo) (user : ∀ k, o ≠ .strand k) : Agreement c' := by
  have frame : ∀ k, Frame c c' k := fun k =>
    .of_spawn log impl tasks fun b mem => ⟨others b mem k, fun owner => absurd owner (user k)⟩
  refine ⟨fun k t found => ?_, fun k missing => ?_, fun j q id pending => ?_, fun task mem k owner => ?_⟩
  · rw [sessions] at found
    exact (agreement.present k t found).alike (frame k) (.refl t)
  · rw [sessions] at missing
    exact (agreement.absent k missing).frame (frame k)
  · rw [Tasks.At, tasks] at pending
    rcases Tasks.at_spawn.1 pending with old | ⟨-, -, new⟩
    · exact agreement.strands j q id old
    · exact absurd new (reports id)
  · rw [tasks] at mem
    rw [sessions]
    rcases Tasks.mem_spawn.1 mem with old | rfl
    · exact agreement.owners task old k owner
    · exact absurd owner (user k)

/-- A session is created. -/
theorem Agreement.upgrade (agreement : Agreement c) (target : Bytes) (isSsl : Bool) :
    Agreement { c with shared := c.shared.upgrade target isSsl } := by
  unfold Server.upgrade
  split
  · have frame : ∀ k, Frame c { c with shared := { c.shared with
        sessions := c.shared.sessions ++ [.accept c.shared.impl.maxSessionBacklog target isSsl] } } k :=
      fun k => .of_tasks rfl rfl rfl
    refine ⟨fun k t found => ?_, fun k missing => ?_, agreement.strands, fun task mem k owner => ?_⟩
    · simp only [List.getElem?_append] at found
      split at found
      · exact (agreement.present k t found).alike (frame k) (.refl t)
      · next ge =>
        obtain rfl : t = .accept c.shared.impl.maxSessionBacklog target isSsl :=
          List.mem_singleton.1 (List.mem_of_getElem? found)
        have absent := (agreement.absent k (List.getElem?_eq_none_iff.2 (by omega))).frame (frame k)
        refine ⟨.before rfl rfl rfl absent.unlisted absent.calls absent.returns (Nat.le_refl 1), fun evidence => ?_,
          fun id report => ?_, fun id e present mine => absurd mine (absent.entry id e present),
          fun how j id _ listed => absurd listed (absent.unlisted id)⟩
        · rcases evidence with h | h | ⟨j, h⟩
          · cases h
          · cases h
          · exact absurd h (absent.closing j)
        · obtain ⟨j, task, at_, owner, -⟩ := report
          have := agreement.owners task (List.mem_of_getElem? at_) k owner
          omega
    · refine (agreement.absent k ?_).frame (frame k)
      rw [List.getElem?_eq_none_iff] at missing ⊢
      simp only [List.length_append, List.length_singleton] at missing
      omega
    · have := agreement.owners task mem k owner
      simp only [List.length_append, List.length_singleton]
      omega
  · exact agreement

/-- The strand of a session runs a handler. -/
theorem Agreement.handler {calls : List WsCall} (agreement : Agreement c) (free : c.idle (.strand k) = true)
    (found : c.shared.sessions[k]? = some t) (ran : t.runNext true = some (t', calls)) :
    Agreement (afterHandler c k t' calls) := by
  have length : (afterHandler c k t' calls).shared.sessions.length = c.shared.sessions.length :=
    length_mapSession c.shared k _
  refine ⟨fun m u here => ?_, fun m missing => ?_, fun j q id pending => ?_, fun task mem m owner => ?_⟩
  · rcases found_mapSession here with ⟨apart, old⟩ | ⟨rfl, -, -, rfl⟩
    · exact (agreement.present m u old).alike (frame_afterHandler apart.symm) (.refl u)
    · exact (agreement.present k t found).handler free ran
  · rw [List.getElem?_eq_none_iff, length] at missing
    have lt := (List.getElem?_eq_some_iff.1 found).1
    refine (agreement.absent m ?_).frame (frame_afterHandler (by omega))
    exact List.getElem?_eq_none_iff.2 missing
  · rcases at_afterHandler.1 pending with old | ⟨-, rfl, -⟩
    · exact agreement.strands j q id old
    · exact ⟨k, rfl⟩
  · rw [length]
    rcases Tasks.mem_spawn.1 mem with old | rfl
    · exact agreement.owners task old m owner
    · cases owner
      exact (List.getElem?_eq_some_iff.1 found).1

/-- An operation of Beast on session `k` completes. -/
theorem Agreement.complete {j : Nat} {ec : Option ErrorCode} {frame : Websockets.Frame}
    {ch : Channel AcceptStage SPayload WsTask} (agreement : Agreement c)
    (found : c.shared.sessions[k]? = some t) (done : t.toChannel.complete j ec frame = some ch) :
    Agreement { c with shared := c.shared.setSession k { t with toChannel := ch } } := by
  have length : (c.shared.setSession k { t with toChannel := ch }).sessions.length = c.shared.sessions.length :=
    length_mapSession c.shared k _
  have frame : ∀ m, Frame c { c with shared := c.shared.setSession k { t with toChannel := ch } } m :=
    fun m => .of_tasks rfl rfl rfl
  refine ⟨fun m u here => ?_, fun m missing => ?_, agreement.strands, fun task mem m owner => ?_⟩
  · rcases found_mapSession here with ⟨-, old⟩ | ⟨rfl, -, -, rfl⟩
    · exact (agreement.present m u old).alike (frame m) (.refl u)
    · exact (agreement.present k t found).alike (frame k) (t.complete_alike done)
  · rw [List.getElem?_eq_none_iff, length] at missing
    exact (agreement.absent m (List.getElem?_eq_none_iff.2 missing)).frame (frame m)
  · rw [length]
    exact agreement.owners task mem m owner

/-- **Every step keeps the agreement.** -/
theorem step_agreement (agreement : Agreement c) (books : Books c) (numbered : c.shared.impl.Numbered)
    (bound : c.shared.impl.allocated + 1 < 2 ^ 32) (step : step c l = some c') : Agreement c' := by
  cases step_steps step with
  | api call =>
    refine agreement.begins rfl rfl rfl rfl (fun b mem k => ?_) (fun id mem => ?_) nofun
    · rw [List.mem_singleton.1 mem]
      cases call <;> rfl
    · cases call <;> simp [Api.action] at mem
  | run ran does => exact agreement.ran books numbered bound ran does
  | upgrade target isSsl listened => exact agreement.upgrade target isSsl
  | httpRequest path listened =>
    refine agreement.begins rfl rfl rfl rfl (fun b mem k => ?_) (fun id mem => ?_) nofun
    · rw [List.mem_singleton.1 mem]
      rfl
    · simp at mem
  | complete found done => exact agreement.complete found done
  | strand idle found ran => exact agreement.handler idle found ran
  | work idle running queue =>
    refine agreement.begins rfl rfl rfl rfl (fun b mem k => ?_) (fun id mem => ?_) nofun
    · rw [List.mem_singleton.1 mem]
      rfl
    · simp at mem

theorem create_agreement (allowedUris : Option (List Bytes)) (maxSessionBacklog : Nat) :
    Agreement (create allowedUris maxSessionBacklog) := by
  have idle : ∀ j q b, ¬ (create allowedUris maxSessionBacklog).At j q b := by
    rintro j q b ⟨t, found, -⟩
    simp [create] at found
  refine ⟨fun k t found => ?_, fun k _ => ⟨fun id listed => ?_, rfl, rfl, ?_, fun id e present => ?_⟩,
    fun j q id pending => absurd pending (idle _ _ _), (fun _ mem => by cases mem)⟩
  · simp [create] at found
  · simp [Listed, create] at listed
  · rintro j ⟨q, pending⟩
    exact idle _ _ _ pending
  · simp [create] at present

/-- The books and the agreement of a run. -/
structure Settled (c : Running) : Prop where
  kept : Kept c
  agreement : c.shared.impl.allocated < 2 ^ 32 - 1 → Agreement c

theorem step_settled (settled : Settled c) (step : Server.step c l = some c') : Settled c' := by
  refine ⟨step_kept settled.kept step, fun bound => ?_⟩
  have before : c.shared.impl.allocated < 2 ^ 32 - 1 := Nat.lt_of_le_of_lt (step_allocated_le step) bound
  exact step_agreement (settled.agreement before) (settled.kept.2 before) settled.kept.1.numbered (by omega) step

theorem create_settled (allowedUris : Option (List Bytes)) (maxSessionBacklog : Nat) :
    Settled (create allowedUris maxSessionBacklog) :=
  ⟨⟨create_counted allowedUris maxSessionBacklog, fun _ => create_books allowedUris maxSessionBacklog⟩,
    fun _ => create_agreement allowedUris maxSessionBacklog⟩

theorem run_settled {allowedUris : Option (List Bytes)} {maxSessionBacklog : Nat} {ls : List Label}
    (run : system.exec (create allowedUris maxSessionBacklog) ls = some c) : Settled c :=
  System.invariant Settled (create_settled allowedUris maxSessionBacklog)
    (fun _ _ _ settled step => step_settled settled step) run

/-- An id under which somebody was entered is registered or has left. -/
theorem Books.live_or_left (books : Books c) {id : UInt32} (listed : Listed c k id) :
    (∃ e, c.shared.impl.mClients[id]? = some e) ∨ ∃ how j, Left c how j id := by
  have removed := books.removed id
  have some : 0 < c.shared.log.countP (isEnter id) := List.countP_pos_iff.2 ⟨_, listed, by simp [isEnter]⟩
  unfold Removed at removed
  cases present : c.shared.impl.mClients[id]? with
  | some e => exact .inl ⟨e, rfl⟩
  | none =>
    have gone : live c.shared.impl id = 0 := by simp [live, present]
    obtain ⟨how, j, left⟩ := mem_of_removal (by omega : 0 < c.shared.log.countP (isRemoval id))
    exact .inr ⟨how, j, left⟩

/-- What the registry maps to `k` is `k`'s own id, and `k` has not been asked to close. -/
theorem Agrees.of_entry (agrees : Agrees c k t) (books : Books c) (idle : t.registering = false) {id : UInt32}
    {e : SClientEntry} (present : c.shared.impl.mClients[id]? = some e) (mine : e.session = k) :
    t.mClientId = id ∧ t.mCloseRequested = false ∧ (t.mOpen = true ∨ Reporting c k id) := by
  obtain ⟨listed, state⟩ := agrees.entry id e present mine
  have clientId := agrees.phase.clientId_of_listed idle listed
  refine ⟨clientId, ?_, state⟩
  rw [← Bool.not_eq_true]
  intro asked
  rcases agrees.closing (.inl asked) with ⟨how, j, id', -, left, listed'⟩ | ⟨-, -, unlisted⟩
  · obtain rfl := clientId.symm.trans (agrees.phase.clientId_of_listed idle listed')
    exact books.not_left present how j left
  · exact unlisted id listed

/-- An open session that has not been asked to close was entered. -/
theorem Phase.listed_of_open (phase : Phase c k t) (idle : t.registering = false) (opened : t.mOpen = true)
    (unasked : t.mCloseRequested = false) : Listed c k t.mClientId := by
  cases phase with
  | before _ closed => exact absurd (opened.symm.trans closed) (by decide)
  | calling busy => exact absurd (busy.symm.trans idle) (by decide)
  | returning result busy => exact absurd (busy.symm.trans idle) (by decide)
  | done _ listed _ _ _ rejected =>
    refine (listed _).2 ⟨rfl, fun zero => ?_⟩
    exact absurd ((rejected zero).symm.trans unasked) (by decide)

/-- **Registry and sessions agree.** In every run that drew fewer than 2^32 - 1 ids, for every session
outside `OnAccept`: what `mClients` maps to it is its own id, it has not been asked to close, and it is
open unless its strand is on the way to `OnWsClosed`; and if it is open and has not been asked to
close, `mClients` maps its id to it, or a `Stop` or `RemoveClient` has taken it out and that
operation's close is still to be posted or waits on the strand. -/
theorem registry_and_sessions_agree (allowedUris : Option (List Bytes)) (maxSessionBacklog : Nat)
    (ls : List Label) (c : Running) (run : system.exec (create allowedUris maxSessionBacklog) ls = some c)
    (bound : c.shared.impl.allocated < 2 ^ 32 - 1) (k : Nat) (t : CWsSession)
    (found : c.shared.sessions[k]? = some t) (accepted : t.registering = false) :
    (∀ (id : UInt32) e, c.shared.impl.mClients[id]? = some e → e.session = k →
      t.mClientId = id ∧ t.mCloseRequested = false ∧ (t.mOpen = true ∨ Reporting c k id)) ∧
    (t.mOpen = true → t.mCloseRequested = false →
      (∃ e, c.shared.impl.mClients[t.mClientId]? = some e ∧ e.session = k) ∨
        ∃ how j, how ≠ .onWsClosed ∧ Left c how j t.mClientId ∧ (Closing c j k ∨ t.closePosted)) := by
  have settled := run_settled run
  have books := settled.kept.2 bound
  have agreement := settled.agreement bound
  have agrees := agreement.present k t found
  refine ⟨fun id e present mine => agrees.of_entry books accepted present mine, fun opened unasked => ?_⟩
  have listed := agrees.phase.listed_of_open accepted opened unasked
  rcases books.live_or_left listed with ⟨e, present⟩ | ⟨how, j, left⟩
  · exact .inl ⟨e, present, books.listed_unique (agreement.entry_listed present) listed⟩
  · rcases agrees.left how j _ left listed with ⟨-, closed⟩ | ⟨other, h | h | asked⟩
    · exact absurd (opened.symm.trans closed) (by decide)
    · exact .inr ⟨how, j, other, left, .inl h⟩
    · exact .inr ⟨how, j, other, left, .inr h⟩
    · exact absurd (asked.symm.trans unasked) (by decide)

/-- One client is accepted, and `RemoveClient` has taken it out but not yet posted the close. -/
def takenClient : List Label :=
  oneClient ++ [.run 2 false, .run 2 false, .run 2 false, .api (.removeClient 1), .run 3 false]

theorem takenClient_runs : (system.exec (create none 1024) takenClient).isSome = true := by
  decide

theorem takenClient_accepts :
    (((system.exec (create none 1024) takenClient).get takenClient_runs).shared.sessions[0]?).isSome = true := by
  decide

theorem registry_and_sessions_agree_takenClient :
    ∃ c t, system.exec (create none 1024) takenClient = some c ∧ c.shared.sessions[0]? = some t ∧
      t.mOpen = true ∧ t.mCloseRequested = false ∧ c.shared.impl.mClients[t.mClientId]? = none ∧
      ∃ how j, how ≠ .onWsClosed ∧ Left c how j t.mClientId ∧ (Closing c j 0 ∨ t.closePosted) := by
  have found := (Option.some_get takenClient_accepts).symm
  have gone : ((system.exec (create none 1024) takenClient).get takenClient_runs).shared.impl.mClients[
      (Option.get _ takenClient_accepts).mClientId]? = none := by
    decide
  have agree := registry_and_sessions_agree none 1024 takenClient _ (System.exec_get takenClient_runs)
    (by decide) 0 _ found (by decide)
  refine ⟨_, _, System.exec_get takenClient_runs, found, by decide, by decide, gone, ?_⟩
  rcases agree.2 (by decide) (by decide) with ⟨e, present, -⟩ | left
  · rw [gone] at present
    cases present
  · exact left

end Server

end Websockets
