import Websockets.Lib.Roster
import Websockets.Server.Agreement
import Websockets.Server.Matching

/-!
# Who is connected

What the registry is for, apart from how it is kept: clients come under ids that are given out once and go again, each
attached to the longest uri registered when it came. The questions that users ask (who is connected, is anybody
connected under a uri, whom does a broadcast reach) are about that. Every run of the server is a run of this presence,
and the answers of the code, some of which come from the redundant `mUriCounts`, are the presence's.
-/

namespace Websockets

open Std Lib

/-- `GetConnectedClientIds`. -/
def CImpl.getConnectedClientIds (impl : CImpl) : TreeMap UInt32 Bool :=
  .ofList (impl.mClients.toList.map fun e => (e.1, e.2.isSsl))

/-- The clients, as the uri they were matched with and whether they speak TLS, and what is registered. -/
structure Presence where
  roster : Roster UInt32 Nat (Bytes × Bool) := {}
  listening : Bool := false
  isShutdown : Bool := false
  uris : Set Bytes := ∅

namespace Presence

/-- `uri` is the longest of the uris that `path` lies within, or empty if there is none. -/
def Longest (uris : Set Bytes) (path uri : Bytes) : Prop :=
  uri = [] ∧ (∀ u ∈ uris, uriMatches u path = false) ∨
    uri ∈ uris ∧ uriMatches uri path = true ∧ ∀ u ∈ uris, uriMatches u path = true → u <+: uri

/-- A client may come. -/
structure Admits (p : Presence) (id : UInt32) (session : Nat) (path uri : Bytes) : Prop where
  listening : p.listening = true
  running : p.isShutdown = false
  nonzero : id ≠ 0
  new : id ∉ p.roster.drawn
  newcomer : session ∉ p.roster.joined
  longest : Longest p.uris path uri

inductive Label where
  | listen
  | stop
  | shutdown
  | join (id : UInt32) (session : Nat) (path uri : Bytes) (isSsl : Bool)
  | leave (id : UInt32)
  /-- An id is given to an http request. -/
  | draw (id : UInt32)
  | addUri (uri : Bytes)
  | removeUri (uri : Bytes)

open Classical in
noncomputable def step (p : Presence) : Label → Option Presence
  | .listen => if p.listening then none else some { p with listening := true }
  | .stop => some { p with listening := false, roster := p.roster.clear }
  | .shutdown => if p.isShutdown then none else some { p with isShutdown := true }
  | .join id session path uri isSsl =>
    if p.Admits id session path uri then some { p with roster := p.roster.join id session (uri, isSsl) } else none
  | .leave id => if p.roster.members id = none then none else some { p with roster := p.roster.leave id }
  | .draw id => if id = 0 ∨ id ∈ p.roster.drawn then none else some { p with roster := p.roster.draw id }
  | .addUri uri => some { p with uris := insert uri p.uris }
  | .removeUri uri => some { p with uris := p.uris \ {uri} }

noncomputable def system : Lib.System Presence Label := ⟨step⟩

/-- The ids of the clients attached to `uri`. -/
def attached (p : Presence) (uri : Bytes) : Set UInt32 := p.roster.those fun attributes => attributes.1 = uri

/-- The roster is sound, and nobody is connected to a server that does not listen. -/
structure Sound (p : Presence) : Prop where
  roster : p.roster.Sound
  silent : p.listening = false → ∀ id, p.roster.members id = none

variable {p p' : Presence} {l : Label}

theorem step_sound (sound : p.Sound) (step : p.step l = some p') : p'.Sound := by
  cases l with
  | listen =>
    simp only [Presence.step] at step
    split at step
    · cases step
    · cases step
      exact ⟨sound.roster, fun off => absurd off (by simp)⟩
  | stop =>
    cases step
    exact ⟨Roster.sound_clear _, fun _ _ => rfl⟩
  | shutdown =>
    simp only [Presence.step] at step
    split at step
    · cases step
    · cases step
      exact ⟨sound.roster, sound.silent⟩
  | join id session path uri isSsl =>
    simp only [Presence.step] at step
    split at step
    · next admits =>
      cases step
      exact ⟨sound.roster.join admits.newcomer, fun off => absurd (off.symm.trans admits.listening) (by decide)⟩
    · cases step
  | leave id =>
    simp only [Presence.step] at step
    split at step
    · cases step
    · cases step
      refine ⟨sound.roster.leave id, fun off other => ?_⟩
      rw [Roster.leave_members]
      split
      · rfl
      · exact sound.silent off other
  | draw id =>
    simp only [Presence.step] at step
    split at step
    · cases step
    · cases step
      exact ⟨sound.roster.draw id, sound.silent⟩
  | addUri uri | removeUri uri =>
    cases step
    exact ⟨sound.roster, sound.silent⟩

theorem run_sound {ls : List Label} (run : system.exec {} ls = some p) : p.Sound :=
  System.invariant Sound ⟨Roster.sound_empty, fun _ _ => rfl⟩ (fun _ _ _ sound step => step_sound sound step) run

end Presence

namespace Server

open CImpl

/-- The sessions that were registered. -/
def registeredIn (log : List Event) : Set Nat := { k | ∃ id, .registered k id ∈ log }

/-- The ids behind the first `n` draws. -/
def drawnBy (n : Nat) : Set UInt32 := { id | ∃ m, 1 ≤ m ∧ m ≤ n ∧ id = UInt32.ofNat m }

/-- What a server says about who is connected. -/
def presence (s : Server) : Presence where
  roster :=
    { members := fun id => s.impl.mClients[id]?.map fun e => (e.session, e.uri, e.isSsl)
      drawn := drawnBy s.impl.allocated
      joined := registeredIn s.log }
  listening := s.impl.mAcceptor.isSome
  isShutdown := s.impl.mShutdown
  uris := { uri | s.impl.mUris[uri]?.isSome = true }

/-- What an atomic piece is to the presence. -/
def seesPiece (s : Server) : Action → Option Presence.Label
  | .startLocked _ _ => if s.impl.mAcceptor.isSome then none else some .listen
  | .stop => some .stop
  | .shutdown _ => if s.impl.mShutdown then none else some .shutdown
  | .removeClient id | .onWsClosed id => if s.impl.mClients[id]?.isSome then some (.leave id) else none
  | .registerWsClient k target isSsl =>
    let path := (parseTarget target).1
    if s.impl.rejects then none
    else some (.join s.impl.mNextConnectionId k path (s.impl.longestUriMatchLocked path) isSsl)
  | .nextConnectionId _ => some (.draw s.impl.mNextConnectionId)
  | .addUri uri _ => some (.addUri uri)
  | .removeUri uri => some (.removeUri uri)
  | _ => none

def sees (c : Running) : Label → Option Presence.Label
  | .run i _ => (head? c i).bind (seesPiece c.shared)
  | _ => none

variable {c c' : Running} {s s' : Server} {i k : Nat} {a : Action} {outs rest : List Action} {l : Label}
  {o : Owner} {throws : Bool} {impl : CImpl} {path : Bytes} {id : UInt32}

/-! ## The matched uri and the ids -/

theorem longest_longestUriMatchLocked (impl : CImpl) (path : Bytes) :
    Presence.Longest { uri | impl.mUris[uri]?.isSome = true } path (impl.longestUriMatchLocked path) := by
  by_cases none : impl.longestUriMatchLocked path = []
  · exact .inl ⟨none, longest_eq_nil.1 none⟩
  · obtain ⟨registered, matching⟩ := longest_registered none
    exact .inr ⟨registered, matching, fun u mem matches' => prefix_longest mem matches'⟩

theorem drawnBy_succ (n : Nat) : drawnBy (n + 1) = insert (UInt32.ofNat (n + 1)) (drawnBy n) := by
  ext id
  simp only [drawnBy, Set.mem_ofPred_eq, Set.mem_insert_iff]
  constructor
  · rintro ⟨m, one, le, rfl⟩
    rcases Nat.lt_or_ge n m with last | before
    · exact .inl (by rw [show m = n + 1 by omega])
    · exact .inr ⟨m, one, before, rfl⟩
  · rintro (rfl | ⟨m, one, le, rfl⟩)
    · exact ⟨n + 1, by omega, le_rfl, rfl⟩
    · exact ⟨m, one, by omega, rfl⟩

/-- While the counter has not wrapped, the next id is not 0 and has not been drawn. -/
theorem next_undrawn (numbered : impl.Numbered) (bound : impl.allocated < 2 ^ 32 - 1) :
    impl.mNextConnectionId ≠ 0 ∧ impl.mNextConnectionId ∉ drawnBy impl.allocated := by
  refine ⟨(numbered.nextFree (by omega)).2, ?_⟩
  rintro ⟨m, one, le, same⟩
  rw [numbered.next] at same
  have := ofNat_inj (by omega) (by omega) same
  omega

/-! ## One step -/

theorem registeredIn_append (log new : List Event) : registeredIn (log ++ new) = registeredIn log ∪ registeredIn new := by
  ext k
  simp only [registeredIn, List.mem_append, Set.mem_ofPred_eq, Set.mem_union]
  exact exists_or

/-- Events that register nobody. -/
theorem registeredIn_other {log new : List Event} (other : ∀ k id, .registered k id ∉ new) :
    registeredIn (log ++ new) = registeredIn log := by
  rw [registeredIn_append, Set.union_eq_left]
  rintro k ⟨id, mem⟩
  exact absurd mem (other k id)

/-- The presence sees the registry, without its counts, and who was registered. -/
theorem presence_congr (acceptor : s'.impl.mAcceptor = s.impl.mAcceptor) (down : s'.impl.mShutdown = s.impl.mShutdown)
    (clients : s'.impl.mClients = s.impl.mClients) (uris : s'.impl.mUris = s.impl.mUris)
    (allocated : s'.impl.allocated = s.impl.allocated) (log : registeredIn s'.log = registeredIn s.log) :
    s'.presence = s.presence := by
  simp only [presence, acceptor, down, clients, uris, allocated, log]

/-- A step that leaves registry and history alone. -/
theorem presence_same (same : s'.impl = s.impl) (log : s'.log = s.log) : s'.presence = s.presence :=
  presence_congr (by rw [same]) (by rw [same]) (by rw [same]) (by rw [same]) (by rw [same]) (by rw [log])

/-- History that registers nobody. -/
theorem presence_record {events : List Event} (other : ∀ k id, .registered k id ∉ events) :
    (s.record events).presence = s.presence :=
  presence_congr rfl rfl rfl rfl rfl (registeredIn_other other)

/-- Taking a client out. -/
theorem leave_matched {entry : SClientEntry} {events : List Event} (present : s.impl.mClients[id]? = some entry)
    (clients : s'.impl.mClients = s.impl.mClients.erase id) (acceptor : s'.impl.mAcceptor = s.impl.mAcceptor)
    (down : s'.impl.mShutdown = s.impl.mShutdown) (uris : s'.impl.mUris = s.impl.mUris)
    (allocated : s'.impl.allocated = s.impl.allocated) (log : s'.log = s.log ++ events)
    (other : ∀ k id, .registered k id ∉ events) :
    s.presence.step (.leave id) = some s'.presence := by
  have member : s.presence.roster.members id ≠ none := by simp [presence, present]
  simp only [Presence.step]
  rw [if_neg member]
  have erased : (fun j => s'.impl.mClients[j]?.map fun e => (e.session, e.uri, e.isSsl)) =
      (s.presence.roster.leave id).members := by
    funext j
    rw [Roster.leave_members, clients, TreeMap.getElem?_erase]
    by_cases same : j = id
    · simp [same]
    · have apart : compare id j ≠ .eq := fun eq => same (LawfulEqCmp.compare_eq_iff_eq.1 eq).symm
      simp [same, apart, presence]
  simp only [presence, erased, acceptor, down, uris, allocated, log, registeredIn_other other]
  rfl

/-- A session whose registration is in progress has not been registered before. -/
theorem unregistered (agreement : Agreement c) {target : Bytes} {isSsl : Bool}
    (pending : c.At i o (.registerWsClient k target isSsl)) : k ∉ registeredIn c.shared.log := by
  have calls : 0 < c.count (isCall k) := Tasks.count_pos pending (by simp [isCall])
  rintro ⟨id, listed⟩
  cases found : c.shared.sessions[k]? with
  | none =>
    have := (agreement.absent k found).calls
    omega
  | some t => exact ((agreement.present k t found).phase.of_call calls).2.2.2.1 id listed

/-- A registration neither starts nor stops anything. -/
theorem registerWsClientLocked_flags {isSsl : Bool} {r : Registration}
    (done : s.impl.registerWsClientLocked k path isSsl = some (impl, r)) :
    impl.mAcceptor = s.impl.mAcceptor ∧ impl.mShutdown = s.impl.mShutdown := by
  unfold registerWsClientLocked at done
  split at done
  · cases done
  · cases done
    exact ⟨rfl, rfl⟩

/-- A registration. -/
theorem join_matched {target : Bytes} {isSsl : Bool} {r : Registration} (agreement : Agreement c)
    (numbered : c.shared.impl.Numbered) (bound : c.shared.impl.allocated < 2 ^ 32 - 1)
    (pending : c.At i o (.registerWsClient k target isSsl))
    (done : c.shared.impl.registerWsClientLocked k (parseTarget target).1 isSsl = some (impl, r)) :
    c.shared.presence.step (.join c.shared.impl.mNextConnectionId k (parseTarget target).1
        (c.shared.impl.longestUriMatchLocked (parseTarget target).1) isSsl) =
      some ((c.shared.setImpl impl).record [.registered k r.clientId]).presence := by
  have registers := registerWsClientLocked_inv done
  obtain ⟨nonzero, new⟩ := next_undrawn numbered bound
  have serving := registers.accepted
  simp only [rejects, Bool.or_eq_false_iff, Option.isNone_eq_false_iff] at serving
  have admits : c.shared.presence.Admits c.shared.impl.mNextConnectionId k (parseTarget target).1
      (c.shared.impl.longestUriMatchLocked (parseTarget target).1) :=
    ⟨serving.2, serving.1, nonzero, new, unregistered agreement pending, longest_longestUriMatchLocked _ _⟩
  simp only [Presence.step]
  rw [if_pos admits]
  have members : (fun j => impl.mClients[j]?.map fun e => (e.session, e.uri, e.isSsl)) =
      (c.shared.presence.roster.join c.shared.impl.mNextConnectionId k
        (c.shared.impl.longestUriMatchLocked (parseTarget target).1, isSsl)).members := by
    funext j
    rw [Roster.join_members, registers.mClients, registers.clientId, registers.matchedUri, TreeMap.getElem?_insert]
    by_cases same : j = c.shared.impl.mNextConnectionId
    · simp [same]
    · have apart : compare c.shared.impl.mNextConnectionId j ≠ .eq :=
        fun eq => same (LawfulEqCmp.compare_eq_iff_eq.1 eq).symm
      simp [same, apart, presence]
  have joined : registeredIn (c.shared.log ++ [.registered k r.clientId]) = insert k (registeredIn c.shared.log) := by
    rw [registeredIn_append, Set.union_comm, ← Set.singleton_union]
    congr 1
    ext j
    simp [registeredIn]
  obtain ⟨acceptor, down⟩ := registerWsClientLocked_flags done
  simp only [presence, record_impl, setImpl_impl, record_log, setImpl_log, members, joined, acceptor, down, registers.mUris,
    registers.allocated, drawnBy_succ, ← numbered.next]
  rfl

/-- `Stop` ends the presence of everybody. -/
theorem stop_matched : s.presence.step .stop = some (s.stop i).1.presence := by
  have quiet : registeredIn (s.stop i).1.log = registeredIn s.log := by
    rw [stop_log]
    exact registeredIn_other (by simp)
  simp only [Presence.step, presence, stop_impl, stopLocked, quiet, Roster.clear]
  simp

/-- The id that an http request is given. -/
theorem draw_matched (numbered : s.impl.Numbered) (bound : s.impl.allocated < 2 ^ 32 - 1) :
    s.presence.step (.draw s.impl.mNextConnectionId) = some (s.setImpl s.impl.nextConnectionId.1).presence := by
  obtain ⟨nonzero, new⟩ := next_undrawn numbered bound
  have free : ¬ (s.impl.mNextConnectionId = 0 ∨ s.impl.mNextConnectionId ∈ s.presence.roster.drawn) :=
    not_or.2 ⟨nonzero, new⟩
  simp only [Presence.step]
  rw [if_neg free]
  simp only [presence, setImpl_impl, setImpl_log, CImpl.nextConnectionId, drawnBy_succ, ← numbered.next]
  rfl

/-- **An atomic piece is a step of the presence, or is not seen there.** -/
theorem piece_matched (settled : Settled c) (bound : c.shared.impl.allocated < 2 ^ 32 - 1)
    (ran : Tasks.Ran (exec throws) c i c' o a rest outs) (does : Does c.shared i a c'.shared outs) :
    Presence.system.exec c.shared.presence (seesPiece c.shared a).toList = some c'.shared.presence := by
  have numbered := settled.kept.1.numbered
  have one {l : Presence.Label} (step : c.shared.presence.step l = some c'.shared.presence) :
      Presence.system.exec c.shared.presence (some l).toList = some c'.shared.presence := by
    simp [System.exec, Presence.system, step]
  have none (same : c'.shared.presence = c.shared.presence) :
      Presence.system.exec c.shared.presence (none : Option Presence.Label).toList = some c'.shared.presence := by
    simp [System.exec, same]
  have pending : c.At i o a := ran.at_head
  have action := ran.action
  generalize c'.shared = s' at does one none action ⊢
  cases does with
  | relay light lights =>
    cases a with
    | startLocked port clientCbs =>
      -- the acceptor is there, and `Start` threw
      cases acceptor : c.shared.impl.mAcceptor with
      | none =>
        have started := congrArg (fun r => r.map fun r => r.1.impl.mAcceptor) action
        simp [exec, Server.startLocked, CImpl.startLocked, acceptor] at started
      | some port' =>
        simp only [seesPiece, acceptor, Option.isSome_some, if_true]
        exact none rfl
    | shutdown onWorker =>
      cases down : c.shared.impl.mShutdown with
      | false =>
        have stopped := congrArg (fun r => r.map fun r => r.1.impl.mShutdown) action
        simp [exec, Server.shutdown, down] at stopped
      | true =>
        simp only [seesPiece, down, if_true]
        exact none rfl
    | stop | removeClient id | notifyClosedSync id uri | addUri uri cbs | removeUri uri | sessionClose k
      | registerWsClient k target isSsl | registered k id | onWsClosed id | nextConnectionId path | invoke cb notice
      | call cbs notice => exact absurd light (by simp [Action.isLight])
    | _ => exact none rfl
  | startLocked done =>
    unfold CImpl.startLocked at done
    split at done
    · cases done
    · next off =>
      obtain rfl := Option.some.inj done
      simp only [seesPiece, off, Bool.false_eq_true, if_false]
      refine one ?_
      simp only [Presence.step, presence, off, Bool.false_eq_true, if_false]
      rfl
  | stop => exact one stop_matched
  | removeUnknown absent | closedUnknown absent =>
    simp only [seesPiece, absent, Option.isSome_none, Bool.false_eq_true, if_false]
    exact none rfl
  | @removeClient id entry present =>
    obtain ⟨down, acceptor⟩ := @CImpl.eraseClient_flags c.shared.impl id entry
    simp only [seesPiece, present, Option.isSome_some, if_true]
    exact one (leave_matched present (eraseClient_mClients id entry) acceptor down (eraseClient_mUris id entry)
      (eraseClient_allocated id entry) rfl (by simp))
  | @onWsClosed id entry present =>
    obtain ⟨down, acceptor⟩ := @CImpl.eraseClient_flags c.shared.impl id entry
    simp only [seesPiece, present, Option.isSome_some, if_true]
    exact one (leave_matched present (eraseClient_mClients id entry) acceptor down (eraseClient_mUris id entry)
      (eraseClient_allocated id entry) rfl (by simp))
  | notifyClosedSync id uri => exact none (presence_congr rfl rfl rfl rfl rfl rfl)
  | addUri uri callbacks =>
    refine one ?_
    have registered : { u | (c.shared.impl.addUri uri callbacks).mUris[u]?.isSome = true } =
        insert uri { u | c.shared.impl.mUris[u]?.isSome = true } := Set.ext fun u => addUri_registered callbacks u
    simp only [presence, setImpl_impl, registered]
    rfl
  | removeUri uri =>
    refine one ?_
    have registered : { u | (c.shared.impl.removeUri uri).mUris[u]?.isSome = true } =
        { u | c.shared.impl.mUris[u]?.isSome = true } \ {uri} := by
      ext u
      simp only [CImpl.removeUri, TreeMap.getElem?_erase, Set.mem_ofPred_eq, Set.mem_sdiff, Set.mem_singleton_iff]
      by_cases same : uri = u
      · simp [same]
      · have apart : compare uri u ≠ .eq := fun eq => same (LawfulEqCmp.compare_eq_iff_eq.1 eq)
        simp [apart, Ne.symm same]
    simp only [presence, setImpl_impl, registered]
    rfl
  | reject rejects =>
    simp only [seesPiece, rejects, if_true]
    exact none (presence_record (by simp))
  | register done =>
    simp only [seesPiece, (registerWsClientLocked_inv done).accepted, Bool.false_eq_true, if_false]
    exact one (join_matched (settled.agreement bound) numbered bound pending done)
  | nextConnectionId path => exact one (draw_matched numbered bound)
  | shutdown onWorker =>
    cases down : c.shared.impl.mShutdown with
    | true =>
      simp only [seesPiece, down, if_true]
      exact none (presence_congr rfl down.symm rfl rfl rfl rfl)
    | false =>
      simp only [seesPiece, down, Bool.false_eq_true, if_false]
      refine one ?_
      simp only [Presence.step, presence, down, Bool.false_eq_true, if_false]
      rfl
  | sessionSend k payload | sessionClose k | registered k id => exact none (presence_same (by simp) (by simp))
  | postCallback cbs notice =>
    refine none (presence_congr rfl rfl rfl rfl rfl ?_)
    rw [postCallback_log]
    exact registeredIn_other (by simp)
  | unset notice | logError line | invoke fn notice lights | call fn rest notice left =>
    exact none (presence_record (by simp))
  | returned notice => exact none rfl
  | stopQueue onWorker lights => exact none (presence_same rfl rfl)

/-- **A step of the server is a step of the presence, or is not seen there.** -/
theorem step_matched (settled : Settled c) (bound : c.shared.impl.allocated < 2 ^ 32 - 1) (step : Server.step c l = some c') :
    Presence.system.exec c.shared.presence (sees c l).toList = some c'.shared.presence := by
  cases step_steps step with
  | run ran does =>
    simp only [sees, head?_eq ran.task, Option.bind_some]
    exact piece_matched settled bound ran does
  | upgrade target isSsl listened =>
    have same : (c.shared.upgrade target isSsl).presence = c.shared.presence := by
      unfold upgrade
      split
      · exact presence_same rfl rfl
      · rfl
    exact congrArg some same.symm
  | api call | httpRequest path listened => rfl
  | complete found done => exact congrArg some (presence_same rfl rfl).symm
  | strand idle found ran => exact congrArg some (presence_same rfl rfl).symm
  | work idle running queue => exact congrArg some (presence_same rfl rfl).symm

theorem run_matched {allowedUris : Option (List Bytes)} {maxSessionBacklog : Nat} {ls : List Label}
    (run : system.exec (create allowedUris maxSessionBacklog) ls = some c)
    (bound : c.shared.impl.allocated < 2 ^ 32 - 1) :
    Presence.system.exec {} (system.collect sees (create allowedUris maxSessionBacklog) ls) = some c.shared.presence := by
  have fresh : (create allowedUris maxSessionBacklog).shared.presence = {} := by
    have drawn : drawnBy 0 = ∅ := Set.eq_empty_of_forall_notMem fun id ⟨m, one, le, _⟩ => by omega
    have registered : registeredIn [] = ∅ := Set.eq_empty_of_forall_notMem fun k ⟨id, mem⟩ => List.not_mem_nil mem
    simp [presence, create, drawn, registered]
  have along := (System.along_of_end (P := fun c : Running => c.shared.impl.allocated < 2 ^ 32 - 1)
    (fun _ _ _ step later => Nat.lt_of_le_of_lt (step_allocated_le step) later) run bound).2
  rw [← fresh]
  exact @System.exec_collect _ _ _ _ _ _ _ _ _ Presence.system (fun c : Running => c.shared.presence) sees Settled
    (create_settled allowedUris maxSessionBacklog) (fun _ _ _ settled _ step => step_settled settled step)
    (fun _ _ _ settled bound step => step_matched settled bound step) run along

/-! ## The answers of the code -/

/-- What the server answers is so. -/
structure Answers (impl : CImpl) (p : Presence) : Prop where
  connected : ∀ id, impl.findSession id = (p.roster.members id).map Prod.fst
  ids : ∀ id, impl.getConnectedClientIds[id]? = (p.roster.members id).map fun m => m.2.2
  count : ∀ uri ≠ [], impl.uriCount uri = (p.attached uri).ncard
  any : impl.anyClients none = true ↔ ∃ id, p.roster.members id ≠ none
  anyAt : ∀ uri ≠ [], impl.anyClients (some uri) = true ↔ (p.attached uri).Nonempty
  /-- A broadcast reaches the sessions of the clients it is meant for, each once. -/
  targets : ∀ uri, (impl.broadcastTargets uri).Nodup ∧ ∀ k, k ∈ impl.broadcastTargets uri ↔
    ∃ id m, p.roster.members id = some (k, m) ∧ ∀ u, uri = some u → m.1 = u

theorem getConnectedClientIds_get (impl : CImpl) (id : UInt32) :
    impl.getConnectedClientIds[id]? = impl.mClients[id]?.map SClientEntry.isSsl := by
  have distinct : (impl.mClients.toList.map fun e => (e.1, e.2.isSsl)).Pairwise fun a b => ¬ compare a.1 b.1 = .eq :=
    List.pairwise_map.2 TreeMap.distinct_keys_toList
  cases present : impl.mClients[id]? with
  | some entry =>
    have mem : (id, entry.isSsl) ∈ impl.mClients.toList.map fun e => (e.1, e.2.isSsl) :=
      List.mem_map.2 ⟨(id, entry), TreeMap.mem_toList_iff_getElem?_eq_some.2 present, rfl⟩
    exact TreeMap.getElem?_ofList_of_mem ReflCmp.compare_self distinct mem
  | none =>
    refine TreeMap.getElem?_ofList_of_contains_eq_false ?_
    simp [present]

theorem nodup_toList (impl : CImpl) : impl.mClients.toList.Nodup :=
  TreeMap.distinct_keys_toList.imp fun apart same => apart (by rw [same]; exact ReflCmp.compare_self)

theorem mem_attached (uri : Bytes) : id ∈ s.presence.attached uri ↔ ∃ e, s.impl.mClients[id]? = some e ∧ e.uri = uri := by
  simp only [Presence.attached, Roster.those, presence, Set.mem_ofPred_eq, Option.map_eq_some_iff]
  constructor
  · rintro ⟨k, m, ⟨e, present, same⟩, at'⟩
    cases same
    exact ⟨e, present, at'⟩
  · rintro ⟨e, present, at'⟩
    exact ⟨_, _, ⟨e, present, rfl⟩, at'⟩

/-- The count kept for a uri is the number of the clients attached to it. -/
theorem ncard_attached (uri : Bytes) : (s.presence.attached uri).ncard = s.impl.attached uri := by
  have ids : s.presence.attached uri =
      (((s.impl.mClients.toList.filter fun e => e.2.uri == uri).map Prod.fst).toFinset : Set UInt32) := by
    ext id
    simp [mem_attached]
  have keys : ((s.impl.mClients.toList.filter fun e => e.2.uri == uri).map Prod.fst).Nodup :=
    List.pairwise_map.2 ((TreeMap.distinct_keys_toList.filter _).imp fun apart same =>
      apart (by rw [same]; exact ReflCmp.compare_self))
  rw [ids, Set.ncard_coe_finset, List.toFinset_card_of_nodup keys, List.length_map, attached, countValues,
    List.countP_eq_length_filter]

theorem mem_targets {uri : Option Bytes} : k ∈ impl.broadcastTargets uri ↔
    ∃ (id : UInt32) (e : SClientEntry), impl.mClients[id]? = some e ∧ e.session = k ∧ ∀ u, uri = some u → e.uri = u := by
  cases uri with
  | none => simp [broadcastTargets]
  | some u => simp [broadcastTargets, and_assoc, and_comm]

/-- A broadcast reaches no session twice. -/
theorem nodup_broadcastTargets (sound : s.presence.Sound) (uri : Option Bytes) : (s.impl.broadcastTargets uri).Nodup := by
  refine ((nodup_toList s.impl).filter _).map_on fun x inX y inY same => ?_
  have presentX := TreeMap.mem_toList_iff_getElem?_eq_some.1 (List.mem_of_mem_filter inX)
  have presentY := TreeMap.mem_toList_iff_getElem?_eq_some.1 (List.mem_of_mem_filter inY)
  have ids : x.1 = y.1 := sound.roster.single x.1 y.1 x.2.session (x.2.uri, x.2.isSsl) (y.2.uri, y.2.isSsl)
    (by simp [presence, presentX]) (by simp [presence, presentY, same])
  rw [ids, presentY] at presentX
  exact Prod.ext ids (Option.some.inj presentX).symm

theorem answers (counts : s.impl.Counts) (sound : s.presence.Sound) : Answers s.impl s.presence where
  connected id := by simp [findSession, presence, Function.comp_def]
  ids id := by rw [getConnectedClientIds_get]; simp [presence, Function.comp_def]
  count uri nonempty := by rw [ncard_attached, counts uri nonempty]
  any := by
    have someone : s.impl.mClients.isEmpty = false ↔ ∃ id, id ∈ s.impl.mClients := TreeMap.isEmpty_eq_false_iff_exists_mem
    simp [anyClients, someone, presence]
  anyAt uri nonempty := by
    rw [anyClients_iff, counts uri nonempty, attached, countValues_pos]
    simp [Set.Nonempty, mem_attached]
  targets uri := by
    refine ⟨nodup_broadcastTargets sound uri, fun k => mem_targets.trans ⟨?_, ?_⟩⟩
    · rintro ⟨id, e, present, rfl, meant⟩
      exact ⟨id, (e.uri, e.isSsl), by simp [presence, present], meant⟩
    · rintro ⟨id, m, member, meant⟩
      obtain ⟨e, present, same⟩ := Option.map_eq_some_iff.1 member
      cases same
      exact ⟨id, e, present, rfl, meant⟩

/-- **The registry is the presence of its clients.** Every run that drew fewer than 2^32 - 1 ids is, as far as it
concerns who is connected, a run of the presence, and what the server answers then is so. -/
theorem registry_is_presence (allowedUris : Option (List Bytes)) (maxSessionBacklog : Nat) (ls : List Label) (c : Running)
    (run : system.exec (create allowedUris maxSessionBacklog) ls = some c)
    (bound : c.shared.impl.allocated < 2 ^ 32 - 1) :
    Presence.system.exec {} (system.collect sees (create allowedUris maxSessionBacklog) ls) = some c.shared.presence ∧
      c.shared.presence.Sound ∧ Answers c.shared.impl c.shared.presence := by
  have matched := run_matched run bound
  have sound := Presence.run_sound matched
  exact ⟨matched, sound, answers ((run_counted run).counts bound) sound⟩

/-- The one client of the server with the uri `/a` is there, under the uri. -/
theorem registry_is_presence_oneClient : ∃ c, system.exec (create none 1024) oneClient = some c ∧
    c.shared.impl.getConnectedClientIds.toList = [(1, false)] ∧
    Presence.system.exec {} (system.collect sees (create none 1024) oneClient) = some c.shared.presence ∧
    c.shared.presence.Sound ∧ Answers c.shared.impl c.shared.presence :=
  ⟨_, System.exec_get (by decide), by decide, registry_is_presence none 1024 oneClient _ (System.exec_get (by decide))
    (by decide)⟩

end Server

end Websockets
