import Websockets.Server.Agreement
import Websockets.Session.Inbound

/-!
# A server session as one end of a connection

What a step of the server is to one of its sessions: the session steps as in an arbitrary environment, since
`RegisterWsClient` returns to it exactly when it waits for that. So what holds of a session in any environment
holds of it inside the server, whatever ids the registry deals out.
-/

namespace Websockets

open Lib

namespace Server

/-- The piece is the registration of session `k`, or the return from it. -/
def registers (k : Nat) (a : Action) : Bool := isCall k a || isReturn k a

/-- A session waits for `RegisterWsClient` exactly while an operation is about to perform it or to return from it. -/
def Awaited (c : Running) : Prop :=
  ∀ k, c.count (registers k) = (c.shared.sessions[k]?.any (·.registering)).toNat

/-- Beast's promise on a step: after an error on a session's stream, its completions are errors. -/
def BeastOk (c : Running) : Label → Prop
  | .complete k _ ec _ => c.shared.sessions[k]?.any (·.failed) = true → ec.isSome = true
  | _ => True

instance (c : Running) (l : Label) : Decidable (BeastOk c l) :=
  match l with
  | .complete k _ ec _ => inferInstanceAs (Decidable (c.shared.sessions[k]?.any (·.failed) = true → ec.isSome = true))
  | .api _ | .run _ _ | .upgrade _ _ | .httpRequest _ | .strand _ | .work => .isTrue trivial

/-- What a step that neither completes an operation of a session nor runs its strand does to it. -/
inductive Touches : Option CWsSession → Option CWsSession → Prop
  | stays (t) : Touches t t
  | creates (limit target isSsl) : Touches none (some (.accept limit target isSsl))
  | posts (t : CWsSession) (task) : Touches (some t) (some { t with toChannel := t.toChannel.post task })
  | returns (t : CWsSession) (clientId) (waits : t.registering = true) : Touches (some t) (some (t.onRegistered clientId))

/-- What a step of the server is to session `k`. -/
inductive SessionStep (c : Running) (k : Nat) (c' : Running) : Label → Prop
  | touches {l} (beside : ∀ i ec frame, l ≠ .complete k i ec frame) (apart : l ≠ .strand k)
      (touches : Touches c.shared.sessions[k]? c'.shared.sessions[k]?) : SessionStep c k c' l
  | completes {t i ec frame ch} (before : c.shared.sessions[k]? = some t)
      (done : t.toChannel.complete i ec frame = some ch)
      (after : c'.shared.sessions[k]? = some { t with toChannel := ch }) : SessionStep c k c' (.complete k i ec frame)
  | runs {t t' calls} (before : c.shared.sessions[k]? = some t) (ran : t.runNext true = some (t', calls))
      (after : c'.shared.sessions[k]? = some t') : SessionStep c k c' (.strand k)

/-- The payload that session `k` accepts in a step. -/
def acceptsAt (k : Nat) (c : Running) : Label → Option SPayload
  | .strand k' => if k' = k then c.shared.sessions[k]?.bind (·.accepts (.run true)) else none
  | _ => none

/-- The frame that a read of session `k` takes from the wire in a step. -/
def readsAt (k : Nat) (c : Running) : Label → Option Websockets.Frame
  | .complete k' i ec frame => if k' = k then c.shared.sessions[k]?.bind (·.toChannel.delivers i ec frame) else none
  | _ => none

/-- The frame that the strand of session `k` handles in a step. -/
def handlesAt (k : Nat) (c : Running) : Label → Option Websockets.Frame
  | .strand k' => if k' = k then c.shared.sessions[k]?.bind fun t => t.strand.head?.bind Handler.frame? else none
  | _ => none

/-- What session `k` has put on the wire. -/
def writtenAt (k : Nat) (c : Running) : List Websockets.Frame := (c.shared.sessions[k]?.map (·.toChannel.written)).getD []

/-- Session `k` with the payloads it has accepted, the frames it has taken from the wire and those it has handled. -/
structure Endpoint (k : Nat) (c : Running) (accepted : List SPayload) (passed handled : List Websockets.Frame) : Prop where
  present : ∀ t, c.shared.sessions[k]? = some t →
    t.Inv ∧ (∃ limit written, t.Kept limit accepted written) ∧ handled ++ t.arrived = passed
  absent : c.shared.sessions[k]? = none → accepted = [] ∧ passed = [] ∧ handled = []

variable {c c' : Running} {s s' : Server} {i k : Nat} {a : Action} {outs rest : List Action} {l : Label}
  {o : Owner} {throws : Bool} {t t' : CWsSession}

theorem registers_none {todo : List Action} (none : ∀ b ∈ todo, registers k b = false) :
    todo.countP (registers k) = 0 := by
  rw [List.countP_eq_zero]
  intro b mem
  rw [none b mem]
  exact Bool.false_ne_true

/-- Only a registration leaves its return to do. -/
theorem exec_registers (done : exec throws c i a = some (s', outs)) :
    outs.countP (registers k) = if isCall k a then 1 else 0 := by
  by_cases call : ∃ j target isSsl, a = .registerWsClient j target isSsl
  · obtain ⟨j, target, isSsl, rfl⟩ := call
    cases exec_does done with
    | relay light lights => cases light
    | reject rejects => by_cases eq : j = k <;> simp [registers, isCall, isReturn, eq]
    | register done => by_cases eq : j = k <;> simp [registers, isCall, isReturn, eq]
  · have other : isCall k a = false := by
      cases a with
      | registerWsClient j target isSsl => exact absurd ⟨j, target, isSsl, rfl⟩ call
      | _ => rfl
    rw [other]
    refine registers_none fun b mem => ?_
    cases exec_yields done b mem with
    | registered j target isSsl id => exact absurd ⟨j, target, isSsl, rfl⟩ call
    | _ => rfl

theorem onRegistered_registering (clientId : UInt32) : (t.onRegistered clientId).registering = false := by
  unfold CWsSession.onRegistered
  split <;> rfl

/-- A piece other than a return leaves alone who waits. -/
theorem Does.awaited (does : Does s i a s' outs) (other : ∀ id, a ≠ .registered k id) :
    s'.sessions[k]?.any (·.registering) = s.sessions[k]?.any (·.registering) := by
  have posted : ∀ (j : Nat) (task : WsTask), (s.sessionPost j task).sessions[k]?.any (·.registering) =
      s.sessions[k]?.any (·.registering) := by
    intro j task
    rw [sessionPost, getElem?_mapSession]
    split
    · cases s.sessions[k]? <;> rfl
    · rfl
  cases does with
  | sessionSend j payload => exact posted j (.send payload)
  | sessionClose j => exact posted j .close
  | registered j id =>
    have apart : j ≠ k := fun eq => other id (eq ▸ rfl)
    rw [getElem?_mapSession, if_neg apart]
  | _ => rfl

/-- The return ends the wait. -/
theorem Does.ends_wait {clientId : UInt32} (does : Does s i (.registered k clientId) s' outs) :
    s' = s.mapSession k (·.onRegistered clientId) ∧ s'.sessions[k]?.any (·.registering) = false := by
  cases does with
  | relay light lights => cases light
  | registered =>
    refine ⟨rfl, ?_⟩
    rw [getElem?_mapSession, if_pos rfl]
    cases s.sessions[k]? with
    | none => rfl
    | some t => exact onRegistered_registering clientId

theorem Awaited.run (awaited : Awaited c) (ran : Tasks.Ran (exec throws) c i c' o a rest outs) : Awaited c' := by
  intro k
  have count := ran.count (registers k)
  rw [exec_registers ran.action] at count
  have before := awaited k
  by_cases returns : ∃ id, a = .registered k id
  · obtain ⟨id, rfl⟩ := returns
    have some : 0 < c.count (registers k) := Tasks.count_pos ran.at_head (by simp [registers, isReturn])
    have once := Bool.toNat_le (c.shared.sessions[k]?.any (·.registering))
    have mine : registers k (.registered k id) = true := by simp [registers, isReturn]
    rw [(exec_does ran.action).ends_wait.2, Bool.toNat_false]
    simp only [mine, isCall, if_true, Bool.false_eq_true, if_false] at count
    omega
  · have other : ∀ id, a ≠ .registered k id := fun id eq => returns ⟨id, eq⟩
    rw [(exec_does ran.action).awaited other, ← before]
    have same : registers k a = isCall k a := by
      cases a with
      | registered j id =>
        have apart : j ≠ k := fun eq => other id (eq ▸ rfl)
        simp [registers, isCall, isReturn, apart]
      | _ => simp [registers, isReturn]
    rw [same] at count
    omega

theorem Awaited.spawn {todo : List Action} (awaited : Awaited c) (none : ∀ k, ∀ b ∈ todo, registers k b = false)
    (same : ∀ k : Nat, s'.sessions[k]?.any (·.registering) = c.shared.sessions[k]?.any (·.registering)) :
    Awaited (Tasks.spawn { c with shared := s' } o todo) := by
  intro k
  rw [Tasks.count_spawn, registers_none (none k), Nat.add_zero]
  exact (awaited k).trans (congrArg Bool.toNat (same k).symm)

/-- Of the calls of a handler only the registration waits. -/
theorem light_registers {call : WsCall} {j : Nat} (light : call.isLight = true) : registers k (ofWsCall j call) = false := by
  cases call with
  | registerWsClient target isSsl => cases light
  | _ => rfl

theorem setSession_any {j : Nat} {t'' : CWsSession} (found : c.shared.sessions[j]? = some t) (k : Nat) :
    (c.shared.setSession j t'').sessions[k]?.any (·.registering) =
      if j = k then t''.registering else c.shared.sessions[k]?.any (·.registering) := by
  rw [setSession, getElem?_mapSession]
  split
  · next eq =>
    subst eq
    rw [found]
    rfl
  · rfl

theorem Awaited.strand {calls : List WsCall} (awaited : Awaited c) (found : c.shared.sessions[k]? = some t)
    (ran : t.runNext true = some (t', calls)) :
    Awaited (Tasks.spawn { c with shared := c.shared.setSession k t' } (.strand k) (calls.map (ofWsCall k))) := by
  obtain ⟨idle, acts⟩ := CWsSession.runNext_acts ran
  have waits : ∀ j, c.shared.sessions[j]?.any (·.registering) = if k = j then false else
      c.shared.sessions[j]?.any (·.registering) := by
    intro j
    split
    · next eq =>
      subst eq
      rw [found]
      exact idle
    · rfl
  have light : ∀ {calls' : List WsCall}, (∀ call ∈ calls', call.isLight = true) → ∀ j, ∀ b ∈ calls'.map (ofWsCall k),
      registers j b = false := by
    intro calls' light j b mem
    obtain ⟨call, here, rfl⟩ := List.mem_map.1 mem
    exact light_registers (light call here)
  have stays : t'.registering = false → (∀ j, ∀ b ∈ calls.map (ofWsCall k), registers j b = false) →
      Awaited (Tasks.spawn { c with shared := c.shared.setSession k t' } (.strand k) (calls.map (ofWsCall k))) := by
    intro still none
    refine awaited.spawn none fun j => ?_
    rw [setSession_any found, still]
    exact (waits j).symm
  cases acts with
  | works keeps flags still lights => exact stays still (light lights)
  | marks clientId openings posted flags still => exact stays still fun _ => List.forall_mem_nil _
  | opens keeps flags busy opening =>
    intro j
    have before := awaited j
    rw [waits j] at before
    rw [Tasks.count_spawn]
    show c.count _ + _ = ((c.shared.setSession k t').sessions[j]?.any (·.registering)).toNat
    rw [before, setSession_any found, busy]
    by_cases eq : k = j
    · subst eq
      simp [registers, isCall, ofWsCall]
    · simp [registers, isCall, isReturn, ofWsCall, eq]
  | closes keeps opened flags still lights =>
    refine stays still fun j b mem => ?_
    rw [List.map_append] at mem
    rcases List.mem_append.1 mem with mem | mem
    · exact light lights j b mem
    · rw [List.mem_singleton.1 mem]
      rfl

theorem step_awaited (step : Server.step c l = some c') (awaited : Awaited c) : Awaited c' := by
  cases step_steps step with
  | api call =>
    refine awaited.spawn (fun k b mem => ?_) fun _ => rfl
    rw [List.mem_singleton.1 mem]
    cases call <;> rfl
  | run ran does => exact awaited.run ran
  | upgrade target isSsl listened =>
    intro k
    refine (awaited k).trans (congrArg Bool.toNat ?_)
    unfold upgrade
    split
    · simp only [List.getElem?_append]
      split
      · rfl
      · next beyond =>
        rw [List.getElem?_eq_none (Nat.le_of_not_lt beyond)]
        cases found : ([CWsSession.accept c.shared.impl.maxSessionBacklog target isSsl])[k - c.shared.sessions.length]? with
        | none => rfl
        | some t =>
          rw [List.mem_singleton.1 (List.mem_of_getElem? found)]
          rfl
    · rfl
  | httpRequest path listened =>
    refine awaited.spawn (fun k b mem => ?_) fun _ => rfl
    rw [List.mem_singleton.1 mem]
    rfl
  | @complete j i ec frame t ch found done =>
    intro k
    refine (awaited k).trans (congrArg Bool.toNat ?_)
    show _ = (c.shared.setSession j _).sessions[k]?.any (·.registering)
    rw [setSession_any found]
    split
    · next eq =>
      subst eq
      rw [found]
      rfl
    · rfl
  | strand idle found ran => exact awaited.strand found ran
  | work idle running queue =>
    refine awaited.spawn (fun k b mem => ?_) fun _ => rfl
    rw [List.mem_singleton.1 mem]
    rfl

theorem create_awaited (allowedUris : Option (List Bytes)) (maxSessionBacklog : Nat) :
    Awaited (create allowedUris maxSessionBacklog) := fun _ => rfl

/-! ## Steps of a session -/

theorem Touches.absent {before after : Option CWsSession} (touches : Touches before after) (gone : after = none) :
    before = none := by
  cases touches with
  | stays t => exact gone
  | _ => cases gone

theorem onRegistered_strand (clientId : UInt32) : (t.onRegistered clientId).strand = t.strand := by
  unfold CWsSession.onRegistered
  split
  · exact Channel.maybeSendClose_strand
  · exact Channel.beginReading_strand

/-- A touched session is new or has made a step that accepts nothing and finds no frame. -/
theorem Touches.step {before after : Option CWsSession} (touches : Touches before after) (found : after = some t') :
    before = some t' ∨ (before = none ∧ ∃ limit target isSsl, t' = .accept limit target isSsl) ∨
      ∃ t l, before = some t ∧ t.step l = some t' ∧ CWsSession.BeastOk t l ∧ t'.strand.filterMap Handler.frame? = t.arrived ∧
        t.arrives l = none ∧ t.writesOut l = none := by
  cases touches with
  | stays t => exact .inl found
  | creates limit target isSsl =>
    cases found
    exact .inr (.inl ⟨rfl, limit, target, isSsl, rfl⟩)
  | posts t task =>
    cases found
    exact .inr (.inr ⟨t, .post task, rfl, rfl, trivial, Channel.arrived_post task, rfl, rfl⟩)
  | returns t clientId waits =>
    cases found
    refine .inr (.inr ⟨t, .registered clientId, rfl, ?_, trivial, ?_, rfl, rfl⟩)
    · simp only [CWsSession.step, waits, if_true]
    · rw [onRegistered_strand]
      rfl

theorem touches_map {j : Nat} {f : CWsSession → CWsSession}
    (touches : ∀ t, s.sessions[k]? = some t → j = k → Touches (some t) (some (f t))) :
    Touches s.sessions[k]? (s.mapSession j f).sessions[k]? := by
  rw [getElem?_mapSession]
  split
  · next eq =>
    cases found : s.sessions[k]? with
    | none => exact .stays none
    | some t => exact touches t found eq
  · exact .stays _

theorem Does.touches (does : Does s i a s' outs)
    (waits : ∀ id t, a = .registered k id → s.sessions[k]? = some t → t.registering = true) :
    Touches s.sessions[k]? s'.sessions[k]? := by
  cases does with
  | sessionSend j payload => exact touches_map fun t _ _ => .posts t _
  | sessionClose j => exact touches_map fun t _ _ => .posts t _
  | registered j id => exact touches_map fun t found eq => .returns t id (waits id t (eq ▸ rfl) found)
  | _ => exact .stays _

theorem upgrade_touches (target : Bytes) (isSsl : Bool) :
    Touches s.sessions[k]? (s.upgrade target isSsl).sessions[k]? := by
  unfold upgrade
  split
  · simp only [List.getElem?_append]
    split
    · exact .stays _
    · next beyond =>
      rw [List.getElem?_eq_none (Nat.le_of_not_lt beyond)]
      cases found : ([CWsSession.accept s.impl.maxSessionBacklog target isSsl])[k - s.sessions.length]? with
      | none => exact .stays none
      | some t =>
        rw [List.mem_singleton.1 (List.mem_of_getElem? found)]
        exact .creates _ target isSsl
  · exact .stays _

theorem Awaited.waits {id : UInt32} (awaited : Awaited c) (pending : c.At i o (.registered k id))
    (found : c.shared.sessions[k]? = some t) : t.registering = true := by
  have some := Tasks.count_pos pending (p := registers k) (by simp [registers, isReturn])
  rw [awaited k, found] at some
  cases waiting : t.registering with
  | true => rfl
  | false => simp [waiting] at some

theorem setSession_get {t'' : CWsSession} (found : s.sessions[k]? = some t) :
    (s.setSession k t'').sessions[k]? = some t'' := by
  rw [setSession, getElem?_mapSession, if_pos rfl, found]
  rfl

theorem setSession_other {j : Nat} {t'' : CWsSession} (other : j ≠ k) :
    (s.setSession j t'').sessions[k]? = s.sessions[k]? := by
  rw [setSession, getElem?_mapSession, if_neg other]

/-- **What a step is to session `k`.** -/
theorem step_session (step : Server.step c l = some c') (awaited : Awaited c) (k : Nat) : SessionStep c k c' l := by
  cases step_steps step with
  | api call => exact .touches nofun nofun (.stays _)
  | run ran does =>
    refine .touches nofun nofun (does.touches fun id t eq found => ?_)
    exact awaited.waits (eq ▸ ran.at_head) found
  | upgrade target isSsl listened => exact .touches nofun nofun (upgrade_touches target isSsl)
  | httpRequest path listened => exact .touches nofun nofun (.stays _)
  | @complete j i ec frame t ch found done =>
    by_cases eq : j = k
    · subst eq
      exact .completes found done (setSession_get found)
    · refine .touches (fun _ _ _ same => eq ?_) nofun ?_
      · cases same
        rfl
      · rw [setSession_other eq]
        exact .stays _
  | @strand j t t' calls idle found ran =>
    by_cases eq : j = k
    · subst eq
      exact .runs found ran (setSession_get found)
    · refine .touches nofun (fun same => eq ?_) ?_
      · cases same
        rfl
      · show Touches _ (c.shared.setSession j t').sessions[k]?
        rw [setSession_other eq]
        exact .stays _
  | work idle running queue => exact .touches nofun nofun (.stays _)

/-! ## The endpoint -/

section Endpoint

variable {accepted : List SPayload} {passed handled : List Websockets.Frame}

theorem Endpoint.touched (ends : Endpoint k c accepted passed handled)
    (touches : Touches c.shared.sessions[k]? c'.shared.sessions[k]?) : Endpoint k c' accepted passed handled := by
  refine ⟨fun t' found => ?_, fun gone => ends.absent (touches.absent gone)⟩
  rcases touches.step found with same | ⟨fresh, limit, target, isSsl, rfl⟩ | ⟨t, l, before, step, ok, arrived, arrives, writes⟩
  · exact ends.present t' same
  · obtain ⟨rfl, rfl, rfl⟩ := ends.absent fresh
    exact ⟨CWsSession.accept_inv limit target isSsl, ⟨limit, [], CWsSession.accept_kept limit target isSsl⟩, rfl⟩
  · obtain ⟨inv, ⟨limit, written, kept⟩, whole⟩ := ends.present t before
    have after := CWsSession.step_kept kept inv step
    simp only [CWsSession.accepts, arrives, writes, ite_self, Option.toList_none, List.append_nil] at after
    refine ⟨CWsSession.step_inv inv ok step, ⟨limit, written, after⟩, ?_⟩
    rw [Channel.arrived, arrived]
    exact whole

theorem step_endpoint (step : Server.step c l = some c') (awaited : Awaited c) (ok : BeastOk c l)
    (ends : Endpoint k c accepted passed handled) :
    Endpoint k c' (accepted ++ (acceptsAt k c l).toList) (passed ++ (readsAt k c l).toList)
      (handled ++ (handlesAt k c l).toList) := by
  cases step_session step awaited k with
  | touches beside apart touches =>
    have accepts : acceptsAt k c l = none := by
      cases l with
      | strand j => exact if_neg fun eq : j = k => apart (eq ▸ rfl)
      | _ => rfl
    have reads : readsAt k c l = none := by
      cases l with
      | complete j i ec frame => exact if_neg fun eq : j = k => beside i ec frame (eq ▸ rfl)
      | _ => rfl
    have handles : handlesAt k c l = none := by
      cases l with
      | strand j => exact if_neg fun eq : j = k => apart (eq ▸ rfl)
      | _ => rfl
    rw [accepts, reads, handles]
    simp only [Option.toList_none, List.append_nil]
    exact ends.touched touches
  | @completes t i ec frame ch before done after =>
    obtain ⟨inv, ⟨limit, written, kept⟩, whole⟩ := ends.present t before
    have completed : t.step (.complete i ec frame) = some { t with toChannel := ch } := by
      simp only [CWsSession.step, done, Option.map_some]
    have ledger := CWsSession.step_kept kept inv completed
    refine ⟨fun t' found => ?_, (fun gone => by cases after.symm.trans gone)⟩
    cases after.symm.trans found
    have allowed : CWsSession.BeastOk t (.complete i ec frame) := by
      intro failed
      apply ok
      rw [before]
      exact failed
    refine ⟨CWsSession.step_inv inv allowed completed, ⟨limit, written, ?_⟩, ?_⟩
    · simpa [acceptsAt, CWsSession.accepts, CWsSession.arrives, CWsSession.writesOut] using ledger
    · simp only [readsAt, handlesAt, if_true, before, Option.bind_some, Option.toList_none, List.append_nil]
      rw [Channel.arrived_complete done, ← List.append_assoc]
      exact congrArg (· ++ _) whole
  | @runs t t' calls before ran after =>
    obtain ⟨inv, ⟨limit, written, kept⟩, whole⟩ := ends.present t before
    have run : t.step (.run true) = some t' := by simp only [CWsSession.step, ran, Option.map_some]
    obtain ⟨-, h, rest, front, -⟩ := CWsSession.runNext_inv ran
    have popped := CWsSession.runNext_strand front ran
    refine ⟨fun t'' found => ?_, (fun gone => by cases after.symm.trans gone)⟩
    cases after.symm.trans found
    have allowed : CWsSession.BeastOk t (.run true) := trivial
    refine ⟨CWsSession.step_inv inv allowed run, ⟨limit, written ++ (t.writesOut (.run true)).toList, ?_⟩, ?_⟩
    · simp only [acceptsAt, if_true, before, Option.bind_some]
      exact CWsSession.step_kept kept inv run
    · simp only [readsAt, handlesAt, if_true, before, Option.bind_some, front, List.head?_cons, Option.toList_none,
        List.append_nil]
      rw [List.append_assoc, Channel.arrived_pop (popped ▸ front)]
      exact whole

theorem step_written (step : Server.step c l = some c') (awaited : Awaited c) (ends : Endpoint k c accepted passed handled) :
    writtenAt k c <+: writtenAt k c' := by
  have grows : ∀ {t t' : CWsSession} {l' : CWsSession.Label}, c.shared.sessions[k]? = some t →
      c'.shared.sessions[k]? = some t' → t.step l' = some t' → writtenAt k c <+: writtenAt k c' := by
    intro t t' l' before after stepped
    rw [writtenAt, writtenAt, before, after]
    exact Channel.written_grows (CWsSession.step_started stepped (ends.present t before).1.waiting)
  cases step_session step awaited k with
  | touches beside apart touches =>
    cases after : c'.shared.sessions[k]? with
    | none =>
      rw [writtenAt, touches.absent after]
      exact List.nil_prefix
    | some t' =>
      rcases touches.step after with same | ⟨fresh, -⟩ | ⟨t, l', before, stepped, -⟩
      · have unchanged : writtenAt k c = writtenAt k c' := by rw [writtenAt, writtenAt, same, after]
        exact unchanged ▸ List.prefix_refl _
      · rw [writtenAt, fresh]
        exact List.nil_prefix
      · exact grows before after stepped
  | @completes t i ec frame ch before done after =>
    have completed : t.step (.complete i ec frame) = some { t with toChannel := ch } := by
      simp only [CWsSession.step, done, Option.map_some]
    exact grows before after completed
  | @runs t t' calls before ran after =>
    have run : t.step (.run true) = some t' := by simp only [CWsSession.step, ran, Option.map_some]
    exact grows before after run

/-- What is on the wire was accepted. -/
theorem Endpoint.written_prefix (ends : Endpoint k c accepted passed handled) :
    writtenAt k c <+: accepted.map frameOf := by
  rw [writtenAt]
  cases found : c.shared.sessions[k]? with
  | none => exact List.nil_prefix
  | some t =>
    obtain ⟨-, ⟨limit, written, kept⟩, -⟩ := ends.present t found
    exact kept.ledger.written_prefix

/-- What was handled had been taken from the wire. -/
theorem Endpoint.handled_prefix (ends : Endpoint k c accepted passed handled) : handled <+: passed := by
  cases found : c.shared.sessions[k]? with
  | none =>
    rw [(ends.absent found).2.2]
    exact List.nil_prefix
  | some t =>
    rw [← (ends.present t found).2.2]
    exact List.prefix_append _ _

end Endpoint

end Server

end Websockets
