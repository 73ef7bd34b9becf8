import Mathlib
import Websockets.Server.Agreement

/-!
# The uri group of a client

A client's group is the longest registered uri that its request path lay within when it was registered. Counting,
broadcasting and the lookup of a frame's callbacks each find the group by themselves: `mUriCounts`, the entries of
`mClients`, and the entry under the id that the session kept. `registrations` is the history they are compared
with.
-/

namespace Websockets

open Std Lib

/-- The client a frame is looked up for. -/
def Action.speaker : Action → Option UInt32
  | onWsMessage clientId _ | onWsContent clientId _ => some clientId
  | _ => none

namespace Server

open CImpl

/-- An accepted registration: the id given, the session, and the longest match of its request path. -/
structure Registered where
  clientId : UInt32
  session : Nat
  uri : Bytes
  deriving DecidableEq

/-- The registration that a step performs. -/
def registration (c : Running) : Label → Option Registered
  | .run i _ => match head? c i with
    | some (.registerWsClient k target isSsl) =>
      (c.shared.impl.registerWsClientLocked k (parseTarget target).1 isSsl).map fun done =>
        ⟨done.2.clientId, k, c.shared.impl.longestUriMatchLocked (parseTarget target).1⟩
    | _ => none
  | _ => none

/-- The registrations of a run, in order. -/
def registrations (c : Running) (ls : List Label) : List Registered := system.collect registration c ls

variable {c c' : Running} {s s' : Server} {i k : Nat} {a : Action} {outs rest : List Action} {l : Label}
  {o : Owner} {throws : Bool} {t t' : CWsSession} {id : UInt32} {e : SClientEntry} {r : Registered}
  {regs : List Registered}

/-! ## Entries come from registrations -/

/-- The entry is that of the registration. -/
def Registered.Made (r : Registered) (id : UInt32) (e : SClientEntry) : Prop :=
  r.clientId = id ∧ r.session = e.session ∧ r.uri = e.uri

theorem getElem?_erase_some {m : TreeMap UInt32 SClientEntry} {clientId : UInt32}
    (present : (m.erase clientId)[id]? = some e) : m[id]? = some e := by
  rw [TreeMap.getElem?_erase] at present
  split at present
  · cases present
  · exact present

/-- An entry was there before, or the piece made it. -/
theorem Does.entry_inv (does : Does s i a s' outs) (present : s'.impl.mClients[id]? = some e) :
    s.impl.mClients[id]? = some e ∨
      ∃ k target isSsl impl r, a = .registerWsClient k target isSsl ∧
        s.impl.registerWsClientLocked k (parseTarget target).1 isSsl = some (impl, r) ∧
        r.clientId = id ∧ k = e.session ∧ r.matchedUri = e.uri := by
  cases does with
  | startLocked done =>
    unfold CImpl.startLocked at done
    split at done
    · cases done
    · cases done
      exact .inl present
  | stop => simp [stopLocked] at present
  | removeClient here =>
    rw [record_impl, setImpl_impl, eraseClient_mClients] at present
    exact .inl (getElem?_erase_some present)
  | onWsClosed here =>
    rw [record_impl, setImpl_impl, countReport, eraseClient_mClients] at present
    exact .inl (getElem?_erase_some present)
  | @register k target isSsl impl r done =>
    rw [record_impl, setImpl_impl, (registerWsClientLocked_inv done).mClients, TreeMap.getElem?_insert] at present
    split at present
    · next eq =>
      cases present
      exact .inr ⟨k, target, isSsl, impl, r, rfl, done, LawfulEqCmp.eq_of_compare eq, rfl, rfl⟩
    · exact .inl present
  | _ => exact .inl present

theorem step_entry_inv (step : step c l = some c') (present : c'.shared.impl.mClients[id]? = some e) :
    c.shared.impl.mClients[id]? = some e ∨ ∃ r, registration c l = some r ∧ r.Made id e := by
  rcases step_ran_or_begins step with ⟨i, throws, o, a, rest, outs, rfl, ran, does⟩ | begins
  · rcases does.entry_inv present with old | ⟨k, target, isSsl, impl, r, rfl, done, same, session, uri⟩
    · exact .inl old
    · refine .inr ⟨⟨r.clientId, k, c.shared.impl.longestUriMatchLocked (parseTarget target).1⟩, ?_, same, session, ?_⟩
      · simp only [registration, head?_eq ran.task, done, Option.map_some]
      · rw [← uri, (registerWsClientLocked_inv done).matchedUri]
  · rw [begins.impl] at present
    exact .inl present

/-- A registration draws the next id. -/
theorem step_registration (step : step c l = some c') (made : registration c l = some r) :
    r.clientId = c.shared.impl.mNextConnectionId ∧ c'.shared.impl.allocated = c.shared.impl.allocated + 1 := by
  cases l with
  | run i throws =>
    obtain ⟨o, a, rest, outs, ran⟩ := Tasks.run_inv step
    simp only [registration, head?_eq ran.task] at made
    split at made
    next k target isSsl eq =>
      cases eq
      obtain ⟨⟨impl, done⟩, locked, rfl⟩ := Option.map_eq_some_iff.1 made
      have registers := registerWsClientLocked_inv locked
      refine ⟨registers.clientId, ?_⟩
      have result := ran.action
      simp only [exec, registerWsClient, locked, Option.some.injEq, Prod.mk.injEq] at result
      rw [← result.1, record_impl, setImpl_impl, registers.allocated]
    next => cases made
  | _ => cases made

/-- The registrations so far, and the clients that are still there. -/
structure Groups (c : Running) (regs : List Registered) : Prop where
  clients : ∀ (id : UInt32) e, c.shared.impl.mClients[id]? = some e → ∃ r ∈ regs, r.Made id e
  drawn : ∀ r ∈ regs, ∃ n, 1 ≤ n ∧ n ≤ c.shared.impl.allocated ∧ r.clientId = UInt32.ofNat n
  once : c.shared.impl.allocated < 2 ^ 32 - 1 → regs.Pairwise fun r r' => r.clientId ≠ r'.clientId

theorem step_groups (groups : Groups c regs) (numbered : c.shared.impl.Numbered) (step : step c l = some c') :
    Groups c' (regs ++ (registration c l).toList) := by
  have grows := step_allocated_le step
  have older : ∀ r ∈ regs, ∃ n, 1 ≤ n ∧ n ≤ c'.shared.impl.allocated ∧ r.clientId = UInt32.ofNat n := by
    intro r mem
    obtain ⟨n, pos, le, eq⟩ := groups.drawn r mem
    exact ⟨n, pos, by omega, eq⟩
  refine ⟨fun id e present => ?_, fun r mem => ?_, fun bound => ?_⟩
  · rcases step_entry_inv step present with old | ⟨r, made, same⟩
    · obtain ⟨r, mem, same⟩ := groups.clients id e old
      exact ⟨r, List.mem_append_left _ mem, same⟩
    · exact ⟨r, by simp [made], same⟩
  · rcases List.mem_append.1 mem with old | new
    · exact older r old
    · obtain ⟨next, allocated⟩ := step_registration step (Option.mem_toList.1 new)
      exact ⟨c.shared.impl.allocated + 1, by omega, by omega, next.trans numbered.next⟩
  · have before := groups.once (by omega)
    cases made : registration c l with
    | none => simpa using before
    | some r =>
      obtain ⟨next, allocated⟩ := step_registration step made
      rw [Option.toList_some, List.pairwise_append]
      refine ⟨before, List.pairwise_singleton _ _, fun r' mem r'' last => ?_⟩
      obtain rfl := List.mem_singleton.1 last
      obtain ⟨n, pos, le, eq⟩ := groups.drawn r' mem
      -- the new id has a number of its own below the wrap
      rw [eq, next, numbered.next]
      intro same
      have := ofNat_inj (by omega) (by omega) same
      omega

theorem run_groups {allowedUris : Option (List Bytes)} {maxSessionBacklog : Nat} {ls : List Label}
    (run : system.exec (create allowedUris maxSessionBacklog) ls = some c) :
    Groups c (registrations (create allowedUris maxSessionBacklog) ls) := by
  refine System.invariant_run
    (fun pre c => Groups c (registrations (create allowedUris maxSessionBacklog) pre)) ?_ ?_ run System.along_true
  · exact ⟨fun id e present => by simp [create] at present, List.forall_mem_nil _, fun _ => List.Pairwise.nil⟩
  · intro pre c l c' before groups _ step
    rw [registrations, System.collect_snoc before]
    exact step_groups groups (run_counted before).numbered step

/-! ## Frames carry the id of their session -/

/-- The log lines and the report of a closing session speak for nobody. -/
theorem handleClosed_quiet (t : CWsSession) (e : ErrorCode) :
    ∀ call ∈ (CWsSession.handleClosed true t e).2, ∀ id, (ofWsCall k call).speaker ≠ some id := by
  intro call here id
  simp only [CWsSession.handleClosed] at here
  split at here
  · rcases List.mem_append.1 here with log | report
    · split at log
      · cases log
      · rw [List.mem_singleton.1 log]
        exact fun h => by cases h
    · rw [List.mem_singleton.1 report]
      exact fun h => by cases h
  · cases here

/-- The frame of a session is looked up under the id the session has. -/
theorem runNext_speaker {calls : List WsCall} {call : WsCall} (ran : t.runNext true = some (t', calls))
    (mem : call ∈ calls) (speaker : (ofWsCall k call).speaker = some id) :
    id = t.mClientId ∧ t'.mClientId = t.mClientId ∧ t'.registering = false := by
  have silent : ∀ {logs : List WsCall}, (∀ call ∈ logs, ∀ id, (ofWsCall k call).speaker ≠ some id) →
      call ∉ logs := fun quiet here => quiet call here id speaker
  have closed : ∀ e, call ∉ (CWsSession.handleClosed true t.popped e).2 := fun e =>
    silent (handleClosed_quiet t.popped e)
  obtain ⟨idle, h, rest, front, result⟩ := CWsSession.runNext_inv ran
  obtain ⟨rfl, rfl⟩ : t' = (CWsSession.handle true t.popped h).1 ∧ calls = (CWsSession.handle true t.popped h).2 :=
    ⟨congrArg Prod.fst result, congrArg Prod.snd result⟩
  match h with
  | .posted (.send payload) =>
    refine absurd mem (silent fun call here id' => ?_)
    simp only [CWsSession.handle, CWsSession.send] at here
    split at here
    · cases here
    · split at here
      · split at here
        · rw [List.mem_singleton.1 here]
          exact fun h => by cases h
        · cases here
      · cases here
  | .posted .close => cases mem
  | .completed (.opening .accept) none frame =>
    rw [List.mem_singleton.1 mem] at speaker
    cases speaker
  | .completed (.opening .accept) (some e) frame =>
    refine absurd mem (silent fun call here id' => ?_)
    simp only [CWsSession.handle, CWsSession.onAccept] at here
    split at here
    · cases here
    · rw [List.mem_singleton.1 here]
      exact fun h => by cases h
  | .completed .read none frame =>
    refine ⟨?_, rfl, idle⟩
    rw [List.mem_singleton.1 mem] at speaker
    cases isText : frame.isText <;> rw [isText] at speaker <;> exact (Option.some.inj speaker).symm
  | .completed .read (some e) frame => exact absurd mem (closed e)
  | .completed (.write isText node) none frame => cases mem
  | .completed (.write isText node) (some e) frame => exact absurd mem (closed e)
  | .completed .close ec frame => cases mem

/-- A frame on its way to the lookup comes from the strand of a session that has the id. -/
def Speaks (c : Running) : Prop :=
  ∀ j o b id, c.At j o b → b.speaker = some id →
    ∃ k t, o = .strand k ∧ c.shared.sessions[k]? = some t ∧ t.registering = false ∧ t.mClientId = id

theorem yields_speaker {b : Action} (yields : Yields s a b) : b.speaker = none := by
  cases yields <;> rfl

/-- Sessions outside `OnAccept` stay there, with their ids. -/
def KeepsIds (s s' : Server) : Prop :=
  ∀ (k : Nat) (t : CWsSession), s.sessions[k]? = some t → t.registering = false →
    ∃ t' : CWsSession, s'.sessions[k]? = some t' ∧ t'.registering = false ∧ t'.mClientId = t.mClientId

theorem KeepsIds.refl (s : Server) : KeepsIds s s := fun _ t found idle => ⟨t, found, idle, rfl⟩

/-- Operations that are not a strand's begin with no frame. -/
theorem speaks_begins {todo : List Action} (speaks : Speaks c) (sessions : KeepsIds c.shared c'.shared)
    (tasks : ∀ j o b, c'.At j o b → c.At j o b ∨ b ∈ todo) (silent : ∀ b ∈ todo, b.speaker = none) : Speaks c' := by
  intro j o b id pending speaker
  rcases tasks j o b pending with old | new
  · obtain ⟨k, t, owner, found, idle, clientId⟩ := speaks j o b id old speaker
    obtain ⟨t', found', idle', same⟩ := sessions k t found idle
    exact ⟨k, t', owner, found', idle', same.trans clientId⟩
  · rw [silent b new] at speaker
    cases speaker

/-- A piece of an operation leaves the ids of sessions outside `OnAccept` alone. -/
theorem Does.keepsIds (does : Does c.shared i a s' outs) (agreement : Agreement c) (head : c.At i o a) :
    KeepsIds c.shared s' := by
  intro k t found idle
  have moved : ∀ m (f : CWsSession → CWsSession), s' = c.shared.mapSession m f →
      (m = k → (f t).registering = false ∧ (f t).mClientId = t.mClientId) →
      ∃ t' : CWsSession, s'.sessions[k]? = some t' ∧ t'.registering = false ∧ t'.mClientId = t.mClientId := by
    intro m f eq keeps
    rw [eq, getElem?_mapSession, found]
    split
    · next same => exact ⟨f t, rfl, keeps same⟩
    · exact ⟨t, rfl, idle, rfl⟩
  rcases does.sessions with same | ⟨m, payload, -, eq⟩ | ⟨m, -, eq, -⟩ | ⟨m, clientId, rfl, eq, -⟩
  · rw [same]
    exact ⟨t, found, idle, rfl⟩
  · exact moved m _ eq fun _ => ⟨idle, rfl⟩
  · exact moved m _ eq fun _ => ⟨idle, rfl⟩
  · refine moved m _ eq ?_
    rintro rfl
    -- the result of a registration is on its way only to a session inside it
    obtain ⟨result, busy, -⟩ :=
      (agreement.present m t found).phase.of_return (Tasks.count_pos head (by simp [isReturn]))
    exact absurd (busy.symm.trans idle) (by decide)

theorem step_speaks (speaks : Speaks c) (agreement : Agreement c) (step : step c l = some c') : Speaks c' := by
  have same := KeepsIds.refl c.shared
  have spawned : ∀ {d : Running} {o todo} j q b, (d.spawn o todo).At j q b → d.At j q b ∨ b ∈ todo :=
    fun j q b here => (Tasks.at_spawn.1 here).imp_right fun new => new.2.2
  cases step_steps step with
  | api call =>
    refine speaks_begins speaks same spawned fun b mem => ?_
    rw [List.mem_singleton.1 mem]
    cases call <;> rfl
  | run ran does =>
    refine speaks_begins speaks (does.keepsIds agreement ran.at_head)
      (fun j q b here => (ran.at_inv here).imp_right fun new => new.2.2) fun b mem => ?_
    exact yields_speaker (exec_yields ran.action b mem)
  | upgrade target isSsl listened =>
    refine speaks_begins speaks (fun k t found idle => ⟨t, ?_, idle, rfl⟩) (fun j q b here => .inl here)
      (List.forall_mem_nil _)
    simp only [upgrade]
    split
    · exact (List.getElem?_append_left (List.getElem?_eq_some_iff.1 found).1).trans found
    · exact found
  | httpRequest path listened =>
    refine speaks_begins speaks same spawned fun b mem => ?_
    rw [List.mem_singleton.1 mem]
    rfl
  | @complete m i ec frame u ch here done =>
    refine speaks_begins speaks (fun k t found idle => ?_) (fun j q b old => .inl old) (List.forall_mem_nil _)
    rw [setSession, getElem?_mapSession, found]
    split
    · next eq =>
      subst eq
      cases found.symm.trans here
      exact ⟨_, rfl, idle, rfl⟩
    · exact ⟨t, rfl, idle, rfl⟩
  | @strand m u u' calls free here ran =>
    intro j o b id pending speaker
    have owned : o = .strand m → id = u.mClientId ∧ u'.mClientId = u.mClientId ∧ u'.registering = false := by
      rintro rfl
      rcases Tasks.at_spawn.1 pending with old | ⟨-, -, new⟩
      · exact absurd old (Tasks.not_at_of_idle free)
      · obtain ⟨call, mem, rfl⟩ := List.mem_map.1 new
        exact runNext_speaker ran mem speaker
    by_cases mine : o = .strand m
    · obtain ⟨same, kept, idle⟩ := owned mine
      refine ⟨m, u', mine, ?_, idle, kept.trans same.symm⟩
      change (c.shared.setSession m u').sessions[m]? = some u'
      rw [setSession, getElem?_mapSession, if_pos rfl, here]
      rfl
    · rcases Tasks.at_spawn.1 pending with old | ⟨-, owner, -⟩
      · obtain ⟨k, t, rfl, found, idle, clientId⟩ := speaks j o b id old speaker
        refine ⟨k, t, rfl, ?_, idle, clientId⟩
        change (c.shared.setSession m u').sessions[k]? = some t
        rw [setSession, getElem?_mapSession, if_neg fun eq => mine (by rw [eq]), found]
      · exact absurd owner mine
  | work idle running queue =>
    refine speaks_begins speaks same spawned fun b mem => ?_
    rw [List.mem_singleton.1 mem]
    rfl

theorem run_speaks {allowedUris : Option (List Bytes)} {maxSessionBacklog : Nat} {ls : List Label}
    (run : system.exec (create allowedUris maxSessionBacklog) ls = some c)
    (bound : c.shared.impl.allocated < 2 ^ 32 - 1) : Speaks c := by
  have kept : Settled c ∧ (c.shared.impl.allocated < 2 ^ 32 - 1 → Speaks c) := by
    refine System.invariant (fun d => Settled d ∧ (d.shared.impl.allocated < 2 ^ 32 - 1 → Speaks d))
      ⟨create_settled allowedUris maxSessionBacklog, fun _ => ?_⟩ (fun d l d' before step => ?_) run
    · rintro j o b id ⟨t, found, -⟩
      simp [create] at found
    · refine ⟨step_settled before.1 step, fun bound => ?_⟩
      have lower := Nat.lt_of_le_of_lt (step_allocated_le step) bound
      exact step_speaks (before.2 lower) (before.1.agreement lower) step
  exact kept.2 bound

/-! ## The three paths agree -/

/-- A session is that of one client only. -/
theorem Agreement.entry_unique (agreement : Agreement c) {id' : UInt32} {e' : SClientEntry}
    (present : c.shared.impl.mClients[id]? = some e) (present' : c.shared.impl.mClients[id']? = some e')
    (same : e'.session = e.session) : id' = id := by
  have one := agreement.entry_listed present
  have other := agreement.entry_listed present'
  rw [same] at other
  cases found : c.shared.sessions[e.session]? with
  | none => exact absurd one ((agreement.absent _ found).unlisted id)
  | some t =>
    cases (agreement.present _ t found).phase with
    | before _ _ _ unlisted => exact absurd one (unlisted id)
    | calling _ _ _ unlisted => exact absurd one (unlisted id)
    | returning result _ _ _ listed => rw [((listed id).1 one).1, ((listed id').1 other).1]
    | done _ listed => rw [((listed id).1 one).1, ((listed id').1 other).1]

/-- The client of a registration is found under its group on every path. -/
structure Routed (c : Running) (r : Registered) : Prop where
  broadcast : ∀ uri, uri ≠ [] → (r.session ∈ c.shared.impl.broadcastTargets (some uri) ↔ uri = r.uri)
  /-- The frames looked up under its id are those that its session has read. -/
  frames : ∀ j o b, c.At j o b → (b.speaker = some r.clientId ↔ o = .strand r.session ∧ b.speaker.isSome = true)
  message : ∀ m, c.shared.onWsMessage r.clientId m = [.postCallback
    (c.shared.impl.mClientCbs.mOnClientMessageReceivedCb.toList ++
      (if r.uri = [] then none else c.shared.impl.mUris[r.uri]?.bind CUriCallbacks.mOnClientMessageReceivedCb).toList)
    (.message r.clientId m)]
  content : ∀ m, c.shared.onWsContent r.clientId m = [.postCallback
    (c.shared.impl.mClientCbs.mOnClientContentReceivedCb.toList ++
      (if r.uri = [] then none else c.shared.impl.mUris[r.uri]?.bind CUriCallbacks.mOnClientContentReceivedCb).toList)
    (.content r.clientId m)]

/-- Two registrations with one id are the same. -/
theorem Groups.unique (groups : Groups c regs) (bound : c.shared.impl.allocated < 2 ^ 32 - 1) {r r' : Registered}
    (mem : r ∈ regs) (mem' : r' ∈ regs) (same : r.clientId = r'.clientId) : r = r' :=
  List.inj_on_of_nodup_map (List.pairwise_map.2 (groups.once bound)) mem mem' same

/-- The entry of a client is the one its registration made. -/
theorem Groups.entry (groups : Groups c regs) (bound : c.shared.impl.allocated < 2 ^ 32 - 1) (mem : r ∈ regs)
    (present : c.shared.impl.mClients[r.clientId]? = some e) : r.session = e.session ∧ r.uri = e.uri := by
  obtain ⟨r', mem', same, session, uri⟩ := groups.clients _ _ present
  obtain rfl := groups.unique bound mem mem' same.symm
  exact ⟨session, uri⟩

theorem mem_broadcastTargets {impl : CImpl} {uri : Bytes} :
    k ∈ impl.broadcastTargets (some uri) ↔
      ∃ (id : UInt32) (e : SClientEntry), impl.mClients[id]? = some e ∧ e.uri = uri ∧ e.session = k := by
  simp only [broadcastTargets, List.mem_map, List.mem_filter, beq_iff_eq]
  constructor
  · rintro ⟨⟨id, e⟩, ⟨mem, same⟩, session⟩
    exact ⟨id, e, TreeMap.mem_toList_iff_getElem?_eq_some.1 mem, same, session⟩
  · rintro ⟨id, e, present, same, session⟩
    exact ⟨(id, e), ⟨TreeMap.mem_toList_iff_getElem?_eq_some.2 present, same⟩, session⟩

/-- The callbacks for a frame of a registered client. -/
theorem onWsReceived_registered {s : Server} (present : s.impl.mClients[id]? = some e)
    (pick : CClientCallbacks → Option Fn) (pickUri : CUriCallbacks → Option Fn) (notice : Notice) :
    s.onWsReceived id pick pickUri notice = [.postCallback ((pick s.impl.mClientCbs).toList ++
      (if e.uri = [] then none else s.impl.mUris[e.uri]?.bind pickUri).toList) notice] := by
  simp only [onWsReceived, lookupReceiveCallbacks, present, List.isEmpty_iff]

theorem Groups.routed (groups : Groups c regs) (bound : c.shared.impl.allocated < 2 ^ 32 - 1) (settled : Settled c)
    (speaks : Speaks c) (mem : r ∈ regs) (here : c.shared.impl.mClients[r.clientId]?.isSome = true) : Routed c r := by
  obtain ⟨e, present⟩ := Option.isSome_iff_exists.1 here
  obtain ⟨session, group⟩ := groups.entry bound mem present
  have agreement := settled.agreement bound
  have books := settled.kept.2 bound
  have listed : Listed c r.session r.clientId := session ▸ agreement.entry_listed present
  refine ⟨fun uri nonempty => ⟨fun reached => ?_, ?_⟩, fun j o b pending => ⟨fun speaker => ?_, ?_⟩, fun m => ?_,
    fun m => ?_⟩
  · obtain ⟨id', e', present', same, mine⟩ := mem_broadcastTargets.1 reached
    obtain rfl := agreement.entry_unique present present' (mine.trans session)
    cases present.symm.trans present'
    exact same.symm.trans group.symm
  · rintro rfl
    exact mem_broadcastTargets.2 ⟨_, e, present, group.symm, session.symm⟩
  · obtain ⟨k, t, rfl, found, idle, clientId⟩ := speaks j o b _ pending speaker
    have nonzero : t.mClientId ≠ 0 := by
      rw [clientId]
      exact books.listed_ne_zero (by omega) listed
    have theirs := (agreement.present k t found).phase.listed_of_clientId nonzero
    rw [clientId] at theirs
    rw [books.listed_unique theirs listed]
    exact ⟨rfl, by rw [speaker]; rfl⟩
  · rintro ⟨rfl, some⟩
    obtain ⟨id', speaker⟩ := Option.isSome_iff_exists.1 some
    obtain ⟨k, t, owner, found, idle, clientId⟩ := speaks j _ b id' pending speaker
    cases owner
    rw [speaker, ← clientId, (agreement.present _ t found).phase.clientId_of_listed idle listed]
  · rw [group]
    exact onWsReceived_registered present _ _ _
  · rw [group]
    exact onWsReceived_registered present _ _ _

/-- The clients counted under a uri are those registered under it. -/
theorem Groups.counted (groups : Groups c regs) (bound : c.shared.impl.allocated < 2 ^ 32 - 1) (uri : Bytes) :
    c.shared.impl.attached uri =
      c.shared.impl.mClients.keys.countP fun id => regs.any fun r => r.clientId == id && r.uri == uri := by
  rw [attached, countValues, ← TreeMap.map_fst_toList_eq_keys, List.countP_map]
  refine List.countP_congr fun entry mem => ?_
  obtain ⟨id, e⟩ := entry
  have present : c.shared.impl.mClients[id]? = some e := TreeMap.mem_toList_iff_getElem?_eq_some.1 mem
  simp only [Function.comp_apply, List.any_eq_true, Bool.and_eq_true, beq_iff_eq]
  constructor
  · intro same
    obtain ⟨r, here, clientId, -, group⟩ := groups.clients id e present
    exact ⟨r, here, clientId, group.trans same⟩
  · rintro ⟨r, here, rfl, same⟩
    rw [← same, (groups.entry bound here present).2]

/-- **Every path finds a client under the uri it was registered under.** In every run that drew fewer than 2^32 - 1
ids, each client in `mClients` was registered once; `mUriCounts` counts under a uri exactly the clients registered
under it; and, however the uris have changed since, a client is reached by a broadcast to its own group only, and
its frames go to the callback registered now under its group and to no other uri's. -/
theorem uri_groups (allowedUris : Option (List Bytes)) (maxSessionBacklog : Nat) (ls : List Label) (c : Running)
    (run : system.exec (create allowedUris maxSessionBacklog) ls = some c)
    (bound : c.shared.impl.allocated < 2 ^ 32 - 1) :
    (∀ clientId : UInt32, c.shared.impl.mClients[clientId]?.isSome = true →
      ∃! r, r ∈ registrations (create allowedUris maxSessionBacklog) ls ∧ r.clientId = clientId) ∧
    (∀ uri, uri ≠ [] → c.shared.impl.uriCount uri = c.shared.impl.mClients.keys.countP fun id =>
      (registrations (create allowedUris maxSessionBacklog) ls).any fun r => r.clientId == id && r.uri == uri) ∧
    ∀ r ∈ registrations (create allowedUris maxSessionBacklog) ls,
      c.shared.impl.mClients[r.clientId]?.isSome = true → Routed c r := by
  have groups := run_groups run
  refine ⟨fun clientId here => ?_, fun uri nonempty => ?_, fun r mem here => ?_⟩
  · obtain ⟨e, present⟩ := Option.isSome_iff_exists.1 here
    obtain ⟨r, mem, same, -⟩ := groups.clients clientId e present
    exact ⟨r, ⟨mem, same⟩, fun r' other => groups.unique bound other.1 mem (other.2.trans same.symm)⟩
  · rw [(run_counted run).counts bound uri nonempty]
    exact groups.counted bound uri
  · exact groups.routed bound (run_settled run) (run_speaks run bound) mem here

/-- The client of `/a` stays in its group after `/a` has been removed and the nearer `/a/b` added. -/
def regrouped : List Label :=
  oneClient ++ [.run 2 false, .run 2 false, .run 2 false, .api (.removeUri (str "/a")), .run 3 false,
    .api (.addUri (str "/a/b") { mOnClientMessageReceivedCb := some 9 }), .run 4 false]

theorem regrouped_runs : (system.exec (create none 1024) regrouped).isSome = true := by decide

theorem uri_groups_regrouped :
    ∃ c, system.exec (create none 1024) regrouped = some c ∧
      c.shared.impl.longestUriMatchLocked (str "/a/b") = str "/a/b" ∧ Routed c ⟨1, 0, str "/a"⟩ := by
  refine ⟨_, System.exec_get regrouped_runs, by decide, ?_⟩
  have groups := uri_groups none 1024 regrouped _ (System.exec_get regrouped_runs) (by decide)
  exact groups.2.2 _ (by decide) (by decide)

end Server

end Websockets
