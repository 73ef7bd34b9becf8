import Websockets.Http.ErrorBody
import Websockets.Server.Counts

/-!
# The ids of http requests

A server with its http connections. What `HandleHttpRequest` draws comes from the counter of the server, which
websocket registrations draw from, too; everything else a connection does leaves the registry alone. Each
connection has its own view of the work queue. Http requests come from the connections only.
-/

namespace Websockets

open Lib CImpl

namespace CHttpConnection

/-- The id the request that is being handled was given, until a handler is looked up. -/
def inHand (c : CHttpConnection) : Option UInt32 :=
  match c.todo with
  | some (.findHttpHandler n) => c.exchanges[n]?.map fun e => e.mHttpMsg.clientId
  | _ => none

/-- A request that is being handled has no wrapper before its handler is found. -/
def Waiting (c : CHttpConnection) : Prop :=
  ∀ n, c.todo = some (.nextConnectionId n) ∨ c.todo = some (.findHttpHandler n) →
    ∃ e, c.exchanges[n]? = some e ∧ e.wrapper = none

/-- The registry is as before, and so are the requests without a wrapper. -/
structure Quiet (c c' : CHttpConnection) : Prop where
  impl : c'.impl = c.impl
  todo : c'.todo = c.todo
  exchanges : ∀ (n : Nat) (e : Exchange), c.exchanges[n]? = some e → e.wrapper = none → c'.exchanges[n]? = some e

variable {c c' : CHttpConnection} {n : Nat} {w : CHttpWrapper} {f : Exchange → Exchange}

theorem Quiet.of_same (impl : c'.impl = c.impl) (todo : c'.todo = c.todo) (exchanges : c'.exchanges = c.exchanges) :
    Quiet c c' :=
  ⟨impl, todo, fun _ _ here _ => by rw [exchanges, here]⟩

theorem Quiet.rfl : Quiet c c := .of_same (Eq.refl _) (Eq.refl _) (Eq.refl _)

theorem Quiet.waiting (quiet : Quiet c c') (waiting : Waiting c) : Waiting c' := by
  intro n asks
  rw [quiet.todo] at asks
  obtain ⟨e, here, none⟩ := waiting n asks
  exact ⟨e, quiet.exchanges n e here none, none⟩

theorem Quiet.inHand (quiet : Quiet c c') (waiting : Waiting c) : c'.inHand = c.inHand := by
  unfold CHttpConnection.inHand
  rw [quiet.todo]
  split
  · next n asks =>
    obtain ⟨e, here, none⟩ := waiting n (.inr asks)
    rw [quiet.exchanges n e here none, here]
  · rfl

/-- A message is only changed once it has a wrapper. -/
theorem Quiet.modify (quiet : Quiet c c') (found : c.wrapperOf n = some w) : Quiet c (c'.modify n f) := by
  refine ⟨quiet.impl, quiet.todo, fun m e here none => ?_⟩
  have other : n ≠ m := by
    rintro rfl
    rw [CHttpConnection.wrapperOf, here, Option.bind_some, none] at found
    cases found
  rw [CHttpConnection.modify, List.getElem?_modify, quiet.exchanges m e here none]
  exact congrArg some (if_neg other)

theorem destroy_quiet : Quiet c (c.destroy n) := by
  unfold CHttpConnection.destroy
  split
  · exact .rfl
  · next w found =>
    have dead : Quiet c (c.setWrapper n { w with alive := false }) := Quiet.rfl.modify found
    dsimp only
    split
    · exact dead
    · have bad := dead.modify (f := fun e => { e with mHttpMsg := e.mHttpMsg.badRequest }) found
      exact ⟨bad.impl, bad.todo, bad.exchanges⟩

theorem Quiet.release (quiet : Quiet c c') (n : Nat) : Quiet c (c'.release n) := by
  unfold CHttpConnection.release
  split
  · exact quiet
  · have gone : Quiet c' (c'.destroy n) := destroy_quiet
    exact ⟨gone.impl.trans quiet.impl, gone.todo.trans quiet.todo,
      fun m e here none => gone.exchanges m e (quiet.exchanges m e here none) none⟩

theorem Quiet.releaseJob (quiet : Quiet c c') (job : Job) : Quiet c (c'.releaseJob job) := by
  unfold CHttpConnection.releaseJob
  split
  · exact quiet
  · exact quiet.release _

theorem reply_quiet : Quiet c (c.reply n) := by
  unfold CHttpConnection.reply
  split
  · exact .rfl
  · next w found =>
    split
    · exact .of_same rfl rfl rfl
    · have sent : Quiet c (c.setWrapper n { w with mResponseSent := true }) := Quiet.rfl.modify found
      exact ⟨sent.impl, sent.todo, sent.exchanges⟩

/-- Reading a request is the only thing on the strand that gives the connection something to do. -/
structure Reads (c c' : CHttpConnection) : Prop where
  impl : c'.impl = c.impl
  inHand : c'.inHand = none
  waiting : Waiting c'

theorem Quiet.reads (quiet : Quiet c c') (free : c.todo = none) : Reads c c' := by
  have nothing : c'.todo = none := quiet.todo.trans free
  refine ⟨quiet.impl, ?_, fun n asks => ?_⟩
  · unfold CHttpConnection.inHand
    rw [nothing]
  · rw [nothing] at asks
    obtain is | is := asks <;> cases is

theorem Performs.quiet {task : Task} (performs : Performs c task c') (free : c.todo = none) : Reads c c' := by
  cases performs with
  | refuses =>
    refine Quiet.reads ⟨rfl, rfl, fun n e here _ => ?_⟩ free
    exact (List.getElem?_append_left (List.getElem?_eq_some_iff.1 here).1).trans here
  | asks =>
    refine ⟨rfl, rfl, fun n asks => ?_⟩
    obtain is | is := asks <;> cases is
    exact ⟨_, List.getElem?_concat_length, rfl⟩
  | closes =>
    refine Quiet.reads ?_ free
    unfold CHttpConnection.doShutdown
    split
    · exact .of_same rfl rfl rfl
    · exact .of_same rfl rfl rfl
  | ends | fails | handshaken | upgrades | reads | sends | throws => exact Quiet.reads (.of_same rfl rfl rfl) free

/-- What a step of a connection is to the registry and to the id in hand. -/
inductive Moves (c c' : CHttpConnection) (l : Label) : Prop where
  | keeps (impl : c'.impl = c.impl) (inHand : c'.inHand = c.inHand) (other : l = .handle → c.inHand = none)
  | draws (n : Nat) (asks : c.todo = some (.nextConnectionId n)) (impl : c'.impl = c.impl.nextConnectionId.1)
      (inHand : c'.inHand = some c.impl.mNextConnectionId)
  | finds (n : Nat) (asks : c.todo = some (.findHttpHandler n)) (impl : c'.impl = c.impl) (inHand : c'.inHand = none)

theorem Quiet.moves {l : Label} (quiet : Quiet c c') (waiting : Waiting c) (other : l ≠ .handle) :
    Moves c c' l ∧ Waiting c' :=
  ⟨.keeps quiet.impl (quiet.inHand waiting) fun same => absurd same other, quiet.waiting waiting⟩

theorem handle_moves {stage : Stage} (waiting : Waiting c) (doing : c.todo = some stage) :
    Moves c (c.handle stage) .handle ∧ Waiting (c.handle stage) := by
  cases stage with
  | nextConnectionId n =>
    obtain ⟨e, here, none⟩ := waiting n (.inl doing)
    have after : (c.handle (.nextConnectionId n)).exchanges[n]? =
        some { e with mHttpMsg := { e.mHttpMsg with clientId := c.impl.mNextConnectionId } } := by
      simp only [CHttpConnection.handle, CHttpConnection.modify, List.getElem?_modify, here]
      simp only [if_true, Option.map_eq_map, Option.map_some]
      rfl
    refine ⟨.draws n doing rfl ?_, fun m asks => ?_⟩
    · show ((c.handle (.nextConnectionId n)).exchanges[n]?.map fun e => e.mHttpMsg.clientId) = _
      rw [after]
      rfl
    · obtain is | is := asks <;> cases is
      exact ⟨_, after, none⟩
  | findHttpHandler n =>
    obtain ⟨e, here, none⟩ := waiting n (.inr doing)
    simp only [CHttpConnection.handle, here]
    split
    · refine ⟨.finds n doing rfl rfl, fun m asks => ?_⟩
      obtain is | is := asks <;> cases is
    · refine ⟨.finds n doing rfl rfl, fun m asks => ?_⟩
      obtain is | is := asks <;> cases is
  | postCallback handler n =>
    have nothing : c.inHand = none := by
      unfold CHttpConnection.inHand
      rw [doing]
    refine ⟨.keeps rfl nothing.symm fun _ => nothing, fun m asks => ?_⟩
    obtain is | is := asks <;> cases is
  | leave n =>
    have nothing : c.inHand = none := by
      unfold CHttpConnection.inHand
      rw [doing]
    have left : Quiet { c with todo := none } (c.handle (.leave n)) := Quiet.rfl.release n
    have free : Waiting { c with todo := none } := fun m asks => by obtain is | is := asks <;> cases is
    exact ⟨.keeps left.impl ((left.inHand free).trans nothing.symm) fun _ => nothing, left.waiting free⟩

/-- What the environment does to the registry is not a step of the connection. -/
def Label.isServer : Label → Bool
  | .server _ => true
  | _ => false

theorem step_moves {l : Label} (waiting : Waiting c) (own : l.isServer = false)
    (step : CHttpConnection.step c l = some c') : Moves c c' l ∧ Waiting c' := by
  cases step_steps step with
  | @strand task rest free queue =>
    have reads := (perform_performs { c with strand := rest } task).quiet free
    have nothing : c.inHand = none := by
      unfold CHttpConnection.inHand
      rw [free]
    exact ⟨.keeps reads.impl (reads.inHand.trans nothing.symm) nofun, reads.waiting⟩
  | handle doing => exact handle_moves waiting doing
  | reply => exact reply_quiet.moves waiting nofun
  | edit found => exact (Quiet.rfl.modify found).moves waiting nofun
  | @drop n kept =>
    have dropped : Quiet c { c with kept := c.kept.erase n } := .of_same rfl rfl rfl
    exact (dropped.release n).moves waiting nofun
  | @finish throws job running =>
    have ended : Quiet c (record { c with running := none } (if throws then [unhandled] else [])) :=
      .of_same rfl rfl rfl
    exact (ended.releaseJob job).moves waiting nofun
  | @clear job rest cleared =>
    have taken : Quiet c { c with cleared := rest } := .of_same rfl rfl rfl
    exact (taken.releaseJob job).moves waiting nofun
  | again => exact Quiet.rfl.moves waiting nofun
  | complete | work | keep | post | stop | serverGone => exact Quiet.moves (.of_same rfl rfl rfl) waiting nofun
  | server => cases own

theorem create_waiting (isSsl : Bool) (impl : CImpl) :
    Waiting (create isSsl impl) ∧ (create isSsl impl).inHand = none := by
  unfold create CHttpConnection.run
  cases isSsl with
  | true => exact ⟨fun n asks => (by obtain is | is := asks <;> cases is), rfl⟩
  | false => exact ⟨fun n asks => (by obtain is | is := asks <;> cases is), rfl⟩

end CHttpConnection

/-- A server and its http connections. -/
structure Hosting where
  server : Running
  connections : List CHttpConnection := []

namespace Hosting

inductive Label where
  | server (l : Server.Label)
  | accept (isSsl : Bool)
  | connection (k : Nat) (l : CHttpConnection.Label)

def isHttp : Server.Label → Bool
  | .httpRequest _ => true
  | _ => false

def step (h : Hosting) : Label → Option Hosting
  | .server l => if isHttp l then none else (Server.step h.server l).map fun server => { h with server := server }
  | .accept isSsl =>
    if h.server.shared.listened then
      some { h with connections := h.connections ++ [.create isSsl h.server.shared.impl] }
    else none
  | .connection k l =>
    match h.connections[k]? with
    | none => none
    | some c =>
      if l.isServer then none
      else (CHttpConnection.step { c with impl := h.server.shared.impl } l).map fun c' =>
        ⟨{ h.server with shared := h.server.shared.setImpl c'.impl }, h.connections.set k c'⟩

/-- Every order of what the server and its connections do. -/
def system : Lib.System Hosting Label := ⟨step⟩

def create (allowedUris : Option (List Bytes)) (maxSessionBacklog : Nat) : Hosting :=
  { server := Server.create allowedUris maxSessionBacklog }

/-- A request is dispatched when its handler has been found: the connection, and the id in the message. -/
def dispatchOf (h : Hosting) : Label → Option (Nat × UInt32)
  | .connection k .handle =>
    match h.connections[k]? with
    | none => none
    | some c => match c.todo with
      | some (.findHttpHandler n) => c.exchanges[n]?.bind fun e =>
        (h.server.shared.impl.findHttpHandler e.mHttpMsg.uri).map fun _ => (k, e.mHttpMsg.clientId)
      | _ => none
  | _ => none

def clientOf : Event → Option UInt32
  | .registered _ clientId => some clientId
  | _ => none

/-- The ids of all websocket clients there have been. -/
def clients (h : Hosting) : List UInt32 := h.server.shared.log.filterMap clientOf

/-- Every id that is or was somebody's. -/
def ids (h : Hosting) (sent : List (Nat × UInt32)) : List UInt32 :=
  sent.map Prod.snd ++ (h.connections.filterMap CHttpConnection.inHand ++ h.clients)

/-- Ids are told apart by the number of their draw, and the counter has passed none of them. -/
structure Ids (h : Hosting) (sent : List (Nat × UInt32)) : Prop where
  numbered : h.server.shared.impl.Numbered
  waiting : ∀ c ∈ h.connections, c.Waiting
  drawn : ∀ id ∈ h.ids sent, ∃ a ≤ h.server.shared.impl.allocated, id = UInt32.ofNat a
  distinct : h.server.shared.impl.allocated < 2 ^ 32 - 1 → (h.ids sent).Nodup

variable {h h' : Hosting} {sent sent' : List (Nat × UInt32)} {l : Label}

/-- The ids are the same ones, or some are gone. -/
theorem Ids.of_subperm (ids : Ids h sent) (numbered : h'.server.shared.impl.Numbered)
    (waiting : ∀ c ∈ h'.connections, c.Waiting)
    (le : h.server.shared.impl.allocated ≤ h'.server.shared.impl.allocated)
    (same : (h'.ids sent').Subperm (h.ids sent)) : Ids h' sent' where
  numbered := numbered
  waiting := waiting
  drawn id mem := by
    obtain ⟨a, bound, eq⟩ := ids.drawn id (same.subset mem)
    exact ⟨a, bound.trans le, eq⟩
  distinct bound := by
    obtain ⟨l, perm, sub⟩ := same
    exact perm.nodup_iff.1 (sub.nodup (ids.distinct (Nat.lt_of_le_of_lt le bound)))

/-- The next id is given out. -/
theorem Ids.of_draw (ids : Ids h sent) (numbered : h'.server.shared.impl.Numbered)
    (waiting : ∀ c ∈ h'.connections, c.Waiting)
    (drew : h'.server.shared.impl.allocated = h.server.shared.impl.allocated + 1)
    (new : (h'.ids sent').Perm (h.server.shared.impl.mNextConnectionId :: h.ids sent)) : Ids h' sent' where
  numbered := numbered
  waiting := waiting
  drawn id mem := by
    obtain rfl | old := List.mem_cons.1 (new.mem_iff.1 mem)
    · exact ⟨_, Nat.le_of_eq drew.symm, ids.numbered.next⟩
    · obtain ⟨a, bound, eq⟩ := ids.drawn id old
      exact ⟨a, by omega, eq⟩
  distinct bound := by
    rw [new.nodup_iff, List.nodup_cons]
    refine ⟨fun mem => ?_, ids.distinct (by omega)⟩
    obtain ⟨a, le, eq⟩ := ids.drawn _ mem
    rw [ids.numbered.next] at eq
    have := ofNat_inj (by omega) (by omega) eq
    omega

/-- Only registrations add a client, and each draws an id. -/
theorem does_clients {s s' : Server} {i : Nat} {a : Action} {outs : List Action} (does : Server.Does s i a s' outs) :
    s'.log.filterMap clientOf = s.log.filterMap clientOf ∨
      s'.impl.allocated = s.impl.allocated + 1 ∧
        s'.log.filterMap clientOf = s.log.filterMap clientOf ++ [s.impl.mNextConnectionId] := by
  cases does with
  | register done =>
    have registers := registerWsClientLocked_inv done
    exact .inr ⟨registers.allocated, by simp [clientOf, registers.clientId]⟩
  | stop =>
    left
    rw [Server.stop_log, List.filterMap_append, List.filterMap_map]
    simp [Function.comp_def, clientOf]
  | _ => exact .inl (by simp [clientOf])

theorem Ids.server {l : Server.Label} {c : Running} (ids : Ids h sent) (step : Server.step h.server l = some c) :
    Ids { h with server := c } sent := by
  have change : Change False h.server.shared.impl c.shared.impl := Server.step_change step fun holds => by cases holds
  have numbered := change.numbered ids.numbered
  have same (clients : c.shared.log.filterMap clientOf = h.clients) : Ids { h with server := c } sent := by
    refine ids.of_subperm numbered ids.waiting change.allocated_le ?_
    rw [Hosting.ids, Hosting.clients, clients]
    exact List.Subperm.refl _
  obtain ⟨i, throws, o, a, rest, outs, rfl, ran, does⟩ | begins := Server.step_ran_or_begins step
  · obtain clients | ⟨drew, clients⟩ := does_clients does
    · exact same clients
    · refine ids.of_draw numbered ids.waiting drew ?_
      rw [Hosting.ids, Hosting.clients, clients, ← List.append_assoc, ← List.append_assoc]
      exact (List.perm_append_comm).trans (by rw [List.singleton_append, Hosting.ids, List.append_assoc]; rfl)
  · exact same (congrArg _ begins.log)

theorem Ids.accept (ids : Ids h sent) (isSsl : Bool) :
    Ids { h with connections := h.connections ++ [.create isSsl h.server.shared.impl] } sent := by
  obtain ⟨waits, nothing⟩ := CHttpConnection.create_waiting isSsl h.server.shared.impl
  refine ids.of_subperm ids.numbered (fun c mem => ?_) (Nat.le_refl _) ?_
  · obtain old | new := List.mem_append.1 mem
    · exact ids.waiting c old
    · rw [List.mem_singleton.1 new]
      exact waits
  · have none : [CHttpConnection.create isSsl h.server.shared.impl].filterMap CHttpConnection.inHand = [] := by
      rw [List.filterMap_cons_none nothing, List.filterMap_nil]
    rw [Hosting.ids, List.filterMap_append, none, List.append_nil]
    exact List.Subperm.refl _

theorem filterMap_set {cs : List CHttpConnection} {k : Nat} {c : CHttpConnection} (c' : CHttpConnection)
    (here : cs[k]? = some c) :
    ∃ before after, cs.filterMap CHttpConnection.inHand = before ++ (c.inHand.toList ++ after) ∧
      (cs.set k c').filterMap CHttpConnection.inHand = before ++ (c'.inHand.toList ++ after) := by
  have one (d : CHttpConnection) (ds : List CHttpConnection) :
      (d :: ds).filterMap CHttpConnection.inHand = d.inHand.toList ++ ds.filterMap CHttpConnection.inHand := by
    cases found : d.inHand with
    | none => rw [List.filterMap_cons_none found, Option.toList_none, List.nil_append]
    | some id => rw [List.filterMap_cons_some found, Option.toList_some, List.singleton_append]
  obtain ⟨lt, get⟩ := List.getElem?_eq_some_iff.1 here
  refine ⟨(cs.take k).filterMap CHttpConnection.inHand, (cs.drop (k + 1)).filterMap CHttpConnection.inHand, ?_, ?_⟩
  · conv_lhs => rw [← List.take_append_drop k cs, List.drop_eq_getElem_cons lt, get]
    rw [List.filterMap_append, one]
  · rw [List.set_eq_take_append_cons_drop, if_pos lt, List.filterMap_append, one]

theorem dispatchOf_inv {k : Nat} {l : CHttpConnection.Label} {c : CHttpConnection} {d : Nat × UInt32}
    (here : h.connections[k]? = some c) (dispatched : dispatchOf h (.connection k l) = some d) :
    l = .handle ∧ c.inHand = some d.2 ∧ d.1 = k := by
  cases l with
  | handle =>
    simp only [dispatchOf, here] at dispatched
    split at dispatched
    · next n asks =>
      obtain ⟨e, found, handler⟩ := Option.bind_eq_some_iff.1 dispatched
      obtain ⟨_, _, same⟩ := Option.map_eq_some_iff.1 handler
      cases same
      refine ⟨rfl, ?_, rfl⟩
      unfold CHttpConnection.inHand
      rw [asks]
      show c.exchanges[n]?.map _ = _
      rw [found]
      rfl
    · cases dispatched
  | _ => cases dispatched

theorem Ids.connection {k : Nat} {l : CHttpConnection.Label} {c c' : CHttpConnection} (ids : Ids h sent)
    (here : h.connections[k]? = some c) (own : l.isServer = false)
    (step : CHttpConnection.step { c with impl := h.server.shared.impl } l = some c') :
    Ids ⟨{ h.server with shared := h.server.shared.setImpl c'.impl }, h.connections.set k c'⟩
      (sent ++ (dispatchOf h (.connection k l)).toList) := by
  have waits_here : CHttpConnection.Waiting { c with impl := h.server.shared.impl } :=
    ids.waiting c (List.mem_of_getElem? here)
  obtain ⟨moves, waits⟩ := CHttpConnection.step_moves waits_here own step
  have waiting : ∀ d ∈ h.connections.set k c', d.Waiting := by
    intro d mem
    obtain old | rfl := List.mem_or_eq_of_mem_set mem
    · exact ids.waiting d old
    · exact waits
  obtain ⟨before, after, was, is⟩ := filterMap_set c' here
  have clients : Hosting.clients ⟨{ h.server with shared := h.server.shared.setImpl c'.impl }, h.connections.set k c'⟩ =
      h.clients := rfl
  cases moves with
  | keeps impl inHand other =>
    have none : dispatchOf h (.connection k l) = none := by
      cases dispatched : dispatchOf h (.connection k l) with
      | none => rfl
      | some d =>
        obtain ⟨rfl, has, -⟩ := dispatchOf_inv here dispatched
        cases has.symm.trans (other rfl)
    rw [none, Option.toList_none, List.append_nil]
    refine ids.of_subperm (impl ▸ ids.numbered) waiting (Nat.le_of_eq (congrArg CImpl.allocated impl).symm) ?_
    have hand : c'.inHand = c.inHand := inHand
    rw [Hosting.ids, Hosting.ids, clients, was, is, hand]
  | draws n asks impl inHand =>
    have nothing : c.inHand = none := by
      unfold CHttpConnection.inHand
      rw [show c.todo = some (.nextConnectionId n) from asks]
    have none : dispatchOf h (.connection k l) = none := by
      cases dispatched : dispatchOf h (.connection k l) with
      | none => rfl
      | some d => cases (dispatchOf_inv here dispatched).2.1.symm.trans nothing
    rw [none, Option.toList_none, List.append_nil]
    have change : Change False h.server.shared.impl c'.impl := impl ▸ .draw
    refine ids.of_draw (change.numbered ids.numbered) waiting (congrArg CImpl.allocated impl) ?_
    have hand : c'.inHand = some h.server.shared.impl.mNextConnectionId := inHand
    rw [Hosting.ids, Hosting.ids, clients, was, is, hand, nothing, Option.toList_some, Option.toList_none, List.nil_append]
    simp only [List.append_assoc, List.cons_append]
    exact (List.Perm.append_left _ List.perm_middle).trans List.perm_middle
  | finds n asks impl inHand =>
    have hand : c'.inHand = none := inHand
    refine ids.of_subperm (impl ▸ ids.numbered) waiting (Nat.le_of_eq (congrArg CImpl.allocated impl).symm) ?_
    rw [Hosting.ids, Hosting.ids, clients, was, is, hand, Option.toList_none, List.nil_append, List.map_append]
    cases dispatched : dispatchOf h (.connection k l) with
    | none =>
      rw [Option.toList_none, List.map_nil, List.append_nil]
      simp only [List.append_assoc]
      refine List.Sublist.subperm (List.Sublist.append_left (List.Sublist.append_left ?_ _) _)
      exact List.sublist_append_right _ _
    | some d =>
      rw [(dispatchOf_inv here dispatched).2.1, Option.toList_some, Option.toList_some]
      simp only [List.append_assoc, List.map_cons, List.map_nil, List.singleton_append]
      refine (List.Perm.append_left _ ?_).subperm
      exact List.perm_middle.symm

theorem step_ids (ids : Ids h sent) (step : Hosting.step h l = some h') : Ids h' (sent ++ (dispatchOf h l).toList) := by
  cases l with
  | server l =>
    simp only [Hosting.step] at step
    split at step
    · cases step
    · obtain ⟨c, stepped, rfl⟩ := Option.map_eq_some_iff.1 step
      rw [show dispatchOf h (.server l) = none from rfl, Option.toList_none, List.append_nil]
      exact ids.server stepped
  | accept isSsl =>
    simp only [Hosting.step] at step
    split at step
    · cases step
      rw [show dispatchOf h (.accept isSsl) = none from rfl, Option.toList_none, List.append_nil]
      exact ids.accept isSsl
    · cases step
  | connection k l =>
    simp only [Hosting.step] at step
    split at step
    · cases step
    · next c here =>
      split at step
      · cases step
      · next own =>
        obtain ⟨c', stepped, rfl⟩ := Option.map_eq_some_iff.1 step
        exact ids.connection here (Bool.eq_false_iff.2 own) stepped

theorem run_ids {allowedUris : Option (List Bytes)} {maxSessionBacklog : Nat} {ls : List Label}
    (run : system.exec (create allowedUris maxSessionBacklog) ls = some h) :
    Ids h (system.collect dispatchOf (create allowedUris maxSessionBacklog) ls) := by
  refine System.invariant_run
    (fun pre a => Ids a (system.collect dispatchOf (create allowedUris maxSessionBacklog) pre)) ?_ ?_ run
    System.along_true
  · refine ⟨(Server.create_counted allowedUris maxSessionBacklog).numbered, fun c mem => (by cases mem),
      fun id mem => (by cases mem), fun _ => List.nodup_nil⟩
  · intro pre a l b before ids _ step
    rw [System.collect_snoc before]
    exact step_ids ids step

/-- Of any two requests, those with one id are those of one connection. -/
def IdIsConnection (sent : List (Nat × UInt32)) : Prop := sent.Pairwise fun d e => d.2 = e.2 ↔ d.1 = e.1

/-- With every id given once, an id stands for a connection if no connection has two. -/
theorem idIsConnection_iff (nodup : (sent.map Prod.snd).Nodup) : IdIsConnection sent ↔ (sent.map Prod.fst).Nodup := by
  have apart : sent.Pairwise fun d e => d.2 ≠ e.2 := List.pairwise_map.1 nodup
  rw [IdIsConnection, List.Nodup, List.pairwise_map]
  constructor
  · intro same
    exact (apart.and same).imp fun ⟨ids, same⟩ conns => ids (same.2 conns)
  · intro conns
    exact (apart.and conns).imp fun ⟨ids, conns⟩ => iff_of_false ids conns

/-- A server that listens, with a handler for `/a`, and one connection on which a request arrives and is dispatched. -/
def oneRequest : List Label :=
  [.server (.api (.addUri (str "/a") { mOnRequestReceivedCb := some 1 })), .server (.run 0 false),
    .server (.api (.start 8080 {})), .server (.run 1 false), .server (.run 1 false), .accept false,
    .connection 0 (.complete 0 none (CHttpConnection.get "/a")), .connection 0 .strand, .connection 0 .handle,
    .connection 0 .handle]

/-- The handler replies, the response is written, and the next request is read. -/
def nextRequest : List Label :=
  [.connection 0 .handle, .connection 0 .handle, .connection 0 .work, .connection 0 (.reply 0),
    .connection 0 (.finish false), .connection 0 .strand,
    .connection 0 (.complete 0 none (CHttpConnection.get "/a")), .connection 0 .strand,
    .connection 0 (.complete 0 none (CHttpConnection.get "/a")), .connection 0 .strand, .connection 0 .handle,
    .connection 0 .handle]

theorem oneRequest_runs : (system.exec (create none 1024) oneRequest).isSome = true := by decide

end Hosting

end Websockets
