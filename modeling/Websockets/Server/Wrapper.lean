import Websockets.Lib.Last
import Websockets.Server.Counts

/-!
# `CUriWrapper`

A wrapper registers its uri with its callbacks when it is constructed and removes it when it is destroyed;
`mUris` does not know for which wrapper it holds an entry. Wrappers come and go on a running server, whatever
else the server does, and nobody else calls `AddUri` or `RemoveUri`.

`callbacks` and `alive` of a wrapper and `log` record history.
-/

namespace Websockets

open Std Lib

structure CUriWrapper where
  mUri : Bytes
  /-- What it was constructed with. -/
  callbacks : CUriCallbacks
  alive : Bool
  deriving DecidableEq

/-- The piece registers a uri or removes one. -/
def Action.isUriCall : Action → Bool
  | addUri _ _ | removeUri _ => true
  | _ => false

namespace CUriWrapper

/-- The constructor, with a server. -/
def construct (s : Server) (uri : Bytes) (callbacks : CUriCallbacks) : Server × CUriWrapper :=
  (s.setImpl (s.impl.addUri uri callbacks), { mUri := uri, callbacks := callbacks, alive := true })

/-- The destructor. -/
def destroy (s : Server) (w : CUriWrapper) : Server × CUriWrapper :=
  (s.setImpl (s.impl.removeUri w.mUri), { w with alive := false })

inductive Event where
  | constructed (uri : Bytes) (callbacks : CUriCallbacks)
  | destroyed (uri : Bytes)
  deriving DecidableEq

/-- A server and all the wrappers ever constructed for it, in the order of construction. -/
structure Wrapped where
  server : Running
  wrappers : List CUriWrapper := []
  log : List Event := []

inductive Label where
  | construct (uri : Bytes) (callbacks : CUriCallbacks)
  | destroy (i : Nat)
  | server (l : Server.Label)

/-- A direct call of `AddUri` or `RemoveUri`. -/
def isDirect : Server.Label → Bool
  | .api call => call.action.isUriCall
  | _ => false

def step (c : Wrapped) : Label → Option Wrapped
  | .construct uri callbacks =>
    let (s, w) := construct c.server.shared uri callbacks
    some ⟨{ c.server with shared := s }, c.wrappers ++ [w], c.log ++ [.constructed uri callbacks]⟩
  | .destroy i =>
    match c.wrappers[i]? with
    | none => none
    | some w =>
      if w.alive then
        let (s, dead) := w.destroy c.server.shared
        some ⟨{ c.server with shared := s }, c.wrappers.set i dead, c.log ++ [.destroyed w.mUri]⟩
      else none
  | .server l =>
    if isDirect l then none
    else (Server.step c.server l).map fun server => { c with server := server }

/-- Every order of constructions, destructions and steps of the server. -/
def system : Lib.System Wrapped Label := ⟨step⟩

def create (allowedUris : Option (List Bytes)) (maxSessionBacklog : Nat) : Wrapped :=
  { server := Server.create allowedUris maxSessionBacklog }

/-- The callbacks of a live wrapper for `uri`. -/
def offer (uri : Bytes) (w : CUriWrapper) : Option CUriCallbacks :=
  if w.alive ∧ w.mUri = uri then some w.callbacks else none

/-- The callbacks of the most recently constructed wrapper for `uri` that is alive, if there is one. -/
def latest (uri : Bytes) (wrappers : List CUriWrapper) : Option CUriCallbacks := lastOf (offer uri) wrappers

/-- What an event says about `uri`. -/
def Event.about (uri : Bytes) : Event → Option (Option CUriCallbacks)
  | constructed u callbacks => if u = uri then some (some callbacks) else none
  | destroyed u => if u = uri then some none else none

/-- The callbacks of the last construction for `uri`, if no destruction for `uri` followed. -/
def declared (uri : Bytes) (log : List Event) : Option CUriCallbacks := (lastOf (Event.about uri) log).join

/-- `mUris` has the uris of the live wrappers, each with the callbacks of its latest one. -/
def Registered (c : Wrapped) : Prop := ∀ uri, c.server.shared.impl.mUris[uri]? = latest uri c.wrappers

/-- Only the last live wrapper of a uri is destroyed. -/
def DestroyOk (c : Wrapped) : Label → Prop
  | .destroy i => ∀ j w v, c.wrappers[i]? = some w → c.wrappers[j]? = some v → v.alive = true → v.mUri = w.mUri → j = i
  | _ => True

variable {c c' : Wrapped} {s : Server} {a : Action} {l : Label} {uri : Bytes} {w : CUriWrapper} {i : Nat}

/-! ## Who changes `mUris` -/

/-- A piece that is no such call leaves `mUris` alone and brings none. -/
theorem does_mUris {s' : Server} {task : Nat} {outs : List Action} (does : Server.Does s task a s' outs)
    (other : a.isUriCall = false) : s'.impl.mUris = s.impl.mUris ∧ ∀ o ∈ outs, Action.isUriCall o = false := by
  have light : ∀ {o : Action}, o.isLight = true → o.isUriCall = false := by
    intro o isLight
    cases o with
    | addUri uri callbacks => cases isLight
    | removeUri uri => cases isLight
    | _ => rfl
  have lights : (∀ o ∈ outs, Action.isLight o = true) → ∀ o ∈ outs, Action.isUriCall o = false :=
    fun all o mem => light (all o mem)
  cases does with
  | relay isLight all => exact ⟨rfl, lights all⟩
  | startLocked done =>
    refine ⟨?_, List.forall_mem_nil _⟩
    unfold CImpl.startLocked at done
    split at done
    · cases done
    · cases done
      rfl
  | stop =>
    refine ⟨rfl, fun o mem => ?_⟩
    rw [Server.stop_outs] at mem
    rcases List.mem_append.1 mem with mem | mem
    · obtain ⟨e, -, rfl⟩ := List.mem_map.1 mem
      rfl
    · obtain ⟨e, -, rfl⟩ := List.mem_map.1 mem
      rfl
  | removeClient present => exact ⟨by rw [Server.record_impl, Server.setImpl_impl, CImpl.eraseClient_mUris], by simp [Action.isUriCall]⟩
  | notifyClosedSync clientId uri => exact ⟨rfl, by simp [Action.isUriCall]⟩
  | addUri uri callbacks => cases other
  | removeUri uri => cases other
  | reject rejects => exact ⟨rfl, by simp [Action.isUriCall]⟩
  | register done =>
    refine ⟨?_, by simp [Action.isUriCall]⟩
    rw [Server.record_impl, Server.setImpl_impl, (CImpl.registerWsClientLocked_inv done).mUris]
  | onWsClosed present =>
    refine ⟨?_, by simp [Action.isUriCall]⟩
    rw [Server.record_impl, Server.setImpl_impl, CImpl.countReport, CImpl.eraseClient_mUris]
  | nextConnectionId path => exact ⟨rfl, by simp [Action.isUriCall]⟩
  | invoke fn notice all => exact ⟨rfl, lights all⟩
  | call fn rest notice left =>
    refine ⟨rfl, ?_⟩
    rcases left with rfl | all
    · simp [Action.isUriCall]
    · exact lights all
  | shutdown onWorker => exact ⟨rfl, by simp [Action.isUriCall]⟩
  | stopQueue onWorker all => exact ⟨rfl, lights all⟩
  | _ => exact ⟨rfl, List.forall_mem_nil _⟩

/-- No operation calls `AddUri` or `RemoveUri`. -/
def Indirect (r : Running) : Prop := ∀ j q b, r.At j q b → Action.isUriCall b = false

/-- The server by itself leaves `mUris` alone. -/
theorem server_mUris {r r' : Running} {l : Server.Label} (step : Server.step r l = some r')
    (indirect : isDirect l = false) (inv : Indirect r) :
    r'.shared.impl.mUris = r.shared.impl.mUris ∧ Indirect r' := by
  have spawned : ∀ {r : Running} {o : Owner} {todo : List Action}, Indirect r →
      (∀ b ∈ todo, Action.isUriCall b = false) → Indirect (r.spawn o todo) := by
    intro r o todo inv none j q b here
    rcases Tasks.at_spawn.1 here with old | ⟨-, -, mem⟩
    · exact inv j q b old
    · exact none b mem
  cases Server.step_steps step with
  | api call => exact ⟨rfl, spawned inv fun b mem => by rw [List.mem_singleton.1 mem]; exact indirect⟩
  | run ran does =>
    obtain ⟨same, none⟩ := does_mUris does (inv _ _ _ ran.at_head)
    refine ⟨same, fun j q b here => ?_⟩
    rcases ran.at_inv here with old | ⟨-, -, mem⟩
    · exact inv j q b old
    · exact none b mem
  | upgrade target isSsl listened =>
    refine ⟨?_, inv⟩
    simp only [Server.upgrade]
    split <;> rfl
  | httpRequest path listened => exact ⟨rfl, spawned inv fun b mem => by rw [List.mem_singleton.1 mem]; rfl⟩
  | complete found done => exact ⟨rfl, inv⟩
  | strand idle found ran =>
    refine ⟨rfl, spawned inv fun b mem => ?_⟩
    obtain ⟨call, -, rfl⟩ := List.mem_map.1 mem
    cases call <;> rfl
  | work idle running queue => exact ⟨rfl, spawned inv fun b mem => by rw [List.mem_singleton.1 mem]; rfl⟩

/-! ## The latest live wrapper -/

theorem latest_eq_none {wrappers : List CUriWrapper} :
    latest uri wrappers = none ↔ ∀ v ∈ wrappers, v.alive = true → v.mUri ≠ uri := by
  unfold latest lastOf
  rw [List.getLast?_eq_none_iff, List.filterMap_eq_nil_iff]
  refine forall₂_congr fun v _ => ?_
  unfold offer
  split
  · next live => simp [live]
  · next dead => exact ⟨fun _ alive same => dead ⟨alive, same⟩, fun _ => rfl⟩

theorem latest_construct (wrappers : List CUriWrapper) (u : Bytes) (callbacks : CUriCallbacks) :
    latest uri (wrappers ++ [⟨u, callbacks, true⟩]) = if u = uri then some callbacks else latest uri wrappers := by
  unfold latest
  split
  · next same => exact lastOf_seen (if_pos ⟨rfl, same⟩)
  · next other => exact lastOf_unseen_one (if_neg fun h => other h.2)

/-- A destroyed wrapper does not matter to other uris. -/
theorem latest_destroy_other {wrappers : List CUriWrapper} (found : wrappers[i]? = some w) (other : w.mUri ≠ uri) :
    latest uri (wrappers.set i { w with alive := false }) = latest uri wrappers := by
  obtain ⟨lt, get⟩ := List.getElem?_eq_some_iff.1 found
  have split : wrappers = wrappers.take i ++ w :: wrappers.drop (i + 1) := by
    conv_lhs => rw [← List.take_append_drop i wrappers, List.drop_eq_getElem_cons lt, get]
  refine lastOf_congr ?_
  rw [List.set_eq_take_append_cons_drop, if_pos lt]
  conv_rhs => rw [split]
  have before : offer uri w = none := if_neg fun h => other h.2
  have after : offer uri { w with alive := false } = none := if_neg fun h => other h.2
  rw [List.filterMap_append, List.filterMap_append, List.filterMap_cons_none before, List.filterMap_cons_none after]

/-- Without another live wrapper for its uri, a destroyed one leaves none. -/
theorem latest_destroy_only {wrappers : List CUriWrapper} (found : wrappers[i]? = some w) :
    latest w.mUri (wrappers.set i { w with alive := false }) = none ↔
      ∀ j v, wrappers[j]? = some v → v.alive = true → v.mUri = w.mUri → j = i := by
  have lt := (List.getElem?_eq_some_iff.1 found).1
  rw [latest_eq_none]
  constructor
  · intro none j v here alive same
    by_contra other
    have still : (wrappers.set i { w with alive := false })[j]? = some v := by
      rw [List.getElem?_set_ne (Ne.symm other), here]
    exact none v (List.mem_of_getElem? still) alive same
  · intro only v mem alive same
    obtain ⟨j, here⟩ := List.mem_iff_getElem?.1 mem
    rw [List.getElem?_set] at here
    split at here
    · next eq =>
      simp only [Option.some.injEq] at here
      subst here
      cases alive
    · next other => exact other (only j v here alive same).symm

/-! ## What is registered -/

/-- `mUris` is what the history declares, and what that declares is alive. -/
structure Kept (c : Wrapped) : Prop where
  declared : ∀ uri, c.server.shared.impl.mUris[uri]? = declared uri c.log
  live : ∀ uri callbacks, c.server.shared.impl.mUris[uri]? = some callbacks →
    latest uri c.wrappers = some callbacks
  indirect : Indirect c.server

theorem declared_snoc (log : List Event) (e : Event) :
    declared uri (log ++ [e]) = ((e.about uri).getD (declared uri log)) := by
  unfold declared
  cases seen : e.about uri with
  | none => rw [lastOf_unseen_one seen]; rfl
  | some told => rw [lastOf_seen seen]; rfl

/-- What each label does. -/
inductive Steps (c : Wrapped) : Label → Wrapped → Prop
  | construct (u callbacks) : Steps c (.construct u callbacks)
      ⟨{ c.server with shared := c.server.shared.setImpl (c.server.shared.impl.addUri u callbacks) },
        c.wrappers ++ [⟨u, callbacks, true⟩], c.log ++ [.constructed u callbacks]⟩
  | destroy {n w} (found : c.wrappers[n]? = some w) (alive : w.alive = true) : Steps c (.destroy n)
      ⟨{ c.server with shared := c.server.shared.setImpl (c.server.shared.impl.removeUri w.mUri) },
        c.wrappers.set n { w with alive := false }, c.log ++ [.destroyed w.mUri]⟩
  | server {l server} (indirect : isDirect l = false) (moved : Server.step c.server l = some server) :
      Steps c (.server l) { c with server := server }

theorem step_steps (step : step c l = some c') : Steps c l c' := by
  cases l with
  | construct uri callbacks => cases step; exact .construct uri callbacks
  | destroy i =>
    simp only [CUriWrapper.step] at step
    split at step
    · cases step
    · next w found =>
      split at step
      · next alive => cases step; exact .destroy found alive
      · cases step
  | server l =>
    simp only [CUriWrapper.step] at step
    split at step
    · cases step
    · next indirect =>
      obtain ⟨server, made, rfl⟩ := Option.map_eq_some_iff.1 step
      exact .server (by simpa using indirect) made

theorem step_kept (step : step c l = some c') (kept : Kept c) : Kept c' := by
  cases step_steps step with
  | construct u callbacks =>
    have added : ∀ uri, (c.server.shared.impl.addUri u callbacks).mUris[uri]? =
        if u = uri then some callbacks else c.server.shared.impl.mUris[uri]? := by
      intro uri
      simp only [CImpl.addUri, TreeMap.getElem?_insert, LawfulEqCmp.compare_eq_iff_eq]
    refine ⟨fun uri => ?_, fun uri cbs found => ?_, kept.indirect⟩
    · show (c.server.shared.impl.addUri u callbacks).mUris[uri]? = _
      rw [added, declared_snoc, kept.declared]
      simp only [Event.about]
      split <;> rfl
    · replace found : (c.server.shared.impl.addUri u callbacks).mUris[uri]? = some cbs := found
      rw [added] at found
      show latest uri (c.wrappers ++ [⟨u, callbacks, true⟩]) = _
      rw [latest_construct]
      split at found
      · next same => rw [if_pos same, found]
      · next other => rw [if_neg other, kept.live uri cbs found]
  | @destroy i w found alive =>
    have removed : ∀ uri, (c.server.shared.impl.removeUri w.mUri).mUris[uri]? =
        if w.mUri = uri then none else c.server.shared.impl.mUris[uri]? := by
      intro uri
      simp only [CImpl.removeUri, TreeMap.getElem?_erase, LawfulEqCmp.compare_eq_iff_eq]
    refine ⟨fun uri => ?_, fun uri cbs here => ?_, kept.indirect⟩
    · show (c.server.shared.impl.removeUri w.mUri).mUris[uri]? = _
      rw [removed, declared_snoc, kept.declared]
      simp only [Event.about]
      split <;> rfl
    · replace here : (c.server.shared.impl.removeUri w.mUri).mUris[uri]? = some cbs := here
      rw [removed] at here
      split at here
      · cases here
      · next other =>
        show latest uri (c.wrappers.set i { w with alive := false }) = _
        rw [latest_destroy_other found other, kept.live uri cbs here]
  | server indirect moved =>
    obtain ⟨same, still⟩ := server_mUris moved indirect kept.indirect
    refine ⟨fun uri => ?_, fun uri cbs here => ?_, still⟩
    · rw [same]
      exact kept.declared uri
    · rw [same] at here
      exact kept.live uri cbs here

/-- After a step `mUris` agrees with the live wrappers exactly if the step destroys none but the last of its uri. -/
theorem step_registered (step : step c l = some c') (kept : Kept c) (registered : Registered c) :
    Registered c' ↔ DestroyOk c l := by
  have after := step_kept step kept
  cases step_steps step with
  | construct u callbacks =>
    refine ⟨fun _ => trivial, fun _ uri => ?_⟩
    rw [after.declared, declared_snoc, ← kept.declared, registered uri]
    show _ = latest uri (c.wrappers ++ [⟨u, callbacks, true⟩])
    rw [latest_construct]
    simp only [Event.about]
    split <;> rfl
  | @destroy i w found alive =>
    have gone : declared w.mUri (c.log ++ [.destroyed w.mUri]) = none := by
      rw [declared_snoc, Event.about, if_pos rfl]
      rfl
    have only : DestroyOk c (.destroy i) ↔ latest w.mUri (c.wrappers.set i { w with alive := false }) = none := by
      rw [latest_destroy_only found]
      refine ⟨fun ok j v => ok j w v found, fun ok j w' v found' => ?_⟩
      cases found.symm.trans found'
      exact ok j v
    rw [only]
    refine ⟨fun registered' => ?_, fun none uri => ?_⟩
    · rw [← registered' w.mUri, after.declared]
      exact gone
    · rw [after.declared]
      show declared uri (c.log ++ [.destroyed w.mUri]) = latest uri (c.wrappers.set i { w with alive := false })
      by_cases same : w.mUri = uri
      · subst same
        rw [gone, none]
      · rw [latest_destroy_other found same, ← registered uri, kept.declared, declared_snoc, Event.about, if_neg same]
        rfl
  | server indirect moved =>
    refine ⟨fun _ => trivial, fun _ uri => ?_⟩
    rw [(server_mUris moved indirect kept.indirect).1]
    exact registered uri

/-- **Uri wrappers.** After every sequence of constructions and destructions, whatever the server does in between:
`mUris` has a uri exactly if the last of these for the uri was a construction, with the callbacks of that
wrapper, which is then the latest one alive; and `mUris` agrees with the live wrappers all along exactly if no
wrapper is destroyed while another one for its uri is alive. -/
theorem uri_wrappers (allowedUris : Option (List Bytes)) (maxSessionBacklog : Nat) (ls : List Label) (c : Wrapped)
    (run : system.exec (create allowedUris maxSessionBacklog) ls = some c) :
    (∀ uri, c.server.shared.impl.mUris[uri]? = declared uri c.log) ∧
      (∀ uri callbacks, c.server.shared.impl.mUris[uri]? = some callbacks → latest uri c.wrappers = some callbacks) ∧
      (system.Always Registered (create allowedUris maxSessionBacklog) ls ↔
        system.Along DestroyOk (create allowedUris maxSessionBacklog) ls) := by
  have start : Kept (create allowedUris maxSessionBacklog) ∧ Registered (create allowedUris maxSessionBacklog) := by
    refine ⟨⟨fun uri => ?_, fun uri callbacks found => ?_, ?_⟩, fun uri => ?_⟩
    · exact TreeMap.getElem?_emptyc
    · exact absurd (TreeMap.getElem?_emptyc.symm.trans found) (by simp)
    · rintro j q b ⟨t, found, -, -⟩
      cases found
    · exact TreeMap.getElem?_emptyc
  have kept : Kept c := System.invariant Kept start.1 (fun _ _ _ kept step => step_kept step kept) run
  refine ⟨kept.declared, kept.live, ?_⟩
  exact System.always_iff_along (fun c => Kept c ∧ Registered c) (fun _ inv => inv.2) start
    (fun _ _ _ inv ok step => ⟨step_kept step inv.1, (step_registered step inv.1 inv.2).2 ok⟩)
    (fun _ _ _ inv bad step registered => bad ((step_registered step inv.1 inv.2).1 registered)) run

/-- The second wrapper for a uri is constructed before the first is destroyed. -/
def replaces : List Label :=
  [.construct (str "/a") { mOnConnectionChange := some 1 }, .construct (str "/a") { mOnConnectionChange := some 2 },
    .destroy 0]

theorem replaces_runs : (system.exec (create none 1024) replaces).isSome = true := by decide

/-- There the history declares nothing for the uri. -/
theorem uri_wrappers_replaces : ∃ c, system.exec (create none 1024) replaces = some c ∧
    c.server.shared.impl.mUris[str "/a"]? = declared (str "/a") c.log :=
  ⟨_, System.exec_get replaces_runs, (uri_wrappers none 1024 replaces _ (System.exec_get replaces_runs)).1 (str "/a")⟩

/-- The uri is gone although a wrapper for it is alive. -/
theorem replaced_wrapper_unregistered : ∃ c w, system.exec (create none 1024) replaces = some c ∧ w ∈ c.wrappers ∧
    w.alive = true ∧ w.mUri = str "/a" ∧ c.server.shared.impl.mUris[str "/a"]? = none ∧ ¬ Registered c := by
  have absent : ((system.exec (create none 1024) replaces).get replaces_runs).server.shared.impl.mUris[str "/a"]? =
      none := by decide
  refine ⟨_, ⟨str "/a", { mOnConnectionChange := some 2 }, true⟩, System.exec_get replaces_runs, by decide, rfl,
    rfl, absent, fun registered => ?_⟩
  have present : latest (str "/a") ((system.exec (create none 1024) replaces).get replaces_runs).wrappers =
      some { mOnConnectionChange := some 2 } := by decide
  rw [← registered, absent] at present
  cases present

end CUriWrapper

end Websockets
