import Websockets.Server.Counts
import Websockets.Server.Matching

/-!
# The reported connection counts

A count is taken under the lock and reported after it, by the work queue or in the calling thread, so
reports of one uri can overtake each other. They are numbered as they are taken. As long as none is
invoked while an older one of the uri is outstanding, the newest report carries the current count, and
once nothing is outstanding it is the last one invoked.
-/

namespace Websockets

open Std Lib

namespace Server

open CImpl

/-- The report of `u` that callbacks `cbs` are to be called with: the count and its number. -/
def carried (u : Bytes) : List Fn → Notice → Option (Nat × Nat)
  | _ :: _, .connectionChange uri uriCount stamp => if uri = u then some (uriCount, stamp) else none
  | _, _ => none

/-- The report of `u` that a piece will post or invoke. -/
def reported (u : Bytes) : Action → Option (Nat × Nat)
  | .postCallback cbs notice | .call cbs notice => carried u cbs notice
  | .invoke cb notice => carried u cb.toList notice
  | _ => none

/-- The report of `u` that a piece invokes the callback with. -/
def invoking (u : Bytes) : Action → Option (Nat × Nat)
  | .call cbs notice => carried u cbs notice
  | .invoke cb notice => carried u cb.toList notice
  | _ => none

/-- The reports of `u` in the queue. -/
def waiting (queue : CWorkQueue (List Fn × Notice)) (u : Bytes) : List (Nat × Nat) :=
  queue.mQueue.filterMap fun fn => carried u fn.1 fn.2

/-- The reports of `u` that are taken and not yet invoked. -/
def outstanding (c : Running) (u : Bytes) : List (Nat × Nat) :=
  c.pending (reported u) ++ waiting c.shared.mWorkQueue u

/-- The reports of `u` that were invoked, in order. -/
def invokedReports (log : List Event) (u : Bytes) : List (Nat × Nat) :=
  log.filterMap fun
    | .invoked _ cb notice => carried u [cb] notice
    | _ => none

/-- The piece does not register `u` without its callback or a second time, and does not remove it. -/
def keepsUri (u : Bytes) (s : Server) : Action → Bool
  | .addUri uri callbacks => uri != u || s.impl.mUris[u]?.isNone && callbacks.mOnConnectionChange.isSome
  | .removeUri uri => uri != u || s.impl.mUris[u]?.isNone
  | _ => true

/-- `u` is registered with its callback, and neither replaced nor removed. -/
def Stable (u : Bytes) (c : Running) : Label → Prop
  | .run i _ => (head? c i).all (keepsUri u c.shared) = true
  | _ => True

/-- A report of `u` is invoked only when no older one is outstanding. -/
def InOrder (u : Bytes) (c : Running) : Label → Prop
  | .run i _ => ∀ r ∈ (head? c i).bind (invoking u), ∀ r' ∈ outstanding c u, r.2 ≤ r'.2
  | _ => True

instance decidableStable (u : Bytes) (c : Running) : ∀ l, Decidable (Stable u c l)
  | .run i _ => inferInstanceAs (Decidable ((head? c i).all (keepsUri u c.shared) = true))
  | .api _ | .upgrade _ _ | .httpRequest _ | .complete _ _ _ _ | .strand _ | .work => .isTrue trivial

instance decidableInOrder (u : Bytes) (c : Running) : ∀ l, Decidable (InOrder u c l)
  | .run i _ =>
    inferInstanceAs (Decidable (∀ r ∈ (head? c i).bind (invoking u), ∀ r' ∈ outstanding c u, r.2 ≤ r'.2))
  | .api _ | .upgrade _ _ | .httpRequest _ | .complete _ _ _ _ | .strand _ | .work => .isTrue trivial

variable {c c' : Running} {s s' : Server} {i : Nat} {a : Action} {outs rest : List Action} {l : Label}
  {o : Owner} {throws : Bool} {u : Bytes}

/-! ## What a piece does to the reports of a uri -/

@[simp] theorem carried_nil (notice : Notice) : carried u [] notice = none := rfl

@[simp] theorem carried_closed (cbs : List Fn) (clientId : UInt32) : carried u cbs (.closed clientId) = none := by
  cases cbs <;> rfl

@[simp] theorem carried_added (cbs : List Fn) (clientId : UInt32) (uriAppend : Bytes) (isSsl : Bool) :
    carried u cbs (.added clientId uriAppend isSsl) = none := by
  cases cbs <;> rfl

theorem reported_light (light : a.isLight = true) : reported u a = none := by
  cases a with
  | postCallback cbs notice =>
    cases notice with
    | connectionChange uri uriCount stamp => cases light
    | _ => cases cbs <;> rfl
  | call cbs notice => cases light
  | invoke cb notice => cases light
  | _ => rfl

theorem lights_unreported (lights : ∀ b ∈ outs, b.isLight = true) : ∀ b ∈ outs, reported u b = none :=
  fun b mem => reported_light (lights b mem)

/-- A connection change is reported to at most one callback. -/
def slim : List Fn → Notice → Prop
  | cbs, .connectionChange _ _ _ => cbs.length ≤ 1
  | _, _ => True

def Slim : Action → Prop
  | .postCallback cbs notice | .call cbs notice => slim cbs notice
  | _ => True

/-- With one callback, the rest of a call reports nothing, and what is invoked is the whole report. -/
theorem carried_cons {fn : Fn} {cbs : List Fn} {notice : Notice} (narrow : slim (fn :: cbs) notice) :
    carried u cbs notice = none ∧ carried u [fn] notice = carried u (fn :: cbs) notice := by
  cases notice with
  | connectionChange uri uriCount stamp =>
    have empty : cbs = [] := List.eq_nil_of_length_eq_zero (by simpa [slim] using narrow)
    subst empty
    exact ⟨rfl, rfl⟩
  | _ => cases cbs <;> exact ⟨rfl, rfl⟩

/-- What a piece does to the reports of `u`. -/
inductive Effect (u : Bytes) (s : Server) (a : Action) (s' : Server) (outs : List Action) : Prop
  | idle (piece : reported u a = none) (none : ∀ b ∈ outs, reported u b = none)
      (log : invokedReports s'.log u = invokedReports s.log u)
      (queue : waiting s'.mWorkQueue u = waiting s.mWorkQueue u) (reports : s.impl.reports ≤ s'.impl.reports)
      (count : u ≠ [] → s'.impl.uriCount u = s.impl.uriCount u ∧ (∀ id, a ≠ .notifyClosedSync id u) ∨
        ∃ id, .notifyClosedSync id u ∈ outs)
  | takes (nonempty : u ≠ []) (piece : reported u a = none)
      (out : ∀ r, (∃ b ∈ outs, reported u b = some r) ↔ r = (s'.impl.uriCount u, s.impl.reports))
      (log : invokedReports s'.log u = invokedReports s.log u)
      (queue : waiting s'.mWorkQueue u = waiting s.mWorkQueue u) (reports : s'.impl.reports = s.impl.reports + 1)
  | posts (r) (piece : reported u a = some r) (none : ∀ b ∈ outs, reported u b = none)
      (log : invokedReports s'.log u = invokedReports s.log u)
      (queue : waiting s'.mWorkQueue u = waiting s.mWorkQueue u ++ [r]) (impl : s'.impl = s.impl)
  | invokes (r) (piece : reported u a = some r) (now : invoking u a = some r) (none : ∀ b ∈ outs, reported u b = none)
      (log : invokedReports s'.log u = invokedReports s.log u ++ [r])
      (queue : waiting s'.mWorkQueue u = waiting s.mWorkQueue u) (impl : s'.impl = s.impl)
  | drops (stopped : s'.mWorkQueue.mStopped = true) (none : ∀ b ∈ outs, reported u b = none)
      (log : invokedReports s'.log u = invokedReports s.log u)
      (queue : ∀ r ∈ waiting s'.mWorkQueue u, r ∈ waiting s.mWorkQueue u)

/-- `u` has its callback, and whoever is attached to it was attached while it was registered. -/
structure Configured (s : Server) (u : Bytes) : Prop where
  callback : ∀ callbacks, s.impl.mUris[u]? = some callbacks → callbacks.mOnConnectionChange.isSome = true
  clients : ∀ (id : UInt32) entry, s.impl.mClients[id]? = some entry → entry.uri = u →
    s.impl.mUris[u]?.isSome = true

theorem Configured.found (configured : Configured s u) (nonempty : u ≠ [])
    (registered : s.impl.mUris[u]?.isSome = true) : ∃ fn, s.impl.connectionChangeCb u = some fn := by
  obtain ⟨callbacks, present⟩ := Option.isSome_iff_exists.1 registered
  obtain ⟨fn, set⟩ := Option.isSome_iff_exists.1 (configured.callback callbacks present)
  refine ⟨fn, ?_⟩
  simp [connectionChangeCb, nonempty, present, set]

theorem carried_other {uri : Bytes} (other : uri ≠ u) (cbs : List Fn) (uriCount stamp : Nat) :
    carried u cbs (.connectionChange uri uriCount stamp) = none := by
  cases cbs with
  | nil => rfl
  | cons fn cbs => exact if_neg other

theorem carried_empty {impl : CImpl} (uriCount stamp : Nat) :
    carried [] (impl.connectionChangeCb []).toList (.connectionChange [] uriCount stamp) = none := rfl

/-- Taking the count of `uri` for its callback: a report of `u`, or none. -/
theorem carried_taken {uri : Bytes} (uriCount stamp : Nat) (configured : u ≠ [] → Configured s u)
    (registered : uri = u → u ≠ [] → s.impl.mUris[u]?.isSome = true) :
    uri = u ∧ u ≠ [] ∧
        carried u (s.impl.connectionChangeCb uri).toList (.connectionChange uri uriCount stamp) =
          some (uriCount, stamp) ∨
      (uri ≠ u ∨ u = []) ∧
        carried u (s.impl.connectionChangeCb uri).toList (.connectionChange uri uriCount stamp) = none := by
  by_cases same : uri = u
  · by_cases empty : u = []
    · subst same empty
      exact .inr ⟨.inr rfl, carried_empty uriCount stamp⟩
    · obtain ⟨fn, set⟩ := (configured empty).found empty (registered same empty)
      subst same
      exact .inl ⟨rfl, empty, by simp [set, carried]⟩
  · exact .inr ⟨.inl same, carried_other same _ _ _⟩

theorem notifyClosedSync_effect {clientId : UInt32} {uri : Bytes} (configured : u ≠ [] → Configured s u)
    (asked : u ≠ [] → uri = u → s.impl.mUris[u]?.isSome = true) :
    Effect u s (.notifyClosedSync clientId uri) (s.setImpl s.impl.countReport)
      [.invoke s.impl.mClientCbs.mOnClientClosedCb (.closed clientId),
        .invoke (s.impl.connectionChangeCb uri)
          (.connectionChange uri (if uri.isEmpty then 0 else s.impl.uriCount uri) s.impl.reports)] := by
  rcases carried_taken (if uri.isEmpty then 0 else s.impl.uriCount uri) s.impl.reports configured (fun same nonempty => asked nonempty same) with ⟨rfl, nonempty, taken⟩ | ⟨other, none⟩
  · refine .takes nonempty rfl (fun r => ?_) rfl rfl rfl
    have count : (if uri.isEmpty then 0 else s.impl.uriCount uri) = s.impl.uriCount uri := by
      rw [if_neg (by simpa using nonempty)]
    rw [count] at taken ⊢
    simp [reported, taken, eq_comm]
  · refine .idle rfl (fun b mem => ?_) rfl rfl (Nat.le_succ _) (fun nonempty => .inl ⟨rfl, fun id same => ?_⟩)
    · simp only [List.mem_cons, List.not_mem_nil, or_false] at mem
      rcases mem with rfl | rfl
      · exact carried_closed _ clientId
      · exact none
    · cases same
      exact other.elim (fun apart => apart rfl) nonempty

/-- The longest match is registered, or nothing matched. -/
theorem longestUriMatchLocked_registered (impl : CImpl) (path : Bytes) :
    impl.longestUriMatchLocked path = [] ∨ impl.mUris[impl.longestUriMatchLocked path]?.isSome = true := by
  by_cases empty : impl.longestUriMatchLocked path = []
  · exact .inl empty
  · exact .inr (CImpl.longest_registered empty).1

theorem register_effect {k : Nat} {target : Bytes} {isSsl : Bool} {impl : CImpl} {r : Registration}
    (configured : u ≠ [] → Configured s u)
    (done : s.impl.registerWsClientLocked k (parseTarget target).1 isSsl = some (impl, r)) :
    Effect u s (.registerWsClient k target isSsl) ((s.setImpl impl).record [.registered k r.clientId])
      [.postCallback r.addedCb.toList
          (.added r.clientId (s.impl.uriAppend r.matchedUri (parseTarget target).1 target) isSsl),
        .postCallback r.connectionChangeCb.toList (.connectionChange r.matchedUri r.uriCount r.stamp),
        .registered k r.clientId] := by
  have registers := registerWsClientLocked_inv done
  have log : invokedReports (s.log ++ [.registered k r.clientId]) u = invokedReports s.log u := by
    simp [invokedReports]
  have matched : r.matchedUri = u → u ≠ [] → s.impl.mUris[u]?.isSome = true := by
    intro same nonempty
    rcases longestUriMatchLocked_registered s.impl (parseTarget target).1 with empty | present
    · rw [registers.matchedUri, empty] at same
      exact absurd same.symm nonempty
    · rwa [← registers.matchedUri, same] at present
  have counts : ∀ nonempty : u ≠ [], impl.uriCount u =
      if r.matchedUri = u then r.uriCount else s.impl.uriCount u := by
    intro nonempty
    rw [uriCount, registers.mUriCounts]
    by_cases empty : r.matchedUri = []
    · rw [if_pos (by simp [empty]), if_neg (by rw [empty]; exact nonempty.symm)]
      rfl
    · rw [if_neg (by simp [empty]), TreeMap.getElem?_insert]
      simp only [LawfulEqCmp.compare_eq_iff_eq]
      split <;> rfl
  rcases carried_taken r.uriCount r.stamp configured matched with
    ⟨same, nonempty, taken⟩ | ⟨other, none⟩
  · refine .takes nonempty rfl (fun x => ?_) log rfl registers.reports
    rw [same, registers.stamp] at taken
    simp [reported, registers.connectionChangeCb, taken, eq_comm, counts nonempty, same, registers.stamp]
  · refine .idle rfl (fun b mem => ?_) log rfl (by rw [record_impl, setImpl_impl, registers.reports]; exact Nat.le_succ _)
      (fun nonempty => .inl ⟨?_, fun _ h => by cases h⟩)
    · simp only [List.mem_cons, List.not_mem_nil, or_false] at mem
      rcases mem with rfl | rfl | rfl
      · exact carried_added _ _ _ _
      · rw [reported, registers.connectionChangeCb]
        exact none
      · rfl
    · rw [record_impl, setImpl_impl, counts nonempty, if_neg (other.resolve_right nonempty)]

/-- The count of a uri after a client is erased, as the erasure returns it. -/
theorem eraseClient_count {impl : CImpl} {clientId : UInt32} {entry : SClientEntry} (counts : impl.Counts)
    (present : impl.mClients[clientId]? = some entry) (nonempty : u ≠ []) :
    (entry.uri = u → (impl.eraseClient clientId entry).2 = (impl.eraseClient clientId entry).1.uriCount u) ∧
      (entry.uri ≠ u → (impl.eraseClient clientId entry).1.uriCount u = impl.uriCount u) := by
  by_cases empty : entry.uri = []
  · refine ⟨fun same => absurd (same.symm.trans empty) nonempty, fun _ => ?_⟩
    simp [eraseClient, decrementUriCountLocked, empty, uriCount]
  · obtain ⟨n, found⟩ := counts.positive present empty
    obtain ⟨after, result⟩ : _ ∧ (impl.eraseClient clientId entry).2 = n := eraseClient_uriCount empty found u
    refine ⟨fun same => ?_, fun other => ?_⟩
    · rw [result, after, if_pos same]
    · rw [after, if_neg other]

theorem onWsClosed_effect {clientId : UInt32} {entry : SClientEntry} (configured : u ≠ [] → Configured s u)
    (counts : s.impl.Counts) (present : s.impl.mClients[clientId]? = some entry) :
    Effect u s (.onWsClosed clientId)
      ((s.setImpl (s.impl.eraseClient clientId entry).1.countReport).record [.removed .onWsClosed i clientId])
      [.postCallback s.impl.mClientCbs.mOnClientClosedCb.toList (.closed clientId),
        .postCallback (s.impl.connectionChangeCb entry.uri).toList
          (.connectionChange entry.uri (s.impl.eraseClient clientId entry).2 s.impl.reports)] := by
  have log : invokedReports (s.log ++ [.removed .onWsClosed i clientId]) u = invokedReports s.log u := by
    simp [invokedReports]
  have reports : (s.impl.eraseClient clientId entry).1.countReport.reports = s.impl.reports + 1 := by
    rw [countReport, eraseClient_reports]
  rcases carried_taken (s.impl.eraseClient clientId entry).2 s.impl.reports configured
    (fun same nonempty => (configured nonempty).clients clientId entry present same) with
    ⟨same, nonempty, taken⟩ | ⟨other, none⟩
  · refine .takes nonempty rfl (fun x => ?_) log rfl reports
    have count := (eraseClient_count counts present nonempty).1 same
    rw [count] at taken ⊢
    simp [reported, taken, eq_comm]
  · refine .idle rfl (fun b mem => ?_) log rfl (by rw [record_impl, setImpl_impl, reports]; exact Nat.le_succ _)
      (fun nonempty => .inl ⟨?_, nofun⟩)
    · simp only [List.mem_cons, List.not_mem_nil, or_false] at mem
      rcases mem with rfl | rfl
      · exact carried_closed _ clientId
      · exact none
    · exact (eraseClient_count counts present nonempty).2 (other.resolve_right nonempty)

theorem removeClient_effect {clientId : UInt32} {entry : SClientEntry} (counts : s.impl.Counts)
    (present : s.impl.mClients[clientId]? = some entry) :
    Effect u s (.removeClient clientId)
      ((s.setImpl (s.impl.eraseClient clientId entry).1).record [.removed .removeClient i clientId])
      [.sessionClose entry.session, .notifyClosedSync clientId entry.uri] := by
  refine .idle rfl (by simp [reported]) (by simp [invokedReports]) rfl ?_ fun nonempty => ?_
  · apply Nat.le_of_eq
    rw [record_impl, setImpl_impl, eraseClient_reports]
  · by_cases same : entry.uri = u
    · exact .inr ⟨clientId, by simp [same]⟩
    · exact .inl ⟨(eraseClient_count counts present nonempty).2 same, nofun⟩

theorem stop_effect (counts : s.impl.Counts) : Effect u s .stop (s.stop i).1 (s.stop i).2 := by
  refine .idle rfl (fun b mem => ?_) ?_ rfl (Nat.le_refl _) fun nonempty => ?_
  · rw [stop_outs, List.mem_append] at mem
    rcases mem with mem | mem <;> obtain ⟨e, -, rfl⟩ := List.mem_map.1 mem <;> rfl
  · simp [invokedReports, List.filterMap_map]
  · by_cases some : ∃ (id : UInt32) (entry : SClientEntry), s.impl.mClients[id]? = some entry ∧ entry.uri = u
    · obtain ⟨id, entry, present, rfl⟩ := some
      refine .inr ⟨id, ?_⟩
      rw [stop_outs]
      refine List.mem_append_right _ (List.mem_map.2 ⟨(id, entry), ?_, rfl⟩)
      exact TreeMap.mem_toList_iff_getElem?_eq_some.2 present
    · -- nobody was attached, so the count was 0 before the maps were cleared
      refine .inl ⟨?_, nofun⟩
      have zero : s.impl.attached u = 0 := by
        apply Nat.eq_zero_of_not_pos
        intro positive
        obtain ⟨id, entry, present, same⟩ := countValues_pos.1 positive
        exact some ⟨id, entry, present, by simpa using same⟩
      rw [counts u nonempty, zero]
      simp [stopLocked, uriCount]

theorem postCallback_effect (cbs : List Fn) (notice : Notice) :
    Effect u s (.postCallback cbs notice) (s.postCallback cbs notice) [] := by
  have log : invokedReports (s.postCallback cbs notice).log u = invokedReports s.log u := by
    simp [invokedReports]
  cases carries : carried u cbs notice with
  | none =>
    refine .idle carries (List.forall_mem_nil _) log ?_ (Nat.le_refl _) fun _ => .inl ⟨rfl, nofun⟩
    rcases s.postCallback_queue cbs notice with ⟨same, -⟩ | more
    · rw [waiting, same, waiting]
    · rw [waiting, more, List.filterMap_append, waiting]
      simp [carries]
  | some r =>
    rcases s.postCallback_queue cbs notice with ⟨same, rfl | stopped⟩ | more
    · cases carries
    · refine .drops ?_ (List.forall_mem_nil _) log fun x mem => ?_
      · cases cbs <;> simp [postCallback, CWorkQueue.post, setQueue, record, stopped]
      · rwa [waiting, same] at mem
    · refine .posts r carries (List.forall_mem_nil _) log ?_ rfl
      rw [waiting, more, List.filterMap_append, waiting]
      simp [carries]

/-- **What a piece does to the reports of a uri.** -/
theorem Does.effect (does : Does s i a s' outs) (configured : u ≠ [] → Configured s u) (counts : s.impl.Counts)
    (asked : u ≠ [] → ∀ id, a = .notifyClosedSync id u → s.impl.mUris[u]?.isSome = true) (narrow : Slim a) :
    Effect u s a s' outs := by
  have same : ∀ {b : Action} {d : Server}, reported u b = none → (∀ id, b ≠ .notifyClosedSync id u) →
      invokedReports d.log u = invokedReports s.log u → d.mWorkQueue = s.mWorkQueue →
      d.impl.reports = s.impl.reports → d.impl.uriCount u = s.impl.uriCount u →
      (∀ e ∈ outs, reported u e = none) → Effect u s b d outs :=
    fun piece other log queue reports count none =>
      .idle piece none log (by rw [queue]) (Nat.le_of_eq reports.symm) fun _ => .inl ⟨count, other⟩
  cases does with
  | relay light lights =>
    refine same (reported_light light) ?_ rfl rfl rfl rfl (lights_unreported lights)
    rintro id rfl
    cases light
  | startLocked done =>
    unfold CImpl.startLocked at done
    split at done
    · cases done
    · cases done
      exact same rfl nofun rfl rfl rfl rfl (List.forall_mem_nil _)
  | stop => exact stop_effect counts
  | removeClient present => exact removeClient_effect counts present
  | notifyClosedSync clientId uri =>
    exact notifyClosedSync_effect configured fun nonempty eq => asked nonempty clientId (by rw [eq])
  | register done => exact register_effect configured done
  | onWsClosed present => exact onWsClosed_effect configured counts present
  | postCallback cbs notice => exact postCallback_effect cbs notice
  | unset notice => exact same rfl nofun (by simp [invokedReports]) rfl rfl rfl (List.forall_mem_nil _)
  | invoke fn notice lights =>
    cases carries : carried u [fn] notice with
    | none =>
      exact same carries nofun (by simp [invokedReports, carries]) rfl rfl rfl (lights_unreported lights)
    | some r => exact .invokes r carries carries (lights_unreported lights) (by simp [invokedReports, carries]) rfl rfl
  | call fn rest notice left =>
    obtain ⟨past, whole⟩ := carried_cons (u := u) narrow
    have none : ∀ e ∈ outs, reported u e = none := by
      rcases left with rfl | lights
      · intro e mem
        rw [List.mem_singleton.1 mem]
        exact past
      · exact lights_unreported lights
    cases carries : carried u (fn :: rest) notice with
    | none => exact same carries nofun (by simp [invokedReports, whole, carries]) rfl rfl rfl none
    | some r => exact .invokes r carries carries none (by simp [invokedReports, whole, carries]) rfl rfl
  | returned notice => exact same rfl nofun rfl rfl rfl rfl (List.forall_mem_nil _)
  | stopQueue onWorker lights =>
    exact .drops rfl (lights_unreported lights) rfl fun r mem => nomatch mem
  | reject rejects => exact same rfl nofun (by simp [invokedReports]) rfl rfl rfl (by simp [reported])
  | nextConnectionId path => exact same rfl nofun rfl rfl rfl rfl (by simp [reported])
  | shutdown onWorker => exact same rfl nofun rfl rfl rfl rfl (by simp [reported])
  | logError line => exact same rfl nofun (by simp [invokedReports]) rfl rfl rfl (List.forall_mem_nil _)
  | _ => exact same rfl nofun rfl rfl rfl rfl (List.forall_mem_nil _)

/-! ## Truthful reports -/

/-- All reports of `u` that were taken: invoked ones first. -/
def known (c : Running) (u : Bytes) : List (Nat × Nat) := invokedReports c.shared.log u ++ outstanding c u

/-- No removal is about to take the count of `u`. -/
def Unasked (c : Running) (u : Bytes) : Prop := ∀ j o id, ¬ c.At j o (.notifyClosedSync id u)

/-- The newest report of `u` is current, and reports are invoked oldest first. -/
structure Truthful (c : Running) (u : Bytes) : Prop where
  below : ∀ r ∈ known c u, r.2 < c.shared.impl.reports
  newest : Unasked c u → ∀ r ∈ known c u, (∀ r' ∈ known c u, r'.2 ≤ r.2) → r.1 = c.shared.impl.uriCount u
  inOrder : (invokedReports c.shared.log u).Pairwise fun r r' => r.2 ≤ r'.2
  later : ∀ r ∈ invokedReports c.shared.log u, ∀ r' ∈ outstanding c u, r.2 ≤ r'.2

/-- No report is taken or invoked. -/
theorem Truthful.same (truthful : Truthful c u)
    (log : invokedReports c'.shared.log u = invokedReports c.shared.log u)
    (out : ∀ r, r ∈ outstanding c' u ↔ r ∈ outstanding c u) (reports : c.shared.impl.reports ≤ c'.shared.impl.reports)
    (count : c'.shared.impl.uriCount u = c.shared.impl.uriCount u ∧ (Unasked c' u → Unasked c u) ∨ ¬ Unasked c' u) :
    Truthful c' u := by
  have all : ∀ r, r ∈ known c' u ↔ r ∈ known c u := fun r => by
    rw [known, known, List.mem_append, List.mem_append, log, out]
  refine ⟨fun r mem => ?_, fun unasked r mem top => ?_, log ▸ truthful.inOrder, fun r mem r' mem' => ?_⟩
  · exact Nat.lt_of_lt_of_le (truthful.below r ((all r).1 mem)) reports
  · rcases count with ⟨count, before⟩ | asked
    · rw [count]
      exact truthful.newest (before unasked) r ((all r).1 mem) fun r' mem' => top r' ((all r').2 mem')
    · exact absurd unasked asked
  · rw [log] at mem
    exact truthful.later r mem r' ((out r').1 mem')

/-- The current count is taken. -/
theorem Truthful.takes (truthful : Truthful c u)
    (log : invokedReports c'.shared.log u = invokedReports c.shared.log u)
    (out : ∀ r, r ∈ outstanding c' u ↔ r = (c'.shared.impl.uriCount u, c.shared.impl.reports) ∨ r ∈ outstanding c u)
    (reports : c'.shared.impl.reports = c.shared.impl.reports + 1) : Truthful c' u := by
  have all : ∀ r, r ∈ known c' u ↔ r = (c'.shared.impl.uriCount u, c.shared.impl.reports) ∨ r ∈ known c u := by
    intro r
    rw [known, known, List.mem_append, List.mem_append, log, out]
    exact or_left_comm
  refine ⟨fun r mem => ?_, fun _ r mem top => ?_, log ▸ truthful.inOrder, fun r mem r' mem' => ?_⟩
  · rw [reports]
    rcases (all r).1 mem with rfl | old
    · exact Nat.lt_succ_self _
    · exact Nat.lt_succ_of_lt (truthful.below r old)
  · -- the number is above all older ones, so only the report just taken can be the newest
    rcases (all r).1 mem with rfl | old
    · rfl
    · have := truthful.below r old
      have := top _ ((all _).2 (.inl rfl))
      omega
  · rw [log] at mem
    rcases (out r').1 mem' with rfl | old
    · exact Nat.le_of_lt (truthful.below r (List.mem_append_left _ mem))
    · exact truthful.later r mem r' old

/-- The oldest outstanding report is invoked. -/
theorem Truthful.invokes {r : Nat × Nat} (truthful : Truthful c u)
    (log : invokedReports c'.shared.log u = invokedReports c.shared.log u ++ [r])
    (out : ∀ x, x ∈ outstanding c u ↔ x = r ∨ x ∈ outstanding c' u) (impl : c'.shared.impl = c.shared.impl)
    (unasked : Unasked c' u → Unasked c u) (oldest : ∀ x ∈ outstanding c u, r.2 ≤ x.2) : Truthful c' u := by
  have all : ∀ x, x ∈ known c' u ↔ x ∈ known c u := by
    intro x
    rw [known, known, List.mem_append, List.mem_append, log, out, List.mem_append, List.mem_singleton]
    exact or_assoc
  refine ⟨fun x mem => ?_, fun quiet x mem top => ?_, ?_, fun x mem y mem' => ?_⟩
  · rw [impl]
    exact truthful.below x ((all x).1 mem)
  · rw [impl]
    exact truthful.newest (unasked quiet) x ((all x).1 mem) fun y mem' => top y ((all y).2 mem')
  · rw [log]
    refine List.pairwise_append.2 ⟨truthful.inOrder, List.pairwise_singleton _ _, fun x mem y last => ?_⟩
    obtain rfl := List.mem_singleton.1 last
    exact truthful.later x mem y ((out y).2 (.inl rfl))
  · have still := (out y).2 (.inr mem')
    rw [log] at mem
    rcases List.mem_append.1 mem with old | last
    · exact truthful.later x old y still
    · obtain rfl := List.mem_singleton.1 last
      exact oldest y still

/-! ## The setting -/

theorem Stable.keeps (stable : Stable u c (.run i throws)) (head : head? c i = some a) :
    keepsUri u c.shared a = true := by
  simpa [Stable, head] using stable

/-- `u` stays registered. -/
theorem Does.registered_kept (does : Does s i a s' outs) (keeps : keepsUri u s a = true)
    (registered : s.impl.mUris[u]?.isSome = true) : s'.impl.mUris[u]?.isSome = true := by
  cases does with
  | startLocked done =>
    unfold CImpl.startLocked at done
    split at done
    · cases done
    · cases done
      exact registered
  | addUri uri callbacks =>
    simp only [setImpl_impl, CImpl.addUri, TreeMap.getElem?_insert]
    split
    · rfl
    · exact registered
  | removeUri uri =>
    simp only [setImpl_impl, CImpl.removeUri, TreeMap.getElem?_erase]
    split
    · next same =>
      obtain rfl := LawfulEqCmp.eq_of_compare same
      simp_all [keepsUri]
    · exact registered
  | removeClient present => rwa [record_impl, setImpl_impl, eraseClient_mUris]
  | onWsClosed present =>
    rw [record_impl, setImpl_impl, countReport, eraseClient_mUris]
    exact registered
  | register done => rwa [record_impl, setImpl_impl, (registerWsClientLocked_inv done).mUris]
  | _ => exact registered

theorem Does.callback (does : Does s i a s' outs) (keeps : keepsUri u s a = true) (configured : Configured s u) :
    ∀ callbacks, s'.impl.mUris[u]? = some callbacks → callbacks.mOnConnectionChange.isSome = true := by
  intro callbacks found
  cases does with
  | startLocked done =>
    unfold CImpl.startLocked at done
    split at done
    · cases done
    · cases done
      exact configured.callback callbacks found
  | addUri uri callbacks =>
    simp only [setImpl_impl, CImpl.addUri, TreeMap.getElem?_insert] at found
    split at found
    · next same =>
      cases found
      obtain rfl := LawfulEqCmp.eq_of_compare same
      simp only [keepsUri, bne_self_eq_false, Bool.false_or, Bool.and_eq_true] at keeps
      exact keeps.2
    · exact configured.callback _ found
  | removeUri uri =>
    simp only [setImpl_impl, CImpl.removeUri, TreeMap.getElem?_erase] at found
    split at found
    · cases found
    · exact configured.callback callbacks found
  | removeClient present =>
    rw [record_impl, setImpl_impl, eraseClient_mUris] at found
    exact configured.callback callbacks found
  | onWsClosed present =>
    rw [record_impl, setImpl_impl, countReport, eraseClient_mUris] at found
    exact configured.callback callbacks found
  | register done =>
    rw [record_impl, setImpl_impl, (registerWsClientLocked_inv done).mUris] at found
    exact configured.callback callbacks found
  | _ => exact configured.callback callbacks found

/-- A client of `u` was there before, or it is entered while `u` is registered. -/
theorem Does.clients (does : Does s i a s' outs) (nonempty : u ≠ []) {id : UInt32} {entry : SClientEntry}
    (present : s'.impl.mClients[id]? = some entry) (mine : entry.uri = u) :
    s.impl.mClients[id]? = some entry ∨ s.impl.mUris[u]?.isSome = true := by
  cases does with
  | startLocked done =>
    unfold CImpl.startLocked at done
    split at done
    · cases done
    · cases done
      exact .inl present
  | stop => simp [stopLocked] at present
  | removeClient erased =>
    rw [record_impl, setImpl_impl, eraseClient_mClients, TreeMap.getElem?_erase] at present
    split at present
    · cases present
    · exact .inl present
  | onWsClosed erased =>
    rw [record_impl, setImpl_impl, countReport, eraseClient_mClients, TreeMap.getElem?_erase] at present
    split at present
    · cases present
    · exact .inl present
  | @register k target isSsl impl r done =>
    have registers := registerWsClientLocked_inv done
    rw [record_impl, setImpl_impl, registers.mClients, TreeMap.getElem?_insert] at present
    split at present
    · cases present
      replace mine : r.matchedUri = u := mine
      right
      rcases longestUriMatchLocked_registered s.impl (parseTarget target).1 with empty | matched
      · rw [← registers.matchedUri] at empty
        exact absurd (mine.symm.trans empty) nonempty
      · rwa [← registers.matchedUri, mine] at matched
    · exact .inl present
  | _ => exact .inl present

theorem Does.configured (does : Does s i a s' outs) (keeps : keepsUri u s a = true) (nonempty : u ≠ [])
    (configured : Configured s u) : Configured s' u where
  callback := does.callback keeps configured
  clients id entry present mine := by
    apply does.registered_kept keeps
    rcases does.clients nonempty present mine with old | registered
    · exact configured.clients id entry old mine
    · exact registered

/-- A count is asked for by an operation that took a client of the uri out. -/
theorem Does.asks (does : Does s i a s' outs) {id : UInt32} (mem : .notifyClosedSync id u ∈ outs) :
    ∃ (id : UInt32) (entry : SClientEntry), s.impl.mClients[id]? = some entry ∧ entry.uri = u := by
  have dry : (∀ b ∈ outs, b.isLight = true) → False := fun lights => nomatch lights _ mem
  cases does with
  | relay light lights => exact (dry lights).elim
  | invoke fn notice lights => exact (dry lights).elim
  | stopQueue onWorker lights => exact (dry lights).elim
  | call fn rest notice left =>
    rcases left with rfl | lights
    · simp at mem
    · exact (dry lights).elim
  | stop =>
    rw [stop_outs, List.mem_append] at mem
    rcases mem with closes | notifies
    · obtain ⟨e, -, eq⟩ := List.mem_map.1 closes
      cases eq
    · obtain ⟨⟨id, entry⟩, taken, eq⟩ := List.mem_map.1 notifies
      cases eq
      exact ⟨id, entry, TreeMap.mem_toList_iff_getElem?_eq_some.1 taken, rfl⟩
  | @removeClient clientId entry present =>
    have eq : u = entry.uri := by simp at mem; exact mem.2
    exact ⟨clientId, entry, present, eq.symm⟩
  | _ => simp at mem

theorem slim_toList (cb : Option Fn) (notice : Notice) : slim cb.toList notice := by
  cases notice <;> cases cb <;> simp [slim]

theorem slim_light (light : a.isLight = true) : Slim a := by
  cases a with
  | postCallback cbs notice =>
    cases notice with
    | connectionChange uri uriCount stamp => cases light
    | _ => trivial
  | call cbs notice => cases light
  | _ => trivial

theorem Does.narrow (does : Does s i a s' outs) (narrow : Slim a) : ∀ b ∈ outs, Slim b := by
  cases does with
  | relay light lights => exact fun b mem => slim_light (lights b mem)
  | invoke fn notice lights => exact fun b mem => slim_light (lights b mem)
  | stopQueue onWorker lights => exact fun b mem => slim_light (lights b mem)
  | call fn rest notice left =>
    rcases left with rfl | lights
    · intro b mem
      rw [List.mem_singleton.1 mem]
      cases notice with
      | connectionChange uri uriCount stamp =>
        exact Nat.le_trans (Nat.le_succ _) narrow
      | _ => trivial
    · exact fun b mem => slim_light (lights b mem)
  | stop =>
    intro b mem
    rw [stop_outs, List.mem_append] at mem
    rcases mem with mem | mem <;> obtain ⟨e, -, rfl⟩ := List.mem_map.1 mem <;> trivial
  | removeClient present => simp [Slim]
  | notifyClosedSync clientId uri => simp [Slim]
  | register done =>
    have registers := registerWsClientLocked_inv done
    simp [Slim, slim_toList]
  | onWsClosed present => simp [Slim, slim_toList]
  | reject rejects => simp [Slim]
  | nextConnectionId path => simp [Slim]
  | shutdown onWorker => simp [Slim]
  | _ => exact List.forall_mem_nil _

/-- What is queued was posted. -/
theorem Does.queued (does : Does s i a s' outs) {cbs : List Fn} {notice : Notice}
    (mem : (cbs, notice) ∈ s'.mWorkQueue.mQueue) :
    (cbs, notice) ∈ s.mWorkQueue.mQueue ∨ a = .postCallback cbs notice := by
  cases does with
  | postCallback cbs' notice' =>
    rcases s.postCallback_queue cbs' notice' with ⟨same, -⟩ | more
    · rw [same] at mem
      exact .inl mem
    · rw [more] at mem
      rcases List.mem_append.1 mem with old | last
      · exact .inl old
      · cases List.mem_singleton.1 last
        exact .inr rfl
  | stopQueue onWorker lights => cases mem
  | _ => exact .inl mem

/-- The queue is stopped for good. -/
theorem Does.stopped (does : Does s i a s' outs) (stopped : s.mWorkQueue.mStopped = true) :
    s'.mWorkQueue.mStopped = true := by
  cases does with
  | postCallback cbs notice =>
    cases cbs <;> simp [Server.postCallback, CWorkQueue.post, setQueue, record, stopped]
  | stopQueue onWorker lights => rfl
  | _ => exact stopped

/-! ## Every step keeps the reports truthful -/

/-- The invariant for one uri. -/
structure Converging (u : Bytes) (c : Running) : Prop where
  counts : c.shared.impl.Counts
  configured : u ≠ [] → Configured c.shared u
  asked : u ≠ [] → ∀ j o id, c.At j o (.notifyClosedSync id u) → c.shared.impl.mUris[u]?.isSome = true
  narrow : ∀ j o b, c.At j o b → Slim b
  queued : ∀ cbs notice, (cbs, notice) ∈ c.shared.mWorkQueue.mQueue → slim cbs notice
  /-- Nobody is told counts of the empty uri. -/
  silent : u = [] → ∀ r, r ∉ known c u
  truthful : u ≠ [] → c.shared.mWorkQueue.mStopped = false → Truthful c u

theorem mem_outstanding {r : Nat × Nat} :
    r ∈ outstanding c u ↔ r ∈ c.pending (reported u) ∨ r ∈ waiting c.shared.mWorkQueue u := List.mem_append

/-- A pending request for the count stays, unless the piece answers it. -/
theorem unasked_before (ran : Tasks.Ran (exec throws) c i c' o a rest outs)
    (other : ∀ id, a ≠ .notifyClosedSync id u) (unasked : Unasked c' u) : Unasked c u :=
  fun j q id pending => unasked j q id (ran.at_kept pending fun eq => other id eq.symm)

theorem Effect.silent (effect : Effect u c.shared a c'.shared outs) (empty : u = [])
    (ran : Tasks.Ran (exec throws) c i c' o a rest outs) (silent : ∀ r, r ∉ known c u) : ∀ r, r ∉ known c' u := by
  obtain ⟨others, before, after⟩ := ran.mem_pending (reported u)
  have quiet : ∀ r, r ∉ invokedReports c.shared.log u ∧ r ∉ c.pending (reported u) ∧
      r ∉ waiting c.shared.mWorkQueue u := by
    intro r
    have := silent r
    rw [known, List.mem_append, mem_outstanding] at this
    exact ⟨fun h => this (.inl h), fun h => this (.inr (.inl h)), fun h => this (.inr (.inr h))⟩
  have fewer : (∀ b ∈ outs, reported u b = none) → ∀ r, r ∉ c'.pending (reported u) := by
    intro none r mem
    rcases (after r).1 mem with ⟨b, out, eq⟩ | old
    · rw [none b out] at eq
      cases eq
    · exact (quiet r).2.1 ((before r).2 (.inr old))
  intro r mem
  rw [known, List.mem_append, mem_outstanding] at mem
  cases effect with
  | idle piece none log queue =>
    rw [log, queue] at mem
    exact mem.elim (quiet r).1 fun h => h.elim (fewer none r) (quiet r).2.2
  | takes nonempty => exact nonempty empty
  | posts x piece => exact (quiet x).2.1 ((before x).2 (.inl piece))
  | invokes x piece => exact (quiet x).2.1 ((before x).2 (.inl piece))
  | drops stopped none log queue =>
    rw [log] at mem
    exact mem.elim (quiet r).1 fun h => h.elim (fewer none r) fun h => (quiet r).2.2 (queue r h)

theorem Effect.truthful (effect : Effect u c.shared a c'.shared outs) (nonempty : u ≠ [])
    (ran : Tasks.Ran (exec throws) c i c' o a rest outs) (running : c'.shared.mWorkQueue.mStopped = false)
    (truthful : Truthful c u) (ordered : InOrder u c (.run i throws)) : Truthful c' u := by
  obtain ⟨others, before, after⟩ := ran.mem_pending (reported u)
  have kept : (∀ b ∈ outs, reported u b = none) → ∀ r, r ∈ c'.pending (reported u) ↔ r ∈ others := by
    intro none r
    rw [after]
    constructor
    · rintro (⟨b, mem, eq⟩ | old)
      · rw [none b mem] at eq
        cases eq
      · exact old
    · exact .inr
  cases effect with
  | idle piece none log queue reports count =>
    refine truthful.same log (fun r => ?_) reports ?_
    · rw [mem_outstanding, mem_outstanding, queue, kept none, before, piece]
      simp
    · rcases count nonempty with ⟨same, other⟩ | ⟨id, mem⟩
      · exact .inl ⟨same, unasked_before ran other⟩
      · exact .inr fun unasked => unasked i o id (ran.at_new mem)
  | takes _ piece out log queue reports =>
    refine truthful.takes log (fun r => ?_) reports
    rw [mem_outstanding, mem_outstanding, queue, before, after, out, piece]
    simp [or_assoc]
  | posts x piece none log queue impl =>
    refine truthful.same log (fun r => ?_) (Nat.le_of_eq (by rw [impl])) (.inl ⟨by rw [impl], ?_⟩)
    · rw [mem_outstanding, mem_outstanding, queue, kept none, before, piece, List.mem_append, List.mem_singleton]
      grind
    · refine unasked_before ran ?_
      rintro id rfl
      cases piece
  | invokes x piece now none log queue impl =>
    refine truthful.invokes log (fun r => ?_) impl (unasked_before ran ?_) ?_
    · rw [mem_outstanding, mem_outstanding, queue, kept none, before, piece]
      grind
    · rintro id rfl
      cases piece
    · apply ordered x
      rw [head?_eq ran.task]
      exact now
  | drops stopped => exact absurd (stopped.symm.trans running) (by decide)

theorem Converging.ran (converging : Converging u c) (ran : Tasks.Ran (exec throws) c i c' o a rest outs)
    (does : Does c.shared i a c'.shared outs) (counts : c'.shared.impl.Counts)
    (stable : Stable u c (.run i throws)) (ordered : InOrder u c (.run i throws)) : Converging u c' := by
  have keeps := stable.keeps (head?_eq ran.task)
  have narrow := converging.narrow i o a ran.at_head
  have effect : Effect u c.shared a c'.shared outs := does.effect converging.configured converging.counts
    (fun nonempty id eq => converging.asked nonempty i o id (eq ▸ ran.at_head)) narrow
  refine ⟨counts, fun nonempty => does.configured keeps nonempty (converging.configured nonempty),
    fun nonempty j q id pending => ?_, fun j q b pending => ?_, fun cbs notice mem => ?_,
    fun empty => effect.silent empty ran (converging.silent empty), fun nonempty running => ?_⟩
  · apply does.registered_kept keeps
    rcases ran.at_inv pending with old | ⟨-, -, new⟩
    · exact converging.asked nonempty j q id old
    · obtain ⟨id, entry, present, mine⟩ := does.asks new
      exact (converging.configured nonempty).clients id entry present mine
  · rcases ran.at_inv pending with old | ⟨-, -, new⟩
    · exact converging.narrow j q b old
    · exact does.narrow narrow b new
  · rcases does.queued mem with old | rfl
    · exact converging.queued cbs notice old
    · exact narrow
  · have before : c.shared.mWorkQueue.mStopped = false := by
      rw [← Bool.not_eq_true]
      exact fun stopped => absurd ((does.stopped stopped).symm.trans running) (by decide)
    exact effect.truthful nonempty ran running (converging.truthful nonempty before) ordered

/-- An operation begins, or none; the reports stay. -/
theorem Converging.begins (converging : Converging u c) (begins : Begins c c')
    (stopped : c'.shared.mWorkQueue.mStopped = c.shared.mWorkQueue.mStopped)
    (out : ∀ r, r ∈ outstanding c' u ↔ r ∈ outstanding c u)
    (narrow : ∀ j o b, c'.At j o b → c.At j o b ∨ Slim b)
    (queued : ∀ fn ∈ c'.shared.mWorkQueue.mQueue, fn ∈ c.shared.mWorkQueue.mQueue) : Converging u c' := by
  have impl := begins.impl
  have asked : ∀ j o id, c'.At j o (.notifyClosedSync id u) ↔ c.At j o (.notifyClosedSync id u) := by
    intro j q id
    constructor
    · rintro ⟨t, found, owner, mem⟩
      exact ⟨t, begins.mem rfl found mem, owner, mem⟩
    · rintro ⟨t, found, owner, mem⟩
      refine ⟨t, ?_, owner, mem⟩
      rcases begins.tasks with same | ⟨q, todo, same, -⟩
      · rw [same, found]
      · rw [same, List.getElem?_append_left (List.getElem?_eq_some_iff.1 found).1, found]
  refine ⟨impl ▸ converging.counts, fun nonempty => ?_, fun nonempty j q id pending => ?_, fun j q b pending => ?_,
    fun cbs notice mem => converging.queued cbs notice (queued _ mem), fun empty r mem => ?_,
    fun nonempty running => ?_⟩
  · have before := converging.configured nonempty
    exact ⟨impl ▸ before.callback, impl ▸ before.clients⟩
  · rw [impl]
    exact converging.asked nonempty j q id ((asked j q id).1 pending)
  · exact (narrow j q b pending).elim (converging.narrow j q b) id
  · apply converging.silent empty r
    rw [known, List.mem_append, begins.log, out] at mem
    exact List.mem_append.2 mem
  · refine (converging.truthful nonempty (stopped ▸ running)).same (by rw [begins.log]) out
      (Nat.le_of_eq (by rw [impl])) (.inl ⟨by rw [impl], fun unasked j q id pending => ?_⟩)
    exact unasked j q id ((asked j q id).2 pending)

/-- An operation begins that reports nothing. -/
theorem Converging.spawn {todo : List Action} (converging : Converging u c) (begins : Begins c c')
    (queue : c'.shared.mWorkQueue = c.shared.mWorkQueue) (tasks : c'.tasks = (c.spawn o todo).tasks)
    (plain : ∀ b ∈ todo, reported u b = none ∧ Slim b) : Converging u c' := by
  refine converging.begins begins (by rw [queue]) (fun r => ?_) (fun j q b pending => ?_)
    (fun fn mem => queue ▸ mem)
  · have pending : c'.pending (reported u) = c.pending (reported u) := by
      have spawned := Tasks.pending_spawn (c := c) (o := o) (f := reported u) todo
      rw [Tasks.filterMap_eq_nil_of fun b mem => (plain b mem).1, List.append_nil] at spawned
      rw [← spawned, Tasks.pending, Tasks.pending, tasks]
    rw [outstanding, outstanding, pending, queue]
  · rw [Tasks.At, tasks] at pending
    rcases Tasks.at_spawn.1 pending with old | ⟨-, -, new⟩
    · exact .inl old
    · exact .inr (plain b new).2

theorem step_converging (converging : Converging u c) (step : Server.step c l = some c')
    (counts : c'.shared.impl.Counts) (stable : Stable u c l) (ordered : InOrder u c l) : Converging u c' := by
  rcases step_ran_or_begins step with ⟨i, throws, o, a, rest, outs, rfl, ran, does⟩ | begins
  · exact converging.ran ran does counts stable ordered
  have plain : ∀ {b d : Action}, reported u d = none → Slim d → b ∈ [d] → reported u b = none ∧ Slim b :=
    fun none slim mem => by
      rw [List.mem_singleton.1 mem]
      exact ⟨none, slim⟩
  cases step_steps step with
  | run ran does => exact converging.ran ran does counts stable ordered
  | api call => exact converging.spawn begins rfl rfl fun b => plain (by cases call <;> rfl) (by cases call <;> trivial)
  | httpRequest path listened => exact converging.spawn begins rfl rfl fun b => plain rfl trivial
  | strand idle found ran =>
    refine converging.spawn begins rfl rfl fun b mem => ?_
    obtain ⟨call, -, rfl⟩ := List.mem_map.1 mem
    cases call <;> exact ⟨rfl, trivial⟩
  | upgrade target isSsl listened =>
    have queue : (c.shared.upgrade target isSsl).mWorkQueue = c.shared.mWorkQueue := by
      unfold Server.upgrade
      split <;> rfl
    refine converging.begins begins (congrArg _ queue) (fun r => ?_) (fun _ _ _ pending => .inl pending)
      (fun fn mem => queue ▸ mem)
    rw [mem_outstanding, mem_outstanding, queue]
    rfl
  | complete found done =>
    exact converging.begins begins rfl (fun r => Iff.rfl) (fun _ _ _ pending => .inl pending) (fun _ mem => mem)
  | @work cbs notice rest idle running queue =>
    refine converging.begins begins rfl (fun r => ?_) (fun j q b pending => ?_) (fun fn mem => ?_)
    · -- the report moves from the head of the queue to the worker
      rw [mem_outstanding, mem_outstanding, Tasks.pending_spawn, waiting, waiting, queue]
      show (_ ∈ c.pending _ ++ _ ∨ _) ↔ _
      simp only [List.mem_append, Tasks.spawn, setQueue, List.filterMap_cons, List.filterMap_nil, reported]
      cases carried u cbs notice <;> simp [or_assoc]
    · rcases Tasks.at_spawn.1 pending with old | ⟨-, -, new⟩
      · exact .inl old
      · rw [List.mem_singleton.1 new]
        exact .inr (converging.queued cbs notice (by rw [queue]; exact List.mem_cons_self))
    · rw [queue]
      exact List.mem_cons_of_mem _ mem

theorem create_converging (allowedUris : Option (List Bytes)) (maxSessionBacklog : Nat) (u : Bytes) :
    Converging u (create allowedUris maxSessionBacklog) := by
  have idle : ∀ j q b, ¬ (create allowedUris maxSessionBacklog).At j q b := by
    rintro j q b ⟨t, found, -⟩
    simp [create] at found
  have none : known (create allowedUris maxSessionBacklog) u = [] := rfl
  refine ⟨fun _ _ => by simp [create, uriCount, attached], fun _ => ⟨fun _ found => ?_, fun _ _ found => ?_⟩,
    fun _ j q id pending => absurd pending (idle _ _ _), fun j q b pending => absurd pending (idle _ _ _),
    (fun _ _ mem => by cases mem), fun _ r mem => ?_, fun _ _ => ⟨?_, ?_, List.Pairwise.nil, (fun _ mem => by cases mem)⟩⟩
  · simp [create] at found
  · simp [create] at found
  · rw [none] at mem
    cases mem
  · rw [none]
    exact List.forall_mem_nil _
  · rw [none]
    exact fun _ => List.forall_mem_nil _

theorem run_converging {allowedUris : Option (List Bytes)} {maxSessionBacklog : Nat} {ls : List Label}
    (run : system.exec (create allowedUris maxSessionBacklog) ls = some c)
    (stable : system.Along (Stable u) (create allowedUris maxSessionBacklog) ls)
    (ordered : system.Along (fun c l => InOrder u c l ∧ FreshOk c l) (create allowedUris maxSessionBacklog) ls) :
    Converging u c := by
  refine System.invariant_along (Converging u) (create_converging allowedUris maxSessionBacklog u)
    (fun c l c' converging ok step => ?_) run (stable.and ordered)
  have change : Change True c.shared.impl c'.shared.impl := step_change step fun _ => ok.2.2
  exact step_converging converging step (change.counts trivial converging.counts) ok.1 ok.2.1

/-- In a sorted list every element is at most the last. -/
theorem le_of_getLast? {rs : List (Nat × Nat)} {last : Nat × Nat} (sorted : rs.Pairwise fun r r' => r.2 ≤ r'.2)
    (found : rs.getLast? = some last) : ∀ r ∈ rs, r.2 ≤ last.2 := by
  obtain ⟨before, rfl⟩ := List.getLast?_eq_some_iff.1 found
  intro r mem
  rcases List.mem_append.1 mem with old | same
  · exact (List.pairwise_append.1 sorted).2.2 r old last (List.mem_singleton_self _)
  · exact Nat.le_of_eq (by rw [List.mem_singleton.1 same])

/-- **Reported connection counts converge.** Take a run in which the uri is registered with its callback
and neither replaced nor removed, in which no report of the uri is invoked while an older one is
outstanding, and in which no registration draws the id of a connected client. Whenever no operation is
in progress and the queue is empty and not stopped, the last count the callback was invoked with is the
number of clients attached to the uri. -/
theorem connection_counts_converge (allowedUris : Option (List Bytes)) (maxSessionBacklog : Nat)
    (ls : List Label) (c : Running) (run : system.exec (create allowedUris maxSessionBacklog) ls = some c)
    (uri : Bytes) (stable : system.Along (Stable uri) (create allowedUris maxSessionBacklog) ls)
    (ordered : system.Along (fun c l => InOrder uri c l ∧ FreshOk c l) (create allowedUris maxSessionBacklog) ls)
    (quiet : c.quiet) (running : c.shared.mWorkQueue.mStopped = false) (empty : c.shared.mWorkQueue.mQueue = [])
    (uriCount stamp : Nat) (last : (invokedReports c.shared.log uri).getLast? = some (uriCount, stamp)) :
    uriCount = countValues c.shared.impl.mClients (fun entry => entry.uri == uri) := by
  have converging := run_converging run stable ordered
  have idle : ∀ j q b, ¬ c.At j q b := by
    rintro j q b ⟨t, found, -, mem⟩
    rw [quiet t (List.mem_of_getElem? found)] at mem
    cases mem
  have none : outstanding c uri = [] := by
    rw [outstanding, waiting, empty, Tasks.pending_eq_nil fun j q b pending => absurd pending (idle j q b)]
    rfl
  have all : known c uri = invokedReports c.shared.log uri := by rw [known, none, List.append_nil]
  have mem : (uriCount, stamp) ∈ known c uri := by
    rw [all]
    exact List.mem_of_getLast? last
  by_cases nonempty : uri = []
  · exact absurd mem (converging.silent nonempty _)
  · have truthful := converging.truthful nonempty running
    have current := truthful.newest (fun j q id => idle _ _ _) _ mem
      (by rw [all]; exact le_of_getLast? truthful.inOrder last)
    exact current.trans (converging.counts uri nonempty)

/-- One client is registered, and its count delivered. -/
def reportedClient : List Label :=
  oneClient ++ [.run 2 false, .run 2 false, .run 2 false, .work, .run 3 false, .run 3 false]

theorem reportedClient_runs : (system.exec (create none 1024) reportedClient).isSome = true := by
  decide

theorem connection_counts_converge_reportedClient :
    ∃ c, system.exec (create none 1024) reportedClient = some c ∧
      (invokedReports c.shared.log (str "/a")).getLast? = some (1, 0) ∧
      1 = countValues c.shared.impl.mClients (fun entry => entry.uri == str "/a") :=
  ⟨_, System.exec_get reportedClient_runs, by decide, connection_counts_converge none 1024 reportedClient _
    (System.exec_get reportedClient_runs) (str "/a") (by decide) (by decide) (by decide)
    (by decide) (by decide) 1 0 (by decide)⟩

/-- Two clients are registered on two strands, and the second posts its count first. -/
def overtaking : List Label :=
  [.api (.addUri (str "/a") { mOnConnectionChange := some 1 }), .run 0 false, .api (.start 8080 {}), .run 1 false,
    .run 1 false, .upgrade (str "/a") false, .complete 0 0 none noFrame, .strand 0, .upgrade (str "/a") false,
    .complete 1 0 none noFrame, .strand 1, .run 2 false, .run 3 false, .run 3 false, .run 3 false, .run 3 false,
    .run 2 false, .run 2 false, .run 2 false, .work, .run 4 false, .run 4 false, .work, .run 5 false, .run 5 false]

theorem overtaking_runs : (system.exec (create none 1024) overtaking).isSome = true := by
  decide

/-- The callback is left with a count of 1 while two clients are attached. -/
theorem connection_count_stale :
    ∃ c, system.exec (create none 1024) overtaking = some c ∧
      system.Along (Stable (str "/a")) (create none 1024) overtaking ∧ c.quiet ∧
      c.shared.mWorkQueue.mStopped = false ∧ c.shared.mWorkQueue.mQueue = [] ∧
      (invokedReports c.shared.log (str "/a")).getLast? = some (1, 0) ∧
      countValues c.shared.impl.mClients (fun entry => entry.uri == str "/a") = 2 :=
  ⟨_, System.exec_get overtaking_runs, by decide, by decide, by decide, by decide,
    by decide, by decide⟩

end Server

end Websockets
