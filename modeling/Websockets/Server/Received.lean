import Websockets.Server.Counts

/-!
# Frames of removed clients

`OnWsMessage` and `OnWsContent` look the callbacks up under the lock and post after it. The callback of a uri is
found through the entry of the client; the global one is found for any id. So a frame that a session reads after
its client has been removed, while its close is still under way, is handed to the global callback, also to that of
a later `Start`.
-/

namespace Websockets

open Std Lib

/-- The client whose frame a posted function hands to a callback. -/
def Action.receiver : Action → Option UInt32
  | postCallback (_ :: _) (.message clientId _) | postCallback (_ :: _) (.content clientId _) => some clientId
  | _ => none

/-- The piece takes the client out of `mClients`, if it is there. -/
def Action.removes (clientId : UInt32) : Action → Bool
  | stop => true
  | removeClient id | onWsClosed id => id = clientId
  | _ => false

namespace Server

open CImpl

/-- A frame is looked up for a registered client, or no global callback of its kind is set; and no client is
removed between the lookup for its frame and the post. -/
def receivesOk (c : Running) (a : Action) : Bool :=
  (match a with
    | .onWsMessage id _ => c.shared.impl.mClients[id]?.isSome || c.shared.impl.mClientCbs.mOnClientMessageReceivedCb.isNone
    | .onWsContent id _ => c.shared.impl.mClients[id]?.isSome || c.shared.impl.mClientCbs.mOnClientContentReceivedCb.isNone
    | _ => true) &&
    c.tasks.all fun t => t.todo.all fun b => b.receiver.all fun id => !a.removes id

def ReceiveOk (c : Running) : Label → Prop
  | .run i _ => ∀ a, head? c i = some a → receivesOk c a = true
  | _ => True

/-- A callback is posted for a frame of a client that is in `mClients`. -/
def PostsOk (c : Running) : Label → Prop
  | .run i _ => ∀ a id, head? c i = some a → a.receiver = some id → c.shared.impl.mClients[id]?.isSome = true
  | _ => True

instance (c : Running) (l : Label) : Decidable (ReceiveOk c l) :=
  match l with
  | .run i _ => decidable_of_iff ((head? c i).all (receivesOk c) = true) (Option.all_eq_true _ _)
  | .api _ | .upgrade _ _ | .httpRequest _ | .complete _ _ _ _ | .strand _ | .work => .isTrue trivial

instance (c : Running) (l : Label) : Decidable (PostsOk c l) :=
  match l with
  | .run i _ => decidable_of_iff
      ((head? c i).all (fun a => a.receiver.all fun id => c.shared.impl.mClients[id]?.isSome) = true)
      (by
        simp only [PostsOk, Option.all_eq_true]
        exact ⟨fun h a id head receiver => h a head id receiver, fun h a head id receiver => h a id head receiver⟩)
  | .api _ | .upgrade _ _ | .httpRequest _ | .complete _ _ _ _ | .strand _ | .work => .isTrue trivial

variable {c c' : Running} {s s' : Server} {i : Nat} {a : Action} {outs : List Action} {throws : Bool} {l : Label}
  {id : UInt32}

/-! ## Who posts frames -/

theorem receiver_post {cbs : List Fn} {notice : Notice} (posts : (Action.postCallback cbs notice).receiver = some id) :
    cbs ≠ [] ∧ ((∃ m, notice = .message id m) ∨ ∃ m, notice = .content id m) := by
  cases cbs with
  | nil => cases posts
  | cons fn rest =>
    refine ⟨List.cons_ne_nil fn rest, ?_⟩
    cases notice with
    | message clientId m => cases posts; exact .inl ⟨m, rfl⟩
    | content clientId m => cases posts; exact .inr ⟨m, rfl⟩
    | _ => cases posts

theorem receiver_other {notice : Notice} (cbs : List Fn) (message : ∀ p : UInt32 × Bytes, notice ≠ .message p.1 p.2)
    (content : ∀ p : UInt32 × Bytes, notice ≠ .content p.1 p.2) : (Action.postCallback cbs notice).receiver = none := by
  cases receiver : (Action.postCallback cbs notice).receiver with
  | none => rfl
  | some id =>
    rcases (receiver_post receiver).2 with ⟨m, eq⟩ | ⟨m, eq⟩
    · exact absurd eq (message (id, m))
    · exact absurd eq (content (id, m))

/-- For an unknown id only a global callback is found. -/
theorem lookupReceiveCallbacks_unknown {impl : CImpl} (absent : impl.mClients[id]? = none)
    (pick : CClientCallbacks → Option Fn) (pickUri : CUriCallbacks → Option Fn) :
    impl.lookupReceiveCallbacks id pick pickUri = (pick impl.mClientCbs, none) := by
  unfold lookupReceiveCallbacks
  rw [absent]

/-- Callbacks are found for a client in `mClients` if no global one is set. -/
theorem lookupReceiveCallbacks_registered {impl : CImpl} {pick : CClientCallbacks → Option Fn}
    {pickUri : CUriCallbacks → Option Fn}
    (found : (impl.lookupReceiveCallbacks id pick pickUri).1.toList ++
      (impl.lookupReceiveCallbacks id pick pickUri).2.toList ≠ [])
    (ok : impl.mClients[id]?.isSome = true ∨ pick impl.mClientCbs = none) : impl.mClients[id]?.isSome = true := by
  cases absent : impl.mClients[id]? with
  | some entry => rfl
  | none =>
    rw [absent] at ok
    rw [lookupReceiveCallbacks_unknown absent, ok.resolve_left Bool.false_ne_true] at found
    exact absurd rfl found

/-- Only `OnWsMessage` and `OnWsContent` post frames. -/
theorem exec_silent (done : exec throws c i a = some (s', outs)) (message : ∀ clientId m, a ≠ .onWsMessage clientId m)
    (content : ∀ clientId m, a ≠ .onWsContent clientId m) : ∀ b ∈ outs, b.receiver = none := by
  intro b mem
  cases exec_yields done b mem with
  | message clientId m => exact absurd rfl (message clientId m)
  | content clientId m => exact absurd rfl (content clientId m)
  | added => exact receiver_other _ (fun _ => Notice.noConfusion) fun _ => Notice.noConfusion
  | registerChange => exact receiver_other _ (fun _ => Notice.noConfusion) fun _ => Notice.noConfusion
  | closed => exact receiver_other _ (fun _ => Notice.noConfusion) fun _ => Notice.noConfusion
  | closedChange => exact receiver_other _ (fun _ => Notice.noConfusion) fun _ => Notice.noConfusion
  | _ => rfl

/-- A piece posts a frame only if it looked its callbacks up for a registered client, which it leaves there. -/
theorem exec_posts (done : exec throws c i a = some (s', outs)) (ok : receivesOk c a = true) {b : Action}
    (mem : b ∈ outs) (receiver : b.receiver = some id) :
    c.shared.impl.mClients[id]?.isSome = true ∧ a.removes id = false := by
  have looked : ∀ {clientId : UInt32} {pick pickUri} {notice : Notice},
      outs = c.shared.onWsReceived clientId pick pickUri notice →
      (c.shared.impl.mClients[clientId]?.isSome || (pick c.shared.impl.mClientCbs).isNone) = true →
      ((∃ m, notice = .message clientId m) ∨ ∃ m, notice = .content clientId m) →
      c.shared.impl.mClients[id]?.isSome = true := by
    intro clientId pick pickUri notice eq either frame
    rw [eq, onWsReceived, List.mem_singleton] at mem
    subst mem
    obtain ⟨found, mine⟩ := receiver_post receiver
    have registered := lookupReceiveCallbacks_registered found
      (by simpa only [Bool.or_eq_true, Option.isNone_iff_eq_none] using either)
    have same : clientId = id := by
      rcases frame with ⟨m, rfl⟩ | ⟨m, rfl⟩ <;> rcases mine with ⟨m', eq⟩ | ⟨m', eq⟩ <;> cases eq <;> rfl
    exact same ▸ registered
  have head := (Bool.and_eq_true_iff.1 ok).1
  by_cases message : ∃ clientId m, a = .onWsMessage clientId m
  · obtain ⟨clientId, m, rfl⟩ := message
    cases done
    exact ⟨looked rfl head (.inl ⟨m, rfl⟩), rfl⟩
  · by_cases content : ∃ clientId m, a = .onWsContent clientId m
    · obtain ⟨clientId, m, rfl⟩ := content
      cases done
      exact ⟨looked rfl head (.inr ⟨m, rfl⟩), rfl⟩
    · have silent := exec_silent done (fun clientId m eq => message ⟨clientId, m, eq⟩)
        (fun clientId m eq => content ⟨clientId, m, eq⟩) b mem
      rw [silent] at receiver
      cases receiver

/-! ## Who removes clients -/

/-- A client stays in `mClients` unless the piece removes it. -/
theorem Does.client_kept (does : Does s i a s' outs) (keeps : a.removes id = false)
    (present : s.impl.mClients[id]?.isSome = true) : s'.impl.mClients[id]?.isSome = true := by
  cases does with
  | startLocked done =>
    unfold CImpl.startLocked at done
    split at done
    · cases done
    · cases done
      exact present
  | stop => cases keeps
  | @removeClient clientId entry _ =>
    have other : clientId ≠ id := of_decide_eq_false keeps
    rw [record_impl, setImpl_impl, eraseClient_mClients, TreeMap.getElem?_erase,
      if_neg fun same => other (LawfulEqCmp.eq_of_compare same)]
    exact present
  | @onWsClosed clientId entry _ =>
    have other : clientId ≠ id := of_decide_eq_false keeps
    rw [record_impl, setImpl_impl, countReport, eraseClient_mClients, TreeMap.getElem?_erase,
      if_neg fun same => other (LawfulEqCmp.eq_of_compare same)]
    exact present
  | register done =>
    rw [record_impl, setImpl_impl, (registerWsClientLocked_inv done).mClients, TreeMap.getElem?_insert]
    split
    · rfl
    · exact present
  | _ => exact present

/-! ## Frames are posted for registered clients -/

/-- Callbacks found for a frame and not posted yet are for a client in `mClients`. -/
def Held (c : Running) : Prop :=
  ∀ j q b id, c.At j q b → b.receiver = some id → c.shared.impl.mClients[id]?.isSome = true

theorem receiver_entry (entry : a.isEntry = true) : a.receiver = none := by
  cases a with
  | postCallback cbs notice => cases entry
  | _ => rfl

theorem step_held (step : step c l = some c') (ok : ReceiveOk c l) (held : Held c) : Held c' := by
  rcases step_ran_or_begins step with ⟨i, throws, o, a, rest, outs, rfl, ran, does⟩ | begins
  · have allowed := ok a (head?_eq ran.task)
    have kept : ∀ {j q b id}, c.At j q b → b.receiver = some id → c'.shared.impl.mClients[id]?.isSome = true := by
      rintro j q b id ⟨t, found, owner, mem⟩ receiver
      refine does.client_kept ?_ (held j q b id ⟨t, found, owner, mem⟩ receiver)
      have spares := (Bool.and_eq_true_iff.1 allowed).2
      rw [List.all_eq_true] at spares
      have each := spares t (List.mem_of_getElem? found)
      rw [List.all_eq_true] at each
      have one := each b mem
      rw [receiver, Option.all_some, Bool.not_eq_true'] at one
      exact one
    intro j q b id here receiver
    rcases ran.at_inv here with old | ⟨-, -, mem⟩
    · exact kept old receiver
    · obtain ⟨registered, keeps⟩ := exec_posts ran.action allowed mem receiver
      exact does.client_kept keeps registered
  · intro j q b id here receiver
    rw [begins.impl]
    refine held j q b id ?_ receiver
    obtain ⟨t, found, owner, mem⟩ := here
    refine ⟨t, ?_, owner, mem⟩
    rcases begins.tasks with same | ⟨o, todo, same, entries⟩
    · rw [← same]
      exact found
    · rw [same, List.getElem?_append] at found
      split at found
      · exact found
      · rw [List.mem_singleton.1 (List.mem_of_getElem? found)] at mem
        rw [receiver_entry (entries b mem)] at receiver
        cases receiver

/-- **Frames of registered clients.** In every run in which every frame is looked up for a client in `mClients`
or finds no global callback of its kind set, and no client is removed between a lookup and its post: a callback is
posted for a frame of a client only while the client is in `mClients`. -/
theorem frames_of_registered (allowedUris : Option (List Bytes)) (maxSessionBacklog : Nat) (ls : List Label)
    (c : Running) (run : system.exec (create allowedUris maxSessionBacklog) ls = some c)
    (receives : system.Along ReceiveOk (create allowedUris maxSessionBacklog) ls) :
    system.Along PostsOk (create allowedUris maxSessionBacklog) ls := by
  refine System.along_of_invariant Held ?_ (fun _ _ _ held ok step => step_held step ok held) ?_ run receives
  · rintro j q b id ⟨t, found, -, -⟩
    cases found
  · intro c l held _
    cases l with
    | run i throws =>
      intro a id head receiver
      obtain ⟨t, found, first⟩ := Option.bind_eq_some_iff.1 head
      exact held i t.owner a id ⟨t, found, rfl, List.mem_of_head? first⟩ receiver
    | _ => trivial

/-- A server with a message callback and one client. -/
def listens : List Label :=
  [.api (.start 80 { mOnClientMessageReceivedCb := some 7 }), .run 0 false, .run 0 false,
    .upgrade (str "/") false, .complete 0 0 none noFrame, .strand 0, .run 1 false, .run 1 false, .run 1 false,
    .run 1 false]

/-- The client sends a message. -/
def talks : List Label := listens ++ [.complete 0 0 none ⟨true, str "hello"⟩, .strand 0, .run 2 false, .run 2 false]

theorem talks_runs : (system.exec (create none 1024) talks).isSome = true := by decide

/-- There the message is posted. -/
theorem frames_of_registered_talks : ∃ c, system.exec (create none 1024) talks = some c ∧
    .issued [7] (.message 1 (str "hello")) ∈ c.shared.log ∧ system.Along PostsOk (create none 1024) talks :=
  ⟨_, System.exec_get talks_runs, by decide,
    frames_of_registered none 1024 talks _ (System.exec_get talks_runs) (by decide)⟩

/-- The client sends a message while `RemoveClient` closes its session. -/
def talksAfterRemoval : List Label :=
  listens ++ [.api (.removeClient 1), .run 2 false, .run 2 false, .run 2 false, .run 2 false, .run 2 false,
    .strand 0, .complete 0 0 none ⟨true, str "late"⟩, .strand 0, .run 4 false, .run 4 false]

theorem talksAfterRemoval_runs : (system.exec (create none 1024) talksAfterRemoval).isSome = true := by decide

/-- The message is posted although the client has been removed. -/
theorem removed_client_heard : ∃ c, system.exec (create none 1024) talksAfterRemoval = some c ∧
    .removed .removeClient 2 1 ∈ c.shared.log ∧ c.shared.impl.mClients[(1 : UInt32)]? = none ∧
    .issued [7] (.message 1 (str "late")) ∈ c.shared.log ∧
    ¬ system.Along PostsOk (create none 1024) talksAfterRemoval :=
  ⟨_, System.exec_get talksAfterRemoval_runs, by decide, by decide, by decide,
    by decide⟩

end Server

end Websockets
