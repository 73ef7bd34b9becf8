import Websockets.Server.Counts

/-!
# The closed notification of each client

Three operations take a client out of the registry, and each of them then owes one closed
notification for it. The books are kept per id: notifications issued, plus those an operation still
owes, plus one if the client is registered, are the registrations under the id. Before the counter
wraps an id is registered at most once, so each client is notified of once.
-/

namespace Websockets

open Std Lib

namespace Server

open CImpl

/-- The piece will issue the closed notification of `id`. -/
def owes (id : UInt32) : Action → Bool
  | .notifyClosedSync clientId _ => clientId == id
  | .invoke _ (.closed clientId) => clientId == id
  | .postCallback _ (.closed clientId) => clientId == id
  | _ => false

/-- The closed notification of `id` was issued. -/
def isIssue (id : UInt32) : Event → Bool
  | .issued _ (.closed clientId) => clientId == id
  | _ => false

/-- A client was registered under `id`. -/
def isEnter (id : UInt32) : Event → Bool
  | .registered _ clientId => clientId == id
  | _ => false

/-- The client `id` was taken out. -/
def isRemoval (id : UInt32) : Event → Bool
  | .removed _ _ clientId => clientId == id
  | _ => false

/-- 1 if `id` is registered, else 0. -/
def live (impl : CImpl) (id : UInt32) : Nat := if impl.mClients[id]?.isSome then 1 else 0

variable {c c' : Running} {s s' : Server} {i : Nat} {a : Action} {outs : List Action} {l : Label}
  {id : UInt32}

/-! ## What the changes of the registry do to `live` -/

@[simp] theorem live_countReport (impl : CImpl) : live impl.countReport id = live impl id := rfl

theorem live_eraseClient {impl : CImpl} {clientId : UInt32} {entry : SClientEntry}
    (present : impl.mClients[clientId]? = some entry) (id : UInt32) :
    live (impl.eraseClient clientId entry).1 id + (if clientId = id then 1 else 0) = live impl id := by
  simp only [live, eraseClient_mClients, TreeMap.getElem?_erase, LawfulEqCmp.compare_eq_iff_eq]
  by_cases same : clientId = id
  · subst same
    simp [present]
  · simp [same]

theorem live_register {impl impl' : CImpl} {session : Nat} {path : Bytes} {isSsl : Bool} {r : Registration}
    (done : Registers impl impl' session path isSsl r) (free : impl.NextFree)
    (id : UInt32) : live impl' id = live impl id + if r.clientId = id then 1 else 0 := by
  simp only [live, done.mClients, TreeMap.getElem?_insert, LawfulEqCmp.compare_eq_iff_eq]
  have absent : impl.mClients[r.clientId]? = none := done.clientId ▸ free
  by_cases same : r.clientId = id
  · subst same
    simp [absent]
  · simp [same]

/-! ## The books -/

/-- Issued, owed and registered make up the registrations. -/
def Balanced (c : Running) (id : UInt32) : Prop :=
  c.shared.log.countP (isIssue id) + c.count (owes id) + live c.shared.impl id =
    c.shared.log.countP (isEnter id)

/-- Taken out and registered make up the registrations. -/
def Removed (s : Server) (id : UInt32) : Prop :=
  s.log.countP (isRemoval id) + live s.impl id = s.log.countP (isEnter id)

/-- Light pieces owe nothing. -/
theorem owes_light (light : a.isLight = true) : owes id a = false := by
  cases a with
  | postCallback cbs notice =>
    cases notice with
    | message clientId message => rfl
    | content clientId content => rfl
    | request clientId uri => rfl
    | _ => cases light
  | notifyClosedSync clientId uri => cases light
  | invoke cb notice => cases light
  | _ => rfl

theorem owes_entry (entry : a.isEntry = true) : owes id a = false := by
  cases a with
  | postCallback cbs notice => cases entry
  | notifyClosedSync clientId uri => cases entry
  | invoke cb notice => cases entry
  | _ => rfl

theorem countP_owes_lights (lights : ∀ o ∈ outs, o.isLight = true) : outs.countP (owes id) = 0 := by
  rw [List.countP_eq_zero]
  intro o mem
  rw [owes_light (lights o mem)]
  exact Bool.false_ne_true

/-- One piece keeps the books balanced. -/
theorem Does.balance (does : Does s i a s' outs)
    (free : ∀ k target isSsl, a = .registerWsClient k target isSsl → s.impl.rejects = false → s.impl.NextFree)
    (id : UInt32) :
    s'.log.countP (isIssue id) + outs.countP (owes id) + live s'.impl id + s.log.countP (isEnter id) =
      s.log.countP (isIssue id) + (if owes id a then 1 else 0) + live s.impl id +
        s'.log.countP (isEnter id) := by
  cases does with
  | relay light lights => simp [countP_owes_lights lights, owes_light light]
  | startLocked done =>
    unfold CImpl.startLocked at done
    split at done
    · cases done
    · cases done; simp [owes, live]
  | stop =>
    have taken : s.impl.mClients.toList.countP (fun e => e.1 == id) = live s.impl id :=
      countP_key s.impl.mClients id
    have silent : (s.impl.mClients.toList.map fun e => Event.removed .stop i e.1).countP (isIssue id) = 0 := by
      simp [List.countP_map, Function.comp_def, isIssue]
    have quiet : (s.impl.mClients.toList.map fun e => Event.removed .stop i e.1).countP (isEnter id) = 0 := by
      simp [List.countP_map, Function.comp_def, isEnter]
    have closes : (s.impl.mClients.toList.map fun e => Action.sessionClose e.2.session).countP (owes id) = 0 := by
      simp [List.countP_map, Function.comp_def, owes]
    have notifies : (s.impl.mClients.toList.map fun e => Action.notifyClosedSync e.1 e.2.uri).countP (owes id) =
        live s.impl id := by
      rw [List.countP_map, ← taken]
      rfl
    have gone : live s.impl.stopLocked.1 id = 0 := by simp [live, stopLocked]
    rw [stop_log, stop_impl, stop_outs]
    simp only [List.countP_append, silent, quiet, closes, notifies, gone, owes, Bool.false_eq_true, if_false]
    omega
  | removeUnknown absent => simp [owes]
  | removeClient present =>
    have erased := live_eraseClient present id
    simp only [record_log, record_impl, setImpl_log, setImpl_impl, List.countP_append, List.countP_cons,
      List.countP_nil, owes, isIssue, isEnter, beq_iff_eq, Bool.false_eq_true, if_false]
    omega
  | notifyClosedSync clientId uri =>
    simp only [setImpl_log, setImpl_impl, live_countReport, List.countP_cons, List.countP_nil, owes, beq_iff_eq,
      Bool.false_eq_true, if_false]
    omega
  | addUri uri callbacks => simp [owes, live, CImpl.addUri]
  | removeUri uri => simp [owes, live, CImpl.removeUri]
  | sessionSend k payload => simp [owes]
  | sessionClose k => simp [owes]
  | reject rejects => simp [owes, isIssue, isEnter]
  | register done =>
    have registers := registerWsClientLocked_inv done
    have entered := live_register registers (free _ _ _ rfl registers.accepted) id
    simp only [record_log, record_impl, setImpl_log, setImpl_impl, List.countP_append, List.countP_cons,
      List.countP_nil, owes, isIssue, isEnter, beq_iff_eq, entered, Bool.false_eq_true, if_false]
    omega
  | registered k clientId => simp [owes]
  | closedUnknown absent => simp [owes]
  | onWsClosed present =>
    have erased := live_eraseClient present id
    simp only [record_log, record_impl, setImpl_log, setImpl_impl, live_countReport, List.countP_append,
      List.countP_cons, List.countP_nil, owes, isIssue, isEnter, beq_iff_eq, Bool.false_eq_true, if_false]
    omega
  | nextConnectionId path => simp [owes, live, CImpl.nextConnectionId]
  | postCallback cbs notice =>
    cases notice <;> simp [owes, isIssue, isEnter, List.countP_cons]
  | unset notice => cases notice <;> simp [owes, isIssue, isEnter, List.countP_cons]
  | invoke fn notice lights =>
    cases notice <;> simp [owes, isIssue, isEnter, List.countP_cons, countP_owes_lights lights]
  | returned notice => simp [owes]
  | call fn rest notice left =>
    have none : outs.countP (owes id) = 0 := by
      rcases left with rfl | lights
      · rfl
      · exact countP_owes_lights lights
    simp [owes, isIssue, isEnter, none]
  | shutdown onWorker => simp [owes, live]
  | stopQueue onWorker lights => simp [owes, countP_owes_lights lights]
  | logError line => simp [owes, isIssue, isEnter]

/-- One piece keeps the record of removals. -/
theorem Does.removal (does : Does s i a s' outs)
    (free : ∀ k target isSsl, a = .registerWsClient k target isSsl → s.impl.rejects = false → s.impl.NextFree)
    (id : UInt32) :
    s'.log.countP (isRemoval id) + live s'.impl id + s.log.countP (isEnter id) =
      s.log.countP (isRemoval id) + live s.impl id + s'.log.countP (isEnter id) := by
  cases does with
  | startLocked done =>
    unfold CImpl.startLocked at done
    split at done
    · cases done
    · cases done; rfl
  | stop =>
    have taken : (s.impl.mClients.toList.map fun e => Event.removed .stop i e.1).countP (isRemoval id) =
        live s.impl id := by
      rw [List.countP_map, ← show _ = live s.impl id from countP_key s.impl.mClients id]
      rfl
    have quiet : (s.impl.mClients.toList.map fun e => Event.removed .stop i e.1).countP (isEnter id) = 0 := by
      simp [List.countP_map, Function.comp_def, isEnter]
    have gone : live s.impl.stopLocked.1 id = 0 := by simp [live, stopLocked]
    rw [stop_log, stop_impl]
    simp only [List.countP_append, taken, quiet, gone]
    omega
  | removeClient present =>
    have erased := live_eraseClient present id
    simp only [record_log, record_impl, setImpl_log, setImpl_impl, List.countP_append, List.countP_cons,
      List.countP_nil, isRemoval, isEnter, beq_iff_eq, Bool.false_eq_true, if_false]
    omega
  | register done =>
    have registers := registerWsClientLocked_inv done
    have entered := live_register registers (free _ _ _ rfl registers.accepted) id
    simp only [record_log, record_impl, setImpl_log, setImpl_impl, List.countP_append, List.countP_cons,
      List.countP_nil, isRemoval, isEnter, beq_iff_eq, entered, Bool.false_eq_true, if_false]
    omega
  | onWsClosed present =>
    have erased := live_eraseClient present id
    simp only [record_log, record_impl, setImpl_log, setImpl_impl, live_countReport, List.countP_append,
      List.countP_cons, List.countP_nil, isRemoval, isEnter, beq_iff_eq, Bool.false_eq_true, if_false]
    omega
  | reject rejects => simp [isRemoval, isEnter]
  | postCallback cbs notice => simp [isRemoval, isEnter]
  | unset notice => simp [isRemoval, isEnter]
  | invoke fn notice lights => simp [isRemoval, isEnter]
  | call fn rest notice left => simp [isRemoval, isEnter]
  | logError line => simp [isRemoval, isEnter]
  | _ => rfl

/-- The operation that comes to owe a notification has taken the client out, or owed it before. -/
theorem Does.owed (does : Does s i a s' outs) {o : Action} (mem : o ∈ outs) (owing : owes id o = true) :
    owes id a = true ∨ ∃ how, .removed how i id ∈ s'.log := by
  have dry : (∀ o ∈ outs, o.isLight = true) → False := fun lights => by
    rw [owes_light (lights o mem)] at owing
    cases owing
  cases does with
  | relay light lights => exact (dry lights).elim
  | invoke fn notice lights => exact (dry lights).elim
  | stopQueue onWorker lights => exact (dry lights).elim
  | stop =>
    rw [stop_outs, List.mem_append] at mem
    rcases mem with closes | notifies
    · obtain ⟨e, -, rfl⟩ := List.mem_map.1 closes
      cases owing
    · obtain ⟨e, taken, rfl⟩ := List.mem_map.1 notifies
      obtain rfl : e.1 = id := by simpa [owes] using owing
      exact .inr ⟨.stop, List.mem_append_right _ (List.mem_map.2 ⟨e, taken, rfl⟩)⟩
  | @removeClient clientId entry present =>
    simp only [List.mem_cons, List.not_mem_nil, or_false] at mem
    rcases mem with rfl | rfl
    · cases owing
    · obtain rfl : clientId = id := by simpa [owes] using owing
      exact .inr ⟨.removeClient, by simp⟩
  | notifyClosedSync clientId uri =>
    simp only [List.mem_cons, List.not_mem_nil, or_false] at mem
    rcases mem with rfl | rfl
    · exact .inl owing
    · cases owing
  | @onWsClosed clientId entry present =>
    simp only [List.mem_cons, List.not_mem_nil, or_false] at mem
    rcases mem with rfl | rfl
    · obtain rfl : clientId = id := by simpa [owes] using owing
      exact .inr ⟨.onWsClosed, by simp⟩
    · cases owing
  | reject rejects => rw [List.mem_singleton.1 mem] at owing; cases owing
  | register done =>
    simp only [List.mem_cons, List.not_mem_nil, or_false] at mem
    rcases mem with rfl | rfl | rfl <;> cases owing
  | nextConnectionId path => rw [List.mem_singleton.1 mem] at owing; cases owing
  | shutdown onWorker =>
    simp only [List.mem_cons, List.not_mem_nil, or_false] at mem
    rcases mem with rfl | rfl <;> cases owing
  | call fn rest notice left =>
    rcases left with rfl | lights
    · rw [List.mem_singleton.1 mem] at owing; cases owing
    · exact (dry lights).elim
  | _ => cases mem

/-- A registration in the history is old, or the piece made it. -/
theorem Does.registered_mem (does : Does s i a s' outs) {k : Nat} (mem : .registered k id ∈ s'.log) :
    .registered k id ∈ s.log ∨ id = s.impl.mNextConnectionId ∧ s'.impl.allocated = s.impl.allocated + 1 := by
  rcases does.log_inv mem with old | records
  · exact .inl old
  · cases records with
    | registered drawn =>
      cases does with
      | relay light => cases light
      | reject rejects => rw [registerWsClientLocked_none.2 rejects] at drawn; cases drawn
      | register done =>
        cases drawn.symm.trans done
        have registers := registerWsClientLocked_inv done
        exact .inr ⟨registers.clientId, registers.allocated⟩

/-- A piece records no registration under `id`, or one under the id drawn. -/
theorem Does.enter (does : Does s i a s' outs) (id : UInt32) :
    s'.log.countP (isEnter id) = s.log.countP (isEnter id) ∨
      id = s.impl.mNextConnectionId ∧ s'.log.countP (isEnter id) = s.log.countP (isEnter id) + 1 := by
  cases does with
  | stop =>
    have quiet : (s.impl.mClients.toList.map fun e => Event.removed .stop i e.1).countP (isEnter id) = 0 := by
      simp [List.countP_map, Function.comp_def, isEnter]
    rw [stop_log, List.countP_append, quiet]
    exact .inl rfl
  | @register k target isSsl impl r done =>
    have drawn := (registerWsClientLocked_inv done).clientId
    simp only [record_log, setImpl_log, List.countP_append, List.countP_singleton, isEnter, beq_iff_eq]
    by_cases same : r.clientId = id
    · exact .inr ⟨same.symm.trans drawn, by rw [if_pos same]⟩
    · exact .inl (by rw [if_neg same]; rfl)
  | removeClient present => simp [isEnter]
  | onWsClosed present => simp [isEnter]
  | reject rejects => simp [isEnter]
  | postCallback cbs notice => simp [isEnter]
  | unset notice => simp [isEnter]
  | invoke fn notice lights => simp [isEnter]
  | call fn rest notice left => simp [isEnter]
  | logError line => simp [isEnter]
  | _ => exact .inl rfl

/-! ## The books of a run -/

/-- The books of a state whose counter has not wrapped. -/
structure Books (c : Running) : Prop where
  balanced : ∀ id, Balanced c id
  removed : ∀ id, Removed c.shared id
  /-- The operation that owes a notification is the one that took the client out. -/
  owner : ∀ (j : Nat) t b id, c.tasks[j]? = some t → b ∈ t.todo → owes id b = true →
    ∃ how, .removed how j id ∈ c.shared.log
  numbered : ∀ k id, .registered k id ∈ c.shared.log →
    ∃ n, 1 ≤ n ∧ n ≤ c.shared.impl.allocated ∧ id = UInt32.ofNat n
  once : ∀ id, c.shared.log.countP (isEnter id) ≤ 1

theorem mem_of_enter {log : List Event} (some : 0 < log.countP (isEnter id)) : ∃ k, .registered k id ∈ log := by
  obtain ⟨e, mem, enter⟩ := List.countP_pos_iff.1 some
  cases e with
  | registered k clientId =>
    obtain rfl : clientId = id := by simpa [isEnter] using enter
    exact ⟨k, mem⟩
  | _ => cases enter

theorem mem_of_removal {log : List Event} (some : 0 < log.countP (isRemoval id)) :
    ∃ how j, .removed how j id ∈ log := by
  obtain ⟨e, mem, removal⟩ := List.countP_pos_iff.1 some
  cases e with
  | removed how j clientId =>
    obtain rfl : clientId = id := by simpa [isRemoval] using removal
    exact ⟨how, j, mem⟩
  | _ => cases removal

/-- Two records that a log holds at most one of are the same. -/
theorem eq_of_countP_le_one {log : List Event} {p : Event → Bool} {e e' : Event} (alone : log.countP p ≤ 1)
    (mem : e ∈ log) (holds : p e = true) (mem' : e' ∈ log) (holds' : p e' = true) : e = e' := by
  induction log with
  | nil => cases mem
  | cons first log ih =>
    have clash : ∀ x ∈ log, p x = true → p first = true → False := by
      intro x old here head
      have : 0 < log.countP p := List.countP_pos_iff.2 ⟨x, old, here⟩
      rw [List.countP_cons_of_pos head] at alone
      omega
    rcases List.mem_cons.1 mem with eq | old
    · rcases List.mem_cons.1 mem' with eq' | old'
      · exact eq.trans eq'.symm
      · exact (clash e' old' holds' (eq ▸ holds)).elim
    · rcases List.mem_cons.1 mem' with eq' | old'
      · exact (clash e old holds (eq' ▸ holds')).elim
      · refine ih ?_ old old'
        rw [List.countP_cons] at alone
        omega

theorem Books.begins (books : Books c) (begins : Begins c c') : Books c' where
  balanced id := by
    have := books.balanced id
    unfold Balanced at this ⊢
    rw [begins.log, begins.impl, begins.count fun _ => owes_entry]
    exact this
  removed id := by
    have := books.removed id
    unfold Removed at this ⊢
    rw [begins.log, begins.impl]
    exact this
  owner j t b id found mem owing := by
    have later : b.isEntry = false := by
      cases entry : b.isEntry with
      | false => rfl
      | true => rw [owes_entry entry] at owing; cases owing
    rw [begins.log]
    exact books.owner j t b id (begins.mem later found mem) mem owing
  numbered k id mem := by
    rw [begins.impl]
    exact books.numbered k id (begins.log ▸ mem)
  once id := begins.log ▸ books.once id

theorem Books.ran {throws : Bool} {o : Owner} {rest : List Action} (books : Books c)
    (ran : Tasks.Ran (exec throws) c i c' o a rest outs) (does : Does c.shared i a c'.shared outs)
    (next : c.shared.impl.Numbered) (bound : c.shared.impl.allocated + 1 < 2 ^ 32) : Books c' := by
  have free := (next.nextFree bound).1
  have grows : c.shared.impl.allocated ≤ c'.shared.impl.allocated := by
    have change : Change False c.shared.impl c'.shared.impl := does.change fun _ _ _ _ h => nomatch h
    exact change.allocated_le
  have numbered : ∀ k id, .registered k id ∈ c'.shared.log →
      ∃ n, 1 ≤ n ∧ n ≤ c'.shared.impl.allocated ∧ id = UInt32.ofNat n := by
    intro k id mem
    rcases does.registered_mem mem with old | ⟨rfl, drawn⟩
    · obtain ⟨n, pos, le, same⟩ := books.numbered k id old
      exact ⟨n, pos, Nat.le_trans le grows, same⟩
    · exact ⟨c.shared.impl.allocated + 1, by omega, by omega, next.next⟩
  refine ⟨fun id => ?_, fun id => ?_, fun j t b id found mem owing => ?_, numbered, fun id => ?_⟩
  · have before := books.balanced id
    have pieces := ran.count (owes id)
    have moved := does.balance (fun _ _ _ _ _ => free) id
    unfold Balanced at before ⊢
    omega
  · have before := books.removed id
    have moved := does.removal (fun _ _ _ _ _ => free) id
    unfold Removed at before ⊢
    omega
  · rw [ran.lookup] at found
    split at found
    · next same =>
      cases found
      subst same
      rcases List.mem_append.1 mem with new | old
      · rcases does.owed new owing with same | removed
        · obtain ⟨how, removed⟩ := books.owner i _ a id ran.task List.mem_cons_self same
          exact ⟨how, does.mem_log removed⟩
        · exact removed
      · obtain ⟨how, removed⟩ := books.owner i _ b id ran.task (List.mem_cons_of_mem _ old) owing
        exact ⟨how, does.mem_log removed⟩
    · obtain ⟨how, removed⟩ := books.owner j t b id found mem owing
      exact ⟨how, does.mem_log removed⟩
  · rcases does.enter id with same | ⟨rfl, more⟩
    · rw [same]
      exact books.once id
    · -- the number of the id is being drawn, so no registration under it is older
      have none : c.shared.log.countP (isEnter c.shared.impl.mNextConnectionId) = 0 := by
        apply Nat.eq_zero_of_not_pos
        intro some
        obtain ⟨k, mem⟩ := mem_of_enter some
        obtain ⟨n, -, old, same⟩ := books.numbered k _ mem
        rw [next.next] at same
        have := ofNat_inj bound (by omega) same
        omega
      omega

/-- The invariant of a run. -/
def Kept (c : Running) : Prop := Counted c ∧ (c.shared.impl.allocated < 2 ^ 32 - 1 → Books c)

theorem create_books (allowedUris : Option (List Bytes)) (maxSessionBacklog : Nat) :
    Books (create allowedUris maxSessionBacklog) where
  balanced id := by simp [Balanced, create, Tasks.count, live]
  removed id := by simp [Removed, create, live]
  owner j t b id found := by simp [create] at found
  numbered k id mem := by simp [create] at mem
  once id := by simp [create]

theorem step_kept (kept : Kept c) (step : Server.step c l = some c') : Kept c' := by
  refine ⟨step_counted kept.1 step, fun bound => ?_⟩
  have before : c.shared.impl.allocated < 2 ^ 32 - 1 := Nat.lt_of_le_of_lt (step_allocated_le step) bound
  rcases step_ran_or_begins step with ⟨i, throws, o, a, rest, outs, rfl, ran, does⟩ | begins
  · exact (kept.2 before).ran ran does kept.1.numbered (by omega)
  · exact (kept.2 before).begins begins

theorem run_kept {allowedUris : Option (List Bytes)} {maxSessionBacklog : Nat} {ls : List Label}
    (run : system.exec (create allowedUris maxSessionBacklog) ls = some c) : Kept c :=
  System.invariant Kept
    ⟨create_counted allowedUris maxSessionBacklog, fun _ => create_books allowedUris maxSessionBacklog⟩
    (fun _ _ _ kept step => step_kept kept step) run

/-- What has left is owed by, and only by, the operation that took it out. -/
theorem Books.settled (books : Books c) {j : Nat} {how : Removal} (removed : .removed how j id ∈ c.shared.log)
    (alone : c.shared.log.countP (isRemoval id) ≤ 1) (finished : c.finished j) : c.count (owes id) = 0 := by
  rw [Tasks.count_eq_zero]
  intro t mem b pending
  cases owing : owes id b with
  | false => rfl
  | true =>
    obtain ⟨m, found⟩ := List.mem_iff_getElem?.1 mem
    obtain ⟨how', other⟩ := books.owner m t b id found pending owing
    have same := eq_of_countP_le_one alone removed (by simp [isRemoval]) other (by simp [isRemoval])
    cases same
    rw [finished t found] at pending
    cases pending

/-- One client is registered and taken out by `RemoveClient`, which runs to its end. -/
def removedClient : List Label :=
  oneClient ++ [.api (.removeClient 1), .run 3 false, .run 3 false, .run 3 false, .run 3 false, .run 3 false]

theorem removedClient_runs : (system.exec (create none 1024) removedClient).isSome = true := by
  decide

end Server

end Websockets
