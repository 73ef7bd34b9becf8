import Websockets.Server.Steps

/-!
# Connection counts and client ids

Every step changes the registry by one of the changes below. `Counts` (the redundant `mUriCounts`
agrees with `mClients`) is kept by every change that overwrites no entry, and `Numbered` (ids are
allocation numbers modulo 2^32) by every change; while fewer than 2^32 - 1 ids have been drawn the
second says that nothing is overwritten.
-/

namespace Websockets

open Std Lib

namespace CImpl

/-- The id drawn next is no client's. -/
def NextFree (impl : CImpl) : Prop := impl.mClients[impl.mNextConnectionId]? = none

/-- What a step does to the registry; under `fresh`, registrations overwrite nothing. -/
inductive Change (fresh : Prop) (impl : CImpl) : CImpl → Prop
  | same : Change fresh impl impl
  | start {port clientCbs impl'} (done : impl.startLocked port clientCbs = some impl') : Change fresh impl impl'
  | stop : Change fresh impl impl.stopLocked.1
  | remove {clientId entry} (present : impl.mClients[clientId]? = some entry) :
      Change fresh impl (impl.eraseClient clientId entry).1
  | closed {clientId entry} (present : impl.mClients[clientId]? = some entry) :
      Change fresh impl (impl.eraseClient clientId entry).1.countReport
  | report : Change fresh impl impl.countReport
  | register {session path isSsl impl' r}
      (done : impl.registerWsClientLocked session path isSsl = some (impl', r))
      (free : fresh → impl.NextFree) : Change fresh impl impl'
  | draw : Change fresh impl impl.nextConnectionId.1
  | addUri (uri callbacks) : Change fresh impl (impl.addUri uri callbacks)
  | removeUri (uri) : Change fresh impl (impl.removeUri uri)
  | shutdown : Change fresh impl { impl with mShutdown := true }

variable {impl impl' : CImpl} {fresh : Prop}

/-! ## Erasing and registering -/

@[simp] theorem uriCount_countReport (uri : Bytes) : impl.countReport.uriCount uri = impl.uriCount uri := rfl

/-- What `DecrementUriCountLocked` leaves alone. -/
theorem decrementUriCountLocked_fields (uri : Bytes) :
    (impl.decrementUriCountLocked uri).1.mClients = impl.mClients ∧
    (impl.decrementUriCountLocked uri).1.mUris = impl.mUris ∧
    (impl.decrementUriCountLocked uri).1.mNextConnectionId = impl.mNextConnectionId ∧
    (impl.decrementUriCountLocked uri).1.allocated = impl.allocated ∧
    (impl.decrementUriCountLocked uri).1.reports = impl.reports := by
  unfold decrementUriCountLocked
  split
  · exact ⟨rfl, rfl, rfl, rfl, rfl⟩
  · split <;> exact ⟨rfl, rfl, rfl, rfl, rfl⟩

@[simp] theorem eraseClient_mClients (clientId : UInt32) (entry : SClientEntry) :
    (impl.eraseClient clientId entry).1.mClients = impl.mClients.erase clientId :=
  (decrementUriCountLocked_fields entry.uri).1

@[simp] theorem eraseClient_mUris (clientId : UInt32) (entry : SClientEntry) :
    (impl.eraseClient clientId entry).1.mUris = impl.mUris :=
  (decrementUriCountLocked_fields entry.uri).2.1

@[simp] theorem eraseClient_allocated (clientId : UInt32) (entry : SClientEntry) :
    (impl.eraseClient clientId entry).1.allocated = impl.allocated :=
  (decrementUriCountLocked_fields entry.uri).2.2.2.1

@[simp] theorem eraseClient_reports (clientId : UInt32) (entry : SClientEntry) :
    (impl.eraseClient clientId entry).1.reports = impl.reports :=
  (decrementUriCountLocked_fields entry.uri).2.2.2.2

/-- Taking a client out neither starts nor stops anything. -/
theorem eraseClient_flags (clientId : UInt32) (entry : SClientEntry) :
    (impl.eraseClient clientId entry).1.mShutdown = impl.mShutdown ∧
      (impl.eraseClient clientId entry).1.mAcceptor = impl.mAcceptor := by
  unfold eraseClient decrementUriCountLocked
  split
  · exact ⟨rfl, rfl⟩
  · split <;> exact ⟨rfl, rfl⟩

/-! ## The counts -/

/-- How many clients are attached to `uri`. -/
def attached (impl : CImpl) (uri : Bytes) : Nat := countValues impl.mClients fun entry => entry.uri == uri

/-- The two maps agree. -/
def Counts (impl : CImpl) : Prop := ∀ uri, uri ≠ [] → impl.uriCount uri = impl.attached uri

/-- A client's uri has a positive count, so neither guard of `DecrementUriCountLocked` applies. -/
theorem Counts.positive (counts : impl.Counts) {clientId : UInt32} {entry : SClientEntry}
    (present : impl.mClients[clientId]? = some entry) (nonempty : entry.uri ≠ []) :
    ∃ n, impl.mUriCounts[entry.uri]? = some (n + 1) := by
  have some : 0 < impl.attached entry.uri := countValues_pos.2 ⟨clientId, entry, present, by simp⟩
  rw [← counts entry.uri nonempty, uriCount] at some
  cases found : impl.mUriCounts[entry.uri]? with
  | none => simp [found] at some
  | some count =>
    cases count with
    | zero => simp [found] at some
    | succ n => exact ⟨n, rfl⟩

/-- The counts after an erasure that no guard of the decrement stops. -/
theorem eraseClient_uriCount {clientId : UInt32} {entry : SClientEntry} {n : Nat} (nonempty : entry.uri ≠ [])
    (found : impl.mUriCounts[entry.uri]? = some (n + 1)) (uri : Bytes) :
    (impl.eraseClient clientId entry).1.uriCount uri = (if entry.uri = uri then n else impl.uriCount uri) ∧
      (impl.eraseClient clientId entry).2 = n := by
  have result : impl.eraseClient clientId entry = ({ impl with
      mClients := impl.mClients.erase clientId, mUriCounts := impl.mUriCounts.insert entry.uri n }, n) := by
    simp only [eraseClient, decrementUriCountLocked, List.isEmpty_iff, if_neg nonempty, found]
  rw [result]
  refine ⟨?_, rfl⟩
  simp only [uriCount, TreeMap.getElem?_insert]
  by_cases same : entry.uri = uri
  · rw [if_pos same, if_pos (by rw [same]; exact ReflCmp.compare_self)]; rfl
  · rw [if_neg same, if_neg (fun eq => same (LawfulEqCmp.eq_of_compare eq))]

/-- Erasing a client lowers the count of its uri by one and no other. -/
theorem Counts.erase (counts : impl.Counts) {clientId : UInt32} {entry : SClientEntry}
    (present : impl.mClients[clientId]? = some entry) : (impl.eraseClient clientId entry).1.Counts := by
  intro uri nonempty
  have gone := countValues_erase present fun e => e.uri == uri
  rw [attached, eraseClient_mClients]
  have before := counts uri nonempty
  by_cases empty : entry.uri = []
  · have same : impl.eraseClient clientId entry =
        ({ impl with mClients := impl.mClients.erase clientId }, 0) := by
      simp [eraseClient, decrementUriCountLocked, empty]
    have other : (entry.uri == uri) = false := by rw [empty]; simpa using nonempty.symm
    rw [other] at gone
    rw [same]
    exact before.trans gone.symm
  · obtain ⟨n, found⟩ := counts.positive present empty
    rw [(eraseClient_uriCount empty found uri).1]
    by_cases same : entry.uri = uri
    · rw [if_pos same]
      rw [if_pos (by simpa using same)] at gone
      have count : impl.uriCount uri = n + 1 := by rw [uriCount, ← same, found]; rfl
      rw [count] at before
      unfold attached at before
      omega
    · rw [if_neg same]
      rw [if_neg (by simpa using same)] at gone
      exact before.trans gone.symm

/-- Registering under a free id raises the count of the matched uri by one and no other. -/
theorem Counts.register (counts : impl.Counts) {session : Nat} {path : Bytes} {isSsl : Bool}
    {r : Registration} (done : Registers impl impl' session path isSsl r) (free : impl.NextFree) :
    impl'.Counts := by
  intro uri nonempty
  have absent : impl.mClients[r.clientId]? = none := done.clientId ▸ free
  have entered := countValues_insert absent ⟨session, r.matchedUri, isSsl, impl.allocated + 1⟩
    fun e => e.uri == uri
  have before := counts uri nonempty
  rw [attached, done.mClients, entered, uriCount, done.mUriCounts]
  by_cases empty : r.matchedUri = []
  · have other : ¬ ([] == uri) = true := by simpa using nonempty.symm
    simp only [empty, List.isEmpty_nil, if_true, if_neg other]
    exact before
  · simp only [List.isEmpty_iff, if_neg empty, TreeMap.getElem?_insert]
    by_cases same : r.matchedUri = uri
    · rw [if_pos (by rw [same]; exact ReflCmp.compare_self), if_pos (by simpa using same), done.uriCount empty,
        same]
      exact congrArg (· + 1) before
    · rw [if_neg (fun eq => same (LawfulEqCmp.eq_of_compare eq)), if_neg (by simpa using same)]
      exact before

/-- **Every change that overwrites no entry keeps the counts.** -/
theorem Change.counts (change : Change fresh impl impl') (holds : fresh) (counts : impl.Counts) :
    impl'.Counts := by
  cases change with
  | same => exact counts
  | start done =>
    unfold startLocked at done
    split at done
    · cases done
    · cases done; exact counts
  | stop =>
    intro uri nonempty
    simp [stopLocked, uriCount, attached]
  | remove present => exact counts.erase present
  | closed present => exact counts.erase present
  | report => exact counts
  | register done free => exact counts.register (registerWsClientLocked_inv done) (free holds)
  | draw => exact counts
  | addUri uri callbacks => exact counts
  | removeUri uri => exact counts
  | shutdown => exact counts

theorem anyClients_iff (uri : Bytes) : impl.anyClients (some uri) = true ↔ 0 < impl.uriCount uri := by
  unfold anyClients uriCount
  simp only
  cases impl.mUriCounts[uri]? <;> simp

theorem broadcastTargets_ne_nil (uri : Bytes) :
    impl.broadcastTargets (some uri) ≠ [] ↔ 0 < impl.attached uri := by
  rw [attached, countValues, List.countP_eq_length_filter, List.length_pos_iff]
  simp [broadcastTargets]

/-! ## Client ids -/

/-- Ids are allocation numbers modulo 2^32. -/
structure Numbered (impl : CImpl) : Prop where
  next : impl.mNextConnectionId = UInt32.ofNat (impl.allocated + 1)
  client : ∀ (clientId : UInt32) entry, impl.mClients[clientId]? = some entry →
    clientId = UInt32.ofNat entry.allocation ∧ 1 ≤ entry.allocation ∧ entry.allocation ≤ impl.allocated

theorem ofNat_succ (n : Nat) : UInt32.ofNat n + 1 = UInt32.ofNat (n + 1) := by
  simp [UInt32.ofNat_add]

theorem Numbered.erase (numbered : impl.Numbered) (clientId : UInt32) (entry : SClientEntry) :
    (impl.eraseClient clientId entry).1.Numbered := by
  refine ⟨?_, fun id e present => ?_⟩
  · rw [eraseClient_allocated]
    exact (decrementUriCountLocked_fields entry.uri).2.2.1.trans numbered.next
  · rw [eraseClient_mClients, TreeMap.getElem?_erase] at present
    rw [eraseClient_allocated]
    split at present
    · cases present
    · exact numbered.client id e present

theorem Numbered.register (numbered : impl.Numbered) {session : Nat} {path : Bytes} {isSsl : Bool}
    {r : Registration} (done : Registers impl impl' session path isSsl r) : impl'.Numbered := by
  refine ⟨?_, fun id e present => ?_⟩
  · rw [done.mNextConnectionId, done.allocated, numbered.next, ofNat_succ]
  · rw [done.mClients, TreeMap.getElem?_insert] at present
    rw [done.allocated]
    split at present
    · next eq =>
      cases present
      exact ⟨by rw [← LawfulEqCmp.eq_of_compare eq, done.clientId, numbered.next], by simp, Nat.le_refl _⟩
    · obtain ⟨same, pos, bound⟩ := numbered.client id e present
      exact ⟨same, pos, Nat.le_succ_of_le bound⟩

theorem Change.numbered (change : Change fresh impl impl') (numbered : impl.Numbered) : impl'.Numbered := by
  cases change with
  | same => exact numbered
  | start done =>
    unfold startLocked at done
    split at done
    · cases done
    · cases done; exact ⟨numbered.next, numbered.client⟩
  | stop => exact ⟨numbered.next, fun id e present => by simp [stopLocked] at present⟩
  | remove present => exact numbered.erase _ _
  | @closed clientId entry present =>
    have erased := numbered.erase clientId entry
    exact ⟨erased.next, erased.client⟩
  | report => exact ⟨numbered.next, numbered.client⟩
  | register done free => exact numbered.register (registerWsClientLocked_inv done)
  | draw =>
    refine ⟨?_, fun id e present => ?_⟩
    · simp only [nextConnectionId, numbered.next, ofNat_succ]
    · obtain ⟨same, pos, bound⟩ := numbered.client id e present
      exact ⟨same, pos, Nat.le_succ_of_le bound⟩
  | addUri uri callbacks => exact ⟨numbered.next, numbered.client⟩
  | removeUri uri => exact ⟨numbered.next, numbered.client⟩
  | shutdown => exact ⟨numbered.next, numbered.client⟩

/-- Ids are drawn and never given back. -/
theorem Change.allocated_le (change : Change fresh impl impl') : impl.allocated ≤ impl'.allocated := by
  cases change with
  | start done =>
    unfold startLocked at done
    split at done
    · cases done
    · cases done; exact Nat.le_refl _
  | remove present => exact Nat.le_of_eq (eraseClient_allocated _ _).symm
  | closed present => exact Nat.le_of_eq (eraseClient_allocated _ _).symm
  | register done free => rw [(registerWsClientLocked_inv done).allocated]; exact Nat.le_succ _
  | draw => exact Nat.le_succ _
  | _ => exact Nat.le_refl _

theorem ofNat_eq_ofNat {m n : Nat} : UInt32.ofNat m = UInt32.ofNat n ↔ m % 2 ^ 32 = n % 2 ^ 32 := by
  rw [← UInt32.toNat_inj, UInt32.toNat_ofNat', UInt32.toNat_ofNat']

theorem ofNat_eq_zero (n : Nat) : UInt32.ofNat n = 0 ↔ n % 2 ^ 32 = 0 :=
  ofNat_eq_ofNat (n := 0)

theorem ofNat_inj {m n : Nat} (hm : m < 2 ^ 32) (hn : n < 2 ^ 32) (same : UInt32.ofNat m = UInt32.ofNat n) :
    m = n := by
  have := congrArg UInt32.toNat same
  rwa [UInt32.toNat_ofNat_of_lt' hm, UInt32.toNat_ofNat_of_lt' hn] at this

/-- While the counter has not wrapped, the next id is free and not 0. -/
theorem Numbered.nextFree (numbered : impl.Numbered) (bound : impl.allocated + 1 < 2 ^ 32) :
    impl.NextFree ∧ impl.mNextConnectionId ≠ 0 := by
  constructor
  · unfold NextFree
    cases found : impl.mClients[impl.mNextConnectionId]? with
    | none => rfl
    | some entry =>
      obtain ⟨same, -, old⟩ := numbered.client _ _ found
      rw [numbered.next] at same
      have := ofNat_inj bound (by omega) same
      omega
  · rw [numbered.next]
    intro zero
    have := ofNat_inj bound (by decide) (zero.trans (by rfl : (0 : UInt32) = UInt32.ofNat 0))
    omega

end CImpl

namespace Server

open CImpl

/-! ## Every step changes the registry by one of the changes -/

def isRegistration : Action → Bool
  | .registerWsClient _ _ _ => true
  | _ => false

/-- A registration that is not rejected draws an id that is no client's. -/
def FreshOk (c : Running) : Label → Prop
  | .run i _ => (head? c i).any isRegistration = true → c.shared.impl.rejects = false → c.shared.impl.NextFree
  | _ => True

instance (impl : CImpl) : Decidable impl.NextFree :=
  inferInstanceAs (Decidable (impl.mClients[impl.mNextConnectionId]? = none))

instance decidableFreshOk (c : Running) : ∀ l, Decidable (FreshOk c l)
  | .run i _ => inferInstanceAs (Decidable ((head? c i).any isRegistration = true → _ → _))
  | .api _ | .upgrade _ _ | .httpRequest _ | .complete _ _ _ _ | .strand _ | .work => .isTrue trivial

variable {c c' : Running} {s' : Server} {i : Nat} {a : Action} {outs : List Action} {throws : Bool}
  {l : Label} {fresh : Prop}

theorem Does.change {s : Server} (does : Does s i a s' outs)
    (free : ∀ k target isSsl, a = .registerWsClient k target isSsl → fresh →
      s.impl.rejects = false → s.impl.NextFree) : Change fresh s.impl s'.impl := by
  cases does with
  | startLocked done => exact .start done
  | stop => exact .stop
  | removeClient present => exact .remove present
  | notifyClosedSync clientId uri => exact .report
  | addUri uri callbacks => exact .addUri uri callbacks
  | removeUri uri => exact .removeUri uri
  | register done =>
    exact .register done fun holds => free _ _ _ rfl holds (registerWsClientLocked_inv done).accepted
  | onWsClosed present => exact .closed present
  | nextConnectionId path => exact .draw
  | shutdown onWorker => exact .shutdown
  | _ => exact .same

/-- **Every step changes the registry by a change.** -/
theorem step_change (step : step c l = some c') (free : fresh → FreshOk c l) :
    Change fresh c.shared.impl c'.shared.impl := by
  cases step_steps step with
  | run ran does =>
    refine does.change fun k target isSsl eq holds accepted => ?_
    refine free holds ?_ accepted
    rw [head?_eq ran.task, eq]
    rfl
  | upgrade target isSsl listened =>
    simp only [upgrade]
    split <;> exact .same
  | _ => exact .same

theorem step_allocated_le (step : Server.step c l = some c') :
    c.shared.impl.allocated ≤ c'.shared.impl.allocated := by
  have change : Change False c.shared.impl c'.shared.impl := step_change step (fun h => nomatch h)
  exact change.allocated_le

/-- The registry of a run: ids are numbered, and the counts agree until the counter wraps. -/
structure Counted (c : Running) : Prop where
  numbered : c.shared.impl.Numbered
  counts : c.shared.impl.allocated < 2 ^ 32 - 1 → c.shared.impl.Counts

theorem create_counted (allowedUris : Option (List Bytes)) (maxSessionBacklog : Nat) :
    Counted (create allowedUris maxSessionBacklog) where
  numbered := ⟨rfl, fun _ _ present => by simp [create] at present⟩
  counts _ _ _ := by simp [create, uriCount, attached]

/-- Before the wrap, registrations draw free ids. -/
theorem Counted.freshOk (counted : Counted c) (bound : c.shared.impl.allocated < 2 ^ 32 - 1) (l : Label) :
    FreshOk c l := by
  cases l with
  | run i throws =>
    intro _ _
    exact (counted.numbered.nextFree (by omega)).1
  | _ => trivial

theorem step_counted (counted : Counted c) (step : Server.step c l = some c') : Counted c' := by
  constructor
  · have change : Change False c.shared.impl c'.shared.impl := step_change step (fun h => nomatch h)
    exact change.numbered counted.numbered
  · intro bound
    have before : c.shared.impl.allocated < 2 ^ 32 - 1 :=
      Nat.lt_of_le_of_lt (step_allocated_le step) bound
    have change : Change True c.shared.impl c'.shared.impl :=
      step_change step fun _ => counted.freshOk before l
    exact change.counts trivial (counted.counts before)

theorem run_counted {allowedUris : Option (List Bytes)} {maxSessionBacklog : Nat} {ls : List Label}
    (run : system.exec (create allowedUris maxSessionBacklog) ls = some c) : Counted c :=
  System.invariant Counted (create_counted allowedUris maxSessionBacklog)
    (fun _ _ _ counted step => step_counted counted step) run

/-- **The two maps of the registry agree.** In every run that drew fewer than 2^32 - 1 ids, for every
non-empty uri: the count is the number of clients with that uri, `DecrementUriCountLocked` finds a
positive count whenever a client with that uri is erased, and `ClientsConnected` tells whether a
broadcast reaches anyone. -/
theorem registry_counts_agree (allowedUris : Option (List Bytes)) (maxSessionBacklog : Nat) (ls : List Label)
    (c : Running) (run : system.exec (create allowedUris maxSessionBacklog) ls = some c)
    (bound : c.shared.impl.allocated < 2 ^ 32 - 1) (uri : Bytes) (nonempty : uri ≠ []) :
    c.shared.impl.uriCount uri = countValues c.shared.impl.mClients (fun entry => entry.uri == uri) ∧
    (∀ (clientId : UInt32) entry, c.shared.impl.mClients[clientId]? = some entry → entry.uri = uri →
      ∃ n, c.shared.impl.mUriCounts[uri]? = some (n + 1) ∧
        (c.shared.impl.eraseClient clientId entry).2 = n) ∧
    (c.shared.impl.anyClients (some uri) = true ↔ c.shared.impl.broadcastTargets (some uri) ≠ []) := by
  have counts := (run_counted run).counts bound
  refine ⟨counts uri nonempty, fun clientId entry present same => ?_, ?_⟩
  · subst same
    obtain ⟨n, found⟩ := counts.positive present nonempty
    exact ⟨n, found, (eraseClient_uriCount nonempty found entry.uri).2⟩
  · rw [anyClients_iff, broadcastTargets_ne_nil, counts uri nonempty]

/-- A server with the uri `/a`, and one client registered under it. -/
def oneClient : List Label :=
  [.api (.addUri (str "/a") { mOnConnectionChange := some 1 }), .run 0 false, .api (.start 8080 {}), .run 1 false,
    .run 1 false, .upgrade (str "/a/b") false, .complete 0 0 none noFrame, .strand 0, .run 2 false]

theorem registry_counts_agree_oneClient :
    ∃ c, system.exec (create none 1024) oneClient = some c ∧ c.shared.impl.uriCount (str "/a") = 1 ∧
      countValues c.shared.impl.mClients (fun entry => entry.uri == str "/a") = 1 ∧
      c.shared.impl.broadcastTargets (some (str "/a")) ≠ [] := by
  refine ⟨_, rfl, by decide, ?_, ?_⟩
  · have agree := registry_counts_agree none 1024 oneClient _ rfl (by decide) (str "/a") (by decide)
    exact agree.1.symm.trans (by decide)
  · have agree := registry_counts_agree none 1024 oneClient _ rfl (by decide) (str "/a") (by decide)
    exact agree.2.2.1 (by decide)

/-! ## Ids after the counter wraps -/

/-- A server that listens and accepts. -/
def serving : List Label := [.api (.start 8080 {}), .run 0 false, .run 0 false]

/-- One plain http request, handled up to the draw of its id, as the operation with number `n`. -/
def drawOne (n : Nat) : List Label := [.httpRequest [], .run n false]

/-- Http requests have drawn `n` ids. -/
structure Draws (c c' : Running) (n : Nat) : Prop where
  shared : c'.shared = c.shared.setImpl { c.shared.impl with
    mNextConnectionId := c.shared.impl.mNextConnectionId + UInt32.ofNat n, allocated := c.shared.impl.allocated + n }
  tasks : ∃ more, c'.tasks = c.tasks ++ more ∧ ∀ task ∈ more, task.owner = .http

theorem draws_one (listened : c.shared.listened = true) :
    ∃ c', system.exec c (drawOne c.tasks.length) = some c' ∧ Draws c c' 1 := by
  refine ⟨⟨c.shared.setImpl c.shared.impl.nextConnectionId.1,
    c.tasks ++ [⟨.http, [.findHttpHandler c.shared.impl.mNextConnectionId []]⟩]⟩, ?_, rfl, _, rfl, ?_⟩
  · have arrived : system.step c (.httpRequest []) = some (c.spawn .http [.nextConnectionId []]) := by
      simp [system, Server.step, listened]
    rw [drawOne, System.exec_cons arrived]
    simp [System.exec, system, Server.step, Tasks.run, Tasks.spawn, exec, nextConnectionId,
      CImpl.nextConnectionId]
  · intro task mem
    rw [List.mem_singleton.1 mem]

/-- Any number of ids can be drawn. -/
theorem draws_many (listened : c.shared.listened = true) (n : Nat) :
    ∃ ls c', system.exec c ls = some c' ∧ Draws c c' n := by
  induction n with
  | zero =>
    have same : UInt32.ofNat 0 = 0 := rfl
    refine ⟨[], c, rfl, ?_, [], (List.append_nil _).symm, nofun⟩
    rw [same, UInt32.add_zero]
    rfl
  | succ n ih =>
    obtain ⟨ls, c₁, run, ⟨shared, more, tasks, owners⟩⟩ := ih
    obtain ⟨c₂, next, ⟨shared', more', tasks', owners'⟩⟩ := draws_one (c := c₁) (by rw [shared]; exact listened)
    refine ⟨ls ++ drawOne c₁.tasks.length, c₂, by rw [System.exec_append, run]; exact next, ?_, more ++ more', ?_, ?_⟩
    · rw [shared', shared, UInt32.ofNat_add, ← UInt32.add_assoc]
      rfl
    · rw [tasks', tasks, List.append_assoc]
    · intro task mem
      exact (List.mem_append.1 mem).elim (owners task) (owners' task)

/-- **When a client's id is new.** In every reachable state, an accepted registration returns an id
that is neither 0 nor a connected client's, exactly if the number of the id (the count of ids drawn,
this one included) is no multiple of 2^32 and differs from the number of each connected client's id
by no multiple of 2^32. -/
theorem client_id_new_iff (allowedUris : Option (List Bytes)) (maxSessionBacklog : Nat) (ls : List Label)
    (c : Running) (run : system.exec (create allowedUris maxSessionBacklog) ls = some c)
    (session : Nat) (path : Bytes) (isSsl : Bool) (impl : CImpl) (r : Registration)
    (done : c.shared.impl.registerWsClientLocked session path isSsl = some (impl, r)) :
    (r.clientId ≠ 0 ∧ c.shared.impl.mClients[r.clientId]? = none) ↔
      ((c.shared.impl.allocated + 1) % 2 ^ 32 ≠ 0 ∧
        ∀ (clientId : UInt32) entry, c.shared.impl.mClients[clientId]? = some entry →
          (c.shared.impl.allocated + 1 - entry.allocation) % 2 ^ 32 ≠ 0) := by
  have numbered := (run_counted run).numbered
  rw [(registerWsClientLocked_inv done).clientId, numbered.next]
  refine and_congr (not_congr (ofNat_eq_zero _)) ⟨fun free clientId entry present same => ?_, fun free => ?_⟩
  · obtain ⟨rfl, -, bound⟩ := numbered.client clientId entry present
    have : UInt32.ofNat (c.shared.impl.allocated + 1) = UInt32.ofNat entry.allocation :=
      ofNat_eq_ofNat.2 (by omega)
    rw [this, present] at free
    cases free
  · cases found : c.shared.impl.mClients[UInt32.ofNat (c.shared.impl.allocated + 1)]? with
    | none => rfl
    | some entry =>
      obtain ⟨same, -, bound⟩ := numbered.client _ entry found
      have := ofNat_eq_ofNat.1 same
      exact absurd (by omega) (free _ entry found)

/-- The first client of a server gets id 1. -/
theorem client_id_new_first :
    ∃ c impl r, system.exec (create none 1024) serving = some c ∧
      c.shared.impl.registerWsClientLocked 0 (str "/") false = some (impl, r) ∧
      r.clientId ≠ 0 ∧ c.shared.impl.mClients[r.clientId]? = none :=
  ⟨_, _, _, rfl, rfl, (client_id_new_iff none 1024 serving _ rfl 0 (str "/") false _ _ rfl).2
    ⟨by decide, fun _ _ present => nomatch present⟩⟩

theorem serving_runs : (system.exec (create none 1024) serving).isSome = true := rfl

/-- After 2^32 - 1 http requests an accepted registration returns 0. -/
theorem client_id_wraps :
    ∃ ls c impl r, system.exec (create none 1024) ls = some c ∧
      c.shared.impl.registerWsClientLocked 0 (str "/") false = some (impl, r) ∧ r.clientId = 0 := by
  obtain ⟨ls, c, run, draws⟩ := draws_many (c := (system.exec (create none 1024) serving).get serving_runs)
    rfl (2 ^ 32 - 1)
  have whole : system.exec (create none 1024) (serving ++ ls) = some c := by
    rw [System.exec_append, System.exec_get serving_runs]
    exact run
  have accepts : c.shared.impl.rejects = false := by
    rw [draws.shared]
    rfl
  cases done : c.shared.impl.registerWsClientLocked 0 (str "/") false with
  | none => exact absurd (registerWsClientLocked_none.1 done) (by rw [accepts]; decide)
  | some result =>
    refine ⟨serving ++ ls, c, result.1, result.2, whole, done, ?_⟩
    rw [(registerWsClientLocked_inv done).clientId, draws.shared]
    rfl

end Server

end Websockets
