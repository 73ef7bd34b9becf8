import Websockets.Lib.Tasks
import Websockets.WorkQueue
import Websockets.Server.Counts

/-!
# User code and the server mutex

Threads as stacks of what they still have to do, innermost first, over any number of servers whose registries
are guarded by mutexes they may share. A critical section is waited for, runs with the mutex held, and
unlocks it. Wherever user code runs it may call any operation of any server, keep or drop copies of its functions,
and return or throw. A function is copied into registries, work queues and locals; the step that removes its last
copy runs its destructor then and there, on top of the stack of that thread.

What callbacks are told, the sessions and the mutexes of the work queues and strands are left out. A server is
never freed.
-/

namespace Websockets

open Std Lib

namespace CClientCallbacks

/-- The callbacks that are set. -/
def fns (cbs : CClientCallbacks) : List Fn :=
  cbs.mOnClientAddedCb.toList ++ cbs.mOnClientClosedCb.toList ++ cbs.mOnClientMessageReceivedCb.toList ++
    cbs.mOnClientContentReceivedCb.toList

end CClientCallbacks

namespace CUriCallbacks

/-- The callbacks that are set. -/
def fns (cbs : CUriCallbacks) : List Fn :=
  cbs.mOnConnectionChange.toList ++ cbs.mOnClientMessageReceivedCb.toList ++ cbs.mOnClientContentReceivedCb.toList ++
    cbs.mOnRequestReceivedCb.toList

end CUriCallbacks

namespace Locking

/-- The critical sections on `*mMutex`, under the names of the functions they are in. -/
inductive Section where
  | start (port : Nat) (clientCbs : CClientCallbacks)
  | stop
  | port
  | removeClient (clientId : UInt32)
  | sendToClient (clientId : UInt32)
  | broadcast (uri : Option Bytes)
  /-- `delayed` if a send whose payload is built on demand asks. -/
  | anyClients (uri : Option Bytes) (delayed : Bool)
  | getConnectedClientIds
  | addUri (uri : Bytes) (callbacks : CUriCallbacks)
  | removeUri (uri : Bytes)
  | registerWsClient (session : Nat) (path : Bytes) (isSsl : Bool)
  | onWsClosed (clientId : UInt32)
  | lookupReceiveCallbacks (clientId : UInt32) (wantMessage : Bool)
  | findHttpHandler (path : Bytes)
  | nextConnectionId
  | notifyClosedSync (clientId : UInt32) (uri : Bytes)
  deriving DecidableEq

/-- What is on the stack of a thread; `n` is the server. -/
inductive Piece where
  /-- The application's own code. -/
  | user
  /-- The body of a callback; the function it is called from calls `rest` after it. -/
  | body (rest : List Fn)
  /-- The builder of a delayed send. -/
  | build (n : Nat) (uri : Option Bytes)
  /-- The destructor of what `fn` has captured. -/
  | destroy (fn : Fn)
  | call (cbs : List Fn)
  /-- Waits for the mutex. -/
  | enter (n : Nat) (sec : Section)
  /-- Holds the mutex, before what the section does. -/
  | locked (n : Nat) (sec : Section)
  /-- Holds the mutex, after what the section does. -/
  | unlock (n : Nat)
  /-- The end of life of local copies. -/
  | release (cbs : List Fn)
  | start (n port : Nat) (clientCbs : CClientCallbacks)
  | post (n : Nat) (cbs : List Fn)
  | shutdown (n : Nat)
  | stopQueue (n : Nat)
  | joinWorker (n : Nat)
  deriving DecidableEq

/-- The server whose mutex is held while this is on the stack. -/
def Piece.lock? : Piece → Option Nat
  | .locked n _ => some n
  | .unlock n => some n
  | _ => none

def Piece.isUserCode : Piece → Bool
  | .user => true
  | .body _ => true
  | .build _ _ => true
  | .destroy _ => true
  | _ => false

/-- The copies that live until this is done. -/
def Piece.released : Piece → Option (List Fn)
  | .release cbs => some cbs
  | _ => none

/-- `PostCallback` of each of two callbacks that is set; the locals they were copied to go afterwards. -/
def postBoth (n : Nat) (first second : Option Fn) : List Piece :=
  [.post n first.toList, .post n second.toList, .release (first.toList ++ second.toList)]

/-- What a section does to the registry of server `n`, and what comes after the unlock. -/
def Section.body (n : Nat) (impl : CImpl) : Section → CImpl × List Piece
  | .start number clientCbs => ((impl.startLocked number clientCbs).getD impl, [])
  | .stop =>
    let (stopped, entries) := impl.stopLocked
    (stopped, entries.map fun e => .enter n (.notifyClosedSync e.1 e.2.uri))
  | .port => (impl, [])
  | .removeClient clientId =>
    match impl.removeClientLocked clientId with
    | none => (impl, [])
    | some (removed, entry) => (removed, [.enter n (.notifyClosedSync clientId entry.uri)])
  | .sendToClient _ => (impl, [])
  | .broadcast _ => (impl, [])
  | .anyClients uri delayed => (impl, if delayed && impl.anyClients uri then [.build n uri] else [])
  | .getConnectedClientIds => (impl, [])
  | .addUri uri callbacks => (impl.addUri uri callbacks, [])
  | .removeUri uri => (impl.removeUri uri, [])
  | .registerWsClient session path isSsl =>
    match impl.registerWsClientLocked session path isSsl with
    | none => (impl, [])
    | some (registered, r) => (registered, postBoth n r.addedCb r.connectionChangeCb)
  | .onWsClosed clientId =>
    match impl.onWsClosedLocked clientId with
    | none => (impl, [])
    | some (closed, closing) => (closed, postBoth n closing.closedCb closing.connectionChangeCb)
  | .lookupReceiveCallbacks clientId wantMessage =>
    let (globalCb, uriCb) :=
      if wantMessage then
        impl.lookupReceiveCallbacks clientId CClientCallbacks.mOnClientMessageReceivedCb
          CUriCallbacks.mOnClientMessageReceivedCb
      else
        impl.lookupReceiveCallbacks clientId CClientCallbacks.mOnClientContentReceivedCb
          CUriCallbacks.mOnClientContentReceivedCb
    -- the two are posted as one function
    (impl, [.post n (globalCb.toList ++ uriCb.toList), .release (globalCb.toList ++ uriCb.toList)])
  | .findHttpHandler path =>
    let handler := impl.findHttpHandler path
    (impl, [.post n handler.toList, .release handler.toList])
  | .nextConnectionId => (impl.nextConnectionId.1, [])
  | .notifyClosedSync _ uri =>
    let (notified, closing) := impl.notifyClosedLocked uri
    (notified, [.call closing.closedCb.toList, .call closing.connectionChangeCb.toList,
      .release (closing.closedCb.toList ++ closing.connectionChangeCb.toList)])

/-- The places of a registry that hold functions. -/
inductive Slot where
  | clientCbs
  | uri (uri : Bytes)
  deriving DecidableEq

def Slot.fns (impl : CImpl) : Slot → List Fn
  | .clientCbs => impl.mClientCbs.fns
  | .uri key =>
    match impl.mUris[key]? with
    | none => []
    | some callbacks => callbacks.fns

/-- The slot whose functions a section overwrites or erases. -/
def Section.overwrites (impl : CImpl) : Section → Option Slot
  | .start _ _ => if impl.mAcceptor.isSome then none else some .clientCbs
  | .addUri uri _ => some (.uri uri)
  | .removeUri uri => some (.uri uri)
  | _ => none

/-- The functions a section is given for the slot. -/
def Section.brings : Section → List Fn
  | .start _ clientCbs => clientCbs.fns
  | .addUri _ callbacks => callbacks.fns
  | _ => []

/-- The public interface. -/
inductive Call where
  | start (port : Nat) (clientCbs : CClientCallbacks)
  | stop
  | shutdown
  | port
  | removeClient (clientId : UInt32)
  | sendToClient (clientId : UInt32)
  | broadcast (uri : Option Bytes)
  | delayed (uri : Option Bytes)
  | clientsConnected (uri : Option Bytes)
  | getConnectedClientIds
  | addUri (uri : Bytes) (callbacks : CUriCallbacks)
  | removeUri (uri : Bytes)
  deriving DecidableEq

/-- What a call does. The functions it passes are the caller's until it returns. -/
def Call.pieces (n : Nat) : Call → List Piece
  | .start number clientCbs => [.start n number clientCbs, .release clientCbs.fns]
  | .stop => [.enter n .stop]
  | .shutdown => [.shutdown n]
  | .port => [.enter n .port]
  | .removeClient clientId => [.enter n (.removeClient clientId)]
  | .sendToClient clientId => [.enter n (.sendToClient clientId)]
  | .broadcast uri => [.enter n (.broadcast uri)]
  | .delayed uri => [.enter n (.anyClients uri true)]
  | .clientsConnected uri => [.enter n (.anyClients uri false)]
  | .getConnectedClientIds => [.enter n .getConnectedClientIds]
  | .addUri uri callbacks => [.enter n (.addUri uri callbacks), .release callbacks.fns]
  | .removeUri uri => [.enter n (.removeUri uri)]

/-- `IServerEvents`, as sessions and http connections call it. -/
inductive Handled where
  | registerWsClient (session : Nat) (target : Bytes) (isSsl : Bool)
  | onWsClosed (clientId : UInt32)
  | onWsMessage (clientId : UInt32)
  | onWsContent (clientId : UInt32)
  | httpRequest (path : Bytes)
  deriving DecidableEq

def Handled.pieces (n : Nat) : Handled → List Piece
  | .registerWsClient session target isSsl => [.enter n (.registerWsClient session (parseTarget target).1 isSsl)]
  | .onWsClosed clientId => [.enter n (.onWsClosed clientId)]
  | .onWsMessage clientId => [.enter n (.lookupReceiveCallbacks clientId true)]
  | .onWsContent clientId => [.enter n (.lookupReceiveCallbacks clientId false)]
  | .httpRequest path => [.enter n .nextConnectionId, .enter n (.findHttpHandler path)]

/-- What user code does next. -/
inductive Choice where
  | calls (n : Nat) (call : Call)
  | keeps (fn : Fn)
  | drops (fn : Fn)
  | returns (throws : Bool)
  deriving DecidableEq

structure Node where
  /-- `*mMutex`, told apart by a number. -/
  mutex : Nat
  impl : CImpl := {}
  mWorkQueue : CWorkQueue (List Fn) := {}

/-- The servers, and the copies the application keeps in its own data. -/
structure Shared where
  servers : List Node := []
  held : List Fn := []

inductive Owner where
  | user
  | io
  | worker (n : Nat)
  deriving DecidableEq

abbrev Threads := Lib.Tasks Shared Owner Piece

namespace Shared

def mutexOf (s : Shared) (n : Nat) : Option Nat := s.servers[n]?.map Node.mutex

def setNode (s : Shared) (n : Nat) (node : Node) : Shared := { s with servers := s.servers.set n node }

/-- User code on top of a stack. -/
def userCode (s : Shared) (p : Piece) : Choice → Shared × List Piece
  | .calls n call => (s, call.pieces n ++ [p])
  | .keeps fn => ({ s with held := fn :: s.held }, [p])
  | .drops fn => ({ s with held := s.held.erase fn }, [p])
  | .returns throws =>
    match p with
    | .body rest => (s, if throws then [] else [.call rest])
    | .build n uri => (s, if throws then [] else [.enter n (.broadcast uri)])
    | _ => (s, [])

end Shared

/-- Some thread holds the mutex. -/
def holds (c : Threads) (mutex : Nat) : Bool :=
  c.tasks.any fun t => t.todo.any fun p =>
    match p.lock? with
    | none => false
    | some n => c.shared.mutexOf n == some mutex

/-- Thread `i` does what is on top of its stack. -/
def perform (choice : Choice) (c : Threads) (i : Nat) (p : Piece) : Option (Shared × List Piece) :=
  let s := c.shared
  match p with
  | .user => some (s.userCode p choice)
  | .body _ => some (s.userCode p choice)
  | .build _ _ => some (s.userCode p choice)
  | .destroy _ => some (s.userCode p choice)
  | .call [] => some (s, [])
  | .call (_ :: rest) => some (s, [.body rest])
  | .enter n sec =>
    match s.mutexOf n with
    | none => none
    | some mutex => if holds c mutex then none else some (s, [.locked n sec])
  | .locked n sec =>
    s.servers[n]?.map fun node =>
      (s.setNode n { node with impl := (sec.body n node.impl).1 }, .unlock n :: (sec.body n node.impl).2)
  | .unlock _ => some (s, [])
  | .release _ => some (s, [])
  | .start n port clientCbs =>
    s.servers[n]?.map fun node => (s, if node.impl.mShutdown then [] else [.enter n (.start port clientCbs)])
  | .post n cbs =>
    s.servers[n]?.map fun node =>
      (if cbs.isEmpty then s else s.setNode n { node with mWorkQueue := node.mWorkQueue.post cbs }, [])
  | .shutdown n =>
    s.servers[n]?.map fun node =>
      if node.impl.mShutdown then (s, [])
      else (s.setNode n { node with impl := { node.impl with mShutdown := true } }, [.enter n .stop, .stopQueue n])
  | .stopQueue n =>
    s.servers[n]?.map fun node =>
      if node.mWorkQueue.mStopped then (s, [])
      else (s.setNode n { node with mWorkQueue := node.mWorkQueue.stop },
        if c.tasks[i]?.any fun t => t.owner == .worker n then [] else [.joinWorker n])
  | .joinWorker n => if c.idle (.worker n) then some (s, []) else none

/-- Where a copy of a function is. -/
inductive Place where
  | held
  | registry (n : Nat) (slot : Slot)
  | queue (n : Nat)
  | stack
  deriving DecidableEq

def Node.copies (node : Node) (n : Nat) : List (Place × Fn) :=
  node.impl.mClientCbs.fns.map (fun fn => (.registry n .clientCbs, fn)) ++
    node.impl.mUris.toList.flatMap (fun e => e.2.fns.map fun fn => (.registry n (.uri e.1), fn)) ++
    node.mWorkQueue.mQueue.flatten.map fun fn => (.queue n, fn)

/-- Every copy there is. A body runs, and a function is posted, only while the locals have a copy. -/
def copies (c : Threads) : List (Place × Fn) :=
  c.shared.held.map (fun fn => (.held, fn)) ++ (c.shared.servers.zipIdx.flatMap fun e => e.1.copies e.2) ++
    (c.pending Piece.released).flatten.map fun fn => (.stack, fn)

/-- The functions whose last copy goes. -/
def lost (c c' : Threads) : List Fn :=
  ((copies c).map Prod.snd).dedup.filter fun fn => (copies c').all fun e => e.2 != fn

inductive Label where
  /-- A server is constructed, on a mutex of its own or on that of other servers. -/
  | server (mutex : Nat) (allowedUris : Option (List Bytes))
  | thread
  | io (n : Nat) (call : Handled)
  | work (n : Nat)
  | run (i : Nat) (choice : Choice)
  deriving DecidableEq

def step (c : Threads) : Label → Option Threads
  | .server mutex allowedUris =>
    some { c with shared := { c.shared with
      servers := c.shared.servers ++ [{ mutex := mutex, impl := { allowedUris := allowedUris } }] } }
  | .thread => some (c.spawn .user [.user])
  | .io n call => some (c.spawn .io (call.pieces n))
  | .work n =>
    if c.idle (.worker n) then
      c.shared.servers[n]?.bind fun node => node.mWorkQueue.next.map fun r =>
        Tasks.spawn { c with shared := c.shared.setNode n { node with mWorkQueue := r.2 } } (.worker n)
          [.call r.1, .release r.1]
    else none
  | .run i choice => (c.run (perform choice) i).map fun c' => c'.push i ((lost c c').map .destroy)

/-- Every interleaving of the threads. -/
def system : Lib.System Threads Label := ⟨step⟩

def start : Threads := ⟨{}, []⟩

/-- No user code runs on a thread that holds the mutex, and none waits for a mutex that it holds. -/
structure Safe (c : Threads) : Prop where
  userCode : ∀ t ∈ c.tasks, ∀ above p below, t.todo = above ++ p :: below → p.lock?.isSome = true →
    ∀ q ∈ above, Piece.isUserCode q = false
  waiting : ∀ t ∈ c.tasks, ∀ n sec below, t.todo = .enter n sec :: below → ∀ p ∈ below, ∀ k, p.lock? = some k →
    c.shared.mutexOf k ≠ c.shared.mutexOf n

/-- The top of the stack of thread `i`. -/
def top (c : Threads) (i : Nat) : Option Piece := c.tasks[i]?.bind fun t => t.todo.head?

/-- The functions a critical section overwrites or erases, where they are, and what it puts there. -/
structure Overwrite where
  place : Place
  fns : List Fn
  brings : List Fn

def overwrite (c : Threads) : Label → Option Overwrite
  | .run i _ =>
    match top c i with
    | some (.locked n sec) =>
      c.shared.servers[n]?.bind fun node => (sec.overwrites node.impl).map fun slot =>
        ⟨.registry n slot, slot.fns node.impl, sec.brings⟩
    | _ => none
  | _ => none

/-- What a critical section overwrites or erases has another copy, or is among what it puts there. -/
def LastCopyOk (c : Threads) (l : Label) : Prop :=
  ∀ w ∈ overwrite c l, ∀ fn ∈ w.fns, fn ∈ w.brings ∨ ∃ e ∈ copies c, e.2 = fn ∧ e.1 ≠ w.place

instance (c : Threads) (l : Label) : Decidable (LastCopyOk c l) :=
  inferInstanceAs (Decidable (∀ w ∈ overwrite c l, ∀ fn ∈ w.fns, fn ∈ w.brings ∨ ∃ e ∈ copies c, e.2 = fn ∧ e.1 ≠ w.place))

variable {c c' : Threads} {impl : CImpl} {i n : Nat} {p : Piece} {sec : Section} {slot : Slot} {fn : Fn} {place : Place}
  {s' : Shared} {outs rest : List Piece} {o : Owner} {s₁ : Shared} {choice : Choice} {l : Label} {ls : List Label}

/-! ## Sections -/

/-- A registry whose callbacks are as before. -/
theorem Slot.fns_congr {impl' : CImpl} (clientCbs : impl'.mClientCbs = impl.mClientCbs) (uris : impl'.mUris = impl.mUris) :
    slot.fns impl' = slot.fns impl := by
  cases slot with
  | clientCbs => exact congrArg CClientCallbacks.fns clientCbs
  | uri key => simp only [Slot.fns, uris]

theorem eraseClient_clientCbs (clientId : UInt32) (entry : SClientEntry) :
    (impl.eraseClient clientId entry).1.mClientCbs = impl.mClientCbs := by
  unfold CImpl.eraseClient CImpl.decrementUriCountLocked
  split
  · rfl
  · split <;> rfl

theorem registerWsClientLocked_clientCbs {session : Nat} {path : Bytes} {isSsl : Bool} {impl' : CImpl}
    {r : CImpl.Registration} (done : impl.registerWsClientLocked session path isSsl = some (impl', r)) :
    impl'.mClientCbs = impl.mClientCbs := by
  unfold CImpl.registerWsClientLocked at done
  split at done
  · cases done
  · cases done
    rfl

/-- A section that overwrites nothing leaves every slot as it is. -/
theorem Section.body_kept (n : Nat) (none : sec.overwrites impl = none) :
    slot.fns (sec.body n impl).1 = slot.fns impl := by
  cases sec with
  | start number clientCbs =>
    have started : impl.mAcceptor.isSome = true := by
      by_contra idle
      rw [Section.overwrites, if_neg idle] at none
      cases none
    have throws : impl.startLocked number clientCbs = Option.none := if_pos started
    simp only [Section.body, throws, Option.getD_none]
  | addUri uri callbacks => cases none
  | removeUri uri => cases none
  | removeClient clientId =>
    simp only [Section.body, CImpl.removeClientLocked]
    cases impl.mClients[clientId]? with
    | none => rfl
    | some entry => exact Slot.fns_congr (eraseClient_clientCbs _ _) (CImpl.eraseClient_mUris _ _)
  | onWsClosed clientId =>
    simp only [Section.body, CImpl.onWsClosedLocked]
    cases impl.mClients[clientId]? with
    | none => rfl
    | some entry => exact Slot.fns_congr (eraseClient_clientCbs _ _) (CImpl.eraseClient_mUris _ _)
  | registerWsClient session path isSsl =>
    simp only [Section.body]
    cases done : impl.registerWsClientLocked session path isSsl with
    | none => rfl
    | some r => exact Slot.fns_congr (registerWsClientLocked_clientCbs done) (CImpl.registerWsClientLocked_inv done).mUris
  | _ => exact Slot.fns_congr rfl rfl

/-- One that overwrites a slot leaves there what it brings, and leaves every other slot as it is. -/
theorem Section.body_slot (n : Nat) {changed : Slot} (overwrites : sec.overwrites impl = some changed) :
    slot.fns (sec.body n impl).1 = if slot = changed then sec.brings else slot.fns impl := by
  cases sec with
  | start number clientCbs =>
    have idle : ¬ impl.mAcceptor.isSome = true := by
      intro started
      rw [Section.overwrites, if_pos started] at overwrites
      cases overwrites
    have starts : impl.startLocked number clientCbs =
        some { impl with mAcceptor := some number, mPort := number, mClientCbs := clientCbs } := if_neg idle
    rw [Section.overwrites, if_neg idle] at overwrites
    cases overwrites
    simp only [Section.body, starts, Option.getD_some]
    cases slot with
    | clientCbs => rfl
    | uri key => rfl
  | addUri uri callbacks =>
    cases overwrites
    cases slot with
    | clientCbs => rfl
    | uri key =>
      simp only [Section.body, CImpl.addUri, Slot.fns, TreeMap.getElem?_insert, LawfulEqOrd.compare_eq_iff_eq,
        Slot.uri.injEq]
      by_cases same : uri = key
      · rw [if_pos same, if_pos same.symm]
        rfl
      · rw [if_neg same, if_neg (Ne.symm same)]
  | removeUri uri =>
    cases overwrites
    cases slot with
    | clientCbs => rfl
    | uri key =>
      simp only [Section.body, CImpl.removeUri, Slot.fns, TreeMap.getElem?_erase, LawfulEqOrd.compare_eq_iff_eq,
        Slot.uri.injEq]
      by_cases same : uri = key
      · rw [if_pos same, if_pos same.symm]
        rfl
      · rw [if_neg same, if_neg (Ne.symm same)]
  | _ => cases overwrites

/-- Such a section has nothing to do after the unlock. -/
theorem Section.body_done (n : Nat) (overwrites : sec.overwrites impl = some slot) : (sec.body n impl).2 = [] := by
  cases sec with
  | start number clientCbs => rfl
  | addUri uri callbacks => rfl
  | removeUri uri => rfl
  | _ => cases overwrites

theorem postBoth_free (n : Nat) (first second : Option Fn) : ∀ q ∈ postBoth n first second, q.lock? = none := by
  intro q mem
  simp only [postBoth, List.mem_cons, List.not_mem_nil, or_false] at mem
  obtain rfl | rfl | rfl := mem <;> rfl

/-- What comes after the unlock holds no mutex. -/
theorem Section.body_free (n : Nat) : ∀ q ∈ (sec.body n impl).2, q.lock? = none := by
  have nothing : ∀ q ∈ ([] : List Piece), q.lock? = none := fun q mem => absurd mem List.not_mem_nil
  cases sec with
  | stop =>
    intro q mem
    obtain ⟨e, -, rfl⟩ := List.mem_map.1 mem
    rfl
  | removeClient clientId =>
    simp only [Section.body]
    cases impl.removeClientLocked clientId with
    | none => exact nothing
    | some r =>
      intro q mem
      rw [List.mem_singleton.1 mem]
      rfl
  | anyClients uri delayed =>
    simp only [Section.body]
    split
    · intro q mem
      rw [List.mem_singleton.1 mem]
      rfl
    · exact nothing
  | registerWsClient session path isSsl =>
    simp only [Section.body]
    cases impl.registerWsClientLocked session path isSsl with
    | none => exact nothing
    | some r => exact postBoth_free _ _ _
  | onWsClosed clientId =>
    simp only [Section.body]
    cases impl.onWsClosedLocked clientId with
    | none => exact nothing
    | some r => exact postBoth_free _ _ _
  | lookupReceiveCallbacks clientId wantMessage =>
    intro q mem
    simp only [Section.body, List.mem_cons, List.not_mem_nil, or_false] at mem
    obtain rfl | rfl := mem <;> rfl
  | findHttpHandler path =>
    intro q mem
    simp only [Section.body, List.mem_cons, List.not_mem_nil, or_false] at mem
    obtain rfl | rfl := mem <;> rfl
  | notifyClosedSync clientId uri =>
    intro q mem
    simp only [Section.body, List.mem_cons, List.not_mem_nil, or_false] at mem
    obtain rfl | rfl | rfl := mem <;> rfl
  | _ => exact nothing

/-! ## Copies -/

/-- The copies in one place. -/
def copiesAt (c : Threads) : Place → List Fn
  | .held => c.shared.held
  | .registry n slot =>
    match c.shared.servers[n]? with
    | none => []
    | some node => slot.fns node.impl
  | .queue n =>
    match c.shared.servers[n]? with
    | none => []
    | some node => node.mWorkQueue.mQueue.flatten
  | .stack => (c.pending Piece.released).flatten

theorem mem_nodeCopies {node : Node} {m : Nat} : (place, fn) ∈ node.copies m ↔
    (∃ slot, place = .registry m slot ∧ fn ∈ slot.fns node.impl) ∨
      place = .queue m ∧ fn ∈ node.mWorkQueue.mQueue.flatten := by
  simp only [Node.copies, List.mem_append, List.mem_map, List.mem_flatMap, Prod.mk.injEq]
  constructor
  · rintro ((⟨g, mem, is, rfl⟩ | ⟨e, found, g, mem, is, rfl⟩) | ⟨g, mem, is, rfl⟩)
    · exact .inl ⟨.clientCbs, is.symm, mem⟩
    · refine .inl ⟨.uri e.1, is.symm, ?_⟩
      simp only [Slot.fns, TreeMap.mem_toList_iff_getElem?_eq_some.1 found]
      exact mem
    · exact .inr ⟨is.symm, mem⟩
  · rintro (⟨slot, rfl, mem⟩ | ⟨rfl, mem⟩)
    · cases slot with
      | clientCbs => exact .inl (.inl ⟨fn, mem, rfl, rfl⟩)
      | uri key =>
        simp only [Slot.fns] at mem
        cases found : node.impl.mUris[key]? with
        | none =>
          rw [found] at mem
          cases mem
        | some callbacks =>
          rw [found] at mem
          exact .inl (.inr ⟨(key, callbacks), TreeMap.mem_toList_iff_getElem?_eq_some.2 found, fn, mem, rfl, rfl⟩)
    · exact .inr ⟨fn, mem, rfl, rfl⟩

theorem mem_copies : (place, fn) ∈ copies c ↔ fn ∈ copiesAt c place := by
  have nodes : (place, fn) ∈ (c.shared.servers.zipIdx.flatMap fun e => e.1.copies e.2) ↔
      ∃ (m : Nat) (node : Node), c.shared.servers[m]? = some node ∧ (place, fn) ∈ node.copies m := by
    simp only [List.mem_flatMap, Prod.exists, List.mem_zipIdx_iff_getElem?]
    exact exists_comm
  unfold copies
  rw [List.mem_append, List.mem_append, nodes]
  simp only [List.mem_map, Prod.mk.injEq, mem_nodeCopies]
  cases place with
  | held => simp [copiesAt]
  | registry m slot => cases found : c.shared.servers[m]? <;> simp [copiesAt, found]
  | queue m => cases found : c.shared.servers[m]? <;> simp [copiesAt, found]
  | stack => simp [copiesAt]

theorem mem_lost : fn ∈ lost c c' ↔ (∃ place, fn ∈ copiesAt c place) ∧ ∀ place, fn ∉ copiesAt c' place := by
  simp only [lost, List.mem_filter, List.mem_dedup, List.mem_map, List.all_eq_true, bne_iff_ne, Prod.exists,
    exists_eq_right, mem_copies, Prod.forall]
  refine and_congr_right fun _ => ⟨fun none place mem => none place fn mem rfl, fun none place g mem same => ?_⟩
  exact none place (same ▸ mem)

/-- A function with a copy left is not lost. -/
theorem not_lost (left : ∀ place, fn ∈ copiesAt c place → ∃ place', fn ∈ copiesAt c' place') : fn ∉ lost c c' := by
  intro mem
  obtain ⟨⟨place, here⟩, none⟩ := mem_lost.1 mem
  obtain ⟨place', there⟩ := left place here
  exact none place' there

theorem copiesAt_congr (shared : c'.shared = c.shared) (locals : c'.pending Piece.released = c.pending Piece.released) :
    copiesAt c' place = copiesAt c place := by
  cases place <;> simp only [copiesAt, shared, locals]

/-- What the thread does that performs a section. -/
theorem locked_inv (ran : Tasks.Ran (perform choice) c i c' o (.locked n sec) rest outs) :
    ∃ node, c.shared.servers[n]? = some node ∧
      c'.shared = c.shared.setNode n { node with impl := (sec.body n node.impl).1 } ∧
      outs = .unlock n :: (sec.body n node.impl).2 := by
  obtain ⟨node, found, done⟩ := Option.map_eq_some_iff.1 ran.action
  rw [Prod.mk.injEq] at done
  exact ⟨node, found, done.1.symm, done.2.symm⟩

section Sections

variable {node : Node}

theorem setNode_lookup {node' : Node} (found : c.shared.servers[n]? = some node) (m : Nat) :
    (c.shared.setNode n node').servers[m]? = if n = m then some node' else c.shared.servers[m]? := by
  have lt := (List.getElem?_eq_some_iff.1 found).1
  simp only [Shared.setNode, List.getElem?_set, lt, if_true]

/-- A registry after a section, and everything else outside the stacks. -/
theorem section_copiesAt (found : c.shared.servers[n]? = some node)
    (after : c'.shared = c.shared.setNode n { node with impl := (sec.body n node.impl).1 }) :
    (∀ m slot, copiesAt c' (.registry m slot) =
      if n = m then slot.fns (sec.body n node.impl).1 else copiesAt c (.registry m slot)) ∧
    copiesAt c' .held = copiesAt c .held ∧ ∀ m, copiesAt c' (.queue m) = copiesAt c (.queue m) := by
  refine ⟨fun m slot => ?_, ?_, fun m => ?_⟩
  · simp only [copiesAt, after, setNode_lookup found]
    by_cases same : n = m
    · rw [if_pos same, if_pos same]
    · rw [if_neg same, if_neg same]
  · simp only [copiesAt, after]
    rfl
  · simp only [copiesAt, after, setNode_lookup found]
    by_cases same : n = m
    · subst same
      rw [if_pos rfl, found]
    · rw [if_neg same]

/-- A section that overwrites nothing keeps every copy. -/
theorem section_kept (ran : Tasks.Ran (perform choice) c i c' o (.locked n sec) rest outs)
    (found : c.shared.servers[n]? = some node) (none : sec.overwrites node.impl = none)
    (mem : fn ∈ copiesAt c place) : fn ∈ copiesAt c' place := by
  obtain ⟨node', found', after, -⟩ := locked_inv ran
  cases found.symm.trans found'
  obtain ⟨registry, held, queue⟩ := section_copiesAt found after
  cases place with
  | held => rwa [held]
  | queue m => rwa [queue]
  | registry m slot =>
    rw [registry]
    split
    · next same =>
      subst same
      rw [Section.body_kept n none]
      simpa only [copiesAt, found] using mem
    · exact mem
  | stack =>
    obtain ⟨others, before, later⟩ := ran.mem_pending Piece.released
    obtain ⟨cbs, here, there⟩ := List.mem_flatten.1 mem
    have kept := ((before cbs).1 here).resolve_left (by simp [Piece.released])
    exact List.mem_flatten.2 ⟨cbs, (later cbs).2 (.inr kept), there⟩

/-- One that overwrites a slot changes the copies there, and no other. -/
theorem section_overwrites (ran : Tasks.Ran (perform choice) c i c' o (.locked n sec) rest outs)
    (found : c.shared.servers[n]? = some node) (overwrites : sec.overwrites node.impl = some slot) (place : Place) :
    copiesAt c' place = if place = .registry n slot then sec.brings else copiesAt c place := by
  obtain ⟨node', found', after, left⟩ := locked_inv ran
  cases found.symm.trans found'
  obtain ⟨registry, held, queue⟩ := section_copiesAt found after
  cases place with
  | held => rw [held, if_neg (by simp)]
  | queue m => rw [queue, if_neg (by simp)]
  | registry m other =>
    rw [registry]
    by_cases same : n = m
    · subst same
      rw [if_pos rfl, Section.body_slot n overwrites]
      simp only [copiesAt, found, Place.registry.injEq, true_and]
    · rw [if_neg same, if_neg]
      intro eq
      cases eq
      exact same rfl
  | stack =>
    rw [if_neg (by simp)]
    rw [Section.body_done n overwrites] at left
    have locals : c'.pending Piece.released = c.pending Piece.released := by
      apply ran.pending_same rfl
      intro b mem
      rw [left] at mem
      rw [List.mem_singleton.1 mem]
      rfl
    exact congrArg List.flatten locals

/-- **What a section loses.** Under the condition nothing, and otherwise something. -/
theorem section_lost (ran : Tasks.Ran (perform choice) c i c' o (.locked n sec) rest outs) :
    lost c c' = [] ↔ LastCopyOk c (.run i choice) := by
  obtain ⟨node, found, -, -⟩ := locked_inv ran
  have here : top c i = some (.locked n sec) := by
    rw [top, ran.task]
    rfl
  cases overwrites : sec.overwrites node.impl with
  | none =>
    have asks : overwrite c (.run i choice) = none := by simp [overwrite, here, found, overwrites]
    constructor
    · intro _ w mem
      rw [asks] at mem
      cases mem
    · intro _
      rw [List.eq_nil_iff_forall_not_mem]
      intro fn
      exact not_lost fun place mem => ⟨place, section_kept ran found overwrites mem⟩
  | some slot =>
    have asks : overwrite c (.run i choice) = some ⟨.registry n slot, slot.fns node.impl, sec.brings⟩ := by
      simp [overwrite, here, found, overwrites]
    have changed := section_overwrites ran found overwrites
    have inside : copiesAt c (.registry n slot) = slot.fns node.impl := by simp only [copiesAt, found]
    constructor
    · intro nothing w mem fn gone
      rw [asks] at mem
      cases mem
      by_contra last
      obtain ⟨foreign, alone⟩ := not_or.1 last
      -- the slot had the last copy, so the function is lost
      have dies : fn ∈ lost c c' := by
        have mine : fn ∈ copiesAt c (.registry n slot) := by
          rw [inside]
          exact gone
        refine mem_lost.2 ⟨⟨_, mine⟩, fun place left => ?_⟩
        rw [changed] at left
        split at left
        · exact foreign left
        · next other => exact alone ⟨(place, fn), mem_copies.2 left, rfl, other⟩
      rw [nothing] at dies
      cases dies
    · intro ok
      rw [List.eq_nil_iff_forall_not_mem]
      intro fn
      refine not_lost fun place mem => ?_
      by_cases same : place = .registry n slot
      · subst same
        rw [inside] at mem
        obtain brought | ⟨⟨place', g⟩, copy, rfl, other⟩ := ok _ asks fn mem
        · exact ⟨.registry n slot, by rwa [changed, if_pos rfl]⟩
        · exact ⟨place', by rw [changed, if_neg other]; exact mem_copies.1 copy⟩
      · exact ⟨place, by rwa [changed, if_neg same]⟩

end Sections

/-! ## Stacks -/

/-- A mutex is held by the top of a stack if at all. -/
def Shallow (c : Threads) : Prop := c.Topmost fun p => p.lock?.isSome = true

theorem Shallow.safe (shallow : Shallow c) : Safe c := by
  constructor
  · intro t mem above p below eq locked q here
    cases above with
    | nil => cases here
    | cons first above =>
      have deep : p ∈ t.todo.tail := by
        rw [eq]
        exact List.mem_append_right _ List.mem_cons_self
      exact absurd locked (shallow t mem p deep)
  · intro t mem n sec below eq p here k locked
    have deep : p ∈ t.todo.tail := by
      rw [eq]
      exact here
    have holds : p.lock?.isSome = true := by
      rw [locked]
      rfl
    exact absurd holds (shallow t mem p deep)

theorem free_cons {q : Piece} {todo : List Piece} (head : q.lock? = none) (tail : ∀ b ∈ todo, b.lock? = none) :
    ∀ b ∈ q :: todo, b.lock? = none := by
  intro b mem
  rcases List.mem_cons.1 mem with rfl | mem
  · exact head
  · exact tail b mem

theorem free_nil : ∀ b ∈ ([] : List Piece), b.lock? = none := fun _ mem => absurd mem List.not_mem_nil

theorem Call.pieces_free (n : Nat) (call : Call) : ∀ b ∈ call.pieces n, b.lock? = none := by
  cases call with
  | start number clientCbs => exact free_cons rfl (free_cons rfl free_nil)
  | addUri uri callbacks => exact free_cons rfl (free_cons rfl free_nil)
  | _ => exact free_cons rfl free_nil

theorem Handled.pieces_free (n : Nat) (call : Handled) : ∀ b ∈ call.pieces n, b.lock? = none := by
  cases call with
  | httpRequest path => exact free_cons rfl (free_cons rfl free_nil)
  | _ => exact free_cons rfl free_nil

theorem userCode_free {s : Shared} (user : p.lock? = none) : ∀ b ∈ (s.userCode p choice).2, b.lock? = none := by
  cases choice with
  | calls m call =>
    intro b mem
    rcases List.mem_append.1 mem with mem | mem
    · exact call.pieces_free m b mem
    · rw [List.mem_singleton.1 mem]
      exact user
  | keeps g => exact free_cons user free_nil
  | drops g => exact free_cons user free_nil
  | returns throws =>
    unfold Shared.userCode
    cases p with
    | body left =>
      cases throws with
      | false => exact free_cons rfl free_nil
      | true => exact free_nil
    | build m uri =>
      cases throws with
      | false => exact free_cons rfl free_nil
      | true => exact free_nil
    | _ => exact free_nil

/-- What a thread does next: it takes the mutex, performs the section, or comes to hold no mutex. -/
inductive Performs (c : Threads) : Piece → Shared → List Piece → Prop
  | enters (n : Nat) (sec : Section) (s' : Shared) (same : s' = c.shared) : Performs c (.enter n sec) s' [.locked n sec]
  | locked (n : Nat) (sec : Section) (s' : Shared) (outs : List Piece) : Performs c (.locked n sec) s' outs
  | others (p : Piece) (s' : Shared) (outs : List Piece) (free : ∀ b ∈ outs, b.lock? = none) : Performs c p s' outs

theorem Performs.of_userCode {s : Shared} (user : p.lock? = none) (done : some (s.userCode p choice) = some (s', outs)) :
    Performs c p s' outs := by
  have free : ∀ b ∈ (s.userCode p choice).2, b.lock? = none := userCode_free user
  rw [Option.some.inj done] at free
  exact .others _ _ _ free

theorem Performs.of_none (done : some (s', outs) = some ((s₁, []) : Shared × List Piece)) : Performs c p s' outs := by
  cases done
  exact .others _ _ _ free_nil

theorem perform_performs (done : perform choice c i p = some (s', outs)) : Performs c p s' outs := by
  cases p with
  | user => exact .of_userCode rfl done
  | body left => exact .of_userCode rfl done
  | build n uri => exact .of_userCode rfl done
  | destroy g => exact .of_userCode rfl done
  | locked n sec => exact .locked _ _ _ _
  | enter n sec =>
    simp only [perform] at done
    cases found : c.shared.mutexOf n with
    | none =>
      rw [found] at done
      cases done
    | some mutex =>
      simp only [found] at done
      split at done
      · cases done
      · cases done
        exact .enters _ _ _ rfl
  | call cbs =>
    cases cbs with
    | nil => exact .of_none done.symm
    | cons g left =>
      cases done
      exact .others _ _ _ (free_cons rfl free_nil)
  | unlock n => exact .of_none done.symm
  | release cbs => exact .of_none done.symm
  | start n number clientCbs =>
    obtain ⟨node, -, is⟩ := Option.map_eq_some_iff.1 done
    cases is
    refine .others _ _ _ ?_
    split
    · exact free_nil
    · exact free_cons rfl free_nil
  | post n cbs =>
    obtain ⟨node, -, is⟩ := Option.map_eq_some_iff.1 done
    cases is
    exact .others _ _ _ free_nil
  | shutdown n =>
    obtain ⟨node, -, is⟩ := Option.map_eq_some_iff.1 done
    split at is
    · cases is
      exact .others _ _ _ free_nil
    · cases is
      exact .others _ _ _ (free_cons rfl (free_cons rfl free_nil))
  | stopQueue n =>
    obtain ⟨node, -, is⟩ := Option.map_eq_some_iff.1 done
    split at is
    · cases is
      exact .others _ _ _ free_nil
    · cases is
      refine .others _ _ _ ?_
      split
      · exact free_nil
      · exact free_cons rfl free_nil
  | joinWorker n =>
    simp only [perform] at done
    split at done
    · exact .of_none done.symm
    · cases done

theorem free_topmost {todo : List Piece} (free : ∀ b ∈ todo, b.lock? = none) :
    ∀ b ∈ todo.tail, ¬ b.lock?.isSome = true := by
  intro b mem
  rw [free b (List.mem_of_mem_tail mem)]
  decide

/-- **A step under the condition** keeps the mutexes on top. -/
theorem step_shallow (shallow : Shallow c) (ok : LastCopyOk c l) (step : system.step c l = some c') : Shallow c' := by
  cases l with
  | server mutex allowedUris =>
    cases step
    exact shallow
  | thread =>
    cases step
    exact shallow.spawn (free_topmost (free_cons rfl free_nil))
  | io n call =>
    cases step
    exact shallow.spawn (free_topmost (call.pieces_free n))
  | work n =>
    simp only [system, Locking.step] at step
    split at step
    · obtain ⟨node, -, taken⟩ := Option.bind_eq_some_iff.1 step
      obtain ⟨r, -, is⟩ := Option.map_eq_some_iff.1 taken
      cases is
      have still : Shallow { c with shared := c.shared.setNode n { node with mWorkQueue := r.2 } } := shallow
      exact still.spawn (free_topmost (free_cons rfl (free_cons rfl free_nil)))
    · cases step
  | run i choice =>
    obtain ⟨c₁, moved, is⟩ := Option.map_eq_some_iff.1 step
    cases is
    obtain ⟨o, a, rest, outs, ran⟩ := Tasks.run_inv moved
    refine ran.topmost shallow ?_
    have dies : ∀ b ∈ (lost c c₁).map Piece.destroy, b.lock? = none := by
      intro b mem
      obtain ⟨g, -, rfl⟩ := List.mem_map.1 mem
      rfl
    cases perform_performs ran.action with
    | enters n sec _ same =>
      -- taking the mutex moves no copy
      have locals : c₁.pending Piece.released = c.pending Piece.released := by
        apply ran.pending_same rfl
        intro b mem
        rw [List.mem_singleton.1 mem]
        rfl
      have nothing : lost c c₁ = [] := by
        rw [List.eq_nil_iff_forall_not_mem]
        intro g
        exact not_lost fun place mem => ⟨place, by rwa [copiesAt_congr same locals]⟩
      rw [nothing]
      exact List.forall_mem_nil _
    | locked n sec _ _ =>
      obtain ⟨node, -, -, rfl⟩ := locked_inv ran
      rw [(section_lost ran).2 ok]
      intro b mem
      rw [Section.body_free n b mem]
      decide
    | others _ _ _ free =>
      apply free_topmost
      intro b mem
      rcases List.mem_append.1 mem with mem | mem
      · exact dies b mem
      · exact free b mem

/-- **A step against the condition** runs a destructor on a thread that holds the mutex. -/
theorem step_unsafe (bad : ¬ LastCopyOk c l) (step : system.step c l = some c') : ¬ Safe c' := by
  have asked : overwrite c l ≠ none := by
    intro none
    refine bad fun w mem => ?_
    rw [none] at mem
    cases mem
  cases l with
  | run i choice =>
    obtain ⟨c₁, moved, is⟩ := Option.map_eq_some_iff.1 step
    cases is
    obtain ⟨o, a, rest, outs, ran⟩ := Tasks.run_inv moved
    have here : top c i = some a := by
      rw [top, ran.task]
      rfl
    cases a with
    | locked n sec =>
      obtain ⟨node, -, -, rfl⟩ := locked_inv ran
      obtain ⟨g, others, dies⟩ := List.exists_cons_of_ne_nil (mt (section_lost ran).1 bad)
      intro safe
      have moved : (c₁.push i ((lost c c₁).map Piece.destroy)).tasks[i]? = some ⟨o, _⟩ := ran.pushed
      have mem := List.mem_of_getElem? moved
      have quiet := safe.userCode _ mem ((lost c c₁).map Piece.destroy) (.unlock n)
        ((sec.body n node.impl).2 ++ rest) rfl rfl (.destroy g) (List.mem_map.2 ⟨g, by simp [dies], rfl⟩)
      cases quiet
    | _ => exact absurd (by simp [overwrite, here]) asked
  | _ => exact absurd rfl asked

/-- **No user code under the mutex.** In a run, no thread ever runs user code while it holds the mutex, nor waits
for a mutex it holds, exactly if no critical section removes the last copy of a callback. -/
theorem user_code_unlocked (run : system.exec start ls = some c) :
    system.Always Safe start ls ↔ system.Along LastCopyOk start ls := by
  refine System.always_iff_along Shallow (fun _ => Shallow.safe) ?_ (fun _ _ _ => step_shallow) ?_ run
  · intro t mem
    cases mem
  · intro a l b _ bad step
    exact step_unsafe bad step

/-- The application keeps a copy of a callback, registers it, replaces it and drops its copy; the destructor
removes the uri. -/
def replacedKept : List Label :=
  [.server 0 none, .thread, .run 0 (.keeps 1),
    .run 0 (.calls 0 (.addUri (str "/a") { mOnRequestReceivedCb := some 1 })), .run 0 (.returns false),
    .run 0 (.returns false), .run 0 (.returns false), .run 0 (.returns false),
    .run 0 (.calls 0 (.addUri (str "/a") { mOnRequestReceivedCb := some 2 })), .run 0 (.returns false),
    .run 0 (.returns false), .run 0 (.returns false), .run 0 (.returns false), .run 0 (.drops 1),
    .run 0 (.calls 0 (.removeUri (str "/a"))), .run 0 (.returns false)]

theorem user_code_unlocked_replacedKept : system.Always Safe start replacedKept := by
  have run : (system.exec start replacedKept).isSome = true := by decide
  exact (user_code_unlocked (System.exec_get run)).2 (by decide)

/-- The registry has the only copy. -/
def replaced : List Label :=
  [.server 0 none, .thread,
    .run 0 (.calls 0 (.addUri (str "/a") { mOnRequestReceivedCb := some 1 })), .run 0 (.returns false),
    .run 0 (.returns false), .run 0 (.returns false), .run 0 (.returns false),
    .run 0 (.calls 0 (.addUri (str "/a") { mOnRequestReceivedCb := some 2 })), .run 0 (.returns false),
    .run 0 (.returns false), .run 0 (.calls 0 (.removeUri (str "/a")))]

/-- The destructor runs inside `AddUri`, calls `RemoveUri` and waits for the mutex that its own thread holds. -/
theorem replaced_deadlocks : ∃ c, system.exec start replaced = some c ∧ ¬ Safe c ∧
    top c 0 = some (.enter 0 (.removeUri (str "/a"))) ∧ ∀ choice, system.step c (.run 0 choice) = none := by
  refine ⟨_, rfl, ?_, rfl, fun choice => rfl⟩
  intro safe
  cases safe.userCode _ List.mem_cons_self [.enter 0 (.removeUri (str "/a")), .destroy 1] (.unlock 0)
    [.release [2], .user] rfl rfl (.destroy 1) (by simp)

end Locking

end Websockets
