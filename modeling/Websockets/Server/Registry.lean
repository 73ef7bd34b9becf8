import Websockets.Target
import Websockets.Lib.MapCount

/-!
# The registry of `CWebsocketServer::CImpl`

The state behind `*mMutex` and each critical section on it as one function: what it changes and what
it hands to the code after the unlock. `mShutdown` is an atomic beside it. Callbacks are the
application's own functions and are told apart by a number; a session is its index in the server.

`allocated`, `reports` and an entry's `allocation` only record history: the numbers of ids drawn
from `mNextConnectionId` and of connection counts computed so far, and the number of the id an
entry was made with.
-/

namespace Websockets

open Std

structure CClientCallbacks where
  mOnClientAddedCb : Option Fn := none
  mOnClientClosedCb : Option Fn := none
  mOnClientMessageReceivedCb : Option Fn := none
  mOnClientContentReceivedCb : Option Fn := none
  deriving DecidableEq

structure CUriCallbacks where
  mOnConnectionChange : Option Fn := none
  mOnClientMessageReceivedCb : Option Fn := none
  mOnClientContentReceivedCb : Option Fn := none
  mOnRequestReceivedCb : Option Fn := none
  deriving DecidableEq

structure SClientEntry where
  session : Nat
  /-- The matched registered uri at connect time, empty if none. -/
  uri : Bytes
  isSsl : Bool
  allocation : Nat
  deriving DecidableEq

structure CImpl where
  /-- `mSettings.allowedUris`. -/
  allowedUris : Option (List Bytes) := none
  /-- `mSettings.maxSessionBacklog`. -/
  maxSessionBacklog : Nat := 1024
  mShutdown : Bool := false
  /-- The acceptor, by the port it listens on. -/
  mAcceptor : Option Nat := none
  mPort : Nat := 0
  mNextConnectionId : UInt32 := 1
  mClientCbs : CClientCallbacks := {}
  mClients : TreeMap UInt32 SClientEntry := ∅
  mUris : TreeMap Bytes CUriCallbacks := ∅
  mUriCounts : TreeMap Bytes Nat := ∅
  allocated : Nat := 0
  reports : Nat := 0

namespace CImpl

/-- The longest registered uri that `path` lies within, or the empty one. -/
def longestUriMatchLocked (impl : CImpl) (path : Bytes) : Bytes :=
  impl.mUris.keys.foldl (fun best uri =>
    if uriMatches uri path && best.length < uri.length then uri else best) []

/-- `mUriCounts` at `uri`, 0 if absent. -/
def uriCount (impl : CImpl) (uri : Bytes) : Nat := impl.mUriCounts[uri]?.getD 0

/-- Decrements the connection count of `uri` and returns the new count. -/
def decrementUriCountLocked (impl : CImpl) (uri : Bytes) : CImpl × Nat :=
  if uri.isEmpty then (impl, 0)
  else match impl.mUriCounts[uri]? with
    | none => (impl, 0)
    | some 0 => (impl, 0)
    | some (n + 1) => ({ impl with mUriCounts := impl.mUriCounts.insert uri n }, n)

/-- `mUris.find(uri)` and its `mOnConnectionChange`, for a non-empty uri. -/
def connectionChangeCb (impl : CImpl) (uri : Bytes) : Option Fn :=
  if uri.isEmpty then none else impl.mUris[uri]?.bind CUriCallbacks.mOnConnectionChange

/-- `mNextConnectionId++`. -/
def nextConnectionId (impl : CImpl) : CImpl × UInt32 :=
  ({ impl with mNextConnectionId := impl.mNextConnectionId + 1, allocated := impl.allocated + 1 },
    impl.mNextConnectionId)

/-- `Start` under the lock; `none` where it throws "already started". -/
def startLocked (impl : CImpl) (port : Nat) (clientCbs : CClientCallbacks) : Option CImpl :=
  if impl.mAcceptor.isSome then none
  else some { impl with mAcceptor := some port, mPort := port, mClientCbs := clientCbs }

/-- `Stop` under the lock: the entries it takes, in the order of the map. -/
def stopLocked (impl : CImpl) : CImpl × List (UInt32 × SClientEntry) :=
  ({ impl with mAcceptor := none, mPort := 0, mClients := ∅, mUriCounts := ∅ }, impl.mClients.toList)

/-- `mClients.erase(it)` and `DecrementUriCountLocked`, with the new count. -/
def eraseClient (impl : CImpl) (clientId : UInt32) (entry : SClientEntry) : CImpl × Nat :=
  decrementUriCountLocked { impl with mClients := impl.mClients.erase clientId } entry.uri

/-- `RemoveClient` under the lock; `none` where the id is unknown. -/
def removeClientLocked (impl : CImpl) (clientId : UInt32) : Option (CImpl × SClientEntry) :=
  match impl.mClients[clientId]? with
  | none => none
  | some entry => some ((impl.eraseClient clientId entry).1, entry)

/-- What the code after an unlock reports. -/
structure Closing where
  uri : Bytes
  uriCount : Nat
  stamp : Nat
  closedCb : Option Fn
  connectionChangeCb : Option Fn

def countReport (impl : CImpl) : CImpl := { impl with reports := impl.reports + 1 }

/-- `OnWsClosed` under the lock; `none` where the id is unknown. -/
def onWsClosedLocked (impl : CImpl) (clientId : UInt32) : Option (CImpl × Closing) :=
  match impl.mClients[clientId]? with
  | none => none
  | some entry =>
    let (erased, uriCount) := impl.eraseClient clientId entry
    some (erased.countReport,
      ⟨entry.uri, uriCount, impl.reports, impl.mClientCbs.mOnClientClosedCb, impl.connectionChangeCb entry.uri⟩)

/-- `NotifyClosedSync` under the lock. -/
def notifyClosedLocked (impl : CImpl) (uri : Bytes) : CImpl × Closing :=
  (impl.countReport, ⟨uri, if uri.isEmpty then 0 else impl.uriCount uri, impl.reports,
    impl.mClientCbs.mOnClientClosedCb, impl.connectionChangeCb uri⟩)

structure Registration where
  clientId : UInt32
  matchedUri : Bytes
  uriCount : Nat
  stamp : Nat
  addedCb : Option Fn
  connectionChangeCb : Option Fn

/-- `RegisterWsClient` rejects clients. -/
def rejects (impl : CImpl) : Bool := impl.mShutdown || impl.mAcceptor.isNone

/-- `RegisterWsClient` under the lock; `none` where it returns 0. The matched uri is a key of `mUris`,
so `mUris[matchedUri]` adds none. -/
def registerWsClientLocked (impl : CImpl) (session : Nat) (path : Bytes) (isSsl : Bool) :
    Option (CImpl × Registration) :=
  if impl.rejects then none
  else
    let (drawn, clientId) := impl.nextConnectionId
    let matchedUri := impl.longestUriMatchLocked path
    let uriCount := if matchedUri.isEmpty then 0 else impl.uriCount matchedUri + 1
    some (countReport { drawn with
        mClients := impl.mClients.insert clientId ⟨session, matchedUri, isSsl, drawn.allocated⟩
        mUriCounts :=
          if matchedUri.isEmpty then impl.mUriCounts else impl.mUriCounts.insert matchedUri uriCount },
      ⟨clientId, matchedUri, uriCount, impl.reports, impl.mClientCbs.mOnClientAddedCb,
        impl.connectionChangeCb matchedUri⟩)

/-- The target beyond the matched uri, or beyond the longest allowed one if none matched. -/
def uriAppend (impl : CImpl) (matchedUri path target : Bytes) : Bytes :=
  let base := if matchedUri.isEmpty then
      (impl.allowedUris.getD []).foldl (fun base allowed =>
        if uriMatches allowed path && base.length < allowed.length then allowed else base) []
    else matchedUri
  substr target (min base.length target.length) none

def addUri (impl : CImpl) (uri : Bytes) (callbacks : CUriCallbacks) : CImpl :=
  { impl with mUris := impl.mUris.insert uri callbacks }

def removeUri (impl : CImpl) (uri : Bytes) : CImpl :=
  { impl with mUris := impl.mUris.erase uri }

/-- The two callbacks `LookupReceiveCallbacks` finds, `pick` and `pickUri` naming the kind. -/
def lookupReceiveCallbacks (impl : CImpl) (clientId : UInt32) (pick : CClientCallbacks → Option Fn)
    (pickUri : CUriCallbacks → Option Fn) : Option Fn × Option Fn :=
  (pick impl.mClientCbs, match impl.mClients[clientId]? with
    | none => none
    | some entry => if entry.uri.isEmpty then none else impl.mUris[entry.uri]?.bind pickUri)

def findHttpHandler (impl : CImpl) (path : Bytes) : Option Fn :=
  let matched := impl.longestUriMatchLocked path
  if matched.isEmpty then none else impl.mUris[matched]?.bind CUriCallbacks.mOnRequestReceivedCb

def upgradeAllowed (impl : CImpl) (path : Bytes) : Bool :=
  match impl.allowedUris with
  | none => true
  | some uris => uris.any (uriMatches · path)

/-- The session a `SendToClient` finds. -/
def findSession (impl : CImpl) (clientId : UInt32) : Option Nat :=
  impl.mClients[clientId]?.map SClientEntry.session

/-- The sessions a `Broadcast` reaches, in the order of the map. -/
def broadcastTargets (impl : CImpl) (uri : Option Bytes) : List Nat :=
  (impl.mClients.toList.filter fun e => match uri with
    | none => true
    | some u => e.2.uri == u).map fun e => e.2.session

def anyClients (impl : CImpl) : Option Bytes → Bool
  | none => !impl.mClients.isEmpty
  | some uri => match impl.mUriCounts[uri]? with
    | none => false
    | some n => 0 < n

variable {impl impl' : CImpl}

/-- What a registration that is not rejected did. -/
structure Registers (impl impl' : CImpl) (session : Nat) (path : Bytes) (isSsl : Bool) (r : Registration) :
    Prop where
  accepted : impl.rejects = false
  clientId : r.clientId = impl.mNextConnectionId
  matchedUri : r.matchedUri = impl.longestUriMatchLocked path
  uriCount : r.matchedUri ≠ [] → r.uriCount = impl.uriCount r.matchedUri + 1
  stamp : r.stamp = impl.reports
  connectionChangeCb : r.connectionChangeCb = impl.connectionChangeCb r.matchedUri
  mClients : impl'.mClients =
    impl.mClients.insert r.clientId ⟨session, r.matchedUri, isSsl, impl.allocated + 1⟩
  mUriCounts : impl'.mUriCounts =
    if r.matchedUri.isEmpty then impl.mUriCounts else impl.mUriCounts.insert r.matchedUri r.uriCount
  mUris : impl'.mUris = impl.mUris
  mNextConnectionId : impl'.mNextConnectionId = impl.mNextConnectionId + 1
  allocated : impl'.allocated = impl.allocated + 1
  reports : impl'.reports = impl.reports + 1

theorem registerWsClientLocked_inv {session : Nat} {path : Bytes} {isSsl : Bool} {r : Registration}
    (done : impl.registerWsClientLocked session path isSsl = some (impl', r)) :
    Registers impl impl' session path isSsl r := by
  unfold registerWsClientLocked at done
  split at done
  next => cases done
  next accepted =>
    cases done
    refine ⟨by simpa using accepted, rfl, rfl, fun nonempty => ?_, rfl, rfl, rfl, rfl, rfl, rfl, rfl,
      rfl⟩
    simp only at nonempty
    simp only [List.isEmpty_iff, if_neg nonempty]

theorem registerWsClientLocked_none {session : Nat} {path : Bytes} {isSsl : Bool} :
    impl.registerWsClientLocked session path isSsl = none ↔ impl.rejects = true := by
  unfold registerWsClientLocked
  split
  · next h => simpa using h
  · next h => simpa using h

end CImpl

end Websockets
