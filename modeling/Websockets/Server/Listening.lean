import Websockets.Lib.Tasks
import Websockets.Server.Registry

/-!
# Listening and accepting

`Start` makes an acceptor on a strand of its own, installs it under the lock and starts the first `async_accept`;
every completion starts the next. `Stop` takes the acceptor out of `mAcceptor` and posts its `close` to that strand, so
an old acceptor and the one of a later `Start` may be there at once. An accepted socket becomes an http connection,
plain or ssl, or a `CDetectSession` that reads the first bytes to tell.

The calls of the application are tasks cut at the lock, as in the rest of the server; here are their pieces that
concern acceptors. What `Start` does before the lock may throw, and finds a free port itself for port 0. An
`async_accept` is cancelled only by `close`, and one on a closed acceptor fails. The server is gone only after
its destructor, with no call in progress. `hello` is what `async_detect_ssl` makes of the bytes read so far.
-/

namespace Websockets

open Lib

/-- An accepted socket, by what its peer will send. -/
structure Socket where
  peer : Nat
  incoming : Bytes
  deriving DecidableEq

namespace Listening

/-- A handler on an acceptor's strand. -/
inductive AcceptTask where
  | onAccept (result : Except ErrorCode Socket)
  | close

structure Acceptor where
  port : Nat
  isOpen : Bool := true
  /-- `async_accept`s that have not completed. -/
  pending : Nat := 0
  strand : List AcceptTask := []

/-- What an accepted socket has become. -/
inductive Stage where
  /-- A `CDetectSession`. -/
  | detecting
  /-- A `CHttpConnection`, with what its buffer held at first. -/
  | serving (isSsl : Bool) (buffer : Bytes)
  | failed
  deriving DecidableEq

structure Connection where
  acceptor : Nat
  socket : Socket
  stage : Stage

inductive Event where
  | accepted (a : Nat) (socket : Socket)
  | connected (a : Nat) (socket : Socket)
  | dropped (a : Nat) (socket : Socket)
  | closed (a : Nat)
  deriving DecidableEq

/-- The pieces of the calls. -/
inductive Piece where
  | start (port : Nat) (clientCbs : CClientCallbacks)
  | listen (port : Nat) (clientCbs : CClientCallbacks)
  | startLocked (a : Nat) (clientCbs : CClientCallbacks)
  | doAccept (a : Nat)
  | shutdown
  | stop
  | postClose (a : Nat)
  deriving DecidableEq

end Listening

structure Listening where
  impl : CImpl := {}
  /-- `mSettings.sslContext`: an optional of a pointer. -/
  sslContext : Option (Option Nat)
  sslRequired : Bool
  /-- `impl.mAcceptor`, by its place in `acceptors`. -/
  mAcceptor : Option Nat := none
  acceptors : List Listening.Acceptor := []
  connections : List Listening.Connection := []
  /-- A weak reference still finds the server. -/
  alive : Bool := true
  log : List Listening.Event := []

namespace Listening

abbrev Calls := Lib.Tasks Listening Unit Piece

def record (s : Listening) (e : Event) : Listening := { s with log := s.log ++ [e] }

def mapAcceptor (s : Listening) (a : Nat) (f : Acceptor → Acceptor) : Listening :=
  { s with acceptors := s.acceptors.modify a f }

def Acceptor.post (acc : Acceptor) (task : AcceptTask) : Acceptor := { acc with strand := acc.strand ++ [task] }

def Acceptor.asyncAccept (acc : Acceptor) : Acceptor := { acc with pending := acc.pending + 1 }

def Acceptor.completed (acc : Acceptor) (result : Except ErrorCode Socket) : Acceptor :=
  { acc with pending := acc.pending - 1, strand := acc.strand ++ [.onAccept result] }

def Acceptor.close (acc : Acceptor) : Acceptor := { acc with isOpen := false }

def doAccept (s : Listening) (a : Nat) : Listening := s.mapAcceptor a .asyncAccept

/-- `OnAccept`. -/
def onAccept (s : Listening) (a : Nat) (socket : Socket) : Listening :=
  let stage := match s.sslContext with
    | some (some _) => if s.sslRequired then .serving true [] else .detecting
    | _ => .serving false []
  record { s with connections := s.connections ++ [⟨a, socket, stage⟩] } (.connected a socket)

/-- The handler of `async_accept`. -/
def onAccepted (s : Listening) (a : Nat) (isOpen : Bool) (result : Except ErrorCode Socket) : Listening :=
  if !s.alive || !isOpen then
    match result with
    | .ok socket => s.record (.dropped a socket)
    | .error _ => s
  else match result with
    | .error ec => if ec = .operationAborted then s else s.doAccept a
    | .ok socket => (s.onAccept a socket).doAccept a

/-- One piece of a call. `bound` is the port `listen` gets, or `none` where it throws. -/
def perform (bound : Option Nat) (c : Calls) (_ : Nat) (p : Piece) : Option (Listening × List Piece) :=
  let s := c.shared
  match p with
  | .start port clientCbs => some (s, if s.impl.mShutdown then [] else [.listen port clientCbs])
  | .listen port clientCbs =>
    match bound with
    | none => some (s, [])
    | some p =>
      if p ≠ 0 ∧ (port = 0 ∨ port = p) then
        some ({ s with acceptors := s.acceptors ++ [{ port := p }] }, [.startLocked s.acceptors.length clientCbs])
      else none
  | .startLocked a clientCbs =>
    s.acceptors[a]?.map fun acc =>
      match s.impl.startLocked acc.port clientCbs with
      -- "already started": the new acceptor goes
      | none => (s.mapAcceptor a .close, [])
      | some impl => ({ s with impl := impl, mAcceptor := some a }, [.doAccept a])
  | .doAccept a => some (s.doAccept a, [])
  | .shutdown =>
    some (if s.impl.mShutdown then (s, []) else ({ s with impl := { s.impl with mShutdown := true } }, [.stop]))
  | .stop => some ({ s with impl := s.impl.stopLocked.1, mAcceptor := none }, s.mAcceptor.toList.map .postClose)
  | .postClose a => some (s.mapAcceptor a (·.post .close), [])

inductive Label where
  | start (port : Nat) (clientCbs : CClientCallbacks)
  | stop
  | shutdown
  | run (i : Nat) (bound : Option Nat)
  /-- An `async_accept` of acceptor `a` completes. -/
  | complete (a : Nat) (result : Except ErrorCode Socket)
  /-- The strand of acceptor `a` runs its next handler. -/
  | strand (a : Nat)
  /-- `async_detect_ssl` of a connection completes after reading `n` bytes. -/
  | detected (k : Nat) (ec : Option ErrorCode) (n : Nat)
  | serverGone

/-- An `async_accept` may complete so. -/
def Acceptor.completes (acc : Acceptor) : Except ErrorCode Socket → Bool
  | .ok _ => acc.isOpen
  | .error ec => decide (ec = .operationAborted → acc.isOpen = false)

def complete (s : Listening) (a : Nat) (result : Except ErrorCode Socket) : Option Listening :=
  s.acceptors[a]?.bind fun acc =>
    if 0 < acc.pending && acc.completes result then
      let s := s.mapAcceptor a (·.completed result)
      some (match result with
        | .ok socket => s.record (.accepted a socket)
        | .error _ => s)
    else none

def runStrand (s : Listening) (a : Nat) : Option Listening :=
  s.acceptors[a]?.bind fun acc =>
    match acc.strand with
    | [] => none
    | task :: rest =>
      let s := s.mapAcceptor a ({ · with strand := rest })
      match task with
      | .onAccept result => some (s.onAccepted a acc.isOpen result)
      | .close => some ((s.mapAcceptor a .close).record (.closed a))

def setStage (s : Listening) (k : Nat) (stage : Stage) : Listening :=
  { s with connections := s.connections.modify k ({ · with stage := stage }) }

/-- The handler of `async_detect_ssl`: the bytes read so far go on to the connection. -/
def detected (hello : Bytes → Option Bool) (s : Listening) (k : Nat) (ec : Option ErrorCode) (n : Nat) : Option Listening :=
  s.connections[k]?.bind fun conn =>
    if conn.stage = .detecting then
      let read := conn.socket.incoming.take n
      match ec with
      | some _ => some (s.setStage k .failed)
      | none => (hello read).map fun isSsl => s.setStage k (.serving isSsl read)
    else none

def step (hello : Bytes → Option Bool) (c : Calls) : Label → Option Calls
  | .start port clientCbs => if c.shared.alive then some (c.spawn () [.start port clientCbs]) else none
  | .stop => if c.shared.alive then some (c.spawn () [.stop]) else none
  | .shutdown => if c.shared.alive then some (c.spawn () [.shutdown]) else none
  | .run i bound => c.run (perform bound) i
  | .complete a result => (c.shared.complete a result).map fun s => { c with shared := s }
  | .strand a => (c.shared.runStrand a).map fun s => { c with shared := s }
  | .detected k ec n => (c.shared.detected hello k ec n).map fun s => { c with shared := s }
  | .serverGone =>
    if c.shared.impl.mShutdown = true ∧ c.quiet then some { c with shared := { c.shared with alive := false } } else none

/-- Every interleaving of the calls, the acceptors' strands and what peers do. -/
def system (hello : Bytes → Option Bool) : Lib.System Calls Label := ⟨step hello⟩

def create (sslContext : Option (Option Nat)) (sslRequired : Bool) : Calls :=
  ⟨{ sslContext := sslContext, sslRequired := sslRequired }, []⟩

/-! ## One accept for each open acceptor -/

def Piece.startsAt (a : Nat) : Piece → Bool
  | startLocked b _ => a == b
  | _ => false

def Piece.acceptsAt (a : Nat) : Piece → Bool
  | doAccept b => a == b
  | _ => false

def Piece.closesAt (a : Nat) : Piece → Bool
  | postClose b => a == b
  | _ => false

def AcceptTask.isAccept : AcceptTask → Bool
  | onAccept _ => true
  | close => false

def AcceptTask.isClose : AcceptTask → Bool
  | onAccept _ => false
  | close => true

/-- The `async_accept`s of an acceptor whose handler has not run. -/
def Acceptor.accepts (acc : Acceptor) : Nat := acc.pending + acc.strand.countP AcceptTask.isAccept

def Acceptor.closing (acc : Acceptor) : Nat := acc.strand.countP AcceptTask.isClose

/-- Where an acceptor is. `starts`, `accepts` and `closes` count the pieces of calls that are about it. -/
structure Placed (s : Listening) (a starts accepts closes : Nat) (acc : Acceptor) : Prop where
  /-- About to be installed, installed, or at one of the stages of its end. -/
  place : starts + (if s.mAcceptor = some a then 1 else 0) + closes + acc.closing + (!acc.isOpen).toNat = 1
  one : starts + accepts + acc.accepts ≤ 1
  goes : s.alive = true → acc.isOpen = true → 1 ≤ starts + accepts + acc.accepts
  aborted : .onAccept (.error .operationAborted) ∈ acc.strand → acc.isOpen = false

structure Balanced (s : Listening) (starts accepts closes : Nat → Nat) : Prop where
  placed : ∀ a acc, s.acceptors[a]? = some acc → Placed s a (starts a) (accepts a) (closes a) acc
  beyond : ∀ a, s.acceptors.length ≤ a → starts a = 0 ∧ accepts a = 0 ∧ closes a = 0 ∧ s.mAcceptor ≠ some a
  installed : s.impl.mAcceptor = s.mAcceptor.bind fun a => s.acceptors[a]?.map Acceptor.port
  mPort : s.impl.mPort = s.impl.mAcceptor.getD 0

/-- **The balance** of a state. -/
def Inv (c : Calls) : Prop :=
  Balanced c.shared (fun a => c.count (Piece.startsAt a)) (fun a => c.count (Piece.acceptsAt a))
    fun a => c.count (Piece.closesAt a)

variable {c c' : Calls} {s s' : Listening} {i a : Nat} {p : Piece} {outs rest : List Piece} {bound : Option Nat}
  {starts accepts closes starts' accepts' closes' : Nat → Nat} {acc : Acceptor} {l : Label} {ls : List Label}
  {hello : Bytes → Option Bool}

/-- One acceptor changes, and the pieces that are about it. -/
theorem Balanced.change (bal : Balanced s starts accepts closes) (f : Acceptor → Acceptor)
    (acceptors : s'.acceptors = s.acceptors.modify a f) (port : ∀ acc, (f acc).port = acc.port)
    (mAcceptor : s'.mAcceptor = s.mAcceptor) (impl : s'.impl = s.impl) (alive : s'.alive = s.alive)
    (others : ∀ b, b ≠ a → starts' b = starts b ∧ accepts' b = accepts b ∧ closes' b = closes b)
    (here : a < s.acceptors.length) (changed : ∀ acc, s.acceptors[a]? = some acc →
      Placed s a (starts a) (accepts a) (closes a) acc → Placed s a (starts' a) (accepts' a) (closes' a) (f acc)) :
    Balanced s' starts' accepts' closes' := by
  have same : ∀ b n m k acc, Placed s b n m k acc → Placed s' b n m k acc := by
    rintro b n m k acc ⟨place, one, goes, aborted⟩
    exact ⟨by rw [mAcceptor]; exact place, one, by rw [alive]; exact goes, aborted⟩
  refine ⟨fun b acc found => ?_, fun b past => ?_, ?_, by rw [impl]; exact bal.mPort⟩
  · rw [acceptors, List.getElem?_modify] at found
    obtain ⟨old, at', rfl⟩ := Option.map_eq_some_iff.1 found
    by_cases eq : a = b
    · subst eq
      rw [if_pos rfl]
      exact same _ _ _ _ _ (changed old at' (bal.placed a old at'))
    · rw [if_neg eq]
      obtain ⟨e₁, e₂, e₃⟩ := others b (Ne.symm eq)
      rw [e₁, e₂, e₃]
      exact same _ _ _ _ _ (bal.placed b old at')
  · rw [acceptors, List.length_modify] at past
    obtain ⟨e₁, e₂, e₃⟩ := others b (by omega)
    rw [e₁, e₂, e₃, mAcceptor]
    exact bal.beyond b past
  · rw [impl, mAcceptor, acceptors, bal.installed]
    congr 1
    funext b
    rw [List.getElem?_modify, Option.map_eq_map, Option.map_map]
    congr 1
    funext acc
    by_cases eq : a = b
    · simp [eq, port]
    · simp [eq]

/-- Nothing changes that the balance is about. -/
theorem Balanced.congr (bal : Balanced s starts accepts closes) (acceptors : s'.acceptors = s.acceptors)
    (mAcceptor : s'.mAcceptor = s.mAcceptor) (impl : s'.impl.mAcceptor = s.impl.mAcceptor)
    (mPort : s'.impl.mPort = s.impl.mPort) (alive : s'.alive = true → s.alive = true)
    (pieces : ∀ b, starts' b = starts b ∧ accepts' b = accepts b ∧ closes' b = closes b) :
    Balanced s' starts' accepts' closes' := by
  refine ⟨fun b acc found => ?_, fun b past => ?_, ?_, ?_⟩
  · rw [acceptors] at found
    obtain ⟨e₁, e₂, e₃⟩ := pieces b
    obtain ⟨place, one, goes, aborted⟩ := bal.placed b acc found
    rw [e₁, e₂, e₃]
    exact ⟨by rw [mAcceptor]; exact place, one, fun h => goes (alive h), aborted⟩
  · rw [acceptors] at past
    obtain ⟨e₁, e₂, e₃⟩ := pieces b
    rw [e₁, e₂, e₃, mAcceptor]
    exact bal.beyond b past
  · rw [impl, mAcceptor, acceptors, bal.installed]
  · rw [mPort, impl, bal.mPort]

/-- `listen` makes an acceptor. -/
theorem Balanced.opens (port : Nat) (bal : Balanced s starts accepts closes)
    (new : ∀ b, starts' b = starts b + if b = s.acceptors.length then 1 else 0) :
    Balanced { s with acceptors := s.acceptors ++ [{ port := port }] } starts' accepts closes := by
  obtain ⟨none, none', none'', current⟩ := bal.beyond _ le_rfl
  refine ⟨fun b acc found => ?_, fun b past => ?_, ?_, bal.mPort⟩
  · rw [List.getElem?_append] at found
    split at found
    · next lt =>
      rw [new b, if_neg (Nat.ne_of_lt lt), Nat.add_zero]
      obtain ⟨place, one, goes, aborted⟩ := bal.placed b acc found
      exact ⟨place, one, goes, aborted⟩
    · have last := List.mem_singleton.1 (List.mem_of_getElem? found)
      have bound := (List.getElem?_eq_some_iff.1 found).1
      simp only [List.length_singleton] at bound
      obtain rfl : b = s.acceptors.length := by omega
      subst last
      rw [new, if_pos rfl, none, none', none'']
      exact ⟨by simp [current, Acceptor.closing], by simp [Acceptor.accepts], by simp, by simp⟩
  · simp only [List.length_append, List.length_singleton] at past
    rw [new b, if_neg (by omega), Nat.add_zero]
    exact bal.beyond b (by omega)
  · rw [bal.installed]
    cases at' : s.mAcceptor with
    | none => rfl
    | some a =>
      have lt : a < s.acceptors.length := by
        by_contra past
        exact (bal.beyond a (by omega)).2.2.2 at'
      simp only [Option.bind_some, List.getElem?_append_left lt]

/-- The lock hands `mAcceptor` on: an acceptor is installed, or taken out. -/
theorem Balanced.hands {impl : CImpl} {mAcceptor : Option Nat} (bal : Balanced s starts accepts closes)
    (installed : impl.mAcceptor = mAcceptor.bind fun a => s.acceptors[a]?.map Acceptor.port)
    (mPort : impl.mPort = impl.mAcceptor.getD 0) (known : ∀ a, mAcceptor = some a → a < s.acceptors.length)
    (beyond : ∀ b, s.acceptors.length ≤ b → starts' b = 0 ∧ accepts' b = 0 ∧ closes' b = 0)
    (place : ∀ b, starts' b + (if mAcceptor = some b then 1 else 0) + closes' b =
      starts b + (if s.mAcceptor = some b then 1 else 0) + closes b)
    (same : ∀ b, starts' b + accepts' b = starts b + accepts b) :
    Balanced { s with impl := impl, mAcceptor := mAcceptor } starts' accepts' closes' := by
  refine ⟨fun b acc found => ?_, fun b past => ?_, installed, mPort⟩
  · obtain ⟨here, one, goes, aborted⟩ := bal.placed b acc found
    have handed := place b
    have kept := same b
    refine ⟨?_, by omega, fun alive isOpen => ?_, aborted⟩
    · simp only
      omega
    · have := goes alive isOpen
      omega
  · obtain ⟨e₁, e₂, e₃⟩ := beyond b past
    exact ⟨e₁, e₂, e₃, fun at' => absurd (known b at') (Nat.not_lt.2 past)⟩

theorem Balanced.known (bal : Balanced s starts accepts closes) (at' : s.mAcceptor = some a) : a < s.acceptors.length := by
  by_contra past
  exact (bal.beyond a (by omega)).2.2.2 at'

/-- A piece about an acceptor is about one there is. -/
theorem Balanced.lt (bal : Balanced s starts accepts closes) (some : starts a + accepts a + closes a ≠ 0) :
    a < s.acceptors.length := by
  by_contra past
  obtain ⟨e₁, e₂, e₃, -⟩ := bal.beyond a (by omega)
  omega

/-- The counts of the pieces about acceptor `b` after a piece was performed. -/
theorem counts (ran : Tasks.Ran (perform bound) c i c' () p rest outs) (b : Nat) :
    c'.count (Piece.startsAt b) + (if p.startsAt b then 1 else 0) = c.count (Piece.startsAt b) + outs.countP (Piece.startsAt b) ∧
      c'.count (Piece.acceptsAt b) + (if p.acceptsAt b then 1 else 0) =
        c.count (Piece.acceptsAt b) + outs.countP (Piece.acceptsAt b) ∧
      c'.count (Piece.closesAt b) + (if p.closesAt b then 1 else 0) =
        c.count (Piece.closesAt b) + outs.countP (Piece.closesAt b) :=
  ⟨ran.count _, ran.count _, ran.count _⟩

theorem startLocked_inv {impl impl' : CImpl} {port : Nat} {clientCbs : CClientCallbacks}
    (done : impl.startLocked port clientCbs = some impl') :
    impl.mAcceptor = none ∧ impl'.mAcceptor = some port ∧ impl'.mPort = port := by
  unfold CImpl.startLocked at done
  split at done
  · cases done
  · next free =>
    cases done
    exact ⟨by simpa using free, rfl, rfl⟩

theorem stopLocked_inv (impl : CImpl) : impl.stopLocked.1.mAcceptor = none ∧ impl.stopLocked.1.mPort = 0 := ⟨rfl, rfl⟩

/-- A call moves on. -/
theorem Inv.ran (inv : Inv c) (ran : Tasks.Ran (perform bound) c i c' () p rest outs) : Inv c' := by
  have moved := counts ran
  have done := ran.action
  generalize after : c'.shared = s' at done
  unfold Inv
  rw [after]
  cases p with
  | start port clientCbs =>
    obtain ⟨rfl, rfl⟩ := Prod.mk.inj (Option.some.inj done)
    refine inv.congr rfl rfl rfl rfl id fun b => ?_
    have := moved b
    split at this <;> simp_all [Piece.startsAt, Piece.acceptsAt, Piece.closesAt]
  | listen port clientCbs =>
    simp only [perform] at done
    split at done
    · cases done
      refine inv.congr rfl rfl rfl rfl id fun b => ?_
      have := moved b
      simp_all [Piece.startsAt, Piece.acceptsAt, Piece.closesAt]
    · split at done
      · next port' bound =>
        cases done
        have opens : ∀ b, c'.count (Piece.startsAt b) =
            c.count (Piece.startsAt b) + if b = c.shared.acceptors.length then 1 else 0 := by
          intro b
          have := (moved b).1
          simpa [Piece.startsAt, List.countP_cons] using this
        refine (Balanced.opens port' inv opens).congr rfl rfl rfl rfl id fun b => ?_
        have := moved b
        simp_all [Piece.startsAt, Piece.acceptsAt, Piece.closesAt]
      · cases done
  | startLocked a clientCbs =>
    have here : a < c.shared.acceptors.length := by
      refine inv.lt (a := a) ?_
      have : 0 < c.count (Piece.startsAt a) := Tasks.count_pos ran.at_head (beq_self_eq_true a)
      omega
    obtain ⟨acc, found⟩ : ∃ acc, c.shared.acceptors[a]? = some acc := ⟨_, List.getElem?_eq_getElem here⟩
    simp only [perform, found, Option.map_some, Option.some.injEq] at done
    split at done
    · -- the acceptor goes
      obtain ⟨rfl, rfl⟩ := Prod.mk.inj done
      simp only [Piece.startsAt, Piece.acceptsAt, Piece.closesAt, List.countP_nil, Nat.add_zero, Bool.false_eq_true, if_false,
        beq_iff_eq] at moved
      refine inv.change .close rfl (fun _ => rfl) rfl rfl rfl (fun b other => ?_) here fun acc _ placed => ?_
      · have := moved b
        rw [if_neg other] at this
        exact this
      · have := moved a
        rw [if_pos rfl] at this
        obtain ⟨place, one, goes, aborted⟩ := placed
        have isOpen : acc.isOpen = true := by
          cases isOpen : acc.isOpen with
          | true => rfl
          | false =>
            rw [isOpen] at place
            simp only [Bool.not_false, Bool.toNat_true] at place
            omega
        rw [isOpen] at place
        simp only [Bool.not_true, Bool.toNat_false] at place
        refine ⟨?_, ?_, (fun _ h => nomatch h), fun _ => rfl⟩
        · simp only [Acceptor.close, Bool.not_false, Bool.toNat_true]
          change _ + _ + _ + acc.closing + 1 = 1
          omega
        · change _ + _ + acc.accepts ≤ 1
          omega
    · next impl started =>
      obtain ⟨rfl, rfl⟩ := Prod.mk.inj done
      obtain ⟨free, installed, mPort⟩ := startLocked_inv started
      have none : c.shared.mAcceptor = none := by
        cases at' : c.shared.mAcceptor with
        | none => rfl
        | some b =>
          have lt := inv.known at'
          rw [inv.installed, at', Option.bind_some, List.getElem?_eq_getElem lt] at free
          cases free
      simp only [Piece.startsAt, Piece.acceptsAt, Piece.closesAt, List.countP_cons, List.countP_nil, Nat.add_zero,
        Bool.false_eq_true, if_false, beq_iff_eq] at moved
      refine inv.hands ?_ ?_ ?_ ?_ ?_ ?_
      · rw [installed, Option.bind_some, found, Option.map_some]
      · rw [mPort, installed, Option.getD_some]
      · rintro b ⟨⟩
        exact here
      · intro b past
        have := moved b
        have beyond := inv.beyond b past
        rw [if_neg (by omega)] at this
        omega
      · intro b
        have := moved b
        rw [none]
        simp only [Option.some.injEq, reduceCtorEq, if_false]
        by_cases same : b = a
        · subst same
          simp only [if_true] at this ⊢
          omega
        · rw [if_neg same] at this
          rw [if_neg (Ne.symm same)]
          omega
      · intro b
        have := moved b
        omega
  | doAccept a =>
    obtain ⟨rfl, rfl⟩ := Prod.mk.inj (Option.some.inj done)
    simp only [Piece.startsAt, Piece.acceptsAt, Piece.closesAt, List.countP_nil, Nat.add_zero, Bool.false_eq_true, if_false,
      beq_iff_eq] at moved
    have pending : 0 < c.count (Piece.acceptsAt a) := Tasks.count_pos ran.at_head (beq_self_eq_true a)
    refine inv.change .asyncAccept rfl (fun _ => rfl) rfl rfl rfl (fun b other => ?_) (inv.lt (by omega)) fun acc _ placed => ?_
    · have := moved b
      rw [if_neg other] at this
      exact this
    · have := moved a
      rw [if_pos rfl] at this
      obtain ⟨place, one, goes, aborted⟩ := placed
      refine ⟨?_, ?_, fun alive isOpen => ?_, aborted⟩
      · change _ + _ + _ + acc.closing + (!acc.isOpen).toNat = 1
        omega
      · simp only [Acceptor.accepts, Acceptor.asyncAccept] at one ⊢
        omega
      · have := goes alive isOpen
        simp only [Acceptor.accepts, Acceptor.asyncAccept] at this ⊢
        omega
  | shutdown =>
    obtain done := Option.some.inj done
    have same : s'.acceptors = c.shared.acceptors ∧ s'.mAcceptor = c.shared.mAcceptor ∧
        s'.impl.mAcceptor = c.shared.impl.mAcceptor ∧ s'.impl.mPort = c.shared.impl.mPort ∧ s'.alive = c.shared.alive := by
      split at done <;> cases done <;> exact ⟨rfl, rfl, rfl, rfl, rfl⟩
    refine inv.congr same.1 same.2.1 same.2.2.1 same.2.2.2.1 (fun h => same.2.2.2.2.symm.trans h) fun b => ?_
    have := moved b
    split at done <;> cases done <;> simp_all [Piece.startsAt, Piece.acceptsAt, Piece.closesAt]
  | stop =>
    obtain ⟨rfl, rfl⟩ := Prod.mk.inj (Option.some.inj done)
    refine inv.hands rfl rfl (fun _ h => nomatch h) (fun b past => ?_) (fun b => ?_) fun b => ?_
    · have := moved b
      obtain ⟨e₁, e₂, e₃, current⟩ := inv.beyond b past
      cases at' : c.shared.mAcceptor <;>
        simp_all [Piece.startsAt, Piece.acceptsAt, Piece.closesAt, List.countP_cons]
      omega
    · have := moved b
      cases at' : c.shared.mAcceptor <;>
        simp_all [Piece.startsAt, Piece.acceptsAt, Piece.closesAt, List.countP_cons]
      split <;> split <;> omega
    · have := moved b
      cases at' : c.shared.mAcceptor <;>
        simp_all [Piece.startsAt, Piece.acceptsAt, Piece.closesAt, List.countP_cons]
  | postClose a =>
    obtain ⟨rfl, rfl⟩ := Prod.mk.inj (Option.some.inj done)
    simp only [Piece.startsAt, Piece.acceptsAt, Piece.closesAt, List.countP_nil, Nat.add_zero, Bool.false_eq_true, if_false,
      beq_iff_eq] at moved
    have pending : 0 < c.count (Piece.closesAt a) := Tasks.count_pos ran.at_head (beq_self_eq_true a)
    refine inv.change (·.post .close) rfl (fun _ => rfl) rfl rfl rfl (fun b other => ?_) (inv.lt (by omega))
      fun acc _ placed => ?_
    · have := moved b
      rw [if_neg other] at this
      exact this
    · have := moved a
      rw [if_pos rfl] at this
      obtain ⟨place, one, goes, aborted⟩ := placed
      have same : (acc.post .close).accepts = acc.accepts := by
        simp [Acceptor.accepts, Acceptor.post, AcceptTask.isAccept, List.countP_append]
      have more : (acc.post .close).closing = acc.closing + 1 := by
        simp [Acceptor.closing, Acceptor.post, AcceptTask.isClose, List.countP_append]
      refine ⟨?_, by rw [same]; omega, fun alive isOpen => ?_, fun mem => ?_⟩
      · rw [more]
        change _ + _ + _ + _ + (!acc.isOpen).toNat = 1
        omega
      · rw [same]
        have := goes alive isOpen
        omega
      · exact aborted ((List.mem_append.1 mem).resolve_right (by simp))

/-- What the handler of `async_accept` does. -/
inductive Handles (s : Listening) (a : Nat) (isOpen : Bool) : Except ErrorCode Socket → Listening → Prop
  | drops {socket} (past : s.alive = false ∨ isOpen = false) : Handles s a isOpen (.ok socket) (s.record (.dropped a socket))
  | ends {ec} (past : s.alive = false ∨ isOpen = false) : Handles s a isOpen (.error ec) s
  | aborted (alive : s.alive = true) (opened : isOpen = true) : Handles s a isOpen (.error .operationAborted) s
  | retries {ec} (alive : s.alive = true) (opened : isOpen = true) (other : ec ≠ .operationAborted) :
      Handles s a isOpen (.error ec) (s.doAccept a)
  | accepts {socket} (alive : s.alive = true) (opened : isOpen = true) :
      Handles s a isOpen (.ok socket) ((s.onAccept a socket).doAccept a)

theorem onAccepted_handles (s : Listening) (a : Nat) (isOpen : Bool) (result : Except ErrorCode Socket) :
    Handles s a isOpen result (s.onAccepted a isOpen result) := by
  unfold onAccepted
  split
  · next past =>
    have past : s.alive = false ∨ isOpen = false := by simpa using past
    cases result with
    | ok socket => exact .drops past
    | error ec => exact .ends past
  · next going =>
    obtain ⟨alive, opened⟩ : s.alive = true ∧ isOpen = true := by simpa using going
    cases result with
    | ok socket => exact .accepts alive opened
    | error ec =>
      simp only
      split
      · next same => subst same; exact .aborted alive opened
      · next other => exact .retries alive opened other

/-- What the environment and the strands do. -/
inductive Moves (hello : Bytes → Option Bool) (s : Listening) : Label → Listening → Prop
  | arrives {a : Nat} {acc : Acceptor} {socket} (found : s.acceptors[a]? = some acc) (pending : 0 < acc.pending)
      (opened : acc.isOpen = true) :
      Moves hello s (.complete a (.ok socket)) ((s.mapAcceptor a (·.completed (.ok socket))).record (.accepted a socket))
  | refused {a : Nat} {acc : Acceptor} {ec} (found : s.acceptors[a]? = some acc) (pending : 0 < acc.pending)
      (aborted : ec = .operationAborted → acc.isOpen = false) :
      Moves hello s (.complete a (.error ec)) (s.mapAcceptor a (·.completed (.error ec)))
  | accepted {a : Nat} {acc : Acceptor} {result later} {s' : Listening} (found : s.acceptors[a]? = some acc) (strand : acc.strand = .onAccept result :: later)
      (handles : Handles (s.mapAcceptor a ({ · with strand := later })) a acc.isOpen result s') :
      Moves hello s (.strand a) s'
  | closes {a : Nat} {acc : Acceptor} {later} (found : s.acceptors[a]? = some acc) (strand : acc.strand = .close :: later) :
      Moves hello s (.strand a)
        (((s.mapAcceptor a ({ · with strand := later })).mapAcceptor a .close).record (.closed a))
  | fails {k conn ec n} (found : s.connections[k]? = some conn) (detecting : conn.stage = .detecting) :
      Moves hello s (.detected k (some ec) n) (s.setStage k .failed)
  | tells {k conn isSsl n} (found : s.connections[k]? = some conn) (detecting : conn.stage = .detecting)
      (read : hello (conn.socket.incoming.take n) = some isSsl) :
      Moves hello s (.detected k none n) (s.setStage k (.serving isSsl (conn.socket.incoming.take n)))

def Label.isCall : Label → Bool
  | start _ _ => true
  | stop => true
  | shutdown => true
  | _ => false

/-- A step is a piece of a call, a new call, the end of the server, or one of those moves. -/
inductive Steps (hello : Bytes → Option Bool) (c : Calls) : Label → Calls → Prop
  | run {i : Nat} {bound : Option Nat} {c' : Calls} {p : Piece} {rest outs : List Piece} (ran : Tasks.Ran (perform bound) c i c' () p rest outs) : Steps hello c (.run i bound) c'
  | begins {l : Label} {p : Piece} (call : l.isCall = true) (alive : c.shared.alive = true)
      (calls : ∀ b, p.startsAt b = false ∧ p.acceptsAt b = false ∧ p.closesAt b = false) :
      Steps hello c l (c.spawn () [p])
  | moves {l : Label} {s' : Listening} (moves : Moves hello c.shared l s') : Steps hello c l { c with shared := s' }
  | gone (down : c.shared.impl.mShutdown = true) (quiet : c.quiet) :
      Steps hello c .serverGone { c with shared := { c.shared with alive := false } }

/-- **`step` does what `Steps` says.** -/
theorem step_steps (step : step hello c l = some c') : Steps hello c l c' := by
  cases l with
  | start port clientCbs | stop | shutdown =>
    simp only [Listening.step] at step
    split at step
    · next alive => cases step; exact .begins rfl alive fun b => ⟨rfl, rfl, rfl⟩
    · cases step
  | run i bound =>
    obtain ⟨⟨⟩, p, rest, outs, ran⟩ := Tasks.run_inv step
    exact .run ran
  | complete a result =>
    obtain ⟨s', done, rfl⟩ := Option.map_eq_some_iff.1 step
    obtain ⟨acc, found, done⟩ := Option.bind_eq_some_iff.1 done
    split at done
    · next can =>
      obtain ⟨pending, completes⟩ := Bool.and_eq_true_iff.1 can
      cases result with
      | ok socket =>
        obtain rfl := Option.some.inj done
        exact .moves (.arrives found (of_decide_eq_true pending) completes)
      | error ec =>
        obtain rfl := Option.some.inj done
        exact .moves (.refused found (of_decide_eq_true pending) (of_decide_eq_true completes))
    · cases done
  | strand a =>
    obtain ⟨s', done, rfl⟩ := Option.map_eq_some_iff.1 step
    obtain ⟨acc, found, done⟩ := Option.bind_eq_some_iff.1 done
    split at done
    · cases done
    · next task rest strand =>
      cases task with
      | onAccept result =>
        obtain rfl := Option.some.inj done
        exact .moves (.accepted found strand (onAccepted_handles _ a acc.isOpen result))
      | close =>
        obtain rfl := Option.some.inj done
        exact .moves (.closes found strand)
  | detected k ec n =>
    obtain ⟨s', done, rfl⟩ := Option.map_eq_some_iff.1 step
    obtain ⟨conn, found, done⟩ := Option.bind_eq_some_iff.1 done
    split at done
    · next detecting =>
      cases ec with
      | some ec =>
        obtain rfl := Option.some.inj done
        exact .moves (.fails found detecting)
      | none =>
        obtain ⟨isSsl, read, rfl⟩ := Option.map_eq_some_iff.1 done
        exact .moves (.tells found detecting read)
    · cases done
  | serverGone =>
    simp only [Listening.step] at step
    split at step
    · next can => cases step; exact .gone can.1 can.2
    · cases step

theorem Acceptor.completed_accepts {result : Except ErrorCode Socket} (pending : 0 < acc.pending) :
    (acc.completed result).accepts = acc.accepts := by
  simp only [accepts, completed, List.countP_append, List.countP_cons, List.countP_nil, AcceptTask.isAccept, if_true]
  omega

theorem Acceptor.completed_closing (acc : Acceptor) (result : Except ErrorCode Socket) :
    (acc.completed result).closing = acc.closing := by
  simp [closing, completed, AcceptTask.isClose, List.countP_append]

theorem mapAcceptor_twice (s : Listening) (a : Nat) (f g : Acceptor → Acceptor) :
    (s.mapAcceptor a f).mapAcceptor a g = s.mapAcceptor a (g ∘ f) := by
  unfold mapAcceptor
  rw [List.modify_modify_eq]

/-- A completion that is queued keeps every acceptor where it is. -/
theorem Balanced.completes (bal : Balanced s starts accepts closes) (result : Except ErrorCode Socket)
    (found : s.acceptors[a]? = some acc) (pending : 0 < acc.pending)
    (aborted : result = .error .operationAborted → acc.isOpen = false) :
    Balanced (s.mapAcceptor a (·.completed result)) starts accepts closes := by
  refine bal.change (·.completed result) rfl (fun _ => rfl) rfl rfl rfl (fun _ _ => ⟨rfl, rfl, rfl⟩)
    (List.getElem?_eq_some_iff.1 found).1 fun acc' at' placed => ?_
  cases found.symm.trans at'
  obtain ⟨place, one, goes, before⟩ := placed
  refine ⟨by rw [Acceptor.completed_closing]; exact place, by rw [Acceptor.completed_accepts pending]; exact one,
    by rw [Acceptor.completed_accepts pending]; exact goes, fun mem => ?_⟩
  rcases List.mem_append.1 mem with old | new
  · exact before old
  · cases List.mem_singleton.1 new
    exact aborted rfl

/-- The handler of a completion starts the next `async_accept`, or the acceptor is at its end. -/
theorem Balanced.handles {result : Except ErrorCode Socket} {later : List AcceptTask}
    (bal : Balanced s starts accepts closes) (found : s.acceptors[a]? = some acc)
    (strand : acc.strand = .onAccept result :: later)
    (handles : Handles (s.mapAcceptor a ({ · with strand := later })) a acc.isOpen result s') :
    Balanced s' starts accepts closes := by
  have here : a < s.acceptors.length := (List.getElem?_eq_some_iff.1 found).1
  have fewer : acc.accepts = acc.pending + (later.countP AcceptTask.isAccept + 1) := by
    rw [Acceptor.accepts, strand, List.countP_cons_of_pos rfl]
  have closing : acc.closing = later.countP AcceptTask.isClose := by
    simp [Acceptor.closing, strand, AcceptTask.isClose]
  have late : .onAccept (.error .operationAborted) ∈ later → .onAccept (.error .operationAborted) ∈ acc.strand := fun mem => by
    rw [strand]
    exact List.mem_cons_of_mem _ mem
  -- with the next `async_accept`
  have again : ∀ s' : Listening, s'.acceptors = s.acceptors.modify a (Acceptor.asyncAccept ∘ ({ · with strand := later })) →
      s'.mAcceptor = s.mAcceptor → s'.impl = s.impl → s'.alive = s.alive → Balanced s' starts accepts closes := by
    intro s' acceptors mAcceptor impl alive
    refine bal.change _ acceptors (fun _ => rfl) mAcceptor impl alive (fun _ _ => ⟨rfl, rfl, rfl⟩) here fun acc' at' placed => ?_
    cases found.symm.trans at'
    obtain ⟨place, one, goes, aborted⟩ := placed
    have same : ((Acceptor.asyncAccept ∘ ({ · with strand := later })) acc).accepts = acc.accepts := by
      rw [fewer]
      simp only [Function.comp_apply, Acceptor.asyncAccept, Acceptor.accepts]
      omega
    exact ⟨by rw [closing] at place; exact place, by rw [same]; exact one, by rw [same]; exact goes, fun mem => aborted (late mem)⟩
  -- without
  have ends : ∀ s' : Listening, s'.acceptors = s.acceptors.modify a ({ · with strand := later }) → s'.mAcceptor = s.mAcceptor →
      s'.impl = s.impl → s'.alive = s.alive → (s.alive = false ∨ acc.isOpen = false) → Balanced s' starts accepts closes := by
    intro s' acceptors mAcceptor impl alive past
    refine bal.change _ acceptors (fun _ => rfl) mAcceptor impl alive (fun _ _ => ⟨rfl, rfl, rfl⟩) here fun acc' at' placed => ?_
    cases found.symm.trans at'
    obtain ⟨place, one, goes, aborted⟩ := placed
    refine ⟨by rw [closing] at place; exact place, ?_, fun alive isOpen => ?_, fun mem => aborted (late mem)⟩
    · simp only [Acceptor.accepts] at fewer one ⊢
      omega
    · rcases past with dead | closed
      · exact absurd (alive.symm.trans dead) (by decide)
      · exact absurd ((show acc.isOpen = true from isOpen).symm.trans closed) (by decide)
  cases handles with
  | drops past => exact ends _ rfl rfl rfl rfl past
  | ends past => exact ends _ rfl rfl rfl rfl past
  | aborted alive opened =>
    have closed := (bal.placed a acc found).aborted (by rw [strand]; exact List.mem_cons_self)
    exact absurd (opened.symm.trans closed) (by decide)
  | retries alive opened other => exact again _ (by simp [doAccept, mapAcceptor, List.modify_modify_eq]) rfl rfl rfl
  | accepts alive opened => exact again _ (by simp [doAccept, mapAcceptor, onAccept, record, List.modify_modify_eq]) rfl rfl rfl

theorem Balanced.moves (bal : Balanced s starts accepts closes) (moves : Moves hello s l s') : Balanced s' starts accepts closes := by
  cases moves with
  | arrives found pending opened =>
    exact (bal.completes (.ok _) found pending (fun h => nomatch h)).congr rfl rfl rfl rfl id fun _ => ⟨rfl, rfl, rfl⟩
  | refused found pending aborted => exact bal.completes _ found pending fun same => aborted (Except.error.inj same)
  | accepted found strand handles => exact bal.handles found strand handles
  | @closes a acc later found strand =>
    rw [mapAcceptor_twice]
    refine bal.change (Acceptor.close ∘ ({ · with strand := later })) rfl (fun _ => rfl) rfl rfl rfl
      (fun _ _ => ⟨rfl, rfl, rfl⟩) (List.getElem?_eq_some_iff.1 found).1 fun acc' at' placed => ?_
    cases found.symm.trans at'
    obtain ⟨place, one, goes, aborted⟩ := placed
    have closing : acc.closing = later.countP AcceptTask.isClose + 1 := by
      rw [Acceptor.closing, strand, List.countP_cons_of_pos rfl]
    have accepts : acc.accepts = acc.pending + later.countP AcceptTask.isAccept := by
      simp [Acceptor.accepts, strand, AcceptTask.isAccept]
    have isOpen : (!acc.isOpen).toNat = 0 := by omega
    refine ⟨?_, ?_, (fun _ h => nomatch h), fun _ => rfl⟩
    · change _ + _ + _ + later.countP AcceptTask.isClose + 1 = 1
      omega
    · change _ + _ + (acc.pending + later.countP AcceptTask.isAccept) ≤ 1
      omega
  | fails found detecting => exact bal.congr rfl rfl rfl rfl id fun _ => ⟨rfl, rfl, rfl⟩
  | tells found detecting read => exact bal.congr rfl rfl rfl rfl id fun _ => ⟨rfl, rfl, rfl⟩

/-- **Every step keeps the balance.** -/
theorem Inv.step (inv : Inv c) (step : step hello c l = some c') : Inv c' := by
  cases step_steps step with
  | run ran => exact inv.ran ran
  | @begins _ p call alive calls =>
    refine Balanced.congr inv rfl rfl rfl rfl id fun b => ?_
    obtain ⟨e₁, e₂, e₃⟩ := calls b
    simp only [Tasks.count_spawn, List.countP_cons, List.countP_nil, e₁, e₂, e₃]
    exact ⟨rfl, rfl, rfl⟩
  | moves moves => exact Balanced.moves inv moves
  | gone down quiet => exact Balanced.congr inv rfl rfl rfl rfl (fun h => nomatch h) fun _ => ⟨rfl, rfl, rfl⟩

theorem create_inv (sslContext : Option (Option Nat)) (sslRequired : Bool) : Inv (create sslContext sslRequired) := by
  refine ⟨fun a acc found => ?_, fun a _ => ⟨rfl, rfl, rfl, fun h => nomatch h⟩, rfl, rfl⟩
  simp [create] at found

/-! ## Every socket accounted for -/

def acceptedAt (a : Nat) (log : List Event) : List Socket :=
  log.filterMap fun
    | .accepted b socket => if b = a then some socket else none
    | _ => none

def handledAt (a : Nat) (log : List Event) : List Socket :=
  log.filterMap fun
    | .connected b socket => if b = a then some socket else none
    | .dropped b socket => if b = a then some socket else none
    | _ => none

def connected (log : List Event) : List (Nat × Socket) :=
  log.filterMap fun
    | .connected a socket => some (a, socket)
    | _ => none

/-- The accepted sockets whose handler has not run. -/
def Acceptor.queued (acc : Acceptor) : List Socket :=
  acc.strand.filterMap fun
    | .onAccept (.ok socket) => some socket
    | _ => none

/-- What a connection is to be: plain without a context, ssl where that is required, and otherwise what the first
bytes say; those bytes are the first ones the connection gets. -/
def Routed (hello : Bytes → Option Bool) (sslContext : Option (Option Nat)) (sslRequired : Bool) (conn : Connection) : Prop :=
  match sslContext with
  | some (some _) =>
    if sslRequired then conn.stage = .serving true []
    else conn.stage = .detecting ∨ conn.stage = .failed ∨ ∃ isSsl n, hello (conn.socket.incoming.take n) = some isSsl ∧
      conn.stage = .serving isSsl (conn.socket.incoming.take n)
  | _ => conn.stage = .serving false []

/-- The close of acceptor `a` has run. -/
def Closed (s : Listening) (a : Nat) : Prop := ∃ acc, s.acceptors[a]? = some acc ∧ acc.isOpen = false

structure Accounted (hello : Bytes → Option Bool) (s : Listening) : Prop where
  /-- In the order in which they were accepted, each socket is handled once or still queued. -/
  inOrder : ∀ a acc, s.acceptors[a]? = some acc → acceptedAt a s.log = handledAt a s.log ++ acc.queued
  connections : s.connections.map (fun conn => (conn.acceptor, conn.socket)) = connected s.log
  dropped : ∀ a socket, .dropped a socket ∈ s.log → s.alive = false ∨ Closed s a
  closed : ∀ a, .closed a ∈ s.log → Closed s a
  silent : s.log.Pairwise fun x y => ∀ a socket, x = .closed a → y ≠ .connected a socket
  routed : ∀ conn ∈ s.connections, Routed hello s.sslContext s.sslRequired conn
  beyond : ∀ a, s.acceptors.length ≤ a → acceptedAt a s.log = [] ∧ handledAt a s.log = []

/-- What nothing changes that happens to the acceptors. -/
structure Aside (s s' : Listening) : Prop where
  sslContext : s'.sslContext = s.sslContext
  sslRequired : s'.sslRequired = s.sslRequired
  alive : s.alive = false → s'.alive = false
  closed : ∀ a, Closed s a → Closed s' a

theorem acceptedAt_snoc (a : Nat) (log : List Event) (e : Event) : acceptedAt a (log ++ [e]) = acceptedAt a log ++ acceptedAt a [e] :=
  List.filterMap_append
theorem handledAt_snoc (a : Nat) (log : List Event) (e : Event) : handledAt a (log ++ [e]) = handledAt a log ++ handledAt a [e] :=
  List.filterMap_append
theorem connected_snoc (log : List Event) (e : Event) : connected (log ++ [e]) = connected log ++ connected [e] :=
  List.filterMap_append

/-- Changing one acceptor, without opening it again. -/
theorem Aside.modify {f : Acceptor → Acceptor} (acceptors : s'.acceptors = s.acceptors.modify a f)
    (stays : ∀ acc, acc.isOpen = false → (f acc).isOpen = false) (sslContext : s'.sslContext = s.sslContext)
    (sslRequired : s'.sslRequired = s.sslRequired) (alive : s'.alive = s.alive) : Aside s s' := by
  refine ⟨sslContext, sslRequired, fun h => alive.trans h, ?_⟩
  rintro b ⟨acc, found, isOpen⟩
  refine ⟨_, by rw [acceptors, List.getElem?_modify, found]; rfl, ?_⟩
  split
  · exact stays acc isOpen
  · exact isOpen

theorem Accounted.kept (acct : Accounted hello s) (aside : Aside s s') (log : s'.log = s.log)
    (connections : s'.connections = s.connections) (length : s.acceptors.length ≤ s'.acceptors.length)
    (queued : ∀ a acc, s'.acceptors[a]? = some acc →
      (∃ old, s.acceptors[a]? = some old ∧ acc.queued = old.queued) ∨ s.acceptors.length ≤ a ∧ acc.queued = []) :
    Accounted hello s' where
  inOrder a acc found := by
    rw [log]
    obtain ⟨old, at', same⟩ | ⟨past, none⟩ := queued a acc found
    · rw [same]
      exact acct.inOrder a old at'
    · rw [none, (acct.beyond a past).1, (acct.beyond a past).2]
      rfl
  connections := by rw [connections, log, acct.connections]
  dropped a socket mem := by
    rw [log] at mem
    exact (acct.dropped a socket mem).imp aside.alive (aside.closed a)
  closed a mem := by
    rw [log] at mem
    exact aside.closed a (acct.closed a mem)
  silent := by rw [log]; exact acct.silent
  routed := by
    rw [aside.sslContext, aside.sslRequired, connections]
    exact acct.routed
  beyond a past := by
    rw [log]
    exact acct.beyond a (by omega)

/-- One acceptor changes, and something is recorded about it. -/
theorem Accounted.extend {f : Acceptor → Acceptor} {e : Event} (acct : Accounted hello s) (aside : Aside s s')
    (acceptors : s'.acceptors = s.acceptors.modify a f) (here : a < s.acceptors.length) (log : s'.log = s.log ++ [e])
    (others : ∀ b, b ≠ a → acceptedAt b [e] = [] ∧ handledAt b [e] = [])
    (inOrder : ∀ acc, s.acceptors[a]? = some acc → acc.queued ++ acceptedAt a [e] = handledAt a [e] ++ (f acc).queued)
    (connections : s'.connections.map (fun conn => (conn.acceptor, conn.socket)) =
      s.connections.map (fun conn => (conn.acceptor, conn.socket)) ++ connected [e])
    (dropped : ∀ b socket, e = .dropped b socket →
      s'.alive = false ∨ Closed s' b)
    (closed : ∀ b, e = .closed b → Closed s' b)
    (silent : ∀ b socket, e = .connected b socket → ∀ acc, s.acceptors[b]? = some acc → acc.isOpen = true)
    (routed : ∀ conn ∈ s'.connections, conn ∈ s.connections ∨ Routed hello s'.sslContext s'.sslRequired conn) :
    Accounted hello s' where
  inOrder b acc found := by
    rw [acceptors, List.getElem?_modify] at found
    obtain ⟨old, at', rfl⟩ := Option.map_eq_some_iff.1 found
    have before := acct.inOrder b old at'
    rw [log, acceptedAt_snoc, handledAt_snoc, before]
    by_cases eq : a = b
    · subst eq
      rw [if_pos rfl, List.append_assoc, inOrder old at', List.append_assoc]
    · rw [if_neg eq, (others b (Ne.symm eq)).1, (others b (Ne.symm eq)).2, List.append_nil, List.append_nil]
  connections := by rw [connections, log, connected_snoc, acct.connections]
  dropped b socket mem := by
    rw [log] at mem
    rcases List.mem_append.1 mem with old | new
    · exact (acct.dropped b socket old).imp aside.alive (aside.closed b)
    · exact dropped b socket (List.mem_singleton.1 new).symm
  closed b mem := by
    rw [log] at mem
    rcases List.mem_append.1 mem with old | new
    · exact aside.closed b (acct.closed b old)
    · exact closed b (List.mem_singleton.1 new).symm
  silent := by
    rw [log]
    refine List.pairwise_append.2 ⟨acct.silent, List.pairwise_singleton _ _, fun x mem y last b socket same => ?_⟩
    subst same
    rw [List.mem_singleton.1 last]
    intro same
    obtain ⟨acc, found, isOpen⟩ := acct.closed b mem
    exact absurd ((silent b socket same acc found).symm.trans isOpen) (by decide)
  routed conn mem := by
    rcases routed conn mem with old | new
    · rw [aside.sslContext, aside.sslRequired]
      exact acct.routed conn old
    · exact new
  beyond b past := by
    rw [acceptors, List.length_modify] at past
    have other : b ≠ a := by omega
    rw [log, acceptedAt_snoc, handledAt_snoc, (acct.beyond b past).1, (acct.beyond b past).2, (others b other).1, (others b other).2]
    exact ⟨rfl, rfl⟩

/-- One acceptor changes, and nothing is recorded. -/
theorem Accounted.modify {f : Acceptor → Acceptor} (acct : Accounted hello s) (acceptors : s'.acceptors = s.acceptors.modify a f)
    (stays : ∀ acc, acc.isOpen = false → (f acc).isOpen = false)
    (queued : ∀ acc, s.acceptors[a]? = some acc → (f acc).queued = acc.queued)
    (log : s'.log = s.log) (connections : s'.connections = s.connections) (sslContext : s'.sslContext = s.sslContext)
    (sslRequired : s'.sslRequired = s.sslRequired) (alive : s'.alive = s.alive) : Accounted hello s' := by
  refine acct.kept (.modify acceptors stays sslContext sslRequired alive) log connections
    (by rw [acceptors, List.length_modify]) fun b acc found => .inl ?_
  rw [acceptors, List.getElem?_modify] at found
  obtain ⟨old, at', rfl⟩ := Option.map_eq_some_iff.1 found
  refine ⟨old, at', ?_⟩
  split
  · next same => subst same; exact queued old at'
  · rfl

/-- The acceptors stay as they are, and nothing is recorded. -/
theorem Accounted.same (acct : Accounted hello s) (acceptors : s'.acceptors = s.acceptors)
    (log : s'.log = s.log) (connections : s'.connections = s.connections) (sslContext : s'.sslContext = s.sslContext)
    (sslRequired : s'.sslRequired = s.sslRequired) (alive : s.alive = false → s'.alive = false) : Accounted hello s' := by
  refine acct.kept ⟨sslContext, sslRequired, alive, fun b => ?_⟩ log connections (by rw [acceptors]) fun b acc found => .inl ?_
  · unfold Closed
    rw [acceptors]
    exact id
  · rw [acceptors] at found
    exact ⟨acc, found, rfl⟩

/-- The pieces of the calls record nothing. -/
theorem Accounted.ran (acct : Accounted hello c.shared) (ran : Tasks.Ran (perform bound) c i c' () p rest outs) :
    Accounted hello c'.shared := by
  have done := ran.action
  generalize c'.shared = s' at done
  cases p with
  | start port clientCbs =>
    obtain ⟨rfl, -⟩ := Prod.mk.inj (Option.some.inj done)
    exact acct
  | listen port clientCbs =>
    simp only [perform] at done
    split at done
    · cases done
      exact acct
    · split at done
      · cases done
        refine acct.kept ⟨rfl, rfl, id, ?_⟩ rfl rfl (by simp) fun b acc found => ?_
        · rintro b ⟨acc, found, isOpen⟩
          exact ⟨acc, by rw [List.getElem?_append_left (List.getElem?_eq_some_iff.1 found).1, found], isOpen⟩
        · rw [List.getElem?_append] at found
          split at found
          · exact .inl ⟨acc, found, rfl⟩
          · next past =>
            cases List.mem_singleton.1 (List.mem_of_getElem? found)
            exact .inr ⟨by omega, rfl⟩
      · cases done
  | startLocked a clientCbs =>
    obtain ⟨acc, found, done⟩ := Option.map_eq_some_iff.1 done
    split at done
    · obtain ⟨rfl, -⟩ := Prod.mk.inj done
      exact acct.modify (f := .close) rfl (fun _ _ => rfl) (fun _ _ => rfl) rfl rfl rfl rfl rfl
    · obtain ⟨rfl, -⟩ := Prod.mk.inj done
      exact acct.same rfl rfl rfl rfl rfl id
  | doAccept a =>
    obtain ⟨rfl, -⟩ := Prod.mk.inj (Option.some.inj done)
    exact acct.modify (f := .asyncAccept) rfl (fun _ => id) (fun _ _ => rfl) rfl rfl rfl rfl rfl
  | shutdown =>
    have done := Option.some.inj done
    split at done
    · cases done; exact acct
    · cases done; exact acct.same rfl rfl rfl rfl rfl id
  | stop =>
    obtain ⟨rfl, -⟩ := Prod.mk.inj (Option.some.inj done)
    exact acct.same rfl rfl rfl rfl rfl id
  | postClose a =>
    obtain ⟨rfl, -⟩ := Prod.mk.inj (Option.some.inj done)
    refine acct.modify (f := (·.post .close)) rfl (fun _ => id) (fun acc _ => ?_) rfl rfl rfl rfl rfl
    simp [Acceptor.queued, Acceptor.post]

/-- What `OnAccept` makes of a socket. -/
theorem onAccept_routed (hello : Bytes → Option Bool) (s : Listening) (a : Nat) (socket : Socket) : ∃ conn,
    (s.onAccept a socket).connections = s.connections ++ [conn] ∧ conn.acceptor = a ∧ conn.socket = socket ∧
      Routed hello s.sslContext s.sslRequired conn := by
  refine ⟨_, rfl, rfl, rfl, ?_⟩
  unfold Routed
  cases s.sslContext with
  | none => rfl
  | some ptr =>
    cases ptr with
    | none => rfl
    | some context =>
      cases s.sslRequired with
      | true => rfl
      | false => exact .inl rfl

theorem Accounted.handles {result : Except ErrorCode Socket} {later : List AcceptTask} (acct : Accounted hello s)
    (found : s.acceptors[a]? = some acc) (strand : acc.strand = .onAccept result :: later)
    (handles : Handles (s.mapAcceptor a ({ · with strand := later })) a acc.isOpen result s') : Accounted hello s' := by
  have here : a < s.acceptors.length := (List.getElem?_eq_some_iff.1 found).1
  have twice : ∀ f : Acceptor → Acceptor, (s.acceptors.modify a ({ · with strand := later })).modify a f =
      s.acceptors.modify a (f ∘ ({ · with strand := later })) := fun f => List.modify_modify_eq ..
  have error : ∀ ec (f : Acceptor → Acceptor), result = .error ec → (∀ acc, (f acc).strand = acc.strand) →
      ∀ acc', s.acceptors[a]? = some acc' → ((f ∘ ({ · with strand := later })) acc').queued = acc'.queued := by
    rintro ec f rfl same acc' at'
    cases found.symm.trans at'
    simp [Acceptor.queued, Function.comp_apply, same, strand]
  have aside : ∀ s' : Listening, s'.acceptors = s.acceptors.modify a ({ · with strand := later }) →
      s'.sslContext = s.sslContext → s'.sslRequired = s.sslRequired → s'.alive = s.alive → Aside s s' :=
    fun s' acceptors => .modify acceptors fun _ => id
  cases handles with
  | @drops socket past =>
    refine acct.extend (e := .dropped a socket) (aside _ rfl rfl rfl rfl) rfl here rfl (fun b other => ?_) ?_ ?_ ?_
      (fun _ h => nomatch h) (fun _ _ h => nomatch h) fun _ => .inl
    · simp [acceptedAt, handledAt, Ne.symm other]
    · intro acc' at'
      cases found.symm.trans at'
      simp [acceptedAt, handledAt, Acceptor.queued, strand]
    · exact (List.append_nil _).symm
    · rintro b socket' ⟨⟩
      refine past.imp id fun closed => ⟨{ acc with strand := later }, ?_, closed⟩
      simp [record, mapAcceptor, found]
  | @ends ec past =>
    exact acct.modify rfl (fun _ => id) (error ec id rfl fun _ => rfl) rfl rfl rfl rfl rfl
  | aborted alive opened =>
    exact acct.modify rfl (fun _ => id) (error .operationAborted id rfl fun _ => rfl) rfl rfl rfl rfl rfl
  | @retries ec alive opened other =>
    exact acct.modify (twice _) (fun _ => id) (error ec .asyncAccept rfl fun _ => rfl) rfl rfl rfl rfl rfl
  | @accepts socket alive opened =>
    obtain ⟨conn, connections, acceptor, same, routed⟩ :=
      onAccept_routed hello (s.mapAcceptor a ({ · with strand := later })) a socket
    refine acct.extend (e := .connected a socket) (.modify (twice .asyncAccept) (fun _ => id) rfl rfl rfl) (twice .asyncAccept)
      here rfl (fun b other => ?_) ?_ ?_ (fun _ _ h => nomatch h) (fun _ h => nomatch h) ?_ ?_
    · simp [acceptedAt, handledAt, Ne.symm other]
    · intro acc' at'
      cases found.symm.trans at'
      simp [acceptedAt, handledAt, Acceptor.queued, Acceptor.asyncAccept, strand]
    · rw [show ((s.mapAcceptor a ({ · with strand := later })).onAccept a socket |>.doAccept a).connections = _ from connections]
      simp [connected, acceptor, same, mapAcceptor]
    · rintro b socket' ⟨⟩ acc' at'
      cases found.symm.trans at'
      exact opened
    · intro conn' mem
      rcases List.mem_append.1 (connections ▸ mem) with old | new
      · exact .inl old
      · rw [List.mem_singleton.1 new]
        exact .inr routed

theorem Routed.told {sslContext : Option (Option Nat)} {sslRequired : Bool} {conn : Connection} {stage : Stage}
    (routed : Routed hello sslContext sslRequired conn) (detecting : conn.stage = .detecting) (ends : stage = .failed ∨
      ∃ isSsl n, hello (conn.socket.incoming.take n) = some isSsl ∧ stage = .serving isSsl (conn.socket.incoming.take n)) :
    Routed hello sslContext sslRequired { conn with stage := stage } := by
  unfold Routed at *
  split at routed
  · split at routed
    · exact absurd (detecting.symm.trans routed) (by decide)
    · next required =>
      simp only
      rw [if_neg required]
      exact .inr ends
  · exact absurd (detecting.symm.trans routed) (by decide)

/-- A `CDetectSession` is done. -/
theorem Accounted.told {k : Nat} {conn : Connection} {stage : Stage} (acct : Accounted hello s)
    (found : s.connections[k]? = some conn) (detecting : conn.stage = .detecting) (ends : stage = .failed ∨
      ∃ isSsl n, hello (conn.socket.incoming.take n) = some isSsl ∧ stage = .serving isSsl (conn.socket.incoming.take n)) :
    Accounted hello (s.setStage k stage) := by
  refine ⟨acct.inOrder, ?_, acct.dropped, acct.closed, acct.silent, fun conn' mem => ?_, acct.beyond⟩
  · rw [setStage, ← acct.connections]
    refine List.ext_getElem? fun j => ?_
    simp only [List.getElem?_map, List.getElem?_modify]
    split
    · next same => subst same; simp [found]
    · simp
  · obtain ⟨j, at'⟩ := List.mem_iff_getElem?.1 mem
    simp only [setStage, List.getElem?_modify] at at'
    split at at'
    · next same =>
      subst same
      simp only [found, Option.map_eq_map, Option.map_some, Option.some.injEq] at at'
      subst at'
      exact (acct.routed conn (List.mem_of_getElem? found)).told detecting ends
    · simp only [Option.map_eq_map, Option.map_id_fun', id_eq] at at'
      exact acct.routed conn' (List.mem_of_getElem? at')

theorem Accounted.moves (acct : Accounted hello s) (moves : Moves hello s l s') : Accounted hello s' := by
  cases moves with
  | @arrives a acc socket found pending opened =>
    refine acct.extend (e := .accepted a socket) (.modify (f := (·.completed (.ok socket))) rfl (fun _ => id) rfl rfl rfl) rfl
      (List.getElem?_eq_some_iff.1 found).1 rfl (fun b other => ?_) ?_ (List.append_nil _).symm (fun _ _ h => nomatch h)
      (fun _ h => nomatch h) (fun _ _ h => nomatch h) fun _ => .inl
    · simp [acceptedAt, handledAt, Ne.symm other]
    · intro acc' at'
      simp [acceptedAt, handledAt, Acceptor.queued, Acceptor.completed]
  | @refused a acc ec found pending aborted =>
    refine acct.modify (f := (·.completed (.error ec))) rfl (fun _ => id) (fun acc _ => ?_) rfl rfl rfl rfl rfl
    simp [Acceptor.queued, Acceptor.completed]
  | accepted found strand handles => exact acct.handles found strand handles
  | @closes a acc later found strand =>
    rw [mapAcceptor_twice]
    refine acct.extend (e := .closed a) (.modify (f := .close ∘ ({ · with strand := later })) rfl (fun _ _ => rfl) rfl rfl rfl) rfl
      (List.getElem?_eq_some_iff.1 found).1 rfl (fun _ _ => ⟨rfl, rfl⟩) ?_ (List.append_nil _).symm (fun _ _ h => nomatch h)
      ?_ (fun _ _ h => nomatch h) fun _ => .inl
    · intro acc' at'
      cases found.symm.trans at'
      simp [acceptedAt, handledAt, Acceptor.queued, Acceptor.close, strand]
    · rintro b ⟨⟩
      exact ⟨Acceptor.close { acc with strand := later }, by simp [record, mapAcceptor, found], rfl⟩
  | fails found detecting => exact acct.told found detecting (.inl rfl)
  | tells found detecting read => exact acct.told found detecting (.inr ⟨_, _, read, rfl⟩)

/-- **Every step keeps the account.** -/
theorem Accounted.step (acct : Accounted hello c.shared) (step : step hello c l = some c') : Accounted hello c'.shared := by
  cases step_steps step with
  | run ran => exact acct.ran ran
  | begins call alive calls => exact acct
  | moves moves => exact acct.moves moves
  | gone down quiet => exact acct.same rfl rfl rfl rfl rfl fun _ => rfl

theorem create_accounted (sslContext : Option (Option Nat)) (sslRequired : Bool) :
    Accounted hello (create sslContext sslRequired).shared where
  inOrder a acc found := by simp [create] at found
  connections := rfl
  dropped _ _ mem := nomatch mem
  closed _ mem := nomatch mem
  silent := List.Pairwise.nil
  routed _ mem := nomatch mem
  beyond _ _ := ⟨rfl, rfl⟩

/-- **Every accepted socket becomes exactly one connection**, in the order of acceptance and of the kind the settings
say, unless its acceptor has closed or the server is gone; after the close of an acceptor none comes from it. -/
theorem sockets_accounted {sslContext : Option (Option Nat)} {sslRequired : Bool}
    (run : (system hello).exec (create sslContext sslRequired) ls = some c) : Accounted hello c.shared :=
  Lib.System.invariant (fun c => Accounted hello c.shared) (create_accounted sslContext sslRequired)
    (fun _ _ _ acct step => acct.step step) run

/-- A first byte of 22 begins a TLS record. -/
def firstByte : Bytes → Option Bool
  | [] => none
  | b :: _ => some (b == 22)

/-- A client that speaks TLS and one that does not, `Stop` while a third one is accepted, and a second `Start`. -/
def startedTwice : List Label :=
  [.start 8080 {}, .run 0 none, .run 0 (some 8080), .run 0 none, .run 0 none,
    .complete 0 (.ok ⟨1, [22, 3, 1]⟩), .strand 0, .detected 0 none 2,
    .complete 0 (.ok ⟨2, [71, 69, 84]⟩), .strand 0, .detected 1 none 3,
    .stop, .run 1 none, .complete 0 (.ok ⟨3, []⟩), .run 1 none, .start 0 {}, .run 2 none, .run 2 (some 49152),
    .run 2 none, .strand 0, .strand 0]

theorem sockets_accounted_startedTwice : ∃ c, (system firstByte).exec (create (some (some 0)) false) startedTwice = some c ∧
    c.shared.connections.map Connection.stage = [.serving true [22, 3], .serving false [71, 69, 84], .detecting] ∧
    Accounted firstByte c.shared :=
  ⟨_, Lib.System.exec_get (by decide), by decide, sockets_accounted (Lib.System.exec_get (by decide))⟩

/-- The accept loops of a server. -/
structure Accepting (c : Calls) : Prop where
  /-- `Port()` is the port of the acceptor in `mAcceptor`, and 0 without one. -/
  port : c.shared.impl.mPort = ((c.shared.mAcceptor.bind fun a => c.shared.acceptors[a]?).map Acceptor.port).getD 0
  /-- That acceptor is open. -/
  current : ∀ a, c.shared.mAcceptor = some a → ∃ acc, c.shared.acceptors[a]? = some acc ∧ acc.isOpen = true
  /-- Another open one is about to be installed, or about to be closed. -/
  others : ∀ (a : Nat) (acc : Acceptor), c.shared.acceptors[a]? = some acc → acc.isOpen = true → c.shared.mAcceptor ≠ some a →
    (∃ i clientCbs, c.At i () (.startLocked a clientCbs)) ∨ (∃ i, c.At i () (.postClose a)) ∨ .close ∈ acc.strand
  /-- No acceptor has two accepts. -/
  one : ∀ (a : Nat) (acc : Acceptor), c.shared.acceptors[a]? = some acc → acc.accepts ≤ 1
  /-- An open acceptor that was installed has one, or a call is about to start it. -/
  goes : c.shared.alive = true → ∀ (a : Nat) (acc : Acceptor), c.shared.acceptors[a]? = some acc → acc.isOpen = true → acc.accepts = 1 ∨
    (∃ i clientCbs, c.At i () (.startLocked a clientCbs)) ∨ ∃ i, c.At i () (.doAccept a)

/-- A piece that is counted is pending. -/
theorem at_of_count {q : Piece → Bool} (pos : 0 < c.count q) : ∃ i p, c.At i () p ∧ q p = true := by
  by_contra none
  refine absurd (Tasks.count_eq_zero.2 fun t mem p pending => ?_) pos.ne'
  obtain ⟨i, found⟩ := List.mem_iff_getElem?.1 mem
  by_contra holds
  exact none ⟨i, p, ⟨t, found, rfl, pending⟩, by simpa using holds⟩

theorem starts_at (pos : 0 < c.count (Piece.startsAt a)) : ∃ i clientCbs, c.At i () (.startLocked a clientCbs) := by
  obtain ⟨i, p, pending, starts⟩ := at_of_count pos
  cases p with
  | startLocked b clientCbs =>
    obtain rfl : a = b := by simpa [Piece.startsAt] using starts
    exact ⟨i, clientCbs, pending⟩
  | _ => cases starts

theorem accepts_at (pos : 0 < c.count (Piece.acceptsAt a)) : ∃ i, c.At i () (.doAccept a) := by
  obtain ⟨i, p, pending, accepts⟩ := at_of_count pos
  cases p with
  | doAccept b =>
    obtain rfl : a = b := by simpa [Piece.acceptsAt] using accepts
    exact ⟨i, pending⟩
  | _ => cases accepts

theorem closes_at (pos : 0 < c.count (Piece.closesAt a)) : ∃ i, c.At i () (.postClose a) := by
  obtain ⟨i, p, pending, closes⟩ := at_of_count pos
  cases p with
  | postClose b =>
    obtain rfl : a = b := by simpa [Piece.closesAt] using closes
    exact ⟨i, pending⟩
  | _ => cases closes

theorem Acceptor.closing_mem (pos : 0 < acc.closing) : .close ∈ acc.strand := by
  obtain ⟨task, mem, closes⟩ := List.countP_pos_iff.1 pos
  cases task with
  | onAccept result => cases closes
  | close => exact mem

theorem Inv.accepting (inv : Inv c) : Accepting c where
  port := by
    rw [inv.mPort, inv.installed]
    cases c.shared.mAcceptor <;> rfl
  current a at' := by
    obtain ⟨acc, found⟩ : ∃ acc, c.shared.acceptors[a]? = some acc := ⟨_, List.getElem?_eq_getElem (inv.known at')⟩
    have place := (inv.placed a acc found).place
    rw [if_pos at'] at place
    refine ⟨acc, found, ?_⟩
    cases isOpen : acc.isOpen with
    | true => rfl
    | false =>
      rw [isOpen] at place
      simp only [Bool.not_false, Bool.toNat_true] at place
      omega
  others a acc found isOpen other := by
    have place := (inv.placed a acc found).place
    rw [if_neg other, isOpen] at place
    simp only [Bool.not_true, Bool.toNat_false] at place
    by_cases starts : 0 < c.count (Piece.startsAt a)
    · exact .inl (starts_at starts)
    · by_cases closes : 0 < c.count (Piece.closesAt a)
      · exact .inr (.inl (closes_at closes))
      · exact .inr (.inr (Acceptor.closing_mem (by omega)))
  one a acc found := by
    have := (inv.placed a acc found).one
    omega
  goes alive a acc found isOpen := by
    obtain ⟨-, one, goes, -⟩ := inv.placed a acc found
    have some := goes alive isOpen
    by_cases starts : 0 < c.count (Piece.startsAt a)
    · exact .inr (.inl (starts_at starts))
    · by_cases accepts : 0 < c.count (Piece.acceptsAt a)
      · exact .inr (.inr (accepts_at accepts))
      · exact .inl (by omega)

/-- **The accept loop neither stops nor doubles**, in every run. -/
theorem accept_loop {sslContext : Option (Option Nat)} {sslRequired : Bool}
    (run : (system hello).exec (create sslContext sslRequired) ls = some c) : Accepting c :=
  (Lib.System.invariant Inv (create_inv sslContext sslRequired) (fun _ _ _ inv step => inv.step step) run).accepting

/-- The first acceptor is closed, and the second one's first `async_accept` still to be started. -/
theorem accept_loop_startedTwice : ∃ c, (system firstByte).exec (create (some (some 0)) false) startedTwice = some c ∧
    c.shared.mAcceptor = some 1 ∧ Accepting c :=
  ⟨_, Lib.System.exec_get (by decide), by decide, accept_loop (Lib.System.exec_get (by decide))⟩

/-! ## `Stop` ends the listening -/

/-- What is in progress goes on: calls, with no new acceptor bound, handlers of the strands, and the `async_accept`s
that a close has cancelled. -/
def Winding (_ : Calls) : Label → Prop
  | .run _ bound => bound = none
  | .strand _ => True
  | .complete _ result => result = .error .operationAborted
  | _ => False

/-- Nothing is in progress, and every acceptor but the one in `mAcceptor` is closed and done with. -/
def Settled (c : Calls) : Prop :=
  c.quiet ∧ ∀ (a : Nat) (acc : Acceptor), c.shared.acceptors[a]? = some acc → acc.strand = [] ∧
    (c.shared.mAcceptor ≠ some a → acc.isOpen = false ∧ acc.pending = 0)

def Piece.weight : Piece → Nat
  | start _ _ => 2
  | listen _ _ => 1
  | startLocked _ _ => 4
  | doAccept _ => 3
  | shutdown => 4
  | stop => 3
  | postClose _ => 2

/-- An `async_accept` that completes on an open acceptor starts another; one on a closed acceptor is the last. -/
def Acceptor.weight (acc : Acceptor) : Nat :=
  2 * acc.pending + (if acc.isOpen then 3 else 1) * acc.strand.countP AcceptTask.isAccept + acc.closing

def rank (c : Calls) : Nat := c.weigh Piece.weight + (c.shared.acceptors.map Acceptor.weight).sum

theorem Acceptor.close_weight (acc : Acceptor) : acc.close.weight ≤ acc.weight := by
  unfold weight close
  cases acc.isOpen <;> simp [closing]
  omega

theorem Acceptor.asyncAccept_weight (acc : Acceptor) : acc.asyncAccept.weight = acc.weight + 2 := by
  obtain ⟨port, isOpen, pending, strand⟩ := acc
  cases isOpen <;> simp [weight, asyncAccept, closing] <;> omega

theorem Acceptor.post_weight (acc : Acceptor) : (acc.post .close).weight = acc.weight + 1 := by
  obtain ⟨port, isOpen, pending, strand⟩ := acc
  cases isOpen <;> simp [weight, post, closing, AcceptTask.isAccept, AcceptTask.isClose, List.countP_append] <;> omega

/-- A piece of a call makes less of what is left. -/
theorem perform_shrinks (inv : Inv c) (ran : Tasks.Ran (perform none) c i c' () p rest outs) :
    (outs.map Piece.weight).sum + (c'.shared.acceptors.map Acceptor.weight).sum <
      p.weight + (c.shared.acceptors.map Acceptor.weight).sum := by
  have done := ran.action
  generalize c'.shared = s' at done
  have acceptor : ∀ a, c.count (Piece.startsAt a) + c.count (Piece.acceptsAt a) + c.count (Piece.closesAt a) ≠ 0 →
      ∃ acc, c.shared.acceptors[a]? = some acc := fun a here => ⟨_, List.getElem?_eq_getElem (inv.lt here)⟩
  cases p with
  | start port clientCbs =>
    obtain ⟨rfl, rfl⟩ := Prod.mk.inj (Option.some.inj done)
    split <;> simp [Piece.weight]
  | listen port clientCbs =>
    obtain ⟨rfl, rfl⟩ := Prod.mk.inj (Option.some.inj done)
    simp [Piece.weight]
  | startLocked a clientCbs =>
    obtain ⟨acc, found, done⟩ := Option.map_eq_some_iff.1 done
    split at done
    · obtain ⟨rfl, rfl⟩ := Prod.mk.inj done
      have moved := Tasks.sum_modify (f := .close) found Acceptor.weight
      have less := acc.close_weight
      simp only [mapAcceptor, List.map_nil, List.sum_nil, Piece.weight]
      omega
    · obtain ⟨rfl, rfl⟩ := Prod.mk.inj done
      simp [Piece.weight]
  | doAccept a =>
    obtain ⟨rfl, rfl⟩ := Prod.mk.inj (Option.some.inj done)
    have pos : 0 < c.count (Piece.acceptsAt a) := Tasks.count_pos ran.at_head (beq_self_eq_true a)
    obtain ⟨acc, found⟩ := acceptor a (by omega)
    have moved := Tasks.sum_modify (f := .asyncAccept) found Acceptor.weight
    have more := acc.asyncAccept_weight
    simp only [Listening.doAccept, mapAcceptor, List.map_nil, List.sum_nil, Piece.weight]
    omega
  | shutdown =>
    have done := Option.some.inj done
    split at done <;> cases done <;> simp [Piece.weight]
  | stop =>
    obtain ⟨rfl, rfl⟩ := Prod.mk.inj (Option.some.inj done)
    cases c.shared.mAcceptor <;> simp [Piece.weight]
  | postClose a =>
    obtain ⟨rfl, rfl⟩ := Prod.mk.inj (Option.some.inj done)
    have pos : 0 < c.count (Piece.closesAt a) := Tasks.count_pos ran.at_head (beq_self_eq_true a)
    obtain ⟨acc, found⟩ := acceptor a (by omega)
    have moved := Tasks.sum_modify (f := (·.post .close)) found Acceptor.weight
    have more := acc.post_weight
    simp only [mapAcceptor, List.map_nil, List.sum_nil, Piece.weight]
    omega

theorem Acceptor.pop_weight {task : AcceptTask} {later : List AcceptTask} (strand : acc.strand = task :: later) :
    acc.weight = Acceptor.weight { acc with strand := later } + match task with
      | .onAccept _ => if acc.isOpen then 3 else 1
      | .close => 1 := by
  obtain ⟨port, isOpen, pending, strand'⟩ := acc
  simp only at strand
  subst strand
  cases task <;> cases isOpen <;> simp [weight, closing, AcceptTask.isAccept, AcceptTask.isClose, List.countP_cons] <;> omega

/-- So does what the strands and the acceptors do. -/
theorem moves_shrinks (moves : Moves hello s l s') (winding : ∀ a result, l = .complete a result → result = .error .operationAborted)
    (strands : ∀ k ec n, l ≠ .detected k ec n) :
    (s'.acceptors.map Acceptor.weight).sum < (s.acceptors.map Acceptor.weight).sum := by
  cases moves with
  | arrives found pending opened => cases winding _ _ rfl
  | @refused a acc ec found pending aborted =>
    cases Except.error.inj (winding _ _ rfl)
    have moved := Tasks.sum_modify (f := (·.completed (.error .operationAborted))) found Acceptor.weight
    have closed := aborted rfl
    have less : (acc.completed (.error .operationAborted)).weight + 1 = acc.weight := by
      simp only [Acceptor.weight, Acceptor.completed, Acceptor.closing, closed, List.countP_append]
      simp [AcceptTask.isAccept, AcceptTask.isClose]
      omega
    simp only [mapAcceptor]
    omega
  | @accepted a acc result later s' found strand handles =>
    have popped := Acceptor.pop_weight strand
    have moved := Tasks.sum_modify (f := ({ · with strand := later })) found Acceptor.weight
    have again : (((s.acceptors.modify a ({ · with strand := later })).modify a .asyncAccept).map Acceptor.weight).sum
        = ((s.acceptors.modify a ({ · with strand := later })).map Acceptor.weight).sum + 2 := by
      have at' : (s.acceptors.modify a ({ · with strand := later }))[a]? = some { acc with strand := later } := by simp [found]
      have next := Tasks.sum_modify (f := .asyncAccept) at' Acceptor.weight
      rw [Acceptor.asyncAccept_weight] at next
      omega
    simp only at popped
    cases handles with
    | drops past | ends past | aborted alive opened =>
      simp only [record, mapAcceptor]
      split at popped <;> omega
    | retries alive opened other | accepts alive opened =>
      rw [if_pos opened] at popped
      simp only [Listening.doAccept, Listening.onAccept, record, mapAcceptor, again]
      omega
  | @closes a acc later found strand =>
    have popped := Acceptor.pop_weight strand
    have moved := Tasks.sum_modify (f := .close ∘ ({ · with strand := later })) found Acceptor.weight
    have less := Acceptor.close_weight { acc with strand := later }
    rw [mapAcceptor_twice]
    simp only [record, mapAcceptor, Function.comp_apply] at moved ⊢
    simp only at popped
    omega
  | fails | tells => exact absurd rfl (strands _ _ _)

theorem winding_shrinks (inv : Inv c) (winding : Winding c l) (step : step hello c l = some c') : rank c' < rank c := by
  cases step_steps step with
  | run ran =>
    cases winding
    have less := perform_shrinks inv ran
    have moved := ran.weigh Piece.weight
    unfold rank
    omega
  | begins call alive calls =>
    cases l with
    | start | stop | shutdown => exact winding.elim
    | _ => cases call
  | moves moves =>
    have less := moves_shrinks moves (fun a result same => by subst same; exact winding) fun k ec n same => by
      subst same
      exact winding
    exact Nat.add_lt_add_left less _
  | gone down quiet => cases winding

/-- Until everything is settled something goes on. -/
theorem winding_progress (inv : Inv c) : Settled c ∨ ∃ l c', Winding c l ∧ step hello c l = some c' := by
  by_cases quiet : c.quiet
  · have idle : ∀ i p, ¬ c.At i () p := fun i p pending => by
      obtain ⟨t, found, -, mem⟩ := pending
      rw [quiet t (List.mem_of_getElem? found)] at mem
      cases mem
    by_cases strands : ∃ (a : Nat) (acc : Acceptor) (task : AcceptTask) (later : List AcceptTask),
        c.shared.acceptors[a]? = some acc ∧ acc.strand = task :: later
    · obtain ⟨a, acc, task, later, found, strand⟩ := strands
      refine .inr ⟨.strand a, ?_⟩
      cases task with
      | onAccept result => exact ⟨_, trivial, by simp [Listening.step, runStrand, found, strand]; rfl⟩
      | close => exact ⟨_, trivial, by simp [Listening.step, runStrand, found, strand]; rfl⟩
    · have empty : ∀ (a : Nat) (acc : Acceptor), c.shared.acceptors[a]? = some acc → acc.strand = [] := by
        intro a acc found
        cases strand : acc.strand with
        | nil => rfl
        | cons task later => exact absurd ⟨a, acc, task, later, found, strand⟩ strands
      have closed : ∀ (a : Nat) (acc : Acceptor), c.shared.acceptors[a]? = some acc → c.shared.mAcceptor ≠ some a →
          acc.isOpen = false := by
        intro a acc found other
        by_contra isOpen
        obtain ⟨i, clientCbs, pending⟩ | ⟨i, pending⟩ | closing := inv.accepting.others a acc found (by simpa using isOpen) other
        · exact idle i _ pending
        · exact idle i _ pending
        · rw [empty a acc found] at closing
          cases closing
      by_cases left : ∃ (a : Nat) (acc : Acceptor), c.shared.acceptors[a]? = some acc ∧ c.shared.mAcceptor ≠ some a ∧ 0 < acc.pending
      · obtain ⟨a, acc, found, other, pending⟩ := left
        have goes : (c.shared.complete a (.error .operationAborted)).isSome = true := by
          simp [complete, found, Acceptor.completes, closed a acc found other, pending]
        obtain ⟨s', done⟩ := Option.isSome_iff_exists.1 goes
        exact .inr ⟨.complete a (.error .operationAborted), { c with shared := s' }, rfl, by simp only [Listening.step, done, Option.map_some]⟩
      · refine .inl ⟨quiet, fun a acc found => ⟨empty a acc found, fun other => ⟨closed a acc found other, ?_⟩⟩⟩
        by_contra pending
        exact left ⟨a, acc, found, other, Nat.pos_of_ne_zero pending⟩
  · simp only [Tasks.quiet, not_forall] at quiet
    obtain ⟨⟨⟨⟩, todo⟩, mem, unfinished⟩ := quiet
    obtain ⟨i, found⟩ := List.mem_iff_getElem?.1 mem
    obtain ⟨p, rest, rfl⟩ := List.exists_cons_of_ne_nil unfinished
    have moves : ∃ r, perform none c i p = some r := by
      cases p with
      | startLocked a clientCbs =>
        have pos : 0 < c.count (Piece.startsAt a) :=
          Tasks.count_pos (j := i) ⟨_, found, rfl, List.mem_cons_self⟩ (beq_self_eq_true a)
        have here : a < c.shared.acceptors.length := inv.lt (a := a) (by omega)
        simp only [perform, List.getElem?_eq_getElem here, Option.map_some]
        exact ⟨_, rfl⟩
      | _ => exact ⟨_, rfl⟩
    obtain ⟨⟨s', outs⟩, done⟩ := moves
    exact .inr ⟨.run i none, ⟨s', c.tasks.set i ⟨(), outs ++ rest⟩⟩, rfl, by simp only [Listening.step, Tasks.run, found, done]⟩

end Listening

end Websockets
