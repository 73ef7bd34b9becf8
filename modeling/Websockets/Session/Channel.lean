import Websockets.Basic

/-!
# The channel: write queue, close flags, stream operations and strand of a session

`CSession` (client) and `CWsSession` (server) share the code from `DoRead` to `HandleClosed`
almost word for word; this is that shared part with the Beast stream and the strand it runs on.
An operation is pending from its start until Beast completes it, which queues its handler on the
strand; posted tasks are queued on the same strand, and handlers run from its front. Nothing is
assumed about completions here: what Beast promises is a condition on runs.

`serial`, `failed`, `started` and `emptyAccess` only record history: the identity of queue
elements, whether some operation has completed with an error, every operation started, and
whether `front` or `pop_front` was ever executed on an empty deque.
-/

namespace Websockets

/-- An element of `mWriteQueue`. Two elements with equal payloads differ in `serial`. -/
structure Node (P : Type) where
  serial : Nat
  payload : P
  deriving DecidableEq

/-- An asynchronous operation of a session. `opening` covers the operations that lead to the open
stream: the accept on the server, the stages of the connect chain on the client. -/
inductive Op (Stage P : Type) where
  | opening (stage : Stage)
  | read
  | write (isText : Bool) (node : Node P)
  | close
  deriving DecidableEq

namespace Op

variable {Stage P : Type}

def isOpening : Op Stage P → Bool
  | opening _ => true
  | _ => false

def isRead : Op Stage P → Bool
  | read => true
  | _ => false

def isWrite : Op Stage P → Bool
  | write _ _ => true
  | _ => false

def isClose : Op Stage P → Bool
  | close => true
  | _ => false

/-- Beast's write-type operations: `async_write` and `async_close`. -/
def isWriteType : Op Stage P → Bool
  | write _ _ => true
  | close => true
  | _ => false

end Op

/-- An operation that has been started and not completed; `cancelled` once `cancel()` was called. -/
structure Pending (Stage P : Type) where
  op : Op Stage P
  cancelled : Bool
  deriving DecidableEq

/-- A handler queued on the strand: a posted task, or the completion of an operation. The frame is
what a successful read delivers. -/
inductive Handler (Stage P T : Type) where
  | posted (task : T)
  | completed (op : Op Stage P) (ec : Option ErrorCode) (frame : Frame)
  deriving DecidableEq

namespace Handler

variable {Stage P T : Type}

/-- The operation whose completion handler this is. -/
def op? : Handler Stage P T → Option (Op Stage P)
  | posted _ => none
  | completed op _ _ => some op

/-- The completion of an operation that failed. -/
def isError : Handler Stage P T → Bool
  | completed _ (some _) _ => true
  | _ => false

/-- The completion of an operation that succeeded. -/
def isSuccess : Handler Stage P T → Bool
  | completed _ none _ => true
  | _ => false

end Handler

structure Channel (Stage P T : Type) where
  mOpen : Bool := false
  mCloseRequested : Bool := false
  mCloseSent : Bool := false
  mWriteQueue : List (Node P) := []
  serial : Nat := 0
  /-- The stream's text option, set by `mWs.text(..)`. -/
  text : Bool := true
  pending : List (Pending Stage P) := []
  strand : List (Handler Stage P T) := []
  failed : Bool := false
  started : List (Op Stage P) := []
  emptyAccess : Bool := false

namespace Channel

variable {Stage P T : Type}

/-! ## The environment: posting and completing -/

/-- `net::post` to the strand. -/
def post (c : Channel Stage P T) (task : T) : Channel Stage P T :=
  { c with strand := c.strand ++ [.posted task] }

/-- The `i`-th pending operation completes with `ec`; its handler is queued. -/
def complete (c : Channel Stage P T) (i : Nat) (ec : Option ErrorCode) (frame : Frame) :
    Option (Channel Stage P T) :=
  match c.pending[i]? with
  | none => none
  | some p => some { c with
      pending := c.pending.eraseIdx i
      strand := c.strand ++ [.completed p.op ec frame]
      failed := c.failed || ec.isSome }

/-! ## Assignments -/

/-- Starts an asynchronous operation on the stream. -/
def start (c : Channel Stage P T) (op : Op Stage P) : Channel Stage P T :=
  { c with pending := c.pending ++ [⟨op, false⟩], started := c.started ++ [op] }

/-- `cancel()`: every pending operation is to complete with `operation_aborted`. -/
def cancel (c : Channel Stage P T) : Channel Stage P T :=
  { c with pending := c.pending.map fun p => { p with cancelled := true } }

def setOpen (c : Channel Stage P T) : Channel Stage P T := { c with mOpen := true }

def requestClose (c : Channel Stage P T) : Channel Stage P T := { c with mCloseRequested := true }

def setText (c : Channel Stage P T) (isText : Bool) : Channel Stage P T := { c with text := isText }

def setQueue (c : Channel Stage P T) (queue : List (Node P)) : Channel Stage P T :=
  { c with mWriteQueue := queue }

/-- `front` or `pop_front` of an empty deque: undefined behaviour. -/
def touchEmpty (c : Channel Stage P T) : Channel Stage P T := { c with emptyAccess := true }

/-- `mWriteQueue.push_back(..)`. -/
def pushBack (c : Channel Stage P T) (payload : P) : Channel Stage P T :=
  { c with mWriteQueue := c.mWriteQueue ++ [⟨c.serial, payload⟩], serial := c.serial + 1 }

/-- `mWriteQueue.pop_front()`. -/
def popFront (c : Channel Stage P T) : Channel Stage P T :=
  match c.mWriteQueue with
  | [] => c.touchEmpty
  | _ :: rest => c.setQueue rest

/-- The strand without its front handler, which is about to run. -/
def popHandler (c : Channel Stage P T) : Channel Stage P T :=
  { c with strand := c.strand.tail }

/-! ## The session code -/

def doRead (c : Channel Stage P T) : Channel Stage P T :=
  c.start .read

def doWrite [Payload P] (c : Channel Stage P T) : Channel Stage P T :=
  match c.mWriteQueue with
  | [] => c.touchEmpty
  | node :: _ =>
    let isText := Payload.isText node.payload
    (c.setText isText).start (.write isText node)

/-- The tail of both `Send` handlers: `push_back`, and a write if none is in flight. -/
def enqueue [Payload P] (c : Channel Stage P T) (payload : P) : Channel Stage P T :=
  let pushed := c.pushBack payload
  if pushed.mWriteQueue.length = 1 then pushed.doWrite else pushed

def maybeSendClose (c : Channel Stage P T) : Channel Stage P T :=
  if c.mCloseSent || !c.mWriteQueue.isEmpty then c
  else start { c with mCloseSent := true } .close

/-- The handler `Close` posts, in both classes. On the client it also cancels the resolver, whose
operation is among the pending ones. -/
def closeTask (c : Channel Stage P T) : Channel Stage P T :=
  if c.mOpen then c.requestClose.maybeSendClose else c.requestClose.cancel

/-- What `HandleClosed` does to the channel, whatever it was called for. -/
def handleClosed (c : Channel Stage P T) : Channel Stage P T :=
  { c with mWriteQueue := [], mOpen := false }

def onRead (c : Channel Stage P T) (ec : Option ErrorCode) : Channel Stage P T :=
  if ec.isSome then c.handleClosed else c.doRead

def onWrite [Payload P] (c : Channel Stage P T) (ec : Option ErrorCode) : Channel Stage P T :=
  if ec.isSome then c.handleClosed
  else if !c.popFront.mWriteQueue.isEmpty then c.popFront.doWrite
  else if c.mCloseRequested then c.popFront.maybeSendClose
  else c.popFront

/-- The end of both opening handlers: `if (mCloseRequested) MaybeSendClose(); DoRead();`. -/
def beginReading (c : Channel Stage P T) : Channel Stage P T :=
  (if c.mCloseRequested then c.maybeSendClose else c).doRead

/-! ## Operations in flight -/

/-- The operations started whose handlers have not run yet. -/
def inflight (c : Channel Stage P T) : List (Op Stage P) :=
  c.pending.map (·.op) ++ c.strand.filterMap Handler.op?

/-- How many `async_write` operations are in flight. -/
def writes (c : Channel Stage P T) : Nat := c.inflight.countP Op.isWrite

/-- How many opening operations are in flight. -/
def openings (c : Channel Stage P T) : Nat := c.inflight.countP Op.isOpening

/-- How many `async_close` operations are in flight. -/
def closes (c : Channel Stage P T) : Nat := c.inflight.countP Op.isClose

variable {c c' : Channel Stage P T}

@[simp] theorem inflight_post (task : T) : (c.post task).inflight = c.inflight := by
  simp [inflight, post, Handler.op?]

/-- Completing moves an operation from the stream to the strand. -/
theorem inflight_complete {i : Nat} {ec : Option ErrorCode} {frame : Frame}
    (h : c.complete i ec frame = some c') : c'.inflight.Perm c.inflight := by
  unfold complete at h
  split at h
  next => cases h
  next p found =>
    cases h
    obtain ⟨lt, get⟩ := List.getElem?_eq_some_iff.1 found
    have split : c.pending = c.pending.take i ++ p :: c.pending.drop (i + 1) := by
      conv_lhs => rw [← List.take_append_drop i c.pending, List.drop_eq_getElem_cons lt, get]
    have ops : inflight c = (c.pending.take i ++ p :: c.pending.drop (i + 1)).map (·.op) ++
        c.strand.filterMap Handler.op? := by
      unfold inflight
      rw [← split]
    rw [ops]
    simp only [inflight, List.eraseIdx_eq_take_drop_succ, List.filterMap_append, List.map_append,
      List.map_cons, List.append_assoc, List.cons_append]
    refine List.Perm.append_left _ ?_
    have moved := @List.perm_middle _ p.op
      ((c.pending.drop (i + 1)).map (·.op) ++ c.strand.filterMap Handler.op?) []
    simpa [Handler.op?] using moved

@[simp] theorem inflight_start (op : Op Stage P) :
    (c.start op).inflight = c.pending.map (·.op) ++ op :: c.strand.filterMap Handler.op? := by
  simp [inflight, start]

/-- Starting an operation adds it. -/
theorem inflight_start_perm (op : Op Stage P) : (c.start op).inflight.Perm (op :: c.inflight) := by
  rw [inflight_start]
  exact List.perm_middle

@[simp] theorem inflight_cancel : c.cancel.inflight = c.inflight := by
  simp [inflight, cancel, Function.comp_def]

@[simp] theorem inflight_setOpen : c.setOpen.inflight = c.inflight := rfl
@[simp] theorem inflight_requestClose : c.requestClose.inflight = c.inflight := rfl
@[simp] theorem inflight_setText (isText : Bool) : (c.setText isText).inflight = c.inflight := rfl
@[simp] theorem inflight_setQueue (queue : List (Node P)) : (c.setQueue queue).inflight = c.inflight := rfl
@[simp] theorem inflight_touchEmpty : c.touchEmpty.inflight = c.inflight := rfl
@[simp] theorem inflight_pushBack (payload : P) : (c.pushBack payload).inflight = c.inflight := rfl
@[simp] theorem inflight_handleClosed : c.handleClosed.inflight = c.inflight := rfl

/-- Running a posted task leaves the operations in flight alone. -/
theorem inflight_pop_posted {task : T} {rest : List (Handler Stage P T)}
    (front : c.strand = .posted task :: rest) : c.popHandler.inflight = c.inflight := by
  simp [inflight, popHandler, front, List.filterMap_cons, Handler.op?]

/-- Running a completion handler takes its operation out. -/
theorem inflight_pop_completed {op : Op Stage P} {ec : Option ErrorCode} {frame : Frame}
    {rest : List (Handler Stage P T)} (front : c.strand = .completed op ec frame :: rest) :
    c.inflight.Perm (op :: c.popHandler.inflight) := by
  simp only [inflight, popHandler, front, List.tail_cons, List.filterMap_cons, Handler.op?]
  exact List.perm_middle

end Channel

end Websockets
