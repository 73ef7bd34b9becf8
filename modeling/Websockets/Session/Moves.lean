import Websockets.Session.Channel

/-!
# Moves of a channel

Every step of either session class changes its channel by one of the moves below, or opens it
(`Opens`), so what these keep holds for both classes. The two conditions a claim may put on the environment are
parameters: under `beast`, once an operation has completed with an error every later completion
is an error; under `calm`, no read error is handled while a write is in flight.

`Flow` needs neither: while the channel is open exactly one write is in flight if the queue is
non-empty and none otherwise, and it writes the front of the queue.
-/

namespace Websockets

namespace Channel

variable {Stage P T : Type}

/-- The channel changes of both classes. -/
inductive Move [Payload P] (beast calm : Prop) (c : Channel Stage P T) : Channel Stage P T → Prop
  | post (task : T) : Move beast calm c (c.post task)
  | complete {i : Nat} {ec : Option ErrorCode} {frame : Frame} {c' : Channel Stage P T}
      (done : c.complete i ec frame = some c') (allowed : beast → c.failed = true → ec.isSome = true) :
      Move beast calm c c'
  | drop {task : T} {rest} (front : c.strand = .posted task :: rest) : Move beast calm c c.popHandler
  | send {task : T} {rest} (front : c.strand = .posted task :: rest) (opened : c.mOpen = true)
      (running : c.mCloseRequested = false) (payload : P) :
      Move beast calm c (c.popHandler.enqueue payload)
  | close {task : T} {rest} (front : c.strand = .posted task :: rest) :
      Move beast calm c c.popHandler.closeTask
  | connect {task : T} {rest} (front : c.strand = .posted task :: rest) (fresh : c.mOpen = false)
      (idle : c.inflight = []) (stage : Stage) : Move beast calm c (c.popHandler.start (.opening stage))
  | abandon {stage : Stage} {ec frame rest} (front : c.strand = .completed (.opening stage) ec frame :: rest) :
      Move beast calm c c.popHandler
  | advance {stage : Stage} {ec frame rest} (front : c.strand = .completed (.opening stage) ec frame :: rest)
      (next : Stage) : Move beast calm c (c.popHandler.start (.opening next))
  | begin (opened : c.mOpen = true) : Move beast calm c c.beginReading
  | reject (opened : c.mOpen = true) :
      Move beast calm c c.requestClose.maybeSendClose
  | read {ec frame rest} (front : c.strand = .completed .read ec frame :: rest)
      (allowed : calm → ec.isSome = true → c.writes = 0) : Move beast calm c (c.popHandler.onRead ec)
  | write {isText node ec frame rest} (front : c.strand = .completed (.write isText node) ec frame :: rest) :
      Move beast calm c (c.popHandler.onWrite ec)
  | closed {ec frame rest} (front : c.strand = .completed .close ec frame :: rest) :
      Move beast calm c c.popHandler

/-- The successful end of the opening operation opens the channel. -/
def Opens (c c' : Channel Stage P T) : Prop :=
  ∃ stage frame rest, c.strand = .completed (.opening stage) none frame :: rest ∧ c' = c.popHandler.setOpen

/-! ## What the operations do to the flags -/

variable {c c' : Channel Stage P T} {op : Op Stage P}

section Fields

@[simp] theorem start_mOpen : (c.start op).mOpen = c.mOpen := rfl
@[simp] theorem start_mWriteQueue : (c.start op).mWriteQueue = c.mWriteQueue := rfl
@[simp] theorem start_mCloseSent : (c.start op).mCloseSent = c.mCloseSent := rfl
@[simp] theorem start_mCloseRequested : (c.start op).mCloseRequested = c.mCloseRequested := rfl
@[simp] theorem start_strand : (c.start op).strand = c.strand := rfl
@[simp] theorem start_failed : (c.start op).failed = c.failed := rfl
@[simp] theorem start_emptyAccess : (c.start op).emptyAccess = c.emptyAccess := rfl
@[simp] theorem setText_mWriteQueue (isText : Bool) : (c.setText isText).mWriteQueue = c.mWriteQueue := rfl
@[simp] theorem popHandler_mOpen : c.popHandler.mOpen = c.mOpen := rfl
@[simp] theorem popHandler_mWriteQueue : c.popHandler.mWriteQueue = c.mWriteQueue := rfl
@[simp] theorem popHandler_mCloseSent : c.popHandler.mCloseSent = c.mCloseSent := rfl
@[simp] theorem popHandler_mCloseRequested : c.popHandler.mCloseRequested = c.mCloseRequested := rfl
@[simp] theorem popHandler_pending : c.popHandler.pending = c.pending := rfl
@[simp] theorem popHandler_failed : c.popHandler.failed = c.failed := rfl
@[simp] theorem popHandler_started : c.popHandler.started = c.started := rfl
@[simp] theorem popHandler_emptyAccess : c.popHandler.emptyAccess = c.emptyAccess := rfl

/-- What a completion leaves alone. -/
theorem complete_fields {i : Nat} {ec : Option ErrorCode} {frame : Frame}
    (done : c.complete i ec frame = some c') :
    ∃ p ∈ c.pending, c' = { c with
      pending := c.pending.eraseIdx i
      strand := c.strand ++ [.completed p.op ec frame]
      failed := c.failed || ec.isSome } := by
  unfold complete at done
  split at done
  next => cases done
  next p found => cases done; exact ⟨p, List.mem_of_getElem? found, rfl⟩

/-! Handlers leave the strand behind them alone. -/

theorem maybeSendClose_strand : c.maybeSendClose.strand = c.strand := by
  unfold maybeSendClose
  split <;> rfl

theorem doWrite_strand [Payload P] : c.doWrite.strand = c.strand := by
  unfold doWrite
  split <;> rfl

theorem popFront_strand : c.popFront.strand = c.strand := by
  unfold popFront
  split <;> rfl

theorem enqueue_strand [Payload P] (payload : P) : (c.enqueue payload).strand = c.strand := by
  simp only [enqueue]
  split
  · exact doWrite_strand
  · rfl

theorem closeTask_strand : c.closeTask.strand = c.strand := by
  unfold closeTask
  split
  · exact maybeSendClose_strand
  · rfl

theorem beginReading_strand : c.beginReading.strand = c.strand := by
  unfold beginReading
  split
  · exact maybeSendClose_strand
  · rfl

theorem onRead_strand (ec : Option ErrorCode) : (c.onRead ec).strand = c.strand := by
  unfold onRead
  split <;> rfl

theorem onWrite_strand [Payload P] (ec : Option ErrorCode) : (c.onWrite ec).strand = c.strand := by
  unfold onWrite
  split
  · rfl
  · split
    · exact doWrite_strand.trans popFront_strand
    · split
      · exact maybeSendClose_strand.trans popFront_strand
      · exact popFront_strand

end Fields

/-! ## Counting writes -/

@[simp] theorem writes_start : (c.start op).writes = c.writes + if op.isWrite then 1 else 0 := by
  rw [writes, (inflight_start_perm op).countP_eq]
  simp [writes, List.countP_cons]

theorem writes_pop_posted {task : T} {rest} (front : c.strand = .posted task :: rest) :
    c.popHandler.writes = c.writes := by
  rw [writes, inflight_pop_posted front, writes]

theorem writes_pop_completed {ec frame rest} (front : c.strand = .completed op ec frame :: rest) :
    c.writes = c.popHandler.writes + if op.isWrite then 1 else 0 := by
  rw [writes, (inflight_pop_completed front).countP_eq]
  simp [writes, List.countP_cons]

/-! ## Counting opening operations -/

@[simp] theorem openings_start : (c.start op).openings = c.openings + if op.isOpening then 1 else 0 := by
  rw [openings, (inflight_start_perm op).countP_eq]
  simp [openings, List.countP_cons]

theorem openings_maybeSendClose : c.maybeSendClose.openings = c.openings := by
  unfold maybeSendClose
  split
  · rfl
  · rw [openings_start]; rfl

theorem openings_doWrite [Payload P] : c.doWrite.openings = c.openings := by
  unfold doWrite
  split
  · rfl
  · simp only [openings_start, Op.isOpening]; rfl

theorem openings_popFront : c.popFront.openings = c.openings := by
  unfold popFront
  split <;> rfl

theorem openings_enqueue [Payload P] (payload : P) : (c.enqueue payload).openings = c.openings := by
  simp only [enqueue]
  split
  · exact openings_doWrite
  · rfl

theorem openings_closeTask : c.closeTask.openings = c.openings := by
  unfold closeTask
  split
  · exact openings_maybeSendClose
  · rw [openings, inflight_cancel]; rfl

theorem openings_beginReading : c.beginReading.openings = c.openings := by
  unfold beginReading doRead
  rw [openings_start]
  split
  · exact openings_maybeSendClose
  · rfl

theorem openings_onWrite [Payload P] (ec : Option ErrorCode) : (c.onWrite ec).openings = c.openings := by
  unfold onWrite
  split
  · rfl
  · split
    · exact openings_doWrite.trans openings_popFront
    · split
      · exact openings_maybeSendClose.trans openings_popFront
      · exact openings_popFront

theorem openings_pop {h : Handler Stage P T} {rest} (front : c.strand = h :: rest) :
    c.popHandler.openings + (if (h.op?.any Op.isOpening) then 1 else 0) = c.openings := by
  cases h with
  | posted task =>
    simp only [openings, inflight_pop_posted front, Handler.op?, Option.any_none, Bool.false_eq_true, if_false,
      Nat.add_zero]
  | completed op ec frame =>
    simp only [openings, (inflight_pop_completed front).countP_eq, List.countP_cons, Handler.op?, Option.any_some]
    rfl

/-! ## The flags -/

/-- The two flags a class's view of its sessions depends on. -/
def flags (c : Channel Stage P T) : Bool × Bool := (c.mOpen, c.mCloseRequested)

theorem flags_start (op : Op Stage P) : (c.start op).flags = c.flags := rfl

theorem flags_maybeSendClose : c.maybeSendClose.flags = c.flags := by
  unfold maybeSendClose
  split <;> rfl

theorem flags_doWrite [Payload P] : c.doWrite.flags = c.flags := by
  unfold doWrite
  split <;> rfl

theorem flags_popFront : c.popFront.flags = c.flags := by
  unfold popFront
  split <;> rfl

theorem flags_enqueue [Payload P] (payload : P) : (c.enqueue payload).flags = c.flags := by
  simp only [enqueue]
  split
  · exact flags_doWrite
  · rfl

theorem flags_onWrite [Payload P] : (c.onWrite none).flags = c.flags := by
  unfold onWrite
  split
  · next bad => cases bad
  · split
    · exact flags_doWrite.trans flags_popFront
    · split
      · exact flags_maybeSendClose.trans flags_popFront
      · exact flags_popFront

theorem flags_beginReading : c.beginReading.flags = c.flags := by
  unfold beginReading doRead
  rw [flags_start]
  split
  · exact flags_maybeSendClose
  · rfl

theorem flags_closeTask : c.closeTask.flags = (c.mOpen, true) := by
  unfold closeTask
  split
  · exact flags_maybeSendClose
  · rfl

/-! ## The flow invariant -/

structure Flow (c : Channel Stage P T) : Prop where
  empty : c.mOpen = false → c.mWriteQueue = []
  busy : c.mOpen = true → c.writes = if c.mWriteQueue.isEmpty then 0 else 1
  front : c.mOpen = true → ∀ isText node, .write isText node ∈ c.inflight → c.mWriteQueue.head? = some node
  unopened : ∀ stage, .opening stage ∈ c.inflight → c.mOpen = false ∧ c.inflight.length = 1

/-- Only the open flag, the queue and the operations in flight matter, up to their order. -/
theorem Flow.of_perm (flow : c.Flow) (opened : c'.mOpen = c.mOpen)
    (queue : c'.mWriteQueue = c.mWriteQueue) (ops : c'.inflight.Perm c.inflight) : c'.Flow where
  empty h := by rw [queue]; exact flow.empty (opened ▸ h)
  busy h := by rw [writes, ops.countP_eq, queue]; exact flow.busy (opened ▸ h)
  front h isText node mem := by rw [queue]; exact flow.front (opened ▸ h) isText node (ops.mem_iff.1 mem)
  unopened stage mem := by rw [opened, ops.length_eq]; exact flow.unopened stage (ops.mem_iff.1 mem)

/-- The opening operation runs alone, so none is in flight beside another operation. -/
theorem Flow.alone (flow : c.Flow) {stage : Stage} {rest : List (Op Stage P)}
    (ops : c.inflight.Perm (.opening stage :: rest)) : c.mOpen = false ∧ rest = [] := by
  have facts := flow.unopened stage (ops.mem_iff.2 List.mem_cons_self)
  refine ⟨facts.1, List.length_eq_zero_iff.1 ?_⟩
  have := ops.length_eq
  simp only [List.length_cons] at this
  omega

/-- No opening operation is in flight beside another operation. -/
theorem Flow.settled (flow : c.Flow) (ops : c.inflight.Perm (op :: c'.inflight)) :
    ∀ stage, .opening stage ∉ c'.inflight := by
  intro stage mem
  have len := (flow.unopened stage (ops.mem_iff.2 (List.mem_cons_of_mem _ mem))).2
  rw [ops.length_eq, List.length_cons] at len
  have : c'.inflight = [] := List.length_eq_zero_iff.1 (by omega)
  simp [this] at mem

theorem Flow.settled_of_open (flow : c.Flow) (opened : c.mOpen = true) :
    ∀ stage, .opening stage ∉ c.inflight := by
  intro stage mem
  have closed := (flow.unopened stage mem).1
  rw [opened] at closed
  cases closed

/-- Starting a read or a close. -/
theorem Flow.start_other (flow : c.Flow) (noWrite : op.isWrite = false) (other : op.isOpening = false)
    (settled : ∀ stage, .opening stage ∉ c.inflight) : (c.start op).Flow where
  empty := flow.empty
  busy h := by simpa [noWrite] using flow.busy h
  front h isText node mem := by
    rcases List.mem_cons.1 ((inflight_start_perm op).mem_iff.1 mem) with same | mem
    · subst same; cases noWrite
    · exact flow.front h isText node mem
  unopened stage mem := by
    rcases List.mem_cons.1 ((inflight_start_perm op).mem_iff.1 mem) with same | mem
    · subst same; cases other
    · exact absurd mem (settled stage)

theorem Flow.maybeSendClose (flow : c.Flow) (settled : ∀ stage, .opening stage ∉ c.inflight) :
    c.maybeSendClose.Flow := by
  unfold Channel.maybeSendClose
  split
  · exact flow
  · exact Flow.start_other (flow.of_perm rfl rfl .rfl) rfl rfl settled

/-- Writing the front element when no write is in flight. -/
theorem Flow.doWrite [Payload P] {node : Node P} {rest : List (Node P)}
    (queue : c.mWriteQueue = node :: rest) (opened : c.mOpen = true) (idle : c.writes = 0)
    (settled : ∀ stage, .opening stage ∉ c.inflight) : c.doWrite.Flow := by
  have old : ∀ isText node, .write isText node ∉ c.inflight := by
    intro isText node mem
    exact List.countP_eq_zero.1 idle _ mem rfl
  have ops := inflight_start_perm (c := c.setText (Payload.isText node.payload))
    (.write (Payload.isText node.payload) node)
  have result : c.doWrite = (c.setText (Payload.isText node.payload)).start
      (.write (Payload.isText node.payload) node) := by
    simp only [Channel.doWrite, queue]
  rw [result]
  refine ⟨fun h => ?_, fun _ => ?_, fun _ isText node' mem => ?_, fun stage mem => ?_⟩
  · exact absurd (opened.symm.trans h) (by decide)
  · have zero : (c.setText (Payload.isText node.payload)).writes = 0 := idle
    rw [writes_start, zero, start_mWriteQueue, setText_mWriteQueue, queue]
    rfl
  · rcases List.mem_cons.1 (ops.mem_iff.1 mem) with same | mem
    · cases same
      rw [start_mWriteQueue, setText_mWriteQueue, queue, List.head?_cons]
    · exact absurd mem (old isText node')
  · rcases List.mem_cons.1 (ops.mem_iff.1 mem) with same | mem
    · cases same
    · exact absurd mem (settled stage)

theorem Flow.handleClosed (flow : c.Flow) : c.handleClosed.Flow where
  empty _ := rfl
  busy h := by cases h
  front h := by cases h
  unopened stage mem := ⟨rfl, (flow.unopened stage mem).2⟩

/-- Running the handler of an operation other than a write. -/
theorem Flow.pop (flow : c.Flow) {ec frame rest} (front : c.strand = .completed op ec frame :: rest)
    (noWrite : op.isWrite = false) : c.popHandler.Flow := by
  have ops := inflight_pop_completed front
  refine ⟨flow.empty, fun h => ?_, fun h isText node mem => ?_, fun stage mem => ?_⟩
  · have := writes_pop_completed front
    simp only [noWrite] at this
    exact this.symm.trans (flow.busy h)
  · exact flow.front h isText node (ops.mem_iff.2 (List.mem_cons_of_mem _ mem))
  · have len := flow.unopened stage (ops.mem_iff.2 (List.mem_cons_of_mem _ mem))
    rw [ops.length_eq, List.length_cons] at len
    have : c.popHandler.inflight = [] := List.length_eq_zero_iff.1 (by omega)
    simp [this] at mem

/-- The queue and the writes in flight when the handler of a write runs on an open channel. -/
theorem Flow.written (flow : c.Flow) {isText node ec frame rest}
    (front : c.strand = .completed (.write isText node) ec frame :: rest) (opened : c.mOpen = true) :
    (∃ tail, c.mWriteQueue = node :: tail) ∧ c.popHandler.writes = 0 := by
  have head := flow.front opened isText node
    ((inflight_pop_completed front).mem_iff.2 List.mem_cons_self)
  have count := flow.busy opened
  rw [writes_pop_completed front] at count
  cases queue : c.mWriteQueue with
  | nil => simp [queue] at head
  | cons first tail =>
    simp only [queue, List.head?_cons, Option.some.injEq] at head
    simp [queue, Op.isWrite] at count
    exact ⟨⟨tail, by rw [head]⟩, count⟩

/-- A closed channel with an empty queue. -/
theorem Flow.of_closed (closed : c.mOpen = false) (queue : c.mWriteQueue = [])
    (settled : ∀ stage, .opening stage ∉ c.inflight) : c.Flow where
  empty _ := queue
  busy h := absurd (closed.symm.trans h) (by decide)
  front h := absurd (closed.symm.trans h) (by decide)
  unopened stage mem := absurd mem (settled stage)

/-- A channel with an empty queue and no write in flight. -/
theorem Flow.of_idle (queue : c.mWriteQueue = []) (idle : c.writes = 0)
    (settled : ∀ stage, .opening stage ∉ c.inflight) : c.Flow where
  empty _ := queue
  busy _ := by rw [idle, queue]; rfl
  front _ isText node mem := absurd rfl (List.countP_eq_zero.1 idle _ mem)
  unopened stage mem := absurd mem (settled stage)

theorem Flow.onWrite [Payload P] (flow : c.Flow) {isText node ec frame rest}
    (front : c.strand = .completed (.write isText node) ec frame :: rest) : (c.popHandler.onWrite ec).Flow := by
  have settled := flow.settled (inflight_pop_completed front)
  unfold Channel.onWrite
  split
  · exact .of_closed rfl rfl settled
  cases opened : c.mOpen with
  | false =>
    -- only without the Beast promise: the queue is already gone
    have queue := flow.empty opened
    have popped : c.popHandler.popFront = c.popHandler.touchEmpty := by
      simp only [popFront, popHandler_mWriteQueue, queue]
    have flow' : c.popHandler.touchEmpty.Flow := .of_closed opened queue settled
    rw [popped, show c.popHandler.touchEmpty.mWriteQueue = [] from queue]
    simp only [List.isEmpty_nil, Bool.not_true, Bool.false_eq_true, if_false]
    split
    · exact flow'.maybeSendClose settled
    · exact flow'
  | true =>
    obtain ⟨⟨tail, queue⟩, idle⟩ := flow.written front opened
    have popped : c.popHandler.popFront = c.popHandler.setQueue tail := by
      simp only [popFront, popHandler_mWriteQueue, queue]
    rw [popped, show (c.popHandler.setQueue tail).mWriteQueue = tail from rfl]
    cases tail with
    | nil =>
      have flow' : (c.popHandler.setQueue []).Flow := .of_idle rfl idle settled
      simp only [List.isEmpty_nil, Bool.not_true, Bool.false_eq_true, if_false]
      split
      · exact flow'.maybeSendClose settled
      · exact flow'
    | cons next tail =>
      simp only [List.isEmpty_cons, Bool.not_false, if_true]
      exact Flow.doWrite rfl opened idle settled

theorem Flow.enqueue [Payload P] (flow : c.Flow) (opened : c.mOpen = true) (payload : P) :
    (c.enqueue payload).Flow := by
  have settled := flow.settled_of_open opened
  have count := flow.busy opened
  cases queue : c.mWriteQueue with
  | nil =>
    rw [queue] at count
    have pushed : (c.pushBack payload).mWriteQueue = [⟨c.serial, payload⟩] := by
      simp only [pushBack, queue, List.nil_append]
    simp only [Channel.enqueue, pushed, List.length_singleton, if_true]
    exact Flow.doWrite pushed opened count settled
  | cons first tail =>
    rw [queue] at count
    have pushed : (c.pushBack payload).mWriteQueue = first :: (tail ++ [⟨c.serial, payload⟩]) := by
      simp only [pushBack, queue, List.cons_append]
    have long : ¬ (c.pushBack payload).mWriteQueue.length = 1 := by
      rw [pushed]; simp
    simp only [Channel.enqueue, long, if_false]
    refine ⟨fun h => ?_, fun _ => ?_, fun _ isText node mem => ?_, fun stage mem => absurd mem (settled stage)⟩
    · exact absurd (opened.symm.trans h) (by decide)
    · rw [pushed]; exact count
    · have head := flow.front opened isText node mem
      rw [queue] at head
      rw [pushed]; exact head

/-- A fresh channel starts its opening operation. -/
theorem Flow.opening (fresh : c.mOpen = false) (queue : c.mWriteQueue = []) (none : c.inflight = [])
    (stage : Stage) : (c.start (.opening stage)).Flow where
  empty _ := queue
  busy h := absurd (fresh.symm.trans h) (by decide)
  front h := absurd (fresh.symm.trans h) (by decide)
  unopened stage' _ := ⟨fresh, by rw [(inflight_start_perm _).length_eq, none]; rfl⟩

/-- **Every move keeps the flow invariant**, whatever Beast does. -/
theorem Move.flow [Payload P] {beast calm : Prop} (move : Move beast calm c c') (flow : c.Flow) : c'.Flow := by
  cases move with
  | post task => exact flow.of_perm rfl rfl (by rw [inflight_post])
  | complete done allowed =>
    obtain ⟨p, -, rfl⟩ := complete_fields done
    exact flow.of_perm rfl rfl (inflight_complete done)
  | drop front => exact flow.of_perm rfl rfl (by rw [inflight_pop_posted front])
  | send front opened running payload =>
    have popped : c.popHandler.Flow := flow.of_perm rfl rfl (by rw [inflight_pop_posted front])
    exact popped.enqueue opened payload
  | close front =>
    have popped : c.popHandler.requestClose.Flow :=
      flow.of_perm rfl rfl (by rw [inflight_requestClose, inflight_pop_posted front])
    unfold Channel.closeTask
    split
    · next opened => exact popped.maybeSendClose (popped.settled_of_open opened)
    · exact popped.of_perm rfl rfl (by rw [inflight_cancel])
  | connect front fresh idle stage =>
    have none : c.popHandler.inflight = [] := by rw [inflight_pop_posted front, idle]
    exact Flow.opening (c := c.popHandler) fresh (flow.empty fresh) none stage
  | abandon front => exact flow.pop front rfl
  | advance front next =>
    obtain ⟨fresh, none⟩ := flow.alone (inflight_pop_completed front)
    exact Flow.opening (c := c.popHandler) fresh (flow.empty fresh) none next
  | begin opened =>
    have settled := flow.settled_of_open opened
    unfold beginReading
    split
    · have sent := flow.maybeSendClose settled
      refine sent.start_other rfl rfl (sent.settled_of_open ?_)
      unfold Channel.maybeSendClose
      split <;> exact opened
    · exact flow.start_other rfl rfl settled
  | reject opened =>
    have same : c.requestClose.Flow := flow.of_perm rfl rfl .rfl
    exact same.maybeSendClose (same.settled_of_open opened)
  | read front allowed =>
    have popped := flow.pop front rfl
    unfold Channel.onRead
    split
    · exact popped.handleClosed
    · exact popped.start_other rfl rfl (flow.settled (inflight_pop_completed front))
  | write front => exact flow.onWrite front
  | closed front => exact flow.pop front rfl

theorem Opens.flow (opens : Opens c c') (flow : c.Flow) : c'.Flow := by
  obtain ⟨stage, frame, rest, front, rfl⟩ := opens
  obtain ⟨fresh, none⟩ := flow.alone (inflight_pop_completed front)
  refine Flow.of_idle (flow.empty fresh) ?_ ?_
  · rw [writes, inflight_setOpen, none]; rfl
  · rw [inflight_setOpen, none]
    exact fun stage mem => by cases mem

theorem Opens.mOpen (opens : Opens c c') : c'.mOpen = true := by
  obtain ⟨stage, frame, rest, front, rfl⟩ := opens
  rfl

/-! ## Buffers of writes in flight -/

/-- Every write in flight writes the element at the front of the queue. -/
def BuffersHeld (c : Channel Stage P T) : Prop :=
  ∀ isText node, .write isText node ∈ c.inflight → c.mWriteQueue.head? = some node

/-- A closed channel has no write in flight. -/
def Drained (c : Channel Stage P T) : Prop := c.mOpen = false → c.writes = 0

theorem Flow.buffersHeld (flow : c.Flow) (drained : c.Drained) : c.BuffersHeld := by
  intro isText node mem
  cases opened : c.mOpen with
  | true => exact flow.front opened isText node mem
  | false => exact absurd rfl (List.countP_eq_zero.1 (drained opened) _ mem)

theorem maybeSendClose_mOpen : c.maybeSendClose.mOpen = c.mOpen := by
  unfold maybeSendClose
  split <;> rfl

/-- Without a read error during a write, every move keeps a closed channel free of writes. -/
theorem Move.drained [Payload P] {beast : Prop} (move : Move beast True c c') (flow : c.Flow)
    (drained : c.Drained) : c'.Drained := by
  cases move with
  | post task => intro closed; rw [writes, inflight_post]; exact drained closed
  | complete done allowed =>
    intro closed
    obtain ⟨p, -, same⟩ := complete_fields done
    rw [writes, (inflight_complete done).countP_eq]
    exact drained (by rw [same] at closed; exact closed)
  | drop front => intro closed; rw [writes_pop_posted front]; exact drained closed
  | send front opened running payload =>
    intro closed
    have same : (c.popHandler.enqueue payload).mOpen = c.mOpen := by
      simp only [Channel.enqueue, Channel.doWrite]
      split
      · split <;> rfl
      · rfl
    exact absurd (opened.symm.trans (same.symm.trans closed)) (by decide)
  | close front =>
    unfold closeTask
    split
    · next opened =>
      intro closed
      rw [maybeSendClose_mOpen] at closed
      exact absurd (opened.symm.trans closed) (by decide)
    · intro closed
      rw [writes, inflight_cancel, inflight_requestClose, inflight_pop_posted front]
      exact drained closed
  | connect front fresh idle stage =>
    intro _
    rw [writes_start, writes_pop_posted front]
    exact drained fresh
  | abandon front =>
    intro closed
    have count := writes_pop_completed front
    rw [drained closed] at count
    simp only [Op.isWrite] at count
    exact count.symm
  | advance front next =>
    intro closed
    have count := writes_pop_completed front
    rw [drained closed] at count
    rw [writes_start]
    simp only [Op.isWrite] at count ⊢
    exact count.symm
  | begin opened =>
    intro closed
    have same : c.beginReading.mOpen = c.mOpen := by
      unfold beginReading
      split
      · exact maybeSendClose_mOpen
      · rfl
    exact absurd (opened.symm.trans (same.symm.trans closed)) (by decide)
  | reject opened =>
    intro closed
    rw [maybeSendClose_mOpen] at closed
    exact absurd (opened.symm.trans closed) (by decide)
  | read front allowed =>
    have count := writes_pop_completed front
    simp only [Op.isWrite, Bool.false_eq_true, if_false, Nat.add_zero] at count
    unfold Channel.onRead
    split
    · next bad => exact fun _ => count.symm.trans (allowed trivial bad)
    · intro closed
      rw [Channel.doRead, writes_start, ← count, drained closed]
      rfl
  | @write isText node ec frame rest front =>
    have opened : c.mOpen = true := by
      cases closed : c.mOpen with
      | true => rfl
      | false =>
        have count := writes_pop_completed front
        rw [drained closed] at count
        simp [Op.isWrite] at count
    obtain ⟨⟨tail, queue⟩, idle⟩ := flow.written front opened
    have popped : c.popHandler.popFront = c.popHandler.setQueue tail := by
      simp only [popFront, popHandler_mWriteQueue, queue]
    unfold Channel.onWrite
    split
    · exact fun _ => idle
    · rw [popped]
      intro closed
      have same : ∀ b : Channel Stage P T, b.doWrite.mOpen = b.mOpen := by
        intro b
        unfold Channel.doWrite
        split <;> rfl
      split at closed
      · rw [same] at closed
        exact absurd (opened.symm.trans closed) (by decide)
      · split at closed
        · rw [maybeSendClose_mOpen] at closed
          exact absurd (opened.symm.trans closed) (by decide)
        · exact absurd (opened.symm.trans closed) (by decide)
  | closed front =>
    intro closed
    have count := writes_pop_completed front
    rw [drained closed] at count
    simp only [Op.isWrite] at count
    exact count.symm

/-- A read error handled during a write leaves that write without its buffer. -/
theorem not_buffersHeld_of_readError {e : ErrorCode} {frame rest}
    (front : c.strand = .completed .read (some e) frame :: rest) (busy : c.writes ≠ 0) :
    ¬ (c.popHandler.onRead (some e)).BuffersHeld := by
  have count := writes_pop_completed front
  simp only [Op.isWrite, Bool.false_eq_true, if_false, Nat.add_zero] at count
  obtain ⟨op, mem, isWrite⟩ := List.countP_pos_iff.1 (Nat.pos_of_ne_zero (count ▸ busy))
  intro held
  cases op with
  | write isText node =>
    have gone := held isText node mem
    cases gone
  | opening stage => cases isWrite
  | read => cases isWrite
  | close => cases isWrite

end Channel

end Websockets
