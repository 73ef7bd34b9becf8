import Websockets.Session.Moves

/-!
# The write side under Beast's promise

Beast completes every operation still outstanding with an error once one operation on the stream
has completed with an error. Under that promise a successful completion handler only ever runs
on an open channel (`Errors`), so `OnWrite` never meets a cleared queue, and the close frame is
sent once, after the last write (`CloseOnce`), and not forgotten (`NoLostClose`).
-/

namespace Websockets

namespace Channel

variable {Stage P T : Type} {c c' : Channel Stage P T} {op : Op Stage P}

/-! ## Errors -/

/-- Once an operation has failed, only failures follow it on the strand; what is left of a closed
channel fails. -/
structure Errors (c : Channel Stage P T) : Prop where
  ordered : c.strand.Pairwise fun a b => a.isError = true → b.isSuccess = false
  failed : ∀ h ∈ c.strand, h.isError = true → c.failed = true
  pending : c.mOpen = false → ∀ p ∈ c.pending, p.op.isOpening = false → c.failed = true
  strand : c.mOpen = false → ∀ op frame, .completed op none frame ∈ c.strand → op.isOpening = true

theorem Errors.pop (errors : c.Errors) : c.popHandler.Errors where
  ordered := errors.ordered.sublist (List.tail_sublist _)
  failed h mem := errors.failed h (List.mem_of_mem_tail mem)
  pending := errors.pending
  strand closed op frame mem := errors.strand closed op frame (List.mem_of_mem_tail mem)

/-- Operations are started on an open channel, except the opening ones. -/
theorem Errors.start (errors : c.Errors) (may : c.mOpen = true ∨ op.isOpening = true) :
    (c.start op).Errors where
  ordered := errors.ordered
  failed := errors.failed
  pending closed p mem other := by
    rcases List.mem_append.1 mem with mem | mem
    · exact errors.pending closed p mem other
    · obtain rfl := List.mem_singleton.1 mem
      rcases may with opened | opening
      · exact absurd (opened.symm.trans closed) (by decide)
      · exact absurd (opening.symm.trans other) (by decide)
  strand := errors.strand

theorem Errors.maybeSendClose (errors : c.Errors) (opened : c.mOpen = true) : c.maybeSendClose.Errors := by
  unfold Channel.maybeSendClose
  split
  · exact errors
  · have same : Errors { c with mCloseSent := true } :=
      ⟨errors.ordered, errors.failed, errors.pending, errors.strand⟩
    exact same.start (.inl opened)

theorem Errors.doWrite [Payload P] (errors : c.Errors) (opened : c.mOpen = true) : c.doWrite.Errors := by
  unfold Channel.doWrite
  split
  · exact ⟨errors.ordered, errors.failed, errors.pending, errors.strand⟩
  · next node rest queue =>
    have same : (c.setText (Payload.isText node.payload)).Errors :=
      ⟨errors.ordered, errors.failed, errors.pending, errors.strand⟩
    exact same.start (.inl opened)

theorem Errors.popFront (errors : c.Errors) : c.popFront.Errors := by
  unfold Channel.popFront
  split <;> exact ⟨errors.ordered, errors.failed, errors.pending, errors.strand⟩

@[simp] theorem popFront_mOpen : c.popFront.mOpen = c.mOpen := by
  unfold Channel.popFront
  split <;> rfl

/-- The handler of a failed operation closes the channel: everything behind it fails too. -/
theorem Errors.handleClosed (errors : c.Errors) {ec : Option ErrorCode} {frame rest}
    (front : c.strand = .completed op ec frame :: rest) (bad : ec.isSome = true) :
    c.popHandler.handleClosed.Errors := by
  obtain ⟨e, rfl⟩ := Option.isSome_iff_exists.1 bad
  have broken : c.failed = true := errors.failed _ (front ▸ List.mem_cons_self) rfl
  refine ⟨errors.pop.ordered, errors.pop.failed, fun _ _ _ _ => broken, fun _ op' frame' mem => ?_⟩
  have behind := errors.ordered
  rw [front, List.pairwise_cons] at behind
  have later : Handler.completed op' none frame' ∈ rest := by
    have tail : c.popHandler.handleClosed.strand = rest := by
      simp only [Channel.handleClosed, popHandler, front, List.tail_cons]
    exact tail ▸ mem
  exact absurd (behind.1 _ later rfl) (by simp [Handler.isSuccess])

/-- A successful handler of an operation other than an opening one runs on an open channel. -/
theorem Errors.opened (errors : c.Errors) {frame rest} (front : c.strand = .completed op none frame :: rest)
    (other : op.isOpening = false) : c.mOpen = true := by
  cases closed : c.mOpen with
  | true => rfl
  | false =>
    have opening := errors.strand closed op frame (front ▸ List.mem_cons_self)
    exact absurd (opening.symm.trans other) (by decide)

theorem Errors.complete (errors : c.Errors) {i : Nat} {ec : Option ErrorCode} {frame : Frame}
    (done : c.complete i ec frame = some c') (allowed : c.failed = true → ec.isSome = true) : c'.Errors := by
  obtain ⟨p, pend, rfl⟩ := complete_fields done
  refine ⟨?_, fun h mem bad => ?_, fun closed q mem other => ?_, fun closed op frame' mem => ?_⟩
  · refine List.pairwise_append.2 ⟨errors.ordered, List.pairwise_singleton _ _, fun a mem b last bad => ?_⟩
    obtain rfl := List.mem_singleton.1 last
    obtain ⟨e, rfl⟩ := Option.isSome_iff_exists.1 (allowed (errors.failed a mem bad))
    rfl
  · rcases List.mem_append.1 mem with mem | mem
    · simp only [errors.failed h mem bad, Bool.true_or]
    · obtain rfl := List.mem_singleton.1 mem
      cases ec with
      | none => cases bad
      | some e => simp only [Option.isSome_some, Bool.or_true]
  · simp only [errors.pending closed q (List.mem_of_mem_eraseIdx mem) other, Bool.true_or]
  · rcases List.mem_append.1 mem with mem | mem
    · exact errors.strand closed op frame' mem
    · cases List.mem_singleton.1 mem
      cases opening : p.op.isOpening with
      | true => rfl
      | false =>
        have := allowed (errors.pending closed p pend opening)
        cases this

theorem Move.errors [Payload P] {calm : Prop} (move : Move True calm c c') (errors : c.Errors) : c'.Errors := by
  cases move with
  | post task =>
    refine ⟨?_, fun h mem bad => ?_, errors.pending, fun closed op frame mem => ?_⟩
    · refine List.pairwise_append.2 ⟨errors.ordered, List.pairwise_singleton _ _, fun a _ b last _ => ?_⟩
      obtain rfl := List.mem_singleton.1 last
      rfl
    · rcases List.mem_append.1 mem with mem | mem
      · exact errors.failed h mem bad
      · obtain rfl := List.mem_singleton.1 mem
        cases bad
    · rcases List.mem_append.1 mem with mem | mem
      · exact errors.strand closed op frame mem
      · cases List.mem_singleton.1 mem
  | complete done allowed => exact errors.complete done (allowed trivial)
  | drop front => exact errors.pop
  | send front opened running payload =>
    have pushed : (c.popHandler.pushBack payload).Errors :=
      ⟨errors.pop.ordered, errors.pop.failed, errors.pop.pending, errors.pop.strand⟩
    unfold Channel.enqueue
    simp only
    split
    · exact pushed.doWrite opened
    · exact pushed
  | close front =>
    have asked : c.popHandler.requestClose.Errors :=
      ⟨errors.pop.ordered, errors.pop.failed, errors.pop.pending, errors.pop.strand⟩
    unfold Channel.closeTask
    split
    · next opened => exact asked.maybeSendClose opened
    · refine ⟨asked.ordered, asked.failed, fun closed p mem other => ?_, asked.strand⟩
      obtain ⟨q, was, rfl⟩ := List.mem_map.1 mem
      exact asked.pending closed q was other
  | connect front fresh idle stage => exact errors.pop.start (.inr rfl)
  | abandon front => exact errors.pop
  | advance front next => exact errors.pop.start (.inr rfl)
  | begin opened =>
    unfold beginReading
    split
    · refine (errors.maybeSendClose opened).start (.inl ?_)
      unfold Channel.maybeSendClose
      split <;> exact opened
    · exact errors.start (.inl opened)
  | reject opened =>
    have asked : c.requestClose.Errors := ⟨errors.ordered, errors.failed, errors.pending, errors.strand⟩
    exact asked.maybeSendClose opened
  | read front allowed =>
    unfold Channel.onRead
    split
    · next bad => exact errors.handleClosed front bad
    · next good =>
      rw [Option.not_isSome_iff_eq_none.1 good] at front
      exact errors.pop.start (.inl (errors.opened front rfl))
  | write front =>
    unfold Channel.onWrite
    split
    · next bad => exact errors.handleClosed front bad
    · next good =>
      rw [Option.not_isSome_iff_eq_none.1 good] at front
      have opened : c.popHandler.popFront.mOpen = true := by
        rw [popFront_mOpen]
        exact errors.opened front rfl
      split
      · exact errors.pop.popFront.doWrite opened
      · split
        · exact errors.pop.popFront.maybeSendClose opened
        · exact errors.pop.popFront
  | closed front => exact errors.pop

theorem Opens.errors (opens : Opens c c') (errors : c.Errors) : c'.Errors := by
  obtain ⟨stage, frame, rest, front, rfl⟩ := opens
  refine ⟨errors.pop.ordered, errors.pop.failed, fun closed => ?_, fun closed => ?_⟩
  · cases closed
  · cases closed

/-! ## The close frame -/

/-- The close is asked for, started once and after the last write. -/
structure CloseOnce (c : Channel Stage P T) : Prop where
  sent : c.mCloseSent = true → c.mCloseRequested = true ∧ c.mWriteQueue = [] ∧ c.writes = 0
  started : .close ∈ c.started → c.mCloseSent = true
  inflight : .close ∈ c.inflight → c.mCloseSent = true
  last : c.started.Pairwise fun a b => a = .close → b.isWriteType = false
  writes : c.writes ≤ 1
  closes : c.closes ≤ 1
  defined : c.emptyAccess = false

/-- At most one write-type operation is in flight. -/
theorem CloseOnce.single (once : c.CloseOnce) : c.inflight.countP Op.isWriteType ≤ 1 := by
  have sum : ∀ ops : List (Op Stage P),
      ops.countP Op.isWriteType = ops.countP Op.isWrite + ops.countP Op.isClose := by
    intro ops
    induction ops with
    | nil => rfl
    | cons op ops ih =>
      simp only [List.countP_cons, ih]
      cases op <;> simp [Op.isWriteType, Op.isWrite, Op.isClose] <;> omega
  rw [sum]
  cases sent : c.mCloseSent with
  | true =>
    have none : c.inflight.countP Op.isWrite = 0 := (once.sent sent).2.2
    have := once.closes
    unfold Channel.closes at this
    omega
  | false =>
    have none : c.inflight.countP Op.isClose = 0 := by
      refine List.countP_eq_zero.2 fun op mem => ?_
      cases op with
      | close => exact absurd (sent.symm.trans (once.inflight mem)) (by decide)
      | opening stage => simp [Op.isClose]
      | read => simp [Op.isClose]
      | write isText node => simp [Op.isClose]
    have := once.writes
    unfold Channel.writes at this
    omega

/-- Only the flags, the queue, the started operations and those in flight matter, up to order. -/
theorem CloseOnce.of_perm (once : c.CloseOnce) (ops : c'.inflight.Perm c.inflight)
    (sent : c'.mCloseSent = c.mCloseSent) (queue : c'.mWriteQueue = c.mWriteQueue)
    (asked : c.mCloseRequested = true → c'.mCloseRequested = true) (started : c'.started = c.started)
    (defined : c'.emptyAccess = c.emptyAccess) : c'.CloseOnce where
  sent h := by
    obtain ⟨was, none, idle⟩ := once.sent (sent ▸ h)
    exact ⟨asked was, queue.trans none, by rw [Channel.writes, ops.countP_eq]; exact idle⟩
  started h := by rw [sent]; exact once.started (started ▸ h)
  inflight h := by rw [sent]; exact once.inflight (ops.mem_iff.1 h)
  last := by rw [started]; exact once.last
  writes := by rw [Channel.writes, ops.countP_eq]; exact once.writes
  closes := by rw [Channel.closes, ops.countP_eq]; exact once.closes
  defined := by rw [defined]; exact once.defined

/-- Running a handler takes at most one operation out of flight. -/
theorem CloseOnce.pop (once : c.CloseOnce) {h : Handler Stage P T} {rest} (front : c.strand = h :: rest) :
    c.popHandler.CloseOnce := by
  have sub : ∀ {op}, op ∈ c.popHandler.inflight → op ∈ c.inflight := by
    intro op mem
    simp only [Channel.inflight, popHandler, List.mem_append] at mem ⊢
    refine mem.imp_right fun mem => ?_
    obtain ⟨h, mem, eq⟩ := List.mem_filterMap.1 mem
    exact List.mem_filterMap.2 ⟨h, List.mem_of_mem_tail mem, eq⟩
  have fewer : ∀ p : Op Stage P → Bool, c.popHandler.inflight.countP p ≤ c.inflight.countP p := by
    intro p
    cases h with
    | posted task => exact Nat.le_of_eq (by rw [inflight_pop_posted front])
    | completed op ec frame =>
      rw [(inflight_pop_completed front).countP_eq, List.countP_cons]
      omega
  refine ⟨fun h => ?_, once.started, fun mem => once.inflight (sub mem), once.last,
    Nat.le_trans (fewer _) once.writes, Nat.le_trans (fewer _) once.closes, once.defined⟩
  obtain ⟨asked, queue, idle⟩ := once.sent h
  exact ⟨asked, queue, Nat.le_zero.1 (Nat.le_trans (fewer Op.isWrite) (Nat.le_of_eq idle))⟩

/-- Starting a read or an opening operation. -/
theorem CloseOnce.start (once : c.CloseOnce) (other : op.isWriteType = false) : (c.start op).CloseOnce := by
  have ops := inflight_start_perm (c := c) op
  have noWrite : op.isWrite = false := by cases op <;> first | rfl | cases other
  have noClose : op.isClose = false := by cases op <;> first | rfl | cases other
  have differs : op ≠ .close := by rintro rfl; cases other
  refine ⟨fun h => ?_, fun mem => ?_, fun mem => ?_, ?_, ?_, ?_, once.defined⟩
  · obtain ⟨asked, queue, idle⟩ := once.sent h
    exact ⟨asked, queue, by rw [writes_start, idle, noWrite]; rfl⟩
  · rcases List.mem_append.1 mem with mem | mem
    · exact once.started mem
    · exact absurd (List.mem_singleton.1 mem).symm differs
  · rcases List.mem_cons.1 (ops.mem_iff.1 mem) with same | mem
    · exact absurd same.symm differs
    · exact once.inflight mem
  · refine List.pairwise_append.2 ⟨once.last, List.pairwise_singleton _ _, fun a _ b mem _ => ?_⟩
    obtain rfl := List.mem_singleton.1 mem
    exact other
  · rw [writes_start, noWrite]; exact once.writes
  · rw [Channel.closes, ops.countP_eq, List.countP_cons, noClose]; exact once.closes

/-- `MaybeSendClose` on an open channel that was asked to close. -/
theorem CloseOnce.maybeSendClose (once : c.CloseOnce) (flow : c.Flow) (opened : c.mOpen = true)
    (asked : c.mCloseRequested = true) : c.maybeSendClose.CloseOnce := by
  unfold Channel.maybeSendClose
  split
  · exact once
  · next fresh =>
    have unsent : c.mCloseSent = false := by
      cases sent : c.mCloseSent with
      | false => rfl
      | true => simp [sent] at fresh
    have queue : c.mWriteQueue = [] := by simpa [unsent] using fresh
    have idle : c.writes = 0 := by rw [flow.busy opened, queue]; rfl
    have ops := inflight_start_perm (c := { c with mCloseSent := true }) .close
    have none : c.closes = 0 := by
      refine List.countP_eq_zero.2 fun op mem => ?_
      cases op with
      | close => exact absurd (unsent.symm.trans (once.inflight mem)) (by decide)
      | opening stage => simp [Op.isClose]
      | read => simp [Op.isClose]
      | write isText node => simp [Op.isClose]
    have count : (Channel.start { c with mCloseSent := true } .close).writes = 0 := by
      rw [Channel.writes, ops.countP_eq, List.countP_cons_of_neg (by simp [Op.isWrite])]
      exact idle
    refine ⟨fun _ => ⟨asked, queue, count⟩, fun _ => rfl, fun _ => rfl, ?_, by omega, ?_, once.defined⟩
    · refine List.pairwise_append.2 ⟨once.last, List.pairwise_singleton _ _, fun a mem b _ same => ?_⟩
      subst same
      exact absurd (unsent.symm.trans (once.started mem)) (by decide)
    · rw [Channel.closes, ops.countP_eq, List.countP_cons_of_pos (by rfl)]
      have : (Channel.inflight { c with mCloseSent := true }).countP Op.isClose = 0 := none
      omega

/-- Writing the front of the queue while no write is in flight and no close was sent. -/
theorem CloseOnce.doWrite [Payload P] (once : c.CloseOnce) {node : Node P} {tail : List (Node P)}
    (queue : c.mWriteQueue = node :: tail) (unsent : c.mCloseSent = false) (idle : c.writes = 0) :
    c.doWrite.CloseOnce := by
  have result : c.doWrite = (c.setText (Payload.isText node.payload)).start
      (.write (Payload.isText node.payload) node) := by
    simp only [Channel.doWrite, queue]
  have ops := inflight_start_perm (c := c.setText (Payload.isText node.payload))
    (.write (Payload.isText node.payload) node)
  rw [result]
  refine ⟨fun h => ?_, fun mem => ?_, fun mem => ?_, ?_, ?_, ?_, once.defined⟩
  · exact absurd (unsent.symm.trans h) (by decide)
  · rcases List.mem_append.1 mem with mem | mem
    · exact once.started mem
    · cases List.mem_singleton.1 mem
  · rcases List.mem_cons.1 (ops.mem_iff.1 mem) with same | mem
    · cases same
    · exact once.inflight mem
  · refine List.pairwise_append.2 ⟨once.last, List.pairwise_singleton _ _, fun a mem b _ same => ?_⟩
    subst same
    exact absurd (unsent.symm.trans (once.started mem)) (by decide)
  · have zero : (c.setText (Payload.isText node.payload)).writes = 0 := idle
    rw [writes_start, zero]
    simp [Op.isWrite]
  · rw [Channel.closes, ops.countP_eq, List.countP_cons_of_neg (by simp [Op.isClose])]
    exact once.closes

theorem CloseOnce.handleClosed (once : c.CloseOnce) : c.handleClosed.CloseOnce :=
  ⟨fun h => ⟨(once.sent h).1, rfl, (once.sent h).2.2⟩, once.started, once.inflight, once.last, once.writes,
    once.closes, once.defined⟩

/-- A queue that holds something has not been closed yet. -/
theorem CloseOnce.unsent (once : c.CloseOnce) (queue : c.mWriteQueue ≠ []) : c.mCloseSent = false := by
  cases sent : c.mCloseSent with
  | false => rfl
  | true => exact absurd (once.sent sent).2.1 queue

theorem CloseOnce.onWrite [Payload P] (once : c.CloseOnce) (flow : c.Flow) {isText node frame rest}
    (front : c.strand = .completed (.write isText node) none frame :: rest) (opened : c.mOpen = true) :
    (c.popHandler.onWrite none).CloseOnce := by
  obtain ⟨⟨tail, queue⟩, idle⟩ := flow.written front opened
  have unsent := once.unsent (queue ▸ List.cons_ne_nil _ _)
  have popped : c.popHandler.popFront = c.popHandler.setQueue tail := by
    simp only [popFront, popHandler_mWriteQueue, queue]
  have was := once.pop front
  have next : (c.popHandler.setQueue tail).CloseOnce :=
    ⟨fun h => absurd (unsent.symm.trans h) (by decide), was.started, was.inflight, was.last, was.writes,
      was.closes, was.defined⟩
  simp only [Channel.onWrite, Option.isSome_none, Bool.false_eq_true, if_false]
  rw [popped, show (c.popHandler.setQueue tail).mWriteQueue = tail from rfl]
  cases tail with
  | nil =>
    simp only [List.isEmpty_nil, Bool.not_true, Bool.false_eq_true, if_false]
    split
    · next asked =>
      have settled := flow.settled (inflight_pop_completed front)
      exact next.maybeSendClose (.of_idle rfl idle settled) opened asked
    · exact next
  | cons first tail =>
    simp only [List.isEmpty_cons, Bool.not_false, if_true]
    exact next.doWrite rfl unsent idle

theorem Move.closeOnce [Payload P] {calm : Prop} (move : Move True calm c c') (once : c.CloseOnce)
    (flow : c.Flow) (errors : c.Errors) : c'.CloseOnce := by
  cases move with
  | post task => exact once.of_perm (by rw [inflight_post]) rfl rfl id rfl rfl
  | complete done allowed =>
    obtain ⟨p, -, rfl⟩ := complete_fields done
    exact once.of_perm (inflight_complete done) rfl rfl id rfl rfl
  | drop front => exact once.pop front
  | send front opened running payload =>
    have unsent : c.mCloseSent = false := by
      cases sent : c.mCloseSent with
      | false => rfl
      | true => exact absurd (running.symm.trans (once.sent sent).1) (by decide)
    have was := once.pop front
    have pushed : (c.popHandler.pushBack payload).CloseOnce :=
      ⟨fun h => absurd (unsent.symm.trans h) (by decide), was.started, was.inflight, was.last, was.writes,
        was.closes, was.defined⟩
    unfold Channel.enqueue
    simp only
    split
    · next one =>
      obtain ⟨node, queue⟩ := List.length_eq_one_iff.1 one
      have empty : c.mWriteQueue = [] := by
        simp only [pushBack, popHandler_mWriteQueue, List.length_append, List.length_singleton] at one
        exact List.length_eq_zero_iff.1 (by omega)
      refine pushed.doWrite queue unsent ?_
      have count := flow.busy opened
      rw [empty] at count
      exact (writes_pop_posted front).trans count
    · exact pushed
  | close front =>
    have asked : c.popHandler.requestClose.CloseOnce :=
      (once.pop front).of_perm .rfl rfl rfl (fun _ => rfl) rfl rfl
    have flow' : c.popHandler.requestClose.Flow :=
      flow.of_perm rfl rfl (by rw [inflight_requestClose, inflight_pop_posted front])
    unfold Channel.closeTask
    split
    · next opened => exact asked.maybeSendClose flow' opened rfl
    · exact asked.of_perm (by rw [inflight_cancel]) rfl rfl id rfl rfl
  | connect front fresh idle stage => exact (once.pop front).start rfl
  | abandon front => exact once.pop front
  | advance front next => exact (once.pop front).start rfl
  | begin opened =>
    unfold beginReading
    split
    · next asked => exact (once.maybeSendClose flow opened asked).start rfl
    · exact once.start rfl
  | reject opened =>
    have asked : c.requestClose.CloseOnce := once.of_perm .rfl rfl rfl (fun _ => rfl) rfl rfl
    have flow' : c.requestClose.Flow := flow.of_perm rfl rfl .rfl
    exact asked.maybeSendClose flow' opened rfl
  | read front allowed =>
    unfold Channel.onRead
    split
    · exact (once.pop front).handleClosed
    · exact (once.pop front).start rfl
  | @write isText node ec frame rest front =>
    cases ec with
    | some e => exact (once.pop front).handleClosed
    | none => exact once.onWrite flow front (errors.opened front rfl)
  | closed front => exact once.pop front

theorem Opens.closeOnce (opens : Opens c c') (once : c.CloseOnce) : c'.CloseOnce := by
  obtain ⟨stage, frame, rest, front, rfl⟩ := opens
  exact (once.pop front).of_perm .rfl rfl rfl id rfl rfl

/-! ## No lost close -/

/-- A close that was asked for is sent once the queue is empty. -/
def NoLostClose (c : Channel Stage P T) : Prop :=
  c.mOpen = true → c.mCloseRequested = true → c.mWriteQueue = [] → c.mCloseSent = true

/-- After `MaybeSendClose` nothing is owed. -/
theorem noLostClose_maybeSendClose : c.maybeSendClose.NoLostClose := by
  intro _ _ queue
  unfold Channel.maybeSendClose at queue ⊢
  split
  · next held =>
    rw [if_pos held] at queue
    simpa [queue] using held
  · rfl

theorem noLostClose_of_queue (queue : c.mWriteQueue ≠ []) : c.NoLostClose :=
  fun _ _ empty => absurd empty queue

theorem doWrite_queue [Payload P] : c.doWrite.mWriteQueue = c.mWriteQueue := by
  unfold Channel.doWrite
  split
  · next queue => exact queue ▸ rfl
  · rfl

theorem noLostClose_beginReading : c.beginReading.NoLostClose := by
  unfold beginReading
  split
  · exact noLostClose_maybeSendClose
  · next running => exact fun _ asked => absurd asked running

/-- Every move keeps it; opening the channel may leave a close owed until the reading begins. -/
theorem Move.noLostClose [Payload P] {beast calm : Prop} (move : Move beast calm c c') (none : c.NoLostClose) :
    c'.NoLostClose := by
  cases move with
  | post task => exact none
  | complete done allowed =>
    obtain ⟨p, -, rfl⟩ := complete_fields done
    exact none
  | drop front => exact none
  | send front opened running payload =>
    apply noLostClose_of_queue
    unfold Channel.enqueue
    simp only
    split
    · rw [doWrite_queue]; simp [pushBack]
    · simp [pushBack]
  | close front =>
    unfold Channel.closeTask
    split
    · exact noLostClose_maybeSendClose
    · next closed => exact fun opened => absurd opened closed
  | connect front fresh idle stage => exact fun opened => absurd (fresh.symm.trans opened) (by decide)
  | abandon front => exact none
  | advance front next => exact none
  | begin opened => exact noLostClose_beginReading
  | reject opened => exact noLostClose_maybeSendClose
  | read front allowed =>
    unfold Channel.onRead
    split
    · exact fun opened => absurd opened Bool.false_ne_true
    · exact none
  | write front =>
    unfold Channel.onWrite
    split
    · exact fun opened => absurd opened Bool.false_ne_true
    · split
      · next more =>
        apply noLostClose_of_queue
        rw [doWrite_queue]
        simpa using more
      · split
        · exact noLostClose_maybeSendClose
        · next running =>
          intro _ asked _
          have same : c.popHandler.popFront.mCloseRequested = c.mCloseRequested := by
            unfold Channel.popFront
            split <;> rfl
          exact absurd (same ▸ asked) running
  | closed front => exact none

end Channel

end Websockets
