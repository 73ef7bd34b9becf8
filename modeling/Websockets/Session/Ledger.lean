import Websockets.Session.Guarantees

/-!
# What becomes of the payloads

The write loop is spread over `Send`, `DoWrite`, `OnWrite` and `MaybeSendClose`. `Ledger` relates the channel to
two lists that a run builds up, the payloads accepted and those whose write has succeeded: while the channel is
open the queue holds exactly the rest of the accepted ones, and the front of it is in flight.
-/

namespace Websockets

namespace Op

variable {Stage P : Type}

/-- What an operation hands to `async_write`: the kind and the bytes. -/
def handed? [Payload P] : Op Stage P → Option (Bool × Bytes)
  | write isText node => some (isText, Payload.buffer node.payload)
  | _ => none

end Op

/-- The kind and the bytes of a payload. -/
def kindAndBytes {P : Type} [Payload P] (payload : P) : Bool × Bytes :=
  (Payload.isText payload, Payload.buffer payload)

namespace Channel

/-! ## The length of the queue -/

section Queue

variable {Stage P T : Type} {c : Channel Stage P T}

theorem maybeSendClose_queue : c.maybeSendClose.mWriteQueue = c.mWriteQueue := by
  unfold Channel.maybeSendClose
  split <;> rfl

theorem closeTask_queue : c.closeTask.mWriteQueue = c.mWriteQueue := by
  unfold Channel.closeTask
  split
  · exact maybeSendClose_queue
  · rfl

theorem beginReading_queue : c.beginReading.mWriteQueue = c.mWriteQueue := by
  unfold Channel.beginReading Channel.doRead
  rw [start_mWriteQueue]
  split
  · exact maybeSendClose_queue
  · rfl

theorem enqueue_queue [Payload P] (payload : P) : (c.enqueue payload).mWriteQueue.length = c.mWriteQueue.length + 1 := by
  unfold Channel.enqueue
  simp only
  split
  · rw [doWrite_queue]
    simp [pushBack]
  · simp [pushBack]

theorem popFront_queue : c.popFront.mWriteQueue = c.mWriteQueue.tail := by
  unfold Channel.popFront
  split
  · next queue => exact queue.trans (by rw [queue]; rfl)
  · next queue => rw [queue]; rfl

theorem onRead_queue (ec : Option ErrorCode) : (c.onRead ec).mWriteQueue.length ≤ c.mWriteQueue.length := by
  unfold Channel.onRead
  split
  · exact Nat.zero_le _
  · exact Nat.le_refl _

theorem onWrite_queue [Payload P] (ec : Option ErrorCode) : (c.onWrite ec).mWriteQueue.length ≤ c.mWriteQueue.length := by
  have shorter : c.popFront.mWriteQueue.length ≤ c.mWriteQueue.length := by
    rw [popFront_queue, List.length_tail]
    omega
  unfold Channel.onWrite
  split
  · exact Nat.zero_le _
  · split
    · rw [doWrite_queue]
      exact shorter
    · split
      · rw [maybeSendClose_queue]
        exact shorter
      · exact shorter

end Queue

/-! ## The ledger -/

variable {Stage P T : Type} [Payload P]

/-- What has been passed to `async_write`. -/
def handed (c : Channel Stage P T) : List (Bool × Bytes) := c.started.filterMap Op.handed?

/-- The channel, the payloads accepted and those written. -/
structure Ledger (c : Channel Stage P T) (accepted written : List P) : Prop where
  queue : c.mOpen = true → accepted = written ++ c.mWriteQueue.map Node.payload
  flying : c.mOpen = true →
    c.handed = (written ++ (c.mWriteQueue.head?.map Node.payload).toList).map kindAndBytes
  handed : c.handed <+: accepted.map kindAndBytes
  sent : c.mCloseSent = true → written = accepted
  unopened : ∀ stage, .opening stage ∈ c.inflight → accepted = [] ∧ written = [] ∧ c.handed = []

variable {c c' : Channel Stage P T} {op : Op Stage P} {accepted written : List P} {h : Handler Stage P T}
  {rest : List (Handler Stage P T)} {frame : Frame}

theorem handed_start (other : op.isWrite = false) : (c.start op).handed = c.handed := by
  have none : op.handed? = none := by
    cases op with
    | write isText node => cases other
    | _ => rfl
  simp [Channel.handed, start, none]

/-- The ledger sees the flag, the queue, the operations started and those in flight. -/
theorem Ledger.of_same (ledger : c.Ledger accepted written) (opened : c'.mOpen = c.mOpen)
    (queue : c'.mWriteQueue = c.mWriteQueue) (sent : c'.mCloseSent = c.mCloseSent) (started : c'.handed = c.handed)
    (fewer : ∀ stage, .opening stage ∈ c'.inflight → .opening stage ∈ c.inflight) : c'.Ledger accepted written where
  queue h := by rw [queue]; exact ledger.queue (opened ▸ h)
  flying h := by rw [started, queue]; exact ledger.flying (opened ▸ h)
  handed := by rw [started]; exact ledger.handed
  sent h := ledger.sent (sent ▸ h)
  unopened stage mem := by rw [started]; exact ledger.unopened stage (fewer stage mem)

/-- A handler that has been taken from the strand. -/
theorem Ledger.pop (ledger : c.Ledger accepted written) (front : c.strand = h :: rest) :
    c.popHandler.Ledger accepted written := by
  refine ledger.of_same rfl rfl rfl rfl fun stage mem => ?_
  cases h with
  | posted task => rwa [inflight_pop_posted front] at mem
  | completed op ec frame => exact (inflight_pop_completed front).mem_iff.2 (List.mem_cons_of_mem _ mem)

/-- Starting a read or a close. -/
theorem Ledger.start (ledger : c.Ledger accepted written) (other : op.isWrite = false)
    (later : op.isOpening = false) : (c.start op).Ledger accepted written := by
  refine ledger.of_same rfl rfl rfl (handed_start other) fun stage mem => ?_
  rcases List.mem_cons.1 ((inflight_start_perm op).mem_iff.1 mem) with same | mem
  · rw [← same] at later
    cases later
  · exact mem

/-- Before the channel opens nothing has been accepted. -/
theorem Ledger.opening (ledger : c.Ledger [] []) (fresh : c.mOpen = false) (empty : c.handed = []) (stage : Stage) :
    (c.start (.opening stage)).Ledger [] [] where
  queue h := absurd (fresh.symm.trans h) (by decide)
  flying h := absurd (fresh.symm.trans h) (by decide)
  handed := by rw [handed_start rfl]; exact ledger.handed
  sent h := ledger.sent h
  unopened _ _ := ⟨rfl, rfl, (handed_start rfl).trans empty⟩

theorem Ledger.maybeSendClose (ledger : c.Ledger accepted written) (opened : c.mOpen = true) :
    c.maybeSendClose.Ledger accepted written := by
  unfold Channel.maybeSendClose
  split
  · exact ledger
  · next fresh =>
    have queue : c.mWriteQueue = [] := by
      rw [Bool.or_eq_true, not_or, Bool.not_eq_true', Bool.not_eq_false, List.isEmpty_iff] at fresh
      exact fresh.2
    have whole := ledger.queue opened
    rw [queue, List.map_nil, List.append_nil] at whole
    have marked : Ledger { c with mCloseSent := true } accepted written :=
      ⟨ledger.queue, ledger.flying, ledger.handed, fun _ => whole.symm, ledger.unopened⟩
    exact marked.start rfl rfl

/-- The front of the queue is handed over when everything before it has been written. -/
theorem Ledger.doWrite {node : Node P} {tail : List (Node P)} (queue : c.mWriteQueue = node :: tail)
    (whole : accepted = written ++ c.mWriteQueue.map Node.payload)
    (before : c.handed = written.map kindAndBytes) (unsent : c.mCloseSent = false)
    (settled : ∀ stage, .opening stage ∉ c.inflight) : c.doWrite.Ledger accepted written := by
  have result : c.doWrite = (c.setText (Payload.isText node.payload)).start
      (.write (Payload.isText node.payload) node) := by
    simp only [Channel.doWrite, queue]
  have handed : c.doWrite.handed = (written ++ [node.payload]).map kindAndBytes := by
    rw [result, List.map_append, ← before]
    simp [Channel.handed, Channel.start, setText, Op.handed?, kindAndBytes]
  have same : c.doWrite.mWriteQueue = c.mWriteQueue := doWrite_queue
  refine ⟨fun _ => ?_, fun _ => ?_, ?_, fun h => ?_, fun stage mem => ?_⟩
  · rw [same]
    exact whole
  · rw [handed, same, queue, List.head?_cons, Option.map_some, Option.toList_some]
  · rw [handed, whole, queue, List.map_cons]
    exact ⟨(tail.map Node.payload).map kindAndBytes, by simp⟩
  · rw [result] at h
    exact absurd (unsent.symm.trans h) (by decide)
  · rw [result] at mem
    rcases List.mem_cons.1 ((inflight_start_perm _).mem_iff.1 mem) with same | mem
    · cases same
    · exact absurd mem (settled stage)

/-- `Send` on an open channel that has not been asked to close. -/
theorem Ledger.enqueue (ledger : c.Ledger accepted written) (opened : c.mOpen = true) (unsent : c.mCloseSent = false)
    (settled : ∀ stage, .opening stage ∉ c.inflight) (payload : P) :
    (c.enqueue payload).Ledger (accepted ++ [payload]) written := by
  have whole : accepted ++ [payload] = written ++ (c.pushBack payload).mWriteQueue.map Node.payload := by
    simp only [pushBack, List.map_append, List.map_cons, List.map_nil, ← List.append_assoc]
    rw [← ledger.queue opened]
  unfold Channel.enqueue
  simp only
  split
  · next one =>
    obtain ⟨node, queue⟩ := List.length_eq_one_iff.1 one
    have empty : c.mWriteQueue = [] := by
      simp only [pushBack, List.length_append, List.length_singleton] at one
      exact List.length_eq_zero_iff.1 (by omega)
    have before := ledger.flying opened
    rw [empty, List.head?_nil, Option.map_none, Option.toList_none, List.append_nil] at before
    exact Ledger.doWrite (c := c.pushBack payload) queue whole before unsent settled
  · next long =>
    have busy : c.mWriteQueue ≠ [] := by
      intro empty
      simp [pushBack, empty] at long
    obtain ⟨node, tail, queue⟩ := List.exists_cons_of_ne_nil busy
    refine ⟨fun _ => whole, fun _ => ?_, ?_, fun h => ?_, fun stage mem => absurd mem (settled stage)⟩
    · have flying := ledger.flying opened
      rw [queue] at flying
      simp only [pushBack, queue]
      exact flying
    · rw [List.map_append]
      exact ledger.handed.trans (List.prefix_append _ _)
    · exact absurd (unsent.symm.trans h) (by decide)

/-- The write of the front of the queue has succeeded. -/
theorem Ledger.onWrite (ledger : c.Ledger accepted written) (sound : c.Sound) {isText : Bool} {node : Node P}
    (front : c.strand = .completed (.write isText node) none frame :: rest) :
    (c.popHandler.onWrite none).Ledger accepted (written ++ [node.payload]) := by
  have opened := sound.errors.opened front rfl
  obtain ⟨⟨tail, queue⟩, -⟩ := sound.flow.written front opened
  have unsent := sound.once.unsent (queue ▸ List.cons_ne_nil _ _)
  have settled := sound.flow.settled (inflight_pop_completed front)
  have whole : accepted = written ++ [node.payload] ++ tail.map Node.payload := by
    rw [ledger.queue opened, queue, List.map_cons, List.append_assoc, List.singleton_append]
  have before : c.handed = (written ++ [node.payload]).map kindAndBytes := by
    rw [ledger.flying opened, queue, List.head?_cons, Option.map_some, Option.toList_some]
  have popped : c.popHandler.popFront = c.popHandler.setQueue tail := by
    simp only [popFront, popHandler_mWriteQueue, queue]
  simp only [Channel.onWrite, Option.isSome_none, Bool.false_eq_true, if_false]
  rw [popped, show (c.popHandler.setQueue tail).mWriteQueue = tail from rfl]
  cases tail with
  | nil =>
    have ledger' : (c.popHandler.setQueue []).Ledger accepted (written ++ [node.payload]) := by
      refine ⟨fun _ => whole, fun _ => ?_, ledger.handed, fun h => ?_, fun stage mem => absurd mem (settled stage)⟩
      · show c.handed = (written ++ [node.payload] ++ []).map kindAndBytes
        rw [List.append_nil]
        exact before
      · exact absurd (unsent.symm.trans h) (by decide)
    simp only [List.isEmpty_nil, Bool.not_true, Bool.false_eq_true, if_false]
    split
    · exact ledger'.maybeSendClose opened
    · exact ledger'
  | cons next tail =>
    simp only [List.isEmpty_cons, Bool.not_false, if_true]
    exact Ledger.doWrite rfl whole before unsent settled

/-- What is left of the queue is given up; the rest stays as it is. -/
theorem Ledger.handleClosed (ledger : c.Ledger accepted written) : c.handleClosed.Ledger accepted written :=
  ⟨(fun h => nomatch h), (fun h => nomatch h), ledger.handed, ledger.sent, ledger.unopened⟩

theorem Ledger.closeTask (ledger : c.Ledger accepted written) : c.closeTask.Ledger accepted written := by
  have asked : c.requestClose.Ledger accepted written := ledger.of_same rfl rfl rfl rfl fun _ => id
  unfold Channel.closeTask
  split
  · next opened => exact asked.maybeSendClose opened
  · refine asked.of_same rfl rfl rfl rfl fun stage mem => ?_
    rwa [inflight_cancel] at mem

theorem Ledger.beginReading (ledger : c.Ledger accepted written) (opened : c.mOpen = true) :
    c.beginReading.Ledger accepted written := by
  unfold Channel.beginReading
  split
  · exact (ledger.maybeSendClose opened).start rfl rfl
  · exact ledger.start rfl rfl

theorem Ledger.onRead (ledger : c.Ledger accepted written) (ec : Option ErrorCode) :
    (c.onRead ec).Ledger accepted written := by
  unfold Channel.onRead
  split
  · exact ledger.handleClosed
  · exact ledger.start rfl rfl

/-- The channel opens with nothing accepted. -/
theorem Ledger.opens (ledger : c.Ledger accepted written) (flow : c.Flow) (opens : Opens c c') :
    c'.Ledger accepted written := by
  obtain ⟨stage, frame, rest, front, rfl⟩ := opens
  have ops := inflight_pop_completed front
  obtain ⟨rfl, rfl, none⟩ := ledger.unopened stage (ops.mem_iff.2 List.mem_cons_self)
  obtain ⟨fresh, alone⟩ := flow.alone ops
  have queue := flow.empty fresh
  refine ⟨fun _ => ?_, fun _ => ?_, ledger.handed, ledger.sent, fun stage mem => ?_⟩
  · rw [show c.popHandler.setOpen.mWriteQueue = [] from queue]
    rfl
  · rw [show c.popHandler.setOpen.mWriteQueue = [] from queue]
    exact none
  · rw [inflight_setOpen, alone] at mem
    cases mem

/-- A channel on which nothing was started. -/
theorem ledger_empty : Ledger ({} : Channel Stage P T) [] [] :=
  ⟨fun _ => rfl, fun _ => rfl, List.nil_prefix, fun _ => rfl, (fun _ mem => nomatch mem)⟩

end Channel

/-! ## The two classes -/

namespace CWsSession

/-- The payload whose `Send` handler a step runs. -/
def arrives (s : CWsSession) : Label → Option SPayload
  | .run _ => if s.registering then none else match s.strand with
    | .posted (.send payload) :: _ => some payload
    | _ => none
  | _ => none

/-- Payloads are accepted: the session is open, not asked to close, and its backlog has room. -/
def accepting (s : CWsSession) : Bool :=
  s.mOpen && !s.mCloseRequested && (s.maxSessionBacklog == 0 || s.mWriteQueue.length < s.maxSessionBacklog)

def accepts (s : CWsSession) (l : Label) : Option SPayload := if s.accepting then s.arrives l else none

/-- The payload whose `OnWrite` a step runs without an error. -/
def writesOut (s : CWsSession) : Label → Option SPayload
  | .run _ => if s.registering then none else match s.strand with
    | .completed (.write _ node) none _ :: _ => some node.payload
    | _ => none
  | _ => none

variable {s s' : CWsSession} {l : Label} {limit : Nat} {accepted written : List SPayload}

/-- The ledger of a session, and the cap of its backlog. -/
structure Kept (s : CWsSession) (limit : Nat) (accepted written : List SPayload) : Prop where
  ledger : s.toChannel.Ledger accepted written
  cap : s.maxSessionBacklog = limit
  backlog : 0 < limit → s.mWriteQueue.length ≤ limit

theorem accepting_iff : s.accepting = true ↔ s.mOpen = true ∧ s.mCloseRequested = false ∧
    ¬ (0 < s.maxSessionBacklog ∧ s.maxSessionBacklog ≤ s.mWriteQueue.length) := by
  simp only [accepting, Bool.and_eq_true, Bool.not_eq_true', Bool.or_eq_true, beq_iff_eq, decide_eq_true_eq,
    and_assoc]
  refine and_congr_right fun _ => and_congr_right fun _ => ?_
  omega

/-- Taking in nothing and writing nothing. -/
theorem Kept.of_ledger (kept : s.Kept limit accepted written) (ledger : s'.toChannel.Ledger accepted written)
    (cap : s'.maxSessionBacklog = s.maxSessionBacklog) (queue : s'.mWriteQueue.length ≤ s.mWriteQueue.length) :
    s'.Kept limit accepted written :=
  ⟨ledger, cap.trans kept.cap, fun pos => Nat.le_trans queue (kept.backlog pos)⟩

/-- A step that runs neither a `Send` nor a successful `OnWrite`. -/
theorem Kept.quiet (kept : s'.Kept limit accepted written) (noArrival : s.arrives l = none)
    (noWrite : s.writesOut l = none) :
    s'.Kept limit (accepted ++ (s.accepts l).toList) (written ++ (s.writesOut l).toList) := by
  rw [accepts, noArrival, noWrite, ite_self, Option.toList_none, List.append_nil, List.append_nil]
  exact kept

/-- The handler `Send` posts. -/
theorem Kept.send {payload : SPayload} {rest} (kept : s.Kept limit accepted written) (sound : s.toChannel.Sound)
    (front : s.strand = .posted (.send payload) :: rest) (alive : Bool) :
    (send alive { s with toChannel := s.toChannel.popHandler } payload).1.Kept limit
      (accepted ++ (if s.accepting then [payload] else [])) written := by
  have popped := kept.ledger.pop front
  unfold CWsSession.send
  split
  · next closed =>
    have refused : ¬ s.accepting = true := by
      rw [accepting_iff]
      simp only [Channel.popHandler_mOpen, Channel.popHandler_mCloseRequested, Bool.or_eq_true,
        Bool.not_eq_true'] at closed
      rintro ⟨opened, running, -⟩
      rw [opened, running] at closed
      simp at closed
    rw [if_neg refused, List.append_nil]
    exact kept.of_ledger popped rfl (Nat.le_refl _)
  · next may =>
    simp only [Channel.popHandler_mOpen, Channel.popHandler_mCloseRequested, Bool.or_eq_true, Bool.not_eq_true',
      not_or, Bool.not_eq_false, Bool.not_eq_true] at may
    split
    · next full =>
      have refused : ¬ s.accepting = true := fun h => (accepting_iff.1 h).2.2 full
      rw [if_neg refused, List.append_nil]
      split <;> exact kept.of_ledger popped rfl (Nat.le_refl _)
    · next room =>
      have open' : s.accepting = true := accepting_iff.2 ⟨may.1, may.2, room⟩
      have unsent : s.mCloseSent = false := by
        cases sent : s.mCloseSent with
        | false => rfl
        | true => exact absurd (may.2.symm.trans (sound.once.sent sent).1) (by decide)
      have settled : ∀ stage, .opening stage ∉ s.toChannel.popHandler.inflight := by
        rw [Channel.inflight_pop_posted front]
        exact sound.flow.settled_of_open may.1
      rw [if_pos open']
      refine ⟨popped.enqueue may.1 unsent settled payload, kept.cap, fun pos => ?_⟩
      rw [kept.cap] at room
      simp only [Channel.popHandler_mWriteQueue, not_and, Nat.not_le] at room
      simp only [Channel.enqueue_queue, Channel.popHandler_mWriteQueue]
      exact room pos

theorem accept_kept (maxSessionBacklog : Nat) (target : Bytes) (isSsl : Bool) :
    (accept maxSessionBacklog target isSsl).Kept maxSessionBacklog [] [] :=
  ⟨Channel.ledger_empty.opening rfl rfl _, rfl, fun _ => Nat.zero_le _⟩

theorem runNext_kept {alive : Bool} {calls : List WsCall} (kept : s.Kept limit accepted written) (sound : s.toChannel.Sound)
    (ran : s.runNext alive = some (s', calls)) :
    s'.Kept limit (accepted ++ (s.accepts (.run alive)).toList) (written ++ (s.writesOut (.run alive)).toList) := by
  obtain ⟨idle, h, rest, front, result⟩ := runNext_inv ran
  have same : s' = (handle alive { s with toChannel := s.toChannel.popHandler } h).1 := congrArg Prod.fst result
  subst same
  have popped := kept.ledger.pop front
  match h with
  | .posted (.send payload) =>
    have sees : s.arrives (.run alive) = some payload := by simp [arrives, idle, front]
    have writes : s.writesOut (.run alive) = none := by simp [writesOut, idle, front]
    have sent := kept.send sound front alive
    rw [accepts, sees, writes, Option.toList_none, List.append_nil, apply_ite Option.toList]
    exact sent
  | .posted .close =>
    refine Kept.quiet ?_ (by simp [arrives, idle, front]) (by simp [writesOut, idle, front])
    exact kept.of_ledger popped.closeTask rfl (Nat.le_of_eq (congrArg List.length Channel.closeTask_queue))
  | .completed (.opening .accept) ec frame =>
    refine Kept.quiet ?_ (by simp [arrives, idle, front]) (by simp [writesOut, idle, front])
    match ec, alive with
    | none, true =>
      exact kept.of_ledger (kept.ledger.opens sound.flow ⟨_, frame, rest, front, rfl⟩) rfl (Nat.le_refl _)
    | some e, true => exact kept.of_ledger popped rfl (Nat.le_refl _)
    | none, false => exact kept.of_ledger popped rfl (Nat.le_refl _)
    | some e, false => exact kept.of_ledger popped rfl (Nat.le_refl _)
  | .completed .read ec frame =>
    refine Kept.quiet ?_ (by simp [arrives, idle, front]) (by simp [writesOut, idle, front])
    refine kept.of_ledger ?_ ?_ ?_
    · simp only [handle, onRead_channel]
      exact popped.onRead ec
    · cases ec <;> rfl
    · simp only [handle, onRead_channel]
      exact Channel.onRead_queue ec
  | .completed (.write isText node) (some e) frame =>
    refine Kept.quiet ?_ (by simp [arrives, idle, front]) (by simp [writesOut, idle, front])
    exact kept.of_ledger popped.handleClosed rfl (Nat.zero_le _)
  | .completed (.write isText node) none frame =>
    have sees : s.accepts (.run alive) = none := by simp [accepts, arrives, idle, front]
    have writes : s.writesOut (.run alive) = some node.payload := by simp [writesOut, idle, front]
    rw [sees, writes, Option.toList_none, List.append_nil, Option.toList_some]
    exact ⟨kept.ledger.onWrite sound front, kept.cap,
      fun pos => Nat.le_trans (Channel.onWrite_queue none) (kept.backlog pos)⟩
  | .completed .close ec frame =>
    refine Kept.quiet ?_ (by simp [arrives, idle, front]) (by simp [writesOut, idle, front])
    exact kept.of_ledger popped rfl (Nat.le_refl _)

theorem step_kept (kept : s.Kept limit accepted written) (inv : s.Inv) (step : s.step l = some s') :
    s'.Kept limit (accepted ++ (s.accepts l).toList) (written ++ (s.writesOut l).toList) := by
  cases l with
  | run alive =>
    obtain ⟨⟨r, calls⟩, ran, rfl⟩ := Option.map_eq_some_iff.1 step
    exact runNext_kept kept inv.sound ran
  | post task =>
    cases step
    refine Kept.quiet ?_ rfl rfl
    refine kept.of_ledger (kept.ledger.of_same rfl rfl rfl rfl fun stage mem => ?_) rfl (Nat.le_refl _)
    rwa [Channel.inflight_post] at mem
  | complete i ec frame =>
    obtain ⟨c, done, rfl⟩ := Option.map_eq_some_iff.1 step
    refine Kept.quiet ?_ rfl rfl
    have ops := Channel.inflight_complete done
    obtain ⟨p, -, rfl⟩ := Channel.complete_fields done
    exact kept.of_ledger (kept.ledger.of_same rfl rfl rfl rfl fun stage mem => ops.mem_iff.1 mem) rfl (Nat.le_refl _)
  | registered clientId =>
    refine Kept.quiet ?_ rfl rfl
    simp only [CWsSession.step] at step
    split at step
    next busy =>
      cases step
      have opened := inv.waiting busy
      unfold onRegistered
      split
      · have asked : s.toChannel.requestClose.Ledger accepted written :=
          kept.ledger.of_same rfl rfl rfl rfl fun _ => id
        exact kept.of_ledger (asked.maybeSendClose opened) rfl
          (Nat.le_of_eq (congrArg List.length Channel.maybeSendClose_queue))
      · exact kept.of_ledger (kept.ledger.beginReading opened) rfl
          (Nat.le_of_eq (congrArg List.length Channel.beginReading_queue))
    next => cases step

theorem run_kept {maxSessionBacklog : Nat} {target : Bytes} {isSsl : Bool} {ls : List Label}
    (run : system.exec (accept maxSessionBacklog target isSsl) ls = some s)
    (beast : system.Along BeastOk (accept maxSessionBacklog target isSsl) ls) :
    s.Kept maxSessionBacklog (system.collect accepts (accept maxSessionBacklog target isSsl) ls)
      (system.collect writesOut (accept maxSessionBacklog target isSsl) ls) := by
  have both : s.Inv ∧ s.Kept maxSessionBacklog (system.collect accepts (accept maxSessionBacklog target isSsl) ls)
      (system.collect writesOut (accept maxSessionBacklog target isSsl) ls) := by
    refine Lib.System.invariant_run (fun pre t => t.Inv ∧ t.Kept maxSessionBacklog
      (system.collect accepts (accept maxSessionBacklog target isSsl) pre)
      (system.collect writesOut (accept maxSessionBacklog target isSsl) pre)) ?_ ?_ run beast
    · exact ⟨accept_inv maxSessionBacklog target isSsl, accept_kept maxSessionBacklog target isSsl⟩
    · rintro pre t l t' before ⟨inv, kept⟩ ok step
      rw [Lib.System.collect_snoc before, Lib.System.collect_snoc before]
      exact ⟨step_inv inv ok step, step_kept kept inv step⟩
  exact both.2

/-- A payload is turned away from an open, not closing session only by a full backlog. -/
theorem Kept.dropped {payload : SPayload} (kept : s.Kept limit accepted written) (arrival : s.arrives l = some payload)
    (opened : s.mOpen = true) (running : s.mCloseRequested = false) (refused : s.accepts l = none) :
    0 < limit ∧ ∃ unwritten, accepted = written ++ unwritten ∧ unwritten.length = limit := by
  have closed : ¬ s.accepting = true := by
    intro open'
    rw [accepts, if_pos open', arrival] at refused
    cases refused
  rw [accepting_iff] at closed
  have full : 0 < s.maxSessionBacklog ∧ s.maxSessionBacklog ≤ s.mWriteQueue.length := by
    by_contra room
    exact closed ⟨opened, running, room⟩
  rw [kept.cap] at full
  refine ⟨full.1, s.mWriteQueue.map Node.payload, kept.ledger.queue opened, ?_⟩
  rw [List.length_map]
  exact Nat.le_antisymm (kept.backlog full.1) full.2

end CWsSession

namespace CSession

/-- The message whose `Send` handler a step runs. -/
def arrives (s : CSession) : Label → Option SOutgoingMessage
  | .run _ _ => match s.strand with
    | .posted (.send message) :: _ => some message
    | _ => none
  | _ => none

/-- Messages are accepted: the session is open and has not been asked to close. -/
def accepting (s : CSession) : Bool := s.mOpen && !s.mCloseRequested

def accepts (s : CSession) (l : Label) : Option SOutgoingMessage := if s.accepting then s.arrives l else none

/-- The message whose `OnWrite` a step runs without an error. -/
def writesOut (s : CSession) : Label → Option SOutgoingMessage
  | .run _ _ => match s.strand with
    | .completed (.write _ node) none _ :: _ => some node.payload
    | _ => none
  | _ => none

variable {s s' : CSession} {l : Label} {accepted written : List SOutgoingMessage}

/-- The ledger of a session, which begins with its `asyncConnect`. -/
structure Kept (s : CSession) (accepted written : List SOutgoingMessage) : Prop where
  ledger : s.toChannel.Ledger accepted written
  unopened : s.connectCalled = false ∨ s.connects ≠ 0 → accepted = [] ∧ written = [] ∧ s.handed = []

/-- A step that runs neither a `Send` nor a successful `OnWrite`. -/
theorem Kept.quiet (kept : s'.Kept accepted written) (noArrival : s.arrives l = none)
    (noWrite : s.writesOut l = none) :
    s'.Kept (accepted ++ (s.accepts l).toList) (written ++ (s.writesOut l).toList) := by
  rw [accepts, noArrival, noWrite, ite_self, Option.toList_none, List.append_nil, List.append_nil]
  exact kept

theorem create_kept (isSsl : Bool) : (create isSsl).Kept [] [] :=
  ⟨Channel.ledger_empty, fun _ => ⟨rfl, rfl, rfl⟩⟩

/-- A session whose `asyncConnect` has not run. -/
theorem Fresh.unstarted (fresh : s.Fresh) (early : s.connectCalled = false ∨ s.connects ≠ 0) : s.Unstarted := by
  rcases early with uncalled | queued
  · exact (fresh.uncalled uncalled).2
  · exact (fresh.queued.resolve_left queued).2

/-- The ledger after a handler, which is all there is to check. -/
theorem runNext_kept_of {alive : Bool} {sni : Option ErrorCode} {h : Handler Stage SOutgoingMessage SessionTask} {rest}
    (kept : s.Kept accepted written) (fresh : s.Fresh) (front : s.strand = h :: rest)
    (ledger : (handle alive sni { s with toChannel := s.toChannel.popHandler } h).1.toChannel.Ledger
      (accepted ++ (s.accepts (.run alive sni)).toList) (written ++ (s.writesOut (.run alive sni)).toList)) :
    (handle alive sni { s with toChannel := s.toChannel.popHandler } h).1.Kept
      (accepted ++ (s.accepts (.run alive sni)).toList) (written ++ (s.writesOut (.run alive sni)).toList) := by
  refine ⟨ledger, fun after => ?_⟩
  have strand : (handle alive sni { s with toChannel := s.toChannel.popHandler } h).1.strand = rest := by
    rw [handle_strand]
    simp only [Channel.popHandler, front, List.tail_cons]
  have early : s.connectCalled = false ∨ s.connects ≠ 0 := by
    rw [handle_called] at after
    refine after.imp_right fun some => ?_
    unfold connects at some ⊢
    rw [strand] at some
    rw [front, List.countP_cons]
    omega
  obtain ⟨noneAccepted, noneWritten, empty⟩ := kept.unopened early
  have unstarted := fresh.unstarted early
  have refused : s.accepts (.run alive sni) = none := by simp [accepts, accepting, unstarted.1]
  cases h with
  | posted task =>
    cases task with
    | asyncConnect args =>
      -- it was the only one, so the condition fails afterwards
      have one : s.connects = 1 := by
        refine (fresh.queued.resolve_left fun zero => ?_).1
        unfold connects at zero
        rw [front, List.countP_cons_of_pos (by rfl)] at zero
        omega
      rcases after with uncalled | some
      · rw [handle_called] at uncalled
        have := (fresh.uncalled uncalled).1
        omega
      · unfold connects at one some
        rw [front, List.countP_cons_of_pos (by rfl)] at one
        rw [strand] at some
        omega
    | send message =>
      have writes : s.writesOut (.run alive sni) = none := by simp [writesOut, front]
      rw [refused, writes, Option.toList_none, List.append_nil, List.append_nil]
      refine ⟨noneAccepted, noneWritten, ?_⟩
      simp only [handle, send, Channel.popHandler_mOpen, unstarted.1, Bool.not_false, Bool.true_or, if_true]
      exact empty
    | close =>
      have writes : s.writesOut (.run alive sni) = none := by simp [writesOut, front]
      rw [refused, writes, Option.toList_none, List.append_nil, List.append_nil]
      refine ⟨noneAccepted, noneWritten, ?_⟩
      simp only [handle, close, Channel.closeTask, Channel.popHandler_mOpen, unstarted.1, Bool.false_eq_true, if_false]
      exact empty
  | completed op ec frame =>
    have ops := (Channel.inflight_pop_completed front).length_eq
    rw [unstarted.2] at ops
    cases ops

theorem runNext_kept {alive : Bool} {sni : Option ErrorCode} {calls : List SessionCall}
    (kept : s.Kept accepted written) (fresh : s.Fresh) (sound : s.toChannel.Sound)
    (ran : s.runNext alive sni = some (s', calls)) :
    s'.Kept (accepted ++ (s.accepts (.run alive sni)).toList) (written ++ (s.writesOut (.run alive sni)).toList) := by
  obtain ⟨h, rest, front, result⟩ := runNext_inv ran
  have same : s' = (handle alive sni { s with toChannel := s.toChannel.popHandler } h).1 := congrArg Prod.fst result
  subst same
  refine runNext_kept_of kept fresh front ?_
  have popped := kept.ledger.pop front
  have quiet : s.arrives (.run alive sni) = none → s.writesOut (.run alive sni) = none →
      ∀ {c : Channel Stage SOutgoingMessage SessionTask}, c.Ledger accepted written →
        c.Ledger (accepted ++ (s.accepts (.run alive sni)).toList)
          (written ++ (s.writesOut (.run alive sni)).toList) := by
    intro noArrival noWrite c ledger
    rw [accepts, noArrival, noWrite, ite_self, Option.toList_none, List.append_nil, List.append_nil]
    exact ledger
  -- a stage of the connect chain ends, and perhaps the next one starts
  have staged : ∀ {stage ec frame}, s.strand = .completed (.opening stage) ec frame :: rest → ∀ next,
      (s.toChannel.popHandler.start (.opening next)).Ledger accepted written := by
    intro stage ec frame front next
    have ops := Channel.inflight_pop_completed front
    obtain ⟨rfl, rfl, empty⟩ := kept.ledger.unopened stage (ops.mem_iff.2 List.mem_cons_self)
    exact popped.opening (sound.flow.alone ops).1 empty next
  match h with
  | .posted (.asyncConnect args) =>
    have queued : s.connects ≠ 0 := by
      unfold connects
      rw [front, List.countP_cons_of_pos (by rfl)]
      omega
    obtain ⟨rfl, rfl, empty⟩ := kept.unopened (.inr queued)
    refine quiet (by simp [arrives, front]) (by simp [writesOut, front]) ?_
    exact popped.opening (fresh.unstarted (.inr queued)).1 empty _
  | .posted (.send message) =>
    have sees : s.arrives (.run alive sni) = some message := by simp [arrives, front]
    have writes : s.writesOut (.run alive sni) = none := by simp [writesOut, front]
    rw [accepts, sees, writes, Option.toList_none, List.append_nil]
    simp only [handle, send]
    split
    · next refused =>
      have closed : s.accepting = false := by
        simp only [Channel.popHandler_mOpen, Channel.popHandler_mCloseRequested] at refused
        rw [accepting, ← Bool.not_eq_true']
        simpa using refused
      rw [closed, if_neg Bool.false_ne_true, Option.toList_none, List.append_nil]
      exact popped
    · next may =>
      simp only [Channel.popHandler_mOpen, Channel.popHandler_mCloseRequested, Bool.or_eq_true, Bool.not_eq_true',
        not_or, Bool.not_eq_false, Bool.not_eq_true] at may
      have unsent : s.mCloseSent = false := by
        cases sent : s.mCloseSent with
        | false => rfl
        | true => exact absurd (may.2.symm.trans (sound.once.sent sent).1) (by decide)
      have settled : ∀ stage, .opening stage ∉ s.toChannel.popHandler.inflight := by
        rw [Channel.inflight_pop_posted front]
        exact sound.flow.settled_of_open may.1
      have open' : s.accepting = true := by rw [accepting, may.1, may.2]; rfl
      rw [if_pos open', Option.toList_some]
      exact popped.enqueue may.1 unsent settled message
  | .posted .close => exact quiet (by simp [arrives, front]) (by simp [writesOut, front]) popped.closeTask
  | .completed (.opening (.resolve host port)) ec frame =>
    refine quiet (by simp [arrives, front]) (by simp [writesOut, front]) ?_
    cases ec with
    | some e =>
      simp only [handle, onResolve, completeConnect_channel]
      exact popped
    | none => exact staged front _
  | .completed (.opening .tcpConnect) ec frame =>
    refine quiet (by simp [arrives, front]) (by simp [writesOut, front]) ?_
    simp only [handle]
    rcases onTcpConnect_channel (s := { s with toChannel := s.toChannel.popHandler }) alive sni ec with
      same | ⟨next, same⟩
    · rw [same]
      exact popped
    · rw [same]
      exact staged front next
  | .completed (.opening .sslHandshake) ec frame =>
    refine quiet (by simp [arrives, front]) (by simp [writesOut, front]) ?_
    cases ec with
    | some e =>
      simp only [handle, onSslHandshake, completeConnect_channel]
      exact popped
    | none => exact staged front _
  | .completed (.opening (.websocketHandshake host resource headers)) ec frame =>
    refine quiet (by simp [arrives, front]) (by simp [writesOut, front]) ?_
    cases ec with
    | some e =>
      simp only [handle, onWebsocketHandshake, completeConnect_channel]
      exact popped
    | none =>
      simp only [handle, onWebsocketHandshake_channel]
      exact (kept.ledger.opens sound.flow ⟨_, frame, rest, front, rfl⟩).beginReading rfl
  | .completed .read ec frame =>
    refine quiet (by simp [arrives, front]) (by simp [writesOut, front]) ?_
    simp only [handle, onRead_channel]
    exact popped.onRead ec
  | .completed (.write isText node) (some e) frame =>
    exact quiet (by simp [arrives, front]) (by simp [writesOut, front]) popped.handleClosed
  | .completed (.write isText node) none frame =>
    have sees : s.accepts (.run alive sni) = none := by simp [accepts, arrives, front]
    have writes : s.writesOut (.run alive sni) = some node.payload := by simp [writesOut, front]
    rw [sees, writes, Option.toList_none, List.append_nil, Option.toList_some]
    exact kept.ledger.onWrite sound front
  | .completed .close ec frame => exact quiet (by simp [arrives, front]) (by simp [writesOut, front]) popped

theorem step_kept (kept : s.Kept accepted written) (inv : s.Inv) (step : s.step l = some s') :
    s'.Kept (accepted ++ (s.accepts l).toList) (written ++ (s.writesOut l).toList) := by
  cases l with
  | run alive sni =>
    obtain ⟨⟨r, calls⟩, ran, rfl⟩ := Option.map_eq_some_iff.1 step
    exact runNext_kept kept inv.fresh inv.sound ran
  | post task =>
    refine Kept.quiet ?_ rfl rfl
    have ledger : (s.toChannel.post task).Ledger accepted written := by
      refine kept.ledger.of_same rfl rfl rfl rfl fun stage mem => ?_
      rwa [Channel.inflight_post] at mem
    obtain ⟨_, uncalled, rfl⟩ | ⟨other, rfl⟩ := postTask_cases step
    · exact ⟨ledger, fun _ => kept.unopened (.inl uncalled)⟩
    · refine ⟨ledger, fun early => kept.unopened (early.imp_right fun some => ?_)⟩
      simpa [connects, Channel.post, other] using some
  | complete i ec frame =>
    refine Kept.quiet ?_ rfl rfl
    obtain ⟨c, done, rfl⟩ := Option.map_eq_some_iff.1 step
    have ops := Channel.inflight_complete done
    obtain ⟨p, -, rfl⟩ := Channel.complete_fields done
    refine ⟨kept.ledger.of_same rfl rfl rfl rfl fun stage mem => ops.mem_iff.1 mem, fun early => ?_⟩
    refine kept.unopened (early.imp_right fun some => ?_)
    simpa [connects] using some

theorem run_kept {isSsl : Bool} {ls : List Label} (run : system.exec (create isSsl) ls = some s)
    (beast : system.Along BeastOk (create isSsl) ls) :
    s.Kept (system.collect accepts (create isSsl) ls) (system.collect writesOut (create isSsl) ls) := by
  have both : s.Inv ∧
      s.Kept (system.collect accepts (create isSsl) ls) (system.collect writesOut (create isSsl) ls) := by
    refine Lib.System.invariant_run (fun pre t => t.Inv ∧
      t.Kept (system.collect accepts (create isSsl) pre) (system.collect writesOut (create isSsl) pre)) ?_ ?_ run beast
    · exact ⟨create_inv isSsl, create_kept isSsl⟩
    · rintro pre t l t' before ⟨inv, kept⟩ ok step
      rw [Lib.System.collect_snoc before, Lib.System.collect_snoc before]
      exact ⟨step_inv inv ok step, step_kept kept inv step⟩
  exact both.2

end CSession

namespace Channel

variable {Stage P T : Type} [Payload P] {c : Channel Stage P T} {accepted written : List P}

/-- What has been handed over is a prefix of what was accepted, and a close comes after all of it was written. -/
theorem Ledger.outgoing (ledger : c.Ledger accepted written) (sound : c.Sound) :
    c.handed <+: accepted.map kindAndBytes ∧ (.close ∈ c.started → written = accepted) :=
  ⟨ledger.handed, fun mem => ledger.sent (sound.once.started mem)⟩

end Channel

/-- A server session with room for one payload gets two, and a client session sends one and closes. -/
def CWsSession.crowded : List CWsSession.Label :=
  [.complete 0 none noFrame, .run true, .registered 1, .post (.send (makeTextPayload greeting)), .run true,
    .post (.send (makeContentPayload greeting))]

def CSession.sendsAndCloses : List CSession.Label :=
  CSession.halfClosed.take 10 ++ [.post .close, .run true none, .complete 1 none noFrame, .run true none]

end Websockets
