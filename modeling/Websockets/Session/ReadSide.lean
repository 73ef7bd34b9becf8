import Websockets.Session.Guarantees
import Websockets.Session.Inbound

/-!
# The read side of a session

Each session owns one read buffer, and `DoRead` hands it to `async_read`. So at most one read may be
in flight, and an open session must have one: it is the read that learns of the end of the connection.
`DoRead` is called from two places, the end of the opening handler and the handler of a read that
succeeded. The invariant counts the reads in flight and says how many there are in each state. A closed
session is final: no operation is started on it any more.
-/

namespace Websockets

namespace Channel

variable {Stage P T : Type} {c c' : Channel Stage P T} {op : Op Stage P}

/-- How many `async_read` operations are in flight. -/
def reads (c : Channel Stage P T) : Nat := c.inflight.countP Op.isRead

/-! ## Counting reads -/

@[simp] theorem reads_start : (c.start op).reads = c.reads + if op.isRead then 1 else 0 := by
  rw [reads, (inflight_start_perm op).countP_eq]
  simp [reads, List.countP_cons]

theorem reads_complete {i : Nat} {ec : Option ErrorCode} {frame : Frame} (done : c.complete i ec frame = some c') :
    c'.reads = c.reads :=
  (inflight_complete done).countP_eq _

theorem reads_pop_posted {task : T} {rest} (front : c.strand = .posted task :: rest) :
    c.popHandler.reads = c.reads := by
  rw [reads, inflight_pop_posted front, reads]

theorem reads_pop_completed {ec frame rest} (front : c.strand = .completed op ec frame :: rest) :
    c.reads = c.popHandler.reads + if op.isRead then 1 else 0 := by
  rw [reads, (inflight_pop_completed front).countP_eq, List.countP_cons, reads]

/-- Running the handler of another operation. -/
theorem reads_pop_other {ec frame rest} (front : c.strand = .completed op ec frame :: rest)
    (other : op.isRead = false) : c.popHandler.reads = c.reads := by
  rw [reads_pop_completed front, other]
  rfl

theorem reads_maybeSendClose : c.maybeSendClose.reads = c.reads := by
  unfold maybeSendClose
  split
  · rfl
  · rw [reads_start]; rfl

theorem reads_doWrite [Payload P] : c.doWrite.reads = c.reads := by
  unfold doWrite
  split
  · rfl
  · simp only [reads_start, Op.isRead]; rfl

theorem reads_popFront : c.popFront.reads = c.reads := by
  unfold popFront
  split <;> rfl

theorem reads_enqueue [Payload P] (payload : P) : (c.enqueue payload).reads = c.reads := by
  simp only [enqueue]
  split
  · exact reads_doWrite
  · rfl

theorem reads_closeTask : c.closeTask.reads = c.reads := by
  unfold closeTask
  split
  · exact reads_maybeSendClose
  · rw [reads, inflight_cancel]; rfl

theorem reads_onWrite [Payload P] (ec : Option ErrorCode) : (c.onWrite ec).reads = c.reads := by
  unfold onWrite
  split
  · rfl
  · split
    · exact reads_doWrite.trans reads_popFront
    · split
      · exact reads_maybeSendClose.trans reads_popFront
      · exact reads_popFront

/-- Beginning to read adds one read. -/
theorem reads_beginReading : c.beginReading.reads = c.reads + 1 := by
  unfold beginReading doRead
  rw [reads_start]
  split
  · rw [reads_maybeSendClose]; rfl
  · rfl

/-- While the opening operation is in flight nothing is being read. -/
theorem Flow.unread (flow : c.Flow) {stage ec frame rest}
    (front : c.strand = .completed (.opening stage) ec frame :: rest) : c.popHandler.reads = 0 := by
  rw [reads, (flow.alone (inflight_pop_completed front)).2]
  rfl

/-! ## What a move makes of the reads -/

/-- The channel stays as open as it was with the reads it has, or it closes and has no more. -/
def ReadKept (c c' : Channel Stage P T) : Prop :=
  c'.mOpen = c.mOpen ∧ c'.reads = c.reads ∨ c'.mOpen = false ∧ c'.reads ≤ c.reads

theorem mOpen_of_flags (flags : c'.flags = c.flags) : c'.mOpen = c.mOpen := congrArg Prod.fst flags

/-- A read that succeeded is followed by the next one; a read that failed closes the channel. -/
theorem readKept_onRead {ec frame rest} (front : c.strand = .completed .read ec frame :: rest) :
    c.ReadKept (c.popHandler.onRead ec) := by
  have count : c.reads = c.popHandler.reads + 1 := reads_pop_completed front
  cases ec with
  | none =>
    refine .inl ⟨rfl, ?_⟩
    have again : c.popHandler.doRead.reads = c.popHandler.reads + 1 := reads_start
    exact again.trans count.symm
  | some e =>
    refine .inr ⟨rfl, ?_⟩
    have same : (c.popHandler.onRead (some e)).reads = c.popHandler.reads := rfl
    omega

/-- **Every move keeps the reads in flight**, except the one that begins to read. -/
theorem Move.readKept [Payload P] {beast calm : Prop} (move : Move beast calm c c') :
    c.ReadKept c' ∨ c' = c.beginReading := by
  cases move with
  | post task => exact .inl (.inl ⟨rfl, congrArg (List.countP Op.isRead) (inflight_post task)⟩)
  | complete done allowed =>
    refine .inl (.inl ⟨?_, reads_complete done⟩)
    obtain ⟨p, -, rfl⟩ := complete_fields done
    rfl
  | drop front => exact .inl (.inl ⟨rfl, reads_pop_posted front⟩)
  | send front opened running payload =>
    exact .inl (.inl ⟨mOpen_of_flags (flags_enqueue payload), (reads_enqueue payload).trans (reads_pop_posted front)⟩)
  | close front =>
    exact .inl (.inl ⟨congrArg Prod.fst flags_closeTask, reads_closeTask.trans (reads_pop_posted front)⟩)
  | connect front fresh idle stage => exact .inl (.inl ⟨rfl, reads_start.trans (reads_pop_posted front)⟩)
  | abandon front => exact .inl (.inl ⟨rfl, reads_pop_other front rfl⟩)
  | advance front next => exact .inl (.inl ⟨rfl, reads_start.trans (reads_pop_other front rfl)⟩)
  | begin opened => exact .inr rfl
  | reject opened => exact .inl (.inl ⟨maybeSendClose_mOpen, reads_maybeSendClose⟩)
  | read front allowed => exact .inl (readKept_onRead front)
  | @write isText node ec frame rest front =>
    have count := (reads_onWrite ec).trans (reads_pop_other front rfl)
    cases ec with
    | none => exact .inl (.inl ⟨mOpen_of_flags flags_onWrite, count⟩)
    | some e => exact .inl (.inr ⟨rfl, Nat.le_of_eq count⟩)
  | closed front => exact .inl (.inl ⟨rfl, reads_pop_other front rfl⟩)

/-- A move that takes the front handler from the strand does not begin to read. -/
theorem Move.readKept_of_pop [Payload P] {beast calm : Prop} {h : Handler Stage P T} {rest}
    (move : Move beast calm c c') (front : c.strand = h :: rest) (popped : c'.strand = rest) : c.ReadKept c' := by
  refine move.readKept.resolve_right fun same => ?_
  have strand := (congrArg Channel.strand same).trans beginReading_strand
  rw [popped, front] at strand
  exact absurd (congrArg List.length strand) (by simp)

/-! ## A closed channel -/

/-- A channel that is closed for good: nothing is left that could open it. -/
structure Final (c : Channel Stage P T) : Prop where
  closed : c.mOpen = false
  settled : c.openings = 0

/-- What is left of it on the strand has failed. -/
theorem Final.failed (final : c.Final) (errors : c.Errors) {ec frame rest}
    (front : c.strand = .completed op ec frame :: rest) : ec.isSome = true ∧ op.isOpening = false := by
  have other : op.isOpening = false := by
    by_contra isOpening
    have count := openings_pop front
    rw [if_pos (by simpa [Handler.op?] using isOpening), final.settled] at count
    exact absurd count (Nat.succ_ne_zero _)
  refine ⟨?_, other⟩
  cases ec with
  | none => exact absurd ((errors.opened front other).symm.trans final.closed) (by decide)
  | some e => rfl

theorem Final.pop (final : c.Final) {h : Handler Stage P T} {rest} (front : c.strand = h :: rest) :
    c.popHandler.Final := by
  have count := openings_pop front
  exact ⟨final.closed, by have := final.settled; omega⟩

theorem Final.of_same (final : c.Final) (closed : c'.mOpen = c.mOpen) (ops : c'.inflight.Perm c.inflight) :
    c'.Final :=
  ⟨closed.trans final.closed, (ops.countP_eq _).trans final.settled⟩

theorem Final.closeTask (final : c.Final) : c.closeTask.Final ∧ c.closeTask.started = c.started := by
  unfold Channel.closeTask
  rw [if_neg (by simp [final.closed])]
  exact ⟨final.of_same rfl (.of_eq inflight_cancel), rfl⟩

theorem Final.handleClosed (final : c.Final) : c.handleClosed.Final ∧ c.handleClosed.started = c.started :=
  ⟨⟨rfl, final.settled⟩, rfl⟩

/-- The handler of a failed read or write. -/
theorem Final.onRead (final : c.Final) {ec : Option ErrorCode} (failed : ec.isSome = true) :
    (c.onRead ec).Final ∧ (c.onRead ec).started = c.started := by
  unfold Channel.onRead
  rw [if_pos failed]
  exact final.handleClosed

theorem Final.onWrite [Payload P] (final : c.Final) {ec : Option ErrorCode} (failed : ec.isSome = true) :
    (c.onWrite ec).Final ∧ (c.onWrite ec).started = c.started := by
  unfold Channel.onWrite
  rw [if_pos failed]
  exact final.handleClosed

end Channel

/-! ## The server session -/

namespace CWsSession

variable {s s' : CWsSession} {l : Label} {h : Handler AcceptStage SPayload WsTask}
  {rest : List (Handler AcceptStage SPayload WsTask)}

/-- How many reads are in flight. A session that was given the id 0 has been rejected: it closes and
reads nothing. -/
structure Reading (s : CWsSession) : Prop where
  single : s.reads ≤ 1
  waiting : s.registering = true → s.reads = 0
  reading : s.mOpen = true → s.registering = false → s.reads = if s.mClientId = 0 then 0 else 1

/-- A handler other than that of a successful accept leaves the id and the program counter alone. -/
theorem handle_registration (alive : Bool) (h : Handler AcceptStage SPayload WsTask) :
    (handle alive s h).1.mClientId = s.mClientId ∧
      ((handle alive s h).1.registering = s.registering ∨
        ∃ frame, h = .completed (.opening .accept) none frame ∧ (handle alive s h).1.registering = true) := by
  match h with
  | .posted (.send payload) =>
    simp only [handle, send]
    split
    · exact ⟨rfl, .inl rfl⟩
    · split
      · split <;> exact ⟨rfl, .inl rfl⟩
      · exact ⟨rfl, .inl rfl⟩
  | .posted .close => exact ⟨rfl, .inl rfl⟩
  | .completed (.opening .accept) ec frame =>
    cases ec with
    | some e => cases alive <;> exact ⟨rfl, .inl rfl⟩
    | none =>
      cases alive with
      | true => exact ⟨rfl, .inr ⟨frame, rfl, rfl⟩⟩
      | false => exact ⟨rfl, .inl rfl⟩
  | .completed .read ec frame => cases ec <;> exact ⟨rfl, .inl rfl⟩
  | .completed (.write isText node) ec frame => cases ec <;> exact ⟨rfl, .inl rfl⟩
  | .completed .close ec frame => exact ⟨rfl, .inl rfl⟩

/-- A step that keeps the reads, the id and the program counter. -/
theorem Reading.of_kept (reading : s.Reading) (kept : s.toChannel.ReadKept s'.toChannel)
    (clientId : s'.mClientId = s.mClientId) (idle : s'.registering = s.registering)
    (waiting : s'.registering = true → s'.mOpen = true) : s'.Reading := by
  rcases kept with ⟨opened, same⟩ | ⟨closed, fewer⟩
  · refine ⟨same ▸ reading.single, fun busy => same ▸ reading.waiting (idle ▸ busy), fun isOpen notBusy => ?_⟩
    rw [same, clientId]
    exact reading.reading (opened ▸ isOpen) (idle ▸ notBusy)
  · refine ⟨fewer.trans reading.single, fun busy => ?_, fun isOpen => absurd (closed.symm.trans isOpen) (by decide)⟩
    exact absurd (closed.symm.trans (waiting busy)) (by decide)

/-- The registration has returned: a client that was accepted begins to read. -/
theorem Reading.onRegistered (quiet : s.reads = 0) (clientId : UInt32) : (s.onRegistered clientId).Reading := by
  unfold CWsSession.onRegistered
  split
  next rejected =>
    have none : s.toChannel.requestClose.maybeSendClose.reads = 0 :=
      Channel.reads_maybeSendClose.trans quiet
    exact ⟨none ▸ Nat.zero_le 1, (fun busy => nomatch busy), fun _ _ => by rw [if_pos rejected]; exact none⟩
  next accepted =>
    have one : s.toChannel.beginReading.reads = 1 := by rw [Channel.reads_beginReading, quiet]
    exact ⟨Nat.le_of_eq one, (fun busy => nomatch busy), fun _ _ => by rw [if_neg accepted]; exact one⟩

/-- One step keeps the read side. -/
theorem step_reading (inv : s.Inv) (reading : s.Reading) (step : s.step l = some s') : s'.Reading := by
  have waiting := step_waiting step inv.waiting
  cases l with
  | post task =>
    cases step
    have same := congrArg (List.countP Op.isRead) (Channel.inflight_post (c := s.toChannel) task)
    exact reading.of_kept (.inl ⟨rfl, same⟩) rfl rfl waiting
  | complete i ec frame =>
    obtain ⟨c, done, rfl⟩ := Option.map_eq_some_iff.1 step
    have opened : c.mOpen = s.mOpen := by obtain ⟨p, -, rfl⟩ := Channel.complete_fields done; rfl
    exact reading.of_kept (.inl ⟨opened, Channel.reads_complete done⟩) rfl rfl waiting
  | run alive =>
    obtain ⟨⟨r, calls⟩, ran, rfl⟩ := Option.map_eq_some_iff.1 step
    obtain ⟨idle, h, rest, front, result⟩ := runNext_inv ran
    have kind : Channel.Move True False s.toChannel r.toChannel ∨
        Channel.Opens s.toChannel r.toChannel ∧ r.registering = true :=
      runNext_move ran (fun h => nomatch h)
    obtain rfl : r = (handle alive { s with toChannel := s.toChannel.popHandler } h).1 := congrArg Prod.fst result
    obtain ⟨clientId, same | ⟨frame, rfl, busy⟩⟩ :=
      handle_registration (s := { s with toChannel := s.toChannel.popHandler }) alive h
    · have move := kind.resolve_right fun opens => absurd (opens.2.symm.trans (same.trans idle)) (by decide)
      have popped : (handle alive { s with toChannel := s.toChannel.popHandler } h).1.strand = rest := by
        rw [handle_strand]
        simp only [Channel.popHandler, front, List.tail_cons]
      exact reading.of_kept (move.readKept_of_pop front popped) clientId same waiting
    · -- the accept was alone in flight, so the session opens with nothing being read
      have quiet : s.toChannel.popHandler.reads = 0 := inv.sound.flow.unread front
      have unread : (handle alive { s with toChannel := s.toChannel.popHandler }
          (.completed (.opening .accept) none frame)).1.reads = 0 := by
        cases alive <;> exact quiet
      exact ⟨unread ▸ Nat.zero_le 1, fun _ => unread, fun _ idle => absurd (busy.symm.trans idle) (by decide)⟩
  | registered clientId =>
    simp only [CWsSession.step] at step
    split at step
    next busy =>
      cases step
      exact .onRegistered (reading.waiting busy) clientId
    next => cases step

/-- A closed session starts nothing, whatever runs on its strand. -/
theorem handle_final (alive : Bool) (errors : s.toChannel.Errors) (final : s.toChannel.Final)
    (front : s.strand = h :: rest) :
    (handle alive { s with toChannel := s.toChannel.popHandler } h).1.toChannel.Final ∧
      (handle alive { s with toChannel := s.toChannel.popHandler } h).1.started = s.started := by
  have popped := final.pop front
  match h with
  | .posted (.send payload) =>
    simp only [handle, send]
    rw [if_pos (by simp [final.closed])]
    exact ⟨popped, rfl⟩
  | .posted .close => exact popped.closeTask
  | .completed (.opening .accept) ec frame =>
    exact absurd (final.failed errors front).2 (by simp [Op.isOpening])
  | .completed .read ec frame =>
    simp only [handle, onRead_channel]
    exact popped.onRead (final.failed errors front).1
  | .completed (.write isText node) ec frame =>
    simp only [handle, onWrite_channel]
    exact popped.onWrite (final.failed errors front).1
  | .completed .close ec frame => exact ⟨popped, rfl⟩

theorem step_final (inv : s.Inv) (final : s.toChannel.Final) (step : s.step l = some s') :
    s'.toChannel.Final ∧ s'.started = s.started := by
  cases l with
  | post task => cases step; exact ⟨final.of_same rfl (.of_eq (Channel.inflight_post task)), rfl⟩
  | complete i ec frame =>
    obtain ⟨c, done, rfl⟩ := Option.map_eq_some_iff.1 step
    have ops := Channel.inflight_complete done
    obtain ⟨p, -, rfl⟩ := Channel.complete_fields done
    exact ⟨final.of_same rfl ops, rfl⟩
  | run alive =>
    obtain ⟨⟨r, calls⟩, ran, rfl⟩ := Option.map_eq_some_iff.1 step
    obtain ⟨-, h, rest, front, result⟩ := runNext_inv ran
    obtain rfl : r = (handle alive { s with toChannel := s.toChannel.popHandler } h).1 := congrArg Prod.fst result
    exact handle_final alive inv.sound.errors final front
  | registered clientId =>
    simp only [CWsSession.step] at step
    split at step
    next busy => exact absurd ((inv.waiting busy).symm.trans final.closed) (by decide)
    next => cases step

/-- The read side between two handlers. -/
structure ReadSound (s : CWsSession) : Prop extends Reading s where
  /-- A session that is closed and not being accepted stays closed and starts nothing. -/
  final : s.toChannel.Final → ∀ (ls : List Label) (s' : CWsSession), system.exec s ls = some s' →
    system.Along BeastOk s ls → s'.mOpen = false ∧ s'.started = s.started

theorem readSound (inv : s.Inv) (reading : s.Reading) : s.ReadSound where
  toReading := reading
  final done ls s' run along := by
    have kept : s'.Inv ∧ s'.toChannel.Final ∧ s'.started = s.started :=
      Lib.System.invariant_along (fun t => t.Inv ∧ t.toChannel.Final ∧ t.started = s.started) ⟨inv, done, rfl⟩
        (fun _ _ _ ⟨inv, done, same⟩ ok step =>
          have next := step_final inv done step
          ⟨step_inv inv ok step, next.1, next.2.trans same⟩) run along
    exact ⟨kept.2.1.closed, kept.2.2⟩

end CWsSession

/-! ## The client session -/

namespace CSession

variable {s s' : CSession} {l : Label} {h : Handler Stage SOutgoingMessage SessionTask}
  {rest : List (Handler Stage SOutgoingMessage SessionTask)}

/-- How many reads are in flight: one as soon as the session is open. -/
structure Reading (s : CSession) : Prop where
  single : s.reads ≤ 1
  reading : s.mOpen = true → s.reads = 1

theorem Reading.of_kept (reading : s.Reading) (kept : s.toChannel.ReadKept s'.toChannel) : s'.Reading := by
  rcases kept with ⟨opened, same⟩ | ⟨closed, fewer⟩
  · exact ⟨same ▸ reading.single, fun isOpen => same ▸ reading.reading (opened ▸ isOpen)⟩
  · exact ⟨fewer.trans reading.single, fun isOpen => absurd (closed.symm.trans isOpen) (by decide)⟩

/-- One step keeps the read side. -/
theorem step_reading (inv : s.Inv) (reading : s.Reading) (step : s.step l = some s') : s'.Reading := by
  cases l with
  | post task =>
    have same := congrArg (List.countP Op.isRead) (Channel.inflight_post (c := s.toChannel) task)
    obtain ⟨_, _, rfl⟩ | ⟨_, rfl⟩ := postTask_cases step
    · exact reading.of_kept (.inl ⟨rfl, same⟩)
    · exact reading.of_kept (.inl ⟨rfl, same⟩)
  | complete i ec frame =>
    obtain ⟨c, done, rfl⟩ := Option.map_eq_some_iff.1 step
    have opened : c.mOpen = s.mOpen := by obtain ⟨p, -, rfl⟩ := Channel.complete_fields done; rfl
    exact reading.of_kept (.inl ⟨opened, Channel.reads_complete done⟩)
  | run alive sni =>
    obtain ⟨⟨r, calls⟩, ran, rfl⟩ := Option.map_eq_some_iff.1 step
    have kind : Moves True False s.toChannel r.toChannel := runNext_moves ran inv.fresh (fun h => nomatch h)
    obtain ⟨h, rest, front, result⟩ := runNext_inv ran
    obtain rfl : r = (handle alive sni { s with toChannel := s.toChannel.popHandler } h).1 :=
      congrArg Prod.fst result
    have popped : (handle alive sni { s with toChannel := s.toChannel.popHandler } h).1.strand = rest := by
      rw [handle_strand]
      simp only [Channel.popHandler, front, List.tail_cons]
    rcases kind with move | ⟨opened, ⟨stage, frame, rest', front', rfl⟩, same⟩
    · exact reading.of_kept (move.readKept_of_pop front popped)
    · -- the handshake was alone in flight, so the session opens with its first read
      have quiet : s.toChannel.popHandler.reads = 0 := inv.sound.flow.unread front'
      have one : (s.toChannel.popHandler.setOpen.beginReading).reads = 1 := by
        rw [Channel.reads_beginReading, show s.toChannel.popHandler.setOpen.reads = 0 from quiet]
      rw [← same] at one
      exact ⟨Nat.le_of_eq one, fun _ => one⟩

/-- A session whose connect chain is over and that is not open. -/
structure Final (s : CSession) : Prop where
  channel : s.toChannel.Final
  called : s.connectCalled = true
  connected : s.connects = 0

/-- A closed session starts nothing, whatever runs on its strand. -/
theorem handle_final (alive : Bool) (sni : Option ErrorCode) (errors : s.toChannel.Errors) (final : s.Final)
    (front : s.strand = h :: rest) :
    (handle alive sni { s with toChannel := s.toChannel.popHandler } h).1.toChannel.Final ∧
      (handle alive sni { s with toChannel := s.toChannel.popHandler } h).1.started = s.started := by
  have popped := final.channel.pop front
  match h with
  | .posted (.asyncConnect args) =>
    have queued : s.connects ≠ 0 := by
      unfold connects
      rw [front, List.countP_cons_of_pos (by rfl)]
      omega
    exact absurd final.connected queued
  | .posted (.send message) =>
    simp only [handle, send]
    rw [if_pos (by simp [final.channel.closed])]
    exact ⟨popped, rfl⟩
  | .posted .close => exact popped.closeTask
  | .completed (.opening stage) ec frame => exact absurd (final.channel.failed errors front).2 (by simp [Op.isOpening])
  | .completed .read ec frame =>
    simp only [handle, onRead_channel]
    exact popped.onRead (final.channel.failed errors front).1
  | .completed (.write isText node) ec frame =>
    simp only [handle, onWrite_channel]
    exact popped.onWrite (final.channel.failed errors front).1
  | .completed .close ec frame => exact ⟨popped, rfl⟩

/-- Once the session is connected, no other `asyncConnect` is queued. -/
theorem step_connected (called : s.connectCalled = true) (connected : s.connects = 0) (step : s.step l = some s') :
    s'.connectCalled = true ∧ s'.connects = 0 := by
  cases l with
  | post task =>
    obtain ⟨_, uncalled, _⟩ | ⟨other, rfl⟩ := postTask_cases step
    · exact absurd (called.symm.trans uncalled) (by decide)
    · refine ⟨called, ?_⟩
      simp only [connects, Channel.post, List.countP_append] at connected ⊢
      simp [connected, other]
  | complete i ec frame =>
    obtain ⟨c, done, rfl⟩ := Option.map_eq_some_iff.1 step
    obtain ⟨p, -, rfl⟩ := Channel.complete_fields done
    refine ⟨called, ?_⟩
    simp only [connects, List.countP_append] at connected ⊢
    simp [connected]
  | run alive sni =>
    obtain ⟨⟨r, calls⟩, ran, rfl⟩ := Option.map_eq_some_iff.1 step
    obtain ⟨h, rest, front, result⟩ := runNext_inv ran
    obtain rfl : r = (handle alive sni { s with toChannel := s.toChannel.popHandler } h).1 :=
      congrArg Prod.fst result
    refine ⟨(handle_called alive sni h).trans called, ?_⟩
    have fewer : rest.Sublist s.strand := front ▸ List.sublist_cons_self h rest
    rw [connects, handle_strand]
    simp only [Channel.popHandler, front, List.tail_cons]
    exact Nat.le_zero.1 (connected ▸ fewer.countP_le)

theorem step_final (inv : s.Inv) (final : s.Final) (step : s.step l = some s') :
    s'.Final ∧ s'.started = s.started := by
  obtain ⟨called, connected⟩ := step_connected final.called final.connected step
  cases l with
  | post task =>
    obtain ⟨_, _, rfl⟩ | ⟨_, rfl⟩ := postTask_cases step
    · exact ⟨⟨final.channel.of_same rfl (.of_eq (Channel.inflight_post task)), called, connected⟩, rfl⟩
    · exact ⟨⟨final.channel.of_same rfl (.of_eq (Channel.inflight_post task)), called, connected⟩, rfl⟩
  | complete i ec frame =>
    obtain ⟨c, done, rfl⟩ := Option.map_eq_some_iff.1 step
    have ops := Channel.inflight_complete done
    obtain ⟨p, -, rfl⟩ := Channel.complete_fields done
    exact ⟨⟨final.channel.of_same rfl ops, called, connected⟩, rfl⟩
  | run alive sni =>
    obtain ⟨⟨r, calls⟩, ran, rfl⟩ := Option.map_eq_some_iff.1 step
    obtain ⟨h, rest, front, result⟩ := runNext_inv ran
    obtain rfl : r = (handle alive sni { s with toChannel := s.toChannel.popHandler } h).1 :=
      congrArg Prod.fst result
    have done := handle_final alive sni inv.sound.errors final front
    exact ⟨⟨done.1, called, connected⟩, done.2⟩

/-- The read side between two handlers. -/
structure ReadSound (s : CSession) : Prop extends Reading s where
  /-- A session that is closed, with its connect chain over, stays closed and starts nothing. -/
  final : s.Final → ∀ (ls : List Label) (s' : CSession), system.exec s ls = some s' →
    system.Along BeastOk s ls → s'.mOpen = false ∧ s'.started = s.started

theorem readSound (inv : s.Inv) (reading : s.Reading) : s.ReadSound where
  toReading := reading
  final done ls s' run along := by
    have kept : s'.Inv ∧ s'.Final ∧ s'.started = s.started :=
      Lib.System.invariant_along (fun t => t.Inv ∧ t.Final ∧ t.started = s.started) ⟨inv, done, rfl⟩
        (fun _ _ _ ⟨inv, done, same⟩ ok step =>
          have next := step_final inv done step
          ⟨step_inv inv ok step, next.1, next.2.trans same⟩) run along
    exact ⟨kept.2.1.channel.closed, kept.2.2⟩

end CSession

/-- **Session read side.** In every run of a server or a client session in which Beast keeps its
promise, at most one read is in flight; an open session has exactly one, unless the server rejected it
or is still registering it; and a session that has closed starts no operation ever after. -/
theorem session_read_side :
    (∀ (maxSessionBacklog : Nat) (target : Bytes) (isSsl : Bool) (ls : List CWsSession.Label) (s : CWsSession),
      CWsSession.system.exec (.accept maxSessionBacklog target isSsl) ls = some s →
      CWsSession.system.Along CWsSession.BeastOk (.accept maxSessionBacklog target isSsl) ls → s.ReadSound) ∧
    (∀ (isSsl : Bool) (ls : List CSession.Label) (s : CSession),
      CSession.system.exec (.create isSsl) ls = some s →
      CSession.system.Along CSession.BeastOk (.create isSsl) ls → s.ReadSound) := by
  constructor
  · intro maxSessionBacklog target isSsl ls s run along
    have kept : s.Inv ∧ s.Reading :=
      Lib.System.invariant_along (fun t => t.Inv ∧ t.Reading)
        ⟨CWsSession.accept_inv maxSessionBacklog target isSsl,
          Nat.zero_le 1, (fun busy => nomatch busy), (fun isOpen => nomatch isOpen)⟩
        (fun _ _ _ ⟨inv, reading⟩ ok step => ⟨CWsSession.step_inv inv ok step, CWsSession.step_reading inv reading step⟩)
        run along
    exact CWsSession.readSound kept.1 kept.2
  · intro isSsl ls s run along
    have kept : s.Inv ∧ s.Reading :=
      Lib.System.invariant_along (fun t => t.Inv ∧ t.Reading)
        ⟨CSession.create_inv isSsl, Nat.zero_le 1, (fun isOpen => nomatch isOpen)⟩
        (fun _ _ _ ⟨inv, reading⟩ ok step => ⟨CSession.step_inv inv ok step, CSession.step_reading inv reading step⟩)
        run along
    exact CSession.readSound kept.1 kept.2

/-- Of the runs that lose a buffer, the part before the end of file has its read in flight; after it the
session starts nothing, also when another payload is sent to it. -/
theorem session_read_side_halfClosed :
    (∃ s, CWsSession.system.exec (.accept 0 [] false) (CWsSession.halfClosed.take 5) = some s ∧ s.reads = 1 ∧
      s.ReadSound) ∧
    (∃ s s', CSession.system.exec (.create false) CSession.halfClosed = some s ∧
      CSession.system.exec s [.post (.send { isText := true, text := greeting }), .run true none] = some s' ∧
      s.ReadSound ∧ s'.started = s.started) :=
  ⟨⟨_, rfl, rfl, session_read_side.1 0 [] false (CWsSession.halfClosed.take 5) _ rfl (by decide)⟩,
    ⟨_, _, rfl, rfl, session_read_side.2 false CSession.halfClosed _ rfl (by decide),
      ((session_read_side.2 false CSession.halfClosed _ rfl (by decide)).final ⟨⟨rfl, rfl⟩, rfl, rfl⟩
        [.post (.send { isText := true, text := greeting }), .run true none] _ rfl
        ⟨trivial, trivial, trivial⟩).2⟩⟩

end Websockets
