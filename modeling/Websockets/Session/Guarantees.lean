import Websockets.Session.WsSession
import Websockets.Session.ClientSession

/-!
# What holds of every session run

The write-side invariant of both session classes under Beast's promise, and the exact condition
under which the buffer of a write in flight stays in the queue: no read error is handled while
the write is in flight. Both are inductions over runs; the work of each step is in the moves.
-/

namespace Websockets

variable {Stage P T : Type} {c c' : Channel Stage P T}

namespace Channel

/-- The write side of a session between two handlers. -/
structure WriteSound (c : Channel Stage P T) : Prop where
  /-- At most one `async_write` or `async_close` is outstanding. -/
  single : c.inflight.countP Op.isWriteType ≤ 1
  /-- `async_close` is started at most once, and no `async_write` after it. -/
  closeOnce : c.started.countP Op.isClose ≤ 1
  closeLast : ∀ before after, c.started = before ++ .close :: after → ∀ op ∈ after, op.isWrite = false
  /-- While open, a write is outstanding exactly if the queue is non-empty. -/
  writing : c.mOpen = true → ((∃ isText node, .write isText node ∈ c.inflight) ↔ c.mWriteQueue ≠ [])
  /-- While open, a requested close is sent once the queue is empty, and only then. -/
  noLostClose : c.mOpen = true → c.mCloseRequested = true → c.mWriteQueue = [] → c.mCloseSent = true
  sent : c.mOpen = true → c.mCloseSent = true → c.mCloseRequested = true ∧ c.mWriteQueue = []
  /-- Neither `front` nor `pop_front` was executed on an empty deque. -/
  defined : c.emptyAccess = false

theorem CloseOnce.started_once (once : c.CloseOnce) : c.started.countP Op.isClose ≤ 1 := by
  have last := once.last
  generalize c.started = ops at last
  induction ops with
  | nil => exact Nat.zero_le _
  | cons op ops ih =>
    rw [List.pairwise_cons] at last
    cases op with
    | close =>
      have none : ops.countP Op.isClose = 0 := by
        refine List.countP_eq_zero.2 fun op mem isClose => ?_
        have other := last.1 op mem rfl
        cases op with
        | close => cases other
        | opening stage => cases isClose
        | read => cases isClose
        | write isText node => cases isClose
      have one : (Op.close :: ops).countP Op.isClose = 1 := by rw [List.countP_cons_of_pos (by rfl), none]
      exact Nat.le_of_eq one
    | opening stage => rw [List.countP_cons_of_neg (by simp [Op.isClose])]; exact ih last.2
    | read => rw [List.countP_cons_of_neg (by simp [Op.isClose])]; exact ih last.2
    | write isText node => rw [List.countP_cons_of_neg (by simp [Op.isClose])]; exact ih last.2

theorem CloseOnce.started_last (once : c.CloseOnce) {before after : List (Op Stage P)}
    (split : c.started = before ++ .close :: after) : ∀ op ∈ after, op.isWrite = false := by
  intro op mem
  have last := once.last
  rw [split, List.pairwise_append, List.pairwise_cons] at last
  have other := last.2.1.1 op mem rfl
  cases op with
  | write isText node => cases other
  | opening stage => rfl
  | read => rfl
  | close => rfl

theorem Flow.writing_iff (flow : c.Flow) (opened : c.mOpen = true) :
    (∃ isText node, .write isText node ∈ c.inflight) ↔ c.mWriteQueue ≠ [] := by
  have count := flow.busy opened
  constructor
  · rintro ⟨isText, node, mem⟩ queue
    have head := flow.front opened isText node mem
    rw [queue] at head
    cases head
  · intro queue
    have busy : c.writes = 1 := by rw [count, if_neg (by simpa using queue)]
    have some : 0 < c.inflight.countP Op.isWrite := by
      rw [show c.inflight.countP Op.isWrite = 1 from busy]
      exact Nat.one_pos
    obtain ⟨op, mem, isWrite⟩ := List.countP_pos_iff.1 some
    cases op with
    | write isText node => exact ⟨isText, node, mem⟩
    | opening stage => cases isWrite
    | read => cases isWrite
    | close => cases isWrite

/-- The three invariants give the write side. -/
theorem CloseOnce.writeSound (once : c.CloseOnce) (flow : c.Flow) (lost : c.NoLostClose) : c.WriteSound where
  single := once.single
  closeOnce := once.started_once
  closeLast _ _ split := once.started_last split
  writing := flow.writing_iff
  noLostClose := lost
  sent _ h := ⟨(once.sent h).1, (once.sent h).2.1⟩
  defined := once.defined

/-- What every move keeps under Beast's promise. -/
structure Sound (c : Channel Stage P T) : Prop where
  flow : c.Flow
  errors : c.Errors
  once : c.CloseOnce

theorem Move.sound [Payload P] {calm : Prop} (move : Move True calm c c') (sound : c.Sound) : c'.Sound :=
  ⟨move.flow sound.flow, move.errors sound.errors, move.closeOnce sound.once sound.flow sound.errors⟩

theorem Opens.sound (opens : Opens c c') (sound : c.Sound) : c'.Sound :=
  ⟨opens.flow sound.flow, opens.errors sound.errors, opens.closeOnce sound.once⟩

/-- A channel on which nothing was started. -/
theorem sound_empty : Sound ({} : Channel Stage P T) where
  flow := ⟨fun _ => rfl, (fun h => nomatch h), (fun h => nomatch h), (fun _ mem => nomatch mem)⟩
  errors := ⟨.nil, (fun _ mem => nomatch mem), (fun _ _ mem => nomatch mem), (fun _ _ _ mem => nomatch mem)⟩
  once := ⟨(fun h => nomatch h), (fun mem => nomatch mem), (fun mem => nomatch mem), .nil, Nat.zero_le _,
    Nat.zero_le _, rfl⟩

end Channel

namespace CWsSession

/-- The state of a new session. -/
theorem accept_sound (maxSessionBacklog : Nat) (target : Bytes) (isSsl : Bool) :
    (accept maxSessionBacklog target isSsl).toChannel.Sound := by
  have fresh : ({} : Channel AcceptStage SPayload WsTask).Sound := Channel.sound_empty
  have opening : (Channel.start {} (.opening .accept) : Channel AcceptStage SPayload WsTask).Flow :=
    Channel.Flow.opening rfl rfl rfl AcceptStage.accept
  exact ⟨opening, fresh.errors.start (.inr rfl), fresh.once.start rfl⟩

/-- The invariant of a session run under Beast's promise. -/
structure Inv (s : CWsSession) : Prop where
  waiting : s.Waiting
  sound : s.toChannel.Sound
  lost : s.registering = false → s.toChannel.NoLostClose

theorem accept_inv (maxSessionBacklog : Nat) (target : Bytes) (isSsl : Bool) :
    (accept maxSessionBacklog target isSsl).Inv :=
  ⟨(fun h => nomatch h), accept_sound maxSessionBacklog target isSsl, (fun _ h => nomatch h)⟩

theorem step_inv {s s' : CWsSession} {l : Label} (inv : s.Inv) (ok : BeastOk s l) (step : s.step l = some s') :
    s'.Inv := by
  have waiting := step_waiting step inv.waiting
  have kind : Channel.Move True False s.toChannel s'.toChannel ∨
      Channel.Opens s.toChannel s'.toChannel ∧ s'.registering = true :=
    step_move step inv.waiting (fun _ => ok) (fun h => nomatch h)
  rcases kind with move | ⟨opens, busy⟩
  · refine ⟨waiting, move.sound inv.sound, fun idle => ?_⟩
    cases was : s.registering with
    | false => exact move.noLostClose (inv.lost was)
    | true =>
      -- the strand was inside `RegisterWsClient` and is not any more: the registration returned
      cases l with
      | post task => cases step; exact absurd (was.symm.trans idle) (by decide)
      | complete i ec frame =>
        obtain ⟨c, -, rfl⟩ := Option.map_eq_some_iff.1 step
        exact absurd (was.symm.trans idle) (by decide)
      | run alive => simp [CWsSession.step, runNext, was] at step
      | registered clientId =>
        simp only [CWsSession.step, was, if_true, Option.some.injEq] at step
        subst step
        unfold onRegistered
        split
        · exact Channel.noLostClose_maybeSendClose
        · exact Channel.noLostClose_beginReading
  · exact ⟨waiting, opens.sound inv.sound, fun idle => absurd (busy.symm.trans idle) (by decide)⟩

end CWsSession

namespace CSession

/-- The invariant of a session run under Beast's promise. -/
structure Inv (s : CSession) : Prop where
  fresh : s.Fresh
  sound : s.toChannel.Sound
  lost : s.toChannel.NoLostClose

theorem create_inv (isSsl : Bool) : (create isSsl).Inv :=
  ⟨create_fresh isSsl, Channel.sound_empty, (fun h => nomatch h)⟩

theorem step_inv {s s' : CSession} {l : Label} (inv : s.Inv) (ok : BeastOk s l) (step : s.step l = some s') :
    s'.Inv := by
  have fresh := step_fresh step inv.fresh
  have kind : Moves True False s.toChannel s'.toChannel :=
    step_moves step inv.fresh (fun _ => ok) (fun h => nomatch h)
  rcases kind with move | ⟨opened, opens, same⟩
  · exact ⟨fresh, move.sound inv.sound, move.noLostClose inv.lost⟩
  · have begin : Channel.Move True False opened s'.toChannel := same ▸ .begin opens.mOpen
    exact ⟨fresh, begin.sound (opens.sound inv.sound), same ▸ Channel.noLostClose_beginReading⟩

end CSession

/-- **Session write side.** In every run of a server or a client session in which Beast keeps its
promise, the write side is sound in every state between two handlers. -/
theorem session_write_side :
    (∀ (maxSessionBacklog : Nat) (target : Bytes) (isSsl : Bool) (ls : List CWsSession.Label) (s : CWsSession),
      CWsSession.system.exec (.accept maxSessionBacklog target isSsl) ls = some s →
      CWsSession.system.Along CWsSession.BeastOk (.accept maxSessionBacklog target isSsl) ls →
      s.registering = false → s.toChannel.WriteSound) ∧
    (∀ (isSsl : Bool) (ls : List CSession.Label) (s : CSession),
      CSession.system.exec (.create isSsl) ls = some s →
      CSession.system.Along CSession.BeastOk (.create isSsl) ls → s.toChannel.WriteSound) := by
  constructor
  · intro maxSessionBacklog target isSsl ls s run along idle
    have inv : s.Inv := Lib.System.invariant_along CWsSession.Inv
      (CWsSession.accept_inv maxSessionBacklog target isSsl)
      (fun _ _ _ inv ok step => CWsSession.step_inv inv ok step) run along
    exact inv.sound.once.writeSound inv.sound.flow (inv.lost idle)
  · intro isSsl ls s run along
    have inv : s.Inv := Lib.System.invariant_along CSession.Inv (CSession.create_inv isSsl)
      (fun _ _ _ inv ok step => CSession.step_inv inv ok step) run along
    exact inv.sound.once.writeSound inv.sound.flow inv.lost

/-! ## Two runs that lose a buffer

Each opens a session, sends one payload, and gets an end of file from the peer while the write is
outstanding. -/

/-- The payload both runs send. -/
def greeting : Bytes := str "hi"

def CWsSession.halfClosed : List CWsSession.Label :=
  [.complete 0 none noFrame, .run true, .registered 1, .post (.send (makeTextPayload greeting)), .run true,
    .complete 0 (some .eof) noFrame, .run true]

def CSession.halfClosed : List CSession.Label :=
  [.post (.asyncConnect ⟨greeting, 80, [], ∅, some ⟨none⟩⟩), .run true none, .complete 0 none noFrame,
    .run true none, .complete 0 none noFrame, .run true none, .complete 0 none noFrame, .run true none,
    .post (.send { isText := true, text := greeting }), .run true none, .complete 0 (some .eof) noFrame,
    .run true none]

/-- Both runs are allowed by Beast's promise, and so their write sides are sound. -/
theorem session_write_side_halfClosed :
    (∃ s, CWsSession.system.exec (.accept 0 [] false) CWsSession.halfClosed = some s ∧
      s.mOpen = false ∧ s.writes = 1 ∧ s.toChannel.WriteSound) ∧
    (∃ s, CSession.system.exec (.create false) CSession.halfClosed = some s ∧
      s.mOpen = false ∧ s.writes = 1 ∧ s.toChannel.WriteSound) :=
  ⟨⟨_, rfl, rfl, rfl, session_write_side.1 0 [] false CWsSession.halfClosed _ rfl (by decide) rfl⟩,
    ⟨_, rfl, rfl, rfl, session_write_side.2 false CSession.halfClosed _ rfl (by decide)⟩⟩

/-! ## The buffer of a write in flight -/

namespace Channel

/-- The invariant of a run without a read error during a write. -/
structure Held (c : Channel Stage P T) : Prop where
  flow : c.Flow
  drained : c.Drained

theorem Move.held [Payload P] {beast : Prop} (move : Move beast True c c') (held : c.Held) : c'.Held :=
  ⟨move.flow held.flow, move.drained held.flow held.drained⟩

theorem Opens.held (opens : Opens c c') (held : c.Held) : c'.Held :=
  ⟨opens.flow held.flow, fun closed => absurd (opens.mOpen.symm.trans closed) (by decide)⟩

end Channel

/-- A server step without a read error during a write. -/
theorem CWsSession.step_held {s s' : CWsSession} {l : CWsSession.Label} (held : s.Waiting ∧ s.toChannel.Held)
    (ok : CWsSession.CalmOk s l) (step : s.step l = some s') : s'.Waiting ∧ s'.toChannel.Held := by
  have kind : Channel.Move False True s.toChannel s'.toChannel ∨
      Channel.Opens s.toChannel s'.toChannel ∧ s'.registering = true :=
    step_move step held.1 (fun h => nomatch h) (fun _ => ok)
  refine ⟨step_waiting step held.1, ?_⟩
  rcases kind with move | ⟨opens, -⟩
  · exact move.held held.2
  · exact opens.held held.2

/-- A server step that handles a read error during a write. -/
theorem CWsSession.step_not_held {s s' : CWsSession} {l : CWsSession.Label} (bad : ¬ CWsSession.CalmOk s l)
    (step : s.step l = some s') : ¬ s'.toChannel.BuffersHeld := by
  cases l with
  | post task => exact absurd trivial bad
  | complete i ec frame => exact absurd trivial bad
  | registered clientId => exact absurd trivial bad
  | run alive =>
    obtain ⟨⟨r, calls⟩, ran, rfl⟩ := Option.map_eq_some_iff.1 step
    obtain ⟨-, h, rest, front, result⟩ := runNext_inv ran
    simp only [CalmOk, front] at bad
    split at bad
    next e frame _ same =>
      cases same
      have channel := congrArg (fun x => x.1.toChannel) result
      simp only [handle, onRead_channel] at channel
      simp only [channel]
      exact Channel.not_buffersHeld_of_readError front bad
    next => exact absurd trivial bad

/-- A client step without a read error during a write. -/
theorem CSession.step_held {s s' : CSession} {l : CSession.Label} (held : s.Fresh ∧ s.toChannel.Held)
    (ok : CSession.CalmOk s l) (step : s.step l = some s') : s'.Fresh ∧ s'.toChannel.Held := by
  have kind : Moves False True s.toChannel s'.toChannel :=
    step_moves step held.1 (fun h => nomatch h) (fun _ => ok)
  refine ⟨step_fresh step held.1, ?_⟩
  rcases kind with move | ⟨opened, opens, same⟩
  · exact move.held held.2
  · have begin : Channel.Move False True opened s'.toChannel := same ▸ .begin opens.mOpen
    exact begin.held (opens.held held.2)

/-- A client step that handles a read error during a write. -/
theorem CSession.step_not_held {s s' : CSession} {l : CSession.Label} (bad : ¬ CSession.CalmOk s l)
    (step : s.step l = some s') : ¬ s'.toChannel.BuffersHeld := by
  cases l with
  | post task => exact absurd trivial bad
  | complete i ec frame => exact absurd trivial bad
  | run alive sni =>
    obtain ⟨⟨r, calls⟩, ran, rfl⟩ := Option.map_eq_some_iff.1 step
    obtain ⟨h, rest, front, result⟩ := runNext_inv ran
    simp only [CalmOk, front] at bad
    split at bad
    next e frame _ same =>
      cases same
      have channel := congrArg (fun x => x.1.toChannel) result
      simp only [handle, onRead_channel] at channel
      simp only [channel]
      exact Channel.not_buffersHeld_of_readError front bad
    next => exact absurd trivial bad

/-- **Write buffers.** In a run of either class every write in flight keeps its payload at the front
of the queue in every state, exactly if no read error is handled while a write is in flight. -/
theorem session_buffers_held_iff (maxSessionBacklog : Nat) (target : Bytes) (isSsl : Bool) :
    (∀ (ls : List CWsSession.Label) (s : CWsSession),
      CWsSession.system.exec (.accept maxSessionBacklog target isSsl) ls = some s →
      (CWsSession.system.Always (fun t => t.toChannel.BuffersHeld) (.accept maxSessionBacklog target isSsl) ls ↔
        CWsSession.system.Along CWsSession.CalmOk (.accept maxSessionBacklog target isSsl) ls)) ∧
    (∀ (ls : List CSession.Label) (s : CSession),
      CSession.system.exec (.create isSsl) ls = some s →
      (CSession.system.Always (fun t => t.toChannel.BuffersHeld) (.create isSsl) ls ↔
        CSession.system.Along CSession.CalmOk (.create isSsl) ls)) := by
  constructor
  · intro ls s run
    have fresh := CWsSession.accept_inv maxSessionBacklog target isSsl
    exact Lib.System.always_iff_along (fun t => t.Waiting ∧ t.toChannel.Held)
      (fun _ held => held.2.flow.buffersHeld held.2.drained) ⟨fresh.waiting, fresh.sound.flow, fun _ => rfl⟩
      (fun _ _ _ held ok step => CWsSession.step_held held ok step)
      (fun _ _ _ _ bad step => CWsSession.step_not_held bad step) run
  · intro ls s run
    have fresh := CSession.create_inv isSsl
    exact Lib.System.always_iff_along (fun t => t.Fresh ∧ t.toChannel.Held)
      (fun _ held => held.2.flow.buffersHeld held.2.drained) ⟨fresh.fresh, fresh.sound.flow, fun _ => rfl⟩
      (fun _ _ _ held ok step => CSession.step_held held ok step)
      (fun _ _ _ _ bad step => CSession.step_not_held bad step) run

/-- A prefix of each run above has no read error, so its write keeps its buffer. -/
theorem session_buffers_held_before_eof :
    CWsSession.system.Always (fun t => t.toChannel.BuffersHeld) (.accept 0 [] false)
        (CWsSession.halfClosed.take 5) ∧
      CSession.system.Always (fun t => t.toChannel.BuffersHeld) (.create false) (CSession.halfClosed.take 10) :=
  ⟨((session_buffers_held_iff 0 [] false).1 (CWsSession.halfClosed.take 5) _ rfl).2
      ⟨trivial, trivial, trivial, trivial, trivial, trivial⟩,
    ((session_buffers_held_iff 0 [] false).2 (CSession.halfClosed.take 10) _ rfl).2
      ⟨trivial, trivial, trivial, trivial, trivial, trivial, trivial, trivial, trivial, trivial, trivial⟩⟩

/-- At the end of each run the write is outstanding and its payload is gone from the queue. -/
theorem session_buffers_lost :
    (∃ s, CWsSession.system.exec (.accept 0 [] false) CWsSession.halfClosed = some s ∧
      CWsSession.system.Along CWsSession.BeastOk (.accept 0 [] false) CWsSession.halfClosed ∧
      ¬ s.toChannel.BuffersHeld) ∧
    (∃ s, CSession.system.exec (.create false) CSession.halfClosed = some s ∧
      CSession.system.Along CSession.BeastOk (.create false) CSession.halfClosed ∧
      ¬ s.toChannel.BuffersHeld) := by
  constructor
  · refine ⟨_, rfl, by decide, fun held => ?_⟩
    have gone := held true ⟨0, makeTextPayload greeting⟩ (.head _)
    cases gone
  · refine ⟨_, rfl, by decide, fun held => ?_⟩
    have gone := held true ⟨0, { isText := true, text := greeting }⟩ (.head _)
    cases gone

end Websockets
