import Websockets.Session.Ledger
import Websockets.Session.WsHandlers
import Websockets.Session.ClientHandlers

/-!
# What a session has received and handed over

The frames that reads deliver wait on the strand until their handlers run, in the order of their delivery; a
handler that finds a frame hands it on, and no other handler does. What has been passed to `async_write` only grows.
-/

namespace Websockets

/-- The frame that a payload travels in. -/
def frameOf {P : Type} [Payload P] (payload : P) : Frame := ⟨Payload.isText payload, Payload.buffer payload⟩

/-- The callback that a frame is meant for, `f` for messages and `g` for contents, with the frame. -/
def invocation (f g : Fn) (frame : Frame) : Fn × Frame := (if frame.isText then f else g, frame)

/-- The frame whose `OnRead` the handler runs. -/
def Handler.frame? {Stage P T : Type} : Handler Stage P T → Option Frame
  | completed .read none frame => some frame
  | _ => none

namespace Channel

variable {Stage P T : Type} {c c' : Channel Stage P T} {op : Op Stage P}

/-- The frames delivered whose handlers have not run yet. -/
def arrived (c : Channel Stage P T) : List Frame := c.strand.filterMap Handler.frame?

/-- The frame that the `i`-th pending operation delivers if it completes so. -/
def delivers (c : Channel Stage P T) (i : Nat) (ec : Option ErrorCode) (frame : Frame) : Option Frame :=
  match c.pending[i]?, ec with
  | some ⟨.read, _⟩, none => some frame
  | _, _ => none

theorem arrived_post (task : T) : (c.post task).arrived = c.arrived := by
  simp [arrived, post, Handler.frame?]

theorem arrived_complete {i : Nat} {ec : Option ErrorCode} {frame : Frame} (done : c.complete i ec frame = some c') :
    c'.arrived = c.arrived ++ (c.delivers i ec frame).toList := by
  unfold complete at done
  unfold delivers
  split at done
  · cases done
  · next p found =>
    cases done
    obtain ⟨op, cancelled⟩ := p
    simp only [arrived, List.filterMap_append, found]
    cases op with
    | read => cases ec <;> rfl
    | _ => rfl

/-- The handler at the front of the strand takes its frame along. -/
theorem arrived_pop {h : Handler Stage P T} (front : c.strand = h :: c'.strand) :
    h.frame?.toList ++ c'.arrived = c.arrived := by
  rw [arrived, arrived, front]
  cases found : h.frame? with
  | none => rw [List.filterMap_cons_none found, Option.toList_none, List.nil_append]
  | some frame => rw [List.filterMap_cons_some found, Option.toList_some, List.singleton_append]

/-! ## What has been started stays so -/

section Started

theorem started_start : c.started <+: (c.start op).started := List.prefix_append _ _

theorem started_maybeSendClose : c.started <+: c.maybeSendClose.started := by
  unfold maybeSendClose
  split
  · exact List.prefix_refl _
  · exact started_start

theorem started_doWrite [Payload P] : c.started <+: c.doWrite.started := by
  unfold doWrite
  split
  · exact List.prefix_refl _
  · exact started_start

theorem started_enqueue [Payload P] (payload : P) : c.started <+: (c.enqueue payload).started := by
  unfold enqueue
  simp only
  split
  · exact started_doWrite (c := c.pushBack payload)
  · exact List.prefix_refl _

theorem started_closeTask : c.started <+: c.closeTask.started := by
  unfold closeTask
  split
  · exact started_maybeSendClose (c := c.requestClose)
  · exact List.prefix_refl _

theorem started_popFront : c.popFront.started = c.started := by
  unfold popFront
  split <;> rfl

theorem started_onRead (ec : Option ErrorCode) : c.started <+: (c.onRead ec).started := by
  unfold onRead
  split
  · exact List.prefix_refl _
  · exact started_start

theorem started_onWrite [Payload P] (ec : Option ErrorCode) : c.started <+: (c.onWrite ec).started := by
  unfold onWrite
  split
  · exact List.prefix_refl _
  · split
    · exact started_popFront ▸ started_doWrite (c := c.popFront)
    · split
      · exact started_popFront ▸ started_maybeSendClose (c := c.popFront)
      · exact started_popFront ▸ List.prefix_refl _

theorem started_beginReading : c.started <+: c.beginReading.started := by
  unfold beginReading
  split
  · exact started_maybeSendClose.trans started_start
  · exact started_start

theorem Move.started [Payload P] {beast calm : Prop} (move : Move beast calm c c') : c.started <+: c'.started := by
  cases move with
  | post task => exact List.prefix_refl _
  | complete done allowed =>
    obtain ⟨p, -, rfl⟩ := complete_fields done
    exact List.prefix_refl _
  | drop front => exact List.prefix_refl _
  | send front opened running payload => exact started_enqueue (c := c.popHandler) payload
  | close front => exact started_closeTask (c := c.popHandler)
  | connect front fresh idle stage => exact started_start (c := c.popHandler)
  | abandon front => exact List.prefix_refl _
  | advance front next => exact started_start (c := c.popHandler)
  | begin opened => exact started_beginReading
  | reject opened => exact started_maybeSendClose (c := c.requestClose)
  | read front allowed => exact started_onRead (c := c.popHandler) _
  | write front => exact started_onWrite (c := c.popHandler) _
  | closed front => exact List.prefix_refl _

theorem Opens.started (opens : Opens c c') : c'.started = c.started := by
  obtain ⟨stage, frame, rest, front, rfl⟩ := opens
  rfl

/-- What has been handed over, as frames. -/
def written [Payload P] (c : Channel Stage P T) : List Frame := c.handed.map fun x => ⟨x.1, x.2⟩

theorem Ledger.written_prefix [Payload P] {accepted written : List P} (ledger : c.Ledger accepted written) :
    c.written <+: accepted.map frameOf := by
  have frames := ledger.handed.map fun x => (⟨x.1, x.2⟩ : Frame)
  rw [List.map_map] at frames
  exact frames

theorem written_grows [Payload P] (grows : c.started <+: c'.started) : c.written <+: c'.written :=
  (grows.filterMap _).map _

end Started

end Channel

/-! ## The server's session -/

/-- The frame that a call hands on. -/
def WsCall.frame? : WsCall → Option Frame
  | onWsMessage _ message => some ⟨true, message⟩
  | onWsContent _ content => some ⟨false, content⟩
  | _ => none

namespace CWsSession

variable {s s' : CWsSession} {l : Label} {h : Handler AcceptStage SPayload WsTask}
  {rest : List (Handler AcceptStage SPayload WsTask)} {calls : List WsCall}

theorem step_started (step : s.step l = some s') (waiting : s.Waiting) : s.started <+: s'.started := by
  have kind : Channel.Move False False s.toChannel s'.toChannel ∨
      Channel.Opens s.toChannel s'.toChannel ∧ s'.registering = true :=
    step_move step waiting (fun h => nomatch h) (fun h => nomatch h)
  rcases kind with move | ⟨opens, -⟩
  · exact move.started
  · exact opens.started ▸ List.prefix_refl _

theorem handle_strand (alive : Bool) (h : Handler AcceptStage SPayload WsTask) : (handle alive s h).1.strand = s.strand := by
  match h with
  | .posted (.send payload) =>
    simp only [handle]
    rcases send_channel (s := s) alive payload with dropped | ⟨-, -, accepted⟩
    · rw [dropped]
    · rw [accepted]
      exact Channel.enqueue_strand payload
  | .posted .close => exact Channel.closeTask_strand
  | .completed (.opening .accept) ec frame =>
    cases ec <;> cases alive <;> rfl
  | .completed .read ec frame =>
    simp only [handle, onRead_channel]
    exact Channel.onRead_strand ec
  | .completed (.write isText node) ec frame =>
    simp only [handle, onWrite_channel]
    exact Channel.onWrite_strand ec
  | .completed .close ec frame => rfl

theorem runNext_strand (front : s.strand = h :: rest) (ran : s.runNext true = some (s', calls)) : s'.strand = rest := by
  obtain ⟨-, h', rest', front', result⟩ := runNext_inv ran
  cases front.symm.trans front'
  obtain rfl : s' = (handle true s.popped h).1 := congrArg Prod.fst result
  rw [handle_strand]
  simp only [popped, Channel.popHandler, front, List.tail_cons]

theorem light_frames {e : ErrorCode} : (handleClosed true s e).2.filterMap WsCall.frame? = [] := by
  unfold handleClosed
  simp only
  split
  · split <;> rfl
  · rfl

/-- A handler hands on the frame it finds, and nothing else. -/
theorem runNext_frames (front : s.strand = h :: rest) (ran : s.runNext true = some (s', calls)) :
    calls.filterMap WsCall.frame? = h.frame?.toList := by
  obtain ⟨-, h', rest', front', result⟩ := runNext_inv ran
  cases front.symm.trans front'
  obtain rfl : calls = (handle true s.popped h).2 := congrArg Prod.snd result
  match h with
  | .posted (.send payload) =>
    simp only [handle, send]
    split
    · rfl
    · split
      · split <;> rfl
      · rfl
  | .posted .close => rfl
  | .completed (.opening .accept) none frame => rfl
  | .completed (.opening .accept) (some e) frame =>
    simp only [handle, onAccept]
    split <;> rfl
  | .completed .read none ⟨true, data⟩ => rfl
  | .completed .read none ⟨false, data⟩ => rfl
  | .completed .read (some e) frame => exact light_frames
  | .completed (.write isText node) none frame => rfl
  | .completed (.write isText node) (some e) frame => exact light_frames
  | .completed .close ec frame => rfl

end CWsSession

/-! ## The client's session -/

namespace CSession

variable {s s' : CSession} {l : Label}

theorem step_started (step : s.step l = some s') (fresh : s.Fresh) : s.started <+: s'.started := by
  have kind : Moves False False s.toChannel s'.toChannel :=
    step_moves step fresh (fun h => nomatch h) (fun h => nomatch h)
  rcases kind with move | ⟨opened, opens, same⟩
  · exact move.started
  · rw [same, ← opens.started]
    exact Channel.started_beginReading

end CSession

end Websockets
