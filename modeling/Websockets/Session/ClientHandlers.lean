import Websockets.Session.ClientSession

/-!
# What a handler of a client session does, as the client sees it

A handler of a session that finds its client does one of seven things. `asyncConnect` begins the connect
chain; a stage of the chain advances to the next one, fails, or opens the session; a read hands on a
frame; an error closes an open session; everything else is ordinary work. No handler but the chain's own
starts an operation of the chain, and `Close` cancels those that are pending.
-/

namespace Websockets

namespace Channel

variable {Stage P T : Type} {c c' c'' : Channel Stage P T} {op : Op Stage P}

/-- An opening operation is pending after a change only if it was before, or is cancelled. -/
def Kept (c c' : Channel Stage P T) : Prop :=
  ∀ p ∈ c'.pending, p.op.isOpening = true → p.cancelled = true ∨ p ∈ c.pending

theorem Kept.of_same (same : c'.pending = c.pending) : Kept c c' :=
  fun _ mem _ => .inr (same ▸ mem)

theorem Kept.trans (one : Kept c c') (other : Kept c' c'') : Kept c c'' := by
  intro p mem opening
  rcases other p mem opening with cancelled | mem
  · exact .inl cancelled
  · exact one p mem opening

theorem kept_start (other : op.isOpening = false) : Kept c (c.start op) := by
  intro p mem opening
  rcases List.mem_append.1 mem with mem | mem
  · exact .inr mem
  · rw [List.mem_singleton.1 mem] at opening
    exact absurd (opening.symm.trans other) (by decide)

theorem kept_cancel : Kept c c.cancel := by
  intro p mem _
  obtain ⟨q, -, rfl⟩ := List.mem_map.1 mem
  exact .inl rfl

theorem kept_maybeSendClose : Kept c c.maybeSendClose := by
  unfold maybeSendClose
  split
  · exact .of_same rfl
  · exact Kept.trans (.of_same rfl) (kept_start rfl)

theorem kept_doWrite [Payload P] : Kept c c.doWrite := by
  unfold doWrite
  split
  · exact .of_same rfl
  · exact Kept.trans (.of_same rfl) (kept_start rfl)

theorem kept_popFront : Kept c c.popFront := by
  unfold popFront
  split <;> exact .of_same rfl

theorem kept_enqueue [Payload P] (payload : P) : Kept c (c.enqueue payload) := by
  simp only [enqueue]
  split
  · exact Kept.trans (.of_same rfl) kept_doWrite
  · exact .of_same rfl

theorem kept_closeTask : Kept c c.closeTask := by
  unfold closeTask
  split
  · exact Kept.trans (.of_same rfl) kept_maybeSendClose
  · exact Kept.trans (.of_same rfl) kept_cancel

theorem kept_onWrite [Payload P] : Kept c (c.onWrite none) := by
  unfold onWrite
  split
  · exact .of_same rfl
  · split
    · exact kept_popFront.trans kept_doWrite
    · split
      · exact kept_popFront.trans kept_maybeSendClose
      · exact kept_popFront

end Channel

/-- Calls that only log. -/
def SessionCall.isLog : SessionCall → Bool
  | logSessionError _ => true
  | _ => false

/-- The call that hands on a frame. -/
def SessionCall.ofFrame (frame : Frame) : SessionCall :=
  if frame.isText then .onSessionMessage frame.data else .onSessionContent frame.data

namespace CSession

/-- The session with the front handler of its strand popped. -/
def popped (t : CSession) : CSession := { t with toChannel := t.toChannel.popHandler }

/-- Nothing but the strand and the write side changes. -/
structure Keeps (t t' : CSession) : Prop where
  opened : t'.mOpen = t.mOpen
  handler : t'.mOnConnectComplete = t.mOnConnectComplete
  openings : t'.openings = t.openings
  pending : t.toChannel.Kept t'.toChannel

/-- What the client sees of a handler run. -/
inductive Acts (t t' : CSession) : Handler Stage SOutgoingMessage SessionTask → List SessionCall → Prop
  | begins (args) (opened : t'.mOpen = t.mOpen) (handler : t'.mOnConnectComplete = args.onComplete) :
      Acts t t' (.posted (.asyncConnect args)) []
  | advances {stage frame} (opened : t'.mOpen = t.mOpen) (handler : t'.mOnConnectComplete = t.mOnConnectComplete)
      (openings : t'.openings = t.openings) : Acts t t' (.completed (.opening stage) none frame) []
  | fails {stage ec frame logs} (opened : t'.mOpen = t.mOpen) (openings : t'.openings + 1 = t.openings)
      (pending : t.toChannel.Kept t'.toChannel) (light : ∀ call ∈ logs, SessionCall.isLog call = true) :
      Acts t t' (.completed (.opening stage) ec frame)
        (logs ++ t.mOnConnectComplete.toList.map (.onConnectComplete · false))
  | opens {host resource headers frame} (opened : t'.mOpen = true) :
      Acts t t' (.completed (.opening (.websocketHandshake host resource headers)) none frame)
        (t.mOnConnectComplete.toList.map (.onConnectComplete · true))
  | reads (frame) (keeps : Keeps t t') : Acts t t' (.completed .read none frame) [.ofFrame frame]
  | closes {op e frame logs} (was : t.mOpen = true) (closed : t'.mOpen = false) (openings : t'.openings = t.openings)
      (light : ∀ call ∈ logs, SessionCall.isLog call = true) :
      Acts t t' (.completed op (some e) frame) (logs ++ [.onSessionDisconnect])
  | works {h calls} (keeps : Keeps t t') (other : ∀ frame, h ≠ .completed .read none frame)
      (light : ∀ call ∈ calls, SessionCall.isLog call = true) : Acts t t' h calls

variable {t t' : CSession} {sni : Option ErrorCode}

theorem logs_nil : ∀ call ∈ ([] : List SessionCall), call.isLog = true := List.forall_mem_nil _

theorem logs_one {call : SessionCall} (light : call.isLog = true) : ∀ call' ∈ [call], call'.isLog = true := by
  intro call' mem
  rw [List.mem_singleton.1 mem]
  exact light

/-- What `CompleteConnect` calls, and that it moves the handler out. -/
theorem completeConnect_calls (t : CSession) (success : Bool) (stage : String) (ec : Option ErrorCode) :
    ∃ logs, (t.completeConnect true success stage ec).2 =
        logs ++ t.mOnConnectComplete.toList.map (.onConnectComplete · success) ∧
      (∀ call ∈ logs, call.isLog = true) ∧ (ec = none → logs = []) := by
  unfold completeConnect
  cases ec with
  | none =>
    refine ⟨[], ?_, logs_nil, fun _ => rfl⟩
    cases t.mOnConnectComplete <;> rfl
  | some e =>
    refine ⟨if !success && true && e ≠ .operationAborted then [.logSessionError (.failed stage e)] else [],
      ?_, ?_, (fun h => nomatch h)⟩
    · cases t.mOnConnectComplete with
      | none => exact (List.append_nil _).symm
      | some handler => rfl
    · split
      · exact logs_one rfl
      · exact logs_nil

section Front

variable {h : Handler Stage SOutgoingMessage SessionTask}
  {rest : List (Handler Stage SOutgoingMessage SessionTask)}

/-- The popped session differs in the strand only. -/
theorem Keeps.popped (front : t.strand = h :: rest) (other : h.op?.any Op.isOpening = false) : Keeps t t.popped := by
  have count := Channel.openings_pop front
  rw [other] at count
  exact ⟨rfl, rfl, count, .of_same rfl⟩

theorem Keeps.of_popped (front : t.strand = h :: rest) (other : h.op?.any Op.isOpening = false)
    (flags : t'.flags = t.popped.flags) (handler : t'.mOnConnectComplete = t.popped.mOnConnectComplete)
    (openings : t'.openings = t.popped.openings) (pending : t.popped.toChannel.Kept t'.toChannel) : Keeps t t' := by
  have before := Keeps.popped front other
  refine ⟨?_, handler, openings.trans before.openings, before.pending.trans pending⟩
  exact congrArg Prod.fst flags

/-- A stage of the connect chain that failed, for whatever reason. -/
theorem completeConnect_acts {stage frame ec} (front : t.strand = .completed (.opening stage) ec frame :: rest)
    (name : String) (e : ErrorCode) :
    Acts t (t.popped.completeConnect true false name (some e)).1 (.completed (.opening stage) ec frame)
      (t.popped.completeConnect true false name (some e)).2 := by
  obtain ⟨logs, calls, light, -⟩ := completeConnect_calls t.popped false name (some e)
  have channel := completeConnect_channel (s := t.popped) true false name (some e)
  rw [calls]
  refine .fails ?_ ?_ ?_ light
  · rw [channel]
    rfl
  · rw [channel]
    exact Channel.openings_pop front
  · rw [channel]
    exact .of_same rfl

/-- A stage of the connect chain that starts the next one. -/
theorem start_acts {stage frame} (front : t.strand = .completed (.opening stage) none frame :: rest) (next : Stage)
    (channel : t'.toChannel = t.popped.toChannel.start (.opening next))
    (handler : t'.mOnConnectComplete = t.mOnConnectComplete) :
    Acts t t' (.completed (.opening stage) none frame) [] := by
  refine .advances ?_ handler ?_
  · rw [channel]
    rfl
  · rw [channel, Channel.openings_start]
    exact Channel.openings_pop front

theorem handleClosed_acts {op e frame} (front : t.strand = .completed op (some e) frame :: rest)
    (other : op.isOpening = false) :
    Acts t (handleClosed true t.popped e).1 (.completed op (some e) frame) (handleClosed true t.popped e).2 := by
  have before : Keeps t t.popped := .popped front other
  cases opened : t.mOpen with
  | false =>
    have none : t.popped.mOpen = false := opened
    have calls : (handleClosed true t.popped e).2 = [] := by simp [handleClosed, none]
    rw [calls]
    exact .works ⟨opened.symm, rfl, before.openings, .of_same rfl⟩ (fun _ h => nomatch h) logs_nil
  | true =>
    have some : t.popped.mOpen = true := opened
    simp only [handleClosed, some, Bool.and_true, if_true]
    refine .closes opened rfl before.openings ?_
    split
    · exact logs_nil
    · exact logs_one rfl

end Front

/-- **What a handler run is to the client.** -/
theorem runNext_acts {h rest} {calls : List SessionCall} (front : t.strand = h :: rest)
    (ran : t.runNext true sni = some (t', calls)) : Acts t t' h calls := by
  obtain ⟨h', rest', front', result⟩ := runNext_inv ran
  cases front.symm.trans front'
  obtain ⟨rfl, rfl⟩ : t' = (handle true sni t.popped h).1 ∧ calls = (handle true sni t.popped h).2 :=
    ⟨congrArg Prod.fst result, congrArg Prod.snd result⟩
  match h with
  | .posted (.asyncConnect args) => exact .begins args rfl rfl
  | .posted (.send message) =>
    simp only [handle, send, if_true]
    split
    · exact .works (.popped front rfl) (fun _ h => by cases h) (logs_one rfl)
    · exact .works (.of_popped front rfl (Channel.flags_enqueue message) rfl (Channel.openings_enqueue message)
        (Channel.kept_enqueue message)) (fun _ h => by cases h) logs_nil
  | .posted .close =>
    have same : Keeps t (close t.popped).1 := by
      have before : Keeps t t.popped := .popped front rfl
      refine ⟨?_, rfl, Channel.openings_closeTask.trans before.openings, before.pending.trans Channel.kept_closeTask⟩
      exact congrArg Prod.fst Channel.flags_closeTask
    exact .works same (fun _ h => by cases h) logs_nil
  | .completed (.opening (.resolve host port)) (some e) frame => exact completeConnect_acts front "resolve" e
  | .completed (.opening (.resolve host port)) none frame => exact start_acts front .tcpConnect rfl rfl
  | .completed (.opening .tcpConnect) (some e) frame => exact completeConnect_acts front "connect" e
  | .completed (.opening .tcpConnect) none frame =>
    simp only [handle, onTcpConnect]
    split
    · cases sni with
      | some e => exact completeConnect_acts front "SNI" e
      | none => exact start_acts front .sslHandshake rfl rfl
    · exact start_acts front _ rfl rfl
  | .completed (.opening .sslHandshake) (some e) frame => exact completeConnect_acts front "ssl handshake" e
  | .completed (.opening .sslHandshake) none frame => exact start_acts front _ rfl rfl
  | .completed (.opening (.websocketHandshake host resource headers)) (some e) frame =>
    exact completeConnect_acts front "websocket handshake" e
  | .completed (.opening (.websocketHandshake host resource headers)) none frame =>
    obtain ⟨logs, calls, -, empty⟩ :=
      completeConnect_calls { t.popped with toChannel := t.popped.toChannel.setOpen } true "" none
    rw [empty rfl, List.nil_append] at calls
    simp only [handle, onWebsocketHandshake]
    rw [calls]
    refine .opens ?_
    rw [completeConnect_channel]
    exact congrArg Prod.fst Channel.flags_beginReading
  | .completed .read (some e) frame => exact handleClosed_acts front rfl
  | .completed .read none frame =>
    refine .reads frame (.of_popped front rfl rfl rfl ?_ (Channel.kept_start rfl))
    simp only [handle, onRead, Channel.doRead, Channel.openings_start]
    rfl
  | .completed (.write isText node) (some e) frame => exact handleClosed_acts front rfl
  | .completed (.write isText node) none frame =>
    exact .works (.of_popped front rfl Channel.flags_onWrite rfl (Channel.openings_onWrite none) Channel.kept_onWrite)
      (fun _ h => by cases h) logs_nil
  | .completed .close ec frame => exact .works (.popped front rfl) (fun _ h => by cases h) logs_nil

/-- A handler run pops the front of the strand and leaves the rest of it alone. -/
theorem runNext_strand {h rest} {calls : List SessionCall} (front : t.strand = h :: rest)
    (ran : t.runNext true sni = some (t', calls)) : t'.strand = rest ∧ t'.connectCalled = t.connectCalled := by
  obtain ⟨h', rest', front', result⟩ := runNext_inv ran
  cases front.symm.trans front'
  obtain rfl : t' = (handle true sni t.popped h).1 := congrArg Prod.fst result
  refine ⟨?_, handle_called true sni h⟩
  rw [handle_strand]
  simp only [popped, Channel.popHandler, front, List.tail_cons]

/-- `CompleteConnect` leaves no handler. -/
theorem completeConnect_handler (t : CSession) (success : Bool) (stage : String) (ec : Option ErrorCode) :
    (t.completeConnect true success stage ec).1.mOnConnectComplete = none := by
  cases handler : t.mOnConnectComplete <;> simp [completeConnect, handler]

/-- `asyncConnect` sets the completion handler; apart from that it is kept or moved out. -/
theorem runNext_handler {h rest} {calls : List SessionCall} (front : t.strand = h :: rest)
    (ran : t.runNext true sni = some (t', calls)) :
    t'.mOnConnectComplete = none ∨ t'.mOnConnectComplete = t.mOnConnectComplete ∨
      ∃ args, h = .posted (.asyncConnect args) ∧ t'.mOnConnectComplete = args.onComplete := by
  obtain ⟨h', rest', front', result⟩ := runNext_inv ran
  cases front.symm.trans front'
  obtain rfl : t' = (handle true sni t.popped h).1 := congrArg Prod.fst result
  have moved {stage : String} {ec : Option ErrorCode} := completeConnect_handler t.popped false stage ec
  match h with
  | .posted (.asyncConnect args) => exact .inr (.inr ⟨args, rfl, rfl⟩)
  | .posted (.send message) =>
    simp only [handle, send]
    split <;> exact .inr (.inl rfl)
  | .posted .close => exact .inr (.inl rfl)
  | .completed (.opening (.resolve host port)) (some e) frame => exact .inl moved
  | .completed (.opening (.resolve host port)) none frame => exact .inr (.inl rfl)
  | .completed (.opening .tcpConnect) (some e) frame => exact .inl moved
  | .completed (.opening .tcpConnect) none frame =>
    simp only [handle, onTcpConnect]
    split
    · cases sni with
      | some e => exact .inl moved
      | none => exact .inr (.inl rfl)
    · exact .inr (.inl rfl)
  | .completed (.opening .sslHandshake) (some e) frame => exact .inl moved
  | .completed (.opening .sslHandshake) none frame => exact .inr (.inl rfl)
  | .completed (.opening (.websocketHandshake host resource headers)) (some e) frame => exact .inl moved
  | .completed (.opening (.websocketHandshake host resource headers)) none frame =>
    exact .inl (completeConnect_handler _ true "" none)
  | .completed .read ec frame => cases ec <;> exact .inr (.inl rfl)
  | .completed (.write isText node) ec frame => cases ec <;> exact .inr (.inl rfl)
  | .completed .close ec frame => exact .inr (.inl rfl)

end CSession

end Websockets
