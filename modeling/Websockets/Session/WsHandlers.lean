import Websockets.Session.WsSession

/-!
# What a handler of a server session does, as the server sees it

A handler of a session that finds its server does one of four things: it opens the session and calls
`RegisterWsClient`; it closes it and calls `OnWsClosed`; it marks a requested close; or it does
ordinary work, which leaves the flags and the id alone. Of the operations only the accept opens, and
no handler starts another one.
-/

namespace Websockets

/-- Calls that concern neither registration nor closing. -/
def WsCall.isLight : WsCall → Bool
  | onWsMessage _ _ | onWsContent _ _ | logError _ => true
  | _ => false

namespace CWsSession

/-- A close is queued on the strand. -/
def closePosted (t : CWsSession) : Prop := .posted .close ∈ t.strand

instance (t : CWsSession) : Decidable t.closePosted := inferInstanceAs (Decidable (_ ∈ _))

/-- What a handler other than the queued close leaves alone. -/
structure Keeps (t t' : CWsSession) : Prop where
  clientId : t'.mClientId = t.mClientId
  openings : t'.openings ≤ t.openings
  posted : t'.closePosted ↔ t.closePosted

/-- What the server sees of a handler run. -/
inductive Acts (t : CWsSession) : CWsSession → List WsCall → Prop
  | works {t' calls} (keeps : Keeps t t') (flags : t'.flags = t.flags) (idle : t'.registering = false)
      (light : ∀ call ∈ calls, call.isLight = true) : Acts t t' calls
  | marks {t'} (clientId : t'.mClientId = t.mClientId) (openings : t'.openings ≤ t.openings)
      (posted : t.closePosted) (flags : t'.flags = (t.mOpen, true)) (idle : t'.registering = false) : Acts t t' []
  | opens {t'} (keeps : Keeps t t') (flags : t'.flags = (true, t.mCloseRequested)) (busy : t'.registering = true)
      (opening : t.openings = t'.openings + 1) : Acts t t' [.registerWsClient t.mTarget t.isSsl]
  | closes {t' logs} (keeps : Keeps t t') (opened : t.mOpen = true) (flags : t'.flags = (false, t.mCloseRequested))
      (idle : t'.registering = false) (light : ∀ call ∈ logs, call.isLight = true) :
      Acts t t' (logs ++ [.onWsClosed t.mClientId])

variable {t t' : CWsSession}

theorem light_one {call : WsCall} (light : call.isLight = true) : ∀ call' ∈ [call], call'.isLight = true := by
  intro call' mem
  rw [List.mem_singleton.1 mem]
  exact light

theorem light_nil : ∀ call ∈ ([] : List WsCall), call.isLight = true := fun _ mem => nomatch mem

/-- The session with the front handler of its strand popped. -/
def popped (t : CWsSession) : CWsSession := { t with toChannel := t.toChannel.popHandler }

section Front

variable {h : Handler AcceptStage SPayload WsTask} {rest : List (Handler AcceptStage SPayload WsTask)}

theorem popped_openings (front : t.strand = h :: rest) :
    t.popped.openings + (if (h.op?.any Op.isOpening) then 1 else 0) = t.openings :=
  Channel.openings_pop front

/-- Popping another handler than the close keeps the close queued. -/
theorem popped_posted (front : t.strand = h :: rest) (other : h ≠ .posted .close) :
    t.popped.closePosted ↔ t.closePosted := by
  simp only [closePosted, popped, Channel.popHandler, front, List.tail_cons, List.mem_cons]
  exact ⟨.inr, fun mem => mem.resolve_left fun eq => other eq.symm⟩

/-- A handler that changes the operations in flight only by operations that open nothing. -/
theorem Keeps.of_popped (front : t.strand = h :: rest) (other : h ≠ .posted .close)
    (clientId : t'.mClientId = t.popped.mClientId) (openings : t'.openings = t.popped.openings)
    (strand : t'.strand = t.popped.strand) : Keeps t t' where
  clientId := clientId
  openings := by
    have := popped_openings front
    omega
  posted := by
    rw [← popped_posted front other, closePosted, closePosted, strand]

theorem send_acts {payload : SPayload} (front : t.strand = .posted (.send payload) :: rest)
    (idle : t.registering = false) :
    Acts t (t.popped.send true payload).1 (t.popped.send true payload).2 := by
  have keeps : ∀ {t'}, t'.mClientId = t.popped.mClientId → t'.openings = t.popped.openings →
      t'.strand = t.popped.strand → Keeps t t' := .of_popped front (fun h => nomatch h)
  unfold send
  split
  · exact .works (keeps rfl rfl rfl) rfl idle light_nil
  · split
    · split
      · exact .works (keeps rfl rfl rfl) rfl idle (light_one rfl)
      · exact .works (keeps rfl rfl rfl) rfl idle light_nil
    · exact .works (keeps rfl (Channel.openings_enqueue payload) (Channel.enqueue_strand payload))
        (Channel.flags_enqueue payload) idle light_nil

theorem handleClosed_acts {e : ErrorCode} (front : t.strand = h :: rest) (other : h ≠ .posted .close)
    (idle : t.registering = false) :
    Acts t (handleClosed true t.popped e).1 (handleClosed true t.popped e).2 := by
  have keeps : Keeps t (handleClosed true t.popped e).1 := .of_popped front other rfl rfl rfl
  simp only [handleClosed, Bool.and_true] at keeps ⊢
  cases opened : t.mOpen with
  | false =>
    have none : t.popped.mOpen = false := opened
    rw [none]
    refine .works keeps ?_ idle light_nil
    simp only [Channel.flags, Channel.handleClosed, opened]
    rfl
  | true =>
    have some : t.popped.mOpen = true := opened
    rw [some]
    refine .closes keeps opened rfl idle ?_
    split
    · exact light_nil
    · exact light_one rfl

end Front

/-- **What a handler run is to the server.** -/
theorem runNext_acts {calls : List WsCall} (ran : t.runNext true = some (t', calls)) :
    t.registering = false ∧ Acts t t' calls := by
  obtain ⟨idle, h, rest, front, result⟩ := runNext_inv ran
  refine ⟨idle, ?_⟩
  obtain ⟨rfl, rfl⟩ : t' = (handle true t.popped h).1 ∧ calls = (handle true t.popped h).2 :=
    ⟨congrArg Prod.fst result, congrArg Prod.snd result⟩
  match h with
  | .posted (.send payload) => exact send_acts front idle
  | .posted .close =>
    have openings : t.popped.closeTask.openings ≤ t.openings := by
      have := popped_openings front
      rw [Channel.openings_closeTask]
      omega
    exact .marks rfl openings (by rw [closePosted, front]; exact List.mem_cons_self) Channel.flags_closeTask idle
  | .completed (.opening .accept) none frame =>
    refine .opens (.of_popped front (fun h => by cases h) rfl rfl rfl) rfl rfl ?_
    exact (popped_openings front).symm
  | .completed (.opening .accept) (some e) frame =>
    refine .works (.of_popped front (fun h => by cases h) rfl rfl rfl) rfl idle ?_
    simp only [handle, onAccept]
    split
    · exact light_nil
    · exact light_one rfl
  | .completed .read none frame =>
    refine .works (.of_popped front (fun h => by cases h) rfl ?_ rfl) rfl idle (light_one ?_)
    · simp only [handle, onRead, Channel.doRead, Channel.openings_start]; rfl
    · cases frame.isText <;> rfl
  | .completed .read (some e) frame => exact handleClosed_acts front (fun h => by cases h) idle
  | .completed (.write isText node) none frame =>
    exact .works (.of_popped front (fun h => by cases h) rfl (Channel.openings_onWrite none)
      (Channel.onWrite_strand none)) Channel.flags_onWrite idle light_nil
  | .completed (.write isText node) (some e) frame => exact handleClosed_acts front (fun h => by cases h) idle
  | .completed .close ec frame =>
    exact .works (.of_popped front (fun h => by cases h) rfl rfl rfl) rfl idle light_nil

/-! ## Steps of a session that are no handler runs -/

/-- A change the server does not see. -/
structure Alike (t t' : CWsSession) : Prop where
  keeps : Keeps t t'
  flags : t'.flags = t.flags
  registering : t'.registering = t.registering

theorem Alike.refl (t : CWsSession) : Alike t t := ⟨⟨rfl, Nat.le_refl _, .rfl⟩, rfl, rfl⟩

theorem post_send_alike (t : CWsSession) (payload : SPayload) :
    Alike t { t with toChannel := t.toChannel.post (.send payload) } := by
  refine ⟨⟨rfl, Nat.le_of_eq ?_, ?_⟩, rfl, rfl⟩
  · rw [Channel.openings, Channel.inflight_post]; rfl
  · simp [closePosted, Channel.post]

theorem complete_alike {i : Nat} {ec : Option ErrorCode} {frame : Frame} {ch : Channel AcceptStage SPayload WsTask}
    (done : t.toChannel.complete i ec frame = some ch) : Alike t { t with toChannel := ch } := by
  have ops := Channel.inflight_complete done
  obtain ⟨p, -, rfl⟩ := Channel.complete_fields done
  refine ⟨⟨rfl, Nat.le_of_eq ?_, ?_⟩, rfl, rfl⟩
  · exact ops.countP_eq _
  · simp [closePosted]

theorem post_close_posted (t : CWsSession) :
    closePosted { t with toChannel := t.toChannel.post .close } := by
  simp [closePosted, Channel.post]

/-- What the return of `RegisterWsClient` does. -/
theorem onRegistered_sees (t : CWsSession) (clientId : UInt32) :
    (t.onRegistered clientId).mClientId = clientId ∧ (t.onRegistered clientId).registering = false ∧
      (t.onRegistered clientId).openings = t.openings ∧
      ((t.onRegistered clientId).closePosted ↔ t.closePosted) ∧
      (t.onRegistered clientId).flags = (t.mOpen, t.mCloseRequested || clientId == 0) := by
  unfold onRegistered
  split
  · next zero =>
    refine ⟨rfl, rfl, Channel.openings_maybeSendClose, ?_, ?_⟩
    · rw [closePosted, closePosted]
      simp only [Channel.maybeSendClose_strand]
      rfl
    · rw [zero]
      simp only [Channel.flags_maybeSendClose, beq_self_eq_true, Bool.or_true]
      rfl
  · next nonzero =>
    refine ⟨rfl, rfl, Channel.openings_beginReading, ?_, ?_⟩
    · rw [closePosted, closePosted]
      simp only [Channel.beginReading_strand]
    · have other : (clientId == 0) = false := by simpa using nonzero
      simp only [Channel.flags_beginReading, other, Bool.or_false]
      rfl

end CWsSession

end Websockets
