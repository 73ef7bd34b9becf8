import Websockets.Session.ClientHandlers
import Websockets.Session.Guarantees
import Websockets.Client.Steps

/-!
# What a session tells the client

A session is silent until its connect attempt ends. Then it has said that the attempt failed and says
no more, or it has said that it is connected and goes on with the frames it reads, in their order, until
it says once that it is closed. The three flags that guard the three ways to speak are tied together by
the connect chain: an operation of it in flight means a session that is not open and a completion handler
not called yet, and a session that was closed has none in flight and will not start one.
-/

namespace Websockets

namespace Client

/-- What a call of a session tells the application. -/
def said : SessionCall → Option Notice
  | .onConnectComplete _ true => some .connect
  | .onConnectComplete _ false => some .disconnect
  | .onSessionMessage message => some (.message message)
  | .onSessionContent content => some (.content content)
  | .onSessionDisconnect => some .disconnect
  | .logSessionError _ => none

theorem ofCall_announces (j : Nat) (call : SessionCall) : (ofCall j call).announces = (said call).map (j, ·) := by
  cases call with
  | onConnectComplete handler success => cases success <;> rfl
  | _ => rfl

/-- What a frame is to the application. -/
def told (frame : Frame) : Notice := if frame.isText then .message frame.data else .content frame.data

/-- The frame a handler has read. -/
def Handled.frame? : Handled → Option Frame
  | read frame => some frame
  | _ => none

/-- The session is closed and nothing is left that could open it. -/
structure Over (t : CSession) : Prop where
  closed : t.mOpen = false
  settled : t.openings = 0
  called : t.connectCalled = true
  begun : t.connects = 0

/-- What the session has said, having read `frames`. -/
inductive Talks (t : CSession) : List Notice → List Frame → Prop
  | silent (closed : t.mOpen = false) (waiting : t.openings ≠ 0 → t.mOnConnectComplete.isSome = true)
      (queued : ∀ args, .posted (.asyncConnect args) ∈ t.strand → args.onComplete.isSome = true) : Talks t [] []
  | talking (opened : t.mOpen = true) (frames) : Talks t (.connect :: frames.map told) frames
  | failed (past : Over t) : Talks t [.disconnect] []
  | ended (past : Over t) (frames) : Talks t (.connect :: frames.map told ++ [.disconnect]) frames

variable {t t' : CSession} {spoken : List Notice} {frames : List Frame}

/-- Whatever a session has said is the beginning of a failed or of a successful attempt. -/
theorem Talks.spoken_begins (talks : Talks t spoken frames) :
    spoken <+: [.disconnect] ∨ spoken <+: .connect :: frames.map told ++ [.disconnect] := by
  cases talks with
  | silent closed waiting queued => exact .inl (List.nil_prefix)
  | talking opened frames => exact .inr (List.prefix_append _ _)
  | failed past => exact .inl (List.prefix_refl _)
  | ended past frames => exact .inr (List.prefix_refl _)

/-- A session with its attempt under way is silent. -/
theorem Talks.of_busy (talks : Talks t spoken frames) (closed : t.mOpen = false)
    (busy : t.openings ≠ 0 ∨ t.connects ≠ 0) : spoken = [] ∧ frames = [] ∧
      (t.openings ≠ 0 → t.mOnConnectComplete.isSome = true) ∧
      ∀ args, .posted (.asyncConnect args) ∈ t.strand → args.onComplete.isSome = true := by
  have ongoing : ¬ Over t := fun past => busy.elim (· past.settled) (· past.begun)
  cases talks with
  | silent _ waiting queued => exact ⟨rfl, rfl, waiting, queued⟩
  | talking opened frames => exact absurd (opened.symm.trans closed) (by decide)
  | failed past => exact absurd past ongoing
  | ended past frames => exact absurd past ongoing

/-- An open session has said that it is connected and what it has read. -/
theorem Talks.of_open (talks : Talks t spoken frames) (opened : t.mOpen = true) :
    spoken = .connect :: frames.map told := by
  cases talks with
  | silent closed waiting queued => exact absurd (opened.symm.trans closed) (by decide)
  | talking _ frames => rfl
  | failed past => exact absurd (opened.symm.trans past.closed) (by decide)
  | ended past frames => exact absurd (opened.symm.trans past.closed) (by decide)

/-! ## Steps of a session that are no handler runs -/

/-- A change that brings neither a handler run nor an `asyncConnect`. -/
structure Alike (t t' : CSession) : Prop where
  opened : t'.mOpen = t.mOpen
  handler : t'.mOnConnectComplete = t.mOnConnectComplete
  openings : t'.openings = t.openings
  called : t'.connectCalled = t.connectCalled
  begun : t'.connects = t.connects
  queued : ∀ args, .posted (.asyncConnect args) ∈ t'.strand → .posted (.asyncConnect args) ∈ t.strand

theorem post_alike {task : SessionTask} (other : task.isConnect = false) :
    Alike t { t with toChannel := t.toChannel.post task } where
  opened := rfl
  handler := rfl
  openings := by rw [Channel.openings, Channel.inflight_post]; rfl
  called := rfl
  begun := by simp [CSession.connects, Channel.post, other]
  queued args mem := by
    rcases List.mem_append.1 mem with mem | mem
    · exact mem
    · cases List.mem_singleton.1 mem
      cases other

theorem complete_alike {i : Nat} {ec : Option ErrorCode} {frame : Frame}
    {ch : Channel Stage SOutgoingMessage SessionTask} (done : t.toChannel.complete i ec frame = some ch) :
    Alike t { t with toChannel := ch } := by
  have ops := Channel.inflight_complete done
  obtain ⟨p, -, rfl⟩ := Channel.complete_fields done
  refine ⟨rfl, rfl, ops.countP_eq _, rfl, ?_, ?_⟩
  · simp [CSession.connects]
  · intro args mem
    rcases List.mem_append.1 mem with mem | mem
    · exact mem
    · cases List.mem_singleton.1 mem

theorem Over.alike (past : Over t) (alike : Alike t t') : Over t' :=
  ⟨alike.opened.trans past.closed, alike.openings.trans past.settled, alike.called.trans past.called,
    alike.begun.trans past.begun⟩

theorem Talks.alike (talks : Talks t spoken frames) (alike : Alike t t') : Talks t' spoken frames := by
  cases talks with
  | silent closed waiting queued =>
    refine .silent (alike.opened.trans closed) ?_ fun args mem => queued args (alike.queued args mem)
    rw [alike.openings, alike.handler]
    exact waiting
  | talking opened frames => exact .talking (alike.opened.trans opened) frames
  | failed past => exact .failed (past.alike alike)
  | ended past frames => exact .ended (past.alike alike) frames

/-- `AsyncConnect` is called. -/
theorem Talks.connect (talks : Talks t spoken frames) (fresh : t.Fresh) (uncalled : t.connectCalled = false)
    {args : ConnectArgs} (complete : args.onComplete.isSome = true) :
    Talks { t with toChannel := t.toChannel.post (.asyncConnect args), connectCalled := true } spoken frames := by
  cases talks with
  | silent closed waiting queued =>
    refine .silent closed ?_ fun args' mem => ?_
    · rw [Channel.openings, Channel.inflight_post]
      exact waiting
    · rcases List.mem_append.1 mem with mem | mem
      · exact queued args' mem
      · cases List.mem_singleton.1 mem
        exact complete
  | talking opened frames =>
    have closed := (fresh.uncalled uncalled).2.1
    exact absurd (opened.symm.trans closed) (by decide)
  | failed past => exact absurd (past.called.symm.trans uncalled) (by decide)
  | ended past frames => exact absurd (past.called.symm.trans uncalled) (by decide)

/-! ## Handler runs -/

section Run

variable {h : Handler Stage SOutgoingMessage SessionTask}
  {rest : List (Handler Stage SOutgoingMessage SessionTask)} {sni : Option ErrorCode} {calls : List SessionCall}

theorem said_logs {logs : List SessionCall} (light : ∀ call ∈ logs, call.isLog = true) : logs.filterMap said = [] := by
  rw [List.filterMap_eq_nil_iff]
  intro call mem
  have isLog := light call mem
  cases call with
  | logSessionError line => rfl
  | _ => cases isLog

theorem said_ofFrame (frame : Frame) : said (.ofFrame frame) = some (told frame) := by
  unfold SessionCall.ofFrame told
  split <;> rfl

theorem handled_frame (other : ∀ frame, h ≠ .completed .read none frame) : (handled h).frame? = none := by
  unfold handled
  split
  · rfl
  · rfl
  · next frame => exact absurd rfl (other frame)
  · rfl

/-- Once the chain has begun it has begun for good. -/
theorem begun_after (fresh : t.Fresh) (busy : ¬ t.Unstarted) (strand : t.strand = h :: rest) (after : t'.strand = rest)
    (same : t'.connectCalled = t.connectCalled) : t'.connectCalled = true ∧ t'.connects = 0 := by
  obtain ⟨called, begun⟩ := fresh.started busy
  refine ⟨same.trans called, ?_⟩
  unfold CSession.connects at begun ⊢
  rw [strand, List.countP_cons] at begun
  rw [after]
  omega

/-- With an operation of the chain in front there is nothing else in flight, and no more to come. -/
theorem chain_front (inv : t.Inv) {stage ec frame} (front : t.strand = .completed (.opening stage) ec frame :: rest) :
    t.mOpen = false ∧ t.openings = 1 ∧ ¬ t.Unstarted := by
  have ops := Channel.inflight_pop_completed front
  obtain ⟨closed, alone⟩ := inv.sound.flow.alone ops
  rw [alone] at ops
  refine ⟨closed, ?_, fun unstarted => ?_⟩
  · rw [Channel.openings, ops.countP_eq]
    rfl
  · rw [unstarted.2] at ops
    cases ops.length_eq

/-- An open session has no operation of the chain in flight. -/
theorem settled_of_open (inv : t.Inv) (opened : t.mOpen = true) : t.openings = 0 ∧ ¬ t.Unstarted := by
  constructor
  · rw [Channel.openings, List.countP_eq_zero]
    intro op mem isOpening
    cases op with
    | opening stage => exact inv.sound.flow.settled_of_open opened stage mem
    | _ => cases isOpening
  · intro unstarted
    exact absurd (opened.symm.trans unstarted.1) (by decide)

/-- **What a handler run adds to what the session says.** -/
theorem Talks.run (talks : Talks t spoken frames) (inv : t.Inv) (front : t.strand = h :: rest)
    (ran : t.runNext true sni = some (t', calls)) :
    Talks t' (spoken ++ calls.filterMap said) (frames ++ (handled h).frame?.toList) := by
  obtain ⟨strand, called⟩ := CSession.runNext_strand front ran
  have begun : ¬ t.Unstarted → t'.connectCalled = true ∧ t'.connects = 0 :=
    fun busy => begun_after inv.fresh busy front strand called
  have queue : ∀ args, .posted (.asyncConnect args) ∈ t'.strand → .posted (.asyncConnect args) ∈ t.strand := by
    intro args mem
    rw [strand] at mem
    rw [front]
    exact List.mem_cons_of_mem _ mem
  cases CSession.runNext_acts front ran with
  | begins args opened handler =>
    have waits : t.connects ≠ 0 := by
      unfold CSession.connects
      rw [front, List.countP_cons_of_pos (by rfl)]
      omega
    have closed := (inv.fresh.queued.resolve_left waits).2.1
    obtain ⟨rfl, rfl, -, queued⟩ := talks.of_busy closed (.inr waits)
    refine .silent (opened.trans closed) (fun _ => ?_) fun args' mem => queued args' (queue args' mem)
    rw [handler]
    exact queued args (front ▸ List.mem_cons_self)
  | @advances stage frame opened handler openings =>
    obtain ⟨closed, one, -⟩ := chain_front inv front
    obtain ⟨rfl, rfl, waiting, queued⟩ := talks.of_busy closed (.inl (by omega))
    have unread : (handled (.completed (.opening stage) none frame)).frame? = none :=
      handled_frame fun _ h => nomatch h
    rw [unread]
    refine .silent (opened.trans closed) (fun _ => ?_) fun args mem => queued args (queue args mem)
    rw [handler]
    exact waiting (by omega)
  | @fails stage ec frame logs opened openings pending light =>
    obtain ⟨closed, one, busy⟩ := chain_front inv front
    obtain ⟨rfl, rfl, waiting, -⟩ := talks.of_busy closed (.inl (by omega))
    obtain ⟨complete, waits⟩ := Option.isSome_iff_exists.1 (waiting (by omega))
    have unread : (handled (.completed (.opening stage) ec frame)).frame? = none :=
      handled_frame fun _ h => nomatch h
    rw [unread, List.filterMap_append, said_logs light, waits]
    exact .failed ⟨opened.trans closed, by omega, (begun busy).1, (begun busy).2⟩
  | opens opened =>
    obtain ⟨closed, one, -⟩ := chain_front inv front
    obtain ⟨rfl, rfl, waiting, -⟩ := talks.of_busy closed (.inl (by omega))
    obtain ⟨complete, waits⟩ := Option.isSome_iff_exists.1 (waiting (by omega))
    rw [waits]
    exact .talking opened []
  | reads frame keeps =>
    have isOpen := inv.sound.errors.opened front rfl
    obtain rfl := talks.of_open isOpen
    have more : Talks t' _ (frames ++ [frame]) := .talking (keeps.opened.trans isOpen) (frames ++ [frame])
    rw [List.map_append] at more
    rw [List.filterMap_cons_some (said_ofFrame frame)]
    exact more
  | @closes op e frame logs was closed openings light =>
    obtain ⟨settled, busy⟩ := settled_of_open inv was
    obtain rfl := talks.of_open was
    have unread : (handled (.completed op (some e) frame)).frame? = none := handled_frame fun _ h => nomatch h
    rw [unread, List.filterMap_append, said_logs light, Option.toList_none, List.append_nil]
    exact .ended ⟨closed, openings.trans settled, (begun busy).1, (begun busy).2⟩ frames
  | works keeps other light =>
    rw [said_logs light, handled_frame other, Option.toList_none, List.append_nil, List.append_nil]
    have past' : Over t → Over t' := by
      intro past
      refine ⟨keeps.opened.trans past.closed, keeps.openings.trans past.settled, called.trans past.called, ?_⟩
      have none := past.begun
      unfold CSession.connects at none ⊢
      rw [front, List.countP_cons] at none
      rw [strand]
      omega
    cases talks with
    | silent closed waiting queued =>
      refine .silent (keeps.opened.trans closed) ?_ fun args mem => queued args (queue args mem)
      rw [keeps.openings, keeps.handler]
      exact waiting
    | talking opened frames => exact .talking (keeps.opened.trans opened) frames
    | failed past => exact .failed (past' past)
    | ended past frames => exact .ended (past' past) frames

/-- A handler run says at most one thing. -/
theorem said_once (front : t.strand = h :: rest) (ran : t.runNext true sni = some (t', calls)) :
    (calls.filterMap said).length ≤ 1 := by
  cases CSession.runNext_acts front ran with
  | begins args opened handler => exact Nat.zero_le _
  | advances opened handler openings => exact Nat.zero_le _
  | fails opened openings pending light =>
    rw [List.filterMap_append, said_logs light]
    cases t.mOnConnectComplete <;> exact Nat.le_of_ble_eq_true rfl
  | opens opened => cases t.mOnConnectComplete <;> exact Nat.le_of_ble_eq_true rfl
  | reads frame keeps =>
    rw [List.filterMap_cons_some (said_ofFrame frame)]
    exact Nat.le_refl 1
  | closes was closed openings light =>
    rw [List.filterMap_append, said_logs light]
    exact Nat.le_refl 1
  | works keeps other light =>
    rw [said_logs light]
    exact Nat.zero_le _

end Run

end Client

end Websockets
