import Websockets.Client.Relay

/-!
# Whether a session is up

What a session says about its own state: nothing while its connect attempt is under way, then that it is
connected, as long as it is open, or else that it is not. This holds however the operations on its stream
complete, since an attempt is one chain of operations: `attempts` counts what is left of it.
-/

namespace Websockets

open Lib

namespace CSession

/-- What is left of the one connect attempt: the call of `AsyncConnect`, its handler, or an operation. -/
def attempts (t : CSession) : Nat := t.openings + t.connects + if t.connectCalled then 0 else 1

variable {t t' : CSession} {sni : Option ErrorCode} {rest : List (Handler Stage SOutgoingMessage SessionTask)}
  {calls : List SessionCall}

/-- `asyncConnect` starts the first operation of the chain. -/
theorem begins_openings {args : ConnectArgs} (front : t.strand = .posted (.asyncConnect args) :: rest)
    (ran : t.runNext true sni = some (t', calls)) : t'.openings = t.openings + 1 := by
  obtain ⟨h, rest', front', result⟩ := runNext_inv ran
  cases front.symm.trans front'
  have channel : t'.toChannel = t.toChannel.popHandler.start (.opening (.resolve args.host (decimal args.port))) :=
    congrArg (fun r : CSession × List SessionCall => r.1.toChannel) result
  have before := Channel.openings_pop front
  rw [channel, Channel.openings_start, ← before]
  rfl

/-- A successful handshake ends the chain. -/
theorem opens_openings {host resource : Bytes} {headers : CHandshakeHeaders} {frame : Frame}
    (front : t.strand = .completed (.opening (.websocketHandshake host resource headers)) none frame :: rest)
    (ran : t.runNext true sni = some (t', calls)) : t'.openings + 1 = t.openings := by
  obtain ⟨h, rest', front', result⟩ := runNext_inv ran
  cases front.symm.trans front'
  have same : t' = (onWebsocketHandshake true t.popped none).1 := congrArg Prod.fst result
  have before := Channel.openings_pop front
  rw [same, onWebsocketHandshake_channel, Channel.openings_beginReading, ← before]
  rfl

theorem connects_begins {args : ConnectArgs} (front : t.strand = .posted (.asyncConnect args) :: rest)
    (after : t'.strand = rest) : t'.connects + 1 = t.connects := by
  unfold connects
  rw [front, after, List.countP_cons_of_pos (by rfl)]

theorem connects_other {h : Handler Stage SOutgoingMessage SessionTask} (front : t.strand = h :: rest)
    (after : t'.strand = rest) (other : ∀ args, h ≠ .posted (.asyncConnect args)) : t'.connects = t.connects := by
  unfold connects
  rw [front, after, List.countP_cons_of_neg]
  cases h with
  | posted task =>
    cases task with
    | asyncConnect args => exact absurd rfl (other args)
    | _ => exact Bool.false_ne_true
  | completed op ec frame => exact Bool.false_ne_true

end CSession

namespace Client

/-- Notices about the state of the connection. -/
def Notice.isState : Notice → Bool
  | connect | disconnect => true
  | _ => false

/-- What the session has said about its state. -/
inductive Stands (t : CSession) : List Notice → Prop
  | waiting (closed : t.mOpen = false) (one : t.attempts = 1)
      (waits : t.openings ≠ 0 → t.mOnConnectComplete.isSome = true)
      (queued : ∀ args, .posted (.asyncConnect args) ∈ t.strand → args.onComplete.isSome = true) : Stands t []
  | up (opened : t.mOpen = true) (none : t.attempts = 0) : Stands t [.connect]
  | down (closed : t.mOpen = false) (none : t.attempts = 0) (before : List Notice) :
      Stands t (before ++ [.disconnect])

variable {t t' : CSession} {states : List Notice}

theorem Alike.attempts (alike : Alike t t') : t'.attempts = t.attempts := by
  unfold CSession.attempts
  rw [alike.openings, alike.begun, alike.called]

theorem Stands.alike (stands : Stands t states) (alike : Alike t t') : Stands t' states := by
  cases stands with
  | waiting closed one waits queued =>
    refine .waiting (alike.opened.trans closed) (alike.attempts.trans one) ?_ fun args mem => queued args (alike.queued args mem)
    rw [alike.openings, alike.handler]
    exact waits
  | up opened none => exact .up (alike.opened.trans opened) (alike.attempts.trans none)
  | down closed none before => exact .down (alike.opened.trans closed) (alike.attempts.trans none) before

/-- With something left of the attempt the session has said nothing. -/
theorem Stands.of_busy (stands : Stands t states) (busy : t.attempts ≠ 0) : states = [] ∧ t.mOpen = false ∧
    t.attempts = 1 ∧ (t.openings ≠ 0 → t.mOnConnectComplete.isSome = true) ∧
      ∀ args, .posted (.asyncConnect args) ∈ t.strand → args.onComplete.isSome = true := by
  cases stands with
  | waiting closed one waits queued => exact ⟨rfl, closed, one, waits, queued⟩
  | up opened none => exact absurd none busy
  | down closed none before => exact absurd none busy

/-- `AsyncConnect` is called. -/
theorem Stands.connect (stands : Stands t states) (uncalled : t.connectCalled = false) {args : ConnectArgs}
    (complete : args.onComplete.isSome = true) :
    Stands { t with toChannel := t.toChannel.post (.asyncConnect args), connectCalled := true } states := by
  have busy : t.attempts ≠ 0 := by
    unfold CSession.attempts
    rw [uncalled]
    exact Nat.succ_ne_zero _
  obtain ⟨rfl, closed, one, waits, queued⟩ := stands.of_busy busy
  have openings : (t.toChannel.post (.asyncConnect args)).openings = t.openings := by
    rw [Channel.openings, Channel.inflight_post]
    rfl
  have connects : CSession.connects { t with toChannel := t.toChannel.post (.asyncConnect args), connectCalled := true } =
      t.connects + 1 := by
    simp [CSession.connects, Channel.post, SessionTask.isConnect]
  refine .waiting closed ?_ (by rw [openings]; exact waits) fun args' mem => ?_
  · unfold CSession.attempts at one ⊢
    rw [uncalled] at one
    rw [connects, openings]
    exact one
  · rcases List.mem_append.1 mem with mem | mem
    · exact queued args' mem
    · cases List.mem_singleton.1 mem
      exact complete

section Run

variable {h : Handler Stage SOutgoingMessage SessionTask}
  {rest : List (Handler Stage SOutgoingMessage SessionTask)} {sni : Option ErrorCode} {calls : List SessionCall}

theorem states_logs {logs : List SessionCall} (light : ∀ call ∈ logs, call.isLog = true) :
    (logs.filterMap said).filter Notice.isState = [] := by
  rw [said_logs light]
  rfl

/-- `asyncConnect` runs. -/
theorem Stands.begin {args : ConnectArgs} (stands : Stands t states)
    (front : t.strand = .posted (.asyncConnect args) :: rest) (ran : t.runNext true sni = some (t', calls)) :
    Stands t' (states ++ (calls.filterMap said).filter Notice.isState) := by
  obtain ⟨strand, called⟩ := CSession.runNext_strand front ran
  have begun := CSession.connects_begins front strand
  have openings := CSession.begins_openings front ran
  have busy : t.attempts ≠ 0 := by
    unfold CSession.attempts
    omega
  obtain ⟨rfl, closed, one, waits, queued⟩ := stands.of_busy busy
  have attempts : t'.attempts = t.attempts := by
    unfold CSession.attempts
    rw [called]
    omega
  cases CSession.runNext_acts front ran with
  | begins _ opened handler =>
    refine .waiting (opened.trans closed) (attempts.trans one) (fun _ => ?_) fun args' mem => queued args' ?_
    · rw [handler]
      exact queued args (front ▸ List.mem_cons_self)
    · rw [strand] at mem
      rw [front]
      exact List.mem_cons_of_mem _ mem
  | works keeps other light => exact absurd keeps.openings (by omega)

/-- **What a handler run adds to what the session says about its state.** -/
theorem Stands.run (stands : Stands t states) (front : t.strand = h :: rest)
    (ran : t.runNext true sni = some (t', calls)) :
    Stands t' (states ++ (calls.filterMap said).filter Notice.isState) := by
  by_cases begins : ∃ args, h = .posted (.asyncConnect args)
  · obtain ⟨args, rfl⟩ := begins
    exact stands.begin front ran
  obtain ⟨strand, called⟩ := CSession.runNext_strand front ran
  have begun : t'.connects = t.connects := CSession.connects_other front strand fun args eq => begins ⟨args, eq⟩
  have queue : ∀ args, .posted (.asyncConnect args) ∈ t'.strand → .posted (.asyncConnect args) ∈ t.strand := by
    intro args mem
    rw [strand] at mem
    rw [front]
    exact List.mem_cons_of_mem _ mem
  have same : t'.openings = t.openings → t'.attempts = t.attempts := by
    intro openings
    unfold CSession.attempts
    rw [openings, begun, called]
  have fewer : t'.openings + 1 = t.openings → t.attempts ≠ 0 ∧ (t.attempts = 1 → t'.attempts = 0) ∧ t.openings ≠ 0 := by
    intro openings
    unfold CSession.attempts
    rw [begun, called]
    omega
  have keep : CSession.Keeps t t' → (calls.filterMap said).filter Notice.isState = [] →
      Stands t' (states ++ (calls.filterMap said).filter Notice.isState) := by
    intro keeps none
    rw [none, List.append_nil]
    exact stands.alike ⟨keeps.opened, keeps.handler, keeps.openings, called, begun, queue⟩
  cases CSession.runNext_acts front ran with
  | begins args opened handler => exact absurd ⟨args, rfl⟩ begins
  | advances opened handler openings =>
    rw [List.filterMap_nil, List.filter_nil, List.append_nil]
    exact stands.alike ⟨opened, handler, openings, called, begun, queue⟩
  | @fails stage ec frame logs opened openings pending light =>
    obtain ⟨busy, past, some⟩ := fewer openings
    obtain ⟨rfl, closed, one, waits, -⟩ := stands.of_busy busy
    obtain ⟨complete, isSet⟩ := Option.isSome_iff_exists.1 (waits some)
    rw [List.filterMap_append, said_logs light, isSet]
    exact .down (opened.trans closed) (past one) []
  | opens opened =>
    obtain ⟨busy, past, some⟩ := fewer (CSession.opens_openings front ran)
    obtain ⟨rfl, -, one, waits, -⟩ := stands.of_busy busy
    obtain ⟨complete, isSet⟩ := Option.isSome_iff_exists.1 (waits some)
    rw [isSet]
    exact .up opened (past one)
  | reads frame keeps =>
    refine keep keeps ?_
    rw [List.filterMap_cons_some (said_ofFrame frame), List.filterMap_nil]
    unfold told
    split <;> rfl
  | @closes op e frame logs was closed openings light =>
    rw [List.filterMap_append, said_logs light]
    cases stands with
    | waiting shut one waits queued => exact absurd (was.symm.trans shut) (by decide)
    | up opened none => exact .down closed ((same openings).trans none) [.connect]
    | down shut none before => exact absurd (was.symm.trans shut) (by decide)
  | works keeps other light => exact keep keeps (states_logs light)

end Run

/-! ## All sessions -/

/-- What session `k` has said about its state. -/
def saidStates (k : Nat) (log : List Event) : List Notice := (spoken k log).filter Notice.isState

/-- Every session has said how it stands. -/
structure Stood (c : Running) : Prop where
  once : Once c
  sessions : ∀ k t, c.shared.sessions[k]? = some t → Stands t (saidStates k c.shared.log)
  absent : ∀ k, c.shared.sessions[k]? = none → spoken k c.shared.log = []

variable {c c' : Running} {l : Label}

theorem Touches.stands {before after : Option CSession} (touches : Touches before after) (found : after = some t')
    (stands : ∀ t, before = some t → Stands t states) (absent : before = none → states = []) : Stands t' states := by
  cases touches with
  | stays t => exact stands t' found
  | creates isSsl =>
    cases found
    obtain rfl := absent rfl
    exact .waiting rfl rfl (fun busy => absurd rfl busy) fun _ mem => nomatch mem
  | posts t task other =>
    cases found
    exact (stands t rfl).alike (post_alike other)
  | connects t args uncalled complete =>
    cases found
    exact (stands t rfl).connect uncalled complete

theorem step_stood (step : step c l = some c') (inv : Stood c) : Stood c' := by
  refine ⟨step_once step inv.once, fun k t' found => ?_, fun k gone => ?_⟩
  · obtain ⟨new, log, session⟩ := step_session step inv.once k
    have said : saidStates k c'.shared.log = saidStates k c.shared.log ++ (spoken k new).filter Notice.isState := by
      rw [saidStates, log, spoken_append, List.filter_append]
      rfl
    rw [said]
    cases session with
    | touches touches quiet =>
      rw [spoken_quiet quiet, List.filter_nil, List.append_nil]
      refine touches.stands found (inv.sessions k) fun none => ?_
      rw [saidStates, inv.absent k none]
      rfl
    | completes before done after =>
      cases after.symm.trans found
      have nothing : (spoken k []).filter Notice.isState = [] := rfl
      rw [nothing, List.append_nil]
      exact (inv.sessions k _ before).alike (complete_alike done)
    | runs before front ran after =>
      cases after.symm.trans found
      rw [spoken_calls]
      exact (inv.sessions k _ before).run front ran
  · obtain ⟨new, log, session⟩ := step_session step inv.once k
    rw [log, spoken_append]
    cases session with
    | touches touches quiet =>
      rw [spoken_quiet quiet, List.append_nil]
      exact inv.absent k (touches.absent gone)
    | completes before done after => cases after.symm.trans gone
    | runs before front ran after => cases after.symm.trans gone

theorem create_stood (sslContext : Bool) (handshakeTimeoutS : Nat) : Stood (create sslContext handshakeTimeoutS) :=
  ⟨create_once sslContext handshakeTimeoutS, fun _ _ found => (nomatch found), fun _ _ => rfl⟩

end Client

end Websockets
