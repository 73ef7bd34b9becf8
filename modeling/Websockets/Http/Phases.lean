import Websockets.Http.References

/-!
# What a connection is busy with

A connection is busy with at most one request: something reads or writes the stream, or `HandleHttpRequest`
runs, or the wrapper of the last request can still be answered, or its reply waits on the strand. A step hands
this on, and the number of the request with it.
-/

namespace Websockets

open Lib

/-- Whether a wrapper can still be answered, if the request has one. -/
def Exchange.state (e : Exchange) : Option Bool := e.wrapper.map fun w => w.alive && !w.mResponseSent

/-- What `response` may be: no handler was found, or nobody replied, or it is the handler's own. -/
def Exchange.Answer (e : Exchange) (response : CHttpResponse) : Prop :=
  match e.wrapper with
  | none => response = e.request.notFound ∨ e.request.isUpgrade = true ∧ response = e.request.notAllowed
  | some w => w.mResponseSent = false → e.late = false →
    response.result = 400 ∧ response.reason = str "Bad Request" ∧ response.contentType = str "application/json" ∧
      response.body = httpErrorMessage (str "Bad Request") (str "The request was not handled")

/-- A wrapper that was destroyed without a reply has left its message so. -/
def Exchange.Refused (e : Exchange) : Prop :=
  ∀ w ∈ e.wrapper, w.alive = false → w.mResponseSent = false → e.late = false →
    e.mHttpMsg.badRequest = e.mHttpMsg

/-- A reply or a later change of the message leaves less to say. -/
theorem Exchange.Answer.mono {e e' : Exchange} {w w' : CHttpWrapper} {response : CHttpResponse}
    (answer : e.Answer response) (was : e.wrapper = some w) (is : e'.wrapper = some w')
    (sent : w'.mResponseSent = false → w.mResponseSent = false) (late : e'.late = false → e.late = false) :
    e'.Answer response := by
  unfold Answer at answer ⊢
  rw [was] at answer
  rw [is]
  exact fun unsent kept => answer (sent unsent) (late kept)

namespace CHttpConnection

/-- The requests that have been read when the operation is outstanding. -/
def Op.expects : Op → Option Nat
  | handshake => some 0
  | write n _ => some (n + 1)
  | read | shutdown => none

def Task.expects : Task → Option Nat
  | onHandshake _ => some 0
  | onWrite n _ _ => some (n + 1)
  | _ => none

def Task.isSend : Task → Bool
  | sendResponse _ => true
  | _ => false

def Event.answers : Event → Option Nat
  | writeStarted n _ => some n
  | _ => none

/-- The requests answered so far, in the order of the writes. -/
def responses (log : List Event) : List Nat := log.filterMap Event.answers

/-- A request is read once the response to the one before is written. -/
def ReadsInOrder (log : List Event) : Prop :=
  ∀ before n, before ++ [.readStarted (n + 1)] <+: log → .written n ∈ before

/-- What a connection is busy with. -/
inductive Phase : List (Option Bool) → List Op → List Task → Option Stage → List Nat → Prop where
  | quiet {states : List (Option Bool)} {pending : List Op} {strand : List Task}
      (calm : some true ∉ states) (one : pending.length + strand.length ≤ 1)
      (ops : ∀ op ∈ pending, ∀ n ∈ op.expects, n = states.length)
      (tasks : ∀ task ∈ strand, task.isSend = false ∧ ∀ n ∈ task.expects, n = states.length) :
      Phase states pending strand none (List.range states.length)
  | asking {earlier : List (Option Bool)} {stage : Stage} (calm : some true ∉ earlier)
      (asks : stage = .nextConnectionId earlier.length ∨ stage = .findHttpHandler earlier.length) :
      Phase (earlier ++ [none]) [] [] (some stage) (List.range earlier.length)
  | serving {earlier : List (Option Bool)} {todo : Option Stage} (calm : some true ∉ earlier)
      (rest : ∀ stage ∈ todo, stage.wrapper = some earlier.length) :
      Phase (earlier ++ [some true]) [] [] todo (List.range earlier.length)
  | replying {earlier : List (Option Bool)} {todo : Option Stage} (calm : some true ∉ earlier)
      (rest : ∀ stage ∈ todo, stage.wrapper = some earlier.length) :
      Phase (earlier ++ [some false]) [] [.sendResponse earlier.length] todo (List.range earlier.length)

variable {states : List (Option Bool)} {pending : List Op} {strand : List Task} {todo : Option Stage}
  {answered : List Nat} {log : List Event} {n : Nat}

@[simp] theorem Op.completion_isSend (op : Op) (ec : Option ErrorCode) (request : CHttpRequest) :
    (op.completion ec request).isSend = false := by
  cases op <;> rfl

@[simp] theorem Op.completion_expects (op : Op) (ec : Option ErrorCode) (request : CHttpRequest) :
    (op.completion ec request).expects = op.expects := by
  cases op <;> rfl

theorem responses_append (log new : List Event) : responses (log ++ new) = responses log ++ responses new :=
  List.filterMap_append

theorem ReadsInOrder.snoc {e : Event} (ordered : ReadsInOrder log)
    (next : ∀ k, e = .readStarted (k + 1) → .written k ∈ log) : ReadsInOrder (log ++ [e]) := by
  intro before k pre
  rcases List.prefix_concat_iff.1 pre with same | pre
  · obtain ⟨rfl, last⟩ := List.append_inj' same rfl
    exact next k (List.cons.inj last).1.symm
  · exact ordered before k pre

/-! ## The phases -/

/-- At most one operation is outstanding. -/
theorem Phase.one (phase : Phase states pending strand todo answered) : pending.length ≤ 1 := by
  cases phase with
  | quiet calm one ops tasks => omega
  | _ => exact Nat.zero_le _

/-- The responses are those to the first requests, in their order. -/
theorem Phase.in_order (phase : Phase states pending strand todo answered) :
    answered = List.range answered.length ∧ answered.length ≤ states.length := by
  cases phase with
  | quiet => simp
  | _ => simp

/-- With nothing left to run every request has its response, but one whose wrapper can still be answered. -/
theorem Phase.covered (phase : Phase states pending [] none answered) (lt : n < states.length)
    (past : states[n]? ≠ some (some true)) : n ∈ answered := by
  cases phase with
  | quiet => exact List.mem_range.2 lt
  | @serving earlier _ calm rest =>
    rw [List.length_append, List.length_singleton] at lt
    refine List.mem_range.2 (Nat.lt_of_le_of_ne (Nat.le_of_lt_succ lt) fun same => past ?_)
    subst same
    exact List.getElem?_concat_length

/-- The outstanding operation completes. -/
theorem Phase.complete (phase : Phase states pending strand todo answered) {i : Nat} {op : Op}
    (found : pending[i]? = some op) (ec : Option ErrorCode) (request : CHttpRequest) :
    Phase states (pending.eraseIdx i) (strand ++ [op.completion ec request]) todo answered := by
  have lt := (List.getElem?_eq_some_iff.1 found).1
  cases phase with
  | quiet calm one ops tasks =>
    have length : pending.length = 1 := by omega
    have strand_nil : strand = [] := List.eq_nil_of_length_eq_zero (by omega)
    obtain ⟨op', rfl⟩ := List.length_eq_one_iff.1 length
    obtain rfl : i = 0 := by simpa using lt
    obtain rfl : op' = op := by simpa using found
    subst strand_nil
    refine Phase.quiet calm (by simp) (List.forall_mem_nil _) fun task mem => ?_
    obtain rfl := List.mem_singleton.1 mem
    exact ⟨op'.completion_isSend ec request, fun k expects =>
      ops op' (List.mem_singleton_self _) k (by rwa [Op.completion_expects] at expects)⟩
  | _ => exact absurd lt (Nat.not_lt_zero _)

/-- The next handler is the only one: a completion, or the last request's reply. -/
theorem Phase.next {task : Task} {rest : List Task} (phase : Phase states pending (task :: rest) none answered) :
    pending = [] ∧ rest = [] ∧
      (some true ∉ states ∧ answered = List.range states.length ∧ task.isSend = false ∧
          (∀ n ∈ task.expects, n = states.length) ∨
        ∃ earlier, states = earlier ++ [some false] ∧ some true ∉ earlier ∧ task = .sendResponse earlier.length ∧
          answered = List.range earlier.length) := by
  cases phase with
  | quiet calm one ops tasks =>
    rw [List.length_cons] at one
    obtain ⟨isSend, expects⟩ := tasks task List.mem_cons_self
    refine ⟨List.eq_nil_of_length_eq_zero (by omega), List.eq_nil_of_length_eq_zero (by omega), ?_⟩
    exact .inl ⟨calm, rfl, isSend, expects⟩
  | replying calm _ => exact ⟨rfl, rfl, .inr ⟨_, rfl, calm, rfl, rfl⟩⟩

/-- `HandleHttpRequest` has not found a handler yet, or all it still does is to let go of the wrapper. -/
theorem Phase.stage {stage : Stage} (phase : Phase states pending strand (some stage) answered) :
    (∃ earlier, states = earlier ++ [none] ∧ some true ∉ earlier ∧ pending = [] ∧ strand = [] ∧
        answered = List.range earlier.length ∧
        (stage = .nextConnectionId earlier.length ∨ stage = .findHttpHandler earlier.length)) ∨
      (stage.wrapper.isSome ∧
        ∀ todo' : Option Stage, (∀ s ∈ todo', s.wrapper = stage.wrapper) → Phase states pending strand todo' answered) := by
  cases phase with
  | asking calm asks => exact .inl ⟨_, rfl, calm, rfl, rfl, rfl, asks⟩
  | serving calm rest =>
    have wrapper := rest stage rfl
    refine .inr ⟨by rw [wrapper]; rfl, fun todo' later => Phase.serving calm fun s mem => ?_⟩
    exact (later s mem).trans wrapper
  | replying calm rest =>
    have wrapper := rest stage rfl
    refine .inr ⟨by rw [wrapper]; rfl, fun todo' later => Phase.replying calm fun s mem => ?_⟩
    exact (later s mem).trans wrapper

/-- A wrapper that can still be answered is the last request's, and nothing else goes on. -/
theorem Phase.reply (phase : Phase states pending strand todo answered) (here : states[n]? = some (some true)) :
    Phase (states.set n (some false)) pending (strand ++ [.sendResponse n]) todo answered := by
  have calm_not : ∀ {l : List (Option Bool)}, some true ∉ l → l[n]? ≠ some (some true) :=
    fun calm found => calm (List.mem_of_getElem? found)
  have last : ∀ {earlier : List (Option Bool)} {s : Option Bool}, some true ∉ earlier →
      (earlier ++ [s])[n]? = some (some true) → n = earlier.length ∧ s = some true := by
    intro earlier s calm found
    rcases Nat.lt_trichotomy n earlier.length with lt | rfl | gt
    · rw [List.getElem?_append_left lt] at found
      exact absurd found (calm_not calm)
    · exact ⟨rfl, by simpa using found⟩
    · rw [List.getElem?_eq_none (by rw [List.length_append, List.length_singleton]; exact gt)] at found
      cases found
  cases phase with
  | quiet calm one ops tasks => exact absurd here (calm_not calm)
  | asking calm asks => exact nomatch (last calm here).2
  | serving calm rest =>
    obtain ⟨rfl, -⟩ := last calm here
    rw [List.set_append_right _ _ (Nat.le_refl _), Nat.sub_self]
    exact Phase.replying calm rest
  | replying calm rest => exact nomatch (last calm here).2

end CHttpConnection

namespace CHttpConnection


def states (c : CHttpConnection) : List (Option Bool) := c.exchanges.map Exchange.state

/-- At most one thing goes on, and it is about the last request. -/
def InPhase (c : CHttpConnection) : Prop := Phase c.states c.pending c.strand c.todo (responses c.log)

/-- Nothing goes on: a handler of the strand runs that has not started anything yet. -/
structure Idle (c : CHttpConnection) : Prop where
  calm : some true ∉ c.states
  pending : c.pending = []
  strand : c.strand = []
  todo : c.todo = none
  answered : responses c.log = List.range c.exchanges.length

/-- What holds of a request, its message, its wrapper and the responses to it. -/
structure Kept (log : List Event) (n : Nat) (e : Exchange) : Prop where
  code : e.mHttpMsg.responseCode ≤ 999
  refused : e.Refused
  answers : ∀ response, .writeStarted n response ∈ log → e.Answer response

/-- The invariant, but for the references. -/
structure Sane (c : CHttpConnection) : Prop where
  phase : c.InPhase
  kept : ∀ n e, c.exchanges[n]? = some e → Kept c.log n e
  ordered : ReadsInOrder c.log

variable {c : CHttpConnection} {n : Nat} {w : CHttpWrapper} {f : Exchange → Exchange}

/-! ## Changing an exchange -/

@[simp] theorem length_states (c : CHttpConnection) : c.states.length = c.exchanges.length :=
  List.length_map _

theorem states_get (n : Nat) : c.states[n]? = c.exchanges[n]?.map Exchange.state := List.getElem?_map

theorem states_modify {s : Option Bool} (becomes : ∀ e, c.exchanges[n]? = some e → (f e).state = s) :
    (c.modify n f).states = c.states.set n s := by
  apply List.ext_getElem?
  intro m
  rw [states_get, List.getElem?_set, modify, List.getElem?_modify, length_states]
  by_cases same : n = m
  · subst same
    cases found : c.exchanges[n]? with
    | none =>
      have beyond := List.getElem?_eq_none_iff.1 found
      simp [beyond]
    | some e =>
      have lt := (List.getElem?_eq_some_iff.1 found).1
      simp [lt, becomes e found]
  · simp [same, states_get]

/-- A change that leaves the state of the wrapper as it is. -/
theorem states_modify_same (same : ∀ e, c.exchanges[n]? = some e → (f e).state = e.state) :
    (c.modify n f).states = c.states := by
  apply List.ext_getElem?
  intro m
  rw [states_get, states_get, modify, List.getElem?_modify]
  by_cases here : n = m
  · subst here
    cases found : c.exchanges[n]? with
    | none => rfl
    | some e => simp [same e found]
  · simp [here]

theorem kept_modify (kept : ∀ m e, c.exchanges[m]? = some e → Kept c.log m e)
    (changed : ∀ e, c.exchanges[n]? = some e → Kept c.log n e → Kept c.log n (f e)) :
    ∀ m e, (c.modify n f).exchanges[m]? = some e → Kept c.log m e := by
  intro m e here
  by_cases same : n = m
  · subst same
    rw [modify, List.getElem?_modify_eq] at here
    obtain ⟨old, found, rfl⟩ := Option.map_eq_some_iff.1 here
    exact changed old found (kept n old found)
  · rw [modify, List.getElem?_modify_ne _ _ same] at here
    exact kept m e here

/-! ## The parts of a step -/

/-- An event that is no read and no write of a response. -/
theorem Sane.record {e : Event} (sane : Sane c) (answers : e.answers = none) (read : ∀ k, e ≠ .readStarted k) :
    Sane (c.record [e]) := by
  constructor
  · have same : responses (c.record [e]).log = responses c.log := by
      have nothing : responses [e] = [] := List.filterMap_cons_none answers
      rw [CHttpConnection.record, responses_append, nothing, List.append_nil]
    unfold InPhase
    rw [same]
    exact sane.phase
  · intro m ex found
    have old := sane.kept m ex found
    refine ⟨old.code, old.refused, fun response mem => ?_⟩
    rcases List.mem_append.1 mem with mem | mem
    · exact old.answers response mem
    · obtain rfl := List.mem_singleton.1 mem
      exact nomatch answers
  · exact sane.ordered.snoc fun k same => absurd same (read _)

/-- The response to the last request is written. -/
theorem Sane.doWrite {response : CHttpResponse} (calm : some true ∉ c.states) (pending : c.pending = [])
    (strand : c.strand = []) (todo : c.todo = none) (length : c.exchanges.length = n + 1)
    (answered : responses c.log = List.range n) (kept : ∀ m e, c.exchanges[m]? = some e → Kept c.log m e)
    (ordered : ReadsInOrder c.log) (answer : ∀ e, c.exchanges[n]? = some e → e.Answer response) :
    Sane (c.doWrite n response) := by
  constructor
  · have written : responses (c.doWrite n response).log = List.range (c.doWrite n response).states.length := by
      rw [length_states]
      change responses (c.log ++ _) = List.range c.exchanges.length
      rw [responses_append, answered, length, List.range_succ]
      rfl
    unfold InPhase
    rw [written]
    change Phase c.states (c.pending ++ _) c.strand c.todo _
    rw [pending, strand, todo]
    refine Phase.quiet calm (Nat.le_refl _) (fun op mem k expects => ?_) (List.forall_mem_nil _)
    obtain rfl := List.mem_singleton.1 mem
    obtain rfl := Option.some.inj expects
    rw [length_states, length]
  · intro m e found
    have old := kept m e found
    refine ⟨old.code, old.refused, fun r mem => ?_⟩
    rcases List.mem_append.1 mem with mem | mem
    · exact old.answers r mem
    · obtain ⟨rfl, rfl⟩ := Event.writeStarted.inj (List.mem_singleton.1 mem)
      exact answer e found
  · exact ordered.snoc fun k same => nomatch same

theorem Idle.phase (idle : Idle c) : c.InPhase := by
  unfold InPhase
  rw [idle.pending, idle.strand, idle.todo, idle.answered, ← length_states]
  exact Phase.quiet idle.calm (Nat.zero_le _) (List.forall_mem_nil _) (List.forall_mem_nil _)

/-- The next request is read. -/
theorem Sane.doRead (sane : Sane c) (idle : Idle c)
    (before : ∀ k, c.exchanges.length = k + 1 → .written k ∈ c.log) : Sane c.doRead := by
  constructor
  · have same : responses c.doRead.log = responses c.log := by
      change responses (c.log ++ _) = _
      rw [responses_append]
      exact List.append_nil _
    unfold InPhase
    rw [same, idle.answered, ← length_states]
    change Phase c.states (c.pending ++ _) c.strand c.todo _
    rw [idle.pending, idle.strand, idle.todo]
    refine Phase.quiet idle.calm (Nat.le_refl _) (fun op mem k expects => ?_) (List.forall_mem_nil _)
    obtain rfl := List.mem_singleton.1 mem
    cases expects
  · intro m e found
    have old := sane.kept m e found
    refine ⟨old.code, old.refused, fun response mem => ?_⟩
    rcases List.mem_append.1 mem with mem | mem
    · exact old.answers response mem
    · cases List.mem_singleton.1 mem
  · exact sane.ordered.snoc fun k same => before k (Event.readStarted.inj same)

theorem Sane.doShutdown (sane : Sane c) (idle : Idle c) : Sane c.doShutdown := by
  unfold CHttpConnection.doShutdown
  split
  · refine ⟨?_, sane.kept, sane.ordered⟩
    change Phase c.states (c.pending ++ _) c.strand c.todo (responses c.log)
    rw [idle.pending, idle.strand, idle.todo, idle.answered, ← length_states]
    refine Phase.quiet idle.calm (Nat.le_refl _) (fun op mem k expects => ?_) (List.forall_mem_nil _)
    obtain rfl := List.mem_singleton.1 mem
    cases expects
  · exact sane

/-- What holds of a request that has just been read. -/
theorem kept_append (sane : Sane c) (idle : Idle c) {e : Exchange} (code : e.mHttpMsg.responseCode ≤ 999)
    (fresh : e.wrapper = none) :
    ∀ m x, (c.exchanges ++ [e])[m]? = some x → Kept c.log m x := by
  intro m x here
  rcases Nat.lt_or_ge m c.exchanges.length with lt | ge
  · rw [List.getElem?_append_left lt] at here
    exact sane.kept m x here
  · rw [List.getElem?_append_right ge] at here
    obtain rfl := List.mem_singleton.1 (List.mem_of_getElem? here)
    refine ⟨code, fun w mem => ?_, fun response mem => ?_⟩
    · rw [fresh] at mem
      cases mem
    · have answered : m ∈ responses c.log := List.mem_filterMap.2 ⟨_, mem, rfl⟩
      rw [idle.answered] at answered
      exact absurd (List.mem_range.1 answered) (by omega)

theorem calm_append {earlier : List (Option Bool)} {s : Option Bool} (calm : some true ∉ earlier)
    (other : s ≠ some true) : some true ∉ earlier ++ [s] := by
  rw [List.mem_append, List.mem_singleton]
  rintro (mem | same)
  · exact calm mem
  · exact other same.symm

theorem Sane.refuses (sane : Sane c) (idle : Idle c) {request : CHttpRequest} (upgrade : request.isUpgrade = true) :
    Sane (CHttpConnection.doWrite { c with exchanges := c.exchanges ++ [{ request := request }] } c.exchanges.length
      request.notAllowed) := by
  have states : states { c with exchanges := c.exchanges ++ [{ request := request }] } = c.states ++ [none] :=
    List.map_append
  apply Sane.doWrite
  · rw [states]
    exact calm_append idle.calm nofun
  · exact idle.pending
  · exact idle.strand
  · exact idle.todo
  · exact List.length_append
  · exact idle.answered
  · exact kept_append sane idle (show (200 : UInt32) ≤ 999 by decide) rfl
  · exact sane.ordered
  · intro e found
    obtain rfl : { request := request } = e := by simpa using found
    exact .inr ⟨upgrade, rfl⟩

theorem Sane.handleHttpRequest (sane : Sane c) (idle : Idle c) (request : CHttpRequest) :
    Sane (c.handleHttpRequest request) := by
  refine ⟨?_, kept_append sane idle (show (200 : UInt32) ≤ 999 by decide) rfl, sane.ordered⟩
  have states : (c.handleHttpRequest request).states = c.states ++ [none] := List.map_append
  unfold InPhase
  rw [states]
  change Phase _ c.pending c.strand _ (responses c.log)
  rw [idle.pending, idle.strand, idle.answered, ← length_states]
  exact Phase.asking idle.calm (.inl (by rw [length_states]))

theorem Idle.written (idle : Idle c) : Idle (c.record [.written n]) := by
  refine ⟨idle.calm, idle.pending, idle.strand, idle.todo, ?_⟩
  change responses (c.log ++ _) = _
  rw [responses_append]
  exact (List.append_nil _).trans idle.answered

theorem Sane.written (sane : Sane c) : Sane (c.record [.written n]) := sane.record rfl fun _ same => nomatch same

theorem response_inv {msg : HttpMsg} {response : CHttpResponse} (built : msg.response = some response) :
    response.result = msg.responseCode ∧ response.reason = msg.reason ∧ response.contentType = msg.contextType ∧
      response.body = msg.body := by
  unfold HttpMsg.response at built
  split at built
  · cases built
    exact ⟨rfl, rfl, rfl, rfl⟩
  · cases built

/-- What is sent for a wrapper that cannot be answered any more. -/
theorem answer_of_state {log : List Event} {e : Exchange} {response : CHttpResponse} (kept : Kept log n e)
    (past : e.state = some false) (built : e.mHttpMsg.response = some response) : e.Answer response := by
  unfold Exchange.state at past
  obtain ⟨w, found, ended⟩ := Option.map_eq_some_iff.1 past
  unfold Exchange.Answer
  rw [found]
  intro unsent early
  have dead : w.alive = false := by simpa [unsent] using ended
  have same := kept.refused w found dead unsent early
  obtain ⟨code, reason, contextType, body⟩ := response_inv built
  rw [code, reason, contextType, body, ← same]
  exact ⟨rfl, rfl, rfl, rfl⟩

/-- The reply is sent. -/
theorem Sane.sends {earlier : List (Option Bool)} {response : CHttpResponse}
    (states : c.states = earlier ++ [some false]) (calm : some true ∉ earlier) (pending : c.pending = [])
    (strand : c.strand = []) (todo : c.todo = none) (answered : responses c.log = List.range earlier.length)
    (kept : ∀ m e, c.exchanges[m]? = some e → Kept c.log m e) (ordered : ReadsInOrder c.log)
    (built : c.exchanges[earlier.length]?.bind (·.mHttpMsg.response) = some response) :
    Sane (c.doWrite earlier.length response) := by
  have length : c.exchanges.length = earlier.length + 1 := by
    rw [← length_states, states]
    exact List.length_append
  obtain ⟨e, here, built⟩ := Option.bind_eq_some_iff.1 built
  have past : e.state = some false := by
    have found := states_get (c := c) earlier.length
    rw [states, here, List.getElem?_concat_length] at found
    exact (Option.some.inj found).symm
  refine Sane.doWrite ?_ pending strand todo length answered kept ordered fun x found => ?_
  · rw [states]
    exact calm_append calm nofun
  · obtain rfl : e = x := Option.some.inj (here.symm.trans found)
    exact answer_of_state (kept _ e here) past built

/-- A message with an admitted response code can be sent. -/
theorem response_built (kept : ∀ m e, c.exchanges[m]? = some e → Kept c.log m e) (lt : n < c.exchanges.length) :
    c.exchanges[n]?.bind (·.mHttpMsg.response) ≠ none := by
  rw [List.getElem?_eq_getElem lt, Option.bind_some]
  unfold HttpMsg.response
  rw [if_pos (kept n _ (List.getElem?_eq_getElem lt)).code]
  exact Option.some_ne_none _

/-- The strand runs its next handler. -/
theorem Sane.perform {c' : CHttpConnection} {task : Task} {rest : List Task} (sane : Sane c) (free : c.todo = none)
    (queue : c.strand = task :: rest) (performs : Performs { c with strand := rest } task c') : Sane c' := by
  have phase := sane.phase
  unfold InPhase at phase
  rw [free, queue] at phase
  obtain ⟨pending, rfl, ⟨calm, answered, isSend, expects⟩ | ⟨earlier, states, calm, rfl, answered⟩⟩ := phase.next
  · rw [length_states] at answered expects
    have idle : Idle { c with strand := [] } := ⟨calm, pending, rfl, free, answered⟩
    have clear : Sane { c with strand := [] } := ⟨idle.phase, sane.kept, sane.ordered⟩
    cases performs with
    | ends => exact clear
    | fails => exact clear.record rfl fun k same => nomatch same
    | handshaken =>
      refine clear.doRead idle fun k length => ?_
      exact absurd ((expects 0 rfl).trans length) (Nat.succ_ne_zero k).symm
    | upgrades => exact clear.record rfl fun k same => nomatch same
    | refuses upgrade => exact clear.refuses idle upgrade
    | asks => exact clear.handleHttpRequest idle _
    | @reads n =>
      refine clear.written.doRead idle.written fun k same => ?_
      obtain rfl : k = n := Nat.succ.inj (same.symm.trans (expects (n + 1) rfl).symm)
      exact List.mem_append_right _ (List.mem_singleton_self _)
    | closes => exact clear.written.doShutdown idle.written
    | sends => cases isSend
    | throws => cases isSend
  · have lt : earlier.length < c.exchanges.length := by
      rw [← length_states, states, List.length_append]
      exact Nat.lt_succ_self _
    cases performs with
    | ends other => exact absurd rfl (other _)
    | fails other => exact absurd rfl (other _)
    | sends built => exact Sane.sends states calm pending rfl free answered sane.kept sane.ordered built
    | throws none => exact absurd none (response_built sane.kept lt)

/-- What becomes of the phase when the state of one wrapper ends. -/
theorem InPhase.reply (phase : c.InPhase) (found : c.wrapperOf n = some w) (live : w.alive = true)
    (unsent : w.mResponseSent = false) :
    Phase (c.states.set n (some false)) c.pending (c.strand ++ [.sendResponse n]) c.todo (responses c.log) := by
  obtain ⟨e, here, wrapper⟩ := wrapperOf_inv found
  refine Phase.reply phase ?_
  rw [states_get, here, Option.map_some, Exchange.state, wrapper, Option.map_some, live, unsent]
  rfl

theorem Sane.reply (sane : Sane c) (held : c.Held n) : Sane (c.reply n) := by
  obtain ⟨w, found, live⟩ := held
  obtain ⟨e, here, wrapper⟩ := wrapperOf_inv found
  unfold CHttpConnection.reply
  rw [found]
  dsimp only
  split
  · exact sane.record rfl fun k same => nomatch same
  · next unsent =>
    constructor
    · have answered := sane.phase.reply found live (by simpa using unsent)
      rw [← states_modify (f := ({ · with wrapper := some { w with mResponseSent := true } }))] at answered
      · exact answered
      · intro x _
        simp [Exchange.state]
    · refine kept_modify sane.kept fun x there kept => ⟨kept.code, fun v mem _ unsent' => ?_, fun response mem => ?_⟩
      · cases mem
        cases unsent'
      · intro unsent'
        cases unsent'
    · exact sane.ordered

theorem Sane.destroy (sane : Sane c) (held : c.Held n) : Sane (c.destroy n) := by
  obtain ⟨w, found, live⟩ := held
  obtain ⟨e, here, wrapper⟩ := wrapperOf_inv found
  have only : ∀ x, c.exchanges[n]? = some x → x.wrapper = some w := by
    intro x there
    obtain rfl : e = x := Option.some.inj (here.symm.trans there)
    exact wrapper
  unfold CHttpConnection.destroy
  rw [found]
  dsimp only
  split
  · next sent =>
    constructor
    · have same := states_modify_same (c := c) (n := n) (f := ({ · with wrapper := some { w with alive := false } }))
        fun x there => by simp [Exchange.state, only x there, sent]
      unfold InPhase setWrapper
      rw [same]
      exact sane.phase
    · refine kept_modify sane.kept fun x there kept => ⟨kept.code, fun v mem _ unsent => ?_, fun response mem => ?_⟩
      · cases mem
        rw [sent] at unsent
        cases unsent
      · exact (kept.answers response mem).mono (only x there) rfl id id
    · exact sane.ordered
  · next unsent =>
    have twice : (c.setWrapper n { w with alive := false }).modify n (fun e => { e with mHttpMsg := e.mHttpMsg.badRequest }) =
        c.modify n fun e => { e with wrapper := some { w with alive := false }, mHttpMsg := e.mHttpMsg.badRequest } := by
      unfold setWrapper modify
      rw [List.modify_modify_eq]
      rfl
    rw [twice]
    constructor
    · have answered := sane.phase.reply found live (by simpa using unsent)
      rw [← states_modify (f := fun e => { e with wrapper := some { w with alive := false }, mHttpMsg := e.mHttpMsg.badRequest })]
        at answered
      · exact answered
      · intro x _
        simp [Exchange.state]
    · refine kept_modify sane.kept fun x there kept =>
        ⟨show (400 : UInt32) ≤ 999 by decide, fun v mem _ _ _ => rfl, fun response mem => ?_⟩
      exact (kept.answers response mem).mono (only x there) rfl id id
    · exact sane.ordered

theorem Sane.release (sane : Sane c) (held : c.Held n) : Sane (c.release n) := by
  unfold CHttpConnection.release
  split
  · exact sane
  · exact sane.destroy held

/-- The message of a wrapper is changed. -/
theorem Sane.edit {msg : HttpMsg} (sane : Sane c) (found : c.wrapperOf n = some w) (code : msg.responseCode ≤ 999) :
    Sane (c.modify n fun e => { e with mHttpMsg := msg, late := e.late || !w.alive }) := by
  obtain ⟨e, here, wrapper⟩ := wrapperOf_inv found
  have only : ∀ x, c.exchanges[n]? = some x → x.wrapper = some w := by
    intro x there
    obtain rfl : e = x := Option.some.inj (here.symm.trans there)
    exact wrapper
  constructor
  · have same := states_modify_same (c := c) (n := n)
      (f := fun e => { e with mHttpMsg := msg, late := e.late || !w.alive }) fun x there => rfl
    unfold InPhase
    rw [same]
    exact sane.phase
  · refine kept_modify sane.kept fun x there kept => ⟨code, fun v mem dead _ early => ?_, fun response mem => ?_⟩
    · obtain rfl : w = v := Option.some.inj ((only x there).symm.trans mem)
      simp [dead] at early
    · refine (kept.answers response mem).mono (only x there) (only x there) id fun early => ?_
      simp only [Bool.or_eq_false_iff] at early
      exact early.1
  · exact sane.ordered

/-- `HandleHttpRequest` before it has found a handler. -/
theorem Sane.ask {earlier : List (Option Bool)} {stage : Stage} (sane : Sane c)
    (states : c.states = earlier ++ [none]) (calm : some true ∉ earlier) (pending : c.pending = [])
    (strand : c.strand = []) (answered : responses c.log = List.range earlier.length)
    (asks : stage = .nextConnectionId earlier.length ∨ stage = .findHttpHandler earlier.length) :
    Sane (c.handle stage) := by
  have length : c.exchanges.length = earlier.length + 1 := by
    rw [← length_states, states]
    exact List.length_append
  have fresh : ∀ e, c.exchanges[earlier.length]? = some e → e.wrapper = none := by
    intro e here
    have found := states_get (c := c) earlier.length
    rw [states, here, List.getElem?_concat_length, Option.map_some] at found
    exact Option.map_eq_none_iff.1 (Option.some.inj found).symm
  have unanswered : ∀ response, .writeStarted earlier.length response ∉ c.log := by
    intro response mem
    have number : earlier.length ∈ responses c.log := List.mem_filterMap.2 ⟨_, mem, rfl⟩
    rw [answered] at number
    exact absurd (List.mem_range.1 number) (Nat.lt_irrefl _)
  rcases asks with rfl | rfl
  · constructor
    · change Phase (c.modify _ _).states c.pending c.strand _ (responses c.log)
      rw [states_modify_same, states, pending, strand, answered]
      · exact Phase.asking calm (.inr rfl)
      · exact fun x there => rfl
    · refine kept_modify sane.kept fun x there kept => ⟨kept.code, fun w mem => ?_, kept.answers⟩
      have mem : w ∈ x.wrapper := mem
      rw [fresh x there] at mem
      cases mem
    · exact sane.ordered
  · obtain ⟨e, here⟩ : ∃ e, c.exchanges[earlier.length]? = some e := ⟨_, List.getElem?_eq_getElem (by omega)⟩
    unfold CHttpConnection.handle
    dsimp only
    rw [here]
    dsimp only
    split
    · refine Sane.doWrite ?_ pending strand rfl length answered sane.kept sane.ordered fun x found => ?_
      · change some true ∉ c.states
        rw [states]
        exact calm_append calm nofun
      · obtain rfl : e = x := Option.some.inj (here.symm.trans found)
        unfold Exchange.Answer
        rw [fresh e here]
        exact .inl rfl
    · constructor
      · change Phase (c.modify _ _).states c.pending c.strand _ (responses c.log)
        rw [states_modify (s := some true) fun x _ => rfl, states, pending, strand, answered,
          List.set_append_right _ _ (Nat.le_refl _), Nat.sub_self]
        exact Phase.serving calm fun stage mem => by cases mem; rfl
      · refine kept_modify sane.kept fun x there kept => ⟨kept.code, fun w mem dead => ?_, fun response mem => ?_⟩
        · cases mem
          cases dead
        · exact absurd mem (unanswered response)
      · exact sane.ordered

theorem Sane.handle {stage : Stage} (sane : Sane c) (doing : c.todo = some stage)
    (held : ∀ n, stage.wrapper = some n → c.Held n) : Sane (c.handle stage) := by
  have phase := sane.phase
  unfold InPhase at phase
  rw [doing] at phase
  rcases phase.stage with ⟨earlier, states, calm, pending, strand, answered, asks⟩ | ⟨wrapper, later⟩
  · exact sane.ask states calm pending strand answered asks
  · cases stage with
    | nextConnectionId n => cases wrapper
    | findHttpHandler n => cases wrapper
    | postCallback handler n => exact ⟨later _ fun s mem => by cases mem; rfl, sane.kept, sane.ordered⟩
    | leave n =>
      have left : Sane { c with todo := none } := ⟨later none nofun, sane.kept, sane.ordered⟩
      exact left.release (held n rfl)

end CHttpConnection

end Websockets
