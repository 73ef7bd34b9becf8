import Websockets.Server.Agreement

/-!
# Added before closed

What the worker has invoked, what it is about to invoke and what waits in the queue form one line, and
notices move along it in the order they were posted. A registration posts its added notice before it
returns to the session, and only a session that has the result reports its own close; so in the line
no closed notice stands before an added one of the same id. `Stop` and `RemoveClient` call back past
the line, in the calling thread.
-/

namespace Websockets

open Std Lib

namespace Server

open CImpl

/-- What the worker has invoked. -/
def delivered (log : List Event) : List Notice :=
  log.filterMap fun
    | .invoked true _ notice => some notice
    | _ => none

/-- What a piece of the worker is about to invoke. -/
def called : Action → Option Notice
  | .call _ notice => some notice
  | _ => none

/-- The line to the callbacks: invoked, being invoked, queued. -/
def line (c : Running) : List Notice :=
  delivered c.shared.log ++ c.pending called ++ c.shared.mWorkQueue.mQueue.map Prod.snd

/-- The second notice may stand behind the first. -/
def MayFollow (first second : Notice) : Prop :=
  ∀ id append isSsl, first = .closed id → second ≠ .added id append isSsl

/-- An added notice is posted before its registration returns. -/
def Returns (s : Server) (rest : List Action) : Action → Prop
  | .postCallback _ (.added id _ _) => ∃ k, .registered k id ∈ rest ∧ .registered k id ∈ s.log
  | _ => True

def Orderly (s : Server) : List Action → Prop
  | [] => True
  | b :: rest => Returns s rest b ∧ Orderly s rest

/-- A pending notification names a client that has left; the synchronous ones are those of `Stop` and
`RemoveClient`, the posted ones those of `OnWsClosed`. -/
def Tells (s : Server) (j : Nat) : Action → Prop
  | .postCallback _ (.closed id) => .removed .onWsClosed j id ∈ s.log
  | .notifyClosedSync id _ | .invoke _ (.closed id) => ∃ how, how ≠ .onWsClosed ∧ .removed how j id ∈ s.log
  | .invoke _ (.added _ _ _) => False
  | _ => True

/-- The same of the notifications made in the calling thread. -/
def Told (s : Server) : Event → Prop
  | .invoked false _ (.closed id) => ∃ how j, how ≠ .onWsClosed ∧ .removed how j id ∈ s.log
  | .invoked false _ (.added _ _ _) => False
  | _ => True

structure Ordered (c : Running) : Prop where
  serial : ∀ j o cbs notice, c.At j o (.call cbs notice) → o = .worker
  single : (c.pending called).length ≤ 1
  orderly : ∀ task ∈ c.tasks, Orderly c.shared task.todo
  pieces : ∀ j o b, c.At j o b → Tells c.shared j b
  events : ∀ e ∈ c.shared.log, Told c.shared e
  posted : ∀ id, .closed id ∈ line c → ∃ j, Left c .onWsClosed j id
  sorted : (line c).Pairwise MayFollow

variable {c c' : Running} {s s' : Server} {i : Nat} {a : Action} {outs rest : List Action} {l : Label}
  {o : Owner} {throws : Bool}

/-! ## The line -/

theorem mayFollow_self (notice : Notice) : MayFollow notice notice := by
  rintro id append isSsl rfl
  nofun

@[simp] theorem delivered_append (log log' : List Event) :
    delivered (log ++ log') = delivered log ++ delivered log' := List.filterMap_append

theorem called_light (light : a.isLight = true) : called a = none := by
  cases a with
  | call cbs notice => cases light
  | _ => rfl

/-- What a piece does to the line: nothing, a notice joins, the queue is dropped, or the worker calls. -/
inductive Lines (s : Server) (a : Action) (s' : Server) (outs : List Action) : Prop
  | same (unseen : called a = none) (none : ∀ b ∈ outs, called b = none)
      (log : delivered s'.log = delivered s.log) (queue : s'.mWorkQueue.mQueue = s.mWorkQueue.mQueue)
  | joins (cbs notice) (piece : a = .postCallback cbs notice) (none : outs = [])
      (log : delivered s'.log = delivered s.log)
      (queue : s'.mWorkQueue.mQueue = s.mWorkQueue.mQueue ++ [(cbs, notice)])
  | dropped (unseen : called a = none) (none : ∀ b ∈ outs, called b = none)
      (log : delivered s'.log = delivered s.log) (queue : s'.mWorkQueue.mQueue = [])
  | calls (notice) (piece : called a = some notice)
      (log : delivered s'.log = delivered s.log ++ [notice])
      (left : outs.filterMap called = [notice] ∨ outs.filterMap called = [])
      (queue : s'.mWorkQueue.mQueue = s.mWorkQueue.mQueue)
  | returns (notice) (piece : called a = some notice) (none : outs.filterMap called = [])
      (log : delivered s'.log = delivered s.log) (queue : s'.mWorkQueue.mQueue = s.mWorkQueue.mQueue)

theorem postCallback_lines (cbs : List Fn) (notice : Notice) :
    Lines s (.postCallback cbs notice) (s.postCallback cbs notice) [] := by
  have log : delivered (s.postCallback cbs notice).log = delivered s.log := by
    simp [delivered]
  rcases s.postCallback_queue cbs notice with ⟨same, -⟩ | more
  · exact .same rfl (List.forall_mem_nil _) log same
  · exact .joins cbs notice rfl rfl log more

theorem lights_unseen (lights : ∀ b ∈ outs, b.isLight = true) : ∀ b ∈ outs, called b = none :=
  fun b mem => called_light (lights b mem)

theorem Does.lines (does : Does s i a s' outs) : Lines s a s' outs := by
  cases does with
  | relay light lights => exact .same (called_light light) (lights_unseen lights) rfl rfl
  | startLocked done => exact .same rfl (List.forall_mem_nil _) rfl rfl
  | stop =>
    refine .same rfl (fun b mem => ?_) ?_ rfl
    · rw [stop_outs, List.mem_append] at mem
      rcases mem with mem | mem <;> obtain ⟨e, -, rfl⟩ := List.mem_map.1 mem <;> rfl
    · simp [delivered, List.filterMap_map]
  | postCallback cbs notice => exact postCallback_lines cbs notice
  | returned notice => exact .returns notice rfl rfl rfl rfl
  | call fn rest notice left =>
    refine .calls notice rfl (by simp [delivered]) ?_ rfl
    rcases left with rfl | lights
    · exact .inl rfl
    · exact .inr (Tasks.filterMap_eq_nil_of (lights_unseen lights))
  | stopQueue onWorker lights => exact .dropped rfl (lights_unseen lights) rfl rfl
  | removeClient present => exact .same rfl (by simp [called]) (by simp [delivered]) rfl
  | notifyClosedSync clientId uri => exact .same rfl (by simp [called]) rfl rfl
  | reject rejects => exact .same rfl (by simp [called]) (by simp [delivered]) rfl
  | register done => exact .same rfl (by simp [called]) (by simp [delivered]) rfl
  | onWsClosed present => exact .same rfl (by simp [called]) (by simp [delivered]) rfl
  | nextConnectionId path => exact .same rfl (by simp [called]) rfl rfl
  | unset notice => exact .same rfl (List.forall_mem_nil _) (by simp [delivered]) rfl
  | invoke fn notice lights => exact .same rfl (lights_unseen lights) (by simp [delivered]) rfl
  | shutdown onWorker => exact .same rfl (by simp [called]) rfl rfl
  | logError line => exact .same rfl (List.forall_mem_nil _) (by simp [delivered]) rfl
  | _ => exact .same rfl (List.forall_mem_nil _) rfl rfl

/-- The line after a piece: shorter, with a notice posted, or with the notice being called twice. -/
theorem Lines.moves (lines : Lines c.shared a c'.shared outs) (single : (c.pending called).length ≤ 1)
    (ran : Tasks.Ran (exec throws) c i c' o a rest outs) :
    (line c').Sublist (line c) ∨ (∃ cbs notice, a = .postCallback cbs notice ∧ line c' = line c ++ [notice]) ∨
      ∃ before notice after, line c = before ++ notice :: after ∧ line c' = before ++ notice :: notice :: after := by
  unfold line
  cases lines with
  | same unseen none log queue =>
    rw [log, queue, ran.pending_same unseen none]
    exact .inl (.refl _)
  | joins cbs notice piece none log queue =>
    subst piece none
    rw [log, queue, ran.pending_same rfl (List.forall_mem_nil _), List.map_append]
    exact .inr (.inl ⟨cbs, notice, rfl, by simp⟩)
  | dropped unseen none log queue =>
    rw [log, queue, ran.pending_same unseen none]
    exact .inl (List.Sublist.append_left (List.nil_sublist _) _)
  | calls notice piece log left queue =>
    obtain ⟨old, new⟩ := ran.pending_single single piece
    rw [log, queue, old, new]
    rcases left with again | past
    · refine .inr (.inr ⟨delivered c.shared.log, notice, c.shared.mWorkQueue.mQueue.map Prod.snd, ?_, ?_⟩)
      · simp
      · rw [again]
        simp
    · rw [past, List.append_nil]
      exact .inl (.refl _)
  | returns notice piece none log queue =>
    obtain ⟨old, new⟩ := ran.pending_single single piece
    rw [log, queue, old, new, none, List.append_nil]
    exact .inl (List.Sublist.append_right (List.sublist_append_left _ _) _)

/-! ## What is pending -/

section History

variable (grows : ∀ e ∈ s.log, e ∈ s'.log)

include grows

theorem Tells.mono {j : Nat} {b : Action} (tells : Tells s j b) : Tells s' j b := by
  unfold Tells at tells ⊢
  split at tells
  · exact grows _ tells
  · obtain ⟨how, other, mem⟩ := tells
    exact ⟨how, other, grows _ mem⟩
  · obtain ⟨how, other, mem⟩ := tells
    exact ⟨how, other, grows _ mem⟩
  · exact tells
  · trivial

theorem Told.mono {e : Event} (told : Told s e) : Told s' e := by
  unfold Told at told ⊢
  split at told
  · obtain ⟨how, j, other, mem⟩ := told
    exact ⟨how, j, other, grows _ mem⟩
  · exact told
  · trivial

theorem Orderly.mono {todo : List Action} (orderly : Orderly s todo) : Orderly s' todo := by
  induction todo with
  | nil => trivial
  | cons b rest ih =>
    refine ⟨?_, ih orderly.2⟩
    have returns := orderly.1
    unfold Returns at returns ⊢
    split at returns
    · obtain ⟨k, later, mem⟩ := returns
      exact ⟨k, later, grows _ mem⟩
    · trivial

end History

theorem Orderly.append (first : Orderly s outs) (second : Orderly s rest) : Orderly s (outs ++ rest) := by
  induction outs with
  | nil => exact second
  | cons b outs ih =>
    refine ⟨?_, ih first.2⟩
    have returns := first.1
    unfold Returns at returns ⊢
    split at returns
    · obtain ⟨k, later, mem⟩ := returns
      exact ⟨k, List.mem_append_left _ later, mem⟩
    · trivial

theorem orderly_of {todo : List Action} (others : ∀ b ∈ todo, Returns s [] b) : Orderly s todo := by
  induction todo with
  | nil => trivial
  | cons b rest ih =>
    refine ⟨?_, ih fun d mem => others d (List.mem_cons_of_mem _ mem)⟩
    have returns := others b List.mem_cons_self
    unfold Returns at returns ⊢
    split at returns
    · obtain ⟨k, later, -⟩ := returns
      cases later
    · trivial

theorem tells_light (light : a.isLight = true) : Tells s i a := by
  unfold Tells
  split
  · cases light
  · cases light
  · cases light
  · cases light
  · trivial

theorem tells_entry (entry : a.isEntry = true) : Tells s i a := by
  unfold Tells
  split
  · cases entry
  · cases entry
  · cases entry
  · cases entry
  · trivial

theorem returns_light (light : a.isLight = true) : Returns s rest a := by
  unfold Returns
  split
  · cases light
  · trivial

theorem returns_entry (entry : a.isEntry = true) : Returns s rest a := by
  unfold Returns
  split
  · cases entry
  · trivial

/-- What comes out of a piece tells the truth and is in order. -/
theorem Does.tells (does : Does s i a s' outs) (tells : Tells s i a) :
    (∀ b ∈ outs, Tells s' i b) ∧ Orderly s' outs := by
  have lights : (∀ b ∈ outs, b.isLight = true) → (∀ b ∈ outs, Tells s' i b) ∧ Orderly s' outs :=
    fun light => ⟨fun b mem => tells_light (light b mem), orderly_of fun b mem => returns_light (light b mem)⟩
  cases does with
  | relay light all => exact lights all
  | invoke fn notice all => exact lights all
  | stopQueue onWorker all => exact lights all
  | call fn rest notice left =>
    rcases left with rfl | all
    · exact ⟨by simp [Tells], trivial, trivial⟩
    · exact lights all
  | stop =>
    constructor
    · intro b mem
      rw [stop_outs, List.mem_append] at mem
      rcases mem with mem | mem
      · obtain ⟨e, -, rfl⟩ := List.mem_map.1 mem
        trivial
      · obtain ⟨e, taken, rfl⟩ := List.mem_map.1 mem
        exact ⟨.stop, by decide, List.mem_append_right _ (List.mem_map.2 ⟨e, taken, rfl⟩)⟩
    · apply orderly_of
      intro b mem
      rw [stop_outs, List.mem_append] at mem
      rcases mem with mem | mem <;> obtain ⟨e, -, rfl⟩ := List.mem_map.1 mem <;> trivial
  | removeClient present =>
    refine ⟨?_, trivial, trivial, trivial⟩
    simp only [List.mem_cons, List.not_mem_nil, or_false]
    rintro b (rfl | rfl)
    · trivial
    · exact ⟨.removeClient, by decide, by simp⟩
  | notifyClosedSync clientId uri =>
    refine ⟨?_, trivial, trivial, trivial⟩
    simp only [List.mem_cons, List.not_mem_nil, or_false]
    rintro b (rfl | rfl)
    · exact tells
    · trivial
  | @register k target isSsl impl r done =>
    refine ⟨?_, ⟨k, ?_, ?_⟩, trivial, trivial, trivial⟩
    · simp only [List.mem_cons, List.not_mem_nil, or_false]
      rintro b (rfl | rfl | rfl) <;> trivial
    · simp
    · simp
  | onWsClosed present =>
    refine ⟨?_, trivial, trivial, trivial⟩
    simp only [List.mem_cons, List.not_mem_nil, or_false]
    rintro b (rfl | rfl)
    · simp [Tells]
    · trivial
  | reject rejects => exact ⟨by simp [Tells], trivial, trivial⟩
  | nextConnectionId path => exact ⟨by simp [Tells], trivial, trivial⟩
  | shutdown onWorker => exact ⟨by simp [Tells], trivial, trivial, trivial⟩
  | _ => exact ⟨List.forall_mem_nil _, trivial⟩

/-- What a piece records is true. -/
theorem Does.told (does : Does s i a s' outs) (tells : Tells s i a) (events : ∀ e ∈ s.log, Told s e) :
    ∀ e ∈ s'.log, Told s' e := by
  have grows : ∀ e ∈ s.log, e ∈ s'.log := fun e mem => does.mem_log mem
  intro e mem
  rcases does.log_inv mem with old | records
  · exact (events e old).mono grows
  · cases records with
    | invoked fn notice =>
      cases notice with
      | added id append isSsl => exact tells
      | closed id =>
        obtain ⟨how, other, removed⟩ := tells
        exact ⟨how, i, other, grows _ removed⟩
      | _ => trivial
    | _ => trivial

/-! ## Every step keeps the order -/

/-- While an added notice is still to be posted, the session has not reported its close. -/
theorem Agreement.not_reported {cbs : List Fn} {id : UInt32} {append : Bytes} {isSsl : Bool}
    (agreement : Agreement c) (task : c.tasks[i]? = some ⟨o, .postCallback cbs (.added id append isSsl) :: rest⟩)
    (orderly : Orderly c.shared (.postCallback cbs (.added id append isSsl) :: rest)) (j : Nat) :
    ¬ Left c .onWsClosed j id := by
  intro left
  obtain ⟨⟨k, later, listed⟩, -⟩ := orderly
  have returning : 0 < c.count (isReturn k) :=
    Tasks.count_pos ⟨_, task, rfl, List.mem_cons_of_mem _ later⟩ (by simp [isReturn])
  cases found : c.shared.sessions[k]? with
  | none =>
    rw [(agreement.absent k found).returns] at returning
    cases returning
  | some t =>
    have agrees := agreement.present k t found
    obtain ⟨-, -, opened, -⟩ := agrees.phase.of_return returning
    rcases agrees.left .onWsClosed j id left listed with ⟨-, closed⟩ | ⟨other, -⟩
    · exact absurd (opened.symm.trans closed) (by decide)
    · exact other rfl

theorem pairwise_again {before after : List Notice} {notice : Notice}
    (old : (before ++ notice :: after).Pairwise MayFollow) :
    (before ++ notice :: notice :: after).Pairwise MayFollow := by
  obtain ⟨first, second, cross⟩ := List.pairwise_append.1 old
  refine List.pairwise_append.2 ⟨first, List.pairwise_cons.2 ⟨fun x mem => ?_, second⟩, fun x mem y mem' => ?_⟩
  · rcases List.mem_cons.1 mem with rfl | later
    · exact mayFollow_self _
    · exact (List.pairwise_cons.1 second).1 x later
  · apply cross x mem y
    rcases List.mem_cons.1 mem' with rfl | later
    · exact List.mem_cons_self
    · exact later

theorem Lines.called_inv {b : Action} (lines : Lines s a s' outs) (mem : b ∈ outs) (call : called b ≠ none) :
    called a ≠ none := by
  cases lines with
  | same unseen none => exact absurd (none b mem) call
  | joins cbs notice piece none =>
    subst none
    cases mem
  | dropped unseen none => exact absurd (none b mem) call
  | calls notice piece =>
    rw [piece]
    nofun
  | returns notice piece =>
    rw [piece]
    nofun

theorem Lines.single (lines : Lines c.shared a c'.shared outs) (single : (c.pending called).length ≤ 1)
    (ran : Tasks.Ran (exec throws) c i c' o a rest outs) : (c'.pending called).length ≤ 1 := by
  cases lines with
  | same unseen none => rwa [ran.pending_same unseen none]
  | joins cbs notice piece none =>
    subst piece none
    rwa [ran.pending_same rfl (List.forall_mem_nil _)]
  | dropped unseen none => rwa [ran.pending_same unseen none]
  | calls notice piece log left =>
    rw [(ran.pending_single single piece).2]
    rcases left with again | past
    · rw [again]
      exact Nat.le_refl 1
    · rw [past]
      exact Nat.zero_le 1
  | returns notice piece none =>
    rw [(ran.pending_single single piece).2, none]
    exact Nat.zero_le 1

theorem eq_call_of_called (call : called a ≠ none) : ∃ cbs notice, a = .call cbs notice := by
  cases a with
  | call cbs notice => exact ⟨cbs, notice, rfl⟩
  | _ => exact absurd rfl call

theorem Ordered.ran (ordered : Ordered c) (agreement : Agreement c)
    (ran : Tasks.Ran (exec throws) c i c' o a rest outs) (does : Does c.shared i a c'.shared outs) : Ordered c' := by
  have grows : ∀ e ∈ c.shared.log, e ∈ c'.shared.log := fun e mem => does.mem_log mem
  have lines := does.lines
  have tells := ordered.pieces i o a ran.at_head
  have here : Orderly c.shared (a :: rest) := ordered.orderly _ ran.mem
  refine ⟨fun j q cbs notice pending => ?_, lines.single ordered.single ran, fun task mem => ?_,
    fun j q b pending => ?_, does.told tells ordered.events, fun id mem => ?_, ?_⟩
  · rcases ran.at_inv pending with old | ⟨rfl, rfl, new⟩
    · exact ordered.serial j q cbs notice old
    · obtain ⟨cbs', notice', rfl⟩ := eq_call_of_called (lines.called_inv new nofun)
      exact ordered.serial j q cbs' notice' ran.at_head
  · rcases ran.mem_after mem with rfl | old
    · exact (does.tells tells).2.append (here.2.mono grows)
    · exact (ordered.orderly task old).mono grows
  · rcases ran.at_inv pending with old | ⟨rfl, rfl, new⟩
    · exact (ordered.pieces j q b old).mono grows
    · exact (does.tells tells).1 b new
  · have old : .closed id ∈ line c → ∃ j, Left c' .onWsClosed j id := fun mem => by
      obtain ⟨j, left⟩ := ordered.posted id mem
      exact ⟨j, grows _ left⟩
    rcases lines.moves ordered.single ran with fewer | ⟨cbs, notice, rfl, more⟩ | ⟨before, notice, after, was, now⟩
    · exact old (fewer.subset mem)
    · rw [more] at mem
      rcases List.mem_append.1 mem with earlier | last
      · exact old earlier
      · obtain rfl := List.mem_singleton.1 last
        exact ⟨i, grows _ tells⟩
    · apply old
      rw [was]
      rw [now] at mem
      simpa using mem
  · rcases lines.moves ordered.single ran with fewer | ⟨cbs, notice, rfl, more⟩ | ⟨before, notice, after, was, now⟩
    · exact ordered.sorted.sublist fewer
    · rw [more]
      refine List.pairwise_append.2 ⟨ordered.sorted, List.pairwise_singleton _ _, fun x mem y last => ?_⟩
      obtain rfl := List.mem_singleton.1 last
      rintro id append isSsl rfl rfl
      obtain ⟨j, left⟩ := ordered.posted id mem
      exact agreement.not_reported ran.task here j left
    · rw [now]
      exact pairwise_again (was ▸ ordered.sorted)

/-- An operation begins, or none; the line stays. -/
theorem Ordered.begins (ordered : Ordered c) (begins : Begins c c') (same : line c' = line c)
    (serial : ∀ j o cbs notice, c'.At j o (.call cbs notice) → o = .worker)
    (single : (c'.pending called).length ≤ 1) : Ordered c' := by
  have grows : ∀ e ∈ c.shared.log, e ∈ c'.shared.log := fun e mem => begins.log ▸ mem
  refine ⟨serial, single, fun task mem => ?_, fun j q b pending => ?_, fun e mem => ?_, fun id mem => ?_, ?_⟩
  · rcases begins.tasks with tasks | ⟨q, todo, tasks, entries⟩
    · rw [tasks] at mem
      exact (ordered.orderly task mem).mono grows
    · rw [tasks] at mem
      rcases List.mem_append.1 mem with old | new
      · exact (ordered.orderly task old).mono grows
      · rw [List.mem_singleton.1 new]
        exact orderly_of fun b here => returns_entry (entries b here)
  · obtain ⟨task, found, owner, here⟩ := pending
    cases entry : b.isEntry with
    | true => exact tells_entry entry
    | false => exact (ordered.pieces j q b ⟨task, begins.mem entry found here, owner, here⟩).mono grows
  · rw [begins.log] at mem
    exact (ordered.events e mem).mono grows
  · rw [same] at mem
    obtain ⟨j, left⟩ := ordered.posted id mem
    exact ⟨j, grows _ left⟩
  · rw [same]
    exact ordered.sorted

/-- An operation begins that is not the worker's. -/
theorem Ordered.spawn {todo : List Action} (ordered : Ordered c) (begins : Begins c c')
    (queue : c'.shared.mWorkQueue = c.shared.mWorkQueue) (tasks : c'.tasks = (c.spawn o todo).tasks)
    (none : ∀ b ∈ todo, called b = none) : Ordered c' := by
  have pending : c'.pending called = c.pending called := by
    have spawned := Tasks.pending_spawn (c := c) (o := o) (f := called) todo
    rw [Tasks.filterMap_eq_nil_of none, List.append_nil] at spawned
    rw [← spawned, Tasks.pending, Tasks.pending, tasks]
  refine ordered.begins begins ?_ (fun j q cbs notice at_ => ?_) (pending ▸ ordered.single)
  · rw [line, line, begins.log, pending, queue]
  · rw [Tasks.At, tasks] at at_
    rcases Tasks.at_spawn.1 at_ with old | ⟨-, -, new⟩
    · exact ordered.serial j q cbs notice old
    · cases none _ new

theorem called_ofWsCall {k : Nat} (call : WsCall) : called (ofWsCall k call) = none := by
  cases call <;> rfl

theorem step_ordered (ordered : Ordered c) (agreement : Agreement c) (step : Server.step c l = some c') :
    Ordered c' := by
  rcases step_ran_or_begins step with ⟨i, throws, o, a, rest, outs, rfl, ran, does⟩ | begins
  · exact ordered.ran agreement ran does
  have none : ∀ {b d : Action}, called d = none → b ∈ [d] → called b = none := fun plain mem => by
    rw [List.mem_singleton.1 mem]
    exact plain
  cases step_steps step with
  | run ran does => exact ordered.ran agreement ran does
  | api call => exact ordered.spawn begins rfl rfl fun b => none (by cases call <;> rfl)
  | httpRequest path listened => exact ordered.spawn begins rfl rfl fun b => none rfl
  | strand idle found ran =>
    refine ordered.spawn begins rfl rfl fun b mem => ?_
    obtain ⟨call, -, rfl⟩ := List.mem_map.1 mem
    exact called_ofWsCall call
  | upgrade target isSsl listened =>
    refine ordered.begins begins ?_ ordered.serial ordered.single
    unfold line Server.upgrade
    split <;> rfl
  | complete found done => exact ordered.begins begins rfl ordered.serial ordered.single
  | @work cbs notice rest idle running queue =>
    -- the worker is idle, so nothing is being invoked
    have free : c.pending called = [] := by
      apply Tasks.pending_eq_nil
      intro j q b pending
      by_contra call
      obtain ⟨cbs, notice, rfl⟩ := eq_call_of_called call
      obtain rfl := ordered.serial j q cbs notice pending
      exact Tasks.not_at_of_idle idle pending
    have now : Tasks.pending (Tasks.spawn
        { c with shared := c.shared.setQueue { c.shared.mWorkQueue with mQueue := rest } } .worker
        [.call cbs notice]) called = [notice] := by
      rw [Tasks.pending_spawn]
      show c.pending called ++ _ = _
      rw [free]
      rfl
    refine ordered.begins begins ?_ (fun j q cbs' notice' pending => ?_) (by rw [now]; exact Nat.le_refl 1)
    · rw [line, line, now, free, queue]
      simp [Tasks.spawn, setQueue]
    · rcases Tasks.at_spawn.1 pending with old | ⟨-, owner, -⟩
      · exact ordered.serial j q cbs' notice' old
      · exact owner

theorem create_ordered (allowedUris : Option (List Bytes)) (maxSessionBacklog : Nat) :
    Ordered (create allowedUris maxSessionBacklog) := by
  have idle : ∀ j q b, ¬ (create allowedUris maxSessionBacklog).At j q b := by
    rintro j q b ⟨t, found, -⟩
    simp [create] at found
  exact ⟨fun j q _ _ pending => absurd pending (idle _ _ _), Nat.zero_le 1, (fun _ mem => by cases mem),
    fun j q b pending => absurd pending (idle _ _ _), (fun _ mem => by cases mem), (fun _ mem => by cases mem),
    List.Pairwise.nil⟩

theorem run_ordered {allowedUris : Option (List Bytes)} {maxSessionBacklog : Nat} {ls : List Label}
    (run : system.exec (create allowedUris maxSessionBacklog) ls = some c)
    (bound : c.shared.impl.allocated < 2 ^ 32 - 1) : Ordered c := by
  have whole : Settled c ∧ (c.shared.impl.allocated < 2 ^ 32 - 1 → Ordered c) :=
    System.invariant (fun c => Settled c ∧ (c.shared.impl.allocated < 2 ^ 32 - 1 → Ordered c))
      ⟨create_settled allowedUris maxSessionBacklog, fun _ => create_ordered allowedUris maxSessionBacklog⟩
      (fun _ _ _ kept step => ⟨step_settled kept.1 step, fun bound => by
        have before := Nat.lt_of_le_of_lt (step_allocated_le step) bound
        exact step_ordered (kept.2 before) (kept.1.agreement before) step⟩) run
  exact whole.2 bound

/-- **Added before closed.** In every run that drew fewer than 2^32 - 1 ids: if the added callback is
invoked for an id after the closed callback was, then the closed callback ran in the calling thread
of the `Stop` or `RemoveClient` that took the client out, not on the work queue. -/
theorem added_after_closed_only_sync (allowedUris : Option (List Bytes)) (maxSessionBacklog : Nat)
    (ls : List Label) (c : Running) (run : system.exec (create allowedUris maxSessionBacklog) ls = some c)
    (bound : c.shared.impl.allocated < 2 ^ 32 - 1) (id : UInt32) (before after : List Event) (byWorker : Bool)
    (closedCb : Fn) (log : c.shared.log = before ++ .invoked byWorker closedCb (.closed id) :: after)
    (byWorker' : Bool) (addedCb : Fn) (uriAppend : Bytes) (isSsl : Bool)
    (added : .invoked byWorker' addedCb (.added id uriAppend isSsl) ∈ after) :
    byWorker = false ∧ ∃ how j, how ≠ .onWsClosed ∧ Left c how j id := by
  have ordered := run_ordered run bound
  have queued : byWorker' = true := by
    rw [← Bool.not_eq_false]
    rintro rfl
    apply ordered.events (.invoked false addedCb (.added id uriAppend isSsl))
    rw [log]
    exact List.mem_append_right _ (List.mem_cons_of_mem _ added)
  subst queued
  cases byWorker with
  | true =>
    have invoked : (delivered c.shared.log).Pairwise MayFollow :=
      ordered.sorted.sublist ((List.sublist_append_left _ _).trans (List.sublist_append_left _ _))
    rw [log, delivered_append] at invoked
    have later := (List.pairwise_cons.1 (List.pairwise_append.1 invoked).2.1).1 (.added id uriAppend isSsl)
      (List.mem_filterMap.2 ⟨_, added, rfl⟩)
    exact absurd rfl (later id uriAppend isSsl rfl)
  | false =>
    refine ⟨rfl, ordered.events (.invoked false closedCb (.closed id)) ?_⟩
    rw [log]
    exact List.mem_append_right _ List.mem_cons_self

/-- A server with both callbacks, and a session about to register. -/
def arriving : List Label :=
  [.api (.start 8080 { mOnClientAddedCb := some 1, mOnClientClosedCb := some 2 }), .run 0 false, .run 0 false,
    .upgrade (str "/") false, .complete 0 0 none noFrame, .strand 0]

/-- The client is registered, and removed before its added notice is posted and delivered. -/
def removedEarly : List Label :=
  arriving ++ ([.run 1 false, .api (.removeClient 1), .run 2 false, .run 2 false, .run 2 false, .run 2 false,
    .run 1 false, .work, .run 3 false] : List Label)

theorem removedEarly_runs : (system.exec (create none 1024) removedEarly).isSome = true := by
  decide

/-- What that run records. -/
theorem removedEarly_log : ((system.exec (create none 1024) removedEarly).get removedEarly_runs).shared.log =
    [.registered 0 1, .removed .removeClient 2 1, .issued [2] (.closed 1)] ++
      .invoked false 2 (.closed 1) ::
      [.issued [1] (.added 1 (str "/") false), .invoked true 1 (.added 1 (str "/") false)] := by
  decide

theorem added_after_closed_only_sync_removedEarly :
    ∃ c, system.exec (create none 1024) removedEarly = some c ∧
      ∃ how j, how ≠ .onWsClosed ∧ Left c how j 1 :=
  ⟨_, System.exec_get removedEarly_runs, (added_after_closed_only_sync none 1024 removedEarly _
    (System.exec_get removedEarly_runs) (by decide) 1 _ _ false 2 removedEarly_log true 1 (str "/") false
    (by simp)).2⟩

/-- The first client is added and closes by itself, both delivered; a second session is about to
register. -/
def reopening : List Label :=
  arriving ++ ([.run 1 false, .run 1 false, .run 1 false, .run 1 false, .work, .run 2 false, .run 2 false,
    .complete 0 0 (some .eof) noFrame, .strand 0, .run 3 false, .run 3 false, .run 3 false, .work, .run 4 false,
    .run 4 false, .upgrade (str "/") false, .complete 1 0 none noFrame, .strand 1] : List Label)

theorem reopening_runs : (system.exec (create none 1024) reopening).isSome = true := by
  decide

def reopened : Running := (system.exec (create none 1024) reopening).get reopening_runs

theorem reopened_run : system.exec (create none 1024) reopening = some reopened :=
  System.exec_get reopening_runs

theorem reopened_task : reopened.tasks[5]? = some ⟨.strand 1, [.registerWsClient 1 (str "/") false]⟩ := by
  decide

theorem reopened_log : reopened.shared.log =
    [.registered 0 1, .issued [1] (.added 1 (str "/") false), .issued [] (.connectionChange [] 0 0),
      .invoked true 1 (.added 1 (str "/") false), .removed .onWsClosed 3 1, .issued [2] (.closed 1),
      .issued [] (.connectionChange [] 0 1)] ++ .invoked true 2 (.closed 1) :: [] := by
  decide

/-- With nothing queued or being invoked, what is posted next can be invoked next. -/
theorem posted_invoked {fn : Fn} {notice : Notice} (task : c.tasks[i]? = some ⟨o, .postCallback [fn] notice :: rest⟩)
    (other : o ≠ .worker) (idle : c.idle .worker = true) (queue : c.shared.mWorkQueue = {}) :
    ∃ ls c', system.exec c ls = some c' ∧
      c'.shared.log = c.shared.log ++ [.issued [fn] notice, .invoked true fn notice] := by
  let c₁ : Running := ⟨c.shared.postCallback [fn] notice, c.tasks.set i ⟨o, rest⟩⟩
  have idle₁ : c₁.idle .worker = true := by
    rw [Tasks.idle_iff] at idle ⊢
    intro t mem owner
    rcases List.mem_or_eq_of_mem_set mem with old | rfl
    · exact idle t old owner
    · exact absurd owner other
  let c₂ : Running := Tasks.spawn { c₁ with shared := c₁.shared.setQueue {} } .worker [.call [fn] notice]
  have step₁ : system.step c (.run i false) = some c₁ := step_run task rfl
  have step₂ : system.step c₁ .work = some c₂ := by
    have next : c₁.shared.mWorkQueue.next = some (([fn], notice), {}) := by
      simp [c₁, postCallback, setQueue, record, queue, CWorkQueue.post, CWorkQueue.next]
    simp only [system, Server.step, idle₁, next, if_true, Option.map_some]
    rfl
  have task₂ : c₂.tasks[c₁.tasks.length]? = some ⟨.worker, [.call [fn] notice]⟩ := by
    simp [c₂, Tasks.spawn]
  let c₃ : Running := ⟨c₂.shared.record [.invoked true fn notice], c₂.tasks.set c₁.tasks.length
    ⟨.worker, [.call [] notice]⟩⟩
  have step₃ : system.step c₂ (.run c₁.tasks.length false) = some c₃ := step_run task₂ rfl
  refine ⟨[.run i false, .work, .run c₁.tasks.length false], c₃, ?_, ?_⟩
  · rw [System.exec_cons step₁, System.exec_cons step₂, System.exec_cons step₃]
    rfl
  · simp [c₃, c₂, c₁, Tasks.spawn]

/-- The server after 2^32 - 1 http requests have come. -/
def wrapped : Server := reopened.shared.setImpl { reopened.shared.impl with
  mNextConnectionId := reopened.shared.impl.mNextConnectionId + UInt32.ofNat (2 ^ 32 - 1),
  allocated := reopened.shared.impl.allocated + (2 ^ 32 - 1) }

theorem wrapped_registers : (wrapped.registerWsClient 1 (str "/") false).2 =
    [.postCallback [1] (.added 1 (str "/") false), .postCallback [] (.connectionChange [] 0 2),
      .registered 1 1] := by
  decide

theorem wrapped_queue : (wrapped.registerWsClient 1 (str "/") false).1.mWorkQueue = {} := by
  decide

theorem wrapped_records : (wrapped.registerWsClient 1 (str "/") false).1.log =
    reopened.shared.log ++ [.registered 1 1] := by
  decide

/-- Its second session is registered under the id of the first, and the notice is delivered. -/
theorem wrapped_adds :
    ∃ ls c after, system.exec (create none 1024) ls = some c ∧ c.shared.log = reopened.shared.log ++ after ∧
      .invoked true 1 (.added 1 (str "/") false) ∈ after := by
  obtain ⟨draws, c, run, ⟨shared, more, tasks, owners⟩⟩ := draws_many (c := reopened) (by decide) (2 ^ 32 - 1)
  have here : c.shared = wrapped := shared
  have task : c.tasks[5]? = some ⟨.strand 1, [.registerWsClient 1 (str "/") false]⟩ := by
    rw [tasks, List.getElem?_append_left (by decide)]
    exact reopened_task
  have done : exec false c 5 (.registerWsClient 1 (str "/") false) =
      some ((wrapped.registerWsClient 1 (str "/") false).1, [.postCallback [1] (.added 1 (str "/") false),
        .postCallback [] (.connectionChange [] 0 2), .registered 1 1]) := by
    simp only [exec, here]
    rw [← wrapped_registers]
  have step := step_run task done
  have idle : Tasks.idle ⟨(wrapped.registerWsClient 1 (str "/") false).1, c.tasks.set 5
      ⟨.strand 1, [.postCallback [1] (.added 1 (str "/") false), .postCallback [] (.connectionChange [] 0 2),
        .registered 1 1]⟩⟩ Owner.worker = true := by
    rw [Tasks.idle_iff]
    intro t mem owner
    rcases List.mem_or_eq_of_mem_set mem with old | rfl
    · rw [tasks] at old
      rcases List.mem_append.1 old with first | later
      · have free : reopened.idle .worker = true := by decide
        exact Tasks.idle_iff.1 free t first owner
      · exact absurd ((owners t later).symm.trans owner) (by decide)
    · exact absurd owner (by decide)
  obtain ⟨deliver, c', run', log⟩ := posted_invoked (i := 5) (by
    rw [List.getElem?_set, if_pos rfl, if_pos (List.getElem?_eq_some_iff.1 task).1]) (by decide) idle wrapped_queue
  refine ⟨reopening ++ (draws ++ .run 5 false :: deliver), c', [.registered 1 1] ++
    [.issued [1] (.added 1 (str "/") false), .invoked true 1 (.added 1 (str "/") false)], ?_, ?_, ?_⟩
  · rw [System.exec_append, reopened_run, Option.bind_some, System.exec_append, run]
    exact (System.exec_cons step).trans run'
  · rw [log, wrapped_records, List.append_assoc]
  · simp

/-- A client can be reported added after it was reported closed: by `RemoveClient` in the calling thread,
and by the work queue when the counter has wrapped and the id is drawn again. -/
theorem added_after_closed :
    (∃ c before after, system.exec (create none 1024) removedEarly = some c ∧
      c.shared.log = before ++ .invoked false 2 (.closed 1) :: after ∧
      .invoked true 1 (.added 1 (str "/") false) ∈ after) ∧
    ∃ ls c before after, system.exec (create none 1024) ls = some c ∧
      c.shared.log = before ++ .invoked true 2 (.closed 1) :: after ∧
      .invoked true 1 (.added 1 (str "/") false) ∈ after := by
  constructor
  · exact ⟨_, _, _, System.exec_get removedEarly_runs, removedEarly_log, by simp⟩
  · obtain ⟨ls, c, after, run, log, added⟩ := wrapped_adds
    rw [reopened_log, List.append_assoc] at log
    exact ⟨ls, c, _, _, run, log, added⟩

end Server

end Websockets
