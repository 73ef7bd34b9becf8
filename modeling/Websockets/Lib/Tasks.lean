import Websockets.Lib.System

/-!
# Interleaved tasks over a shared state

A task is one operation in progress: the atomic actions it still has to perform, in order, and
the owner it runs for (a thread, a serial executor). Running the head action of a task changes
the shared state and may put further actions in front of the rest; it may also block, also on other
operations. Tasks are never removed, so an index names one operation for the whole run and the
operation has finished exactly when nothing is left of it. An owner that runs one task at a time spawns only while it is idle;
`Exclusive` is what that discipline gives.
-/

namespace Lib

/-- One operation in progress. -/
structure Task (O A : Type) where
  owner : O
  todo : List A
  deriving DecidableEq

/-- The shared state and every operation started so far. -/
structure Tasks (σ O A : Type) where
  shared : σ
  tasks : List (Task O A)

namespace Tasks

variable {σ O A : Type}

/-- Nothing is left to do for `o`. -/
def idle [DecidableEq O] (c : Tasks σ O A) (o : O) : Bool :=
  c.tasks.all fun t => decide (t.owner ≠ o) || t.todo.isEmpty

/-- A new operation for `o`. -/
def spawn (c : Tasks σ O A) (o : O) (todo : List A) : Tasks σ O A :=
  { c with tasks := c.tasks ++ [⟨o, todo⟩] }

/-- The next atomic action of operation `i`; `none` if it has finished or the action blocks. -/
def run (exec : Tasks σ O A → Nat → A → Option (σ × List A)) (c : Tasks σ O A) (i : Nat) : Option (Tasks σ O A) :=
  match c.tasks[i]? with
  | some ⟨o, a :: rest⟩ =>
    match exec c i a with
    | some (shared, outs) => some ⟨shared, c.tasks.set i ⟨o, outs ++ rest⟩⟩
    | none => none
  | _ => none

/-- How many actions satisfying `p` are still to be performed. -/
def count (c : Tasks σ O A) (p : A → Bool) : Nat :=
  (c.tasks.map fun t => t.todo.countP p).sum

/-- What holds of the two parts of a result. -/
theorem of_result {P : σ → List A → Prop} {r : σ × List A} {s : σ} {outs : List A} (done : some r = some (s, outs))
    (holds : P r.1 r.2) : P s outs := by
  cases done
  exact holds

/-- Operation `i` has nothing left to do. -/
def finished (c : Tasks σ O A) (i : Nat) : Prop :=
  ∀ t, c.tasks[i]? = some t → t.todo = []

instance (c : Tasks σ O A) (i : Nat) : Decidable (c.finished i) :=
  decidable_of_iff (c.tasks[i]?.all fun t => t.todo.isEmpty)
    (by simp only [finished]; cases c.tasks[i]? <;> simp)

/-- Every operation has finished. -/
def quiet (c : Tasks σ O A) : Prop :=
  ∀ t ∈ c.tasks, t.todo = []

instance (c : Tasks σ O A) : Decidable c.quiet :=
  decidable_of_iff (c.tasks.all fun t => t.todo.isEmpty) (by simp [quiet])

/-- Operation `i`, of `o`, still has to perform `b`. -/
def At (c : Tasks σ O A) (i : Nat) (o : O) (b : A) : Prop :=
  ∃ t, c.tasks[i]? = some t ∧ t.owner = o ∧ b ∈ t.todo

/-- For the owners `serial` picks, at most one operation is unfinished. -/
def Exclusive (c : Tasks σ O A) (serial : O → Prop) : Prop :=
  ∀ (i j : Nat) (t u : Task O A), c.tasks[i]? = some t → c.tasks[j]? = some u → t.owner = u.owner →
    serial t.owner → t.todo ≠ [] → u.todo ≠ [] → i = j

/-- What a successful `run` did. -/
structure Ran (exec : Tasks σ O A → Nat → A → Option (σ × List A)) (c : Tasks σ O A) (i : Nat) (c' : Tasks σ O A)
    (o : O) (a : A) (rest outs : List A) : Prop where
  task : c.tasks[i]? = some ⟨o, a :: rest⟩
  action : exec c i a = some (c'.shared, outs)
  after : c'.tasks = c.tasks.set i ⟨o, outs ++ rest⟩

variable {exec : Tasks σ O A → Nat → A → Option (σ × List A)} {c c' : Tasks σ O A} {i : Nat} {o : O} {a : A}
  {rest outs : List A}

theorem run_inv (h : c.run exec i = some c') : ∃ o a rest outs, Ran exec c i c' o a rest outs := by
  unfold run at h
  split at h
  next o a rest task =>
    split at h
    next shared outs action =>
      cases h
      exact ⟨o, a, rest, outs, task, action, rfl⟩
    next => cases h
  next => cases h

theorem Ran.mem (ran : Ran exec c i c' o a rest outs) : ⟨o, a :: rest⟩ ∈ c.tasks :=
  List.mem_of_getElem? ran.task

theorem Ran.lt (ran : Ran exec c i c' o a rest outs) : i < c.tasks.length :=
  (List.getElem?_eq_some_iff.1 ran.task).1

/-- Operation `j` after operation `i` moved. -/
theorem Ran.lookup (ran : Ran exec c i c' o a rest outs) (j : Nat) :
    c'.tasks[j]? = if i = j then some ⟨o, outs ++ rest⟩ else c.tasks[j]? := by
  rw [ran.after, List.getElem?_set]
  split
  · simp [ran.lt]
  · rfl

/-- A task after the step is the moved one or an unchanged one. -/
theorem Ran.mem_after (ran : Ran exec c i c' o a rest outs) {t : Task O A} (h : t ∈ c'.tasks) :
    t = ⟨o, outs ++ rest⟩ ∨ t ∈ c.tasks := by
  rw [ran.after] at h
  exact (List.mem_or_eq_of_mem_set h).symm

/-- The operations around the moved one stay as they are. -/
theorem Ran.around (ran : Ran exec c i c' o a rest outs) :
    ∃ before after, c.tasks = before ++ ⟨o, a :: rest⟩ :: after ∧ c'.tasks = before ++ ⟨o, outs ++ rest⟩ :: after := by
  obtain ⟨lt, get⟩ := List.getElem?_eq_some_iff.1 ran.task
  refine ⟨c.tasks.take i, c.tasks.drop (i + 1), ?_, ?_⟩
  · conv_lhs => rw [← List.take_append_drop i c.tasks, List.drop_eq_getElem_cons lt, get]
  · rw [ran.after, List.set_eq_take_append_cons_drop, if_pos lt]

theorem Ran.count (ran : Ran exec c i c' o a rest outs) (p : A → Bool) :
    c'.count p + (if p a then 1 else 0) = c.count p + outs.countP p := by
  obtain ⟨before, after, old, new⟩ := ran.around
  unfold Tasks.count
  rw [old, new]
  simp only [List.map_append, List.map_cons, List.sum_append, List.sum_cons, List.countP_append,
    List.countP_cons]
  split <;> omega

theorem count_spawn (c : Tasks σ O A) (o : O) (todo : List A) (p : A → Bool) :
    (c.spawn o todo).count p = c.count p + todo.countP p := by
  simp [Tasks.count, spawn]

theorem mem_spawn {t : Task O A} {todo : List A} :
    t ∈ (c.spawn o todo).tasks ↔ t ∈ c.tasks ∨ t = ⟨o, todo⟩ := by
  simp [spawn]

theorem count_eq_zero {p : A → Bool} : c.count p = 0 ↔ ∀ t ∈ c.tasks, ∀ a ∈ t.todo, p a = false := by
  simp [Tasks.count, List.sum_eq_zero_iff_forall_eq_nat]

theorem idle_iff [DecidableEq O] : c.idle o = true ↔ ∀ t ∈ c.tasks, t.owner = o → t.todo = [] := by
  simp only [idle, List.all_eq_true, Bool.or_eq_true, decide_eq_true_eq, List.isEmpty_iff]
  constructor
  · intro h t ht owner
    exact (h t ht).resolve_left (not_not.2 owner)
  · intro h t ht
    by_cases owner : t.owner = o
    · exact .inr (h t ht owner)
    · exact .inl owner

variable {j : Nat} {q : O} {b : A}

/-- The action performed was pending. -/
theorem Ran.at_head (ran : Ran exec c i c' o a rest outs) : c.At i o a :=
  ⟨_, ran.task, rfl, List.mem_cons_self⟩

/-- Another pending action stays pending. -/
theorem Ran.at_kept (ran : Ran exec c i c' o a rest outs) (pending : c.At j q b) (other : b ≠ a) :
    c'.At j q b := by
  obtain ⟨t, found, owner, mem⟩ := pending
  by_cases same : i = j
  · subst same
    cases ran.task.symm.trans found
    have left : b ∈ rest := (List.mem_cons.1 mem).resolve_left other
    have moved : c'.tasks[i]? = some ⟨o, outs ++ rest⟩ := by rw [ran.lookup, if_pos rfl]
    exact ⟨_, moved, owner, List.mem_append_right _ left⟩
  · exact ⟨t, by rw [ran.lookup, if_neg same, found], owner, mem⟩

/-- A pending action stays pending until it is performed. -/
theorem Ran.at_or (ran : Ran exec c i c' o a rest outs) (pending : c.At j q b) : c'.At j q b ∨ i = j ∧ b = a := by
  obtain ⟨t, found, owner, mem⟩ := pending
  by_cases same : i = j
  · subst same
    cases ran.task.symm.trans found
    rcases List.mem_cons.1 mem with rfl | left
    · exact .inr ⟨rfl, rfl⟩
    · have moved : c'.tasks[i]? = some ⟨o, outs ++ rest⟩ := by rw [ran.lookup, if_pos rfl]
      exact .inl ⟨_, moved, owner, List.mem_append_right _ left⟩
  · exact .inl ⟨t, by rw [ran.lookup, if_neg same, found], owner, mem⟩

/-- What comes out of the action is pending. -/
theorem Ran.at_new (ran : Ran exec c i c' o a rest outs) (mem : b ∈ outs) : c'.At i o b := by
  have moved : c'.tasks[i]? = some ⟨o, outs ++ rest⟩ := by rw [ran.lookup, if_pos rfl]
  exact ⟨_, moved, rfl, List.mem_append_left _ mem⟩

/-- A pending action was pending before or came out of the action performed. -/
theorem Ran.at_inv (ran : Ran exec c i c' o a rest outs) (pending : c'.At j q b) :
    c.At j q b ∨ j = i ∧ q = o ∧ b ∈ outs := by
  obtain ⟨t, found, owner, mem⟩ := pending
  rw [ran.lookup] at found
  split at found
  · next same =>
    subst same
    cases found
    rcases List.mem_append.1 mem with new | old
    · exact .inr ⟨rfl, owner.symm, new⟩
    · exact .inl ⟨_, ran.task, owner, List.mem_cons_of_mem _ old⟩
  · exact .inl ⟨t, found, owner, mem⟩

theorem at_spawn {todo : List A} :
    (c.spawn o todo).At j q b ↔ c.At j q b ∨ j = c.tasks.length ∧ q = o ∧ b ∈ todo := by
  constructor
  · rintro ⟨t, found, owner, mem⟩
    simp only [spawn, List.getElem?_append] at found
    split at found
    · exact .inl ⟨t, found, owner, mem⟩
    · have last := List.mem_singleton.1 (List.mem_of_getElem? found)
      have bound := (List.getElem?_eq_some_iff.1 found).1
      simp only [List.length_singleton] at bound
      subst last
      exact .inr ⟨by omega, owner.symm, mem⟩
  · rintro (⟨t, found, owner, mem⟩ | ⟨rfl, rfl, mem⟩)
    · have lt := (List.getElem?_eq_some_iff.1 found).1
      exact ⟨t, by simp only [spawn, List.getElem?_append, if_pos lt, found], owner, mem⟩
    · exact ⟨⟨q, todo⟩, by simp [spawn], rfl, mem⟩

/-- Running gives an idle owner nothing to do. -/
theorem Ran.idle_kept [DecidableEq O] (ran : Ran exec c i c' o a rest outs) (free : c.idle q = true) :
    c'.idle q = true := by
  rw [idle_iff] at free ⊢
  intro t mem owner
  rcases ran.mem_after mem with rfl | old
  · obtain rfl : o = q := owner
    cases free _ ran.mem rfl
  · exact free t old owner

/-- Nor does a new operation of another owner. -/
theorem idle_spawn_other [DecidableEq O] {todo : List A} (free : c.idle q = true) (other : o ≠ q) :
    (c.spawn o todo).idle q = true := by
  rw [idle_iff] at free ⊢
  intro t mem owner
  rcases mem_spawn.1 mem with old | rfl
  · exact free t old owner
  · exact absurd owner other

/-- A finished operation has nothing pending. -/
theorem not_at_of_finished (past : c.finished j) : ¬ c.At j q b := by
  rintro ⟨t, found, -, mem⟩
  rw [past t found] at mem
  cases mem

/-- Nothing is pending for an idle owner. -/
theorem not_at_of_idle [DecidableEq O] (free : c.idle o = true) : ¬ c.At j o b := by
  rintro ⟨t, found, owner, mem⟩
  rw [idle_iff.1 free t (List.mem_of_getElem? found) owner] at mem
  cases mem

/-- An operation that has finished stays so. -/
theorem Ran.finished_kept (ran : Ran exec c i c' o a rest outs) (past : c.finished j) : c'.finished j := by
  intro t found
  rw [ran.lookup] at found
  split at found
  · next same =>
    subst same
    cases past _ ran.task
  · exact past t found

theorem finished_spawn {todo : List A} (here : j < c.tasks.length) : (c.spawn o todo).finished j ↔ c.finished j := by
  unfold finished spawn
  rw [List.getElem?_append_left here]

/-- What is pending is counted. -/
theorem count_pos {p : A → Bool} (pending : c.At j q b) (holds : p b = true) : 0 < c.count p := by
  apply Nat.pos_of_ne_zero
  intro zero
  obtain ⟨t, found, -, mem⟩ := pending
  rw [count_eq_zero.1 zero t (List.mem_of_getElem? found) b mem] at holds
  cases holds

section Weigh

variable {w : A → Nat}

/-- The weights of all actions still to be performed. -/
def weigh (c : Tasks σ O A) (w : A → Nat) : Nat := (c.tasks.map fun t => (t.todo.map w).sum).sum

/-- One element of a list is replaced. -/
theorem sum_modify {α : Type} {l : List α} {x : α} {f : α → α} (found : l[i]? = some x) (w : α → Nat) :
    ((l.modify i f).map w).sum + w x = (l.map w).sum + w (f x) := by
  induction l generalizing i with
  | nil => cases found
  | cons y l ih =>
    cases i with
    | zero =>
      cases found
      simp only [List.modify_zero_cons, List.map_cons, List.sum_cons]
      omega
    | succ i =>
      have := ih (i := i) found
      simp only [List.modify_succ_cons, List.map_cons, List.sum_cons]
      omega

theorem weigh_spawn (todo : List A) (w : A → Nat) : (c.spawn o todo).weigh w = c.weigh w + (todo.map w).sum := by
  simp [weigh, spawn]

theorem Ran.weigh (ran : Ran exec c i c' o a rest outs) (w : A → Nat) : c'.weigh w + w a = c.weigh w + (outs.map w).sum := by
  obtain ⟨before, after, old, new⟩ := ran.around
  unfold Tasks.weigh
  rw [old, new]
  simp only [List.map_append, List.map_cons, List.sum_append, List.sum_cons]
  omega

end Weigh

section Pending

variable {B : Type} {f : A → Option B}

/-- What `f` sees of the actions still to be performed, operation by operation. -/
def pending (c : Tasks σ O A) (f : A → Option B) : List B :=
  c.tasks.flatMap fun t => t.todo.filterMap f

/-- Only the part of the moved operation changes. -/
theorem Ran.flatMap (ran : Ran exec c i c' o a rest outs) (g : Task O A → List B) :
    ∃ before after, c.tasks.flatMap g = before ++ (g ⟨o, a :: rest⟩ ++ after) ∧
      c'.tasks.flatMap g = before ++ (g ⟨o, outs ++ rest⟩ ++ after) := by
  obtain ⟨before, after, old, new⟩ := ran.around
  refine ⟨before.flatMap g, after.flatMap g, ?_, ?_⟩
  · rw [old, List.flatMap_append, List.flatMap_cons]
  · rw [new, List.flatMap_append, List.flatMap_cons]

theorem Ran.pending (ran : Ran exec c i c' o a rest outs) (f : A → Option B) :
    ∃ before after, c.pending f = before ++ ((a :: rest).filterMap f ++ after) ∧
      c'.pending f = before ++ ((outs ++ rest).filterMap f ++ after) :=
  ran.flatMap fun t => t.todo.filterMap f

theorem filterMap_eq_nil_of {todo : List A} (unseen : ∀ b ∈ todo, f b = none) : todo.filterMap f = [] := by
  rw [List.filterMap_eq_nil_iff]
  exact unseen

/-- If of what comes out of an action the same is seen as of the action, nothing changes. -/
theorem Ran.pending_kept (ran : Ran exec c i c' o a rest outs) (same : outs.filterMap f = (f a).toList) :
    c'.pending f = c.pending f := by
  obtain ⟨before, after, old, new⟩ := ran.pending f
  rw [old, new, List.filterMap_append, same]
  cases seen : f a with
  | none => rw [List.filterMap_cons_none seen, Option.toList_none, List.nil_append]
  | some x => rw [List.filterMap_cons_some seen, Option.toList_some, List.singleton_append]

theorem Ran.pending_same (ran : Ran exec c i c' o a rest outs) (head : f a = none)
    (unseen : ∀ b ∈ outs, f b = none) : c'.pending f = c.pending f := by
  apply ran.pending_kept
  rw [filterMap_eq_nil_of unseen, head, Option.toList_none]

/-- If at most one action is seen, performing it leaves what comes out of it. -/
theorem Ran.pending_single {x : B} (ran : Ran exec c i c' o a rest outs) (short : (c.pending f).length ≤ 1)
    (head : f a = some x) : c.pending f = [x] ∧ c'.pending f = outs.filterMap f := by
  obtain ⟨before, after, old, new⟩ := ran.pending f
  rw [old, List.filterMap_cons_some head] at short
  simp only [List.length_append, List.length_cons] at short
  have first : before = [] := List.eq_nil_of_length_eq_zero (by omega)
  have last : after = [] := List.eq_nil_of_length_eq_zero (by omega)
  have others : rest.filterMap f = [] := List.eq_nil_of_length_eq_zero (by omega)
  rw [old, new, first, last, List.filterMap_cons_some head, List.filterMap_append, others]
  simp

theorem pending_spawn (todo : List A) : (c.spawn o todo).pending f = c.pending f ++ todo.filterMap f := by
  simp [Tasks.pending, spawn]

theorem mem_pending {x : B} : x ∈ c.pending f ↔ ∃ j q b, c.At j q b ∧ f b = some x := by
  unfold Tasks.pending At
  constructor
  · intro mem
    obtain ⟨t, here, seen⟩ := List.mem_flatMap.1 mem
    obtain ⟨b, todo, eq⟩ := List.mem_filterMap.1 seen
    obtain ⟨j, found⟩ := List.mem_iff_getElem?.1 here
    exact ⟨j, t.owner, b, ⟨t, found, rfl, todo⟩, eq⟩
  · rintro ⟨j, q, b, ⟨t, found, -, todo⟩, eq⟩
    exact List.mem_flatMap.2 ⟨t, List.mem_of_getElem? found, List.mem_filterMap.2 ⟨b, todo, eq⟩⟩

/-- What is seen before and after an action: the action or what comes out of it, and the others. -/
theorem Ran.mem_pending (ran : Ran exec c i c' o a rest outs) (f : A → Option B) :
    ∃ others : List B, (∀ x, x ∈ c.pending f ↔ f a = some x ∨ x ∈ others) ∧
      ∀ x, x ∈ c'.pending f ↔ (∃ b ∈ outs, f b = some x) ∨ x ∈ others := by
  obtain ⟨before, after, old, new⟩ := ran.pending f
  refine ⟨before ++ (rest.filterMap f ++ after), fun x => ?_, fun x => ?_⟩
  · rw [old]
    simp only [List.mem_append, List.mem_filterMap, List.mem_cons]
    grind
  · rw [new]
    simp only [List.mem_append, List.mem_filterMap]
    grind

theorem pending_eq_nil (unseen : ∀ j q b, c.At j q b → f b = none) : c.pending f = [] := by
  apply List.eq_nil_iff_forall_not_mem.2
  intro x mem
  obtain ⟨j, q, b, here, eq⟩ := mem_pending.1 mem
  rw [unseen j q b here] at eq
  cases eq

end Pending

section PendingOf

variable [DecidableEq O] {B : Type} {f : A → Option B}

/-- What `f` sees of the actions still to be performed for `p`. -/
def pendingOf (c : Tasks σ O A) (p : O) (f : A → Option B) : List B :=
  c.tasks.flatMap fun t => if t.owner = p then t.todo.filterMap f else []

theorem Ran.pendingOf_kept (ran : Ran exec c i c' o a rest outs) (same : o = q → outs.filterMap f = (f a).toList) :
    c'.pendingOf q f = c.pendingOf q f := by
  obtain ⟨before, after, old, new⟩ := ran.flatMap fun t => if t.owner = q then t.todo.filterMap f else []
  rw [Tasks.pendingOf, Tasks.pendingOf, old, new]
  by_cases mine : o = q
  · rw [if_pos mine, if_pos mine, List.filterMap_append, same mine]
    cases seen : f a with
    | none => rw [List.filterMap_cons_none seen, Option.toList_none, List.nil_append]
    | some x => rw [List.filterMap_cons_some seen, Option.toList_some, List.singleton_append]
  · rw [if_neg mine, if_neg mine]

/-- If at most one action of the owner is seen, performing it leaves what comes out of it. -/
theorem Ran.pendingOf_single {x : B} (ran : Ran exec c i c' o a rest outs) (short : (c.pendingOf o f).length ≤ 1)
    (head : f a = some x) : c.pendingOf o f = [x] ∧ c'.pendingOf o f = outs.filterMap f := by
  obtain ⟨before, after, old, new⟩ := ran.flatMap fun t => if t.owner = o then t.todo.filterMap f else []
  simp only [if_true] at old new
  rw [Tasks.pendingOf, old, List.filterMap_cons_some head] at short
  simp only [List.length_append, List.length_cons] at short
  have first : before = [] := List.eq_nil_of_length_eq_zero (by omega)
  have last : after = [] := List.eq_nil_of_length_eq_zero (by omega)
  have others : rest.filterMap f = [] := List.eq_nil_of_length_eq_zero (by omega)
  rw [Tasks.pendingOf, Tasks.pendingOf, old, new, first, last, List.filterMap_cons_some head, List.filterMap_append, others]
  simp

theorem pendingOf_spawn (todo : List A) :
    (c.spawn o todo).pendingOf q f = c.pendingOf q f ++ if o = q then todo.filterMap f else [] := by
  simp [Tasks.pendingOf, spawn]

theorem mem_pendingOf {x : B} (pending : c.At j q b) (seen : f b = some x) : x ∈ c.pendingOf q f := by
  obtain ⟨t, found, owner, todo⟩ := pending
  refine List.mem_flatMap.2 ⟨t, List.mem_of_getElem? found, ?_⟩
  rw [if_pos owner]
  exact List.mem_filterMap.2 ⟨b, todo, seen⟩

theorem pendingOf_idle (free : c.idle q = true) : c.pendingOf q f = [] := by
  refine List.flatMap_eq_nil_iff.2 fun t mem => ?_
  split
  · next owner =>
    rw [idle_iff.1 free t mem owner]
    rfl
  · rfl

end PendingOf

section Guarded

variable {P : Type} {needs gives : A → P → Prop} {holds holds' : P → Prop} {before after : O → P → Prop}

/-- What an action needs holds already, or an action in front of it gives it. -/
def guarded (needs gives : A → P → Prop) (holds : P → Prop) : List A → Prop
  | [] => True
  | a :: rest => (∀ x, needs a x → holds x) ∧ guarded needs gives (fun x => holds x ∨ gives a x) rest

/-- Every operation is guarded, by what holds for its owner. -/
def Guarded (needs gives : A → P → Prop) (holds : O → P → Prop) (c : Tasks σ O A) : Prop :=
  ∀ t ∈ c.tasks, guarded needs gives (holds t.owner) t.todo

theorem guarded_mono {todo : List A} (more : ∀ x, holds x → holds' x) (guard : guarded needs gives holds todo) :
    guarded needs gives holds' todo := by
  induction todo generalizing holds holds' with
  | nil => trivial
  | cons a rest ih => exact ⟨fun x need => more x (guard.1 x need), ih (fun x => Or.imp_left (more x)) guard.2⟩

theorem guarded_append {outs rest : List A} (first : guarded needs gives holds outs)
    (later : guarded needs gives (fun x => holds x ∨ ∃ b ∈ outs, gives b x) rest) :
    guarded needs gives holds (outs ++ rest) := by
  induction outs generalizing holds with
  | nil =>
    refine guarded_mono (fun x given => given.resolve_right ?_) later
    rintro ⟨b, mem, -⟩
    cases mem
  | cons a outs ih =>
    refine ⟨first.1, ih first.2 (guarded_mono (fun x given => ?_) later)⟩
    obtain here | ⟨b, mem, given⟩ := given
    · exact .inl (.inl here)
    · rcases List.mem_cons.1 mem with rfl | mem
      · exact .inl (.inr given)
      · exact .inr ⟨b, mem, given⟩

/-- Actions that need nothing. -/
theorem guarded_of_none {todo : List A} (none : ∀ b ∈ todo, ∀ x, ¬ needs b x) : guarded needs gives holds todo := by
  induction todo generalizing holds with
  | nil => trivial
  | cons a rest ih =>
    have head := none a List.mem_cons_self
    exact ⟨fun x need => absurd need (head x), ih fun b mem => none b (List.mem_cons_of_mem _ mem)⟩

/-- The action performed has what it needs. -/
theorem Ran.has (ran : Ran exec c i c' o a rest outs) (guard : c.Guarded needs gives before) {x : P}
    (need : needs a x) : before o x :=
  (guard _ ran.mem).1 x need

/-- What the action performed gives holds then, or what comes out of it gives it. -/
theorem Ran.guarded (ran : Ran exec c i c' o a rest outs) (guard : c.Guarded needs gives before)
    (more : ∀ q x, before q x → after q x) (first : guarded needs gives (after o) outs)
    (given : ∀ x, gives a x → after o x ∨ ∃ b ∈ outs, gives b x) : c'.Guarded needs gives after := by
  intro t mem
  rcases ran.mem_after mem with rfl | old
  · refine guarded_append first (guarded_mono (fun x => ?_) (guard _ ran.mem).2)
    exact fun here => here.elim (fun here => .inl (more o x here)) (given x)
  · exact guarded_mono (more t.owner) (guard t old)

theorem Guarded.mono (guard : c.Guarded needs gives before) (more : ∀ q x, before q x → after q x) :
    c.Guarded needs gives after :=
  fun t mem => guarded_mono (more t.owner) (guard t mem)

theorem Guarded.spawn {todo : List A} (guard : c.Guarded needs gives before)
    (fresh : guarded needs gives (before o) todo) : (c.spawn o todo).Guarded needs gives before := by
  intro t mem
  rcases mem_spawn.1 mem with old | rfl
  · exact guard t old
  · exact fresh

end Guarded

section Topmost

variable {p : A → Prop} {front : List A}

/-- Actions of this kind are pending only as the next one of their operation. -/
def Topmost (p : A → Prop) (c : Tasks σ O A) : Prop := ∀ t ∈ c.tasks, ∀ b ∈ t.todo.tail, ¬ p b

/-- Puts actions in front of what operation `i` still has to perform. -/
def push (c : Tasks σ O A) (i : Nat) (front : List A) : Tasks σ O A :=
  { c with tasks := c.tasks.modify i fun t => { t with todo := front ++ t.todo } }

/-- The moved operation after actions were put in front of it. -/
theorem Ran.pushed (ran : Ran exec c i c' o a rest outs) :
    (c'.push i front).tasks[i]? = some ⟨o, front ++ (outs ++ rest)⟩ := by
  unfold push
  rw [List.getElem?_modify_eq, ran.lookup, if_pos rfl]
  rfl

theorem Ran.mem_push (ran : Ran exec c i c' o a rest outs) {t : Task O A} (mem : t ∈ (c'.push i front).tasks) :
    t = ⟨o, front ++ (outs ++ rest)⟩ ∨ t ∈ c.tasks := by
  obtain ⟨j, found⟩ := List.mem_iff_getElem?.1 mem
  by_cases same : i = j
  · subst same
    exact .inl (Option.some.inj (found.symm.trans ran.pushed))
  · have kept : (c'.push i front).tasks[j]? = c'.tasks[j]? := List.getElem?_modify_ne _ _ same
    rw [kept, ran.lookup, if_neg same] at found
    exact .inr (List.mem_of_getElem? found)

/-- They stay the next ones if only the first of what comes out may be one. -/
theorem Ran.topmost (ran : Ran exec c i c' o a rest outs) (top : c.Topmost p)
    (fresh : ∀ b ∈ (front ++ outs).tail, ¬ p b) : (c'.push i front).Topmost p := by
  intro t mem b pending
  rcases ran.mem_push mem with rfl | old
  · rw [← List.append_assoc] at pending
    have later : ∀ b ∈ rest, ¬ p b := top _ ran.mem
    cases new : front ++ outs with
    | nil =>
      rw [new] at pending
      exact later b (List.mem_of_mem_tail pending)
    | cons first others =>
      rw [new] at pending fresh
      rcases List.mem_append.1 pending with mine | old
      · exact fresh b mine
      · exact later b old
  · exact top t old b pending

theorem Topmost.spawn {todo : List A} (top : c.Topmost p) (fresh : ∀ b ∈ todo.tail, ¬ p b) :
    (c.spawn o todo).Topmost p := by
  intro t mem
  rcases mem_spawn.1 mem with old | rfl
  · exact top t old
  · exact fresh

end Topmost

/-- Running keeps the discipline. -/
theorem Ran.exclusive (ran : Ran exec c i c' o a rest outs) {serial : O → Prop}
    (h : c.Exclusive serial) : c'.Exclusive serial := by
  -- the moved task was unfinished before, so the old discipline already separated it
  intro j k t u hj hk same hs ht hu
  rw [ran.lookup] at hj hk
  split at hj <;> split at hk
  · omega
  · next eq _ =>
    cases hj
    exact eq ▸ h _ _ _ _ ran.task hk same hs (by simp) hu
  · next _ eq =>
    cases hk
    exact eq ▸ h _ _ _ _ hj ran.task same hs ht (by simp)
  · exact h _ _ _ _ hj hk same hs ht hu

/-- Spawning for an idle owner, or for one that is not serial, keeps the discipline. -/
theorem Exclusive.spawn [DecidableEq O] {serial : O → Prop} (h : c.Exclusive serial) (todo : List A)
    (free : serial o → c.idle o = true) : (c.spawn o todo).Exclusive serial := by
  have old : ∀ k u, (c.spawn o todo).tasks[k]? = some u → k < c.tasks.length → c.tasks[k]? = some u := by
    intro k u hk lt
    simpa [Tasks.spawn, List.getElem?_append, lt] using hk
  have new : ∀ k u, (c.spawn o todo).tasks[k]? = some u → ¬ k < c.tasks.length →
      k = c.tasks.length ∧ u = ⟨o, todo⟩ := by
    intro k u hk ge
    have bound := (List.getElem?_eq_some_iff.1 hk).1
    simp only [Tasks.spawn, List.length_append, List.length_singleton] at bound
    obtain rfl : k = c.tasks.length := by omega
    simp [Tasks.spawn] at hk
    exact ⟨rfl, hk.symm⟩
  intro j k t u hj hk same hs ht hu
  by_cases lj : j < c.tasks.length <;> by_cases lk : k < c.tasks.length
  · exact h _ _ _ _ (old j t hj lj) (old k u hk lk) same hs ht hu
  · obtain ⟨-, rfl⟩ := new k u hk lk
    replace same : t.owner = o := same
    have empty := idle_iff.1 (free (same ▸ hs)) t (List.mem_of_getElem? (old j t hj lj)) same
    exact absurd empty ht
  · obtain ⟨-, rfl⟩ := new j t hj lj
    have empty := idle_iff.1 (free hs) u (List.mem_of_getElem? (old k u hk lk)) same.symm
    exact absurd empty hu
  · obtain ⟨rfl, -⟩ := new j t hj lj
    exact (new k u hk lk).1.symm

end Tasks

end Lib
