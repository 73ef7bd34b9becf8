import Websockets.Http.Connection

/-!
# References to wrappers

A wrapper is destroyed with the last reference to it, whichever that is.
-/

namespace Websockets

namespace CHttpConnection

/-- The wrapper of request `n` exists. -/
def Held (c : CHttpConnection) (n : Nat) : Prop := ∃ w, c.wrapperOf n = some w ∧ w.alive = true

/-- A wrapper is alive exactly as long as there is a reference to it. -/
def Counted (c : CHttpConnection) : Prop := ∀ n, n ∈ c.refs ↔ c.Held n

variable {c : CHttpConnection} {n : Nat} {w : CHttpWrapper} {f : Exchange → Exchange}

theorem wrapperOf_modify (c : CHttpConnection) (n : Nat) (f : Exchange → Exchange) (m : Nat) :
    (c.modify n f).wrapperOf m =
      if n = m then c.exchanges[m]?.bind fun e => (f e).wrapper else c.wrapperOf m := by
  unfold wrapperOf modify
  rw [List.getElem?_modify]
  split <;> cases c.exchanges[m]? <;> rfl

theorem wrapperOf_inv (found : c.wrapperOf n = some w) :
    ∃ e, c.exchanges[n]? = some e ∧ e.wrapper = some w :=
  Option.bind_eq_some_iff.1 found

theorem wrapperOf_modify_same (same : ∀ e, (f e).wrapper = e.wrapper) (m : Nat) :
    (c.modify n f).wrapperOf m = c.wrapperOf m := by
  rw [wrapperOf_modify]
  split
  · simp only [same]
    rfl
  · rfl

theorem wrapperOf_setWrapper (found : c.exchanges[n]?.isSome) (w : CHttpWrapper) (m : Nat) :
    (c.setWrapper n w).wrapperOf m = if n = m then some w else c.wrapperOf m := by
  rw [setWrapper, wrapperOf_modify]
  split
  · next same =>
    subst same
    obtain ⟨e, here⟩ := Option.isSome_iff_exists.1 found
    simp [here]
  · rfl

theorem mem_refs : n ∈ c.refs ↔ c.todo.bind Stage.wrapper = some n ∨
    n ∈ c.mWorkQueue.mQueue.filterMap Job.wrapper ∨ n ∈ c.cleared.filterMap Job.wrapper ∨
    c.running.bind Job.wrapper = some n ∨ n ∈ c.kept := by
  simp only [refs, List.mem_append, Option.mem_toList, or_assoc]

/-- The references are the same, and so are the wrappers. -/
theorem Counted.of_same {c' : CHttpConnection} (counted : Counted c) (refs : ∀ n, n ∈ c'.refs ↔ n ∈ c.refs)
    (wrappers : ∀ n, c'.wrapperOf n = c.wrapperOf n) : Counted c' := by
  intro n
  rw [refs, counted]
  unfold Held
  rw [wrappers]

/-- One reference fewer, to a wrapper that is alive. -/
structure Short (c : CHttpConnection) (n : Nat) : Prop where
  held : c.Held n
  others : ∀ m, m ≠ n → (m ∈ c.refs ↔ c.Held m)

/-- A reference is taken out of the state. -/
theorem Counted.short {c' : CHttpConnection} (counted : Counted c) (mem : n ∈ c.refs)
    (refs : ∀ m, m ≠ n → (m ∈ c'.refs ↔ m ∈ c.refs)) (wrappers : ∀ m, c'.wrapperOf m = c.wrapperOf m) : Short c' n := by
  constructor
  · unfold Held
    rw [wrappers]
    exact (counted n).1 mem
  · intro m other
    rw [refs m other, counted]
    unfold Held
    rw [wrappers]

theorem destroy_refs (c : CHttpConnection) (n : Nat) : (c.destroy n).refs = c.refs := by
  unfold destroy
  cases c.wrapperOf n with
  | none => rfl
  | some w =>
    dsimp only
    split <;> rfl

theorem destroy_wrapperOf (found : c.wrapperOf n = some w) (m : Nat) :
    (c.destroy n).wrapperOf m = if n = m then some { w with alive := false } else c.wrapperOf m := by
  obtain ⟨e, here, -⟩ := wrapperOf_inv found
  have dead := wrapperOf_setWrapper (c := c) (n := n) (by rw [here]; rfl) { w with alive := false } m
  unfold destroy
  rw [found]
  dsimp only
  split
  · exact dead
  · refine (wrapperOf_modify_same (n := n) ?_ m).trans dead
    exact fun e => rfl

theorem Short.release (short : Short c n) : Counted (c.release n) := by
  unfold CHttpConnection.release
  split
  · next mem =>
    intro m
    by_cases same : m = n
    · subst same
      exact iff_of_true mem short.held
    · exact short.others m same
  · next gone =>
    obtain ⟨w, found, -⟩ := short.held
    intro m
    rw [destroy_refs]
    unfold Held
    rw [destroy_wrapperOf found]
    by_cases same : n = m
    · subst same
      rw [if_pos rfl]
      refine iff_of_false gone ?_
      rintro ⟨v, is, live⟩
      cases is
      cases live
    · rw [if_neg same]
      exact short.others m (Ne.symm same)

/-- A request that has just been read has no wrapper. -/
theorem wrapperOf_append {e : Exchange} (fresh : e.wrapper = none) (m : Nat) :
    (c.exchanges ++ [e])[m]?.bind Exchange.wrapper = c.wrapperOf m := by
  unfold wrapperOf
  rcases Nat.lt_or_ge m c.exchanges.length with lt | ge
  · rw [List.getElem?_append_left lt]
  · rw [List.getElem?_append_right ge, List.getElem?_eq_none ge]
    cases here : [e][m - c.exchanges.length]? with
    | none => rfl
    | some x =>
      obtain rfl := List.mem_singleton.1 (List.mem_of_getElem? here)
      exact fresh

/-- Nothing has changed that concerns a wrapper. -/
def Alike (c c' : CHttpConnection) : Prop := c'.refs = c.refs ∧ ∀ m, c'.wrapperOf m = c.wrapperOf m

theorem Alike.rfl : Alike c c := ⟨Eq.refl _, fun _ => Eq.refl _⟩

theorem Counted.alike {c' : CHttpConnection} (counted : Counted c) (alike : Alike c c') : Counted c' :=
  counted.of_same (fun n => by rw [alike.1]) alike.2

/-- A handler of the strand neither takes nor leaves a reference. -/
theorem Performs.alike {c' : CHttpConnection} {task : Task} (performs : Performs c task c') (free : c.todo = none) :
    Alike c c' := by
  cases performs with
  | refuses => exact ⟨rfl, wrapperOf_append rfl⟩
  | asks =>
    refine ⟨?_, wrapperOf_append rfl⟩
    unfold refs
    rw [free]
    rfl
  | closes =>
    unfold doShutdown
    split
    · exact .rfl
    · exact .rfl
  | ends | fails | handshaken | upgrades | reads | sends | throws => exact .rfl

theorem Counted.handle {stage : Stage} (counted : Counted c) (doing : c.todo = some stage) :
    Counted (c.handle stage) := by
  cases stage with
  | nextConnectionId n =>
    refine counted.alike ⟨?_, fun m => wrapperOf_modify_same (n := n) ?_ m⟩
    · unfold refs
      rw [doing]
      rfl
    · exact fun e => rfl
  | findHttpHandler n =>
    simp only [CHttpConnection.handle]
    cases here : c.exchanges[n]? with
    | none => exact counted
    | some e =>
      dsimp only
      split
      · refine counted.alike ⟨?_, fun m => rfl⟩
        unfold refs
        rw [doing]
        rfl
      · next handler _ =>
        have wrappers := wrapperOf_setWrapper (c := { c with todo := some (.postCallback handler n) }) (n := n)
          (by rw [here]; rfl) {}
        intro m
        unfold Held
        rw [wrappers m]
        by_cases same : n = m
        · subst same
          rw [if_pos rfl]
          exact iff_of_true (mem_refs.2 (.inl rfl)) ⟨{}, rfl, rfl⟩
        · rw [if_neg same]
          refine Iff.trans ?_ (counted m)
          rw [mem_refs, mem_refs, doing]
          refine or_congr_left (iff_of_false ?_ nofun)
          exact fun is => same (Option.some.inj is)
  | postCallback handler n =>
    refine counted.of_same (fun m => ?_) fun m => rfl
    simp only [mem_refs, CHttpConnection.handle, doing, Option.bind_some, Stage.wrapper, CWorkQueue.post]
    split
    · exact Iff.rfl
    · simp only [List.filterMap_append, List.mem_append, List.filterMap_cons, List.filterMap_nil, Job.wrapper,
        List.mem_singleton, Option.some.injEq]
      grind
  | leave n =>
    refine Short.release (counted.short ?_ (fun m other => ?_) fun m => rfl)
    · rw [mem_refs, doing]
      exact .inl rfl
    · rw [mem_refs, mem_refs, doing]
      exact or_congr_left (iff_of_false nofun fun is => other (Option.some.inj is).symm)

theorem Counted.reply (counted : Counted c) (n : Nat) : Counted (c.reply n) := by
  unfold CHttpConnection.reply
  cases found : c.wrapperOf n with
  | none => exact counted
  | some w =>
    obtain ⟨e, here, -⟩ := wrapperOf_inv found
    dsimp only
    split
    · exact counted
    · have wrappers := wrapperOf_setWrapper (c := c) (n := n) (by rw [here]; rfl) { w with mResponseSent := true }
      intro m
      refine (counted m).trans ?_
      unfold Held
      change _ ↔ ∃ v, (c.setWrapper n _).wrapperOf m = some v ∧ _
      rw [wrappers m]
      by_cases same : n = m
      · subst same
        rw [if_pos rfl, found]
        simp only [Option.some.injEq, exists_eq_left']
      · rw [if_neg same]

theorem Counted.edit {msg : HttpMsg} (counted : Counted c) (w : CHttpWrapper) :
    Counted (c.modify n fun e => { e with mHttpMsg := msg, late := e.late || !w.alive }) := by
  refine counted.alike ⟨rfl, fun m => wrapperOf_modify_same (n := n) ?_ m⟩
  exact fun e => rfl

/-- What the application can reach is alive. -/
theorem Counted.held_of_reaches (counted : Counted c) (reaches : c.reaches n = true) : c.Held n := by
  refine (counted n).1 (mem_refs.2 ?_)
  simp only [CHttpConnection.reaches, Bool.or_eq_true, decide_eq_true_eq] at reaches
  rcases reaches with running | kept
  · exact .inr (.inr (.inr (.inl running)))
  · exact .inr (.inr (.inr (.inr kept)))

end CHttpConnection

end Websockets
