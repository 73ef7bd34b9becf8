import Websockets.Lib.Tasks

/-!
# Stopping a serial owner once

A worker gets operations until a flag stops it. The flag is set by an action that at most one operation ever
performs, the first to set another flag; that operation then waits until the worker is idle. When it has
finished, the worker is idle for good.
-/

namespace Lib

/-- What the rules speak about: the worker, the two flags, the actions that set the second one, that of them
which leaves a wait, and the wait. -/
structure Stoppable (σ O A : Type) where
  worker : O
  down : σ → Bool
  stopped : σ → Bool
  stops : A → Bool
  stop : A
  wait : A
  stops_stop : stops stop = true

namespace Stoppable

variable {σ O A : Type} (P : Stoppable σ O A)

/-- What an action does about the stop. -/
inductive Stops (s : σ) (a : A) (s' : σ) (outs : List A) : Prop
  | keeps (other : P.stops a = false) (down : P.down s' = P.down s) (stopped : P.stopped s' = P.stopped s)
      (none : outs.countP P.stops = 0)
  | shuts (other : P.stops a = false) (up : P.down s = false) (down : P.down s' = true)
      (stopped : P.stopped s' = P.stopped s) (one : outs.countP P.stops ≤ 1)
  | again (already : P.stopped s = true) (down : P.down s' = P.down s) (stopped : P.stopped s' = true)
      (none : outs.countP P.stops = 0)
  | sets (this : P.stops a = true) (running : P.stopped s = false) (down : P.down s' = P.down s) (stopped : P.stopped s' = true)
      (none : outs.countP P.stops = 0) (waits : a = P.stop → P.wait ∈ outs)

/-- A step of a system that obeys the protocol. -/
inductive Step [DecidableEq O] (c c' : Tasks σ O A) : Prop
  | ran {exec i o a rest outs} (ran : Tasks.Ran exec c i c' o a rest outs) (stops : P.Stops c.shared a c'.shared outs)
      (waits : a = P.wait → c.idle P.worker = true)
  | begins {s' o todo} (after : c' = Tasks.spawn { c with shared := s' } o todo) (down : P.down s' = P.down c.shared)
      (stopped : P.stopped s' = P.stopped c.shared) (none : todo.countP P.stops = 0)
      (running : o = P.worker → P.stopped c.shared = false)
  | changes {s'} (after : c' = { c with shared := s' }) (down : P.down s' = P.down c.shared)
      (stopped : P.stopped s' = P.stopped c.shared)

/-- At most one action sets the flag. -/
def Once (c : Tasks σ O A) : Prop := c.count P.stops + (P.stopped c.shared).toNat ≤ (P.down c.shared).toNat

/-- The worker is stopped and idle. -/
structure Silenced [DecidableEq O] (c : Tasks σ O A) : Prop where
  stopped : P.stopped c.shared = true
  idle : c.idle P.worker = true

/-- How far operation `i` has got. -/
inductive Stopping [DecidableEq O] (c : Tasks σ O A) (i : Nat) : Prop
  | toStop {q} (pending : c.At i q P.stop)
  | toWait {q} (pending : c.At i q P.wait) (stopped : P.stopped c.shared = true)
  | silenced (silenced : P.Silenced c)

theorem none_one {b : A} (other : P.stops b = false) : [b].countP P.stops = 0 := by
  rw [List.countP_cons_of_neg (by rw [other]; decide)]
  rfl

theorem none_map {B : Type} {f : B → A} (other : ∀ b, P.stops (f b) = false) (bs : List B) :
    (bs.map f).countP P.stops = 0 := by
  rw [List.countP_eq_zero]
  intro b mem
  obtain ⟨x, -, rfl⟩ := List.mem_map.1 mem
  rw [other x]
  decide

variable {P} {s s' : σ} {a : A} {outs : List A} {c c' : Tasks σ O A}

theorem Stops.stopped_kept (stops : P.Stops s a s' outs) (stopped : P.stopped s = true) : P.stopped s' = true := by
  cases stops with
  | keeps other down same none => exact same.trans stopped
  | shuts other up down same one => exact same.trans stopped
  | again already down now none => exact now
  | sets this running down now none waits => exact now

section Steps

variable [DecidableEq O]

theorem Step.once (step : P.Step c c') (once : P.Once c) : P.Once c' := by
  unfold Once at once ⊢
  cases step with
  | ran ran stops waits =>
    have moved := ran.count P.stops
    cases stops with
    | keeps other down stopped none =>
      rw [down, stopped]
      rw [other, none] at moved
      simp only [Bool.false_eq_true, if_false] at moved
      omega
    | shuts other up down stopped one =>
      rw [up] at once
      rw [down, stopped]
      rw [other] at moved
      simp only [Bool.false_eq_true, if_false] at moved
      simp only [Bool.toNat_false, Bool.toNat_true] at once ⊢
      omega
    | again already down stopped none =>
      rw [already] at once
      rw [down, stopped]
      omega
    | sets this running down stopped none waits =>
      rw [running] at once
      rw [down, stopped]
      rw [if_pos this, none] at moved
      simp only [Bool.toNat_false, Bool.toNat_true] at once ⊢
      omega
  | begins after down stopped none running =>
    subst after
    rw [Tasks.count_spawn, none]
    simp only [Tasks.spawn, down, stopped]
    exact once
  | changes after down stopped =>
    subst after
    simp only [down, stopped]
    exact once

theorem Step.silenced (step : P.Step c c') (sil : P.Silenced c) : P.Silenced c' := by
  cases step with
  | ran ran stops waits => exact ⟨stops.stopped_kept sil.stopped, ran.idle_kept sil.idle⟩
  | begins after down stopped none running =>
    subst after
    refine ⟨stopped.trans sil.stopped, Tasks.idle_spawn_other sil.idle fun same => ?_⟩
    exact absurd (sil.stopped.symm.trans (running same)) (by decide)
  | changes after down stopped =>
    subst after
    exact ⟨stopped.trans sil.stopped, sil.idle⟩

/-- **A step towards the stop.** -/
theorem Step.stopping {i : Nat} (step : P.Step c c') (once : P.Once c) (stopping : P.Stopping c i) :
    P.Stopping c' i := by
  cases stopping with
  | silenced sil => exact .silenced (step.silenced sil)
  | toStop pending =>
    cases step with
    | ran ran stops waits =>
      rcases ran.at_or pending with later | ⟨rfl, performed⟩
      · exact .toStop later
      · -- the flag is set by this very action
        have counted := Tasks.count_pos pending P.stops_stop
        cases stops with
        | keeps other => exact absurd (P.stops_stop.symm.trans (performed ▸ other)) (by decide)
        | shuts other => exact absurd (P.stops_stop.symm.trans (performed ▸ other)) (by decide)
        | again already =>
          unfold Once at once
          have bound := Bool.toNat_le (P.down c.shared)
          rw [already, Bool.toNat_true] at once
          omega
        | sets this running down stopped none left => exact .toWait (ran.at_new (left performed.symm)) stopped
    | begins after down stopped none running =>
      subst after
      exact .toStop (Tasks.at_spawn.2 (.inl pending))
    | changes after down stopped =>
      subst after
      exact .toStop pending
  | toWait pending isStopped =>
    cases step with
    | ran ran stops waits =>
      rcases ran.at_or pending with later | ⟨rfl, performed⟩
      · exact .toWait later (stops.stopped_kept isStopped)
      · exact .silenced ⟨stops.stopped_kept isStopped, ran.idle_kept (waits performed.symm)⟩
    | begins after down stopped none running =>
      subst after
      exact .toWait (Tasks.at_spawn.2 (.inl pending)) (stopped.trans isStopped)
    | changes after down stopped =>
      subst after
      exact .toWait pending (stopped.trans isStopped)

/-- When the operation has finished the worker is silenced. -/
theorem Stopping.of_finished {i : Nat} (stopping : P.Stopping c i) (past : c.finished i) : P.Silenced c := by
  cases stopping with
  | toStop pending => exact absurd pending (Tasks.not_at_of_finished past)
  | toWait pending isStopped => exact absurd pending (Tasks.not_at_of_finished past)
  | silenced sil => exact sil

end Steps

end Stoppable

end Lib
