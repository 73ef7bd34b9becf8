import Mathlib

/-!
# Computations that record their calls

A value together with the calls of partial operations made on the way to it, in order. `Returns` says under which
condition every call meets its precondition, and what the value then is; its rules follow the computation, so that
each call is judged with what the calls before it returned.
-/

namespace Lib

/-- A value and the calls made to compute it. -/
structure Traced (E α : Type) where
  value : α
  calls : List E

namespace Traced

variable {E α β : Type}

instance : Monad (Traced E) where
  pure a := ⟨a, []⟩
  bind x f := ⟨(f x.value).value, x.calls ++ (f x.value).calls⟩

/-- A single call, and what it returns. -/
def call (e : E) (a : α) : Traced E α := ⟨a, [e]⟩

/-- Every call made meets `p`. -/
def Meets (p : E → Prop) (x : Traced E α) : Prop := ∀ e ∈ x.calls, p e

instance (p : E → Prop) [DecidablePred p] (x : Traced E α) : Decidable (x.Meets p) :=
  inferInstanceAs (Decidable (∀ e ∈ x.calls, p e))

/-- The calls meet `p` exactly under `pre`, and then the value is `a`. -/
structure Returns (p : E → Prop) (x : Traced E α) (pre : Prop) (a : α) : Prop where
  meets : x.Meets p ↔ pre
  value : pre → x.value = a

variable {p : E → Prop} {x : Traced E α} {f : α → Traced E β} {a : α} {b : β} {e : E} {pre pre' post : Prop}

theorem meets_bind : (x >>= f).Meets p ↔ x.Meets p ∧ (f x.value).Meets p := List.forall_mem_append

theorem Returns.pure : Returns p (Pure.pure a) True a :=
  ⟨iff_of_true (List.forall_mem_nil p) trivial, fun _ => rfl⟩

theorem Returns.call : Returns p (Traced.call e a) (p e) a := ⟨List.forall_mem_singleton, fun _ => rfl⟩

/-- The condition up to equivalence. -/
theorem Returns.iff (returns : Returns p x pre a) (same : pre ↔ pre') : Returns p x pre' a :=
  ⟨returns.meets.trans same, fun holds => returns.value (same.2 holds)⟩

/-- **Bind rule.** -/
theorem Returns.bind (first : Returns p x pre a) (next : pre → Returns p (f a) post b) :
    Returns p (x >>= f) (pre ∧ post) b := by
  constructor
  · rw [meets_bind, first.meets]
    refine and_congr_right fun holds => ?_
    rw [first.value holds]
    exact (next holds).meets
  · rintro ⟨holds, later⟩
    show (f x.value).value = b
    rw [first.value holds]
    exact (next holds).value later

/-- The bind rule behind a call that is always allowed. -/
theorem Returns.then (first : Returns p x True a) (next : Returns p (f a) post b) : Returns p (x >>= f) post b :=
  (first.bind fun _ => next).iff (iff_of_eq (true_and post))

/-- What is made of the value at the end. -/
theorem Returns.map {g : α → β} (returns : Returns p x pre a) : Returns p (x >>= fun v => Pure.pure (g v)) pre (g a) := by
  have last : pre → Returns p (Pure.pure (g a)) True (g a) := fun _ => Returns.pure
  exact (returns.bind last).iff (iff_of_eq (and_true pre))

end Traced

end Lib
