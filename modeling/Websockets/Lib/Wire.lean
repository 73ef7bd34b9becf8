import Mathlib

/-!
# Reliable channels that may be cut

What is put into a wire comes out of it once and in order. A cut may come at any point: of what is on its way
only a beginning still arrives, and nothing that is put in later. A queue that can be stopped is such a wire,
too. `passed` records history: everything that has come out.
-/

namespace Lib

structure Wire (α : Type) where
  passed : List α := []
  transit : List α := []
  isCut : Bool := false
  deriving DecidableEq

namespace Wire

variable {α β : Type}

def put (w : Wire α) (xs : List α) : Wire α :=
  if w.isCut then w else { w with transit := w.transit ++ xs }

/-- What comes out next is `x`. -/
def take [DecidableEq α] (w : Wire α) (x : α) : Option (Wire α) :=
  if w.transit.head? = some x then some { w with passed := w.passed ++ [x], transit := w.transit.tail } else none

/-- Only `n` of those on their way still arrive. -/
def cut (w : Wire α) (n : Nat) : Wire α := { w with transit := w.transit.take n, isCut := true }

/-- Of everything put in, what came out and what is on its way; nothing else is missing before a cut. -/
structure Carries (w : Wire α) (sent : List α) : Prop where
  inOrder : w.passed ++ w.transit <+: sent
  whole : w.isCut = false → w.passed ++ w.transit = sent

variable {w w' : Wire α} {sent xs : List α} {x : α}

theorem carries_empty : Carries ({} : Wire α) [] := ⟨List.prefix_refl _, fun _ => rfl⟩

theorem Carries.passed_prefix (carries : w.Carries sent) : w.passed <+: sent :=
  (List.prefix_append _ _).trans carries.inOrder

theorem Carries.put (carries : w.Carries sent) (xs : List α) : (w.put xs).Carries (sent ++ xs) := by
  unfold Wire.put
  split
  · next isCut => exact ⟨carries.inOrder.trans (List.prefix_append _ _), fun running => nomatch isCut.symm.trans running⟩
  · next running =>
    have whole : w.passed ++ (w.transit ++ xs) = sent ++ xs := by
      rw [← carries.whole (Bool.eq_false_iff.2 running), List.append_assoc]
    exact ⟨whole ▸ List.prefix_refl _, fun _ => whole⟩

theorem take_inv [DecidableEq α] (taken : w.take x = some w') :
    w.transit = x :: w'.transit ∧ w'.passed = w.passed ++ [x] ∧ w'.isCut = w.isCut := by
  unfold take at taken
  split at taken
  · next front =>
    cases taken
    obtain ⟨rest, transit⟩ := List.head?_eq_some_iff.1 front
    exact ⟨by rw [transit]; rfl, rfl, rfl⟩
  · cases taken

/-- Nothing is lost when the front of what is on its way comes out. -/
theorem Carries.of_same (carries : w.Carries sent) (same : w'.passed ++ w'.transit = w.passed ++ w.transit)
    (isCut : w'.isCut = w.isCut) : w'.Carries sent := by
  refine ⟨same ▸ carries.inOrder, fun running => ?_⟩
  rw [same]
  exact carries.whole (isCut ▸ running)

theorem Carries.take [DecidableEq α] (carries : w.Carries sent) (taken : w.take x = some w') : w'.Carries sent := by
  obtain ⟨transit, passed, isCut⟩ := take_inv taken
  refine carries.of_same ?_ isCut
  rw [passed, transit, List.append_assoc]
  rfl

theorem Carries.cut (carries : w.Carries sent) (n : Nat) : (w.cut n).Carries sent := by
  refine ⟨List.IsPrefix.trans ?_ carries.inOrder, fun running => nomatch running⟩
  exact (List.prefix_append_right_inj _).2 (List.take_prefix _ _)

end Wire

end Lib
