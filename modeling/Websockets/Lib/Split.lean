import Mathlib

/-!
# Splitting a list at a separator

`List.splitOn` cuts at every separator, `takeWhile` and `dropWhile` at the first one. A list is found
back from its pieces, so one list of pieces begins another exactly if the lists do, up to a separator.
-/

namespace Lib

variable {α : Type} {a : α} {xs ys : List α}

theorem intercalate_append {sep : List α} {pieces more : List (List α)} (some : pieces ≠ []) (others : more ≠ []) :
    sep.intercalate (pieces ++ more) = sep.intercalate pieces ++ sep ++ sep.intercalate more := by
  induction pieces with
  | nil => exact absurd rfl some
  | cons piece pieces ih =>
    cases pieces with
    | nil =>
      rw [List.singleton_append, List.intercalate_cons_of_ne_nil others, List.intercalate_singleton]
    | cons next pieces =>
      rw [List.cons_append, List.intercalate_cons_of_ne_nil (by simp), ih (List.cons_ne_nil _ _),
        List.intercalate_cons_cons]
      simp only [List.append_assoc]

variable [BEq α] [LawfulBEq α]

/-- What stands before the first separator. -/
theorem takeWhile_before {rest : List α} (free : a ∉ xs) :
    (xs ++ a :: rest).takeWhile (· != a) = xs := by
  rw [List.takeWhile_append_of_pos]
  · simp
  · intro x mem
    exact bne_iff_ne.2 fun eq => free (eq ▸ mem)

/-- What stands after it. -/
theorem dropWhile_before {rest : List α} (free : a ∉ xs) :
    (xs ++ a :: rest).dropWhile (· != a) = a :: rest := by
  rw [List.dropWhile_append_of_pos]
  · simp
  · intro x mem
    exact bne_iff_ne.2 fun eq => free (eq ▸ mem)

theorem takeWhile_free (free : a ∉ xs) : xs.takeWhile (· != a) = xs :=
  List.takeWhile_eq_self_iff.2 fun _ mem => bne_iff_ne.2 fun eq => free (eq ▸ mem)

theorem dropWhile_free (free : a ∉ xs) : xs.dropWhile (· != a) = [] :=
  List.dropWhile_eq_nil_iff.2 fun _ mem => bne_iff_ne.2 fun eq => free (eq ▸ mem)

/-- Different lists have different pieces. -/
theorem splitOn_injective (same : xs.splitOn a = ys.splitOn a) : xs = ys := by
  have joined := congrArg (List.intercalate [a]) same
  rwa [List.intercalate_splitOn, List.intercalate_splitOn] at joined

/-- The pieces of `xs` begin those of `ys` exactly if `ys` is `xs` or goes on with a separator. -/
theorem splitOn_prefix : xs.splitOn a <+: ys.splitOn a ↔ ys = xs ∨ ∃ rest, ys = xs ++ a :: rest := by
  constructor
  · rintro ⟨more, split⟩
    cases more with
    | nil =>
      rw [List.append_nil] at split
      exact .inl (splitOn_injective split.symm)
    | cons piece more =>
      refine .inr ⟨[a].intercalate (piece :: more), ?_⟩
      have joined := congrArg (List.intercalate [a]) split
      rw [List.intercalate_splitOn, intercalate_append (List.splitOn_ne_nil a xs) (List.cons_ne_nil _ _),
        List.intercalate_splitOn] at joined
      rw [← joined, List.append_assoc, List.singleton_append]
  · rintro (rfl | ⟨rest, rfl⟩)
    · exact List.prefix_refl _
    · rw [List.splitOn_append_cons_self]
      exact List.prefix_append _ _

end Lib
