import Mathlib

/-!
# The longest of the lists with a property

A fold that keeps the longest list seen so far, the first one among those of the same length. Where all
candidates begin one list, two of the same length are equal, and so the result is the same in any order.
-/

namespace Lib

variable {α : Type} {p : List α → Bool} {best whole : List α} {candidates others : List (List α)}

/-- The longest of `best` and the candidates with the property. -/
def longestFrom (p : List α → Bool) (best : List α) (candidates : List (List α)) : List α :=
  candidates.foldl (fun best x => if p x && best.length < x.length then x else best) best

theorem longestFrom_cons (x : List α) :
    longestFrom p best (x :: candidates) =
      longestFrom p (if p x && best.length < x.length then x else best) candidates := rfl

/-- It is one of them. -/
theorem longestFrom_mem (p : List α → Bool) (best : List α) (candidates : List (List α)) :
    longestFrom p best candidates = best ∨ longestFrom p best candidates ∈ candidates ∧ p (longestFrom p best candidates) = true := by
  induction candidates generalizing best with
  | nil => exact .inl rfl
  | cons x candidates ih =>
    rw [longestFrom_cons]
    split
    · next longer =>
      rcases ih x with same | ⟨mem, holds⟩
      · refine .inr ⟨by rw [same]; exact List.mem_cons_self, ?_⟩
        rw [same]
        exact (Bool.and_eq_true_iff.1 longer).1
      · exact .inr ⟨List.mem_cons_of_mem _ mem, holds⟩
    · exact (ih best).imp_right fun found => ⟨List.mem_cons_of_mem _ found.1, found.2⟩

/-- It is no shorter than the one it started from, -/
theorem longestFrom_start : best.length ≤ (longestFrom p best candidates).length := by
  induction candidates generalizing best with
  | nil => exact Nat.le_refl _
  | cons x candidates ih =>
    rw [longestFrom_cons]
    split
    · next longer =>
      have less : best.length < x.length := by simpa using (Bool.and_eq_true_iff.1 longer).2
      exact Nat.le_trans (Nat.le_of_lt less) ih
    · exact ih

/-- and no shorter than any candidate. -/
theorem longestFrom_length (best : List α) {x : List α} (mem : x ∈ candidates) (holds : p x = true) :
    x.length ≤ (longestFrom p best candidates).length := by
  induction candidates generalizing best with
  | nil => cases mem
  | cons y candidates ih =>
    rw [longestFrom_cons]
    rcases List.mem_cons.1 mem with rfl | later
    · refine Nat.le_trans ?_ longestFrom_start
      split
      · exact Nat.le_refl _
      · next shorter =>
        rw [holds, Bool.true_and, decide_eq_true_eq] at shorter
        omega
    · exact ih _ later

/-- From the empty list, it is empty exactly if no candidate has the property. -/
theorem longestFrom_eq_nil (proper : p [] = false) :
    longestFrom p [] candidates = [] ↔ ∀ x ∈ candidates, p x = false := by
  constructor
  · intro empty x mem
    by_contra holds
    have bound := longestFrom_length [] mem (by simpa using holds)
    rw [empty, List.length_nil, Nat.le_zero, List.length_eq_zero_iff] at bound
    exact holds (bound ▸ proper)
  · intro none
    refine (longestFrom_mem p [] candidates).resolve_right ?_
    rintro ⟨mem, holds⟩
    exact absurd (none _ mem) (by simp [holds])

/-- Candidates that begin one list begin the longest of them. -/
theorem longestFrom_prefix (begins : ∀ x, p x = true → x <+: whole) {x : List α}
    (mem : x ∈ candidates) (holds : p x = true) : x <+: longestFrom p [] candidates := by
  have longer := longestFrom_length [] mem holds
  have found : longestFrom p [] candidates <+: whole := by
    rcases longestFrom_mem p [] candidates with empty | ⟨-, matching⟩
    · rw [empty]
      exact List.nil_prefix
    · exact begins _ matching
  exact List.prefix_of_prefix_length_le (begins x holds) found longer

/-- So the order of the candidates does not matter, nor do those without the property. -/
theorem longestFrom_congr (begins : ∀ x, p x = true → x <+: whole)
    (same : ∀ x, p x = true → (x ∈ candidates ↔ x ∈ others)) :
    longestFrom p [] candidates = longestFrom p [] others := by
  have half : ∀ {xs ys : List (List α)}, (∀ x, p x = true → x ∈ xs → x ∈ ys) →
      longestFrom p [] xs <+: longestFrom p [] ys := by
    intro xs ys sub
    rcases longestFrom_mem p [] xs with empty | ⟨mem, holds⟩
    · rw [empty]
      exact List.nil_prefix
    · exact longestFrom_prefix begins (sub _ holds mem) holds
  have forth := half fun x holds => (same x holds).1
  have back := half fun x holds => (same x holds).2
  exact forth.eq_of_length_le back.length_le

end Lib
