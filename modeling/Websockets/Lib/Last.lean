import Mathlib

/-!
# The last entry of a history that matters

What a history last said about something, where `f` says which entries are about it and what they say.
-/

namespace Lib

variable {A B : Type} {f : A → Option B} {log new : List A} {e : A} {b : B}

/-- What the last entry that `f` sees says. -/
def lastOf (f : A → Option B) (log : List A) : Option B := (log.filterMap f).getLast?

@[simp] theorem lastOf_nil : lastOf f ([] : List A) = none := rfl

/-- An entry that is seen is the last. -/
theorem lastOf_seen (seen : f e = some b) : lastOf f (log ++ [e]) = some b := by
  unfold lastOf
  rw [List.filterMap_append, List.filterMap_cons_some seen, List.filterMap_nil, List.getLast?_concat]

/-- Entries that are not seen do not matter. -/
theorem lastOf_unseen (unseen : ∀ e ∈ new, f e = none) : lastOf f (log ++ new) = lastOf f log := by
  have none : new.filterMap f = [] := List.filterMap_eq_nil_iff.2 unseen
  unfold lastOf
  rw [List.filterMap_append, none, List.append_nil]

theorem lastOf_unseen_one (unseen : f e = none) : lastOf f (log ++ [e]) = lastOf f log :=
  lastOf_unseen fun e' mem => by rw [List.mem_singleton.1 mem, unseen]

/-- The last entry is one of them. -/
theorem mem_of_lastOf (last : lastOf f log = some b) : ∃ e ∈ log, f e = some b :=
  List.mem_filterMap.1 (List.mem_of_getLast? last)

/-- Histories of which the same is seen. -/
theorem lastOf_congr {A' : Type} {f' : A' → Option B} {log' : List A'}
    (same : log.filterMap f = log'.filterMap f') : lastOf f log = lastOf f' log' := by
  unfold lastOf
  rw [same]

end Lib
