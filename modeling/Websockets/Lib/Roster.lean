import Mathlib.Data.Set.Card
import Mathlib.Logic.Function.Basic

/-!
# A roster

Parties of type `S` join a roster under ids of type `I`, with attributes of type `A`, and leave it again. An id is
given out once and a party joins once. The roster remembers which ids were given out and who has joined; what it
says about the present follows from its members.
-/

namespace Lib

/-- Who is on it, under which id, and what has been used up. -/
structure Roster (I S A : Type) where
  members : I → Option (S × A) := fun _ => none
  drawn : Set I := ∅
  joined : Set S := ∅

namespace Roster

variable {I S A : Type} [DecidableEq I] {r : Roster I S A} {id id' : I} {s : S} {a : A} {m : S × A}

/-- An id is given out. -/
def draw (r : Roster I S A) (id : I) : Roster I S A := { r with drawn := insert id r.drawn }

/-- A party joins under an id, which is given out for it. -/
def join (r : Roster I S A) (id : I) (s : S) (a : A) : Roster I S A where
  members := Function.update r.members id (some (s, a))
  drawn := insert id r.drawn
  joined := insert s r.joined

def leave (r : Roster I S A) (id : I) : Roster I S A := { r with members := Function.update r.members id none }

/-- Everybody leaves. -/
def clear (r : Roster I S A) : Roster I S A := { r with members := fun _ => none }

/-- The ids of the members whose attributes satisfy `p`. -/
def those (r : Roster I S A) (p : A → Prop) : Set I := { id | ∃ s a, r.members id = some (s, a) ∧ p a }

/-- Members have drawn their ids and joined, each under one id. -/
structure Sound (r : Roster I S A) : Prop where
  drawn : ∀ id s a, r.members id = some (s, a) → id ∈ r.drawn
  joined : ∀ id s a, r.members id = some (s, a) → s ∈ r.joined
  single : ∀ id id' s a a', r.members id = some (s, a) → r.members id' = some (s, a') → id = id'

theorem join_members : (r.join id s a).members id' = if id' = id then some (s, a) else r.members id' := by
  simp only [join, Function.update_apply]

theorem leave_members : (r.leave id).members id' = if id' = id then none else r.members id' := by
  simp only [leave, Function.update_apply]

omit [DecidableEq I] in
theorem sound_empty : Sound ({} : Roster I S A) := ⟨by simp, by simp, by simp⟩

omit [DecidableEq I] in
theorem Sound.draw (sound : r.Sound) (id : I) : (r.draw id).Sound :=
  ⟨fun id' s a h => Set.mem_insert_of_mem id (sound.drawn id' s a h), sound.joined, sound.single⟩

omit [DecidableEq I] in
theorem sound_clear (r : Roster I S A) : r.clear.Sound := ⟨by simp [clear], by simp [clear], by simp [clear]⟩

theorem Sound.leave (sound : r.Sound) (id : I) : (r.leave id).Sound := by
  have before {id' m} (h : (r.leave id).members id' = some m) : r.members id' = some m := by
    rw [leave_members] at h
    split at h
    · cases h
    · exact h
  exact ⟨fun id' s a h => sound.drawn id' s a (before h), fun id' s a h => sound.joined id' s a (before h),
    fun i j s a a' h h' => sound.single i j s a a' (before h) (before h')⟩

/-- A new party under a new id. -/
theorem Sound.join (sound : r.Sound) (newcomer : s ∉ r.joined) : (r.join id s a).Sound := by
  have who {id' m} (h : (r.join id s a).members id' = some m) : id' = id ∧ m = (s, a) ∨ r.members id' = some m := by
    rw [join_members] at h
    split at h
    · next same => exact .inl ⟨same, (Option.some.inj h).symm⟩
    · exact .inr h
  refine ⟨fun id' s' a' h => ?_, fun id' s' a' h => ?_, fun i j s' a' a'' h h' => ?_⟩
  · rcases who h with ⟨rfl, -⟩ | old
    · exact Set.mem_insert _ _
    · exact Set.mem_insert_of_mem _ (sound.drawn _ _ _ old)
  · rcases who h with ⟨-, same⟩ | old
    · cases same
      exact Set.mem_insert _ _
    · exact Set.mem_insert_of_mem _ (sound.joined _ _ _ old)
  · rcases who h with ⟨rfl, same⟩ | old <;> rcases who h' with ⟨rfl, same'⟩ | old'
    · rfl
    · cases same
      exact absurd (sound.joined _ _ _ old') newcomer
    · cases same'
      exact absurd (sound.joined _ _ _ old) newcomer
    · exact sound.single i j s' a' a'' old old'

end Roster

end Lib
