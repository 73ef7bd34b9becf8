import Mathlib

/-!
# Labelled transition systems

A system is a partial step function: `step s l` is the state after label `l`, or `none` where
`l` is not enabled. A run is a list of labels that `exec` accepts, so a concrete run is checked
by evaluation. Assumptions about the environment are conditions on the steps of a run
(`Along`), properties of every state of a run are `Always`; the rules below carry an
invariant over a whole run, with or without such a condition.
-/

namespace Lib

/-- A transition system over states `S` and labels `L`. -/
structure System (S L : Type) where
  step : S → L → Option S

namespace System

variable {S L : Type} (sys : System S L)

/-- The state after the labels `ls`, or `none` if one of them is not enabled. -/
def exec : S → List L → Option S
  | s, [] => some s
  | s, l :: ls => match sys.step s l with
    | none => none
    | some s' => exec s' ls

/-- `ok` holds of every step of the run `ls` from `s`. -/
def Along (ok : S → L → Prop) : S → List L → Prop
  | _, [] => True
  | s, l :: ls => ok s l ∧ match sys.step s l with
    | none => True
    | some s' => Along ok s' ls

/-- `P` holds in every state of the run `ls` from `s`, both ends included. -/
def Always (P : S → Prop) : S → List L → Prop
  | s, [] => P s
  | s, l :: ls => P s ∧ match sys.step s l with
    | none => True
    | some s' => Always P s' ls

/-- What `f` sees of the steps of the run `ls` from `s`, in order. -/
def collect {E : Type} (f : S → L → Option E) : S → List L → List E
  | _, [] => []
  | s, l :: ls => (f s l).toList ++ match sys.step s l with
    | none => []
    | some s' => collect f s' ls

instance decidableAlong (ok : S → L → Prop) [∀ s l, Decidable (ok s l)] :
    ∀ s ls, Decidable (sys.Along ok s ls)
  | _, [] => .isTrue trivial
  | s, l :: ls =>
    have : Decidable (match sys.step s l with
        | none => True
        | some s' => sys.Along ok s' ls) := match sys.step s l with
      | none => .isTrue trivial
      | some s' => decidableAlong ok s' ls
    inferInstanceAs (Decidable (ok s l ∧ _))

variable {sys} {ok : S → L → Prop} {P : S → Prop} {s s' t : S} {l : L} {ls : List L}

/-- A run goes on after its first step. -/
theorem exec_cons_bind : sys.exec s (l :: ls) = (sys.step s l).bind (sys.exec · ls) := by
  rw [exec]
  cases sys.step s l <;> rfl

theorem exec_cons (step : sys.step s l = some t) : sys.exec s (l :: ls) = sys.exec t ls := by
  rw [exec_cons_bind, step, Option.bind_some]

theorem exec_cons_inv (run : sys.exec s (l :: ls) = some s') :
    ∃ t, sys.step s l = some t ∧ sys.exec t ls = some s' := by
  rw [exec_cons_bind] at run
  exact Option.bind_eq_some_iff.1 run

theorem exec_append (ls' : List L) :
    sys.exec s (ls ++ ls') = (sys.exec s ls).bind (sys.exec · ls') := by
  induction ls generalizing s with
  | nil => rfl
  | cons l ls ih =>
    rw [List.cons_append, exec_cons_bind, exec_cons_bind, Option.bind_assoc]
    exact congrArg _ (funext fun _ => ih)

theorem exec_snoc (run : sys.exec s ls = some t) (step : sys.step t l = some s') :
    sys.exec s (ls ++ [l]) = some s' := by
  rw [exec_append, run, Option.bind_some, exec_cons step]
  rfl

/-- The end of a run that evaluation finds to be one. -/
theorem exec_get (h : (sys.exec s ls).isSome = true) : sys.exec s ls = some ((sys.exec s ls).get h) :=
  (Option.some_get h).symm

theorem along_cons (step : sys.step s l = some t) :
    sys.Along ok s (l :: ls) ↔ ok s l ∧ sys.Along ok t ls := by
  simp only [Along, step]

theorem always_cons (step : sys.step s l = some t) :
    sys.Always P s (l :: ls) ↔ P s ∧ sys.Always P t ls := by
  simp only [Always, step]

theorem along_append {ls' : List L} (run : sys.exec s ls = some s') :
    sys.Along ok s (ls ++ ls') ↔ sys.Along ok s ls ∧ sys.Along ok s' ls' := by
  induction ls generalizing s with
  | nil =>
    cases run
    exact (and_iff_right trivial).symm
  | cons l ls ih =>
    obtain ⟨t, step, rest⟩ := exec_cons_inv run
    rw [List.cons_append, along_cons step, along_cons step, ih rest, and_assoc]

section Collect

variable {E : Type} {f : S → L → Option E}

theorem collect_cons (step : sys.step s l = some t) :
    sys.collect f s (l :: ls) = (f s l).toList ++ sys.collect f t ls := by
  simp only [collect, step]

theorem collect_append {ls' : List L} (run : sys.exec s ls = some s') :
    sys.collect f s (ls ++ ls') = sys.collect f s ls ++ sys.collect f s' ls' := by
  induction ls generalizing s with
  | nil =>
    cases run
    rfl
  | cons l ls ih =>
    obtain ⟨t, step, rest⟩ := exec_cons_inv run
    rw [List.cons_append, collect_cons step, collect_cons step, ih rest, List.append_assoc]

/-- One step more adds what is seen of it. -/
theorem collect_snoc (run : sys.exec s ls = some t) :
    sys.collect f s (ls ++ [l]) = sys.collect f s ls ++ (f t l).toList := by
  rw [collect_append run]
  congr 1
  simp only [collect]
  cases sys.step t l <;> exact List.append_nil _

end Collect

/-- Two conditions on the steps of one run. -/
theorem Along.and {ok' : S → L → Prop} (one : sys.Along ok s ls) (other : sys.Along ok' s ls) :
    sys.Along (fun a l => ok a l ∧ ok' a l) s ls := by
  induction ls generalizing s with
  | nil => trivial
  | cons l ls ih =>
    refine ⟨⟨one.1, other.1⟩, ?_⟩
    have later := one.2
    have later' := other.2
    cases step : sys.step s l with
    | none => trivial
    | some t =>
      simp only [step] at later later'
      exact ih later later'

/-- **Invariant rule.** What holds at the start and is kept by every step the condition
allows holds at the end of every run whose steps all meet the condition. -/
theorem invariant_along (I : S → Prop) (start : I s)
    (keep : ∀ a l b, I a → ok a l → sys.step a l = some b → I b)
    (run : sys.exec s ls = some s') (along : sys.Along ok s ls) : I s' := by
  induction ls generalizing s with
  | nil => cases run; exact start
  | cons l ls ih =>
    obtain ⟨t, step, rest⟩ := exec_cons_inv run
    have next := (along_cons step).1 along
    exact ih (keep s l t start next.1 step) rest next.2

/-- The invariant rule for runs without a condition. -/
theorem invariant (I : S → Prop) (start : I s)
    (keep : ∀ a l b, I a → sys.step a l = some b → I b) (run : sys.exec s ls = some s') : I s' := by
  induction ls generalizing s with
  | nil => cases run; exact start
  | cons l ls ih =>
    obtain ⟨t, step, rest⟩ := exec_cons_inv run
    exact ih (keep s l t start step) rest

/-- The invariant rule for a property of the state and of the run that led to it. -/
theorem invariant_run (I : List L → S → Prop) (start : I [] s)
    (keep : ∀ pre a l b, sys.exec s pre = some a → I pre a → ok a l → sys.step a l = some b → I (pre ++ [l]) b)
    (run : sys.exec s ls = some s') (along : sys.Along ok s ls) : I ls s' := by
  have from_prefix : ∀ pre a, sys.exec s pre = some a → I pre a → sys.exec a ls = some s' → sys.Along ok a ls →
      I (pre ++ ls) s' := by
    clear run along
    induction ls with
    | nil =>
      intro pre a _ holds run _
      cases run
      rw [List.append_nil]
      exact holds
    | cons l ls ih =>
      intro pre a before holds run along
      obtain ⟨b, step, rest⟩ := exec_cons_inv run
      have next := (along_cons step).1 along
      have after := ih (pre ++ [l]) b (exec_snoc before step) (keep pre a l b before holds next.1 step) rest next.2
      rwa [List.append_assoc] at after
  exact from_prefix [] s rfl start run along

/-- The rule for two runs over the same labels: a relation kept by every pair of steps that the two conditions
allow relates the ends. -/
theorem relation_along {S' : Type} {sys' : System S' L} {ok' : S' → L → Prop} {t' : S'} {r : S'}
    (R : S → S' → Prop) (start : R s r)
    (keep : ∀ a a' l b b', R a a' → ok a l → ok' a' l → sys.step a l = some b → sys'.step a' l = some b' → R b b')
    (run : sys.exec s ls = some t) (run' : sys'.exec r ls = some t') (along : sys.Along ok s ls)
    (along' : sys'.Along ok' r ls) : R t t' := by
  induction ls generalizing s r with
  | nil => cases run; cases run'; exact start
  | cons l ls ih =>
    obtain ⟨b, step, rest⟩ := exec_cons_inv run
    obtain ⟨b', step', rest'⟩ := exec_cons_inv run'
    have next := (along_cons step).1 along
    have next' := (along_cons step').1 along'
    exact ih (keep s r l b b' start next.1 next'.1 step step') rest rest' next.2 next'.2

/-- Every run meets the condition that asks nothing. -/
theorem along_true : sys.Along (fun _ _ => True) s ls := by
  induction ls generalizing s with
  | nil => trivial
  | cons l ls ih =>
    refine ⟨trivial, ?_⟩
    cases sys.step s l with
    | none => trivial
    | some t => exact ih

/-- What an invariant and the condition on a step give about the step holds of every step of the run. -/
theorem along_of_invariant {ok' : S → L → Prop} (I : S → Prop) (start : I s)
    (keep : ∀ a l b, I a → ok a l → sys.step a l = some b → I b) (holds : ∀ a l, I a → ok a l → ok' a l)
    (run : sys.exec s ls = some s') (along : sys.Along ok s ls) : sys.Along ok' s ls := by
  induction ls generalizing s with
  | nil => trivial
  | cons l ls ih =>
    obtain ⟨t, step, rest⟩ := exec_cons_inv run
    have next := (along_cons step).1 along
    rw [along_cons step]
    exact ⟨holds s l start next.1, ih (keep s l t start next.1 step) rest next.2⟩

/-- What held before a step if it holds after it has held all along a run that ends in it. -/
theorem along_of_end (back : ∀ a l b, sys.step a l = some b → P b → P a) (run : sys.exec s ls = some s')
    (holds : P s') : P s ∧ sys.Along (fun a _ => P a) s ls := by
  induction ls generalizing s with
  | nil => cases run; exact ⟨holds, trivial⟩
  | cons l ls ih =>
    obtain ⟨t, step, rest⟩ := exec_cons_inv run
    obtain ⟨next, along⟩ := ih rest
    have now := back s l t step next
    exact ⟨now, (along_cons step).2 ⟨now, along⟩⟩

/-- A run all of whose states satisfy `P` is exactly one all of whose steps meet `ok`, when an
invariant that implies `P` is kept by the allowed steps and `P` fails after every other one. -/
theorem always_iff_along (I : S → Prop) (holds : ∀ a, I a → P a) (start : I s)
    (keep : ∀ a l b, I a → ok a l → sys.step a l = some b → I b)
    (fails : ∀ a l b, I a → ¬ ok a l → sys.step a l = some b → ¬ P b)
    (run : sys.exec s ls = some s') : sys.Always P s ls ↔ sys.Along ok s ls := by
  induction ls generalizing s with
  | nil => exact ⟨fun _ => trivial, fun _ => holds s start⟩
  | cons l ls ih =>
    obtain ⟨t, step, rest⟩ := exec_cons_inv run
    rw [always_cons step, along_cons step]
    by_cases allowed : ok s l
    · have tail := ih (keep s l t start allowed step) rest
      exact ⟨fun h => ⟨allowed, tail.1 h.2⟩, fun h => ⟨holds s start, tail.2 h.2⟩⟩
    · refine ⟨fun h => absurd ?_ (fails s l t start allowed step), fun h => absurd h.1 allowed⟩
      cases ls with
      | nil => exact h.2
      | cons l' ls => exact h.2.1

section Refinement

variable {S' L' : Type} {sys' : System S' L'} {abs : S → S'} {see : S → L → Option L'}

/-- **Refinement rule.** Where every allowed step is a step of a coarser system or is not seen there, every run of them is a
run of it. -/
theorem exec_collect (I : S → Prop) (start : I s) (keep : ∀ a l b, I a → ok a l → sys.step a l = some b → I b)
    (matched : ∀ a l b, I a → ok a l → sys.step a l = some b → sys'.exec (abs a) (see a l).toList = some (abs b))
    (run : sys.exec s ls = some s') (along : sys.Along ok s ls) :
    sys'.exec (abs s) (sys.collect see s ls) = some (abs s') := by
  induction ls generalizing s with
  | nil => cases run; rfl
  | cons l ls ih =>
    obtain ⟨t, step, rest⟩ := exec_cons_inv run
    have next := (along_cons step).1 along
    rw [collect_cons step, exec_append, matched s l t start next.1 step]
    exact ih (keep s l t start next.1 step) rest next.2

end Refinement

section Rank

variable (sys ok)

/-- However the allowed steps from `s` are ordered, there are at most `bound` of them, and they do not run out
before the goal. -/
def Inevitable (goal : S → Prop) (s : S) : Prop :=
  ∃ bound, ∀ ls s', sys.exec s ls = some s' → sys.Along ok s ls →
    ls.length ≤ bound ∧ (goal s' ∨ ∃ l t, ok s' l ∧ sys.step s' l = some t)

variable {sys ok} {goal : S → Prop}

/-- A run whose steps all shrink a rank is not longer than the rank. -/
theorem length_le_rank (I : S → Prop) (rank : S → Nat) (start : I s)
    (keep : ∀ a l b, I a → ok a l → sys.step a l = some b → I b)
    (shrinks : ∀ a l b, I a → ok a l → sys.step a l = some b → rank b < rank a)
    (run : sys.exec s ls = some s') (along : sys.Along ok s ls) : ls.length + rank s' ≤ rank s := by
  induction ls generalizing s with
  | nil => cases run; simp
  | cons l ls ih =>
    obtain ⟨t, step, rest⟩ := exec_cons_inv run
    have next := (along_cons step).1 along
    have shorter := ih (keep s l t start next.1 step) rest next.2
    have less := shrinks s l t start next.1 step
    simp only [List.length_cons]
    omega

/-- **Rank rule.** A goal is inevitable if every allowed step shrinks a rank and some step is allowed until the goal
is reached. -/
theorem inevitable_of_rank (I : S → Prop) (rank : S → Nat) (start : I s)
    (keep : ∀ a l b, I a → ok a l → sys.step a l = some b → I b)
    (shrinks : ∀ a l b, I a → ok a l → sys.step a l = some b → rank b < rank a)
    (progress : ∀ a, I a → goal a ∨ ∃ l b, ok a l ∧ sys.step a l = some b) : sys.Inevitable ok goal s := by
  refine ⟨rank s, fun ls s' run along => ⟨?_, ?_⟩⟩
  · have := length_le_rank I rank start keep shrinks run along
    omega
  · exact progress s' (invariant_along I start keep run along)

end Rank

end System

end Lib
