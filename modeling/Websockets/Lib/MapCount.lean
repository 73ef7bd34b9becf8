import Mathlib

/-!
# Counting the values of an ordered map

How many values of a map satisfy a predicate, and how the number changes when a new key enters
and when a key leaves. Overwriting a key has no such law: it may take away another value.
-/

namespace Lib

open Std

variable {K V : Type} {cmp : K → K → Ordering} [TransCmp cmp] [LawfulEqCmp cmp]

/-- How many values of `m` satisfy `p`. -/
def countValues (m : TreeMap K V cmp) (p : V → Bool) : Nat :=
  m.toList.countP fun e => p e.2

variable {m : TreeMap K V cmp} {k : K} {v : V} {p : V → Bool}

@[simp] theorem countValues_empty : countValues (∅ : TreeMap K V cmp) p = 0 := by
  simp [countValues]

/-- A new key adds its value. -/
theorem countValues_insert (absent : m[k]? = none) (v : V) (p : V → Bool) :
    countValues (m.insert k v) p = countValues m p + if p v then 1 else 0 := by
  classical
  have perm := TreeMap.toList_insert_perm (t := m) (k := k) (v := v)
  have same : m.toList.filter (fun e => decide ¬ (k == e.1) = true) = m.toList := by
    refine List.filter_eq_self.2 fun e mem => ?_
    have present : m[e.1]? = some e.2 := TreeMap.mem_toList_iff_getElem?_eq_some.1 mem
    have other : k ≠ e.1 := fun eq => by rw [← eq, absent] at present; cases present
    simpa using other
  rw [same] at perm
  rw [countValues, perm.countP_eq, List.countP_cons, countValues]

/-- Inserting what was erased gives the map back. -/
theorem insert_erase_equiv (present : m[k]? = some v) : ((m.erase k).insert k v).Equiv m := by
  refine TreeMap.Equiv.of_forall_constGet?_eq fun j => ?_
  rw [TreeMap.getElem?_insert, TreeMap.getElem?_erase]
  split
  · next eq => rw [← LawfulEqCmp.eq_of_compare eq, present]
  · rfl

/-- A key that leaves takes its value away. -/
theorem countValues_erase (present : m[k]? = some v) (p : V → Bool) :
    countValues (m.erase k) p + (if p v then 1 else 0) = countValues m p := by
  have absent : (m.erase k)[k]? = none := by simp
  rw [← countValues_insert absent v p, countValues, countValues, (insert_erase_equiv present).toList_eq]

/-- Some value is counted. -/
theorem countValues_pos : 0 < countValues m p ↔ ∃ (k : K) (v : V), m[k]? = some v ∧ p v = true := by
  rw [countValues, List.countP_pos_iff]
  constructor
  · rintro ⟨⟨k, v⟩, mem, holds⟩
    exact ⟨k, v, TreeMap.mem_toList_iff_getElem?_eq_some.1 mem, holds⟩
  · rintro ⟨k, v, present, holds⟩
    exact ⟨(k, v), TreeMap.mem_toList_iff_getElem?_eq_some.2 present, holds⟩

/-- A key is listed once if it is present. -/
theorem countP_key [DecidableEq K] (m : TreeMap K V cmp) (k : K) :
    m.toList.countP (fun e => e.1 == k) = if m[k]?.isSome then 1 else 0 := by
  have keys : m.toList.countP (fun e => e.1 == k) = m.keys.count k := by
    rw [← TreeMap.map_fst_toList_eq_keys, List.count_eq_countP, List.countP_map]
    rfl
  have nodup : m.keys.Nodup := TreeMap.nodup_keys
  rw [keys, nodup.count]
  simp only [TreeMap.mem_keys, TreeMap.isSome_getElem?_eq_contains, TreeMap.contains_iff_mem]

end Lib
