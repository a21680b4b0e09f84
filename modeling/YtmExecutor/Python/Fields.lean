/-
Dictionaries with texts for keys.

A dictionary is the list of its fields in the order they were first written in.  Writing
a field over one of the same key keeps its place, and where the keys are different the
order does not matter for what is found.
-/
import Mathlib.Data.List.Basic

namespace Python

variable {α : Type}

/-- Write a field over the one of the same key, or else at the end. -/
def setField : List (String × α) → String → α → List (String × α)
  | [], key, v => [(key, v)]
  | (k, w) :: rest, key, v => if k = key then (k, v) :: rest else (k, w) :: setField rest key v

theorem lookup_cons (k key : String) (w : α) (rest : List (String × α)) :
    ((k, w) :: rest).lookup key = if key = k then some w else rest.lookup key := by
  rw [List.lookup_cons]
  by_cases h : key = k
  · rw [if_pos h, beq_iff_eq.mpr h]
  · rw [if_neg h, beq_eq_false_iff_ne.mpr h]

theorem lookup_setField (fields : List (String × α)) (key other : String) (v : α) :
    (setField fields key v).lookup other =
      if other = key then some v else fields.lookup other := by
  induction fields with
  | nil => rw [setField, lookup_cons]
  | cons field rest ih =>
      obtain ⟨k, w⟩ := field
      rw [setField]
      by_cases hk : k = key
      · subst hk
        rw [if_pos rfl, lookup_cons, lookup_cons]
        by_cases h : other = k
        · rw [if_pos h, if_pos h]
        · rw [if_neg h, if_neg h, if_neg h]
      · rw [if_neg hk, lookup_cons, lookup_cons, ih]
        by_cases h : other = k
        · rw [if_pos h, if_pos h, if_neg fun heq => hk (h ▸ heq)]
        · rw [if_neg h, if_neg h]

theorem mem_setField {fields : List (String × α)} {key : String} {v : α} {field : String × α}
    (h : field ∈ setField fields key v) : field ∈ fields ∨ field = (key, v) := by
  induction fields with
  | nil => exact Or.inr (List.mem_singleton.mp h)
  | cons first rest ih =>
      obtain ⟨k, w⟩ := first
      rw [setField] at h
      split at h
      · rename_i hk
        rcases List.mem_cons.mp h with rfl | h
        · exact Or.inr (by rw [hk])
        · exact Or.inl (List.mem_cons_of_mem _ h)
      · rcases List.mem_cons.mp h with rfl | h
        · exact Or.inl List.mem_cons_self
        · exact (ih h).imp (List.mem_cons_of_mem _) id

theorem setField_keys_nodup {fields : List (String × α)} {key : String} {v : α}
    (h : (fields.map Prod.fst).Nodup) : ((setField fields key v).map Prod.fst).Nodup := by
  induction fields with
  | nil => simp [setField]
  | cons first rest ih =>
      obtain ⟨k, w⟩ := first
      rw [List.map_cons, List.nodup_cons] at h
      rw [setField]
      split
      · rwa [List.map_cons, List.nodup_cons]
      · rename_i hk
        rw [List.map_cons, List.nodup_cons]
        refine ⟨fun hmem => ?_, ih h.2⟩
        obtain ⟨field, hfield, hkey⟩ := List.mem_map.mp hmem
        rcases mem_setField hfield with hrest | rfl
        · exact h.1 (List.mem_map.mpr ⟨field, hrest, hkey⟩)
        · exact hk hkey.symm

theorem lookup_eq_some_iff {fields : List (String × α)} (h : (fields.map Prod.fst).Nodup)
    {key : String} {v : α} : fields.lookup key = some v ↔ (key, v) ∈ fields := by
  induction fields with
  | nil => simp
  | cons first rest ih =>
      obtain ⟨k, w⟩ := first
      rw [List.map_cons, List.nodup_cons] at h
      rw [lookup_cons, List.mem_cons, Prod.mk.injEq]
      by_cases hk : key = k
      · subst hk
        have hrest : (key, v) ∉ rest := fun hmem => h.1 (List.mem_map.mpr ⟨_, hmem, rfl⟩)
        rw [if_pos rfl, Option.some.injEq, and_iff_right rfl, or_iff_left hrest, eq_comm]
      · rw [if_neg hk, ih h.2, or_iff_right fun heq => hk heq.1]

/-- The order of fields with different keys does not matter. -/
theorem lookup_perm {fields fields' : List (String × α)} (h : (fields.map Prod.fst).Nodup)
    (hperm : fields'.Perm fields) (key : String) : fields'.lookup key = fields.lookup key := by
  have h' : (fields'.map Prod.fst).Nodup := (hperm.map Prod.fst).nodup_iff.mpr h
  refine Option.ext fun v => ?_
  rw [lookup_eq_some_iff h', lookup_eq_some_iff h, hperm.mem_iff]

end Python
