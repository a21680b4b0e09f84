/-
A list of records, at most one for a key.

A record is put by dropping the records that are found under its key and appending it.
What is found depends on how a record shows its key: one that does not show it stays for
good.  `filter_storeAll` says what a run of puts leaves of a key: the last put of it, and
before it the earlier ones that did not show it.
-/
import Mathlib.Data.List.Basic
import Mathlib.Data.List.Induction
import Mathlib.Data.List.Nodup

namespace Python.Keyed

variable {α κ : Type} [DecidableEq κ] (key : α → κ) (shown : α → Bool)

/-- Put a record in place of those that show its key. -/
def store (records : List α) (a : α) : List α :=
  records.filter (fun record => !(shown record && decide (key record = key a))) ++ [a]

/-- One put after the other. -/
def storeAll (puts : List α) : List α := puts.foldl (store key shown) []

/-- The records of a key. -/
def ofKey (records : List α) (k : κ) : List α := records.filter fun record => key record = k

/-- The last record of a key. -/
def last? (puts : List α) (k : κ) : Option α := (ofKey key puts k).getLast?

theorem storeAll_append (puts : List α) (a : α) :
    storeAll key shown (puts ++ [a]) = store key shown (storeAll key shown puts) a := by
  rw [storeAll, List.foldl_append]
  rfl

theorem ofKey_append (records records' : List α) (k : κ) :
    ofKey key (records ++ records') k = ofKey key records k ++ ofKey key records' k :=
  List.filter_append _ _

theorem ofKey_singleton (a : α) (k : κ) : ofKey key [a] k = if key a = k then [a] else [] := by
  unfold ofKey
  by_cases h : key a = k
  · simp [h]
  · simp [h]

theorem last?_append (puts : List α) (a : α) (k : κ) :
    last? key (puts ++ [a]) k = if key a = k then some a else last? key puts k := by
  rw [last?, ofKey_append, ofKey_singleton]
  by_cases h : key a = k
  · rw [if_pos h, if_pos h, List.getLast?_concat]
  · rw [if_neg h, if_neg h, List.append_nil]
    rfl

theorem dropLast_append_last (records : List α) :
    records.dropLast ++ records.getLast?.toList = records := by
  induction records using List.reverseRecOn with
  | nil => rfl
  | append_singleton records a => simp

theorem key_of_mem_ofKey {records : List α} {k : κ} {a : α} (h : a ∈ ofKey key records k) :
    key a = k := by
  simpa using (List.mem_filter.mp h).2

theorem key_of_last? {puts : List α} {k : κ} {a : α} (h : last? key puts k = some a) : key a = k :=
  key_of_mem_ofKey key (List.mem_of_mem_getLast? h)

theorem mem_of_last? {puts : List α} {k : κ} {a : α} (h : last? key puts k = some a) : a ∈ puts :=
  (List.mem_filter.mp (List.mem_of_mem_getLast? h)).1

/-- The last record of a key, where the records are made of something else. -/
theorem last?_map {β : Type} (f : β → α) (puts : List β) (k : κ) :
    last? key (puts.map f) k = (last? (fun b => key (f b)) puts k).map f := by
  rw [last?, ofKey, List.filter_map, List.getLast?_map]
  rfl

/-- A put drops what shows its key, and touches no other key. -/
theorem ofKey_store (records : List α) (a : α) (k : κ) :
    ofKey key (store key shown records a) k =
      if key a = k then (ofKey key records k).filter (fun record => !shown record) ++ [a]
      else ofKey key records k := by
  rw [store, ofKey_append, ofKey_singleton]
  unfold ofKey
  rw [List.filter_filter]
  by_cases h : key a = k
  · rw [if_pos h, if_pos h, List.filter_filter]
    congr 1
    refine List.filter_congr fun record _ => ?_
    by_cases hrecord : key record = k
    · simp [hrecord, h]
    · simp [hrecord]
  · rw [if_neg h, if_neg h, List.append_nil]
    refine List.filter_congr fun record _ => ?_
    by_cases hrecord : key record = k
    · simp [hrecord, Ne.symm h]
    · simp [hrecord]

/-- **What a run of puts leaves of a key.** -/
theorem ofKey_storeAll (puts : List α) (k : κ) :
    ofKey key (storeAll key shown puts) k =
      (ofKey key puts k).dropLast.filter (fun record => !shown record) ++
        (last? key puts k).toList := by
  induction puts using List.reverseRecOn with
  | nil => rfl
  | append_singleton puts a ih =>
      rw [storeAll_append, ofKey_store, ih, last?_append, ofKey_append, ofKey_singleton]
      by_cases h : key a = k
      · have hagain : ((ofKey key puts k).dropLast.filter (fun record => !shown record) ++
            (last? key puts k).toList).filter (fun record => !shown record) =
              (ofKey key puts k).filter fun record => !shown record := by
          conv_rhs => rw [← dropLast_append_last (ofKey key puts k)]
          rw [List.filter_append, List.filter_append, List.filter_filter]
          simp only [Bool.and_self, last?]
        rw [if_pos h, if_pos h, if_pos h, List.dropLast_concat, hagain]
        rfl
      · rw [if_neg h, if_neg h, if_neg h, List.append_nil]

/-- **Only the last put of a key is left exactly when** the earlier ones showed it. -/
theorem ofKey_storeAll_eq_last_iff (puts : List α) (k : κ) :
    ofKey key (storeAll key shown puts) k = (last? key puts k).toList ↔
      ∀ a ∈ (ofKey key puts k).dropLast, shown a = true := by
  rw [ofKey_storeAll, List.append_left_eq_self, List.filter_eq_nil_iff]
  simp

/-- It is enough that no more than one record is left. -/
theorem eq_last_of_length_le {puts : List α} {k : κ}
    (h : (ofKey key (storeAll key shown puts) k).length ≤ 1) :
    ofKey key (storeAll key shown puts) k = (last? key puts k).toList := by
  rw [ofKey_storeAll] at h ⊢
  rw [List.append_left_eq_self]
  cases hlast : last? key puts k with
  | none =>
      have hnil : ofKey key puts k = [] := List.getLast?_eq_none_iff.mp hlast
      rw [hnil]
      rfl
  | some a =>
      rw [hlast, List.length_append, Option.toList_some, List.length_singleton] at h
      exact List.length_eq_zero_iff.mp (by omega)

/-- A record never put is not there. -/
theorem ofKey_storeAll_of_none {puts : List α} {k : κ} (h : last? key puts k = none) :
    ofKey key (storeAll key shown puts) k = [] := by
  have hnil : ofKey key puts k = [] := List.getLast?_eq_none_iff.mp h
  rw [ofKey_storeAll, hnil, h]
  rfl

theorem mem_of_mem_storeAll {puts : List α} {a : α} (h : a ∈ storeAll key shown puts) :
    a ∈ puts := by
  induction puts using List.reverseRecOn with
  | nil => exact h
  | append_singleton puts b ih =>
      rw [storeAll_append, store, List.mem_append] at h
      rcases h with hkept | hnew
      · exact List.mem_append_left _ (ih (List.mem_filter.mp hkept).1)
      · exact List.mem_append_right _ hnew

/-! ### Where every record shows its key -/

/-- Then every key has one record at most. -/
theorem nodup_storeAll (puts : List α) : ((storeAll key (fun _ => true) puts).map key).Nodup := by
  induction puts using List.reverseRecOn with
  | nil => exact List.nodup_nil
  | append_singleton puts a ih =>
      rw [storeAll_append, store, List.map_append, List.nodup_append]
      refine ⟨ih.sublist (List.filter_sublist.map key), List.nodup_singleton _, ?_⟩
      intro k hk k' hk'
      obtain ⟨record, hrecord, rfl⟩ := List.mem_map.mp hk
      rw [List.map_singleton, List.mem_singleton] at hk'
      have hkept := (List.mem_filter.mp hrecord).2
      rw [hk']
      simpa using hkept

/-- The keys that are left are those that were put. -/
theorem mem_keys_storeAll {puts : List α} {k : κ} :
    k ∈ (storeAll key (fun _ => true) puts).map key ↔ ∃ a ∈ puts, key a = k := by
  rw [List.mem_map]
  constructor
  · rintro ⟨record, hrecord, rfl⟩
    exact ⟨record, mem_of_mem_storeAll _ _ hrecord, rfl⟩
  · rintro ⟨a, ha, rfl⟩
    have hput : a ∈ ofKey key puts (key a) := List.mem_filter.mpr ⟨ha, by simp⟩
    have hne : ofKey key puts (key a) ≠ [] := List.ne_nil_of_mem hput
    have hlast : last? key puts (key a) = some ((ofKey key puts (key a)).getLast hne) :=
      List.getLast?_eq_some_getLast hne
    have hleft : (ofKey key puts (key a)).getLast hne ∈
        ofKey key (storeAll key (fun _ => true) puts) (key a) := by
      rw [ofKey_storeAll, List.mem_append, hlast]
      exact Or.inr (List.mem_singleton_self _)
    exact ⟨_, (List.mem_filter.mp hleft).1, key_of_mem_ofKey key hleft⟩

/-- The record that is found under a key is the last put of it. -/
theorem find?_storeAll (puts : List α) (k : κ) :
    (storeAll key (fun _ => true) puts).find? (fun record => key record = k) =
      last? key puts k := by
  have hleft := (ofKey_storeAll_eq_last_iff key (fun _ => true) puts k).mpr fun _ _ => rfl
  rw [← List.head?_filter]
  show (ofKey key (storeAll key (fun _ => true) puts) k).head? = _
  rw [hleft]
  cases last? key puts k <;> rfl

end Python.Keyed
