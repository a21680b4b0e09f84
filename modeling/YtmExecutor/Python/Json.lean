/-
JSON, as `json.dumps(value, sort_keys=True)` writes it and `json.loads` reads it.

The writer walks dicts, lists and tuples, sorts the entries of each dict and turns every
key into a text.  A `Json` is the tree that is written; how it is spelled does not matter
to anyone who reads it back.  What is read has texts for keys and lists for sequences, so
a value of that kind (`IsJson`) comes back as it was, but for the order of its keys.
-/
import YtmExecutor.Python.Value
import Mathlib.Data.List.Sort
import Mathlib.Data.String.Basic

namespace Python

inductive Json where
  | null
  | bool (b : Bool)
  | int (n : ℤ)
  | float (text : String)
  | str (s : String)
  | array (items : List Json)
  | object (fields : List (String × Json))

/-! ### Writing -/

/-- The text a key is written as. -/
def Key.jsonText : Key → String
  | .str s => s
  | .int n => toString n
  | .float text =>
      if text = "nan" then "NaN" else if text = "inf" then "Infinity"
      else if text = "-inf" then "-Infinity" else text
  | .bool b => if b then "true" else "false"
  | .none => "null"

def Key.text? : Key → Option String
  | .str s => some s
  | _ => Option.none

/-- The number a key is compared as. -/
def Key.number? : Key → Option Decimal.Number
  | .int n => some (.finite (.ofInt n))
  | .bool b => some (.finite (.ofInt (if b then 1 else 0)))
  | .float text =>
      (Decimal.parse (fun c => if c.isDigit then some (Decimal.digitOf c) else Option.none)
        text.toList).map Decimal.Literal.toNumber
  | _ => Option.none

/-- `a <= b` for keys that are numbers. -/
def Key.numberLe (a b : Key) : Bool :=
  match a.number?, b.number? with
  | some m, some n => (m.le n).toOption.getD false
  | _, _ => false

/-- The entries, if all their keys are texts. -/
def textFields : List (Key × Json) → Option (List (String × Json))
  | [] => some []
  | (.str s, j) :: rest => (textFields rest).map ((s, j) :: ·)
  | _ => none

/-- Entries in the order of their keys; texts and numbers have no common order. -/
def sortFields (entries : List (Key × Json)) : Except PyError (List (String × Json)) :=
  match textFields entries with
  | some fields => .ok (fields.insertionSort fun a b => a.1 ≤ b.1)
  | none =>
      if entries.length ≤ 1 ∨ entries.all (fun entry => entry.1.number?.isSome) = true then
        .ok ((entries.insertionSort fun a b => a.1.numberLe b.1).map fun entry =>
          (entry.1.jsonText, entry.2))
      else .error (.other "TypeError" "the keys of a dict cannot be sorted")

mutual

/-- `json.dumps(value, sort_keys=True)`. -/
def dumps : Value → Except PyError Json
  | .none => .ok .null
  | .bool b => .ok (.bool b)
  | .int n => .ok (.int n)
  | .float text => .ok (.float text)
  | .str s => .ok (.str s)
  | .list items => (dumpItems items).map .array
  | .tuple items => (dumpItems items).map .array
  | .dict entries => do return .object (← sortFields (← dumpEntries entries))

def dumpItems : List Value → Except PyError (List Json)
  | [] => .ok []
  | v :: rest => do return (← dumps v) :: (← dumpItems rest)

def dumpEntries : List (Key × Value) → Except PyError (List (Key × Json))
  | [] => .ok []
  | (key, v) :: rest => do return (key, ← dumps v) :: (← dumpEntries rest)

end

/-! ### Reading -/

mutual

/-- `json.loads`; of two entries with one key the later counts. -/
def loads : Json → Value
  | .null => .none
  | .bool b => .bool b
  | .int n => .int n
  | .float text => .float text
  | .str s => .str s
  | .array items => .list (loadItems items)
  | .object fields => .dict (Dict.update [] (loadFields fields))

def loadItems : List Json → List Value
  | [] => []
  | j :: rest => loads j :: loadItems rest

def loadFields : List (String × Json) → Dict
  | [] => []
  | (key, j) :: rest => (.str key, loads j) :: loadFields rest

end

/-! ### Sorted trees -/

mutual

/-- The keys of every object are in order, and no key is there twice. -/
def Json.IsSorted : Json → Prop
  | .array items => ItemsSorted items
  | .object fields => (fields.map Prod.fst).Pairwise (· < ·) ∧ FieldsSorted fields
  | _ => True

def ItemsSorted : List Json → Prop
  | [] => True
  | j :: rest => j.IsSorted ∧ ItemsSorted rest

def FieldsSorted : List (String × Json) → Prop
  | [] => True
  | (_, j) :: rest => j.IsSorted ∧ FieldsSorted rest

end

theorem fieldsSorted_iff {fields : List (String × Json)} :
    FieldsSorted fields ↔ ∀ field ∈ fields, field.2.IsSorted := by
  induction fields with
  | nil => simp [FieldsSorted]
  | cons field rest ih =>
      obtain ⟨key, j⟩ := field
      simp [FieldsSorted, ih]

/-- A dict made of entries with different keys has these entries. -/
theorem Dict.update_nil {entries : Dict} (h : (entries.map Prod.fst).Nodup) :
    Dict.update [] entries = entries := by
  have hset {d : Dict} {key : Key} {v : Value} (hkey : key ∉ d.map Prod.fst) :
      d.set key v = d ++ [(key, v)] := by
    induction d with
    | nil => rfl
    | cons entry rest ih =>
        rw [List.map_cons, List.mem_cons, not_or] at hkey
        rw [Dict.set, if_neg (Ne.symm hkey.1), ih hkey.2]
        rfl
  have hupdate (d : Dict) (hnew : ((d ++ entries).map Prod.fst).Nodup) :
      Dict.update d entries = d ++ entries := by
    induction entries generalizing d with
    | nil => simp [Dict.update]
    | cons entry rest ih =>
        have hkey : entry.1 ∉ d.map Prod.fst := by
          rw [List.map_append, List.map_cons] at hnew
          exact fun hmem => (List.disjoint_of_nodup_append hnew) hmem List.mem_cons_self
        have hstep : Dict.update d (entry :: rest) = Dict.update (d.set entry.1 entry.2) rest := rfl
        rw [hstep, hset hkey, ih (List.Nodup.of_cons h)]
        · simp
        · simpa using hnew
  exact hupdate [] h

theorem loadFields_keys (fields : List (String × Json)) :
    (loadFields fields).map Prod.fst = fields.map fun field => Key.str field.1 := by
  induction fields with
  | nil => rfl
  | cons field rest ih =>
      obtain ⟨key, j⟩ := field
      simp [loadFields, ih]

theorem loads_object {fields : List (String × Json)}
    (h : (fields.map Prod.fst).Pairwise (· < ·)) :
    loads (.object fields) = .dict (loadFields fields) := by
  have hnodup : ((loadFields fields).map Prod.fst).Nodup := by
    rw [loadFields_keys]
    show (fields.map (Key.str ∘ Prod.fst)).Nodup
    rw [← List.map_map]
    exact List.Nodup.map (fun _ _ => Key.str.inj) (h.imp fun hlt => ne_of_lt hlt)
  rw [loads, Dict.update_nil hnodup]

/-! ### What is read is written as it was -/

theorem sortFields_text {fields : List (String × Json)} :
    sortFields (fields.map fun field => (.str field.1, field.2)) =
      .ok (fields.insertionSort fun a b => a.1 ≤ b.1) := by
  have htexts : textFields (fields.map fun field => (.str field.1, field.2)) = some fields := by
    induction fields with
    | nil => rfl
    | cons field rest ih => rw [List.map_cons, textFields, ih, Option.map_some]
  rw [sortFields, htexts]

/-- Sorting fields with different keys puts the keys in strict order. -/
theorem sorted_insertionSort {α : Type} {fields : List (String × α)}
    (h : (fields.map Prod.fst).Nodup) :
    ((fields.insertionSort fun a b => a.1 ≤ b.1).map Prod.fst).Pairwise (· < ·) := by
  have hmap : (fields.insertionSort fun a b => a.1 ≤ b.1).map Prod.fst =
      (fields.map Prod.fst).insertionSort (· ≤ ·) :=
    List.map_insertionSort _ _ _ _ fun _ _ _ _ => Iff.rfl
  have hperm : ((fields.map Prod.fst).insertionSort (· ≤ ·)).Perm (fields.map Prod.fst) :=
    List.perm_insertionSort _ _
  rw [hmap]
  have hsorted := List.pairwise_insertionSort (· ≤ ·) (fields.map Prod.fst)
  exact (hsorted.and (hperm.nodup_iff.mpr h)).imp fun hboth => lt_of_le_of_ne hboth.1 hboth.2

mutual

theorem dumps_loads : ∀ {j : Json}, j.IsSorted → dumps (loads j) = .ok j
  | .null, _ => rfl
  | .bool _, _ => rfl
  | .int _, _ => rfl
  | .float _, _ => rfl
  | .str _, _ => rfl
  | .array items, h => by
      rw [loads, dumps, dumpItems_loadItems h]
      rfl
  | .object fields, h => by
      rw [loads_object h.1, dumps, dumpEntries_loadFields h.2]
      show (sortFields _ >>= fun fields => pure (Json.object fields)) = _
      rw [sortFields_text, (h.1.of_map _ fun _ _ => le_of_lt).insertionSort_eq]
      rfl

theorem dumpItems_loadItems : ∀ {items : List Json}, ItemsSorted items →
    dumpItems (loadItems items) = .ok items
  | [], _ => rfl
  | j :: rest, h => by
      rw [loadItems, dumpItems, dumps_loads h.1, dumpItems_loadItems h.2]
      rfl

theorem dumpEntries_loadFields : ∀ {fields : List (String × Json)}, FieldsSorted fields →
    dumpEntries (loadFields fields) = .ok (fields.map fun field => (.str field.1, field.2))
  | [], _ => rfl
  | (key, j) :: rest, h => by
      rw [loadFields, dumpEntries, dumps_loads h.1, dumpEntries_loadFields h.2]
      rfl

end

/-! ### Values that are JSON -/

mutual

/-- The value has texts for keys, each once, and no tuples. -/
def IsJson : Value → Prop
  | .dict entries => (entries.map Prod.fst).Nodup ∧ EntriesAreJson entries
  | .list items => ItemsAreJson items
  | .tuple _ => False
  | _ => True

def ItemsAreJson : List Value → Prop
  | [] => True
  | v :: rest => IsJson v ∧ ItemsAreJson rest

def EntriesAreJson : List (Key × Value) → Prop
  | [] => True
  | (key, v) :: rest => key.text?.isSome ∧ IsJson v ∧ EntriesAreJson rest

end

mutual

/-- **Such a value can be written, with its keys in order.** -/
theorem exists_dumps : ∀ {v : Value}, IsJson v → ∃ j, dumps v = .ok j ∧ j.IsSorted
  | .none, _ => ⟨_, rfl, trivial⟩
  | .bool _, _ => ⟨_, rfl, trivial⟩
  | .int _, _ => ⟨_, rfl, trivial⟩
  | .float _, _ => ⟨_, rfl, trivial⟩
  | .str _, _ => ⟨_, rfl, trivial⟩
  | .list items, h => by
      obtain ⟨js, hjs, hsorted⟩ := exists_dumpItems h
      exact ⟨.array js, by rw [dumps, hjs]; rfl, hsorted⟩
  | .dict entries, h => by
      obtain ⟨fields, hfields, hkeys, hsorted⟩ := exists_dumpEntries h.2
      refine ⟨.object (fields.insertionSort fun a b => a.1 ≤ b.1), ?_, ?_, ?_⟩
      · rw [dumps, hfields]
        show (sortFields _ >>= fun fields => pure (Json.object fields)) = _
        rw [sortFields_text]
        rfl
      · refine sorted_insertionSort ?_
        have hnodup := h.1
        rw [hkeys] at hnodup
        exact List.Nodup.of_map Key.str (by rwa [List.map_map])
      · rw [fieldsSorted_iff] at hsorted ⊢
        exact fun field hfield => hsorted field ((List.mem_insertionSort _).mp hfield)

theorem exists_dumpItems : ∀ {items : List Value}, ItemsAreJson items →
    ∃ js, dumpItems items = .ok js ∧ ItemsSorted js
  | [], _ => ⟨[], rfl, trivial⟩
  | v :: rest, h => by
      obtain ⟨j, hj, hsorted⟩ := exists_dumps h.1
      obtain ⟨js, hjs, hrest⟩ := exists_dumpItems h.2
      exact ⟨j :: js, by rw [dumpItems, hj, hjs]; rfl, hsorted, hrest⟩

theorem exists_dumpEntries : ∀ {entries : List (Key × Value)}, EntriesAreJson entries →
    ∃ fields, dumpEntries entries = .ok (fields.map fun field => (.str field.1, field.2)) ∧
      entries.map Prod.fst = fields.map (fun field => Key.str field.1) ∧ FieldsSorted fields
  | [], _ => ⟨[], rfl, rfl, trivial⟩
  | (key, v) :: rest, h => by
      obtain ⟨j, hj, hsorted⟩ := exists_dumps h.2.1
      obtain ⟨fields, hfields, hkeys, hrest⟩ := exists_dumpEntries h.2.2
      cases key with
      | str s =>
          refine ⟨(s, j) :: fields, ?_, ?_, hsorted, hrest⟩
          · rw [dumpEntries, hj, hfields]
            rfl
          · rw [List.map_cons, hkeys]
            rfl
      | int | float | bool | none => cases h.1

end

/-! ### Keys at any depth -/

mutual

/-- The keys of all objects in the tree. -/
def Json.keys : Json → List String
  | .array items => itemKeys items
  | .object fields => fieldKeys fields
  | _ => []

def itemKeys : List Json → List String
  | [] => []
  | j :: rest => j.keys ++ itemKeys rest

def fieldKeys : List (String × Json) → List String
  | [] => []
  | (key, j) :: rest => key :: (j.keys ++ fieldKeys rest)

end

mutual

/-- The keys of all dicts in the value, as they are written. -/
def Value.keys : Value → List Key
  | .list items => Value.itemKeys items
  | .tuple items => Value.itemKeys items
  | .dict entries => Value.entryKeys entries
  | _ => []

def Value.itemKeys : List Value → List Key
  | [] => []
  | v :: rest => v.keys ++ Value.itemKeys rest

def Value.entryKeys : List (Key × Value) → List Key
  | [] => []
  | (key, v) :: rest => key :: (v.keys ++ Value.entryKeys rest)

end

theorem fieldKeys_perm {fields fields' : List (String × Json)} (h : fields.Perm fields') :
    (fieldKeys fields).Perm (fieldKeys fields') := by
  induction h with
  | nil => exact List.Perm.refl _
  | cons field _ ih => exact (ih.append_left _).cons _
  | swap field field' rest =>
      have hfields : ∀ rest, fieldKeys (field :: rest) = (field.1 :: field.2.keys) ++ fieldKeys rest :=
        fun _ => rfl
      have hfields' : ∀ rest,
          fieldKeys (field' :: rest) = (field'.1 :: field'.2.keys) ++ fieldKeys rest := fun _ => rfl
      rw [hfields, hfields', hfields, hfields', ← List.append_assoc, ← List.append_assoc]
      exact List.perm_append_comm.append_right _
  | trans _ _ ih ih' => exact ih.trans ih'

theorem sortFields_perm {entries : List (Key × Json)} {fields : List (String × Json)}
    (h : sortFields entries = .ok fields) :
    fields.Perm (entries.map fun entry => (entry.1.jsonText, entry.2)) := by
  unfold sortFields at h
  split at h
  · rename_i texts htexts
    cases h
    have hmap : texts = entries.map fun entry => (entry.1.jsonText, entry.2) := by
      clear * - htexts
      induction entries generalizing texts with
      | nil =>
          cases htexts
          rfl
      | cons entry rest ih =>
          obtain ⟨key, j⟩ := entry
          cases key with
          | str s =>
              obtain ⟨found, hfound, rfl⟩ := Option.map_eq_some_iff.mp htexts
              rw [ih found hfound]
              rfl
          | int | float | bool | none => cases htexts
    rw [← hmap]
    exact List.perm_insertionSort _ _
  · split at h
    · cases h
      exact (List.perm_insertionSort _ _).map _
    · cases h

mutual

/-- **What is written has exactly the keys of the value.** -/
theorem keys_dumps : ∀ {v : Value} {j : Json}, dumps v = .ok j →
    j.keys.Perm (v.keys.map Key.jsonText)
  | .none, _, h | .bool _, _, h | .int _, _, h | .float _, _, h | .str _, _, h => by
      cases h
      exact List.Perm.refl _
  | .list items, j, h | .tuple items, j, h => by
      rw [dumps] at h
      cases hitems : dumpItems items with
      | error e =>
          rw [hitems] at h
          cases h
      | ok js =>
          rw [hitems] at h
          cases h
          exact keys_dumpItems hitems
  | .dict entries, j, h => by
      rw [dumps] at h
      obtain ⟨dumped, hdumped, h⟩ := bind_eq_ok.mp h
      obtain ⟨fields, hfields, h⟩ := bind_eq_ok.mp h
      cases h
      exact (fieldKeys_perm (sortFields_perm hfields)).trans (keys_dumpEntries hdumped)

theorem keys_dumpItems : ∀ {items : List Value} {js : List Json}, dumpItems items = .ok js →
    (itemKeys js).Perm ((Value.itemKeys items).map Key.jsonText)
  | [], _, h => by
      cases h
      exact List.Perm.refl _
  | v :: rest, _, h => by
      rw [dumpItems] at h
      obtain ⟨j, hj, h⟩ := bind_eq_ok.mp h
      obtain ⟨js, hjs, h⟩ := bind_eq_ok.mp h
      cases h
      rw [itemKeys, Value.itemKeys, List.map_append]
      exact (keys_dumps hj).append (keys_dumpItems hjs)

theorem keys_dumpEntries : ∀ {entries : List (Key × Value)} {dumped : List (Key × Json)},
    dumpEntries entries = .ok dumped →
      (fieldKeys (dumped.map fun entry => (entry.1.jsonText, entry.2))).Perm
        ((Value.entryKeys entries).map Key.jsonText)
  | [], _, h => by
      cases h
      exact List.Perm.refl _
  | (key, v) :: rest, _, h => by
      rw [dumpEntries] at h
      obtain ⟨j, hj, h⟩ := bind_eq_ok.mp h
      obtain ⟨js, hjs, h⟩ := bind_eq_ok.mp h
      cases h
      rw [Value.entryKeys, List.map_cons, List.map_cons, List.map_append, fieldKeys]
      exact ((keys_dumps hj).append (keys_dumpEntries hjs)).cons _

end

mutual

theorem keys_loads : ∀ {j : Json}, j.IsSorted → (loads j).keys = j.keys.map Key.str
  | .null, _ | .bool _, _ | .int _, _ | .float _, _ | .str _, _ => rfl
  | .array items, h => by
      rw [loads, Value.keys, Json.keys]
      exact keys_loadItems h
  | .object fields, h => by
      rw [loads_object h.1, Value.keys, Json.keys]
      exact keys_loadFields h.2

theorem keys_loadItems : ∀ {items : List Json}, ItemsSorted items →
    Value.itemKeys (loadItems items) = (itemKeys items).map Key.str
  | [], _ => rfl
  | j :: rest, h => by
      rw [loadItems, Value.itemKeys, itemKeys, List.map_append, keys_loads h.1, keys_loadItems h.2]

theorem keys_loadFields : ∀ {fields : List (String × Json)}, FieldsSorted fields →
    Value.entryKeys (loadFields fields) = (fieldKeys fields).map Key.str
  | [], _ => rfl
  | (key, j) :: rest, h => by
      rw [loadFields, Value.entryKeys, fieldKeys, List.map_cons, List.map_append, keys_loads h.1,
        keys_loadFields h.2]

end

end Python
