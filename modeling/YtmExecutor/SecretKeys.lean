/-
Which keys the guard sees of those that are written.

The guard walks dicts and lists, and the JSON writer walks dicts, lists and tuples.  So
the keys of a value are those the guard looks at and those below a tuple
(`mem_keys_iff`), and a value without tuples passes exactly when none of its keys is
forbidden.  The guard looks at `str(key)` where the writer writes another text for
`True` and its like; for the guard the two are the same (`isForbiddenKey_iff`).
-/
import YtmExecutor.Guards
import YtmExecutor.Python.Json

namespace YtmExecutor

open Python

/-! ### Keys below a tuple -/

mutual

/-- The keys of the dicts the guard walks. -/
def guardedKeys : Value → List Key
  | .list items => guardedItemKeys items
  | .dict entries => guardedEntryKeys entries
  | _ => []

def guardedItemKeys : List Value → List Key
  | [] => []
  | v :: rest => guardedKeys v ++ guardedItemKeys rest

def guardedEntryKeys : List (Key × Value) → List Key
  | [] => []
  | (key, v) :: rest => key :: (guardedKeys v ++ guardedEntryKeys rest)

end

mutual

/-- The keys of the dicts below a tuple. -/
def tupleKeys : Value → List Key
  | .tuple items => Value.itemKeys items
  | .list items => tupleItemKeys items
  | .dict entries => tupleEntryKeys entries
  | _ => []

def tupleItemKeys : List Value → List Key
  | [] => []
  | v :: rest => tupleKeys v ++ tupleItemKeys rest

def tupleEntryKeys : List (Key × Value) → List Key
  | [] => []
  | (_, v) :: rest => tupleKeys v ++ tupleEntryKeys rest

end

mutual

/-- **Every key that is written is one the guard sees, or is below a tuple.** -/
theorem mem_keys_iff (key : Key) : ∀ v : Value,
    key ∈ v.keys ↔ key ∈ guardedKeys v ∨ key ∈ tupleKeys v
  | .list items => mem_itemKeys_iff key items
  | .dict entries => mem_entryKeys_iff key entries
  | .tuple _ | .none | .bool _ | .int _ | .float _ | .str _ => by
      simp [Value.keys, guardedKeys, tupleKeys]

theorem mem_itemKeys_iff (key : Key) : ∀ items : List Value,
    key ∈ Value.itemKeys items ↔ key ∈ guardedItemKeys items ∨ key ∈ tupleItemKeys items
  | [] => by simp [Value.itemKeys, guardedItemKeys, tupleItemKeys]
  | v :: rest => by
      simp only [Value.itemKeys, guardedItemKeys, tupleItemKeys, List.mem_append,
        mem_keys_iff key v, mem_itemKeys_iff key rest]
      exact or_or_or_comm

theorem mem_entryKeys_iff (key : Key) : ∀ entries : List (Key × Value),
    key ∈ Value.entryKeys entries ↔ key ∈ guardedEntryKeys entries ∨ key ∈ tupleEntryKeys entries
  | [] => by simp [Value.entryKeys, guardedEntryKeys, tupleEntryKeys]
  | (key', v) :: rest => by
      simp only [Value.entryKeys, guardedEntryKeys, tupleEntryKeys, List.mem_cons, List.mem_append,
        mem_keys_iff key v, mem_entryKeys_iff key rest]
      exact (or_congr Iff.rfl or_or_or_comm).trans or_assoc.symm

end

mutual

theorem tupleKeys_of_isJson : ∀ {v : Value}, IsJson v → tupleKeys v = []
  | .list _, h => tupleItemKeys_of_isJson h
  | .dict _, h => tupleEntryKeys_of_isJson h.2
  | .none, _ | .bool _, _ | .int _, _ | .float _, _ | .str _, _ => rfl

theorem tupleItemKeys_of_isJson : ∀ {items : List Value}, ItemsAreJson items →
    tupleItemKeys items = []
  | [], _ => rfl
  | v :: rest, h => by
      rw [tupleItemKeys, tupleKeys_of_isJson h.1, tupleItemKeys_of_isJson h.2, List.append_nil]

theorem tupleEntryKeys_of_isJson : ∀ {entries : List (Key × Value)}, EntriesAreJson entries →
    tupleEntryKeys entries = []
  | [], _ => rfl
  | (_, v) :: rest, h => by
      rw [tupleEntryKeys, tupleKeys_of_isJson h.2.1, tupleEntryKeys_of_isJson h.2.2, List.append_nil]

end

mutual

theorem tupleKeys_loads : ∀ {j : Json}, j.IsSorted → tupleKeys (loads j) = []
  | .null, _ | .bool _, _ | .int _, _ | .float _, _ | .str _, _ => rfl
  | .array items, h => by
      rw [loads]
      exact tupleItemKeys_loadItems h
  | .object fields, h => by
      rw [loads_object h.1]
      exact tupleEntryKeys_loadFields h.2

theorem tupleItemKeys_loadItems : ∀ {items : List Json}, ItemsSorted items →
    tupleItemKeys (loadItems items) = []
  | [], _ => rfl
  | j :: rest, h => by
      rw [loadItems, tupleItemKeys, tupleKeys_loads h.1, tupleItemKeys_loadItems h.2,
        List.append_nil]

theorem tupleEntryKeys_loadFields : ∀ {fields : List (String × Json)}, FieldsSorted fields →
    tupleEntryKeys (loadFields fields) = []
  | [], _ => rfl
  | (_, j) :: rest, h => by
      rw [loadFields, tupleEntryKeys, tupleKeys_loads h.1, tupleEntryKeys_loadFields h.2,
        List.append_nil]

end

/-! ### What the guard lets pass -/

section Guard

variable [Runtime]

mutual

/-- A value passes exactly when no key is forbidden that the guard sees. -/
theorem passesGuard_iff : ∀ v : Value,
    passesGuard v = true ↔ ∀ key ∈ guardedKeys v, isForbiddenKey key = false
  | .list items => by
      rw [passesGuard, guardedKeys]
      exact itemsPassGuard_iff_keys items
  | .dict entries => by
      rw [passesGuard, guardedKeys]
      exact entriesPassGuard_iff_keys entries
  | .tuple _ | .none | .bool _ | .int _ | .float _ | .str _ => by simp [passesGuard, guardedKeys]

theorem itemsPassGuard_iff_keys : ∀ items : List Value,
    itemsPassGuard items = true ↔ ∀ key ∈ guardedItemKeys items, isForbiddenKey key = false
  | [] => by simp [itemsPassGuard, guardedItemKeys]
  | v :: rest => by
      rw [itemsPassGuard, guardedItemKeys, Bool.and_eq_true, passesGuard_iff v,
        itemsPassGuard_iff_keys rest, List.forall_mem_append]

theorem entriesPassGuard_iff_keys : ∀ entries : List (Key × Value),
    entriesPassGuard entries = true ↔ ∀ key ∈ guardedEntryKeys entries, isForbiddenKey key = false
  | [] => by simp [entriesPassGuard, guardedEntryKeys]
  | (key, v) :: rest => by
      rw [entriesPassGuard, guardedEntryKeys, Bool.and_eq_true, Bool.and_eq_true, Bool.not_eq_true',
        passesGuard_iff v, entriesPassGuard_iff_keys rest, List.forall_mem_cons,
        List.forall_mem_append]

end

/-- A key that is no text and one the writer spells otherwise are both allowed. -/
theorem isForbiddenKey_iff (key : Key) :
    isForbiddenKey key = true ↔ secretKeyToken key.jsonText ∈ forbiddenSecretKeys := by
  have hallowed (text : String) (hascii : text.toList.all isAscii = true)
      (h : asciiToken text ∉ forbiddenSecretKeys) :
      secretKeyToken text ∉ forbiddenSecretKeys := by rwa [secretKeyToken_ascii hascii]
  unfold isForbiddenKey
  rw [decide_eq_true_eq]
  have hsame (text : String) (h : key.toText = text)
      (hascii : text.toList.all isAscii = true ∧ asciiToken text ∉ forbiddenSecretKeys)
      (hascii' : key.jsonText.toList.all isAscii = true ∧
        asciiToken key.jsonText ∉ forbiddenSecretKeys) :
      secretKeyToken key.toText ∈ forbiddenSecretKeys ↔
        secretKeyToken key.jsonText ∈ forbiddenSecretKeys := by
    rw [h]
    exact iff_of_false (hallowed _ hascii.1 hascii.2) (hallowed _ hascii'.1 hascii'.2)
  cases key with
  | str s => exact Iff.rfl
  | int n => exact Iff.rfl
  | bool b => cases b <;> exact hsame _ rfl (by decide +kernel) (by decide +kernel)
  | none => exact hsame _ rfl (by decide +kernel) (by decide +kernel)
  | float text =>
      by_cases hnan : text = "nan"
      · subst hnan
        exact hsame "nan" rfl (by decide +kernel) (by decide +kernel)
      · by_cases hinf : text = "inf"
        · subst hinf
          exact hsame "inf" rfl (by decide +kernel) (by decide +kernel)
        · by_cases hneg : text = "-inf"
          · subst hneg
            exact hsame "-inf" rfl (by decide +kernel) (by decide +kernel)
          · rw [Key.jsonText, if_neg hnan, if_neg hinf, if_neg hneg]
            rfl

/-- The key is none that could carry a secret. -/
def AllowedKey (key : String) : Prop := secretKeyToken key ∉ forbiddenSecretKeys

theorem allowedKey_iff {key : Key} : AllowedKey key.jsonText ↔ isForbiddenKey key = false := by
  rw [AllowedKey, ← isForbiddenKey_iff, Bool.not_eq_true]

/-- **What is written of a value has allowed keys exactly when** the value passes the guard and
has no other key below a tuple. -/
theorem allowedKeys_dumps {v : Value} {j : Json} (h : dumps v = .ok j) :
    (∀ key ∈ j.keys, AllowedKey key) ↔
      passesGuard v = true ∧ ∀ key ∈ tupleKeys v, AllowedKey key.jsonText := by
  have hkeys : (∀ key ∈ j.keys, AllowedKey key) ↔ ∀ key ∈ v.keys, AllowedKey key.jsonText := by
    constructor
    · exact fun hall key hkey =>
        hall _ ((keys_dumps h).mem_iff.mpr (List.mem_map_of_mem hkey))
    · intro hall key hkey
      obtain ⟨key', hkey', rfl⟩ := List.mem_map.mp ((keys_dumps h).mem_iff.mp hkey)
      exact hall key' hkey'
  rw [hkeys, passesGuard_iff]
  simp only [mem_keys_iff, or_imp, forall_and, allowedKey_iff]

/-- What is read back passes exactly when all its keys are allowed. -/
theorem passesGuard_loads {j : Json} (h : j.IsSorted) :
    passesGuard (loads j) = true ↔ ∀ key ∈ j.keys, AllowedKey key := by
  rw [allowedKeys_dumps (dumps_loads h), tupleKeys_loads h]
  simp

end Guard

end YtmExecutor
