/-
Guards that keep broker secrets out of what is sent and stored.

The guard looks at keys and not at values: `rejectSecretFields` walks dicts and lists
and raises at the first key whose letters and digits, in lower case, are a forbidden
name.  The message names the path to that key.

Most payloads the executor builds have keys that are fixed in the source.  `isPublic`
evaluates the guard on such a payload without looking at the values in it, and
`rejectSecretFields_of_isPublic` says that the guard lets it pass.
-/
import YtmExecutor.Python.Value

namespace YtmExecutor

open Python

def forbiddenSecretKeys : List String :=
  ["apikey", "apisecret", "authorization", "bearer", "brokersecret", "clientsecret", "password",
    "passphrase", "privatekey", "secret", "secretkey", "token"]

section Guard

variable [Runtime]

def secretKeyToken (value : String) : String :=
  String.ofList ((lower value).toList.filter isAlnum)

/-- The exception the guard raises for the key at the end of `path`. -/
def secretFieldError (path : List String) : PyError :=
  .valueError ("payload contains forbidden secret field: " ++ join "." path)

mutual

/-- Raise at the first key in `value` that could carry a secret. -/
def rejectSecretFields (path : List String) : Value → Except PyError Unit
  | .dict entries => rejectEntries path entries
  | .list items => rejectItems path 0 items
  | _ => .ok ()

def rejectEntries (path : List String) : List (Key × Value) → Except PyError Unit
  | [] => .ok ()
  | (key, item) :: rest =>
      if secretKeyToken key.toText ∈ forbiddenSecretKeys then
        .error (secretFieldError (path ++ [key.toText]))
      else
        match rejectSecretFields (path ++ [key.toText]) item with
        | .ok () => rejectEntries path rest
        | .error e => .error e

def rejectItems (path : List String) (index : ℕ) : List Value → Except PyError Unit
  | [] => .ok ()
  | item :: rest =>
      match rejectSecretFields (path ++ [toString index]) item with
      | .ok () => rejectItems path (index + 1) rest
      | .error e => .error e

end

end Guard

/-! ### The guard raises nothing but its own error -/

section Errors

variable [Runtime]

mutual

theorem rejectSecretFields_error (e : PyError) :
    ∀ (v : Value) (path : List String), rejectSecretFields path v = .error e →
      ∃ path', e = secretFieldError path'
  | .dict entries => by
      intro path h
      rw [rejectSecretFields] at h
      exact rejectEntries_error e entries path h
  | .list items => by
      intro path h
      rw [rejectSecretFields] at h
      exact rejectItems_error e items path 0 h
  | .none | .bool _ | .int _ | .float _ | .str _ | .tuple _ => by
      intro path h
      simp [rejectSecretFields] at h

theorem rejectEntries_error (e : PyError) :
    ∀ (entries : List (Key × Value)) (path : List String),
      rejectEntries path entries = .error e → ∃ path', e = secretFieldError path'
  | [] => by
      intro path h
      simp [rejectEntries] at h
  | (key, item) :: rest => by
      intro path h
      rw [rejectEntries] at h
      split at h
      · exact ⟨_, (Except.error.inj h).symm⟩
      · split at h
        · exact rejectEntries_error e rest path h
        · rename_i heq
          rw [Except.error.inj h] at heq
          exact rejectSecretFields_error e item _ heq

theorem rejectItems_error (e : PyError) :
    ∀ (items : List Value) (path : List String) (index : ℕ),
      rejectItems path index items = .error e → ∃ path', e = secretFieldError path'
  | [] => by
      intro path index h
      simp [rejectItems] at h
  | item :: rest => by
      intro path index h
      rw [rejectItems] at h
      split at h
      · exact rejectItems_error e rest path _ h
      · rename_i heq
        rw [Except.error.inj h] at heq
        exact rejectSecretFields_error e item _ heq

end

theorem rejectSecretFields_onlyValueErrors (path : List String) (v : Value) :
    OnlyValueErrors (rejectSecretFields path v) := by
  intro e h
  obtain ⟨path', rfl⟩ := rejectSecretFields_error e v path h
  rfl

end Errors

/-! ### What the guard lets pass

The path only goes into the message, so whether a value passes does not depend on it.
-/

section Passing

variable [Runtime]

def isForbiddenKey (key : Key) : Bool :=
  decide (secretKeyToken key.toText ∈ forbiddenSecretKeys)

mutual

/-- The guard meets no forbidden key in the value. -/
def passesGuard : Value → Bool
  | .dict entries => entriesPassGuard entries
  | .list items => itemsPassGuard items
  | _ => true

def entriesPassGuard : List (Key × Value) → Bool
  | [] => true
  | (key, item) :: rest => !isForbiddenKey key && (passesGuard item && entriesPassGuard rest)

def itemsPassGuard : List Value → Bool
  | [] => true
  | item :: rest => passesGuard item && itemsPassGuard rest

end

mutual

theorem rejectSecretFields_eq_ok {path : List String} :
    ∀ {v : Value}, rejectSecretFields path v = .ok () ↔ passesGuard v = true
  | .dict entries => by
      rw [rejectSecretFields, passesGuard]
      exact rejectEntries_eq_ok
  | .list items => by
      rw [rejectSecretFields, passesGuard]
      exact rejectItems_eq_ok
  | .none | .bool _ | .int _ | .float _ | .str _ | .tuple _ => by
      simp [rejectSecretFields, passesGuard]

theorem rejectEntries_eq_ok {path : List String} :
    ∀ {entries : List (Key × Value)},
      rejectEntries path entries = .ok () ↔ entriesPassGuard entries = true
  | [] => by simp [rejectEntries, entriesPassGuard]
  | (key, item) :: rest => by
      rw [rejectEntries, entriesPassGuard, Bool.and_eq_true, Bool.and_eq_true, Bool.not_eq_true',
        isForbiddenKey, decide_eq_false_iff_not, ← @rejectSecretFields_eq_ok (path ++ [key.toText]) item,
        ← @rejectEntries_eq_ok path rest]
      by_cases hkey : secretKeyToken key.toText ∈ forbiddenSecretKeys
      · simp [hkey]
      · rw [if_neg hkey]
        cases rejectSecretFields (path ++ [key.toText]) item with
        | ok => simp [hkey]
        | error e => simp

theorem rejectItems_eq_ok {path : List String} {index : ℕ} :
    ∀ {items : List Value}, rejectItems path index items = .ok () ↔ itemsPassGuard items = true
  | [] => by simp [rejectItems, itemsPassGuard]
  | item :: rest => by
      rw [rejectItems, itemsPassGuard, Bool.and_eq_true,
        ← @rejectSecretFields_eq_ok (path ++ [toString index]) item,
        ← @rejectItems_eq_ok path (index + 1) rest]
      cases rejectSecretFields (path ++ [toString index]) item with
      | ok => simp
      | error e => simp

end

theorem itemsPassGuard_iff {items : List Value} :
    itemsPassGuard items = true ↔ ∀ item ∈ items, passesGuard item = true := by
  induction items with
  | nil => simp [itemsPassGuard]
  | cons item rest ih => simp [itemsPassGuard, ih]

theorem entriesPassGuard_iff {entries : List (Key × Value)} :
    entriesPassGuard entries = true ↔
      ∀ entry ∈ entries, isForbiddenKey entry.1 = false ∧ passesGuard entry.2 = true := by
  induction entries with
  | nil => simp [entriesPassGuard]
  | cons entry rest ih =>
      obtain ⟨key, item⟩ := entry
      simp [entriesPassGuard, ih, and_assoc]

end Passing

/-! ### Payloads with fixed keys -/

/-- The token of a key of ASCII characters, without the tables of the runtime. -/
def asciiToken (key : String) : String :=
  String.ofList ((key.toList.map Char.toLower).filter Char.isAlphanum)

def isPublicKey : Key → Bool
  | .str key => key.toList.all isAscii && !forbiddenSecretKeys.contains (asciiToken key)
  | _ => false

mutual

/-- Every key in the value is an ASCII text the guard lets pass. -/
def isPublic : Value → Bool
  | .dict entries => isPublicEntries entries
  | .list items => isPublicItems items
  | _ => true

def isPublicEntries : List (Key × Value) → Bool
  | [] => true
  | (key, item) :: rest => isPublicKey key && (isPublic item && isPublicEntries rest)

def isPublicItems : List Value → Bool
  | [] => true
  | item :: rest => isPublic item && isPublicItems rest

end

theorem isAscii_toLower {c : Char} (h : isAscii c = true) : isAscii c.toLower = true := by
  simp only [isAscii, decide_eq_true_eq] at h ⊢
  unfold Char.toLower
  split
  · rename_i hupper
    have hle : c.val.toNat ≤ 90 := hupper.2
    show (c.val + ('a'.val - 'A'.val)).toNat < 128
    rw [UInt32.toNat_add]
    have : ('a'.val - 'A'.val).toNat = 32 := rfl
    omega
  · exact h

theorem isPublicEntries_append (entries others : List (Key × Value)) :
    isPublicEntries (entries ++ others) = (isPublicEntries entries && isPublicEntries others) := by
  induction entries with
  | nil => simp [isPublicEntries]
  | cons entry rest ih => simp [isPublicEntries, ih, Bool.and_assoc]

section Public

variable [Runtime]

theorem secretKeyToken_ascii {key : String} (h : key.toList.all isAscii = true) :
    secretKeyToken key = asciiToken key := by
  unfold secretKeyToken asciiToken lower
  rw [if_pos h, String.toList_ofList]
  congr 1
  refine List.filter_congr ?_
  intro c hc
  obtain ⟨b, hb, rfl⟩ := List.mem_map.mp hc
  have hascii := isAscii_toLower (List.all_eq_true.mp h b hb)
  rw [isAlnum, if_pos hascii]

theorem not_forbidden_of_isPublicKey {key : Key} (h : isPublicKey key = true) :
    secretKeyToken key.toText ∉ forbiddenSecretKeys := by
  cases key with
  | str key =>
      simp only [isPublicKey, Bool.and_eq_true, Bool.not_eq_true'] at h
      rw [Key.toText, secretKeyToken_ascii h.1]
      simpa using h.2
  | int n => simp [isPublicKey] at h
  | float text => simp [isPublicKey] at h
  | bool b => simp [isPublicKey] at h
  | none => simp [isPublicKey] at h

mutual

/-- The guard lets a public value pass. -/
theorem rejectSecretFields_of_isPublic {path : List String} :
    ∀ {v : Value}, isPublic v = true → rejectSecretFields path v = .ok ()
  | .dict entries, h => by
      rw [rejectSecretFields]
      exact rejectEntries_of_isPublic (by simpa [isPublic] using h)
  | .list items, h => by
      rw [rejectSecretFields]
      exact rejectItems_of_isPublic (by simpa [isPublic] using h)
  | .none, _ | .bool _, _ | .int _, _ | .float _, _ | .str _, _ | .tuple _, _ => by
      simp [rejectSecretFields]

theorem rejectEntries_of_isPublic {path : List String} :
    ∀ {entries : List (Key × Value)}, isPublicEntries entries = true →
      rejectEntries path entries = .ok ()
  | [], _ => by simp [rejectEntries]
  | (key, item) :: rest, h => by
      simp only [isPublicEntries, Bool.and_eq_true] at h
      rw [rejectEntries, if_neg (not_forbidden_of_isPublicKey h.1),
        rejectSecretFields_of_isPublic h.2.1]
      exact rejectEntries_of_isPublic h.2.2

theorem rejectItems_of_isPublic {path : List String} {index : ℕ} :
    ∀ {items : List Value}, isPublicItems items = true → rejectItems path index items = .ok ()
  | [], _ => by simp [rejectItems]
  | item :: rest, h => by
      simp only [isPublicItems, Bool.and_eq_true] at h
      rw [rejectItems, rejectSecretFields_of_isPublic h.1]
      exact rejectItems_of_isPublic h.2

end

end Public

end YtmExecutor
