/-
The three local stores: broker secrets, validation summaries, execution results.

Each is one JSON file.  A file is the value in it, or nothing when it does not exist.
Decryption is the business of a library, so `decrypt` is a parameter: what it makes of a
record, or what it raises.
-/
import YtmExecutor.Guards
import YtmExecutor.Python.Datetime
import YtmExecutor.Python.Fields
import YtmExecutor.Python.JsonReload
import Mathlib.Data.List.Sort

namespace YtmExecutor

open Python

/-- A broker secret: its fields in order. -/
abbrev Secret := List (String × String)

structure CredentialSummary where
  provider : String
  name : String
  deriving DecidableEq

/-- The dicts of a file that holds a list. -/
def loadRecords (message : String) : Option Value → Except PyError (List Dict)
  | none => .ok []
  | some (.list items) => .ok (items.filterMap Value.dict?)
  | some _ => .error (.valueError message)

/-- The records that are written come back reloaded. -/
theorem loadRecords_of_dumps (message : String) {items : List Dict}
    (hjson : ∀ item ∈ items, IsJson (.dict item)) {j : Json}
    (h : dumps (.list (items.map .dict)) = .ok j) :
    loadRecords message (some (loads j)) = .ok (items.map reload) := by
  rw [dumps] at h
  cases hitems : dumpItems (items.map .dict) with
  | error e =>
      rw [hitems] at h
      cases h
  | ok js =>
      rw [hitems] at h
      cases h
      rw [loads, ← loadItems_dicts hjson hitems]
      rfl

section Stores

variable [Runtime]

/-- `str(value or "").strip()`, if anything is left. -/
def storeRequiredText (v : Value) (fieldName : String) : Except PyError String :=
  let text := strip (v.pyOr "").toText
  if text = "" then .error (.valueError (fieldName ++ " is required")) else .ok text

/-- A text is stripped, and must not be blank. -/
theorem storeRequiredText_str (s fieldName : String) :
    storeRequiredText (.str s) fieldName =
      if strip s = "" then .error (.valueError (fieldName ++ " is required")) else .ok (strip s) := by
  have htext : ((Value.str s).pyOr "").toText = s := by
    by_cases hs : s = ""
    · subst hs
      rfl
    · simp [Value.pyOr, Value.truthy, hs, Value.toText]
  rw [storeRequiredText, htext]

/-! ### Secrets -/

structure SecretStore where
  file : Option Value
  decrypt : Dict → Except PyError Secret

namespace SecretStore

def records (store : SecretStore) : Except PyError (List Dict) :=
  loadRecords "secrets file must contain a list" store.file

def summaryOf (item : Dict) : Except PyError CredentialSummary := do
  return ⟨← storeRequiredText (item.get "provider") "provider",
    ← storeRequiredText (item.get "name") "name"⟩

def list (store : SecretStore) : Except PyError (List CredentialSummary) := do
  (← store.records).mapM summaryOf

def sameRecord (item : Dict) (provider name : String) : Bool :=
  (item.get "provider").isText provider && (item.get "name").isText name

def get (store : SecretStore) (provider name : String) : Except PyError Secret := do
  let normalizedProvider ← storeRequiredText provider "provider"
  let normalizedName ← storeRequiredText name "name"
  match (← store.records).find? fun item => sameRecord item normalizedProvider normalizedName with
  | some item => store.decrypt item
  | none => throw (.valueError
      ("broker credential is not configured: " ++ normalizedProvider ++ "/" ++ normalizedName))

/-- The order of credentials: by provider, then by name. -/
def pairLe (a b : String × String) : Prop := a.1 < b.1 ∨ a.1 = b.1 ∧ a.2 ≤ b.2

instance (a b : String × String) : Decidable (pairLe a b) := inferInstanceAs (Decidable (_ ∨ _))

/-- `str(value.get(key, ""))`. -/
def keyText (item : Dict) (key : String) : String := ((item.get? key).getD "").toText

def heartbeatCapability (store : SecretStore) (validationSummaries : List Dict) :
    Except PyError Dict := do
  let credentials := (← store.list).insertionSort fun a b =>
    pairLe (a.provider, a.name) (b.provider, b.name)
  let validations := validationSummaries.insertionSort fun a b =>
    pairLe (keyText a "provider", keyText a "name") (keyText b "provider", keyText b "name")
  let localCredentials : Value := .list (credentials.map fun item =>
    .dict [("name", .str item.name), ("provider", .str item.provider)])
  let capability : Dict :=
    if validations = [] then [("localCredentials", localCredentials)]
    else [("localCredentials", localCredentials),
      ("brokerCredentialValidations", .list (validations.map .dict))]
  rejectSecretFields [] (.dict capability)
  return capability

end SecretStore

/-! ### Validations -/

/-- The records of the validations file, none of them with a secret-like key. -/
def listPublicValidations (file : Option Value) : Except PyError (List Dict) := do
  (← loadRecords "validations file must contain a list" file).mapM fun item => do
    rejectSecretFields [] (.dict item)
    return item

/-! ### Execution results -/

structure StoredExecutionResult where
  commandId : String
  resultPayload : Dict
  status : String
  updatedAt : String

namespace ExecutionStore

/-- The entries of a file whose items are dicts. -/
def dictEntries : Dict → List (String × Dict)
  | [] => []
  | (key, .dict item) :: rest => (key.toText, item) :: dictEntries rest
  | _ :: rest => dictEntries rest

/-- `_read`; a file that does not exist is as good as an empty object. -/
def read : Value → Except PyError (List (String × Dict))
  | .dict entries => do
      rejectSecretFields [] (.dict entries)
      return dictEntries entries
  | _ => .error (.valueError "execution store must contain a JSON object")

/-- The result a record holds, if it is well formed. -/
def storedResult (commandId : String) (item : Dict) :
    Except PyError (Option StoredExecutionResult) :=
  match item.get "resultPayload", item.get "status" with
  | .dict resultPayload, .str status => do
      let updatedAt := match item.get "updatedAt" with
        | .str updatedAt => updatedAt
        | _ => ""
      rejectSecretFields [] (.dict resultPayload)
      return some ⟨commandId, resultPayload, status, updatedAt⟩
  | _, _ => .ok none

def get (file : Value) (commandId : String) : Except PyError (Option StoredExecutionResult) := do
  match (← read file).lookup commandId with
  | none => return none
  | some item => storedResult commandId item

/-- `records[key] = item`. -/
def putRecord : List (String × Dict) → String → Dict → List (String × Dict)
  | [], key, item => [(key, item)]
  | (k, old) :: rest, key, item =>
      if k = key then (k, item) :: rest else (k, old) :: putRecord rest key item

omit [Runtime] in
theorem putRecord_eq_setField (records : List (String × Dict)) (key : String) (item : Dict) :
    putRecord records key item = setField records key item := by
  induction records with
  | nil => rfl
  | cons record rest ih => rw [putRecord, setField, ih]

/-- The file after `put`. -/
def put (file : Value) (commandId status : String) (resultPayload : Dict) (now : Instant) :
    Except PyError Value := do
  rejectSecretFields [] (.dict resultPayload)
  let records := putRecord (← read file) commandId
    [("resultPayload", .dict resultPayload), ("status", status),
      ("updatedAt", utcTimestamp now)]
  return .dict (records.map fun record => (.str record.1, .dict record.2))

end ExecutionStore

end Stores

end YtmExecutor
