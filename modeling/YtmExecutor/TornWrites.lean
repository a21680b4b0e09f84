/-
What a crash in the middle of a put leaves of the execution results.

A put opens the file, which empties it, and writes the new text into it.  A crash comes
after some of these steps (`FileStep`), and every prefix of the text may be all there is.
A prefix that is not the whole text is no JSON, so no result can be read any more and no
later put can repair it; with the whole text every result is there, the new one with them.
`survives_crash_iff` puts this together.
-/
import YtmExecutor.ExecutionCache
import YtmExecutor.Python.JsonReload

namespace YtmExecutor

open Python

/-! ### Writing a file -/

/-- What `write_text` and the calls around it do to a file, one after the other. -/
inductive FileStep where
  | mkdir
  | truncate
  | write (c : Char)
  | chmod

namespace FileStep

/-- The text in the file after a step; a file that does not exist has none. -/
def run : Option (List Char) → FileStep → Option (List Char)
  | file, .mkdir => file
  | _, .truncate => some []
  | file, .write c => file.map (· ++ [c])
  | file, .chmod => file

def writeText (cs : List Char) : List FileStep := .mkdir :: .truncate :: (cs.map .write ++ [.chmod])

theorem foldl_write (cs front : List Char) :
    (cs.map write).foldl run (some front) = some (front ++ cs) := by
  induction cs generalizing front with
  | nil => rw [List.append_nil]; rfl
  | cons c cs ih =>
      show (cs.map write).foldl run (some (front ++ [c])) = _
      rw [ih, List.append_assoc]
      rfl

/-- **After a crash the file is as it was, or a prefix of the new text.** -/
theorem crash_writeText (file : Option (List Char)) (cs : List Char) (n : ℕ) :
    ((writeText cs).take n).foldl run file = if n ≤ 1 then file else some (cs.take (n - 2)) := by
  match n with
  | 0 => rfl
  | 1 => rfl
  | n + 2 =>
      have hchmod : ∀ k file, (List.take k [chmod]).foldl run file = file := by
        intro k file
        cases k with
        | zero => rfl
        | succ k => cases k <;> rfl
      show ((cs.map write ++ [chmod]).take n).foldl run (some []) = _
      rw [if_neg (by omega), List.take_append, List.foldl_append, ← List.map_take, foldl_write,
        hchmod]
      rfl

end FileStep

namespace ExecutionStore

section Records

variable [Runtime]

/-! ### Records -/

theorem passesGuard_of_get? {entries : Dict} (h : passesGuard (.dict entries) = true) {key : String}
    {v : Value} (hv : Dict.get? entries key = some v) : passesGuard v = true := by
  have hentries := entriesPassGuard_iff.mp h
  clear h
  induction entries with
  | nil => cases hv
  | cons entry rest ih =>
      rw [List.forall_mem_cons] at hentries
      rw [Dict.get?] at hv
      split at hv
      · cases hv
        exact hentries.1.2
      · exact ih hv hentries.2

theorem passesGuard_get {entries : Dict} (h : passesGuard (.dict entries) = true) (key : String) :
    passesGuard (Dict.get entries key) = true := by
  rw [Dict.get]
  cases hv : Dict.get? entries key with
  | none => rfl
  | some v => exact passesGuard_of_get? h hv

omit [Runtime] in
/-- Looking an id up among the dicts is looking it up in the file. -/
theorem lookup_dictEntries_of_isJson {entries : Dict} (h : IsJson (.dict entries)) (id : String) :
    (dictEntries entries).lookup id = (Dict.get? entries id).bind Value.dict? := by
  induction entries with
  | nil => rfl
  | cons entry rest ih =>
      obtain ⟨key, v⟩ := entry
      obtain ⟨hnodup, hkey, _, hrest⟩ := h
      rw [List.map_cons, List.nodup_cons] at hnodup
      have hih := ih ⟨hnodup.2, hrest⟩
      have hno : key = .str id → Dict.get? rest id = none := by
        rintro rfl
        exact Dict.get?_eq_none.mpr hnodup.1
      cases key with
      | str k =>
          rw [Dict.get?]
          have htext : (Key.str k).toText = k := rfl
          cases v with
          | dict item =>
              rw [dictEntries, lookup_cons, htext]
              by_cases hk : k = id
              · rw [if_pos hk.symm, if_pos (congrArg Key.str hk)]
                rfl
              · rw [if_neg (Ne.symm hk), if_neg fun heq => hk (Key.str.inj heq), hih]
          | none | bool | int | float | str | list | tuple =>
              rw [dictEntries, hih]
              · split
                · rename_i hk
                  rw [hno hk]
                  rfl
                · rfl
              · simp
      | int | float | bool | none => cases hkey

abbrev Shown := String × Except PyError Json × String × String

/-- A result, its payload as it is written. -/
def shown (result : StoredExecutionResult) : Shown :=
  (result.commandId, dumps (.dict result.resultPayload), result.status, result.updatedAt)

/-- What is shown of a record that is written so. -/
def view (id : String) (fields : List (String × Json)) : Option Shown :=
  match fields.lookup "resultPayload", fields.lookup "status" with
  | some (.object payload), some (.str status) =>
      some (id, .ok (.object payload), status,
        match fields.lookup "updatedAt" with
        | some (.str updatedAt) => updatedAt
        | _ => "")
  | _, _ => none

/-- `value if isinstance(value, str) else ""`. -/
def stringOrEmpty : Value → String
  | .str s => s
  | _ => ""

/-- **A record that passes the guard shows what is written of it.** -/
theorem storedResult_view {item : Dict} (hguard : passesGuard (.dict item) = true)
    {fields : List (String × Json)} (hof : FieldsOf item fields) (id : String) :
    (storedResult id item).map (Option.map shown) = .ok (view id fields) := by
  have htext : ∀ key, stringOrEmpty (Dict.get item key) =
      match fields.lookup key with | some (.str s) => s | _ => "" := by
    intro key
    rcases hof.get_cases key with ⟨hv, hj⟩ | ⟨j, hd, hj⟩
    · rw [hv, hj]
      rfl
    · rw [hj]
      cases hv : Dict.get item key with
      | str s =>
          rw [hv] at hd
          cases hd
          rfl
      | none | bool | int | float | list | tuple | dict =>
          have hno := (dict_or_str_of_dumps hd).2
          rw [hv] at hno
          cases j with
          | str s => cases hno s rfl
          | null | bool | int | float | array | object => rfl
  unfold storedResult view
  rcases hof.get_cases "resultPayload" with ⟨hv, hj⟩ | ⟨j, hd, hj⟩
  · rw [hv, hj]
    rfl
  · rw [hj]
    cases hv : Dict.get item "resultPayload" with
    | dict payload =>
        rw [hv] at hd
        obtain ⟨payloadFields, rfl⟩ := exists_object_of_dumps hd
        rcases hof.get_cases "status" with ⟨hs, hjs⟩ | ⟨js, hds, hjs⟩
        · rw [hs, hjs]
          rfl
        · rw [hjs]
          cases hs : Dict.get item "status" with
          | str status =>
              rw [hs] at hds
              cases hds
              have hpass : rejectSecretFields [] (.dict payload) = .ok () :=
                rejectSecretFields_eq_ok.mpr (hv ▸ passesGuard_get hguard "resultPayload")
              dsimp only
              rw [hpass, ← htext "updatedAt"]
              exact congrArg (fun j => Except.ok (some (id, j, status, _))) hd
          | none | bool | int | float | list | tuple | dict =>
              have hno := (dict_or_str_of_dumps hds).2
              rw [hs] at hno
              cases js with
              | str s => cases hno s rfl
              | null | bool | int | float | array | object => rfl
    | none | bool | int | float | str | list | tuple =>
        have hno := (dict_or_str_of_dumps hd).1
        rw [hv] at hno
        cases j with
        | object payloadFields =>
            obtain ⟨_, hdict⟩ := hno ⟨_, rfl⟩
            cases hdict
        | null | bool | int | float | str | array => rfl

/-! ### The entries after a put -/

def newRecord (call : PutCall) : Dict :=
  [("resultPayload", .dict call.resultPayload), ("status", .str call.status),
    ("updatedAt", .str (utcTimestamp call.now))]

/-- What a put makes of the entries. -/
def putEntries (entries : Dict) (call : PutCall) : Dict :=
  (putRecord (dictEntries entries) call.commandId (newRecord call)).map fun record =>
    (.str record.1, .dict record.2)

omit [Runtime] in
theorem mem_dictEntries {entries : Dict} (h : IsJson (.dict entries)) {record : String × Dict}
    (hrecord : record ∈ dictEntries entries) : (.str record.1, .dict record.2) ∈ entries := by
  induction entries with
  | nil => cases hrecord
  | cons entry rest ih =>
      obtain ⟨key, v⟩ := entry
      obtain ⟨hnodup, hkey, _, hrest⟩ := h
      have hih := ih ⟨(List.nodup_cons.mp hnodup).2, hrest⟩
      cases key with
      | str k =>
          cases v with
          | dict item =>
              rcases List.mem_cons.mp hrecord with rfl | hrecord
              · exact List.mem_cons_self
              · exact List.mem_cons_of_mem _ (hih hrecord)
          | none | bool | int | float | str | list | tuple =>
              exact List.mem_cons_of_mem _ (hih hrecord)
      | int | float | bool | none => cases hkey

omit [Runtime] in
theorem dictEntries_nodup {entries : Dict} (h : IsJson (.dict entries)) :
    ((dictEntries entries).map Prod.fst).Nodup := by
  induction entries with
  | nil => exact List.nodup_nil
  | cons entry rest ih =>
      obtain ⟨key, v⟩ := entry
      obtain ⟨hnodup, hkey, _, hrest⟩ := h
      rw [List.map_cons, List.nodup_cons] at hnodup
      have hjson : IsJson (.dict rest) := ⟨hnodup.2, hrest⟩
      cases key with
      | str k =>
          cases v with
          | dict item =>
              refine List.nodup_cons.mpr ⟨fun hmem => hnodup.1 ?_, ih hjson⟩
              obtain ⟨record, hrecord, hk⟩ := List.mem_map.mp hmem
              exact List.mem_map.mpr ⟨_, mem_dictEntries hjson hrecord, congrArg Key.str hk⟩
          | none | bool | int | float | str | list | tuple => exact ih hjson
      | int | float | bool | none => cases hkey

section PutEntries

variable {entries : Dict} {call : PutCall}

omit [Runtime] in
theorem get?_putEntries (call : PutCall) (hjson : IsJson (.dict entries)) (id : String) :
    Dict.get? (putEntries entries call) id =
      if id = call.commandId then some (.dict (newRecord call))
      else ((Dict.get? entries id).bind Value.dict?).map .dict := by
  have hrecords : ∀ records : List (String × Dict),
      Dict.get? (records.map fun record => (.str record.1, .dict record.2)) id =
        (records.lookup id).map .dict := by
    intro records
    induction records with
    | nil => rfl
    | cons record rest ih =>
        obtain ⟨k, item⟩ := record
        rw [List.map_cons, Dict.get?, lookup_cons]
        by_cases hk : id = k
        · rw [if_pos hk, if_pos (congrArg Key.str hk.symm), Option.map_some]
        · rw [if_neg hk, if_neg fun heq => hk (Key.str.inj heq).symm, ih]
  rw [putEntries, hrecords, putRecord_eq_setField, lookup_setField,
    lookup_dictEntries_of_isJson hjson]
  split
  · rfl
  · rfl

omit [Runtime] in
/-- Every entry after a put is the new record or was there. -/
theorem mem_putEntries (hjson : IsJson (.dict entries)) {entry : Key × Value}
    (h : entry ∈ putEntries entries call) :
    entry ∈ entries ∨ entry = (.str call.commandId, .dict (newRecord call)) := by
  obtain ⟨record, hrecord, rfl⟩ := List.mem_map.mp h
  rw [putRecord_eq_setField] at hrecord
  rcases mem_setField hrecord with hold | rfl
  · exact Or.inl (mem_dictEntries hjson hold)
  · exact Or.inr rfl

omit [Runtime] in
theorem isJson_newRecord (h : IsJson (.dict call.resultPayload)) :
    IsJson (.dict (newRecord call)) :=
  ⟨show List.Nodup [Key.str "resultPayload", .str "status", .str "updatedAt"] by decide,
    rfl, h, rfl, trivial, rfl, trivial, trivial⟩

omit [Runtime] in
theorem isJson_putEntries (call : PutCall) (hjson : IsJson (.dict entries))
    (h : IsJson (.dict call.resultPayload)) : IsJson (.dict (putEntries entries call)) := by
  refine ⟨?_, entriesAreJson_iff.mpr fun entry hentry => ?_⟩
  · have hkeys : (putEntries entries call).map Prod.fst =
        ((setField (dictEntries entries) call.commandId (newRecord call)).map Prod.fst).map
          Key.str := by
      rw [putEntries, putRecord_eq_setField, List.map_map, List.map_map]
      rfl
    rw [hkeys]
    exact (setField_keys_nodup (dictEntries_nodup hjson)).map fun _ _ => Key.str.inj
  · rcases mem_putEntries hjson hentry with hold | rfl
    · exact entriesAreJson_iff.mp hjson.2 entry hold
    · exact ⟨rfl, isJson_newRecord h⟩

omit [Runtime] in
theorem allFloats_putEntries {P : String → Prop} (hjson : IsJson (.dict entries))
    (hfloats : (Value.dict entries).AllFloats P)
    (h : (Value.dict call.resultPayload).AllFloats P) :
    (Value.dict (putEntries entries call)).AllFloats P := by
  refine Value.entriesAllFloats_iff.mpr fun entry hentry => ?_
  rcases mem_putEntries hjson hentry with hold | rfl
  · exact Value.entriesAllFloats_iff.mp hfloats entry hold
  · exact ⟨h, trivial, trivial, trivial⟩

theorem passesGuard_newRecord (h : passesGuard (.dict call.resultPayload) = true) :
    passesGuard (.dict (newRecord call)) = true := by
  have hpublic : ∀ key ∈ ["resultPayload", "status", "updatedAt"],
      isForbiddenKey (.str key) = false := by
    intro key hkey
    have hkeys : ∀ key ∈ ["resultPayload", "status", "updatedAt"],
        isPublicKey (.str key) = true := by decide +kernel
    exact Bool.eq_false_iff.mpr fun hforbidden =>
      not_forbidden_of_isPublicKey (hkeys key hkey) (of_decide_eq_true hforbidden)
  rw [passesGuard, entriesPassGuard_iff]
  rw [newRecord, List.forall_mem_cons, List.forall_mem_cons, List.forall_mem_singleton]
  exact ⟨⟨hpublic "resultPayload" (by simp), h⟩, ⟨hpublic "status" (by simp), rfl⟩,
    hpublic "updatedAt" (by simp), rfl⟩

/-- **After a put the file passes the guard exactly when** the new id does. -/
theorem passesGuard_putEntries (hjson : IsJson (.dict entries))
    (hguard : passesGuard (.dict entries) = true)
    (h : passesGuard (.dict call.resultPayload) = true) :
    passesGuard (.dict (putEntries entries call)) = true ↔ AllowedKey call.commandId := by
  have hid : isForbiddenKey (.str call.commandId) = false ↔ AllowedKey call.commandId :=
    allowedKey_iff.symm
  rw [← hid, passesGuard, entriesPassGuard_iff]
  rw [passesGuard, entriesPassGuard_iff] at hguard
  constructor
  · intro hall
    have hmem : (call.commandId, newRecord call) ∈
        setField (dictEntries entries) call.commandId (newRecord call) := by
      refine (lookup_eq_some_iff (setField_keys_nodup (dictEntries_nodup hjson))).mp ?_
      rw [lookup_setField, if_pos rfl]
    rw [← putRecord_eq_setField] at hmem
    exact (hall _ (List.mem_map_of_mem hmem)).1
  · intro hallowed entry hentry
    rcases mem_putEntries hjson hentry with hold | rfl
    · exact hguard entry hold
    · exact ⟨hallowed, passesGuard_newRecord h⟩

end PutEntries

end Records

section Torn

variable [Runtime] [Json.FloatRepr]

/-! ### The store on its file -/

/-- The tree a file holds.  The message of the error names a place in the text in Python. -/
def decode : Option (List Char) → Except PyError (Option Json)
  | none => .ok none
  | some cs =>
      match Json.parse cs with
      | some j => .ok (some j)
      | none => .error (.valueError "JSONDecodeError")

def getText (file : Option (List Char)) (commandId : String) :
    Except PyError (Option StoredExecutionResult) := do
  getFile (← decode file) commandId

/-- What `put` does to the file, if it comes to that. -/
def putSteps (file : Option (List Char)) (call : PutCall) : Except PyError (List FileStep) := do
  rejectSecretFields [] (.dict call.resultPayload)
  let records ← put (content (← decode file)) call.commandId call.status call.resultPayload call.now
  return FileStep.writeText (Json.text 0 (← dumps records))

/-- The file after `n` steps of a put. -/
def afterCrash (file : Option (List Char)) (call : PutCall) (n : ℕ) : Option (List Char) :=
  match putSteps file call with
  | .ok steps => (steps.take n).foldl FileStep.run file
  | .error _ => file

/-! ### What a restart finds -/

/-- What a get says. -/
def results (file : Option (List Char)) (commandId : String) : Except PyError (Option Shown) :=
  (getText file commandId).map (Option.map shown)

/-- The result that a put adds. -/
def PutCall.result (call : PutCall) : StoredExecutionResult :=
  ⟨call.commandId, call.resultPayload, call.status, utcTimestamp call.now⟩

/-- No get raises; all find what they found before, or all do but for the new result. -/
structure Survives (before : Option (List Char)) (call : PutCall) (after : Option (List Char)) :
    Prop where
  reads : ∀ id, ∃ result, getText after id = .ok result
  found : (∀ id, results after id = results before id) ∨
    ∀ id, results after id =
      if id = call.commandId then .ok (some (shown call.result)) else results before id

/-- The file is absent or holds an object that passes the guard. -/
def Readable (file : Option (List Char)) : Prop :=
  ∃ tree records, decode file = .ok tree ∧ read (content tree) = .ok records

/-- A payload of JSON, with floats as Python has them. -/
structure JsonPayload (payload : Dict) : Prop where
  json : IsJson (.dict payload)
  floats : (Value.dict payload).AllFloats Json.IsFloatText

/-! ### Files that can be read -/

/-- The entries of a file that can be read. -/
structure Holds (file : Option (List Char)) (entries : Dict) : Prop where
  tree : ∃ tree, decode file = .ok tree ∧ content tree = .dict entries
  json : IsJson (.dict entries)
  floats : (Value.dict entries).AllFloats Json.IsFloatText
  guard : passesGuard (.dict entries) = true

theorem holds_of_readable {file : Option (List Char)} (h : Readable file) :
    ∃ entries, Holds file entries := by
  obtain ⟨tree, records, htree, hread⟩ := h
  have hvalue : IsJson (content tree) ∧ (content tree).AllFloats Json.IsFloatText := by
    cases file with
    | none =>
        cases htree
        exact ⟨⟨List.nodup_nil, trivial⟩, trivial⟩
    | some cs =>
        cases hparse : Json.parse cs with
        | none =>
            rw [decode, hparse] at htree
            cases htree
        | some j =>
            rw [decode, hparse] at htree
            cases htree
            exact ⟨isJson_loads j, allFloats_loads (Json.allFloats_parse hparse)⟩
  unfold read at hread
  split at hread
  · rename_i entries hentries
    obtain ⟨_, hguard, _⟩ := bind_eq_ok.mp hread
    rw [hentries] at hvalue
    exact ⟨entries, ⟨tree, htree, hentries⟩, hvalue.1, hvalue.2, rejectSecretFields_eq_ok.mp hguard⟩
  · cases hread

namespace Holds

variable {file : Option (List Char)} {entries : Dict}

theorem read_content (h : Holds file entries) :
    ∃ tree, decode file = .ok tree ∧ content tree = .dict entries ∧
      read (content tree) = .ok (dictEntries entries) := by
  obtain ⟨tree, htree, hentries⟩ := h.tree
  refine ⟨tree, htree, hentries, ?_⟩
  rw [hentries]
  exact bind_eq_ok.mpr ⟨(), rejectSecretFields_eq_ok.mpr h.guard, rfl⟩

theorem readable (h : Holds file entries) : Readable file := by
  obtain ⟨tree, htree, _, hread⟩ := h.read_content
  exact ⟨tree, _, htree, hread⟩

/-- A get looks its id up among the entries that are dicts. -/
theorem getText_eq (h : Holds file entries) (id : String) :
    getText file id =
      match (dictEntries entries).lookup id with
      | none => .ok none
      | some item => storedResult id item := by
  obtain ⟨tree, htree, _, hread⟩ := h.read_content
  unfold getText getFile get
  rw [htree]
  show (read (content tree) >>= fun records => _) = _
  rw [hread]
  rfl

end Holds

namespace Holds

variable {file : Option (List Char)} {entries : Dict}

theorem results_eq (h : Holds file entries) (id : String) :
    results file id =
      match (Dict.get? entries id).bind Value.dict? with
      | none => .ok none
      | some item => (storedResult id item).map (Option.map shown) := by
  rw [results, h.getText_eq, lookup_dictEntries_of_isJson h.json]
  cases (Dict.get? entries id).bind Value.dict? with
  | none => rfl
  | some item => rfl

/-- An entry that is a dict shows what is written of it. -/
theorem results_of_dict (h : Holds file entries) {id : String} {item : Dict}
    (hitem : Dict.get? entries id = some (.dict item)) {fields : List (String × Json)}
    (hfields : dumps (.dict item) = .ok (.object fields)) :
    results file id = .ok (view id fields) := by
  obtain ⟨fields', heq, hof⟩ := fieldsOf_dumps (h.json.of_get? hitem) hfields
  cases heq
  rw [h.results_eq, hitem, Option.bind_some]
  exact storedResult_view (passesGuard_of_get? h.guard hitem) hof id

theorem exists_results (h : Holds file entries) (id : String) :
    ∃ result, results file id = .ok result := by
  cases hitem : (Dict.get? entries id).bind Value.dict? with
  | none => exact ⟨none, by rw [h.results_eq, hitem]⟩
  | some item =>
      obtain ⟨v, hv, hdict⟩ := Option.bind_eq_some_iff.mp hitem
      cases v with
      | dict entries =>
          obtain ⟨j, hj, _⟩ := exists_dumps (h.json.of_get? hv)
          obtain ⟨fields, rfl⟩ := exists_object_of_dumps hj
          exact ⟨_, h.results_of_dict hv hj⟩
      | none | bool | int | float | str | list | tuple => cases hdict

/-- **No get raises.** -/
theorem exists_getText (h : Holds file entries) (id : String) :
    ∃ result, getText file id = .ok result := by
  obtain ⟨result, hresult⟩ := h.exists_results id
  rw [results] at hresult
  cases hget : getText file id with
  | ok found => exact ⟨found, rfl⟩
  | error e =>
      rw [hget] at hresult
      cases hresult

end Holds

/-! ### The text of a put -/

section Written

variable {file : Option (List Char)} {entries : Dict} {call : PutCall} {written : Json}

/-- What a put writes: a tree that is read back from its text, but from no proper prefix. -/
structure Writes (entries : Dict) (call : PutCall) (written : Json) : Prop where
  dumped : dumps (.dict (putEntries entries call)) = .ok written
  container : written.IsContainer
  floats : written.AllFloats Json.IsFloatText

theorem Holds.putSteps (h : Holds file entries) (hpayload : JsonPayload call.resultPayload)
    (hguard : rejectSecretFields [] (.dict call.resultPayload) = .ok ()) :
    ∃ written, Writes entries call written ∧
      putSteps file call = .ok (FileStep.writeText (Json.text 0 written)) := by
  obtain ⟨tree, htree, _, hread⟩ := h.read_content
  obtain ⟨written, hwritten, _⟩ := exists_dumps (isJson_putEntries call h.json hpayload.json)
  obtain ⟨fields, rfl⟩ := exists_object_of_dumps hwritten
  refine ⟨.object fields, ⟨hwritten, trivial, ?_⟩, ?_⟩
  · exact allFloats_dumps hwritten (allFloats_putEntries h.json h.floats hpayload.floats)
  · refine bind_eq_ok.mpr ⟨(), hguard, bind_eq_ok.mpr ⟨tree, htree, bind_eq_ok.mpr ⟨_, ?_,
      bind_eq_ok.mpr ⟨.object fields, hwritten, rfl⟩⟩⟩⟩
    exact bind_eq_ok.mpr ⟨(), hguard, bind_eq_ok.mpr ⟨_, hread, rfl⟩⟩

omit [Runtime] in
theorem Writes.decode (h : Writes entries call written) :
    ExecutionStore.decode (some (Json.text 0 written)) = .ok (some written) := by
  rw [ExecutionStore.decode, Json.parse_text h.container h.floats]

omit [Runtime] in
theorem Writes.loads (h : Writes entries call written) (hjson : IsJson (.dict entries))
    (hpayload : IsJson (.dict call.resultPayload)) :
    ∃ fields, written = .object fields ∧ Python.loads written = .dict (loadFields fields) ∧
      FieldsOf (putEntries entries call) fields := by
  have hentries := isJson_putEntries call hjson hpayload
  obtain ⟨fields, rfl, hof⟩ := fieldsOf_dumps hentries h.dumped
  exact ⟨fields, rfl, (loads_dumps_dict hentries h.dumped).1, hof⟩

/-- What is written can be read exactly when the new id is allowed. -/
theorem Writes.passesGuard_iff (h : Writes entries call written) (hold : Holds file entries)
    (hpayload : JsonPayload call.resultPayload)
    (hguard : rejectSecretFields [] (.dict call.resultPayload) = .ok ()) :
    passesGuard (Python.loads written) = true ↔ AllowedKey call.commandId := by
  have hentries := isJson_putEntries call hold.json hpayload.json
  rw [passesGuard_loads (isSorted_dumps hentries h.dumped), allowedKeys_dumps h.dumped,
    tupleKeys_of_isJson hentries, and_iff_left (List.forall_mem_nil _)]
  exact passesGuard_putEntries hold.json hold.guard (rejectSecretFields_eq_ok.mp hguard)

/-- **The whole text holds the results from before and the new one.** -/
theorem Writes.results (h : Writes entries call written) (hold : Holds file entries)
    (hpayload : JsonPayload call.resultPayload)
    (hguard : rejectSecretFields [] (.dict call.resultPayload) = .ok ())
    (hallowed : AllowedKey call.commandId) :
    (∀ id, ∃ result, getText (some (Json.text 0 written)) id = .ok result) ∧
      ∀ id, ExecutionStore.results (some (Json.text 0 written)) id =
        if id = call.commandId then .ok (some (shown call.result))
        else ExecutionStore.results file id := by
  have hentries := isJson_putEntries call hold.json hpayload.json
  have hpass := (h.passesGuard_iff hold hpayload hguard).mpr hallowed
  have hfloats := h.floats
  have hdecode := h.decode
  obtain ⟨fields, rfl, hloads, hof⟩ := h.loads hold.json hpayload.json
  have hnew : Holds (some (Json.text 0 (.object fields))) (loadFields fields) := by
    refine ⟨⟨_, hdecode, hloads⟩, ?_, ?_, ?_⟩
    · exact hloads ▸ isJson_loads (.object fields)
    · exact hloads ▸ allFloats_loads hfloats
    · exact hloads ▸ hpass
  -- a dict of the new entries shows what is written of it
  have hdict : ∀ id item itemFields, Dict.get? (putEntries entries call) id = some (.dict item) →
      dumps (.dict item) = .ok (.object itemFields) →
        ExecutionStore.results (some (Json.text 0 (.object fields))) id =
          .ok (view id itemFields) := by
    intro id item itemFields hitem hdumped
    obtain ⟨j, hj, hd⟩ := hof.present id _ hitem
    rw [hdumped] at hd
    cases hd
    obtain ⟨hread, hwritten⟩ := loads_dumps_dict (hentries.of_get? hitem) hdumped
    refine hnew.results_of_dict ?_ hwritten
    rw [get?_loadFields, hj, Option.map_some, hread]
  refine ⟨hnew.exists_getText, fun id => ?_⟩
  by_cases hid : id = call.commandId
  · subst hid
    have hrecord : Dict.get? (putEntries entries call) call.commandId =
        some (.dict (newRecord call)) := by rw [get?_putEntries call hold.json, if_pos rfl]
    obtain ⟨j, hj, _⟩ := exists_dumps (isJson_newRecord hpayload.json)
    obtain ⟨recordFields, rfl, hrecordOf⟩ := fieldsOf_dumps (isJson_newRecord hpayload.json) hj
    rw [if_pos rfl, hdict _ _ _ hrecord hj, ← storedResult_view
      (passesGuard_newRecord (rejectSecretFields_eq_ok.mp hguard)) hrecordOf]
    show (rejectSecretFields [] (.dict call.resultPayload) >>= fun _ => _).map _ = _
    rw [hguard]
    rfl
  · rw [if_neg hid]
    have hget := get?_putEntries call hold.json id
    rw [if_neg hid] at hget
    cases hitem : (Dict.get? entries id).bind Value.dict? with
    | none =>
        rw [hitem] at hget
        rw [hold.results_eq, hitem, hnew.results_eq, get?_loadFields, hof.absent id hget]
        rfl
    | some item =>
        obtain ⟨v, hv, hdictOf⟩ := Option.bind_eq_some_iff.mp hitem
        have hvItem : v = .dict item := by
          cases v with
          | dict => exact congrArg Value.dict (Option.some.inj hdictOf)
          | none | bool | int | float | str | list | tuple => cases hdictOf
        subst hvItem
        rw [hitem] at hget
        obtain ⟨j, hj, _⟩ := exists_dumps (hold.json.of_get? hv)
        obtain ⟨itemFields, rfl⟩ := exists_object_of_dumps hj
        rw [hdict _ _ _ hget hj, hold.results_of_dict hv hj]

/-- **Of a torn text no result can be read**, and no put repairs it. -/
theorem Writes.torn (h : Writes entries call written) {n : ℕ} (hn : n < (Json.text 0 written).length) :
    (∀ id, ∃ e, getText (some ((Json.text 0 written).take n)) id = .error e) ∧
      ∀ next, ∃ e, ExecutionStore.putSteps (some ((Json.text 0 written).take n)) next = .error e := by
  have hnone : Json.parse ((Json.text 0 written).take n) = none := by
    refine Json.parse_prefix h.container h.floats 0 (List.take_append_drop n _).symm fun hdrop => ?_
    rw [List.drop_eq_nil_iff] at hdrop
    omega
  have hdecode : ∃ e, ExecutionStore.decode (some ((Json.text 0 written).take n)) = .error e := by
    rw [ExecutionStore.decode, hnone]
    exact ⟨_, rfl⟩
  obtain ⟨e, he⟩ := hdecode
  constructor
  · intro id
    rw [getText, he]
    exact ⟨e, rfl⟩
  · intro next
    unfold ExecutionStore.putSteps
    cases rejectSecretFields [] (.dict next.resultPayload) with
    | error e' => exact ⟨e', rfl⟩
    | ok =>
        rw [he]
        exact ⟨e, rfl⟩

end Written

/-! ### Crashes -/

theorem readable_of_getText {file : Option (List Char)} {id : String}
    {result : Option StoredExecutionResult} (h : getText file id = .ok result) : Readable file := by
  obtain ⟨tree, htree, h⟩ := bind_eq_ok.mp h
  obtain ⟨records, hrecords, _⟩ := bind_eq_ok.mp h
  exact ⟨tree, records, htree, hrecords⟩

/-- **The results survive a crash exactly when** they could be read before it, and it comes before
the file is opened, or after the whole text is written and the new id is no secret-like name. -/
theorem survives_crash_iff {file : Option (List Char)} {call : PutCall}
    (hpayload : JsonPayload call.resultPayload) (n : ℕ) :
    Survives file call (afterCrash file call n) ↔
      Readable file ∧ ∀ steps, putSteps file call = .ok steps →
        n ≤ 1 ∨ steps.length ≤ n + 1 ∧ AllowedKey call.commandId := by
  have hsame : ∀ {entries}, Holds file entries → Survives file call file := fun hold =>
    ⟨hold.exists_getText, Or.inl fun _ => rfl⟩
  cases hsteps : putSteps file call with
  | error e =>
      rw [afterCrash, hsteps]
      constructor
      · intro h
        obtain ⟨result, hresult⟩ := h.reads call.commandId
        exact ⟨readable_of_getText hresult, fun steps hok => by cases hok⟩
      · rintro ⟨hreadable, _⟩
        obtain ⟨entries, hold⟩ := holds_of_readable hreadable
        exact hsame hold
  | ok steps =>
      obtain ⟨_, hguard, hrest⟩ := bind_eq_ok.mp hsteps
      obtain ⟨tree, htree, hrest⟩ := bind_eq_ok.mp hrest
      obtain ⟨_, hput, _⟩ := bind_eq_ok.mp hrest
      obtain ⟨_, _, hput⟩ := bind_eq_ok.mp hput
      obtain ⟨records, hrecords, _⟩ := bind_eq_ok.mp hput
      have hreadable : Readable file := ⟨tree, records, htree, hrecords⟩
      obtain ⟨entries, hold⟩ := holds_of_readable hreadable
      obtain ⟨written, hwrites, hwritten⟩ := hold.putSteps hpayload hguard
      rw [hsteps] at hwritten
      cases hwritten
      have hlength : (FileStep.writeText (Json.text 0 written)).length =
          (Json.text 0 written).length + 3 := by simp [FileStep.writeText]
      rw [afterCrash, hsteps]
      simp only [Except.ok.injEq, forall_eq', FileStep.crash_writeText, hlength,
        and_iff_right hreadable]
      by_cases hopen : n ≤ 1
      · rw [if_pos hopen]
        exact iff_of_true (hsame hold) (Or.inl hopen)
      · rw [if_neg hopen, or_iff_right hopen]
        by_cases htorn : n - 2 < (Json.text 0 written).length
        · refine iff_of_false (fun h => ?_) (by omega)
          obtain ⟨result, hresult⟩ := h.reads call.commandId
          obtain ⟨e, he⟩ := (hwrites.torn htorn).1 call.commandId
          rw [hresult] at he
          cases he
        · rw [and_iff_right (by omega), List.take_of_length_le (by omega)]
          constructor
          · intro h
            obtain ⟨result, hresult⟩ := h.reads call.commandId
            obtain ⟨tree, records, hdecode, hread⟩ := readable_of_getText hresult
            rw [hwrites.decode] at hdecode
            cases hdecode
            refine (hwrites.passesGuard_iff hold hpayload hguard).mp ?_
            obtain ⟨_, hobject, hloads, _⟩ := hwrites.loads hold.json hpayload.json
            change read (loads written) = .ok records at hread
            rw [hloads] at hread ⊢
            obtain ⟨_, hpass, _⟩ := bind_eq_ok.mp hread
            exact rejectSecretFields_eq_ok.mp hpass
          · intro hallowed
            obtain ⟨hreads, hfound⟩ := hwrites.results hold hpayload hguard hallowed
            exact ⟨hreads, Or.inr hfound⟩

end Torn

/-! ### One crash -/

namespace Sample

theorem floatRepr_stable : ∀ literal, Json.isFloatLiteral literal = true →
    "1.0" ∈ ["inf", "-inf"] ∨ Json.isFloatLiteral "1.0".toList = true ∧ "1.0" = "1.0" :=
  fun _ _ => Or.inr ⟨by decide, rfl⟩

/-- A table of floats for files without any. -/
@[reducible] def floatRepr : Json.FloatRepr where
  floatRepr _ := "1.0"
  stable := floatRepr_stable

theorem jsonPayload_executionPut (commandId status : String) :
    @JsonPayload floatRepr (executionPut commandId status).resultPayload :=
  @JsonPayload.mk floatRepr _ (isJson_executionPut commandId status)
    ⟨trivial, trivial, trivial, trivial⟩

end Sample

/-- A file with one result, and a put of another that is cut short: right before the file is
opened, and right before it is closed. -/
theorem survives_crash_iff_sample : let _ : Runtime := Sample.runtime
    let _ : Json.FloatRepr := Sample.floatRepr
    let stored := afterCrash none (Sample.executionPut "command-1" "acknowledged") 1000
    let next := Sample.executionPut "command-2" "acknowledged"
    (∃ result, getText stored "command-1" = .ok (some result)) ∧
      Survives stored next (afterCrash stored next 1) ∧
      ∃ steps, putSteps stored next = .ok steps ∧
        Survives stored next (afterCrash stored next (steps.length - 1)) := by
  intro _ _ stored next
  obtain ⟨found, hfound, hsome⟩ := exists_ok (getText stored "command-1") Option.isSome
    (by decide +kernel)
  obtain ⟨result, rfl⟩ := Option.isSome_iff_exists.mp hsome
  obtain ⟨steps, hsteps, _⟩ := exists_ok (putSteps stored next) (fun _ => true) (by decide +kernel)
  have hreadable : Readable stored := readable_of_getText hfound
  have hpayload : JsonPayload next.resultPayload := Sample.jsonPayload_executionPut _ _
  have hallowed : AllowedKey next.commandId := by
    unfold AllowedKey
    decide +kernel
  refine ⟨⟨result, hfound⟩, (survives_crash_iff hpayload 1).mpr ⟨hreadable, fun _ _ => .inl le_rfl⟩,
    steps, hsteps, (survives_crash_iff hpayload _).mpr ⟨hreadable, fun others hothers => .inr ?_⟩⟩
  rw [hsteps] at hothers
  cases hothers
  exact ⟨by omega, hallowed⟩

/-- A crash right after the file was opened: the result of before is lost, and no id can be read. -/
theorem crash_loses_results : let _ : Runtime := Sample.runtime
    let _ : Json.FloatRepr := Sample.floatRepr
    let stored := afterCrash none (Sample.executionPut "command-1" "acknowledged") 1000
    let torn := afterCrash stored (Sample.executionPut "command-2" "acknowledged") 2
    (∃ result, getText stored "command-1" = .ok (some result)) ∧
      (∀ id result, getText torn id ≠ .ok result) ∧
      ¬Survives stored (Sample.executionPut "command-2" "acknowledged") torn := by
  intro _ _ stored torn
  have htorn : torn = some [] := by decide +kernel
  have hraise : ∀ id result, getText torn id ≠ .ok result := by
    intro id result hget
    rw [htorn] at hget
    cases hget
  obtain ⟨result, hresult, hsome⟩ := exists_ok (getText stored "command-1") Option.isSome
    (by decide +kernel)
  obtain ⟨found, rfl⟩ := Option.isSome_iff_exists.mp hsome
  refine ⟨⟨found, hresult⟩, hraise, fun h => ?_⟩
  obtain ⟨other, hother⟩ := h.reads "command-1"
  exact hraise "command-1" other hother

end ExecutionStore

end YtmExecutor
