/-
The cache of execution results over a run of puts.

A put reads the file, changes one record and writes the file again; a get reads it.  The
payload passes the guard before it is written, and the whole file, with the command ids
for keys, passes it again whenever it is read.  So the file holds the last put of every
id (`CacheFile`) whatever the ids are, but it can be read only if none of them is a
secret-like name.  `cache_durable_iff` says that this is all that can go wrong.
-/
import YtmExecutor.Python.Fields
import YtmExecutor.SecretKeys
import YtmExecutor.Stores

namespace YtmExecutor

open Python

namespace ExecutionStore

section Cache

variable [Runtime]

/-! ### The file -/

/-- What a file reads as; one that does not exist is as good as an empty object. -/
def content : Option Json → Value
  | none => .dict []
  | some j => loads j

/-- The arguments of a put, and the time it is made at. -/
structure PutCall where
  commandId : String
  status : String
  resultPayload : Dict
  now : Instant

/-- `put` reads the file and writes it. -/
def putFile (file : Option Json) (call : PutCall) : Except PyError (Option Json) := do
  let records ← put (content file) call.commandId call.status call.resultPayload call.now
  return some (← dumps records)

def getFile (file : Option Json) (commandId : String) :
    Except PyError (Option StoredExecutionResult) := get (content file) commandId

/-- One put after the other. -/
def putAll : Option Json → List PutCall → Except PyError (Option Json)
  | file, [] => .ok file
  | file, call :: rest => do putAll (← putFile file call) rest

/-- The last put of an id. -/
def lastPut (puts : List PutCall) (commandId : String) : Option PutCall :=
  puts.reverse.find? fun call => call.commandId = commandId

omit [Runtime] in
theorem lastPut_append (puts : List PutCall) (call : PutCall) (commandId : String) :
    lastPut (puts ++ [call]) commandId =
      if call.commandId = commandId then some call else lastPut puts commandId := by
  rw [lastPut, List.reverse_append, List.reverse_singleton, List.singleton_append, List.find?_cons]
  by_cases h : call.commandId = commandId <;> simp [h, lastPut]

/-! ### Records -/

/-- A record as it is written. -/
def recordJson (payload : Json) (call : PutCall) : Json :=
  .object [("resultPayload", payload), ("status", .str call.status),
    ("updatedAt", .str (utcTimestamp call.now))]

/-- The record of a put whose payload is JSON with allowed keys. -/
structure IsRecord (call : PutCall) (payload : Json) : Prop where
  written : dumps (.dict call.resultPayload) = .ok payload
  sorted : payload.IsSorted
  allowed : ∀ key ∈ payload.keys, AllowedKey key

theorem exists_record {call : PutCall} (hjson : IsJson (.dict call.resultPayload))
    (hguard : rejectSecretFields [] (.dict call.resultPayload) = .ok ()) :
    ∃ payload, IsRecord call payload := by
  obtain ⟨payload, hwritten, hsorted⟩ := exists_dumps hjson
  refine ⟨payload, hwritten, hsorted, (allowedKeys_dumps hwritten).mpr ⟨?_, ?_⟩⟩
  · exact rejectSecretFields_eq_ok.mp hguard
  · rw [tupleKeys_of_isJson hjson]
    exact List.forall_mem_nil _

variable {call : PutCall} {payload : Json}

/-- What is read back of a payload. -/
def payloadEntries (payload : Json) : Dict := (loads payload).dict?.getD []

/-- What is read back of a record. -/
def recordEntries (payload : Json) (call : PutCall) : Dict :=
  [("resultPayload", .dict (payloadEntries payload)), ("status", call.status),
    ("updatedAt", utcTimestamp call.now)]

theorem IsRecord.loads_payload (h : IsRecord call payload) :
    loads payload = .dict (payloadEntries payload) := by
  have hwritten := h.written
  rw [dumps] at hwritten
  obtain ⟨_, _, hwritten⟩ := bind_eq_ok.mp hwritten
  obtain ⟨fields, _, hwritten⟩ := bind_eq_ok.mp hwritten
  cases hwritten
  rw [payloadEntries, loads_object h.sorted.1]
  rfl

theorem IsRecord.isSorted (h : IsRecord call payload) : (recordJson payload call).IsSorted :=
  ⟨show List.Pairwise (· < ·) ["resultPayload", "status", "updatedAt"] by decide +kernel,
    h.sorted, trivial, trivial, trivial⟩

theorem IsRecord.loads (h : IsRecord call payload) :
    loads (recordJson payload call) = .dict (recordEntries payload call) := by
  rw [recordJson, loads_object h.isSorted.1]
  simp only [loadFields, h.loads_payload]
  rfl

/-- The record that a put makes is written so. -/
theorem IsRecord.dumps (h : IsRecord call payload) :
    dumps (.dict [("resultPayload", .dict call.resultPayload), ("status", call.status),
      ("updatedAt", utcTimestamp call.now)]) = .ok (recordJson payload call) := by
  have hsort : sortFields ([("resultPayload", payload), ("status", Json.str call.status),
      ("updatedAt", Json.str (utcTimestamp call.now))].map fun field => (.str field.1, field.2)) =
      .ok [("resultPayload", payload), ("status", .str call.status),
        ("updatedAt", .str (utcTimestamp call.now))] := by
    rw [sortFields_text, (h.isSorted.1.of_map _ fun _ _ => le_of_lt).insertionSort_eq]
  have hentries : dumpEntries [("resultPayload", .dict call.resultPayload),
      ("status", .str call.status), ("updatedAt", .str (utcTimestamp call.now))] =
      .ok [(.str "resultPayload", payload), (.str "status", .str call.status),
        (.str "updatedAt", .str (utcTimestamp call.now))] := by
    rw [dumpEntries, h.written]
    rfl
  rw [Python.dumps, hentries]
  exact bind_eq_ok.mpr ⟨_, rfl, bind_eq_ok.mpr ⟨_, hsort, rfl⟩⟩

theorem IsRecord.keys (h : IsRecord call payload) :
    ∀ key ∈ (recordJson payload call).keys, AllowedKey key := by
  have hpublic : ∀ key ∈ ["resultPayload", "status", "updatedAt"],
      isPublicKey (.str key) = true := by decide +kernel
  have hown : ∀ key ∈ ["resultPayload", "status", "updatedAt"], AllowedKey key :=
    fun key hkey => @not_forbidden_of_isPublicKey _ (.str key) (hpublic key hkey)
  intro key hkey
  simp only [recordJson, Json.keys, fieldKeys, List.mem_cons, List.mem_append, List.not_mem_nil,
    or_false] at hkey
  rcases hkey with rfl | hkey | rfl | hnone | rfl
  · exact hown _ (by simp)
  · exact h.allowed key hkey
  · exact hown _ (by simp)
  · exact hnone.elim
  · exact hown _ (by simp)

/-! ### The invariant -/

/-- The file has these fields. -/
def HasFields (file : Option Json) (fields : List (String × Json)) : Prop :=
  (file = none ∧ fields = []) ∨ file = some (.object fields)

/-- The file has the record of the last put of every id, and no other. -/
structure CacheFile (file : Option Json) (puts : List PutCall) (fields : List (String × Json)) :
    Prop where
  holds : HasFields file fields
  sorted : (fields.map Prod.fst).Pairwise (· < ·)
  put : ∀ id call, lastPut puts id = some call →
    ∃ payload, IsRecord call payload ∧ fields.lookup id = some (recordJson payload call)
  absent : ∀ id, lastPut puts id = none → fields.lookup id = none

namespace CacheFile

variable {file : Option Json} {puts : List PutCall} {fields : List (String × Json)}

theorem empty : CacheFile none [] [] where
  holds := Or.inl ⟨rfl, rfl⟩
  sorted := List.Pairwise.nil
  put _ _ h := by cases h
  absent _ _ := rfl

theorem nodup (h : CacheFile file puts fields) : (fields.map Prod.fst).Nodup :=
  h.sorted.imp fun hlt => ne_of_lt hlt

/-- Every field is the record of a last put. -/
theorem record_of_mem (h : CacheFile file puts fields) {id : String} {j : Json}
    (hmem : (id, j) ∈ fields) :
    ∃ call payload, lastPut puts id = some call ∧ IsRecord call payload ∧
      j = recordJson payload call := by
  have hlookup : fields.lookup id = some j := (lookup_eq_some_iff h.nodup).mpr hmem
  cases hlast : lastPut puts id with
  | none =>
      rw [h.absent id hlast] at hlookup
      cases hlookup
  | some call =>
      obtain ⟨payload, hrecord, hfound⟩ := h.put id call hlast
      rw [hlookup] at hfound
      exact ⟨call, payload, rfl, hrecord, Option.some.inj hfound⟩

theorem fieldsSorted (h : CacheFile file puts fields) : FieldsSorted fields := by
  rw [fieldsSorted_iff]
  rintro ⟨id, j⟩ hmem
  obtain ⟨_, _, _, hrecord, rfl⟩ := h.record_of_mem hmem
  exact hrecord.isSorted

theorem read_as (h : CacheFile file puts fields) :
    content file = .dict (loadFields fields) := by
  rcases h.holds with ⟨rfl, rfl⟩ | rfl
  · rfl
  · exact loads_object h.sorted

omit [Runtime] in
theorem mem_fieldKeys {key : String} :
    key ∈ fieldKeys fields ↔ ∃ field ∈ fields, key = field.1 ∨ key ∈ field.2.keys := by
  induction fields with
  | nil => simp [fieldKeys]
  | cons field rest ih =>
      obtain ⟨k, j⟩ := field
      simp [fieldKeys, ih, or_assoc]

/-- The file passes the guard exactly when all its ids are allowed. -/
theorem passesGuard_iff (h : CacheFile file puts fields) :
    passesGuard (content file) = true ↔ ∀ id, (lastPut puts id).isSome → AllowedKey id := by
  have hsorted : (Json.object fields).IsSorted := ⟨h.sorted, h.fieldsSorted⟩
  rw [h.read_as, ← loads_object h.sorted, passesGuard_loads hsorted]
  constructor
  · intro hall id hid
    obtain ⟨call, hcall⟩ := Option.isSome_iff_exists.mp hid
    obtain ⟨payload, _, hlookup⟩ := h.put id call hcall
    exact hall id (mem_fieldKeys.mpr ⟨_, (lookup_eq_some_iff h.nodup).mp hlookup, Or.inl rfl⟩)
  · intro hall key hkey
    obtain ⟨⟨id, j⟩, hmem, rfl | hkey⟩ := mem_fieldKeys.mp hkey
    · obtain ⟨call, _, hcall, _, _⟩ := h.record_of_mem hmem
      exact hall _ (by rw [hcall]; rfl)
    · obtain ⟨_, _, _, hrecord, rfl⟩ := h.record_of_mem hmem
      exact hrecord.keys key hkey

/-- The records of a file that can be read. -/
theorem read_content (h : CacheFile file puts fields)
    (hguard : passesGuard (content file) = true) :
    read (content file) = .ok (dictEntries (loadFields fields)) := by
  rw [h.read_as] at hguard ⊢
  exact bind_eq_ok.mpr ⟨(), rejectSecretFields_eq_ok.mpr hguard, rfl⟩

/-- A file that was read passed the guard. -/
theorem guard_of_read (h : CacheFile file puts fields) {records : List (String × Dict)}
    (hread : read (content file) = .ok records) : passesGuard (content file) = true := by
  rw [h.read_as] at hread ⊢
  obtain ⟨_, hguard, _⟩ := bind_eq_ok.mp hread
  exact rejectSecretFields_eq_ok.mp hguard

end CacheFile

/-! ### What a get and a put do to such a file -/

section Operations

variable {file : Option Json} {puts : List PutCall} {fields : List (String × Json)}

/-- Fields that are objects with their keys in order. -/
def FieldsAreRecords (fields : List (String × Json)) : Prop :=
  ∀ field ∈ fields, field.2.IsSorted ∧ ∃ entries, loads field.2 = .dict entries

theorem CacheFile.records (h : CacheFile file puts fields) : FieldsAreRecords fields := by
  rintro ⟨id, j⟩ hmem
  obtain ⟨_, _, _, hrecord, rfl⟩ := h.record_of_mem hmem
  exact ⟨hrecord.isSorted, _, hrecord.loads⟩

omit [Runtime] in
/-- Looking up what was read is reading what is looked up. -/
theorem lookup_dictEntries (h : FieldsAreRecords fields) (id : String) :
    (dictEntries (loadFields fields)).lookup id = (fields.lookup id).bind fun j => (loads j).dict? := by
  induction fields with
  | nil => rfl
  | cons field rest ih =>
      obtain ⟨k, j⟩ := field
      obtain ⟨entries, hentries⟩ := (h _ List.mem_cons_self).2
      have hrest := ih fun field hfield => h field (List.mem_cons_of_mem _ hfield)
      dsimp only at hentries
      rw [loadFields, hentries]
      show ((k, entries) :: dictEntries (loadFields rest)).lookup id = _
      rw [lookup_cons, lookup_cons]
      by_cases hid : id = k
      · rw [if_pos hid, if_pos hid, Option.bind_some, hentries]
        rfl
      · rw [if_neg hid, if_neg hid, hrest]

omit [Runtime] in
/-- Writing a record over what was read gives the fields with this record. -/
theorem dumpEntries_putRecord (h : FieldsAreRecords fields) (id : String) {record : Dict}
    {j : Json} (hrecord : dumps (.dict record) = .ok j) :
    dumpEntries ((putRecord (dictEntries (loadFields fields)) id record).map fun entry =>
      (.str entry.1, .dict entry.2)) =
      .ok ((setField fields id j).map fun field => (.str field.1, field.2)) := by
  have hwritten : ∀ {fields}, FieldsAreRecords fields →
      dumpEntries ((dictEntries (loadFields fields)).map fun entry =>
        (.str entry.1, .dict entry.2)) = .ok (fields.map fun field => (.str field.1, field.2)) := by
    intro fields h
    induction fields with
    | nil => rfl
    | cons field rest ih =>
        obtain ⟨k, j⟩ := field
        obtain ⟨hsorted, entries, hentries⟩ := h _ List.mem_cons_self
        dsimp only at hentries hsorted
        have hj := dumps_loads hsorted
        rw [hentries] at hj
        rw [loadFields, hentries]
        show dumpEntries ((.str k, .dict entries) ::
          (dictEntries (loadFields rest)).map fun entry => (.str entry.1, .dict entry.2)) = _
        rw [dumpEntries, hj, ih fun field hfield => h field (List.mem_cons_of_mem _ hfield)]
        rfl
  induction fields with
  | nil =>
      show dumpEntries [(.str id, .dict record)] = _
      rw [dumpEntries, hrecord]
      rfl
  | cons field rest ih =>
      obtain ⟨k, old⟩ := field
      obtain ⟨hsorted, entries, hentries⟩ := h _ List.mem_cons_self
      have hrest : FieldsAreRecords rest := fun field hfield =>
        h field (List.mem_cons_of_mem _ hfield)
      dsimp only at hentries hsorted
      have hold := dumps_loads hsorted
      rw [hentries] at hold
      rw [loadFields, hentries, setField]
      show dumpEntries ((putRecord ((k, entries) :: dictEntries (loadFields rest)) id record).map
        fun entry => (.str entry.1, .dict entry.2)) = _
      rw [putRecord]
      by_cases hid : k = id
      · rw [if_pos hid, if_pos hid, List.map_cons, List.map_cons, dumpEntries, hrecord,
          hwritten hrest]
        rfl
      · rw [if_neg hid, if_neg hid, List.map_cons, List.map_cons, dumpEntries, hold, ih hrest]
        rfl

/-- **A put that is accepted leaves a file with its record**, whatever its id is. -/
theorem CacheFile.putFile (h : CacheFile file puts fields) {call : PutCall}
    (hjson : IsJson (.dict call.resultPayload))
    (hguard : rejectSecretFields [] (.dict call.resultPayload) = .ok ())
    (hpass : passesGuard (content file) = true) :
    ∃ file' fields', ExecutionStore.putFile file call = .ok file' ∧
      CacheFile file' (puts ++ [call]) fields' := by
  obtain ⟨payload, hrecord⟩ := exists_record hjson hguard
  have hnodup := @setField_keys_nodup _ fields call.commandId (recordJson payload call) h.nodup
  have hperm := List.perm_insertionSort (fun a b : String × Json => a.1 ≤ b.1)
    (setField fields call.commandId (recordJson payload call))
  refine ⟨some (.object _), _, ?_, Or.inr rfl, sorted_insertionSort hnodup, ?_, ?_⟩
  · refine bind_eq_ok.mpr ⟨_, bind_eq_ok.mpr ⟨(), hguard, bind_eq_ok.mpr
      ⟨_, h.read_content hpass, rfl⟩⟩, bind_eq_ok.mpr ⟨_, ?_, rfl⟩⟩
    rw [dumps, dumpEntries_putRecord h.records call.commandId hrecord.dumps]
    exact bind_eq_ok.mpr ⟨_, rfl, bind_eq_ok.mpr ⟨_, sortFields_text, rfl⟩⟩
  · intro id last hlast
    rw [lookup_perm hnodup hperm, lookup_setField]
    rw [lastPut_append] at hlast
    by_cases hid : call.commandId = id
    · rw [if_pos hid] at hlast
      cases hlast
      exact ⟨payload, hrecord, if_pos hid.symm⟩
    · rw [if_neg hid] at hlast
      rw [if_neg (Ne.symm hid)]
      exact h.put id last hlast
  · intro id hlast
    rw [lookup_perm hnodup hperm, lookup_setField]
    rw [lastPut_append] at hlast
    by_cases hid : call.commandId = id
    · rw [if_pos hid] at hlast
      cases hlast
    · rw [if_neg hid] at hlast
      rw [if_neg (Ne.symm hid)]
      exact h.absent id hlast

/-- The result a get finds for a put. -/
def resultOf (call : PutCall) (payload : Json) : StoredExecutionResult :=
  ⟨call.commandId, payloadEntries payload, call.status, utcTimestamp call.now⟩

/-- **A get finds the last put of its id**, if the file can be read. -/
theorem CacheFile.getFile (h : CacheFile file puts fields)
    (hpass : passesGuard (content file) = true) (id : String) :
    (∀ call, lastPut puts id = some call → ∃ payload, IsRecord call payload ∧
      ExecutionStore.getFile file id = .ok (some (resultOf call payload))) ∧
    (lastPut puts id = none → ExecutionStore.getFile file id = .ok none) := by
  have hget : ExecutionStore.getFile file id =
      ((fields.lookup id).bind fun j => (loads j).dict?).elim (.ok none) (storedResult id) := by
    unfold ExecutionStore.getFile get
    rw [h.read_content hpass, ← lookup_dictEntries h.records]
    dsimp only [bind, Except.bind]
    cases (dictEntries (loadFields fields)).lookup id <;> rfl
  constructor
  · intro call hcall
    obtain ⟨payload, hrecord, hlookup⟩ := h.put id call hcall
    refine ⟨payload, hrecord, ?_⟩
    have hid : call.commandId = id := by
      unfold lastPut at hcall
      simpa using List.find?_some hcall
    have hpayload : rejectSecretFields [] (.dict (payloadEntries payload)) = .ok () := by
      rw [rejectSecretFields_eq_ok, ← hrecord.loads_payload, passesGuard_loads hrecord.sorted]
      exact hrecord.allowed
    rw [hget, hlookup, Option.bind_some, hrecord.loads]
    show (rejectSecretFields [] (.dict (payloadEntries payload)) >>= fun _ => _) = _
    rw [hpayload, ← hid]
    rfl
  · intro hnone
    rw [hget, h.absent id hnone]
    rfl

end Operations

/-! ### Runs of puts -/

/-- An accepted put: its payload passes, and so does the file. -/
theorem CacheFile.of_putFile {file file' : Option Json} {puts : List PutCall}
    {fields : List (String × Json)} (h : CacheFile file puts fields) {call : PutCall}
    (hjson : IsJson (.dict call.resultPayload))
    (hput : ExecutionStore.putFile file call = .ok file') :
    passesGuard (content file) = true ∧ ∃ fields', CacheFile file' (puts ++ [call]) fields' := by
  obtain ⟨records, hrecords, hwrite⟩ := bind_eq_ok.mp hput
  obtain ⟨_, hguard, hread⟩ := bind_eq_ok.mp hrecords
  obtain ⟨entries, hentries, _⟩ := bind_eq_ok.mp hread
  have hpass := h.guard_of_read hentries
  obtain ⟨written, fields', hwritten, hfile⟩ := h.putFile hjson hguard hpass
  rw [hput] at hwritten
  cases hwritten
  exact ⟨hpass, fields', hfile⟩

/-- **After a run of accepted puts the file holds the last put of every id.** -/
theorem cacheFile_putAll {puts : List PutCall} {file' : Option Json}
    (hjson : ∀ call ∈ puts, IsJson (.dict call.resultPayload))
    (h : putAll none puts = .ok file') : ∃ fields, CacheFile file' puts fields := by
  have hrun : ∀ (rest front : List PutCall) (file : Option Json) (fields : List (String × Json)),
      CacheFile file front fields → (∀ call ∈ rest, IsJson (.dict call.resultPayload)) →
      putAll file rest = .ok file' → ∃ fields', CacheFile file' (front ++ rest) fields' := by
    intro rest
    induction rest with
    | nil =>
        intro front file fields hfile _ hrest
        cases hrest
        exact ⟨fields, by rwa [List.append_nil]⟩
    | cons call rest ih =>
        intro front file fields hfile hjson hrest
        obtain ⟨next, hput, hrest⟩ := bind_eq_ok.mp hrest
        obtain ⟨_, fields', hnext⟩ := hfile.of_putFile (hjson call List.mem_cons_self) hput
        obtain ⟨fields'', hfinal⟩ := ih (front ++ [call]) next fields' hnext
          (fun call hcall => hjson call (List.mem_cons_of_mem _ hcall)) hrest
        exact ⟨fields'', by rwa [List.append_assoc] at hfinal⟩
  exact hrun puts [] none [] CacheFile.empty hjson h

/-- The cache is a map: every get finds the last put of its id, every put that has a good payload
is accepted, and a put changes no other id. -/
structure DurableMap (puts : List PutCall) (file : Option Json) : Prop where
  get : ∀ id call, lastPut puts id = some call → ∃ result, getFile file id = .ok (some result) ∧
    result.status = call.status ∧
    dumps (.dict result.resultPayload) = dumps (.dict call.resultPayload)
  getNone : ∀ id, lastPut puts id = none → getFile file id = .ok none
  put : ∀ call, IsJson (.dict call.resultPayload) →
    rejectSecretFields [] (.dict call.resultPayload) = .ok () → ∃ file', putFile file call = .ok file'
  frame : ∀ front call before, puts = front ++ [call] → putAll none front = .ok before →
    ∀ id, id ≠ call.commandId → getFile file id = getFile before id

omit [Runtime] in
theorem isSome_lastPut {puts : List PutCall} {id : String} :
    (lastPut puts id).isSome ↔ ∃ call ∈ puts, call.commandId = id := by
  rw [lastPut, List.find?_isSome]
  simp

theorem IsRecord.unique {call : PutCall} {payload payload' : Json} (h : IsRecord call payload)
    (h' : IsRecord call payload') : payload = payload' := by
  have := h.written
  rw [h'.written] at this
  exact (Except.ok.inj this).symm

/-- **The cache is durable exactly when** no command id is a secret-like name. -/
theorem cache_durable_iff {puts : List PutCall} {file : Option Json}
    (hjson : ∀ call ∈ puts, IsJson (.dict call.resultPayload))
    (hputs : putAll none puts = .ok file) :
    DurableMap puts file ↔ ∀ call ∈ puts, AllowedKey call.commandId := by
  obtain ⟨fields, hfile⟩ := cacheFile_putAll hjson hputs
  have hpass : passesGuard (content file) = true ↔ ∀ call ∈ puts, AllowedKey call.commandId := by
    rw [hfile.passesGuard_iff]
    simp only [isSome_lastPut]
    exact ⟨fun h call hcall => h _ ⟨call, hcall, rfl⟩,
      fun h id ⟨call, hcall, hid⟩ => hid ▸ h call hcall⟩
  rw [← hpass]
  constructor
  · intro h
    have hread : ∃ result, getFile file "" = .ok result := by
      cases hlast : lastPut puts "" with
      | none => exact ⟨_, h.getNone "" hlast⟩
      | some call =>
          obtain ⟨result, hresult, _⟩ := h.get "" call hlast
          exact ⟨_, hresult⟩
    obtain ⟨result, hresult⟩ := hread
    obtain ⟨records, hrecords, _⟩ := bind_eq_ok.mp hresult
    exact hfile.guard_of_read hrecords
  · intro hguard
    refine ⟨?_, ?_, ?_, ?_⟩
    · intro id call hcall
      obtain ⟨payload, hrecord, hget⟩ := (hfile.getFile hguard id).1 call hcall
      refine ⟨_, hget, rfl, ?_⟩
      rw [hrecord.written, ← dumps_loads hrecord.sorted, hrecord.loads_payload]
      rfl
    · exact fun id hnone => (hfile.getFile hguard id).2 hnone
    · intro call hcall hpayload
      obtain ⟨file', _, hput, _⟩ := hfile.putFile hcall hpayload hguard
      exact ⟨file', hput⟩
    · rintro front call before rfl hfront id hid
      obtain ⟨_, hbefore⟩ := cacheFile_putAll
        (fun call hcall => hjson call (List.mem_append_left _ hcall)) hfront
      have hguardBefore : passesGuard (content before) = true := by
        refine hbefore.passesGuard_iff.mpr fun id hid => ?_
        obtain ⟨call, hcall, rfl⟩ := isSome_lastPut.mp hid
        exact hpass.mp hguard call (List.mem_append_left _ hcall)
      have hlast : lastPut (front ++ [call]) id = lastPut front id := by
        rw [lastPut_append, if_neg (Ne.symm hid)]
      cases hfound : lastPut front id with
      | none =>
          rw [(hfile.getFile hguard id).2 (hlast.trans hfound),
            (hbefore.getFile hguardBefore id).2 hfound]
      | some last =>
          obtain ⟨payload, hrecord, hget⟩ := (hfile.getFile hguard id).1 last (hlast.trans hfound)
          obtain ⟨payload', hrecord', hget'⟩ :=
            (hbefore.getFile hguardBefore id).1 last hfound
          rw [hget, hget', hrecord.unique hrecord']

end Cache

/-! ### One cache -/

namespace Sample

@[reducible] def runtime : Runtime := asciiRuntime []

def executionPut (commandId status : String) : PutCall :=
  ⟨commandId, status, [("executorAction", "order_submitted"),
    ("providerOrderId", "okx-order-1"), ("zeroSecret", .bool true)], 1778407200000000⟩

def executionPuts : List PutCall :=
  [executionPut "command-1" "rejected", executionPut "command-2" "acknowledged",
    executionPut "command-1" "acknowledged"]

theorem isJson_executionPut (commandId status : String) :
    IsJson (.dict (executionPut commandId status).resultPayload) :=
  ⟨show List.Nodup [Key.str "executorAction", .str "providerOrderId", .str "zeroSecret"] by decide,
    rfl, trivial, rfl, trivial, rfl, trivial, trivial⟩

end Sample

theorem cache_durable_iff_sample :
    ∃ file, @putAll Sample.runtime none Sample.executionPuts = .ok file ∧
      @DurableMap Sample.runtime Sample.executionPuts file := by
  let _ : Runtime := Sample.runtime
  obtain ⟨file, hputs, _⟩ := exists_ok (putAll none Sample.executionPuts) (fun _ => true)
    (by decide +kernel)
  have hjson : ∀ call ∈ Sample.executionPuts, IsJson (.dict call.resultPayload) := by
    rw [Sample.executionPuts]
    intro call hcall
    simp only [List.mem_cons, List.not_mem_nil, or_false] at hcall
    rcases hcall with rfl | rfl | rfl <;> exact Sample.isJson_executionPut _ _
  refine ⟨file, hputs, (cache_durable_iff hjson hputs).mpr ?_⟩
  unfold AllowedKey
  decide +kernel

/-- A put whose id is a secret-like name is accepted, and no get after it is answered. -/
theorem token_id_blocks_cache : ∃ file,
    @putAll Sample.runtime none [Sample.executionPut "token" "acknowledged"] = .ok file ∧
      (∀ id result, @getFile Sample.runtime file id ≠ .ok result) ∧
      ¬@DurableMap Sample.runtime [Sample.executionPut "token" "acknowledged"] file := by
  let _ : Runtime := Sample.runtime
  have hjson : ∀ call ∈ [Sample.executionPut "token" "acknowledged"],
      IsJson (.dict call.resultPayload) :=
    List.forall_mem_singleton.mpr (Sample.isJson_executionPut _ _)
  obtain ⟨file, hputs, hcheck⟩ := exists_ok
    (putAll none [Sample.executionPut "token" "acknowledged"])
    (fun file => !passesGuard (content file)) (by decide +kernel)
  obtain ⟨fields, hfile⟩ := cacheFile_putAll hjson hputs
  have hraise : ∀ id result, getFile file id ≠ .ok result := by
    intro id result hget
    obtain ⟨records, hrecords, _⟩ := bind_eq_ok.mp hget
    rw [hfile.guard_of_read hrecords] at hcheck
    cases hcheck
  refine ⟨file, hputs, hraise, fun h => ?_⟩
  obtain ⟨result, hresult, _⟩ := h.get "token" _ rfl
  exact hraise _ _ hresult

end ExecutionStore

end YtmExecutor
