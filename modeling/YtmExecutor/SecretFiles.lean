/-
The encrypted secret store over a run of puts.

A put reads the records, drops those of its provider and name, encrypts the secret with
the key of the host and writes the records again.  The key is made by the first put and
read from its file by all the others.  So the records are the last puts of their
credentials, every one under the same key (`Holds`), and `secret_store_map` reads off
that the store is a map.  Encryption is the business of a library: of it is assumed that
decrypting with the same key, nonce and associated data gives back what was encrypted.
-/
import YtmExecutor.Python.Bytes
import YtmExecutor.Python.JsonFlat
import YtmExecutor.Python.Keyed
import YtmExecutor.Stores

namespace YtmExecutor

open Python

/-- `AESGCM(key).encrypt` and `decrypt`. -/
class AesGcm where
  encrypt : (key nonce data associatedData : Bytes) → Bytes
  decrypt : (key nonce data associatedData : Bytes) → Except PyError Bytes

/-- What its documentation says of keys of 256 bits and nonces of 96: decryption inverts
encryption, and the result holds at least the tag. -/
structure AesGcmLaws [aes : AesGcm] : Prop where
  decrypt_encrypt : ∀ key nonce data associatedData, key.length = 32 → nonce.length = 12 →
    aes.decrypt key nonce (aes.encrypt key nonce data associatedData) associatedData = .ok data
  encrypt_ne : ∀ key nonce data associatedData, aes.encrypt key nonce data associatedData ≠ []

namespace SecretStore

/-! ### The store on its files -/

/-- The files of a store: the text of the key, and the tree of the secrets. -/
structure SecretFiles where
  key : Option String
  secrets : Option Json

/-- No file is there. -/
def SecretFiles.absent : SecretFiles := ⟨none, none⟩

/-- The arguments of a put, and what the random generator of the host hands out to it. -/
structure PutCall where
  provider : String
  name : String
  secret : Secret
  nonce : Bytes
  newKey : Bytes
  secret_nodup : (secret.map Prod.fst).Nodup
  nonce_length : nonce.length = 12
  newKey_length : newKey.length = 32

def associatedData : Bytes := encodeUtf8 "ytm-executor-local-secret-v1"

mutual

/-- `_public_metadata`: the value without its ciphertexts. -/
def publicMetadata : Value → Value
  | .dict entries => .dict (publicEntries entries)
  | .list items => .list (publicItems items)
  | v => v

def publicItems : List Value → List Value
  | [] => []
  | v :: rest => publicMetadata v :: publicItems rest

def publicEntries : List (Key × Value) → List (Key × Value)
  | [] => []
  | (key, v) :: rest =>
      if key = .str "ciphertext" then publicEntries rest
      else (key, publicMetadata v) :: publicEntries rest

end

/-- `_load_or_create_key`: the key, and the text of its file afterwards. -/
def loadOrCreateKey (file : Option String) (newKey : Bytes) : Except PyError (Bytes × String) :=
  match file with
  | some text => do return (← urlsafeB64decode text, text)
  | none => .ok (newKey, urlsafeB64encode newKey)

/-- The bytes a secret is encrypted from. -/
def secretBytes (secret : Secret) : Bytes :=
  encodeUtf8 (String.ofList (Json.flatText (sortTexts secret)))

section Store

variable [Runtime] [Json.FloatRepr] [aes : AesGcm]

/-- The record of a secret under a key. -/
def sealed (key : Bytes) (normalizedProvider normalizedName : String) (call : PutCall) : Dict :=
  [("ciphertext", urlsafeB64encode
      (aes.encrypt key call.nonce (secretBytes call.secret) associatedData)),
    ("name", normalizedName), ("nonce", urlsafeB64encode call.nonce),
    ("provider", normalizedProvider)]

/-- `put`. -/
def put (files : SecretFiles) (call : PutCall) : Except PyError SecretFiles := do
  let normalizedProvider ← storeRequiredText call.provider "provider"
  let normalizedName ← storeRequiredText call.name "name"
  raiseIf (call.secret = []) "secret must not be empty"
  let payload ← loadRecords "secrets file must contain a list" (files.secrets.map loads)
  let kept := payload.filter fun item => !sameRecord item normalizedProvider normalizedName
  let (key, keyText) ← loadOrCreateKey files.key call.newKey
  let written : Value :=
    .list ((kept ++ [sealed key normalizedProvider normalizedName call]).map .dict)
  rejectSecretFields [] (publicMetadata written)
  return { key := some keyText, secrets := some (← dumps written) }

/-- The secret in the bytes that were encrypted. -/
def secretOfBytes (raw : Bytes) : Except PyError Secret := do
  let text ← decodeUtf8 raw
  match Json.parse text.toList with
  | none => throw (.valueError "JSONDecodeError")
  | some j =>
      match loads j with
      | .dict parsed => do
          let secret := parsed.map fun entry => (entry.1.toText, entry.2.toText)
          raiseIf (secret = []) "stored broker credential is empty"
          return secret
      | _ => throw (.valueError "stored broker credential must be an object")

/-- `_decrypt`: the secret of a record, and the text of the key file afterwards. -/
def decryptRecord (file : Option String) (newKey : Bytes) (item : Dict) :
    Except PyError (Secret × String) := do
  let (key, keyText) ← loadOrCreateKey file newKey
  let ciphertext ← urlsafeB64decode
    (← storeRequiredText (item.get "ciphertext") "ciphertext")
  let nonce ← urlsafeB64decode (← storeRequiredText (item.get "nonce") "nonce")
  let raw ← aes.decrypt key nonce ciphertext associatedData
  return (← secretOfBytes raw, keyText)

/-- `get`: the secret, and the files afterwards. -/
def getSecret (files : SecretFiles) (newKey : Bytes) (provider name : String) :
    Except PyError (Secret × SecretFiles) := do
  let normalizedProvider ← storeRequiredText provider "provider"
  let normalizedName ← storeRequiredText name "name"
  let records ← loadRecords "secrets file must contain a list" (files.secrets.map loads)
  match records.find? fun item => sameRecord item normalizedProvider normalizedName with
  | some item => do
      let (secret, keyText) ← decryptRecord files.key newKey item
      return (secret, { files with key := some keyText })
  | none => throw (.valueError
      ("broker credential is not configured: " ++ normalizedProvider ++ "/" ++ normalizedName))

/-- The store as its readers see it. -/
def storeOf (files : SecretFiles) (newKey : Bytes) : SecretStore where
  file := files.secrets.map loads
  decrypt item := (decryptRecord files.key newKey item).map Prod.fst

/-- One put after the other. -/
def putAll : SecretFiles → List PutCall → Except PyError SecretFiles
  | files, [] => .ok files
  | files, call :: rest => do putAll (← put files call) rest

/-! ### The records -/

omit [Runtime] [Json.FloatRepr] aes in
/-- The credential a put is for. -/
def credentialOf (call : PutCall) : String × String := (strip call.provider, strip call.name)

/-- The record a put leaves. -/
def recordOf (key : Bytes) (call : PutCall) : Dict :=
  sealed key (strip call.provider) (strip call.name) call

omit [Runtime] [Json.FloatRepr] in
theorem recordOf_reload (key : Bytes) (call : PutCall) :
    IsJson (.dict (recordOf key call)) ∧ reload (recordOf key call) = recordOf key call := by
  have hkeys : (["ciphertext", "name", "nonce", "provider"] : List String).Pairwise (· < ·) := by
    decide +kernel
  have hreload := @reload_texts
    [("ciphertext", urlsafeB64encode
        (aes.encrypt key call.nonce (secretBytes call.secret) associatedData)),
      ("name", strip call.name), ("nonce", urlsafeB64encode call.nonce),
      ("provider", strip call.provider)] hkeys
  exact hreload

omit [Runtime] [Json.FloatRepr] in
theorem sameRecord_recordOf (key : Bytes) (call : PutCall) (provider name : String) :
    sameRecord (recordOf key call) provider name =
      decide (credentialOf call = (provider, name)) := by
  simp only [credentialOf, Prod.mk.injEq, Bool.decide_and]
  rfl

omit [Json.FloatRepr] in
/-- Nothing but the ciphertext could be secret in a record. -/
theorem guard_records (key : Bytes) (calls : List PutCall) :
    rejectSecretFields [] (publicMetadata (.list ((calls.map (recordOf key)).map .dict))) =
      .ok () := by
  refine rejectSecretFields_of_isPublic ?_
  have hname : isPublicKey (.str "name") = true := by decide +kernel
  have hnonce : isPublicKey (.str "nonce") = true := by decide +kernel
  have hprovider : isPublicKey (.str "provider") = true := by decide +kernel
  rw [publicMetadata, isPublic]
  induction calls with
  | nil => rfl
  | cons call rest ih =>
      have hrecord : publicMetadata (.dict (recordOf key call)) =
          .dict [("name", strip call.name), ("nonce", urlsafeB64encode call.nonce),
            ("provider", strip call.provider)] := rfl
      rw [List.map_cons, List.map_cons, publicItems, isPublicItems, ih, hrecord]
      simp [isPublic, isPublicEntries, hname, hnonce, hprovider]

/-! ### The invariant -/

omit [Runtime] [Json.FloatRepr] aes in
/-- The puts whose records are left. -/
def kept (puts : List PutCall) : List PutCall := Keyed.storeAll credentialOf (fun _ => true) puts

omit [Runtime] [Json.FloatRepr] aes in
/-- The last put of a credential. -/
def lastPut (puts : List PutCall) (credential : String × String) : Option PutCall :=
  Keyed.last? credentialOf puts credential

/-- The files hold the last put of every credential, under one key. -/
structure HoldsUnder (key : Bytes) (files : SecretFiles) (puts : List PutCall) : Prop where
  key_length : key.length = 32
  keyText : files.key = some (urlsafeB64encode key)
  records : loadRecords "secrets file must contain a list" (files.secrets.map loads) =
    .ok ((kept puts).map (recordOf key))

/-- The files of a store after a run of puts. -/
def Holds (files : SecretFiles) (puts : List PutCall) : Prop :=
  (files = .absent ∧ puts = []) ∨ ∃ key, HoldsUnder key files puts

/-- A put that names a credential and has a secret. -/
structure IsPut (call : PutCall) : Prop where
  provider : strip call.provider ≠ ""
  name : strip call.name ≠ ""
  secret : call.secret ≠ []

variable {files : SecretFiles} {puts : List PutCall} {call : PutCall} {key : Bytes}

omit [Runtime] [Json.FloatRepr] in
theorem kept_append (puts : List PutCall) (call : PutCall) :
    (kept (puts ++ [call])).map (recordOf key) =
      (((kept puts).map (recordOf key)).filter fun item =>
        !sameRecord item (strip call.provider) (strip call.name)) ++ [recordOf key call] := by
  rw [kept, Keyed.storeAll_append, Keyed.store, List.map_append, List.filter_map]
  congr 2
  refine List.filter_congr fun item _ => ?_
  rw [Function.comp_apply, sameRecord_recordOf, Bool.true_and]
  rfl

omit [Json.FloatRepr] in
/-- **A put that finds records under a key adds its own under this key.** -/
theorem put_records {keyText : String} (hput : IsPut call) (hlength : key.length = 32)
    (hkey : loadOrCreateKey files.key call.newKey = .ok (key, keyText))
    (htext : keyText = urlsafeB64encode key)
    (hrecords : loadRecords "secrets file must contain a list" (files.secrets.map loads) =
      .ok ((kept puts).map (recordOf key))) :
    ∃ files', put files call = .ok files' ∧ HoldsUnder key files' (puts ++ [call]) := by
  have hjson : ∀ item ∈ (kept (puts ++ [call])).map (recordOf key), IsJson (.dict item) := by
    intro item hitem
    obtain ⟨stored, _, rfl⟩ := List.mem_map.mp hitem
    exact (recordOf_reload key stored).1
  obtain ⟨j, hj, _⟩ := exists_dumps (isJson_dicts hjson)
  have hreload : ((kept (puts ++ [call])).map (recordOf key)).map reload =
      (kept (puts ++ [call])).map (recordOf key) := by
    rw [List.map_map]
    exact List.map_congr_left fun stored _ => (recordOf_reload key stored).2
  have hread := loadRecords_of_dumps "secrets file must contain a list" hjson hj
  rw [hreload] at hread
  refine ⟨⟨some keyText, some j⟩, ?_, hlength, by rw [htext], hread⟩
  rw [kept_append] at hj
  have hguard := guard_records key (kept (puts ++ [call]))
  rw [kept_append] at hguard
  rw [put, storeRequiredText_str, if_neg hput.provider, storeRequiredText_str, if_neg hput.name]
  refine bind_eq_ok.mpr ⟨_, rfl, bind_eq_ok.mpr ⟨_, rfl, bind_eq_ok.mpr ⟨(), ?_, ?_⟩⟩⟩
  · rw [raiseIf_eq_ok]
    exact hput.secret
  · refine bind_eq_ok.mpr ⟨_, hrecords, bind_eq_ok.mpr ⟨_, hkey, ?_⟩⟩
    refine bind_eq_ok.mpr ⟨(), hguard, ?_⟩
    refine bind_eq_ok.mpr ⟨_, hj, rfl⟩

omit [Json.FloatRepr] in
/-- **A put that names a credential succeeds**, and leaves the files of a store. -/
theorem Holds.put (h : Holds files puts) (hput : IsPut call) :
    ∃ files', SecretStore.put files call = .ok files' ∧ Holds files' (puts ++ [call]) := by
  rcases h with ⟨rfl, rfl⟩ | ⟨key, h⟩
  · have hkey : loadOrCreateKey SecretFiles.absent.key call.newKey =
        .ok (call.newKey, urlsafeB64encode call.newKey) := rfl
    have hrecords : loadRecords "secrets file must contain a list"
        (SecretFiles.absent.secrets.map loads) =
          .ok ((kept []).map (recordOf call.newKey)) := rfl
    obtain ⟨files', hwritten, hholds⟩ := put_records hput call.newKey_length hkey rfl hrecords
    exact ⟨files', hwritten, Or.inr ⟨_, hholds⟩⟩
  · have hkey : loadOrCreateKey files.key call.newKey = .ok (key, urlsafeB64encode key) := by
      rw [h.keyText]
      exact bind_eq_ok.mpr ⟨key, urlsafeB64decode_encode key, rfl⟩
    obtain ⟨files', hwritten, hholds⟩ := put_records hput h.key_length hkey rfl h.records
    exact ⟨files', hwritten, Or.inr ⟨key, hholds⟩⟩

omit [Json.FloatRepr] in
/-- **Every run of puts succeeds**, and leaves the files of a store. -/
theorem holds_putAll {puts : List PutCall} (hputs : ∀ call ∈ puts, IsPut call) :
    ∃ files, putAll .absent puts = .ok files ∧ Holds files puts := by
  have hrun : ∀ (rest front : List PutCall) (before : SecretFiles), Holds before front →
      (∀ call ∈ rest, IsPut call) →
      ∃ files, putAll before rest = .ok files ∧ Holds files (front ++ rest) := by
    intro rest
    induction rest with
    | nil =>
        intro front before hholds _
        exact ⟨before, rfl, by rwa [List.append_nil]⟩
    | cons call rest ih =>
        intro front before hholds hrest
        rw [List.forall_mem_cons] at hrest
        obtain ⟨next, hput, hnext⟩ := hholds.put hrest.1
        obtain ⟨files, hall, hfiles⟩ := ih (front ++ [call]) next hnext hrest.2
        refine ⟨files, bind_eq_ok.mpr ⟨next, hput, hall⟩, ?_⟩
        rwa [List.append_assoc] at hfiles
  exact hrun puts [] .absent (Or.inl ⟨rfl, rfl⟩) hputs

/-! ### What a reader finds -/

omit aes in
/-- **The secret that was encrypted is read**, in the order of its keys. -/
theorem secretOfBytes_secretBytes (hsecret : call.secret ≠ []) :
    secretOfBytes (secretBytes call.secret) = .ok (sortTexts call.secret) := by
  have hsorted : ((sortTexts call.secret).map Prod.fst).Pairwise (· < ·) :=
    sorted_insertionSort call.secret_nodup
  have htexts : ((sortTexts call.secret).map fun field =>
      ((.str field.1 : Key), (.str field.2 : Value))).map
        (fun entry => (entry.1.toText, entry.2.toText)) = sortTexts call.secret := by
    rw [List.map_map]
    exact List.map_id _
  have hne : sortTexts call.secret ≠ [] := fun hnil =>
    hsecret (List.nil_perm.mp (hnil ▸ sortTexts_perm call.secret))
  rw [secretOfBytes, secretBytes, decodeUtf8_encode]
  refine bind_eq_ok.mpr ⟨_, rfl, ?_⟩
  rw [String.toList_ofList, Json.parse_flatText]
  dsimp only
  rw [loads_flatObject hsorted]
  dsimp only
  rw [htexts]
  refine bind_eq_ok.mpr ⟨(), ?_, rfl⟩
  rw [raiseIf_eq_ok]
  exact hne

/-- **A record gives back its secret**, and the key file stays. -/
theorem decryptRecord_recordOf (laws : AesGcmLaws) (hput : IsPut call) (hlength : key.length = 32)
    (newKey : Bytes) :
    decryptRecord (some (urlsafeB64encode key)) newKey (recordOf key call) =
      .ok (sortTexts call.secret, urlsafeB64encode key) := by
  have htext {bytes : Bytes} (hne : bytes ≠ []) (fieldName : String) :
      storeRequiredText (.str (urlsafeB64encode bytes)) fieldName =
        .ok (urlsafeB64encode bytes) := by
    rw [storeRequiredText_str, strip_urlsafeB64encode, if_neg (urlsafeB64encode_ne hne)]
  have hnonce : call.nonce ≠ [] := by
    intro hnil
    have hlen := call.nonce_length
    rw [hnil] at hlen
    cases hlen
  have hcipher := laws.encrypt_ne key call.nonce (secretBytes call.secret) associatedData
  refine bind_eq_ok.mpr ⟨(key, urlsafeB64encode key),
    bind_eq_ok.mpr ⟨key, urlsafeB64decode_encode key, rfl⟩, ?_⟩
  refine bind_eq_ok.mpr ⟨_, htext hcipher "ciphertext", ?_⟩
  refine bind_eq_ok.mpr ⟨_, urlsafeB64decode_encode _, ?_⟩
  refine bind_eq_ok.mpr ⟨_, htext hnonce "nonce", ?_⟩
  refine bind_eq_ok.mpr ⟨_, urlsafeB64decode_encode _, ?_⟩
  refine bind_eq_ok.mpr ⟨_, laws.decrypt_encrypt _ _ _ _ hlength call.nonce_length, ?_⟩
  exact bind_eq_ok.mpr ⟨_, secretOfBytes_secretBytes hput.secret, rfl⟩

/-- A reader finds what `get` returns. -/
theorem get_storeOf (files : SecretFiles) (newKey : Bytes) (provider name : String) :
    (storeOf files newKey).get provider name =
      (getSecret files newKey provider name).map Prod.fst := by
  unfold SecretStore.get getSecret
  cases storeRequiredText provider "provider" with
  | error e => rfl
  | ok normalizedProvider =>
      cases storeRequiredText name "name" with
      | error e => rfl
      | ok normalizedName =>
          show (loadRecords _ (files.secrets.map loads) >>= _) =
            (loadRecords _ (files.secrets.map loads) >>= _).map Prod.fst
          cases loadRecords "secrets file must contain a list" (files.secrets.map loads) with
          | error e => rfl
          | ok records =>
              show (match records.find? fun item =>
                    sameRecord item normalizedProvider normalizedName with
                  | some item => _
                  | none => _) = Except.map Prod.fst (match records.find? fun item =>
                    sameRecord item normalizedProvider normalizedName with
                  | some item => _
                  | none => _)
              cases records.find? fun item =>
                  sameRecord item normalizedProvider normalizedName with
              | none => rfl
              | some item =>
                  show (decryptRecord files.key newKey item).map Prod.fst =
                    (decryptRecord files.key newKey item >>= fun found =>
                      .ok (found.1, { files with key := some found.2 })).map Prod.fst
                  cases decryptRecord files.key newKey item <;> rfl

/-- What a get finds after a run of puts. -/
theorem Holds.getSecret (laws : AesGcmLaws) (h : Holds files puts)
    (hputs : ∀ call ∈ puts, IsPut call) (newKey : Bytes) {provider name : String}
    (hprovider : strip provider ≠ "") (hname : strip name ≠ "") :
    SecretStore.getSecret files newKey provider name =
      match lastPut puts (strip provider, strip name) with
      | some call => .ok (sortTexts call.secret, files)
      | none => .error (.valueError ("broker credential is not configured: " ++ strip provider
          ++ "/" ++ strip name)) := by
  rw [SecretStore.getSecret, storeRequiredText_str, if_neg hprovider, storeRequiredText_str,
    if_neg hname]
  rcases h with ⟨rfl, rfl⟩ | ⟨key, h⟩
  · rfl
  · have hfind : ((kept puts).map (recordOf key)).find?
        (fun item => sameRecord item (strip provider) (strip name)) =
        (lastPut puts (strip provider, strip name)).map (recordOf key) := by
      rw [List.find?_map, lastPut, ← Keyed.find?_storeAll]
      congr 2
      funext call
      rw [Function.comp_apply, sameRecord_recordOf]
    show (loadRecords _ (files.secrets.map loads) >>= _) = _
    rw [h.records]
    show (match ((kept puts).map (recordOf key)).find?
        (fun item => sameRecord item (strip provider) (strip name)) with
      | some item => _
      | none => _) = _
    rw [hfind]
    cases hlast : lastPut puts (strip provider, strip name) with
    | none => rfl
    | some call =>
        have hput := hputs call (Keyed.mem_of_last? _ hlast)
        have hfiles : { files with key := some (urlsafeB64encode key) } = files := by
          rw [← h.keyText]
        show (decryptRecord files.key newKey (recordOf key call) >>= fun found =>
          (.ok (found.1, { files with key := some found.2 }) :
            Except PyError (Secret × SecretFiles))) = .ok (sortTexts call.secret, files)
        rw [h.keyText, decryptRecord_recordOf laws hput h.key_length newKey]
        show Except.ok (sortTexts call.secret,
          { files with key := some (urlsafeB64encode key) }) = _
        rw [hfiles]

/-- A blank provider or name is refused, whatever the files hold. -/
theorem getSecret_of_blank {provider name : String} (h : strip provider = "" ∨ strip name = "")
    (files : SecretFiles) (newKey : Bytes) :
    ∃ fieldName, SecretStore.getSecret files newKey provider name =
      .error (.valueError (fieldName ++ " is required")) ∧
      fieldName = if strip provider = "" then "provider" else "name" := by
  rw [SecretStore.getSecret, storeRequiredText_str, storeRequiredText_str]
  by_cases hprovider : strip provider = ""
  · rw [if_pos hprovider, if_pos hprovider]
    exact ⟨_, rfl, rfl⟩
  · rw [if_neg hprovider, if_neg hprovider, if_pos (h.resolve_left hprovider)]
    exact ⟨_, rfl, rfl⟩

omit [Runtime] [Json.FloatRepr] aes in
/-- What is listed of a put. -/
def summaryOfCall (call : PutCall) : CredentialSummary := ⟨strip call.provider, strip call.name⟩

omit [Json.FloatRepr] in
theorem summaryOf_recordOf (hput : IsPut call) :
    summaryOf (recordOf key call) = .ok (summaryOfCall call) := by
  have htext {s : String} (hs : strip s ≠ "") (fieldName : String) :
      storeRequiredText (.str (strip s)) fieldName = .ok (strip s) := by
    rw [storeRequiredText_str, strip_strip, if_neg hs]
  exact bind_eq_ok.mpr ⟨_, htext hput.provider "provider",
    bind_eq_ok.mpr ⟨_, htext hput.name "name", rfl⟩⟩

/-- What is listed after a run of puts. -/
theorem Holds.list (h : Holds files puts) (hputs : ∀ call ∈ puts, IsPut call) (newKey : Bytes) :
    (storeOf files newKey).list = .ok ((kept puts).map summaryOfCall) := by
  rcases h with ⟨rfl, rfl⟩ | ⟨key, h⟩
  · rfl
  · have hsummaries : ∀ calls : List PutCall, (∀ call ∈ calls, IsPut call) →
        (calls.map (recordOf key)).mapM summaryOf = .ok (calls.map summaryOfCall) := by
      intro calls hcalls
      induction calls with
      | nil => rfl
      | cons call rest ih =>
          rw [List.forall_mem_cons] at hcalls
          rw [List.map_cons, List.mapM_cons, summaryOf_recordOf hcalls.1, ih hcalls.2]
          rfl
    exact bind_eq_ok.mpr ⟨_, h.records, hsummaries _ fun call hcall =>
      hputs call (Keyed.mem_of_mem_storeAll _ _ hcall)⟩

omit [Runtime] [Json.FloatRepr] aes in
/-- Every credential that was put is listed once. -/
theorem listed_once (puts : List PutCall) :
    ((kept puts).map summaryOfCall).Nodup ∧ ∀ entry : CredentialSummary,
      entry ∈ (kept puts).map summaryOfCall ↔
        ∃ call ∈ puts, credentialOf call = (entry.provider, entry.name) := by
  have hkeys : ((kept puts).map summaryOfCall).map (fun entry => (entry.provider, entry.name)) =
      (kept puts).map credentialOf := List.map_map
  have hinj : Function.Injective fun entry : CredentialSummary => (entry.provider, entry.name) := by
    rintro ⟨provider, name⟩ ⟨provider', name'⟩ h
    obtain ⟨hprovider, hname⟩ := Prod.mk.inj h
    rw [CredentialSummary.mk.injEq]
    exact ⟨hprovider, hname⟩
  constructor
  · refine List.Nodup.of_map (fun entry => (entry.provider, entry.name)) ?_
    rw [hkeys]
    exact Keyed.nodup_storeAll credentialOf puts
  · intro entry
    rw [← Keyed.mem_keys_storeAll credentialOf]
    show _ ↔ (entry.provider, entry.name) ∈ (kept puts).map credentialOf
    rw [← hkeys]
    exact (List.mem_map_of_injective hinj).symm

/-! ### The store is a map -/

/-- A get finds the secret of the last put of its credential and changes nothing, or raises a
`ValueError`; every credential that was put is listed once; and a put changes what is found of no
other credential. -/
structure IsMap (puts : List PutCall) (files : SecretFiles) : Prop where
  get : ∀ newKey provider name call, lastPut puts (strip provider, strip name) = some call →
    ∃ secret, getSecret files newKey provider name = .ok (secret, files) ∧
      secret.Perm call.secret
  missing : ∀ newKey provider name, lastPut puts (strip provider, strip name) = none →
    ∃ message, getSecret files newKey provider name = .error (.valueError message)
  list : ∀ newKey, ∃ entries, (storeOf files newKey).list = .ok entries ∧ entries.Nodup ∧
    ∀ entry : CredentialSummary, entry ∈ entries ↔
      ∃ call ∈ puts, credentialOf call = (entry.provider, entry.name)
  frame : ∀ front call before, puts = front ++ [call] → putAll .absent front = .ok before →
    ∀ newKey provider name, (strip provider, strip name) ≠ credentialOf call →
      (getSecret files newKey provider name).map Prod.fst =
        (getSecret before newKey provider name).map Prod.fst

omit [Runtime] [Json.FloatRepr] aes in
theorem lastPut_ne_blank (hputs : ∀ call ∈ puts, IsPut call) {provider name : String} {last : PutCall}
    (h : lastPut puts (strip provider, strip name) = some last) :
    strip provider ≠ "" ∧ strip name ≠ "" := by
  have hput := hputs last (Keyed.mem_of_last? _ h)
  have hkey : credentialOf last = (strip provider, strip name) := Keyed.key_of_last? _ h
  rw [credentialOf, Prod.mk.injEq] at hkey
  exact ⟨hkey.1 ▸ hput.provider, hkey.2 ▸ hput.name⟩

/-- **The secret store is a map**, over every run of puts that starts without files. -/
theorem secret_store_map (laws : AesGcmLaws) {puts : List PutCall}
    (hputs : ∀ call ∈ puts, IsPut call) :
    ∃ files, putAll .absent puts = .ok files ∧ IsMap puts files := by
  obtain ⟨files, hall, hholds⟩ := holds_putAll hputs
  refine ⟨files, hall, ?_, ?_, ?_, ?_⟩
  · intro newKey provider name call hlast
    obtain ⟨hprovider, hname⟩ := lastPut_ne_blank hputs hlast
    refine ⟨sortTexts call.secret, ?_, sortTexts_perm _⟩
    rw [hholds.getSecret laws hputs newKey hprovider hname, hlast]
  · intro newKey provider name hlast
    by_cases hblank : strip provider = "" ∨ strip name = ""
    · obtain ⟨fieldName, hget, _⟩ := getSecret_of_blank hblank files newKey
      exact ⟨_, hget⟩
    · rw [not_or] at hblank
      rw [hholds.getSecret laws hputs newKey hblank.1 hblank.2, hlast]
      exact ⟨_, rfl⟩
  · intro newKey
    exact ⟨_, hholds.list hputs newKey, (listed_once puts).1, (listed_once puts).2⟩
  · rintro front call before rfl hfront newKey provider name hother
    have hputs' : ∀ call ∈ front, IsPut call := fun c hc => hputs c (List.mem_append_left _ hc)
    obtain ⟨before', hbefore, hholds'⟩ := holds_putAll hputs'
    rw [hfront] at hbefore
    cases hbefore
    by_cases hblank : strip provider = "" ∨ strip name = ""
    · obtain ⟨_, hget, rfl⟩ := getSecret_of_blank hblank files newKey
      obtain ⟨_, hget', rfl⟩ := getSecret_of_blank hblank before newKey
      rw [hget, hget']
    · rw [not_or] at hblank
      have hlast : lastPut (front ++ [call]) (strip provider, strip name) =
          lastPut front (strip provider, strip name) := by
        rw [lastPut, Keyed.last?_append, if_neg (Ne.symm hother)]
        rfl
      rw [hholds.getSecret laws hputs newKey hblank.1 hblank.2,
        hholds'.getSecret laws hputs' newKey hblank.1 hblank.2, hlast]
      cases lastPut front (strip provider, strip name) <;> rfl

end Store

/-! ### Two puts of one credential -/

namespace Sample

@[reducible] def runtime : Runtime := asciiRuntime []

/-- A table of floats for secrets without any. -/
@[reducible] def floatRepr : Json.FloatRepr where
  floatRepr _ := "1.0"
  stable _ _ := Or.inr ⟨by decide, rfl⟩

def key : Bytes := (List.range 32).map UInt8.ofNat

def firstNonce : Bytes := (List.range 12).map UInt8.ofNat

def secondNonce : Bytes := (List.range 12).map fun n => UInt8.ofNat (n + 12)

def firstData : Bytes := secretBytes [("token", "t1")]

def secondData : Bytes := secretBytes [("token", "t2")]

def firstCipher : Bytes :=
  [60, 32, 162, 116, 174, 128, 172, 57, 183, 99, 227, 186, 147, 148, 175, 200, 60, 250, 146, 78,
    133, 94, 164, 100, 92, 168, 2, 114, 82, 148]

def secondCipher : Bytes :=
  [227, 220, 29, 183, 20, 19, 146, 113, 13, 8, 60, 231, 179, 246, 254, 186, 55, 62, 8, 60, 162,
    168, 24, 142, 245, 210, 184, 159, 54, 94]

/-- AES-GCM on the two secrets under the key; on anything else the data with a zero tag. -/
@[reducible] def aes : AesGcm where
  encrypt k nonce data aad :=
    if k = key ∧ nonce = firstNonce ∧ data = firstData ∧ aad = associatedData then firstCipher
    else if k = key ∧ nonce = secondNonce ∧ data = secondData ∧ aad = associatedData then
      secondCipher
    else data ++ List.replicate 16 0
  decrypt k nonce cipher aad :=
    if k = key ∧ nonce = firstNonce ∧ cipher = firstCipher ∧ aad = associatedData then
      .ok firstData
    else if k = key ∧ nonce = secondNonce ∧ cipher = secondCipher ∧ aad = associatedData then
      .ok secondData
    else if cipher.drop (cipher.length - 16) = List.replicate 16 0 then
      .ok (cipher.take (cipher.length - 16))
    else .error (.other "InvalidTag" "")

theorem aesGcmLaws : @AesGcmLaws aes := by
  have hlast (data cipher : Bytes) (h : data ++ List.replicate 16 0 = cipher) :
      cipher.getLast? = some 0 := by
    rw [← h, List.getLast?_append]
    rfl
  have hfirst : firstCipher.getLast? ≠ some 0 := by decide
  have hsecond : secondCipher.getLast? ≠ some 0 := by decide
  refine @AesGcmLaws.mk aes ?_ ?_
  · intro k nonce data aad _ _
    by_cases h : k = key ∧ nonce = firstNonce ∧ data = firstData ∧ aad = associatedData
    · obtain ⟨rfl, rfl, rfl, rfl⟩ := h
      decide +kernel
    · by_cases h' : k = key ∧ nonce = secondNonce ∧ data = secondData ∧ aad = associatedData
      · obtain ⟨rfl, rfl, rfl, rfl⟩ := h'
        decide +kernel
      · have hencrypt : aes.encrypt k nonce data aad = data ++ List.replicate 16 0 := by
          show (if _ then _ else _) = _
          rw [if_neg h, if_neg h']
        rw [hencrypt]
        show (if _ then _ else _) = _
        rw [if_neg fun hc => hfirst (hlast _ _ hc.2.2.1),
          if_neg fun hc => hsecond (hlast _ _ hc.2.2.1)]
        simp
  · intro k nonce data aad
    show (if _ then _ else _) ≠ _
    split_ifs
    · decide
    · decide
    · simp

def call (provider : String) (nonce : Bytes) (token : String) (h : nonce.length = 12) : PutCall where
  provider := provider
  name := "main"
  secret := [("token", token)]
  nonce := nonce
  newKey := key
  secret_nodup := List.nodup_singleton _
  nonce_length := h
  newKey_length := rfl

end Sample

/-- The second put is for the credential of the first. -/
theorem secret_store_map_sample :
    let _ : Runtime := Sample.runtime
    let _ : Json.FloatRepr := Sample.floatRepr
    let _ : AesGcm := Sample.aes
    ∃ files, putAll .absent [Sample.call "okx" Sample.firstNonce "t1" rfl,
        Sample.call " okx " Sample.secondNonce "t2" rfl] = .ok files ∧
      ∃ secret, getSecret files [] "okx" " main " = .ok (secret, files) ∧
        secret.Perm [("token", "t2")] := by
  intro runtime floatRepr aes
  have hputs : ∀ call ∈ [Sample.call "okx" Sample.firstNonce "t1" rfl,
      Sample.call " okx " Sample.secondNonce "t2" rfl], IsPut call := by
    intro call hcall
    simp only [List.mem_cons, List.not_mem_nil, or_false] at hcall
    rcases hcall with rfl | rfl
    · exact ⟨by decide, by decide, List.cons_ne_nil _ _⟩
    · exact ⟨by decide, by decide, List.cons_ne_nil _ _⟩
  obtain ⟨files, hall, hmap⟩ := @secret_store_map Sample.runtime Sample.floatRepr Sample.aes
    Sample.aesGcmLaws _ hputs
  have hget := @hmap.get [] "okx" " main " _ rfl
  exact ⟨files, hall, hget⟩

end SecretStore

end YtmExecutor
