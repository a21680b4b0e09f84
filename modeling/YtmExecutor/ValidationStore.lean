/-
The store of validation summaries over a run of puts.

A put looks for the records of its provider and name stripped of white space, and then
keeps the summary as it was given.  So a summary whose provider or name has white space
around it is found by no later put: it stays beside the newer ones.
`oneRecord_iff` says that this is all that can go wrong.
-/
import YtmExecutor.Python.Keyed
import YtmExecutor.SecretKeys
import YtmExecutor.Stores

namespace YtmExecutor

open Python

namespace ValidationStore

section Store

variable [Runtime]

/-! ### The store -/

def records (file : Option Value) : Except PyError (List Dict) :=
  loadRecords "validations file must contain a list" file

/-- The records that `put` leaves; the writer holds them against the guard once more. -/
def put (file : Option Value) (summary : Dict) : Except PyError Value := do
  rejectSecretFields [] (.dict summary)
  let provider ← storeRequiredText (summary.get "provider") "provider"
  let name ← storeRequiredText (summary.get "name") "name"
  let kept := (← records file).filter fun item =>
    !((item.get "provider").isText provider && (item.get "name").isText name)
  let written : Value := .list ((kept ++ [summary]).map .dict)
  rejectSecretFields [] written
  return written

/-- `put` reads the file and writes it. -/
def putFile (file : Option Json) (summary : Dict) : Except PyError (Option Json) := do
  return some (← dumps (← put (file.map loads) summary))

/-- One put after the other. -/
def putAll : Option Json → List Dict → Except PyError (Option Json)
  | file, [] => .ok file
  | file, summary :: rest => do putAll (← putFile file summary) rest

/-- `list_public` of the file. -/
def listPublic (file : Option Json) : Except PyError (List Dict) :=
  listPublicValidations (file.map loads)

/-! ### Credentials -/

omit [Runtime] in
/-- The provider and the name of a summary, stripped. -/
def credentialOf (summary : Dict) : String × String :=
  ((summary.get "provider").text, (summary.get "name").text)

omit [Runtime] in
/-- The provider and the name stand in the summary without white space around them. -/
def isStripped (summary : Dict) : Bool :=
  (summary.get "provider").isText (credentialOf summary).1 &&
    (summary.get "name").isText (credentialOf summary).2

/-- A summary that is JSON and has texts for its provider and name. -/
structure IsSummary (summary : Dict) : Prop where
  json : IsJson (.dict summary)
  provider : ∃ s, summary.get "provider" = .str s
  name : ∃ s, summary.get "name" = .str s

omit [Runtime] in
theorem isText_stripped {v : Value} {s : String} (h : strip s = s) :
    v.isText s = (v.isText v.text && decide (v.text = s)) := by
  cases v with
  | str t =>
      simp only [Value.isText, Value.text]
      by_cases ht : t = s
      · subst ht
        simp [h]
      · by_cases hstrip : strip t = s
        · have hne : t ≠ strip t := fun heq => ht (heq.trans hstrip)
          simp [ht, hne]
        · simp [ht, hstrip]
  | none | bool | int | float | list | tuple | dict => rfl

omit [Runtime] in
/-- What a put drops: the records that show its credential. -/
theorem same_iff (item summary : Dict) :
    ((item.get "provider").isText (credentialOf summary).1 &&
      (item.get "name").isText (credentialOf summary).2) =
      (isStripped item && decide (credentialOf item = credentialOf summary)) := by
  have hstrip (v : Value) : strip v.text = v.text := by
    cases v with
    | str s => exact strip_strip s
    | none | bool | int | float | list | tuple | dict => rfl
  unfold isStripped credentialOf
  dsimp only
  rw [isText_stripped (hstrip (summary.get "provider")),
    isText_stripped (hstrip (summary.get "name"))]
  simp only [Prod.mk.injEq, Bool.decide_and]
  cases (item.get "provider").isText (item.get "provider").text <;>
    cases (item.get "name").isText (item.get "name").text <;> simp

theorem storeRequiredText_of_text {v : Value} {fieldName text s : String} (hv : v = .str s)
    (h : storeRequiredText v fieldName = .ok text) : text = v.text := by
  rw [hv, storeRequiredText_str] at h
  rw [hv]
  split at h
  · cases h
  · exact (Except.ok.inj h).symm

omit [Runtime] in
theorem credentialOf_reload {summary : Dict} (h : IsJson (.dict summary)) :
    credentialOf (reload summary) = credentialOf summary := by
  rw [credentialOf, credentialOf, text_reload h, text_reload h]

omit [Runtime] in
theorem isStripped_reload {summary : Dict} (h : IsJson (.dict summary)) :
    isStripped (reload summary) = isStripped summary := by
  rw [isStripped, isStripped, credentialOf_reload h, isText_reload h, isText_reload h]

theorem passesGuard_reload {summary : Dict} (h : IsJson (.dict summary)) :
    passesGuard (.dict (reload summary)) = true ↔ passesGuard (.dict summary) = true := by
  obtain ⟨j, hj, _, _⟩ := reload_spec h
  have hkeys := allowedKeys_dumps hj
  have hreload := allowedKeys_dumps ((dumps_reload h).trans hj)
  rw [tupleKeys_of_isJson h] at hkeys
  rw [tupleKeys_of_isJson (isJson_reload h), hkeys] at hreload
  simpa using hreload.symm

/-! ### What the file holds -/

/-- The summaries a run of puts leaves in the file. -/
def kept (puts : List Dict) : List Dict := Keyed.storeAll credentialOf isStripped puts

/-- The summaries a put leaves of those before it. -/
def unmatched (puts : List Dict) (summary : Dict) : List Dict :=
  (kept puts).filter fun item =>
    !(isStripped item && decide (credentialOf item = credentialOf summary))

omit [Runtime] in
theorem kept_append (puts : List Dict) (summary : Dict) :
    kept (puts ++ [summary]) = unmatched puts summary ++ [summary] := by
  rw [kept, Keyed.storeAll_append]
  rfl

/-- The file holds the summaries that a run of puts leaves. -/
def Holds (file : Option Json) (puts : List Dict) : Prop :=
  records (file.map loads) = .ok ((kept puts).map reload)

omit [Runtime] in
theorem holds_nil : Holds none [] := rfl

omit [Runtime] in
theorem isJson_of_kept {puts : List Dict} (hputs : ∀ summary ∈ puts, IsSummary summary)
    {summary : Dict} (h : summary ∈ kept puts) : IsJson (.dict summary) :=
  (hputs summary (Keyed.mem_of_mem_storeAll _ _ h)).json

omit [Runtime] in
/-- Dropping from what was read is reading what is dropped from. -/
theorem filter_map_reload {puts : List Dict} (hputs : ∀ summary ∈ puts, IsSummary summary)
    (summary : Dict) :
    ((kept puts).map reload).filter (fun item =>
      !((item.get "provider").isText (credentialOf summary).1 &&
        (item.get "name").isText (credentialOf summary).2)) =
      (unmatched puts summary).map reload := by
  rw [List.filter_map, unmatched]
  congr 1
  refine List.filter_congr fun item hitem => ?_
  have hjson := isJson_of_kept hputs hitem
  rw [Function.comp_apply, same_iff, isStripped_reload hjson, credentialOf_reload hjson]

/-- **A put that succeeds keeps its summary**, and drops those that show its credential. -/
theorem Holds.putFile {file file' : Option Json} {puts : List Dict} {summary : Dict}
    (h : Holds file puts) (hputs : ∀ summary ∈ puts, IsSummary summary) (hnew : IsSummary summary)
    (hput : ValidationStore.putFile file summary = .ok file') :
    Holds file' (puts ++ [summary]) ∧ passesGuard (.dict summary) = true := by
  obtain ⟨written, hwritten, hput⟩ := bind_eq_ok.mp hput
  obtain ⟨j, hj, hput⟩ := bind_eq_ok.mp hput
  cases hput
  obtain ⟨_, hguard, hwritten⟩ := bind_eq_ok.mp hwritten
  obtain ⟨provider, hprovider, hwritten⟩ := bind_eq_ok.mp hwritten
  obtain ⟨name, hname, hwritten⟩ := bind_eq_ok.mp hwritten
  obtain ⟨read, hread, hwritten⟩ := bind_eq_ok.mp hwritten
  obtain ⟨_, _, hwritten⟩ := bind_eq_ok.mp hwritten
  cases hwritten
  refine ⟨?_, rejectSecretFields_eq_ok.mp hguard⟩
  obtain ⟨_, hprovider'⟩ := hnew.provider
  obtain ⟨_, hname'⟩ := hnew.name
  obtain rfl := storeRequiredText_of_text hprovider' hprovider
  obtain rfl := storeRequiredText_of_text hname' hname
  rw [h] at hread
  cases hread
  have hdropped := filter_map_reload hputs summary
  rw [credentialOf] at hdropped
  dsimp only at hdropped
  rw [hdropped] at hj
  have hstay : ∀ item ∈ unmatched puts summary, IsJson (.dict item) :=
    fun item hitem => isJson_of_kept hputs (List.mem_filter.mp hitem).1
  have hjson : ∀ item ∈ (unmatched puts summary).map reload ++ [summary], IsJson (.dict item) := by
    intro item hitem
    rcases List.mem_append.mp hitem with hold | hlast
    · obtain ⟨before, hbefore, rfl⟩ := List.mem_map.mp hold
      exact isJson_reload (hstay before hbefore)
    · rw [List.mem_singleton.mp hlast]
      exact hnew.json
  have hagain : ((unmatched puts summary).map reload).map reload =
      (unmatched puts summary).map reload := by
    rw [List.map_map]
    exact List.map_congr_left fun item hitem => reload_reload (hstay item hitem)
  show loadRecords _ (some (loads j)) = _
  rw [loadRecords_of_dumps _ hjson hj, List.map_append, hagain, kept_append, List.map_append]

/-- **After a run of puts the file holds what is kept of it**, and all of it was public. -/
theorem holds_putAll {puts : List Dict} {file : Option Json}
    (hputs : ∀ summary ∈ puts, IsSummary summary) (h : putAll none puts = .ok file) :
    Holds file puts ∧ ∀ summary ∈ puts, passesGuard (.dict summary) = true := by
  have hrun : ∀ (rest front : List Dict) (before : Option Json), Holds before front →
      (∀ summary ∈ front, passesGuard (.dict summary) = true) →
      (∀ summary ∈ front ++ rest, IsSummary summary) → putAll before rest = .ok file →
      Holds file (front ++ rest) ∧ ∀ summary ∈ front ++ rest, passesGuard (.dict summary) = true := by
    intro rest
    induction rest with
    | nil =>
        intro front before hholds hpass _ hrest
        cases hrest
        rw [List.append_nil]
        exact ⟨hholds, hpass⟩
    | cons summary rest ih =>
        intro front before hholds hpass hsummaries hrest
        obtain ⟨next, hput, hrest⟩ := bind_eq_ok.mp hrest
        obtain ⟨hnext, hguard⟩ := hholds.putFile
          (fun s hs => hsummaries s (List.mem_append_left _ hs))
          (hsummaries summary (List.mem_append_right _ List.mem_cons_self)) hput
        have hcons : front ++ [summary] ++ rest = front ++ summary :: rest := by simp
        rw [← hcons]
        refine ih (front ++ [summary]) next hnext ?_ (by rwa [hcons]) hrest
        intro s hs
        rcases List.mem_append.mp hs with hold | hlast
        · exact hpass s hold
        · rw [List.mem_singleton.mp hlast]
          exact hguard
  exact hrun puts [] none holds_nil (List.forall_mem_nil _) hputs h

/-- What is listed of the file. -/
theorem Holds.listPublic {file : Option Json} {puts : List Dict} (h : Holds file puts)
    (hputs : ∀ summary ∈ puts, IsSummary summary)
    (hpass : ∀ summary ∈ puts, passesGuard (.dict summary) = true) :
    listPublic file = .ok ((kept puts).map reload) := by
  have hlist : ∀ items : List Dict, (∀ item ∈ items, passesGuard (.dict item) = true) →
      (items.mapM fun item => do
        rejectSecretFields [] (.dict item)
        return item : Except PyError (List Dict)) = .ok items := by
    intro items hitems
    induction items with
    | nil => rfl
    | cons item rest ih =>
        rw [List.forall_mem_cons] at hitems
        rw [List.mapM_cons, rejectSecretFields_eq_ok.mpr hitems.1, ih hitems.2]
        rfl
  refine bind_eq_ok.mpr ⟨_, h, hlist _ ?_⟩
  intro item hitem
  obtain ⟨summary, hsummary, rfl⟩ := List.mem_map.mp hitem
  rw [passesGuard_reload (isJson_of_kept hputs hsummary)]
  exact hpass summary (Keyed.mem_of_mem_storeAll _ _ hsummary)

/-- What is listed after a run of puts. -/
theorem listPublic_putAll {puts : List Dict} {file : Option Json}
    (hputs : ∀ summary ∈ puts, IsSummary summary) (h : putAll none puts = .ok file) :
    listPublic file = .ok ((kept puts).map reload) := by
  obtain ⟨hholds, hpass⟩ := holds_putAll hputs h
  exact hholds.listPublic hputs hpass

/-! ### One record for a credential -/

/-- The records listed of a credential. -/
def recordsOf (file : Option Json) (credential : String × String) : Except PyError (List Dict) := do
  return Keyed.ofKey credentialOf (← listPublic file) credential

omit [Runtime] in
/-- The last summary put of a credential. -/
def lastPut (puts : List Dict) (credential : String × String) : Option Dict :=
  Keyed.last? credentialOf puts credential

/-- Every credential that was put has one record, the summary of its last put, and a put changes
the records of no other credential. -/
structure OneRecord (puts : List Dict) (file : Option Json) : Prop where
  last : ∀ credential summary, lastPut puts credential = some summary →
    ∃ record, recordsOf file credential = .ok [record] ∧
      dumps (.dict record) = dumps (.dict summary)
  absent : ∀ credential, lastPut puts credential = none → recordsOf file credential = .ok []
  frame : ∀ front summary before, puts = front ++ [summary] → putAll none front = .ok before →
    ∀ credential, credential ≠ credentialOf summary →
      recordsOf file credential = recordsOf before credential

omit [Runtime] in
/-- Every summary that was followed by another of its credential had no white space around its
provider and name. -/
def ReplacedStripped (puts : List Dict) : Prop :=
  ∀ credential, ∀ summary ∈ (Keyed.ofKey credentialOf puts credential).dropLast,
    isStripped summary = true

theorem recordsOf_putAll {puts : List Dict} {file : Option Json}
    (hputs : ∀ summary ∈ puts, IsSummary summary) (h : putAll none puts = .ok file)
    (credential : String × String) :
    recordsOf file credential =
      .ok ((Keyed.ofKey credentialOf (kept puts) credential).map reload) := by
  have hkeys : Keyed.ofKey credentialOf ((kept puts).map reload) credential =
      (Keyed.ofKey credentialOf (kept puts) credential).map reload := by
    unfold Keyed.ofKey
    rw [List.filter_map]
    congr 1
    refine List.filter_congr fun item hitem => ?_
    rw [Function.comp_apply, credentialOf_reload (isJson_of_kept hputs hitem)]
  rw [recordsOf, listPublic_putAll hputs h, ← hkeys]
  rfl

/-- **Every credential has one record exactly when** no summary with white space around its
provider or name was put before another of its credential. -/
theorem oneRecord_iff {puts : List Dict} {file : Option Json}
    (hputs : ∀ summary ∈ puts, IsSummary summary) (h : putAll none puts = .ok file) :
    OneRecord puts file ↔ ReplacedStripped puts := by
  have hlist := recordsOf_putAll hputs h
  constructor
  · intro hone credential
    rw [← Keyed.ofKey_storeAll_eq_last_iff]
    refine Keyed.eq_last_of_length_le _ _ ?_
    have hlength : ∃ records, recordsOf file credential = .ok records ∧ records.length ≤ 1 := by
      cases hlast : lastPut puts credential with
      | none => exact ⟨[], hone.absent credential hlast, Nat.zero_le 1⟩
      | some summary =>
          obtain ⟨record, hrecord, _⟩ := hone.last credential summary hlast
          exact ⟨[record], hrecord, le_refl 1⟩
    obtain ⟨records, hrecords, hle⟩ := hlength
    rw [hlist credential] at hrecords
    cases hrecords
    rwa [List.length_map] at hle
  · intro hstripped
    refine ⟨?_, ?_, ?_⟩
    · intro credential summary hlast
      have hkept := (Keyed.ofKey_storeAll_eq_last_iff _ _ puts credential).mpr
        (hstripped credential)
      have hjson := (hputs summary (Keyed.mem_of_last? _ hlast)).json
      refine ⟨reload summary, ?_, dumps_reload hjson⟩
      rw [hlist credential, kept, hkept, ← lastPut, hlast]
      rfl
    · intro credential hlast
      rw [hlist credential, kept, Keyed.ofKey_storeAll_of_none _ _ hlast]
      rfl
    · rintro front summary before rfl hfront credential hother
      have hputs' : ∀ summary ∈ front, IsSummary summary :=
        fun s hs => hputs s (List.mem_append_left _ hs)
      rw [hlist credential, recordsOf_putAll hputs' hfront, kept, Keyed.storeAll_append,
        Keyed.ofKey_store, if_neg (Ne.symm hother)]
      rfl

end Store

/-! ### A summary with white space around its provider -/

namespace Sample

@[reducible] def runtime : Runtime := asciiRuntime []

def summary (provider name status : String) : Dict :=
  [("checkedAt", "2026-05-10T10:00:00Z"), ("name", name), ("provider", provider),
    ("status", status)]

theorem isSummary (provider name status : String) : IsSummary (summary provider name status) where
  json := ⟨show List.Nodup [Key.str "checkedAt", .str "name", .str "provider", .str "status"] by
    decide, rfl, trivial, rfl, trivial, rfl, trivial, rfl, trivial, trivial⟩
  provider := ⟨provider, rfl⟩
  name := ⟨name, rfl⟩

end Sample

/-- White space in the last summary of a credential does no harm. -/
theorem oneRecord_iff_sample :
    let puts := [Sample.summary "okx" "main" "failed", Sample.summary " okx " "main" "passed"]
    ∃ file, @putAll Sample.runtime none puts = .ok file ∧ @OneRecord Sample.runtime puts file := by
  intro puts
  obtain ⟨file, hputs, _⟩ := exists_ok (@putAll Sample.runtime none puts) (fun _ => true)
    (by decide +kernel)
  have hsummaries : ∀ summary ∈ puts, IsSummary summary := by
    intro summary hsummary
    simp only [puts, List.mem_cons, List.not_mem_nil, or_false] at hsummary
    rcases hsummary with rfl | rfl <;> exact Sample.isSummary _ _ _
  refine ⟨file, hputs, (@oneRecord_iff Sample.runtime _ _ hsummaries hputs).mpr ?_⟩
  have hcredential : ∀ summary ∈ puts, credentialOf summary = ("okx", "main") := by
    decide +kernel
  intro credential summary hsummary
  by_cases h : credential = ("okx", "main")
  · have hall : Keyed.ofKey credentialOf puts credential = puts := by
      refine List.filter_eq_self.mpr fun item hitem => ?_
      rw [hcredential item hitem, h]
      simp
    rw [hall] at hsummary
    rw [List.mem_singleton.mp hsummary]
    decide +kernel
  · have hnone : Keyed.ofKey credentialOf puts credential = [] := by
      refine List.filter_eq_nil_iff.mpr fun item hitem => ?_
      rw [hcredential item hitem]
      simp [Ne.symm h]
    rw [hnone] at hsummary
    cases hsummary

/-- A passed summary of `" okx "` stays beside the failed one of `"okx"` that came after it. -/
theorem stale_record :
    let puts := [Sample.summary " okx " "main" "passed", Sample.summary "okx" "main" "failed"]
    ∃ file records, @putAll Sample.runtime none puts = .ok file ∧
      @recordsOf Sample.runtime file ("okx", "main") = .ok records ∧ records.length = 2 ∧
      ¬@OneRecord Sample.runtime puts file := by
  intro puts
  let _ : Runtime := Sample.runtime
  obtain ⟨file, hputs, hcheck⟩ := exists_ok (putAll none puts)
    (fun file => (recordsOf file ("okx", "main")).toOption.any fun records => records.length = 2)
    (by decide +kernel)
  obtain ⟨records, hrecords, hlength⟩ := exists_ok _ _ hcheck
  refine ⟨file, records, hputs, hrecords, of_decide_eq_true hlength, ?_⟩
  intro hone
  obtain ⟨record, hrecord, _⟩ := hone.last ("okx", "main") _ rfl
  rw [hrecords] at hrecord
  cases hrecord
  exact absurd (of_decide_eq_true hlength) (by simp)

end ValidationStore

end YtmExecutor
