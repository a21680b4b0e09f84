/-
Orders on the word of a validation.

`broker validate` keeps its summaries in a file, and the executor takes the most recent
one of the provider before it lets a command pass.  The two are different processes: the
file may be read while it is being written, and a validation may die there.

Since the file is a register, what the executor reads is what some of the validations
have made of it one after the other, and since a validation strips the provider and the
name, of each credential it holds the last summary and no other.  So behind every request
that is made to a broker for a command there is a validation of the last day in which the
broker of that command let an account be read, and no later validation of that provider
says otherwise.
-/
import YtmExecutor.CredentialEvidence
import YtmExecutor.CredentialValidation
import YtmExecutor.ValidationStore

namespace YtmExecutor

open Python Decimal Interaction Prog Relation

-- no text of a credential is evaluated here
attribute [local irreducible] strip

/-! ### Validations that came to a summary -/

section Runs

variable [Runtime]

/-- A validation that came to a summary: what it was asked, and what the broker answered. -/
structure ValidationRun where
  libraries : Validation.Libraries
  provider : String
  name : String
  secret : Secret
  now : Instant
  timestampMs : ℤ
  transcript : Transcript Validation.ValidationCall Validation.Reply PyError
  summary : Dict
  returns : Returns
    (Validation.validateBrokerCredential libraries provider name secret now timestampMs)
    transcript summary

namespace ValidationRun

variable (v : ValidationRun)

/-- What it was a validation of. -/
def credential : String × String := (strip v.provider, strip v.name)

/-- The broker let the account be read. -/
def accountRead : Bool :=
  Validation.accountRead (strip v.provider) (v.transcript.map Prod.snd)

theorem summarizes : Validation.Summarizes (strip v.provider) (strip v.name)
    (Validation.isoZ v.now) v.accountRead v.summary :=
  (Validation.run_validateBrokerCredential v.returns.run).2.2

theorem isSummary : ValidationStore.IsSummary v.summary where
  json := v.summarizes.isJson
  provider := ⟨_, v.summarizes.fields.1⟩
  name := ⟨_, v.summarizes.fields.2.1⟩

theorem credentialOf_summary : ValidationStore.credentialOf v.summary = v.credential := by
  obtain ⟨hprovider, hname, _⟩ := v.summarizes.fields
  rw [ValidationStore.credentialOf, hprovider, hname, Value.text, Value.text, strip_strip,
    strip_strip]
  rfl

/-- A validation leaves no white space around its provider and name. -/
theorem isStripped_summary : ValidationStore.isStripped v.summary = true := by
  obtain ⟨hprovider, hname, _⟩ := v.summarizes.fields
  rw [ValidationStore.isStripped, v.credentialOf_summary, hprovider, hname]
  simp [Value.isText, credential]

theorem passesGuard : YtmExecutor.passesGuard (.dict v.summary) = true :=
  (Validation.passed_iff_accountRead v.returns.run).2.2

end ValidationRun

/-! ### The file after some of them -/

/-- The tree a validation writes, unless the store raises. -/
def updateValidations (v : ValidationRun) (tree : Option Json) : Option Json :=
  (ValidationStore.putFile tree v.summary).toOption.join

theorem updateValidations_eq_some {v : ValidationRun} {tree : Option Json} {j : Json} :
    updateValidations v tree = some j ↔ ValidationStore.putFile tree v.summary = .ok (some j) := by
  rw [updateValidations, Option.join_eq_some_iff, toOption_eq_some]

/-- The summaries of some validations. -/
def summaries (done : List ValidationRun) : List Dict := done.map ValidationRun.summary

theorem isSummary_of_mem {done : List ValidationRun} : ∀ s ∈ summaries done,
    ValidationStore.IsSummary s ∧ passesGuard (.dict s) = true := by
  intro s hs
  obtain ⟨v, _, rfl⟩ := List.mem_map.mp hs
  exact ⟨v.isSummary, v.passesGuard⟩

theorem passesGuard_dicts {items : List Dict} (h : ∀ item ∈ items, passesGuard (.dict item) = true) :
    passesGuard (.list (items.map .dict)) = true := by
  refine itemsPassGuard_iff.mpr fun item hitem => ?_
  obtain ⟨entries, hentries, rfl⟩ := List.mem_map.mp hitem
  exact h entries hentries

omit [Runtime] in
theorem isJson_dicts {items : List Dict} (h : ∀ item ∈ items, IsJson (.dict item)) :
    IsJson (.list (items.map .dict)) := by
  induction items with
  | nil => trivial
  | cons item rest ih =>
      rw [List.forall_mem_cons] at h
      exact ⟨h.1, ih h.2⟩

/-- Nothing keeps a validation from being stored. -/
theorem exists_putFile {tree : Option Json} {done : List ValidationRun}
    (h : ValidationStore.Holds tree (summaries done)) (v : ValidationRun) :
    ∃ j, ValidationStore.putFile tree v.summary = .ok (some j) := by
  obtain ⟨hproviderNe, hnameNe, hs⟩ := Validation.run_validateBrokerCredential v.returns.run
  obtain ⟨hprovider, hname, _⟩ := hs.fields
  have hrequired {text fieldName : String} (hne : strip text ≠ "") :
      storeRequiredText (.str (strip text)) fieldName = .ok (strip text) := by
    rw [storeRequiredText_str, strip_strip, if_neg hne]
  -- what the new file is made of
  let records : List Dict :=
    (((ValidationStore.kept (summaries done)).map reload).filter fun item =>
      !((item.get "provider").isText (strip v.provider) && (item.get "name").isText (strip v.name)))
      ++ [v.summary]
  have hrecords : ∀ item ∈ records, IsJson (.dict item) ∧ passesGuard (.dict item) = true := by
    intro item hitem
    rcases List.mem_append.mp hitem with hold | hnew
    · obtain ⟨old, hkept, rfl⟩ := List.mem_map.mp (List.mem_of_mem_filter hold)
      obtain ⟨hsummary, hguard⟩ := isSummary_of_mem old (Keyed.mem_of_mem_storeAll _ _ hkept)
      exact ⟨isJson_reload hsummary.json,
        (ValidationStore.passesGuard_reload hsummary.json).mpr hguard⟩
    · rw [List.mem_singleton.mp hnew]
      exact ⟨v.isSummary.json, v.passesGuard⟩
  have hguard : rejectSecretFields [] (.list (records.map .dict)) = .ok () :=
    rejectSecretFields_eq_ok.mpr (passesGuard_dicts fun item hitem => (hrecords item hitem).2)
  obtain ⟨j, hj, _⟩ := exists_dumps (isJson_dicts fun item hitem => (hrecords item hitem).1)
  refine ⟨j, bind_eq_ok.mpr ⟨.list (records.map .dict), ?_, bind_eq_ok.mpr ⟨j, hj, rfl⟩⟩⟩
  have hproviderText : storeRequiredText (v.summary.get "provider") "provider" =
      .ok (strip v.provider) := by rw [hprovider, hrequired hproviderNe]
  have hnameText : storeRequiredText (v.summary.get "name") "name" = .ok (strip v.name) := by
    rw [hname, hrequired hnameNe]
  refine bind_eq_ok.mpr ⟨(), rejectSecretFields_eq_ok.mpr v.passesGuard, ?_⟩
  refine bind_eq_ok.mpr ⟨_, hproviderText, bind_eq_ok.mpr ⟨_, hnameText, ?_⟩⟩
  exact bind_eq_ok.mpr ⟨_, h, bind_eq_ok.mpr ⟨(), hguard, rfl⟩⟩

/-- **After some validations the file holds their summaries.** -/
theorem holds_foldl (done : List ValidationRun) :
    ValidationStore.Holds (done.foldl (FileRegister.advance updateValidations) none)
      (summaries done) := by
  induction done using List.reverseRecOn with
  | nil => exact ValidationStore.holds_nil
  | append_singleton done v ih =>
      obtain ⟨j, hj⟩ := exists_putFile ih v
      have hnext := (ih.putFile (fun s hs => (isSummary_of_mem s hs).1) v.isSummary hj).1
      rw [List.foldl_append, List.foldl_cons, List.foldl_nil, FileRegister.advance,
        updateValidations_eq_some.mpr hj, summaries, List.map_append]
      exact hnext

/-! ### The file, while it is written -/

omit [Runtime] in
/-- The records of a file have the floats of the file. -/
theorem allFloats_records {P : String → Prop} {tree : Option Json} {items : List Dict}
    (h : ValidationStore.records (tree.map loads) = .ok items) (hP : ∀ j ∈ tree, j.AllFloats P) :
    ∀ item ∈ items, (Value.dict item).AllFloats P := by
  cases tree with
  | none =>
      rw [← Except.ok.inj h]
      exact List.forall_mem_nil _
  | some j =>
      have hfloats := allFloats_loads (hP j rfl)
      rw [ValidationStore.records, Option.map_some] at h
      cases hloads : loads j with
      | list values =>
          rw [hloads] at h hfloats
          rw [← Except.ok.inj h]
          intro item hitem
          obtain ⟨v, hv, hdict⟩ := List.mem_filterMap.mp hitem
          cases v with
          | dict entries =>
              cases hdict
              exact Value.itemsAllFloats_iff.mp hfloats _ hv
          | none | bool | int | float | str | list | tuple => cases hdict
      | none | bool | int | float | str | tuple | dict =>
          rw [hloads] at h
          cases h

variable [Json.FloatRepr]

/-- What the store writes can be read. -/
theorem keepsValid_updateValidations :
    FileRegister.KeepsValid jsonCodec (FileRegister.readFirst updateValidations) := by
  intro v answer j hanswer hj
  obtain ⟨old, rfl, hj⟩ := Option.bind_eq_some_iff.mp hj
  have hold : ∀ j ∈ old, jsonCodec.Valid j := fun j hmem => hanswer j (congrArg some hmem)
  obtain ⟨written, hput, hwrite⟩ := bind_eq_ok.mp (updateValidations_eq_some.mp hj)
  obtain ⟨j', hdumps, hj'⟩ := bind_eq_ok.mp hwrite
  obtain rfl : j' = j := Option.some.inj (Except.ok.inj hj')
  obtain ⟨_, _, hput⟩ := bind_eq_ok.mp hput
  obtain ⟨provider, _, hput⟩ := bind_eq_ok.mp hput
  obtain ⟨name, _, hput⟩ := bind_eq_ok.mp hput
  obtain ⟨items, hitems, hput⟩ := bind_eq_ok.mp hput
  obtain ⟨_, _, hput⟩ := bind_eq_ok.mp hput
  have hfloats := allFloats_records hitems fun j hmem => (hold j hmem).2
  rw [← Except.ok.inj hput] at hdumps
  refine ⟨?_, allFloats_dumps hdumps (Value.itemsAllFloats_iff.mpr
    (List.forall_mem_map.mpr fun item hitem => ?_))⟩
  · rw [dumps] at hdumps
    obtain ⟨js, _, hjs⟩ := bind_eq_ok.mp hdumps
    rw [← Except.ok.inj hjs]
    trivial
  · rcases List.mem_append.mp hitem with hkept | hnew
    · exact hfloats item (List.mem_of_mem_filter hkept)
    · rw [List.mem_singleton.mp hnew]
      exact v.summarizes.allFloats _

/-- The file of the validations, and the process that validates. -/
abbrev ValidationsFile := FileRegister.State Char ValidationRun

/-- A validation came to a summary and begins to store it, goes on, or is killed. -/
def ValidationsFile.Step : ValidationsFile → ValidationsFile → Prop :=
  FileRegister.Step jsonCodec (FileRegister.readFirst updateValidations)

/-- A turn finds the file as it is at some moment, and can parse it. -/
def FindsValidations (inputs : LocalInputs) (s : ValidationsFile) : Prop :=
  ∃ tree, ExecutionStore.decode s.file = .ok tree ∧ inputs.validationsFile = tree.map loads

/-- **What a turn finds** are the summaries of validations one after the other. -/
theorem holds_of_finds {inputs : LocalInputs} {s : ValidationsFile}
    (hrun : ReflTransGen ValidationsFile.Step (FileRegister.initial none) s)
    (hfinds : FindsValidations inputs s) :
    ∃ tree done, inputs.validationsFile = tree.map loads ∧
      FileRegister.Between s.finished done s.begun ∧
      ValidationStore.Holds tree (summaries done) := by
  obtain ⟨tree, htree, hfile⟩ := hfinds
  obtain ⟨done, _, hdone, _, rfl, _⟩ := FileRegister.reads_of_run keepsValid_updateValidations
    (v := none) (by simp) rfl hrun ReflTransGen.refl (read_of_decode htree) (read_of_decode htree)
  exact ⟨_, done, hfile, hdone, holds_foldl done⟩

end Runs

/-! ### The record that counts -/

section Evidence

variable [Runtime]

/-- Of some ranked records the most recent one has the greatest rank. -/
theorem rank_le_of_mostRecent {records : List Dict} {record : Dict} {rank : Instant}
    (h : mostRecent records = .ok (some record)) (hrank : ranked record = .ok (rank, record))
    {other : Dict} {otherRank : Instant} (hmem : other ∈ records)
    (hother : ranked other = .ok (otherRank, other)) : otherRank ≤ rank := by
  obtain ⟨pairs, hpairs, h⟩ := bind_eq_ok.mp h
  obtain ⟨pair, hlatest, rfl⟩ := Option.map_eq_some_iff.mp (Except.ok.inj h)
  obtain ⟨_, hpair⟩ := mem_of_mapM_ranked hpairs (latest_mem hlatest)
  have hfirst : pair.1 = rank := congrArg Prod.fst (Except.ok.inj (hpair.symm.trans hrank))
  have hpresent : ∀ (records : List Dict) (pairs : List (Instant × Dict)),
      records.mapM ranked = .ok pairs → other ∈ records → (otherRank, other) ∈ pairs := by
    intro records
    induction records with
    | nil => exact fun _ _ hmem => absurd hmem List.not_mem_nil
    | cons first rest ih =>
        intro pairs hpairs hmem
        rw [List.mapM_cons] at hpairs
        obtain ⟨firstPair, hfirst, hpairs⟩ := bind_eq_ok.mp hpairs
        obtain ⟨restPairs, hrest, hpairs⟩ := bind_eq_ok.mp hpairs
        rw [← Except.ok.inj hpairs]
        rcases List.mem_cons.mp hmem with rfl | hmem
        · rw [Except.ok.inj (hfirst.symm.trans hother)]
          exact List.mem_cons_self
        · exact List.mem_cons_of_mem _ (ih restPairs hrest hmem)
  obtain ⟨before, after, rfl, hbefore, hafter⟩ := latest_eq_some_iff.mp hlatest
  rw [← hfirst]
  rcases List.mem_append.mp (hpresent records _ hpairs hmem) with hmem | hmem
  · exact (hbefore _ hmem).le
  · rcases List.mem_cons.mp hmem with heq | hmem
    · exact (congrArg Prod.fst heq).le
    · exact hafter _ hmem

/-- The whole seconds of an instant. -/
def wholeSeconds (t : Instant) : Instant := t - t % microsecondsPerSecond

/-- `datetime.fromisoformat` reads back the time a validation was made at. -/
def ClockReadsBack (t : Instant) : Prop :=
  Runtime.fromIsoFormat (replaceChar 'Z' "+00:00" (Validation.isoZ t)) = .ok (wholeSeconds t)

omit [Runtime] in
theorem isoZ_ne_empty (t : Instant) : Validation.isoZ t ≠ "" := by
  intro h
  have hlist := congrArg String.toList h
  rw [Validation.isoZ, utcTimestamp, String.toList_append] at hlist
  exact absurd hlist (List.append_ne_nil_of_right_ne_nil _ (by decide))

namespace ValidationRun

variable (v : ValidationRun)

/-- When a validation was made, as the gate reads it. -/
theorem checkedAt_reload (h : ClockReadsBack v.now) :
    checkedAt (reload v.summary) = .ok (some (wholeSeconds v.now)) := by
  have hget := (get_reload_text v.isSummary.json "checkedAt" _).mpr v.summarizes.fields.2.2.1
  rw [checkedAt, hget]
  dsimp only
  rw [if_neg (isoZ_ne_empty v.now), show Runtime.fromIsoFormat _ = _ from h]

theorem ranked_reload (h : ClockReadsBack v.now) :
    ranked (reload v.summary) = .ok (wholeSeconds v.now, reload v.summary) := by
  rw [ranked, v.checkedAt_reload h]
  rfl

/-- A record that vouches is one of a validation that read the account. -/
theorem accountRead_of_vouches {now : Instant} (h : Vouches (reload v.summary) now) :
    v.accountRead = true := by
  have hpassed := h.passed
  rw [text_reload v.isSummary.json] at hpassed
  exact (Validation.passed_iff_accountRead v.returns.run).1.mp hpassed

theorem provider_reload : ((reload v.summary).get "provider").text = strip v.provider := by
  rw [text_reload v.isSummary.json, v.summarizes.fields.1, Value.text, strip_strip]

end ValidationRun

/-- The last validation of its credential. -/
def IsLast (done : List ValidationRun) (v : ValidationRun) : Prop :=
  Keyed.last? ValidationRun.credential done v.credential = some v

/-- **The file holds the last summary of each credential**, and no other. -/
theorem mem_kept_iff {done : List ValidationRun} {s : Dict} :
    s ∈ ValidationStore.kept (summaries done) ↔ ∃ v, IsLast done v ∧ v.summary = s := by
  have hlast (credential : String × String) :
      Keyed.ofKey ValidationStore.credentialOf (ValidationStore.kept (summaries done)) credential =
        ((Keyed.last? ValidationRun.credential done credential).map
          ValidationRun.summary).toList := by
    have hmap := Keyed.last?_map ValidationStore.credentialOf ValidationRun.summary done credential
    rw [funext fun v : ValidationRun => v.credentialOf_summary] at hmap
    rw [← hmap]
    refine (Keyed.ofKey_storeAll_eq_last_iff _ _ _ _).mpr fun s hs => ?_
    obtain ⟨v, _, rfl⟩ := List.mem_map.mp (List.mem_of_mem_filter (List.mem_of_mem_dropLast hs))
    exact v.isStripped_summary
  constructor
  · intro hs
    have hmem : s ∈ Keyed.ofKey ValidationStore.credentialOf
        (ValidationStore.kept (summaries done)) (ValidationStore.credentialOf s) :=
      List.mem_filter.mpr ⟨hs, by simp⟩
    rw [hlast, Option.mem_toList] at hmem
    obtain ⟨v, hv, rfl⟩ := Option.map_eq_some_iff.mp hmem
    rw [v.credentialOf_summary] at hv
    exact ⟨v, hv, rfl⟩
  · rintro ⟨v, hv, rfl⟩
    have hmem : v.summary ∈ Keyed.ofKey ValidationStore.credentialOf
        (ValidationStore.kept (summaries done)) v.credential := by
      rw [hlast, show Keyed.last? _ _ _ = _ from hv]
      exact List.mem_singleton.mpr rfl
    exact (List.mem_filter.mp hmem).1

/-! ### Orders -/

/-- A validation that stands behind a request for a provider: of the last ones of each
credential none is more recent, by the whole seconds they are written with.  A clock up to five
minutes ahead is let pass, and with the part of a second that is not written up to 301 seconds. -/
structure VouchedFor (provider : String) (done : List ValidationRun) (v : ValidationRun)
    (now : Instant) : Prop where
  sameProvider : strip v.provider = provider
  accountRead : v.accountRead = true
  isLast : IsLast done v
  notStale : now - v.now ≤ validationTtlSeconds * microsecondsPerSecond
  notFromFuture : -301 * microsecondsPerSecond < now - v.now
  latest : ∀ w, IsLast done w → strip w.provider = provider →
    wholeSeconds w.now ≤ wholeSeconds v.now

omit [Runtime] in
theorem providerSummaries_dicts (provider : String) (items : List Dict) :
    providerSummaries provider (items.map .dict) =
      items.filter fun summary => (summary.get "provider").text = provider := by
  have hdicts : (items.map Value.dict).filterMap Value.dict? = items := by
    induction items with
    | nil => rfl
    | cons item rest ih => exact congrArg (item :: ·) ih
  rw [providerSummaries, hdicts]

omit [Runtime] in
theorem lt_wholeSeconds (t : Instant) :
    wholeSeconds t ≤ t ∧ t < wholeSeconds t + microsecondsPerSecond := by
  have hpos : (0 : ℤ) < microsecondsPerSecond := by decide
  have hnonneg := Int.emod_nonneg t hpos.ne'
  have hlt := Int.emod_lt_of_pos t hpos
  exact ⟨sub_le_self t hnonneg, by rw [wholeSeconds]; linarith⟩

/-- **The gate lets pass what a validation vouches for.** -/
theorem vouchedFor_of_block {done : List ValidationRun} {provider : String} {now : Instant}
    (hclock : ∀ v ∈ done, ClockReadsBack v.now)
    (hblock : validationBlock provider
      (((ValidationStore.kept (summaries done)).map reload).map .dict) now = .ok ()) :
    ∃ v ∈ done, VouchedFor provider done v now := by
  obtain ⟨record, hrecent, hvouches⟩ := validationBlock_eq_ok.mp hblock
  rw [providerSummaries_dicts] at hrecent
  obtain ⟨hkept, hprovider⟩ := List.mem_filter.mp (mostRecent_mem hrecent).1
  obtain ⟨s, hs, rfl⟩ := List.mem_map.mp hkept
  obtain ⟨v, hlast, rfl⟩ := mem_kept_iff.mp hs
  have hmem : v ∈ done := Keyed.mem_of_last? _ hlast
  obtain ⟨checked, hchecked, hfuture, hstale⟩ := hvouches.fresh
  rw [v.checkedAt_reload (hclock v hmem)] at hchecked
  obtain rfl := Option.some.inj (Except.ok.inj hchecked)
  obtain ⟨hle, hlt⟩ := lt_wholeSeconds v.now
  refine ⟨v, hmem, ?_⟩
  exact {
    sameProvider := v.provider_reload.symm.trans (of_decide_eq_true hprovider)
    accountRead := v.accountRead_of_vouches hvouches
    isLast := hlast
    notStale := by linarith
    notFromFuture := by linarith
    latest := by
      intro w hw hsame
      have hwmem : reload w.summary ∈ ((ValidationStore.kept (summaries done)).map reload).filter
          fun summary => (summary.get "provider").text = provider :=
        List.mem_filter.mpr ⟨List.mem_map_of_mem (mem_kept_iff.mpr ⟨w, hw, rfl⟩),
          decide_eq_true (w.provider_reload.trans hsame)⟩
      exact rank_le_of_mostRecent hrecent (v.ranked_reload (hclock v hmem)) hwmem
        (w.ranked_reload (hclock w (Keyed.mem_of_last? _ hw))) }

variable [BinanceSdk]

/-- Whoever asks a broker has passed the validation gate. -/
theorem validationBlock_of_makes {ctx : Context} {item : Dict} {inputs : PreflightInputs} {c : Call}
    (hmakes : Makes (preflightCommand ctx item inputs) c) :
    ∃ command, item.get "command" = .dict command ∧
      validationBlock (commandProvider command) inputs.validationSummaries inputs.now = .ok () := by
  obtain ⟨cleared, _, hcleared, _, _⟩ := adapter_of_makes hmakes
  have hgates := preflightGates_eq_ok.mp hcleared
  exact ⟨cleared.command, leasedCommand_eq hgates.command, hgates.validation⟩

variable [Json.FloatRepr]

/-- **Behind every request to a broker there is a validation.**  Wherever the process that
validates stands when a turn reads its file, and however often it has died before: when the
turn asks a broker for anything, then a validation of the last day has let an account of the
command's provider be read, and no later one of that provider says otherwise. -/
theorem brokerCall_vouchedFor {session : Session} {ctx : Context} {leaseResponse : Dict}
    {inputs : LocalInputs} {s : ValidationsFile} {c : Call}
    (hrun : ReflTransGen ValidationsFile.Step (FileRegister.initial none) s)
    (hfinds : FindsValidations inputs s) (hclock : ∀ v ∈ s.begun, ClockReadsBack v.now)
    (hmakes : Makes (processLeaseResponse session ctx leaseResponse inputs) c)
    (hbroker : IsBrokerCall c) :
    ∃ (item command : Dict) (done : List ValidationRun) (v : ValidationRun),
      leaseResponse.get "item" = .dict item ∧ item.get "command" = .dict command ∧
      FileRegister.Between s.finished done s.begun ∧ v ∈ done ∧
      VouchedFor (commandProvider command) done v inputs.now := by
  obtain ⟨item, preflight, hitem, hpreflight, hmakes⟩ := preflight_of_brokerCall hmakes hbroker
  obtain ⟨command, hcommand, hblock⟩ := validationBlock_of_makes hmakes
  obtain ⟨tree, done, hfile, hdone, hholds⟩ := holds_of_finds hrun hfinds
  obtain ⟨_, _, hpreflight⟩ := bind_eq_ok.mp hpreflight
  obtain ⟨_, _, hpreflight⟩ := bind_eq_ok.mp hpreflight
  obtain ⟨_, _, hpreflight⟩ := bind_eq_ok.mp hpreflight
  obtain ⟨listed, hlisted, hpreflight⟩ := bind_eq_ok.mp hpreflight
  have hlist := hholds.listPublic (fun s hs => (isSummary_of_mem s hs).1)
    fun s hs => (isSummary_of_mem s hs).2
  rw [hfile, show listPublicValidations (tree.map loads) = _ from hlist] at hlisted
  rw [← Except.ok.inj hpreflight] at hblock
  dsimp only at hblock
  rw [← Except.ok.inj hlisted] at hblock
  obtain ⟨v, hmem, hv⟩ := vouchedFor_of_block
    (fun v hv => hclock v (hdone.begun.subset hv)) hblock
  exact ⟨item, command, done, v, hitem, hcommand, hdone, hmem, hv⟩

end Evidence

/-! ### A validation, and a command a minute later -/

namespace Sample

/-- The run of a validation of `main` at OKX. -/
def validationTranscription :
    Option (Transcript Validation.ValidationCall Validation.Reply PyError × Except PyError Dict) :=
  transcribe Validation.Sample.answers (Validation.Sample.program secret)

def validationTranscript : Transcript Validation.ValidationCall Validation.Reply PyError :=
  (validationTranscription.map Prod.fst).getD []

def validationSummary : Dict :=
  (validationTranscription.bind fun run => run.2.toOption).getD []

theorem validation_runs :
    Run (Validation.Sample.program secret) validationTranscript (.ok validationSummary) := by
  have hsome : (validationTranscription.any fun run => run.2.toOption.isSome) = true := by
    decide +kernel
  obtain ⟨run, hrun, hok⟩ := (Option.any_eq_true _ _).mp hsome
  obtain ⟨s, hs⟩ := Option.isSome_iff_exists.mp hok
  have hruns := run_of_transcribe _ _ run hrun
  have htranscript : validationTranscript = run.1 := by rw [validationTranscript, hrun]; rfl
  have hsummary : validationSummary = s := by
    rw [validationSummary, hrun, Option.bind_some, hs]
    rfl
  rw [htranscript, hsummary, ← toOption_eq_some.mp hs]
  exact hruns

def firstValidation : @ValidationRun runtime :=
  @ValidationRun.mk runtime ⟨true, true⟩ "okx" "main" secret 1778407200000000 0
    validationTranscript validationSummary ⟨validation_runs⟩

/-- The tree that is in the file then. -/
def validationsTree : Option Json := @updateValidations runtime firstValidation none

def validationsFile : @ValidationsFile runtime :=
  ⟨validationsTree.map (@jsonCodec ExecutionStore.Sample.floatRepr).encode, none,
    [firstValidation], [firstValidation]⟩

/-- The turn that reads the file. -/
def validatedInputs : LocalInputs :=
  { localInputs with validationsFile := validationsTree.map loads }

theorem validationsFile_run :
    ReflTransGen (@ValidationsFile.Step runtime ExecutionStore.Sample.floatRepr)
        (FileRegister.initial none) validationsFile ∧
      @FindsValidations runtime ExecutionStore.Sample.floatRepr validatedInputs validationsFile := by
  let _ : Runtime := runtime
  let _ : Json.FloatRepr := ExecutionStore.Sample.floatRepr
  obtain ⟨j, hj⟩ : ∃ j, validationsTree = some j :=
    Option.isSome_iff_exists.mp (by decide +kernel)
  have hvalid : jsonCodec.Valid j :=
    keepsValid_updateValidations firstValidation (some none) j (by rintro _ ⟨⟩) hj
  refine ⟨?_, j, ?_, by rw [validatedInputs, hj]⟩
  · rw [validationsFile, hj]
    exact FileRegister.run_update (s := FileRegister.initial none) rfl hj
  · rw [validationsFile, hj]
    exact decode_encode hvalid

end Sample

theorem brokerCall_vouchedFor_sample : let _ : Runtime := Sample.runtime
    let _ : Json.FloatRepr := ExecutionStore.Sample.floatRepr
    let _ : BinanceSdk := Sample.sdk
    ∃ (s : ValidationsFile) (c : Call),
      ReflTransGen ValidationsFile.Step (FileRegister.initial none) s ∧
      FindsValidations Sample.validatedInputs s ∧ (∀ v ∈ s.begun, ClockReadsBack v.now) ∧
      Makes (processLeaseResponse Sample.session defaultContext Sample.leaseResponse
        Sample.validatedInputs) c ∧ IsBrokerCall c ∧
      ∃ (item command : Dict) (done : List ValidationRun) (v : ValidationRun),
        Sample.leaseResponse.get "item" = .dict item ∧ item.get "command" = .dict command ∧
        FileRegister.Between s.finished done s.begun ∧ v ∈ done ∧
        VouchedFor (commandProvider command) done v Sample.validatedInputs.now := by
  intro _ _ _
  obtain ⟨hrun, hfinds⟩ := Sample.validationsFile_run
  obtain ⟨keys, op, hcall, _⟩ := stateChange_of_isSome
    (c := (feed [.ok (.dict []), Sample.accountReply, Sample.instrumentReply]
      (processLeaseResponse Sample.session defaultContext Sample.leaseResponse
        Sample.validatedInputs)).next?) (by decide +kernel)
  have hmakes := makes_of_feed _ hcall
  have hclock : ∀ v ∈ Sample.validationsFile.begun, ClockReadsBack v.now := by
    intro v hv
    obtain rfl := List.mem_singleton.mp hv
    exact toOption_eq_some.mp (by decide +kernel)
  exact ⟨_, _, hrun, hfinds, hclock, hmakes, trivial,
    brokerCall_vouchedFor hrun hfinds hclock hmakes trivial⟩

end YtmExecutor
