/-
Which validation record stands for the credential that is used.

A credential is a provider and a name, and so is the subject of a validation record.  The
secret is resolved under both.  The gate before it takes the most recent record of the
provider, whatever its name; so it vouches for the credential that is used exactly when
that record happens to bear its name.
-/
import YtmExecutor.FuturesGate

namespace YtmExecutor

open Python Decimal Interaction Prog

/-! ### The most recent record -/

section MostRecent

/-- The latest of some ranked records; of equals the first. -/
def latest : List (Instant × Dict) → Option (Instant × Dict)
  | [] => none
  | summary :: rest => some (rest.foldl laterOf summary)

theorem foldl_laterOf_of_le {rest : List (Instant × Dict)} {x : Instant × Dict}
    (h : ∀ y ∈ rest, y.1 ≤ x.1) : rest.foldl laterOf x = x := by
  induction rest with
  | nil => rfl
  | cons y rest ih =>
      have hle : ¬x.1 < y.1 := not_lt.mpr (h y List.mem_cons_self)
      rw [List.foldl_cons, laterOf, if_neg hle]
      exact ih fun z hz => h z (List.mem_cons_of_mem _ hz)

/-- Where the latest of some records stands among them. -/
theorem foldl_laterOf_split (summary : Instant × Dict) (rest : List (Instant × Dict)) :
    ∃ before after, summary :: rest = before ++ rest.foldl laterOf summary :: after ∧
      (∀ y ∈ before, y.1 < (rest.foldl laterOf summary).1) ∧
      ∀ y ∈ after, y.1 ≤ (rest.foldl laterOf summary).1 := by
  induction rest generalizing summary with
  | nil => exact ⟨[], [], rfl, by simp, by simp⟩
  | cons b rest ih =>
      rw [List.foldl_cons]
      obtain ⟨before, after, hsplit, hbefore, hafter⟩ := ih (laterOf summary b)
      generalize rest.foldl laterOf (laterOf summary b) = x at hsplit hbefore hafter
      by_cases hlt : summary.1 < b.1
      · -- The first record is passed over, and everything else stays where it is.
        rw [laterOf, if_pos hlt] at hsplit
        refine ⟨summary :: before, after, by rw [hsplit]; rfl, ?_, hafter⟩
        intro y hy
        rcases List.mem_cons.mp hy with rfl | hmem
        · cases before with
          | nil =>
              obtain ⟨rfl, _⟩ := List.cons.inj hsplit
              exact hlt
          | cons c before =>
              obtain ⟨rfl, _⟩ := List.cons.inj hsplit
              exact hlt.trans (hbefore _ List.mem_cons_self)
        · exact hbefore y hmem
      · -- The second record is passed over, right after the first.
        rw [laterOf, if_neg hlt] at hsplit
        have hle : b.1 ≤ summary.1 := not_lt.mp hlt
        cases before with
        | nil =>
            obtain ⟨rfl, rfl⟩ := List.cons.inj hsplit
            refine ⟨[], b :: rest, rfl, by simp, ?_⟩
            intro y hy
            rcases List.mem_cons.mp hy with rfl | hmem
            · exact hle
            · exact hafter y hmem
        | cons c before =>
            obtain ⟨rfl, hrest⟩ := List.cons.inj hsplit
            have hfirst := hbefore _ List.mem_cons_self
            refine ⟨summary :: b :: before, after, by rw [hrest]; rfl, ?_, hafter⟩
            intro y hy
            rcases List.mem_cons.mp hy with rfl | hmem
            · exact hfirst
            rcases List.mem_cons.mp hmem with rfl | hmem
            · exact hle.trans_lt hfirst
            · exact hbefore y (List.mem_cons_of_mem _ hmem)

/-- **The latest record comes after all that are earlier, and before all others.** -/
theorem latest_eq_some_iff {records : List (Instant × Dict)} {x : Instant × Dict} :
    latest records = some x ↔ ∃ before after, records = before ++ x :: after ∧
      (∀ y ∈ before, y.1 < x.1) ∧ ∀ y ∈ after, y.1 ≤ x.1 := by
  constructor
  · intro h
    cases records with
    | nil => cases h
    | cons summary rest =>
        obtain rfl := Option.some.inj h
        exact foldl_laterOf_split summary rest
  · rintro ⟨before, after, rfl, hbefore, hafter⟩
    cases before with
    | nil => exact congrArg some (foldl_laterOf_of_le hafter)
    | cons summary before =>
        obtain ⟨front, back, hsplit, _⟩ := foldl_laterOf_split summary before
        have hlt : (before.foldl laterOf summary).1 < x.1 := hbefore _ (by rw [hsplit]; simp)
        show some ((before ++ x :: after).foldl laterOf summary) = some x
        rw [List.foldl_append, List.foldl_cons, laterOf, if_pos hlt, foldl_laterOf_of_le hafter]

/-- A record that is the latest is also the latest of those that share a property with it. -/
theorem latest_filter {records : List (Instant × Dict)} {x : Instant × Dict}
    {p : Instant × Dict → Bool} (h : latest records = some x) (hx : p x = true) :
    latest (records.filter p) = some x := by
  obtain ⟨before, after, rfl, hbefore, hafter⟩ := latest_eq_some_iff.mp h
  refine latest_eq_some_iff.mpr ⟨before.filter p, after.filter p, ?_, ?_, ?_⟩
  · rw [List.filter_append, List.filter_cons_of_pos hx]
  · exact fun y hy => hbefore y (List.mem_of_mem_filter hy)
  · exact fun y hy => hafter y (List.mem_of_mem_filter hy)

theorem latest_mem {records : List (Instant × Dict)} {x : Instant × Dict}
    (h : latest records = some x) : x ∈ records := by
  obtain ⟨before, after, rfl, _⟩ := latest_eq_some_iff.mp h
  simp

end MostRecent

/-! ### Records that vouch -/

section Records

variable [Runtime]

/-- The most recent of some records, if there is one. -/
def mostRecent (records : List Dict) : Except PyError (Option Dict) := do
  return (latest (← records.mapM ranked)).map (·.2)

/-- The records of a provider that bear a name. -/
def namedSummaries (provider name : String) (summaries : List Value) : List Dict :=
  (providerSummaries provider summaries).filter fun summary => (summary.get "name").text = name

/-- A record that says its credential is in order: passed, not older than a day, not from the
future but for five minutes, and with the account readable. -/
structure Vouches (record : Dict) (now : Instant) : Prop where
  passed : (record.get "status").text = "passed"
  fresh : ∃ checked, checkedAt record = .ok (some checked) ∧
    -300 * microsecondsPerSecond ≤ now - checked ∧
    now - checked ≤ validationTtlSeconds * microsecondsPerSecond
  readable : accountReadable record = true

/-- The gate on a record is there for this. -/
theorem validationRecordGate_eq_ok {record : Dict} {now : Instant} {u : Unit} :
    validationRecordGate record now = .ok u ↔ Vouches record now := by
  unfold validationRecordGate
  simp only [bind_eq_ok, rejectIf_eq_ok, raising_eq_ok]
  constructor
  · rintro ⟨_, hstatus, checked, hchecked, h⟩
    cases checked with
    | none => exact absurd h reject_ne_ok
    | some checked =>
        simp only [bind_eq_ok, rejectIf_eq_ok, not_lt] at h
        obtain ⟨_, hfuture, _, hstale, hreadable⟩ := h
        exact ⟨not_not.mp hstatus, ⟨checked, hchecked, hfuture, hstale⟩, by simpa using hreadable⟩
  · intro h
    obtain ⟨checked, hchecked, hfuture, hstale⟩ := h.fresh
    refine ⟨(), not_not.mpr h.passed, some checked, hchecked, ?_⟩
    simp only [bind_eq_ok, rejectIf_eq_ok, not_lt]
    exact ⟨(), hfuture, (), hstale, by simp [h.readable]⟩

/-- **The gate takes the most recent record of the provider**, and wants it to vouch. -/
theorem validationBlock_eq_ok {provider : String} {summaries : List Value} {now : Instant}
    {u : Unit} :
    validationBlock provider summaries now = .ok u ↔
      ∃ record, mostRecent (providerSummaries provider summaries) = .ok (some record) ∧
        Vouches record now := by
  unfold validationBlock mostRecent
  simp only [bind_eq_ok, raising_eq_ok]
  constructor
  · rintro ⟨pairs, hpairs, h⟩
    cases pairs with
    | nil => exact absurd h reject_ne_ok
    | cons summary rest =>
        exact ⟨_, ⟨_, hpairs, rfl⟩, validationRecordGate_eq_ok.mp h⟩
  · rintro ⟨record, ⟨pairs, hpairs, h⟩, hvouches⟩
    cases pairs with
    | nil => cases h
    | cons summary rest =>
        obtain rfl := Option.some.inj (Except.ok.inj h)
        exact ⟨_, hpairs, validationRecordGate_eq_ok.mpr hvouches⟩

/-- Ranking some of the records. -/
theorem mapM_ranked_filter {records : List Dict} {pairs : List (Instant × Dict)} {p : Dict → Bool}
    (h : records.mapM ranked = .ok pairs) :
    (records.filter p).mapM ranked = .ok (pairs.filter fun pair => p pair.2) := by
  induction records generalizing pairs with
  | nil =>
      cases h
      rfl
  | cons record rest ih =>
      rw [List.mapM_cons] at h
      obtain ⟨pair, hpair, h⟩ := bind_eq_ok.mp h
      obtain ⟨pairs, hpairs, h⟩ := bind_eq_ok.mp h
      cases h
      have hrecord : pair.2 = record := by
        obtain ⟨_, _, hpair⟩ := bind_eq_ok.mp hpair
        cases hpair
        rfl
      rw [List.filter_cons, List.filter_cons, hrecord]
      cases p record with
      | false => exact ih hpairs
      | true =>
          simp only [if_true]
          rw [List.mapM_cons, hpair, ih hpairs]
          rfl

/-- The most recent record of all is the most recent of those it shares a property with. -/
theorem mostRecent_filter {records : List Dict} {record : Dict} {p : Dict → Bool}
    (h : mostRecent records = .ok (some record)) (hp : p record = true) :
    mostRecent (records.filter p) = .ok (some record) := by
  obtain ⟨pairs, hpairs, h⟩ := bind_eq_ok.mp h
  obtain ⟨pair, hlatest, hpair⟩ := Option.map_eq_some_iff.mp (Except.ok.inj h)
  refine bind_eq_ok.mpr ⟨_, mapM_ranked_filter hpairs, ?_⟩
  rw [latest_filter hlatest (by rwa [hpair])]
  exact congrArg (fun r => Except.ok (some r)) hpair

theorem mem_of_mapM_ranked {records : List Dict} {pairs : List (Instant × Dict)}
    (h : records.mapM ranked = .ok pairs) {pair : Instant × Dict} (hpair : pair ∈ pairs) :
    pair.2 ∈ records ∧ ranked pair.2 = .ok pair := by
  induction records generalizing pairs with
  | nil =>
      cases h
      cases hpair
  | cons record rest ih =>
      rw [List.mapM_cons] at h
      obtain ⟨first, hfirst, h⟩ := bind_eq_ok.mp h
      obtain ⟨pairs, hpairs, h⟩ := bind_eq_ok.mp h
      cases h
      rcases List.mem_cons.mp hpair with rfl | hmem
      · have hrecord : pair.2 = record := by
          obtain ⟨_, _, hranked⟩ := bind_eq_ok.mp hfirst
          cases hranked
          rfl
        rw [hrecord]
        exact ⟨List.mem_cons_self, hfirst⟩
      · exact ⟨List.mem_cons_of_mem _ (ih hpairs hmem).1, (ih hpairs hmem).2⟩

/-- The most recent record is one of the records, and on its own it still is. -/
theorem mostRecent_mem {records : List Dict} {record : Dict}
    (h : mostRecent records = .ok (some record)) :
    record ∈ records ∧ mostRecent [record] = .ok (some record) := by
  obtain ⟨pairs, hpairs, h⟩ := bind_eq_ok.mp h
  obtain ⟨pair, hlatest, rfl⟩ := Option.map_eq_some_iff.mp (Except.ok.inj h)
  obtain ⟨hmem, hranked⟩ := mem_of_mapM_ranked hpairs (latest_mem hlatest)
  refine ⟨hmem, ?_⟩
  rw [mostRecent, List.mapM_cons, hranked]
  rfl

end Records

/-! ### The credential that is used -/

section Credential

variable [Runtime] {ctx : Context} {item : Dict} {inputs : PreflightInputs} {cleared : Cleared}
variable {adapter : ChosenAdapter}

/-- The most recent record for a provider and a name is there, and vouches. -/
def ValidatedUnderName (provider name : String) (summaries : List Value) (now : Instant) : Prop :=
  ∃ record, mostRecent (namedSummaries provider name summaries) = .ok (some record) ∧
    Vouches record now

/-- The validations are read by one gate, which looks at the most recent record. -/
theorem RunsAdapter.of_summaries (h : RunsAdapter ctx item inputs cleared adapter)
    {summaries : List Value}
    (hblock : validationBlock (commandProvider cleared.command) summaries inputs.now = .ok ()) :
    RunsAdapter ctx item { inputs with validationSummaries := summaries } cleared adapter := by
  have hpassed := preflightGates_eq_ok.mp h.gates
  refine ⟨preflightGates_eq_ok.mpr ?_, h.chosen⟩
  exact {
    command := hpassed.command
    provider := hpassed.provider
    mode := hpassed.mode
    accountSource := hpassed.accountSource
    credential := hpassed.credential
    validation := hblock
    risk := hpassed.risk
    request := hpassed.request
    knownAdapter := hpassed.knownAdapter
    enabled := hpassed.enabled
    finalRisk := hpassed.finalRisk }

/-- **The credential that is used is validated exactly when the provider's most recent record
bears its name**: in every list of validations with that most recent record.  It is stated for
every adapter that runs; the disabled one has passed the same gate, but resolves no secret. -/
theorem credential_validated_iff (h : RunsAdapter ctx item inputs cleared adapter) {record : Dict}
    (hrecord : mostRecent (providerSummaries (commandProvider cleared.command)
      inputs.validationSummaries) = .ok (some record)) :
    (∀ summaries,
      RunsAdapter ctx item { inputs with validationSummaries := summaries } cleared adapter →
      mostRecent (providerSummaries (commandProvider cleared.command) summaries) =
        .ok (some record) →
      ValidatedUnderName (commandProvider cleared.command) (credentialName cleared.command)
        summaries inputs.now) ↔
    (record.get "name").text = credentialName cleared.command := by
  obtain ⟨record', hrecord', hvouches⟩ :=
    validationBlock_eq_ok.mp (preflightGates_eq_ok.mp h.gates).validation
  obtain rfl := Option.some.inj (Except.ok.inj (hrecord'.symm.trans hrecord))
  constructor
  · intro hall
    -- The record alone is a list of validations with which the same adapter runs.
    obtain ⟨hmem, hsingle⟩ := mostRecent_mem hrecord
    have hprovider := List.of_mem_filter hmem
    have hsummaries : providerSummaries (commandProvider cleared.command) [.dict record'] =
        [record'] := by
      show [record'].filter _ = _
      exact List.filter_eq_self.mpr fun r hr => by rw [List.mem_singleton.mp hr]; exact hprovider
    have hlatest : mostRecent (providerSummaries (commandProvider cleared.command)
        [.dict record']) = .ok (some record') := by rw [hsummaries, hsingle]
    obtain ⟨named, hnamed, _⟩ :=
      hall _ (h.of_summaries (validationBlock_eq_ok.mpr ⟨_, hlatest, hvouches⟩)) hlatest
    have hname := (mostRecent_mem hnamed).1
    rw [namedSummaries, hsummaries] at hname
    obtain ⟨hself, hbears⟩ := List.mem_filter.mp hname
    rw [List.mem_singleton.mp hself] at hbears
    exact of_decide_eq_true hbears
  · intro hname summaries _ hlatest
    exact ⟨record', mostRecent_filter hlatest (decide_eq_true hname), hvouches⟩

end Credential

namespace Sample

/-- The sample command with the credential `second`. -/
def secondItem : Dict :=
  [("command", .dict (Dict.set (command payload) "credentialName" "second")),
    ("lease", .dict [("id", "lease-1")])]

/-- The credential `main` passed its validation, `second` did not. -/
def secondFailed : PreflightInputs :=
  { inputs with
    validationSummaries := [.dict (validation "main" "passed"), .dict (validation "second" "failed")] }

end Sample

theorem credential_validated_iff_sample :
    ∃ cleared adapter record, @RunsAdapter Sample.runtime defaultContext
        (Sample.item Sample.payload) Sample.inputs cleared adapter ∧
      ((∀ summaries, @RunsAdapter Sample.runtime defaultContext (Sample.item Sample.payload)
          { Sample.inputs with validationSummaries := summaries } cleared adapter →
        @mostRecent Sample.runtime (providerSummaries (commandProvider cleared.command) summaries) =
          .ok (some record) →
        @ValidatedUnderName Sample.runtime (commandProvider cleared.command)
          (credentialName cleared.command) summaries Sample.inputs.now) ↔
      (record.get "name").text = credentialName cleared.command) := by
  obtain ⟨cleared, adapter, hruns, _, _⟩ := Sample.exists_runsAdapter
    (show Sample.runsFutures (Sample.item Sample.payload) Sample.inputs (fun _ => true) = true by
      decide +kernel)
  let _ : Runtime := Sample.runtime
  obtain ⟨record, hrecord, _⟩ :=
    validationBlock_eq_ok.mp (preflightGates_eq_ok.mp hruns.gates).validation
  exact ⟨cleared, adapter, record, hruns,
    @credential_validated_iff Sample.runtime _ _ _ _ _ hruns _ hrecord⟩

/-- A credential whose validation failed is used, because another one of the provider's passed. -/
theorem credential_not_validated :
    ∃ cleared adapter, @RunsAdapter Sample.runtime defaultContext Sample.secondItem
        Sample.secondFailed cleared adapter ∧ adapter.isFutures = true ∧
      ¬@ValidatedUnderName Sample.runtime (commandProvider cleared.command)
        (credentialName cleared.command) Sample.secondFailed.validationSummaries
        Sample.secondFailed.now := by
  have hruns : Sample.runsFutures Sample.secondItem Sample.secondFailed (fun cleared =>
      decide (commandProvider cleared.command = "okx" ∧
        credentialName cleared.command = "second")) = true := by decide +kernel
  have hfailed : ((@mostRecent Sample.runtime (namedSummaries "okx" "second"
      Sample.secondFailed.validationSummaries)).toOption.join.map
        fun record => (record.get "status").text) = some "failed" := by decide +kernel
  obtain ⟨cleared, adapter, hruns, hfutures, hnames⟩ := Sample.exists_runsAdapter hruns
  obtain ⟨hprovider, hname⟩ := of_decide_eq_true hnames
  refine ⟨cleared, adapter, hruns, hfutures, ?_⟩
  rintro ⟨record, hrecord, hvouches⟩
  rw [hprovider, hname] at hrecord
  have hstatus := @Vouches.passed Sample.runtime _ _ hvouches
  simp [hrecord, Except.toOption, hstatus] at hfailed

end YtmExecutor
