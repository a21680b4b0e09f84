/-
What the protection statuses other than `protected` stand for.

An operator acts on the status, so each has to say what OKX said: that a stop was taken,
that a position is open without one, that nothing is open yet, or that OKX could not be
asked.  Two of them can say something else.  A stop counts as placed without an id, and
as failed when its reply is refused for what else is in it; and an amount so small that
the context rounds it to zero counts as no position.  `statuses_truthful_iff` says that
this is all.
-/
import YtmExecutor.OkxSwap.Acceptance

namespace YtmExecutor

open Python Decimal Interaction Prog

section Statuses

variable [Runtime] {request : BrokerOrderRequest} {rules : OkxSwapInstrumentRules}
variable {expected : AttachedTpSl} {providerOrderId : String} {params : OrderParams}
variable {response : Dict} {t : OkxTranscript}

/-! ### Positions -/

/-- A row of the instrument. -/
def OfInstrument (rules : OkxSwapInstrumentRules) (item : Dict) : Prop :=
  upper ((item.get "instId").pyOr "").toText = rules.instId

/-- A row of the instrument with an amount that is not zero. -/
def IsOpen (rules : OkxSwapInstrumentRules) (item : Dict) : Prop :=
  OfInstrument rules item ∧ ∃ d, okxOptionalDecimal (item.get "pos") "pos" = .ok (some d) ∧ d.val ≠ 0

/-- No size is read from the row: there is none, or the context holds it as zero. -/
def ReadsNoSize (item : Dict) : Prop :=
  okxOptionalAbsDecimal defaultContext (item.get "pos") "pos" = .ok none ∨
    okxOptionalAbsDecimal defaultContext (item.get "pos") "pos" = .ok (some 0)

/-- The rows OKX answered about the positions. -/
def PositionRows (rules : OkxSwapInstrumentRules) (t : OkxTranscript) (items : List Dict) : Prop :=
  ∃ reply, (.getPositions "SWAP" rules.instId, .ok reply) ∈ t ∧
    okxResponseData reply "get_positions" = .ok items

def OpenPositionShown (rules : OkxSwapInstrumentRules) (t : OkxTranscript) : Prop :=
  ∃ items, PositionRows rules t items ∧ ∃ item ∈ items, IsOpen rules item

/-- No position is found exactly when no row of the instrument has a size. -/
theorem matchingOpenPosition_eq_none {items : List Dict} :
    matchingOpenPosition defaultContext rules items = .ok none ↔
      ∀ item ∈ items, OfInstrument rules item → ReadsNoSize item := by
  induction items with
  | nil => exact iff_of_true rfl (List.forall_mem_nil _)
  | cons item rest ih =>
      rw [List.forall_mem_cons]
      by_cases hinstrument : OfInstrument rules item
      · have hsame : ¬upper ((item.get "instId").pyOr "").toText ≠ rules.instId :=
          not_not.mpr hinstrument
        rw [imp_iff_right hinstrument]
        cases hsize : okxOptionalAbsDecimal defaultContext (item.get "pos") "pos" with
        | error e =>
            rw [matchingOpenPosition, if_neg hsame, hsize, ReadsNoSize, hsize]
            refine iff_of_false (fun h => by cases h) fun h => ?_
            rcases h.1 with h | h <;> cases h
        | ok size =>
            rw [matchingOpenPosition_cons hinstrument hsize, ReadsNoSize, hsize]
            cases size with
            | none => simp [ih]
            | some amount =>
                show (if 0 < amount then _ else _) = _ ↔ _
                by_cases hpos : 0 < amount
                · simp [hpos, hpos.ne']
                · have hzero : amount = 0 := by
                    obtain ⟨_, hnone⟩ | ⟨d, held, _, hheld, hamount⟩ :=
                      okxOptionalAbsDecimal_eq_ok.mp hsize
                    · cases hnone
                    · cases hamount
                      rw [fix_eq_rounded hheld] at hpos ⊢
                      exact le_antisymm (not_lt.mp hpos) (rounded_nonneg (abs_nonneg d.val))
                  simp [hzero, ih]
      · have hother : upper ((item.get "instId").pyOr "").toText ≠ rules.instId := hinstrument
        rw [matchingOpenPosition, if_pos hother, ih]
        simp [hinstrument]

/-- A position that is found is open. -/
theorem isOpen_of_matching {items : List Dict} {position : Dict}
    (h : matchingOpenPosition defaultContext rules items = .ok (some position)) :
    ∃ item ∈ items, IsOpen rules item := by
  obtain ⟨item, hmem, _, hinstrument, d, size, hd, hsize, hpos⟩ := matchingOpenPosition_pos h
  exact ⟨item, hmem, hinstrument, d, hd, ne_zero_of_fix_abs hsize hpos⟩

/-! ### Stops -/

/-- The reply accepts the stop: its code is `0`, and that of its first item is `0` or absent. -/
def AcceptsStop (reply : Value) (item : Dict) : Prop :=
  FirstItem reply item ∧ (okxOptionalText (item.get "sCode")).getD "0" = "0"

def HasAlgoId (item : Dict) : Prop := okxOptionalText (item.get "algoId") ≠ none

/-- A stop counts as placed when its reply accepts it and is clean. -/
theorem readStop_eq_ok {answer : Except PyError Value} :
    (∃ response, (do
        let items ← answer >>= fun reply => okxResponseData reply "place_algo_order"
        singleOrderResponse items "place_algo_order") = .ok response) ↔
      ∃ reply item, answer = .ok reply ∧ AcceptsStop reply item ∧ CleanReply reply := by
  constructor
  · rintro ⟨response, h⟩
    obtain ⟨items, hitems, hresponse⟩ := bind_eq_ok.mp h
    obtain ⟨reply, rfl, hdata⟩ := bind_eq_ok.mp hitems
    cases items with
    | nil => cases hresponse
    | cons first rest =>
        obtain ⟨_, hcode, _⟩ := bind_eq_ok.mp hresponse
        rw [raiseIf_eq_ok, not_not] at hcode
        obtain ⟨hfirst, hclean, _⟩ := firstItem_of_okxResponseData hdata
        exact ⟨reply, first, rfl, ⟨hfirst, hcode⟩, hclean⟩
  · rintro ⟨reply, item, rfl, ⟨hfirst, hcode⟩, hclean⟩
    obtain ⟨rest, hdata⟩ :=
      (@okxResponseData_of_firstItem _ _ _ "place_algo_order" hfirst).mpr hclean
    refine ⟨item, bind_eq_ok.mpr ⟨_, hdata, ?_⟩⟩
    refine bind_eq_ok.mpr ⟨(), raiseIf_eq_ok.mpr (not_not.mpr hcode), ?_⟩
    exact bind_eq_ok.mpr ⟨(), rejectSecretFields_eq_ok.mpr (passesGuard_of_clean hfirst hclean), rfl⟩

/-! ### Truthful statuses -/

/-- A query about the protection failed: it raised, or its reply cannot be read. -/
def QueryFailed (rules : OkxSwapInstrumentRules) (t : OkxTranscript) : Prop :=
  (∃ orderType answer e, (pendingQuery rules orderType, answer) ∈ t ∧
    readPending orderType answer = .error e) ∨
  ∃ answer e, (.getPositions "SWAP" rules.instId, answer) ∈ t ∧
    readPosition defaultContext rules answer = .error e

/-- The pending algo orders of every type were listed, and none is the protection. -/
def NonePending (rules : OkxSwapInstrumentRules) (expected : AttachedTpSl)
    (providerOrderId : String) (t : OkxTranscript) : Prop :=
  ∀ orderType ∈ okxAlgoOrderTypes, ∃ answer items, (pendingQuery rules orderType, answer) ∈ t ∧
    readPending orderType answer = .ok items ∧
    ∀ item ∈ items, matchesProtection expected providerOrderId item = false

/-- A stop of the conversation was accepted under an id. -/
def StopPlaced (t : OkxTranscript) : Prop :=
  ∃ stop reply item, (.placeAlgoOrder stop, .ok reply) ∈ t ∧ AcceptsStop reply item ∧ HasAlgoId item

/-- What the calls `t` about the protection have to show for the reported statuses. -/
structure Truthful (rules : OkxSwapInstrumentRules) (expected : AttachedTpSl)
    (providerOrderId : String) (response : Dict) (t : OkxTranscript) (reports : String → Prop) :
    Prop where
  once : (placedStops t).length ≤ 1
  grounds : ∀ before stop answer after, t = before ++ (.placeAlgoOrder stop, answer) :: after →
    OpenPositionShown rules before ∧
      (AttachmentRejected response expected ∨ NonePending rules expected providerOrderId before)
  remediated : reports "protected_remediated" → StopPlaced t
  unprotected : reports "unprotected" → OpenPositionShown rules t ∧ ¬StopPlaced t
  pending : reports "pending_activation" →
    ∃ items, PositionRows rules t items ∧ ∀ item ∈ items, ¬IsOpen rules item
  failed : reports "verification_failed" → QueryFailed rules t

/-- An accepted stop has an id exactly when its reply is clean. -/
def StopsConfirmed (t : OkxTranscript) : Prop :=
  ∀ stop reply item, (.placeAlgoOrder stop, .ok reply) ∈ t → AcceptsStop reply item →
    (HasAlgoId item ↔ CleanReply reply)

/-- Where no size is read from any row of the instrument, no row has an amount. -/
def SizesShown (rules : OkxSwapInstrumentRules) (t : OkxTranscript) : Prop :=
  ∀ items, PositionRows rules t items →
    (∀ item ∈ items, OfInstrument rules item → ReadsNoSize item) → ∀ item ∈ items, ¬IsOpen rules item

omit [Runtime] in
theorem placedStops_eq_nil (h : ∀ x ∈ t, ∀ stop, x.1 ≠ .placeAlgoOrder stop) :
    placedStops t = [] := by
  unfold placedStops
  rw [List.filterMap_eq_nil_iff]
  intro x hx
  unfold stop?
  split
  · rename_i stop hcall
    exact absurd hcall (h x hx stop)
  · rfl

/-- The rows of the one positions answer. -/
theorem positionRows_iff {t' : OkxTranscript} {answer : Except PyError Value} {items : List Dict}
    (h : ∀ x ∈ t, x.1 ≠ .getPositions "SWAP" rules.instId)
    (h' : ∀ x ∈ t', x.1 ≠ .getPositions "SWAP" rules.instId) :
    PositionRows rules (t ++ (.getPositions "SWAP" rules.instId, answer) :: t') items ↔
      (answer >>= fun reply => okxResponseData reply "get_positions") = .ok items := by
  constructor
  · intro ⟨reply, hmem, hread⟩
    rcases List.mem_append.mp hmem with hmem | hmem
    · exact absurd rfl (h _ hmem)
    · rcases List.mem_cons.mp hmem with heq | hmem
      · cases heq
        exact hread
      · exact absurd rfl (h' _ hmem)
  · intro hread
    obtain ⟨reply, rfl, hread⟩ := bind_eq_ok.mp hread
    exact ⟨reply, by simp, hread⟩

/-- The search found nothing in any of the lists. -/
theorem PendingRun.none_pending {orderTypes : List String} {out : Except PyError (Option Dict)}
    (h : PendingRun rules expected providerOrderId orderTypes t out) (hout : out = .ok none) :
    ∀ orderType ∈ orderTypes, ∃ answer items, (pendingQuery rules orderType, answer) ∈ t ∧
      readPending orderType answer = .ok items ∧
      ∀ item ∈ items, matchesProtection expected providerOrderId item = false := by
  induction h with
  | exhausted => simp
  | unreadable _ => cases hout
  | found _ _ => cases hout
  | next hread hnone _ ih =>
      rw [List.forall_mem_cons]
      refine ⟨⟨_, _, List.mem_cons_self, hread, ?_⟩, fun orderType hmem => ?_⟩
      · unfold matchingPendingProtection at hnone
        simpa using hnone
      · obtain ⟨answer, items, hquery, hlisted⟩ := ih hout orderType hmem
        exact ⟨answer, items, List.mem_cons_of_mem _ hquery, hlisted⟩

/-- A search that raised came to an answer that cannot be read. -/
theorem PendingRun.query_failed {orderTypes : List String} {out : Except PyError (Option Dict)}
    {e : PyError} (h : PendingRun rules expected providerOrderId orderTypes t out)
    (hout : out = .error e) :
    ∃ orderType answer e, (pendingQuery rules orderType, answer) ∈ t ∧
      readPending orderType answer = .error e := by
  induction h with
  | exhausted => cases hout
  | unreadable hread => exact ⟨_, _, _, List.mem_cons_self, hread⟩
  | found _ _ => cases hout
  | next _ _ _ ih =>
      obtain ⟨orderType, answer, e, hmem, hread⟩ := ih hout
      exact ⟨orderType, answer, e, List.mem_cons_of_mem _ hmem, hread⟩

/-! ### The remediation -/

/-- What becomes of a stop for an open position. -/
inductive RemediationRun : OkxTranscript → Except PyError Dict → Prop
  | placed {stop : AlgoParams} {reply : Value} {item report : Dict} (haccepts : AcceptsStop reply item)
      (hclean : CleanReply reply) (hstatus : report.get "status" = "protected_remediated") :
      RemediationRun [(.placeAlgoOrder stop, .ok reply)] (.ok report)
  | notBuilt {report : Dict} (hstatus : report.get "status" = "unprotected") :
      RemediationRun [] (.ok report)
  | failed {stop : AlgoParams} {answer : Except PyError Value} {report : Dict}
      (hfailed : ∀ reply item, answer = .ok reply → AcceptsStop reply item → ¬CleanReply reply)
      (hstatus : report.get "status" = "unprotected") :
      RemediationRun [(.placeAlgoOrder stop, answer)] (.ok report)
  | notBuiltRaised {e : PyError} (he : e.isValueError = false) : RemediationRun [] (.error e)
  | raised {stop : AlgoParams} {e : PyError} (he : e.isValueError = false) :
      RemediationRun [(.placeAlgoOrder stop, .error e)] (.error e)

theorem remediationRun_of_run {position : Dict} {reasonCode : String} {out : Except PyError Dict}
    (h : Run (remediatePosition defaultContext perform request providerOrderId position rules
      expected reasonCode) t out) : RemediationRun t out := by
  rcases run_remediatePosition h with ⟨e, _, rfl, rfl⟩ | ⟨stop, answer, _, rfl, report, hreport, rfl⟩
  · cases e with
    | valueError message => exact RemediationRun.notBuilt (status_unprotected _ _)
    | decimal signal => exact RemediationRun.notBuiltRaised rfl
    | other kind message => exact RemediationRun.notBuiltRaised rfl
  · have hfailed {e : PyError} (h : (do
        let items ← answer >>= fun reply => okxResponseData reply "place_algo_order"
        singleOrderResponse items "place_algo_order") = .error e) (reply : Value) (item : Dict)
        (hanswer : answer = .ok reply) (haccepts : AcceptsStop reply item) : ¬CleanReply reply := by
      intro hclean
      obtain ⟨_, hread⟩ := readStop_eq_ok.mpr ⟨reply, item, hanswer, haccepts, hclean⟩
      rw [h] at hread
      cases hread
    rw [← LawfulMonad.bind_assoc]
    cases hread : (answer >>= fun reply => okxResponseData reply "place_algo_order") >>=
        fun items => singleOrderResponse items "place_algo_order" with
    | ok response =>
        obtain ⟨reply, item, rfl, haccepts, hclean⟩ := readStop_eq_ok.mp ⟨response, hread⟩
        exact RemediationRun.placed haccepts hclean (hreport response)
    | error e =>
        cases answer with
        | ok reply =>
            have hvalue : OnlyValueErrors (okxResponseData reply "place_algo_order" >>= fun items =>
                singleOrderResponse items "place_algo_order") :=
              (okxResponseData_onlyValueErrors _ _).bind fun _ _ =>
                singleOrderResponse_onlyValueErrors _ _
            cases e with
            | valueError message => exact RemediationRun.failed (hfailed hread) (status_unprotected _ _)
            | decimal signal => cases hvalue _ hread
            | other kind message => cases hvalue _ hread
        | error e' =>
            cases hread
            cases e with
            | valueError message =>
                exact RemediationRun.failed (fun _ _ h => by cases h) (status_unprotected _ _)
            | decimal signal => exact RemediationRun.raised rfl
            | other kind message => exact RemediationRun.raised rfl

/-! ### The report -/

def Reported (out : Except PyError Dict) (status : String) : Prop :=
  ∃ report, out = .ok report ∧ (report.get "status").isText status = true

omit [Runtime] in
theorem reported_ok {report : Dict} {status s : String} (h : report.get "status" = .str status) :
    Reported (.ok report) s ↔ s = status := by
  constructor
  · intro ⟨_, hreport, hstatus⟩
    cases hreport
    rw [h] at hstatus
    simpa [Value.isText, eq_comm] using hstatus
  · intro hs
    exact ⟨report, rfl, by simp [h, hs, Value.isText]⟩

omit [Runtime] in
theorem reported_recovered {e : PyError} {failure : String → Dict} {s : String}
    (hfailure : ∀ message, (failure message).get "status" = "verification_failed")
    (h : Reported (recoverValueError (fun message => .ok (failure message)) (.error e)) s) :
    s = "verification_failed" := by
  obtain ⟨report, hreport, hstatus⟩ := h
  cases e with
  | valueError message => exact (reported_ok (hfailure message)).mp ⟨report, hreport, hstatus⟩
  | decimal signal => cases hreport
  | other kind message => cases hreport

/-- Where no stop is placed, the status has to stand for something else. -/
theorem truthful_of_noStop {reports : String → Prop} (status : String)
    (hno : ∀ x ∈ t, ∀ stop, x.1 ≠ .placeAlgoOrder stop) (hreports : ∀ s, reports s → s = status)
    (hremediated : status ≠ "protected_remediated")
    (hunprotected : status = "unprotected" → OpenPositionShown rules t)
    (hpending : status = "pending_activation" →
      ∃ items, PositionRows rules t items ∧ ∀ item ∈ items, ¬IsOpen rules item)
    (hfailed : status = "verification_failed" → QueryFailed rules t) :
    Truthful rules expected providerOrderId response t reports where
  once := by simp [placedStops_eq_nil hno]
  grounds before stop answer after h := by
    refine absurd rfl (hno (.placeAlgoOrder stop, answer) ?_ stop)
    rw [h]
    exact List.mem_append_right _ List.mem_cons_self
  remediated h := absurd (hreports _ h).symm hremediated
  unprotected h := ⟨hunprotected (hreports _ h).symm,
    fun ⟨stop, _, _, hmem, _⟩ => hno _ hmem stop rfl⟩
  pending h := hpending (hreports _ h).symm
  failed h := hfailed (hreports _ h).symm

theorem stopsConfirmed_of_noStop (hno : ∀ x ∈ t, ∀ stop, x.1 ≠ .placeAlgoOrder stop) :
    StopsConfirmed t :=
  fun stop _ _ hmem _ => absurd rfl (hno _ hmem stop)

omit [Runtime] in
/-- A last call that was not made before. -/
theorem before_eq {l before after : OkxTranscript} {x y : OkxCall × Except PyError Value}
    (hy : y ∉ l) (h : l ++ [x] = before ++ y :: after) : before = l := by
  rcases List.eq_nil_or_concat after with rfl | ⟨after', z, rfl⟩
  · exact (List.append_inj_left' h rfl).symm
  · refine absurd ?_ hy
    have heq : l ++ [x] = before ++ y :: after' ++ [z] := by
      rw [h]
      simp
    have hl : l = before ++ y :: after' := List.append_inj_left' heq rfl
    rw [hl]
    exact List.mem_append_right _ List.mem_cons_self

theorem sizesShown_of_noRows (h : ∀ x ∈ t, x.1 ≠ .getPositions "SWAP" rules.instId) :
    SizesShown rules t := by
  intro items ⟨reply, hmem, _⟩
  exact absurd rfl (h _ hmem)

/-- The search for the protection neither asks for positions nor places anything. -/
theorem Unprotected.quiet (h : Unprotected rules expected providerOrderId response t) :
    (∀ x ∈ t, x.1 ≠ .getPositions "SWAP" rules.instId) ∧
      ∀ x ∈ t, ∀ stop, x.1 ≠ .placeAlgoOrder stop := by
  refine ⟨fun x hx => ?_, fun x hx stop => ?_⟩
  · obtain ⟨_, hcall⟩ := h.calls x hx
    simp [hcall, pendingQuery]
  · obtain ⟨_, hcall⟩ := h.calls x hx
    simp [hcall, pendingQuery]

theorem PendingRun.quiet {orderTypes : List String} {out : Except PyError (Option Dict)}
    (h : PendingRun rules expected providerOrderId orderTypes t out) :
    (∀ x ∈ t, x.1 ≠ .getPositions "SWAP" rules.instId) ∧
      ∀ x ∈ t, ∀ stop, x.1 ≠ .placeAlgoOrder stop := by
  refine ⟨fun x hx => ?_, fun x hx stop => ?_⟩
  · obtain ⟨_, _, hcall⟩ := h.calls x hx
    simp [hcall, pendingQuery]
  · obtain ⟨_, _, hcall⟩ := h.calls x hx
    simp [hcall, pendingQuery]

/-- Nothing protects the position: OKX refused the attachment, or lists no such algo order. -/
theorem Unprotected.grounds (h : Unprotected rules expected providerOrderId response t) :
    AttachmentRejected response expected ∨ NonePending rules expected providerOrderId t := by
  cases h with
  | rejected h => exact Or.inl h
  | notListed _ hpending => exact Or.inr (hpending.none_pending rfl)

/-- The rows of an answer that was read. -/
theorem readPosition_eq {answer : Except PyError Value} {r : Except PyError (Option Dict)}
    {items : List Dict} (h : readPosition defaultContext rules answer = r)
    (hitems : (answer >>= fun reply => okxResponseData reply "get_positions") = .ok items) :
    matchingOpenPosition defaultContext rules items = r := by
  unfold readPosition at h
  rw [hitems] at h
  exact h

/-- A position that was shown is among the rows, and not all of them are read as zero. -/
theorem openPosition_shown {t' : OkxTranscript} {answer : Except PyError Value} {position : Dict}
    (hquiet : ∀ x ∈ t, x.1 ≠ .getPositions "SWAP" rules.instId)
    (hquiet' : ∀ x ∈ t', x.1 ≠ .getPositions "SWAP" rules.instId)
    (h : readPosition defaultContext rules answer = .ok (some position)) :
    OpenPositionShown rules (t ++ (.getPositions "SWAP" rules.instId, answer) :: t') ∧
      SizesShown rules (t ++ (.getPositions "SWAP" rules.instId, answer) :: t') := by
  obtain ⟨items, hitems, hmatching⟩ := bind_eq_ok.mp h
  constructor
  · exact ⟨items, (positionRows_iff hquiet hquiet').mpr hitems, isOpen_of_matching hmatching⟩
  · intro items' hrows hnone
    rw [positionRows_iff hquiet hquiet', hitems] at hrows
    cases hrows
    rw [matchingOpenPosition_eq_none.mpr hnone] at hmatching
    cases hmatching

omit [Runtime] in
/-- The one stop of a remediation. -/
theorem mem_of_stop {answer answer' answer'' : Except PyError Value} {stop stop' : AlgoParams}
    (hsilent : ∀ x ∈ t, ∀ stop, x.1 ≠ .placeAlgoOrder stop) :
    (.placeAlgoOrder stop', answer') ∈
        t ++ [(.getPositions "SWAP" rules.instId, answer), (.placeAlgoOrder stop, answer'')] ↔
      stop' = stop ∧ answer' = answer'' := by
  have hnot : ((.placeAlgoOrder stop', answer') : OkxCall × Except PyError Value) ∉ t :=
    fun hmem => hsilent _ hmem stop' rfl
  simp [hnot]

/-- A stop that is placed once a position was shown. -/
theorem truthful_of_stop {answer answer' : Except PyError Value} {stop : AlgoParams}
    {reports : String → Prop} (status : String)
    (hunprotected : Unprotected rules expected providerOrderId response t)
    (hshown : OpenPositionShown rules (t ++ [(.getPositions "SWAP" rules.instId, answer)]))
    (hreports : ∀ s, reports s → s = status)
    (hstatus : status ∈ ["protected_remediated", "unprotected"])
    (hremediated : status = "protected_remediated" → StopPlaced
      (t ++ [(.getPositions "SWAP" rules.instId, answer), (.placeAlgoOrder stop, answer')]))
    (hfailed : status = "unprotected" → ¬StopPlaced
      (t ++ [(.getPositions "SWAP" rules.instId, answer), (.placeAlgoOrder stop, answer')])) :
    Truthful rules expected providerOrderId response
      (t ++ [(.getPositions "SWAP" rules.instId, answer), (.placeAlgoOrder stop, answer')])
      reports := by
  have hmore {t t' : OkxTranscript} (h : OpenPositionShown rules t) :
      OpenPositionShown rules (t ++ t') :=
    h.imp fun items h => ⟨h.1.imp fun reply h => ⟨List.mem_append_left _ h.1, h.2⟩, h.2⟩
  have hsplit : t ++ [(.getPositions "SWAP" rules.instId, answer), (.placeAlgoOrder stop, answer')] =
      t ++ [(.getPositions "SWAP" rules.instId, answer)] ++ [(.placeAlgoOrder stop, answer')] := by
    simp
  refine ⟨?_, ?_, ?_, ?_, ?_, ?_⟩
  · rw [placedStops, List.filterMap_append, ← placedStops, placedStops_eq_nil hunprotected.quiet.2]
    simp [stop?]
  · intro before stop' answer'' after h
    rw [hsplit] at h
    have hbefore := before_eq (fun hmem => by
      rcases List.mem_append.mp hmem with hmem | hmem
      · exact hunprotected.quiet.2 _ hmem stop' rfl
      · cases List.mem_singleton.mp hmem) h
    rw [hbefore]
    refine ⟨hshown, hunprotected.grounds.imp_right fun h orderType hmem => ?_⟩
    obtain ⟨answer, items, hquery, hlisted⟩ := h orderType hmem
    exact ⟨answer, items, List.mem_append_left _ hquery, hlisted⟩
  · exact fun h => hremediated (hreports _ h).symm
  · intro h
    rw [hsplit]
    exact ⟨hmore hshown, by rw [← hsplit]; exact hfailed (hreports _ h).symm⟩
  · intro h
    rw [← hreports _ h] at hstatus
    simp at hstatus
  · intro h
    rw [← hreports _ h] at hstatus
    simp at hstatus

/-- The remediation of a position is truthful exactly when its stop is confirmed. -/
theorem RemediationRun.truthful_iff {t' : OkxTranscript} {answer : Except PyError Value}
    {position : Dict} {out : Except PyError Dict} {failure : String → Dict}
    (h : RemediationRun t' out) (hunprotected : Unprotected rules expected providerOrderId response t)
    (hposition : readPosition defaultContext rules answer = .ok (some position)) :
    Truthful rules expected providerOrderId response
        (t ++ (.getPositions "SWAP" rules.instId, answer) :: t')
        (Reported (recoverValueError (fun message => .ok (failure message)) out)) ↔
      StopsConfirmed (t ++ (.getPositions "SWAP" rules.instId, answer) :: t') ∧
        SizesShown rules (t ++ (.getPositions "SWAP" rules.instId, answer) :: t') := by
  obtain ⟨hquiet, hsilent⟩ := hunprotected.quiet
  have hnothing : ∀ x ∈ t ++ [(.getPositions "SWAP" rules.instId, answer)], ∀ stop,
      x.1 ≠ .placeAlgoOrder stop := by
    intro x hx stop
    rcases List.mem_append.mp hx with hx | hx
    · exact hsilent x hx stop
    · simp [List.mem_singleton.mp hx]
  have hquiet' {stop : AlgoParams} {answer' : Except PyError Value} :
      ∀ x ∈ [((.placeAlgoOrder stop, answer') : OkxCall × Except PyError Value)],
        x.1 ≠ .getPositions "SWAP" rules.instId := by simp
  have hnone (e : PyError) (he : e.isValueError = false) (s : String) :
      ¬Reported (recoverValueError (fun message => .ok (failure message)) (.error e)) s := by
    intro ⟨_, h, _⟩
    cases e with
    | valueError message => cases he
    | decimal signal => cases h
    | other kind message => cases h
  cases h with
  | placed haccepts hclean hstatus =>
      obtain ⟨hshown, hsizes⟩ := openPosition_shown hquiet hquiet' hposition
      obtain ⟨hbefore, _⟩ := openPosition_shown hquiet (List.forall_mem_nil _) hposition
      rw [and_iff_left hsizes]
      constructor
      · intro h stop' reply' item' hmem haccepts'
        obtain ⟨_, _, item'', hmem'', haccepts'', hid⟩ :=
          h.remediated ((reported_ok hstatus).mpr rfl)
        cases ((mem_of_stop hsilent).mp hmem).2
        cases ((mem_of_stop hsilent).mp hmem'').2
        rw [haccepts'.1.unique haccepts''.1]
        exact iff_of_true hid hclean
      · intro h
        refine truthful_of_stop _ hunprotected hbefore (fun s => (reported_ok hstatus).mp)
          (by simp) (fun _ => ?_) fun h => by simp at h
        refine ⟨_, _, _, (mem_of_stop hsilent).mpr ⟨rfl, rfl⟩, haccepts, ?_⟩
        exact (h _ _ _ ((mem_of_stop hsilent).mpr ⟨rfl, rfl⟩) haccepts).mpr hclean
  | notBuilt hstatus =>
      obtain ⟨hshown, hsizes⟩ := openPosition_shown hquiet (List.forall_mem_nil _) hposition
      refine iff_of_true ?_ ⟨stopsConfirmed_of_noStop hnothing, hsizes⟩
      exact truthful_of_noStop _ hnothing (fun s => (reported_ok hstatus).mp) (by decide)
        (fun _ => hshown) (fun h => by simp at h) (fun h => by simp at h)
  | failed hfailed hstatus =>
      obtain ⟨hshown, hsizes⟩ := openPosition_shown hquiet hquiet' hposition
      obtain ⟨hbefore, _⟩ := openPosition_shown hquiet (List.forall_mem_nil _) hposition
      rw [and_iff_left hsizes]
      constructor
      · intro h stop' reply' item' hmem haccepts
        have hnotPlaced := (h.unprotected ((reported_ok hstatus).mpr rfl)).2
        refine iff_of_false (fun hid => hnotPlaced ⟨_, _, _, hmem, haccepts, hid⟩) ?_
        exact hfailed _ _ ((mem_of_stop hsilent).mp hmem).2.symm haccepts
      · intro h
        refine truthful_of_stop _ hunprotected hbefore (fun s => (reported_ok hstatus).mp)
          (by simp) (fun h => by simp at h) fun _ => ?_
        intro ⟨_, _, _, hmem, haccepts, hid⟩
        refine hfailed _ _ ((mem_of_stop hsilent).mp hmem).2.symm haccepts ?_
        exact (h _ _ _ hmem haccepts).mp hid
  | notBuiltRaised he =>
      obtain ⟨_, hsizes⟩ := openPosition_shown hquiet (List.forall_mem_nil _) hposition
      refine iff_of_true ?_ ⟨stopsConfirmed_of_noStop hnothing, hsizes⟩
      exact truthful_of_noStop "" hnothing (fun s h => absurd h (hnone _ he s))
        (by decide) (fun h => by simp at h) (fun h => by simp at h) (fun h => by simp at h)
  | raised he =>
      obtain ⟨_, hsizes⟩ := openPosition_shown hquiet hquiet' hposition
      obtain ⟨hshown, _⟩ := openPosition_shown hquiet (List.forall_mem_nil _) hposition
      refine iff_of_true ?_ ⟨?_, hsizes⟩
      · refine truthful_of_stop "unprotected" hunprotected hshown
          (fun s h => absurd h (hnone _ he s)) (by decide) (fun h => by simp at h) fun _ => ?_
        intro ⟨_, _, _, hmem, _⟩
        cases ((mem_of_stop hsilent).mp hmem).2
      · intro _ _ _ hmem
        cases ((mem_of_stop hsilent).mp hmem).2

/-- The protection's report is truthful exactly when its stop is confirmed and no amount vanishes. -/
theorem ProtectionRun.truthful_iff {r : Except PyError Dict} {failure : String → Dict}
    (hfailure : ∀ message, (failure message).get "status" = "verification_failed")
    (h : ProtectionRun defaultContext request params response providerOrderId rules t r)
    (hexpected : expectedProtection params = some expected) :
    Truthful rules expected providerOrderId response t
        (Reported (recoverValueError (fun message => .ok (failure message)) r)) ↔
      StopsConfirmed t ∧ SizesShown rules t := by
  have hlast {t : OkxTranscript} {answer : Except PyError Value}
      (hunprotected : Unprotected rules expected providerOrderId response t) :
      ∀ x ∈ t ++ [(.getPositions "SWAP" rules.instId, answer)], ∀ stop,
        x.1 ≠ .placeAlgoOrder stop := by
    intro x hx stop
    rcases List.mem_append.mp hx with hx | hx
    · exact hunprotected.quiet.2 x hx stop
    · simp [List.mem_singleton.mp hx]
  cases h with
  | notRequired h _ => cases hexpected.symm.trans h
  | found _ _ hpending =>
      obtain ⟨hquiet, hsilent⟩ := hpending.quiet
      refine iff_of_true ?_ ⟨stopsConfirmed_of_noStop hsilent, sizesShown_of_noRows hquiet⟩
      exact truthful_of_noStop _ hsilent (fun s => (reported_ok (status_protectedBy _)).mp)
        (by simp) (fun h => by simp at h) (fun h => by simp at h) fun h => by simp at h
  | unreadable h _ hpending =>
      cases hexpected.symm.trans h
      obtain ⟨hquiet, hsilent⟩ := hpending.quiet
      refine iff_of_true ?_ ⟨stopsConfirmed_of_noStop hsilent, sizesShown_of_noRows hquiet⟩
      exact truthful_of_noStop _ hsilent (fun s => reported_recovered hfailure) (by simp)
        (fun h => by simp at h) (fun h => by simp at h) fun _ => Or.inl (hpending.query_failed rfl)
  | unknownPosition h hunprotected hposition =>
      cases hexpected.symm.trans h
      refine iff_of_true ?_ ⟨stopsConfirmed_of_noStop (hlast hunprotected), ?_⟩
      · exact truthful_of_noStop _ (hlast hunprotected) (fun s => reported_recovered hfailure) (by simp)
          (fun h => by simp at h) (fun h => by simp at h) fun _ => Or.inr ⟨_, _, by simp, hposition⟩
      · intro items hrows hnone
        rw [positionRows_iff hunprotected.quiet.1 (List.forall_mem_nil _)] at hrows
        have hmatching := readPosition_eq hposition hrows
        rw [matchingOpenPosition_eq_none.mpr hnone] at hmatching
        cases hmatching
  | @noPosition _ t answer _ h hunprotected hposition hstatus =>
      cases hexpected.symm.trans h
      rw [and_iff_right (stopsConfirmed_of_noStop (hlast hunprotected))]
      obtain ⟨items, hitems, hmatching⟩ := bind_eq_ok.mp hposition
      have hrows (items' : List Dict) :
          PositionRows rules (t ++ [(.getPositions "SWAP" rules.instId, answer)]) items' ↔
            (answer >>= fun reply => okxResponseData reply "get_positions") = .ok items' :=
        positionRows_iff hunprotected.quiet.1 (List.forall_mem_nil _)
      constructor
      · intro h items' hrows' _
        obtain ⟨_, hshown, hclosed⟩ := h.pending ((reported_ok hstatus).mpr rfl)
        rw [hrows] at hshown hrows'
        cases hshown.symm.trans hrows'
        exact hclosed
      · intro h
        refine truthful_of_noStop _ (hlast hunprotected) (fun s => (reported_ok hstatus).mp)
          (by simp) (fun h => by simp at h) (fun _ => ?_) fun h => by simp at h
        refine ⟨items, (hrows items).mpr hitems, ?_⟩
        exact h items ((hrows items).mpr hitems) (matchingOpenPosition_eq_none.mp hmatching)
  | openPosition h hunprotected hposition hremediate =>
      cases hexpected.symm.trans h
      exact (remediationRun_of_run hremediate).truthful_iff hunprotected hposition

/-- An entry order that was accepted with protection attached, and what was reported of it. -/
structure AcceptedEntry (request : BrokerOrderRequest) (t t' t'' : OkxTranscript)
    (preparation : Preparation) (order : EnteredOrder) (expected : AttachedTpSl)
    (out : Except PyError BrokerAdapterResult) : Prop where
  prepared : Run (placementPreparation defaultContext perform request) t (.ok preparation)
  entered : Run (enterOrder perform preparation.params) t' (.ok order)
  attached : expectedProtection preparation.params = some expected
  reported : Run (okxPlacementPrepareOrder defaultContext perform request) (t ++ (t' ++ t'')) out

/-- **The reported status of the protection is truthful exactly when** an accepted stop has an id
and a clean reply, or neither, and no amount of the instrument is so small that it is lost. -/
theorem statuses_truthful_iff {t' t'' : OkxTranscript} {preparation : Preparation}
    {order : EnteredOrder} {out : Except PyError BrokerAdapterResult}
    (h : AcceptedEntry request t t' t'' preparation order expected out) :
    Truthful preparation.rules expected order.providerOrderId order.response t''
        (EndsWithProtection out) ↔
      StopsConfirmed t'' ∧ SizesShown preparation.rules t'' := by
  obtain ⟨protection, hverified, rfl⟩ := protection_of_run h.reported h.prepared h.entered
  obtain ⟨r, hprotection, failure, hfailure, rfl⟩ := run_safeVerifyOrRemediateProtection hverified
  rw [← hprotection.truthful_iff hfailure h.attached]
  have hreports : EndsWithProtection ((recoverValueError (fun message => .ok (failure message)) r).map
      fun report => ⟨placementEntries preparation order report
        (normalizedOrderEntries preparation.params)⟩) =
      Reported (recoverValueError (fun message => .ok (failure message)) r) :=
    funext fun status => propext endsWithProtection_entered
  rw [hreports]

/-- A status that is about protection belongs to an accepted entry. -/
theorem acceptedEntry_of_status {out : Except PyError BrokerAdapterResult} {status : String}
    (hrun : Run (okxPlacementPrepareOrder defaultContext perform request) t out)
    (hstatus : EndsWithProtection out status) (hne : status ≠ "not_required") :
    ∃ t₁ t₂ t₃ preparation order expected, t = t₁ ++ (t₂ ++ t₃) ∧
      AcceptedEntry request t₁ t₂ t₃ preparation order expected out := by
  cases placementRun_of_run hrun with
  | refused _ =>
      obtain ⟨_, h, _⟩ := hstatus
      cases h
  | unprepared _ =>
      obtain ⟨_, h, _⟩ := hstatus
      cases h
  | notEntered _ _ =>
      obtain ⟨_, h, _⟩ := hstatus
      cases h
  | @entered t t' t'' preparation order protection h h' h'' =>
      cases hexpected : expectedProtection preparation.params with
      | some expected => exact ⟨t, t', t'', preparation, order, expected, rfl, h, h', hexpected, hrun⟩
      | none =>
          obtain ⟨r, hprotection, failure, _, rfl⟩ := run_safeVerifyOrRemediateProtection h''
          have hreported : Reported (recoverValueError (fun message => .ok (failure message)) r)
              status := endsWithProtection_entered.mp hstatus
          cases hprotection with
          | notRequired _ hnot => exact absurd ((reported_ok hnot).mp hreported) hne
          | found h | unreadable h | unknownPosition h | noPosition h | openPosition h =>
              cases hexpected.symm.trans h

/-! ### A stop without an id -/

/-- A stop that was not answered, or answered without an id. -/
def withoutAlgoId : OkxCall × Except PyError Value → Bool
  | (.placeAlgoOrder _, .ok (.dict fields)) =>
      match Dict.get fields "data" with
      | .list (.dict item :: _) => (okxOptionalText (Dict.get item "algoId")).isNone
      | _ => true
  | _ => true

theorem not_stopPlaced (h : ∀ x ∈ t, withoutAlgoId x = true) : ¬StopPlaced t := by
  intro ⟨stop, reply, item, hmem, ⟨⟨fields, rest, hreply, _, hdata⟩, _⟩, hid⟩
  have hnone := h _ hmem
  rw [hreply, withoutAlgoId, hdata] at hnone
  exact hid (Option.isNone_iff_eq_none.mp hnone)

end Statuses

namespace Sample

/-- As `unprotectedAnswers`, with another answer to the stop. -/
def stopAnswers (answer : Except PyError Value) : List (Except PyError Value) :=
  [accountReply, instrumentReply, noOrderReply, orderReply, emptyReply, emptyReply, emptyReply,
    emptyReply, positionReply "3", answer]

end Sample

theorem statuses_truthful_iff_sample :
    ∃ t t' t'' preparation order expected out,
      @AcceptedEntry Sample.runtime Sample.longEntry t t' t'' preparation order expected out ∧
      EndsWithProtection out "protected_remediated" ∧
      (@Truthful Sample.runtime preparation.rules expected order.providerOrderId order.response t''
          (EndsWithProtection out) ↔
        @StopsConfirmed Sample.runtime t'' ∧ @SizesShown Sample.runtime preparation.rules t'') := by
  obtain ⟨t, out, hrun, hcheck⟩ := exists_run (Sample.stopAnswers Sample.algoReply)
    (@okxPlacementPrepareOrder Sample.runtime defaultContext _ perform Sample.longEntry)
    (fun _ out => match out with
      | .ok result => (result.payload.get "protectionStatus").isText "protected_remediated"
      | .error _ => false) (by decide +kernel)
  have hstatus : EndsWithProtection out "protected_remediated" := by
    cases out with
    | ok result => exact ⟨result, rfl, hcheck⟩
    | error e => cases hcheck
  obtain ⟨t₁, t₂, t₃, preparation, order, expected, _, hentry⟩ :=
    @acceptedEntry_of_status Sample.runtime _ _ _ _ hrun hstatus (by decide)
  exact ⟨t₁, t₂, t₃, preparation, order, expected, out, hentry, hstatus,
    @statuses_truthful_iff Sample.runtime _ _ _ _ _ _ _ _ hentry⟩

/-- A stop that OKX answers without an id is reported as placed. -/
theorem remediated_without_id :
    ∃ t t' t'' preparation order expected out,
      @AcceptedEntry Sample.runtime Sample.longEntry t t' t'' preparation order expected out ∧
      EndsWithProtection out "protected_remediated" ∧ ¬@StopPlaced Sample.runtime t'' ∧
      ¬@Truthful Sample.runtime preparation.rules expected order.providerOrderId order.response t''
          (EndsWithProtection out) := by
  obtain ⟨t, out, hrun, hcheck⟩ := exists_run (Sample.stopAnswers (Sample.reply [("sCode", "0")]))
    (@okxPlacementPrepareOrder Sample.runtime defaultContext _ perform Sample.longEntry)
    (fun t out => t.all withoutAlgoId && match out with
      | .ok result => (result.payload.get "protectionStatus").isText "protected_remediated"
      | .error _ => false) (by decide +kernel)
  rw [Bool.and_eq_true, List.all_eq_true] at hcheck
  have hstatus : EndsWithProtection out "protected_remediated" := by
    cases out with
    | ok result => exact ⟨result, rfl, hcheck.2⟩
    | error e => cases hcheck.2
  obtain ⟨t₁, t₂, t₃, preparation, order, expected, rfl, hentry⟩ :=
    @acceptedEntry_of_status Sample.runtime _ _ _ _ hrun hstatus (by decide)
  have hnot : ¬@StopPlaced Sample.runtime t₃ := @not_stopPlaced Sample.runtime _ fun x hx =>
    hcheck.1 x (List.mem_append_right _ (List.mem_append_right _ hx))
  exact ⟨t₁, t₂, t₃, preparation, order, expected, out, hentry, hstatus, hnot,
    fun h => hnot (@Truthful.remediated Sample.runtime _ _ _ _ _ _ h hstatus)⟩

end YtmExecutor
