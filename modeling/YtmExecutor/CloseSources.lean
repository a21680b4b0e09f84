/-
What a snapshot calls a manual close.

A record that names no close source, of a kind of order that implies none, is taken for
closed by hand when it is reduce-only and its client id is not one of the executor's
(`ImpliedManual`).  The executor's stops have their id in another field, so this is what
their records look like too.  `own_never_manual_iff` says exactly which replies make the
executor's own orders look manual: those with such a record of a stop, and those where
such a record decides for a fill.
-/
import YtmExecutor.Interaction.Run
import YtmExecutor.Snapshots

namespace YtmExecutor

open Python Interaction Prog

namespace Reconciliation

section Manual

variable [Runtime]

/-! ### The executor's own orders -/

/-- The ids the executor gives its orders, its attached stops and its later ones. -/
def IsExecutorId (id : String) : Prop :=
  (∃ clientOrderId, id = okxClientOrderId clientOrderId) ∨
    ∃ clientOrderId, ∃ suffix ∈ ["ps", "sr"], id = okxAttachedAlgoClientOrderId clientOrderId suffix

omit [Runtime] in
theorem IsExecutorId.hasYtmPrefix {id : String} (h : IsExecutorId id) : hasYtmPrefix id = true := by
  rw [Reconciliation.hasYtmPrefix, List.isPrefixOf_iff_prefix]
  rcases h with ⟨clientOrderId, rfl⟩ | ⟨clientOrderId, suffix, _, rfl⟩
  · rw [okxClientOrderId, String.toList_append]
    exact List.prefix_append _ _
  · rw [okxAttachedAlgoClientOrderId, String.toList_append, String.toList_append, List.append_assoc]
    exact List.prefix_append _ _

/-- An order or an algo order of the executor. -/
def IsOwn (item : Dict) : Prop :=
  IsExecutorId (fieldText item "clOrdId") ∨ IsExecutorId (fieldText item "algoClOrdId")

/-- A fill of one of them. -/
def IsOwnFill (records : OkxRecords) (fill : Dict) : Prop :=
  IsExecutorId (fieldText fill "clOrdId") ∨
    ∃ item ∈ records.closing, IsOwn item ∧ fieldText fill "ordId" ≠ "" ∧
      fieldText item "ordId" = fieldText fill "ordId"

/-! ### Manual closes -/

/-- The record names a manual source. -/
def NamesManual (item : Dict) : Prop :=
  ∃ key ∈ closeSourceKeys, namedCloseSource (normalizedToken (item.get key)) = some "provider_manual"

/-- Nothing but a reduce-only order under a foreign client id. -/
structure ImpliedManual (item : Dict) : Prop where
  unnamed : ∀ key ∈ closeSourceKeys, namedCloseSource (normalizedToken (item.get key)) = none
  orderType : orderTypeCloseSource (normalizedToken (item.get "ordType")) = none
  reduceOnly : (boolText (item.get "reduceOnly")).isTrue = true
  foreign : hasYtmPrefix (fieldText item "clOrdId") = false

omit [Runtime] in
theorem orderTypeCloseSource_ne_manual (token : String) :
    orderTypeCloseSource token ≠ some "provider_manual" := by
  unfold orderTypeCloseSource
  split
  · simp
  · split <;> simp

theorem inferCloseSource_eq_manual {item : Dict} :
    inferCloseSource item = "provider_manual" ↔
      (closeSourceKeys.findSome? fun key => namedCloseSource (normalizedToken (item.get key))) =
        some "provider_manual" ∨ ImpliedManual item := by
  unfold inferCloseSource
  cases hnamed : closeSourceKeys.findSome? fun key =>
      namedCloseSource (normalizedToken (item.get key)) with
  | some source =>
      have hnot : ¬ImpliedManual item := by
        intro h
        rw [List.findSome?_eq_none_iff.mpr h.unnamed] at hnamed
        cases hnamed
      rw [or_iff_left hnot, Option.some.injEq]
  | none =>
      rw [or_iff_right (by simp)]
      cases htype : orderTypeCloseSource (normalizedToken (item.get "ordType")) with
      | some source =>
          refine iff_of_false ?_ fun h => ?_
          · rintro rfl
            exact orderTypeCloseSource_ne_manual _ htype
          · rw [h.orderType] at htype
            cases htype
      | none =>
          dsimp only
          split
          · rename_i h
            rw [Bool.and_eq_true, Bool.not_eq_true'] at h
            exact iff_of_true rfl ⟨List.findSome?_eq_none_iff.mp hnamed, htype, h.1, h.2⟩
          · rename_i h
            refine iff_of_false (by decide) fun hmanual => h ?_
            rw [hmanual.reduceOnly, hmanual.foreign]
            rfl

/-- A record that is called manual names it or implies it. -/
theorem named_or_implied {item : Dict} (h : inferCloseSource item = "provider_manual") :
    NamesManual item ∨ ImpliedManual item := by
  rcases inferCloseSource_eq_manual.mp h with hnamed | himplied
  · exact Or.inl (List.exists_of_findSome?_eq_some hnamed)
  · exact Or.inr himplied

theorem ImpliedManual.not_named {item : Dict} (h : ImpliedManual item) : ¬NamesManual item := by
  rintro ⟨key, hkey, hnamed⟩
  rw [h.unnamed key hkey] at hnamed
  cases hnamed

/-- A record of the executor's that looks manual is one of a stop. -/
theorem ImpliedManual.stop_of_own {item : Dict} (h : ImpliedManual item) (hown : IsOwn item) :
    IsExecutorId (fieldText item "algoClOrdId") := by
  refine hown.resolve_left fun hid => ?_
  have := hid.hasYtmPrefix
  rw [h.foreign] at this
  cases this

/-! ### What the entries say -/

theorem orderEntry_closeSource_iff {item : Dict} {source : String} :
    (orderEntry item).get "closeSource" = .str source ↔
      source ≠ "" ∧ inferCloseSource item = source := by
  rw [orderEntry, get_compact_eq_str_iff (by simp) rfl, Value.str.injEq]

theorem fillEntry_closeSource_iff {closeSources : List (String × String)} {item : Dict}
    {source : String} :
    (fillEntry closeSources item).get "closeSource" = .str source ↔
      source ≠ "" ∧ fillCloseSource item closeSources = source := by
  rw [fillEntry, get_compact_eq_str_iff (by simp) rfl, Value.str.injEq]

theorem orderEntry_closeSource {item : Dict} :
    (orderEntry item).get "closeSource" = .str "provider_manual" ↔
      inferCloseSource item = "provider_manual" :=
  orderEntry_closeSource_iff.trans (and_iff_right (by decide))

theorem algoOrderEntry_closeSource {item : Dict} :
    (algoOrderEntry item).get "closeSource" = .str "provider_manual" ↔
      inferCloseSource item = "provider_manual" := by
  rw [algoOrderEntry, get_compact_eq_str (by simp) rfl (by decide), Value.str.injEq]

theorem fillEntry_closeSource {closeSources : List (String × String)} {item : Dict} :
    (fillEntry closeSources item).get "closeSource" = .str "provider_manual" ↔
      fillCloseSource item closeSources = "provider_manual" :=
  fillEntry_closeSource_iff.trans (and_iff_right (by decide))

/-- The entry is in this list of the snapshot, and says that the close was manual. -/
def ReportedManual (snapshot : Dict) (key : String) (entry : Dict) : Prop :=
  entry ∈ entriesOf snapshot key ∧ entry.get "closeSource" = .str "provider_manual"

/-- The fill, or a record that shares an id with it, names a manual source. -/
def FillNamesManual (records : OkxRecords) (fill : Dict) : Prop :=
  NamesManual fill ∨ ∃ item ∈ records.closing, NamesManual item ∧
    ∃ key ∈ fillRefKeys, HasRef item (fieldText fill key)

/-- No order, algo order or fill of the executor's is called manual, unless a record names it. -/
structure NeverManual (records : OkxRecords) (snapshot : Dict) : Prop where
  openOrders : ∀ item ∈ records.orders, IsOwn item →
    ReportedManual snapshot "openOrders" (orderEntry item) → NamesManual item
  orderHistory : ∀ item ∈ records.orderHistory, IsOwn item →
    ReportedManual snapshot "orderHistory" (orderEntry item) → NamesManual item
  algoOrders : ∀ item ∈ records.algoOrders, IsOwn item →
    ReportedManual snapshot "algoOrders" (algoOrderEntry item) → NamesManual item
  fills : ∀ fill ∈ records.fills, IsOwnFill records fill →
    ReportedManual snapshot "fills" (fillEntry records.closeSources fill) →
      FillNamesManual records fill

/-- No stop of the executor's looks manual, and no record that does decides for its fills. -/
structure LooksOwn (records : OkxRecords) : Prop where
  stops : ∀ item ∈ records.closing, IsExecutorId (fieldText item "algoClOrdId") →
    ¬ImpliedManual item
  fills : ∀ fill ∈ records.fills, IsOwnFill records fill → ¬FillNamesManual records fill →
    ∀ item, closing? records.closing fill = some item → ¬ImpliedManual item

/-- The entries of a list are called manual only if a record names it, exactly when no stop of
the list looks manual. -/
theorem list_never_manual_iff {snapshot : Dict} {key : String} {items : List Dict}
    {entry : Dict → Dict} (hperm : (entriesOf snapshot key).Perm (items.map entry))
    (hentry : ∀ {item}, (entry item).get "closeSource" = .str "provider_manual" ↔
      inferCloseSource item = "provider_manual") :
    (∀ item ∈ items, IsOwn item → ReportedManual snapshot key (entry item) → NamesManual item) ↔
      ∀ item ∈ items, IsExecutorId (fieldText item "algoClOrdId") → ¬ImpliedManual item := by
  refine forall₂_congr fun item hitem => ?_
  have hmem : entry item ∈ entriesOf snapshot key :=
    hperm.mem_iff.mpr (List.mem_map_of_mem hitem)
  constructor
  · intro h hid himplied
    refine himplied.not_named (h (Or.inr hid) ⟨hmem, hentry.mpr ?_⟩)
    exact inferCloseSource_eq_manual.mpr (Or.inr himplied)
  · intro h hown hreported
    refine (named_or_implied (hentry.mp hreported.2)).resolve_right fun himplied => ?_
    exact h (himplied.stop_of_own hown) himplied

theorem fills_never_manual_iff {records : OkxRecords} {snapshot : Dict}
    (hlists : Lists records snapshot) :
    (∀ fill ∈ records.fills, IsOwnFill records fill →
      ReportedManual snapshot "fills" (fillEntry records.closeSources fill) →
        FillNamesManual records fill) ↔
    ∀ fill ∈ records.fills, IsOwnFill records fill → ¬FillNamesManual records fill →
      ∀ item, closing? records.closing fill = some item → ¬ImpliedManual item := by
  refine forall₃_congr fun fill hfill _ => ?_
  have hmem : fillEntry records.closeSources fill ∈ entriesOf snapshot "fills" :=
    hlists.fills.mem_iff.mpr (List.mem_map_of_mem hfill)
  have hsource : fillCloseSource fill records.closeSources = "provider_manual" ↔
      ∃ item, closing? records.closing fill = some item ∧
        inferCloseSource item = "provider_manual" := by
    rw [OkxRecords.closeSources, fillCloseSource_eq]
    cases closing? records.closing fill with
    | none => simp
    | some item => simp
  constructor
  · intro h hnamed item hitem himplied
    refine hnamed (h ⟨hmem, fillEntry_closeSource.mpr (hsource.mpr ⟨item, hitem, ?_⟩)⟩)
    exact inferCloseSource_eq_manual.mpr (Or.inr himplied)
  · intro h hreported
    obtain ⟨item, hitem, hmanual⟩ := hsource.mp (fillEntry_closeSource.mp hreported.2)
    by_contra hnamed
    refine (named_or_implied hmanual).elim (fun hitemNamed => hnamed ?_) (h hnamed item hitem)
    rcases closing?_eq_some hitem with rfl | ⟨hitemMem, key, hkey, href⟩
    · exact Or.inl hitemNamed
    · exact Or.inr ⟨item, hitemMem, hitemNamed, key, hkey, href⟩

theorem lists_of_capture {t : Transcript OkxRead Value PyError} {now : Instant}
    {records : OkxRecords} {snapshot : Dict} (hrecords : Run (captureRecords perform) t (.ok records))
    (hsnapshot : Run (captureSnapshot perform now) t (.ok snapshot)) : Lists records snapshot := by
  rw [← List.append_nil t] at hsnapshot
  exact lists_of_snapshotOf (run_ofExcept.mp ((run_bind_append hrecords).mp hsnapshot)).2.symm

/-- **A capture calls none of the executor's own orders manual exactly when** none of its stops
looks manual and no record that does decides for one of its fills. -/
theorem own_never_manual_iff {t : Transcript OkxRead Value PyError} {now : Instant}
    {records : OkxRecords} {snapshot : Dict} (hrecords : Run (captureRecords perform) t (.ok records))
    (hsnapshot : Run (captureSnapshot perform now) t (.ok snapshot)) :
    NeverManual records snapshot ↔ LooksOwn records := by
  have hlists := lists_of_capture hrecords hsnapshot
  have horders := list_never_manual_iff hlists.openOrders orderEntry_closeSource
  have hhistory := list_never_manual_iff hlists.orderHistory orderEntry_closeSource
  have halgo := list_never_manual_iff hlists.algoOrders algoOrderEntry_closeSource
  have hfills := fills_never_manual_iff hlists
  have hstops : (∀ item ∈ records.closing, IsExecutorId (fieldText item "algoClOrdId") →
      ¬ImpliedManual item) ↔
      (∀ item ∈ records.orders, IsExecutorId (fieldText item "algoClOrdId") →
        ¬ImpliedManual item) ∧
      (∀ item ∈ records.orderHistory, IsExecutorId (fieldText item "algoClOrdId") →
        ¬ImpliedManual item) ∧
      (∀ item ∈ records.algoOrders, IsExecutorId (fieldText item "algoClOrdId") →
        ¬ImpliedManual item) := by
    rw [OkxRecords.closing, List.forall_mem_append, List.forall_mem_append, and_assoc]
  constructor
  · rintro ⟨ho, hh, ha, hf⟩
    exact ⟨hstops.mpr ⟨horders.mp ho, hhistory.mp hh, halgo.mp ha⟩, hfills.mp hf⟩
  · rintro ⟨hs, hf⟩
    obtain ⟨ho, hh, ha⟩ := hstops.mp hs
    exact ⟨horders.mpr ho, hhistory.mpr hh, halgo.mpr ha, hfills.mpr hf⟩

/-- Deciding it record by record is enough. -/
theorem looksOwn_of_records {records : OkxRecords}
    (hstops : ∀ item ∈ records.closing, ¬ImpliedManual item)
    (hfills : ∀ fill ∈ records.fills, ∀ item ∈ closing? records.closing fill, ¬ImpliedManual item) :
    LooksOwn records where
  stops item hitem _ := hstops item hitem
  fills fill hfill _ _ item hitem := hfills fill hfill item hitem

end Manual

/-! ### One account -/

instance [Runtime] (item : Dict) : Decidable (ImpliedManual item) :=
  decidable_of_iff
    ((∀ key ∈ closeSourceKeys, namedCloseSource (normalizedToken (item.get key)) = none) ∧
      orderTypeCloseSource (normalizedToken (item.get "ordType")) = none ∧
      (boolText (item.get "reduceOnly")).isTrue = true ∧
      hasYtmPrefix (fieldText item "clOrdId") = false)
    ⟨fun h => ⟨h.1, h.2.1, h.2.2.1, h.2.2.2⟩,
      fun h => ⟨h.unnamed, h.orderType, h.reduceOnly, h.foreign⟩⟩

namespace Sample

@[reducible] def runtime : Runtime := asciiRuntime []

def okxReply (items : List Dict) : Value :=
  .dict [("code", "0"), ("data", .list (items.map .dict)), ("msg", "")]

def order : Dict :=
  [("clOrdId", okxClientOrderId "client-1"), ("instId", "BTC-USDT-SWAP"), ("ordId", "order-1"),
    ("ordType", "limit"), ("reduceOnly", "false"), ("side", "buy")]

/-- The stop that is placed when the attached one is not found. -/
def stop (actualSide : String) : Dict :=
  [("actualSide", actualSide),
    ("algoClOrdId", okxAttachedAlgoClientOrderId "client-1:order-1" "sr"), ("algoId", "algo-1"),
    ("clOrdId", ""), ("instId", "BTC-USDT-SWAP"), ("ordId", ""), ("ordType", "conditional"),
    ("reduceOnly", "true"), ("side", "sell"), ("slTriggerPx", "95")]

def fill : Dict :=
  [("billId", "fill-1"), ("clOrdId", okxClientOrderId "client-1"), ("fillTime", "1770000000000"),
    ("instId", "BTC-USDT-SWAP"), ("ordId", "order-1"), ("side", "buy")]

/-- An OKX account with one order, its fill and one stop. -/
def account (stop : Dict) : OkxRead → Except PyError Value
  | .getOrdersHistory _ _ => .ok (okxReply [order])
  | .getFillsHistory _ _ => .ok (okxReply [fill])
  | .orderAlgosList ordType _ _ => .ok (okxReply (if ordType = "conditional" then [stop] else []))
  | _ => .ok (okxReply [])

/-- A capture of the account whose records pass a check. -/
theorem exists_capture (world : OkxRead → Except PyError Value) (check : OkxRecords → Bool)
    (h : let _ : Runtime := runtime
      ((runIn world (captureRecords perform)).2.toOption.any check) = true) :
    ∃ t records snapshot, @Run OkxRead Value PyError _ (@captureRecords runtime _ perform) t
        (.ok records) ∧
      @Run OkxRead Value PyError _ (@captureSnapshot runtime _ perform 1778407200000000) t
        (.ok snapshot) ∧
      check records = true := by
  let _ : Runtime := runtime
  obtain ⟨records, hrecords, hcheck⟩ := exists_ok _ _ h
  have hrun := (run_runIn world (captureRecords perform)).1
  rw [hrecords] at hrun
  obtain ⟨snapshot, hsnapshot, _⟩ := exists_snapshot records 1778407200000000
  refine ⟨_, records, snapshot, hrun, ?_, hcheck⟩
  rw [← List.append_nil (runIn world (captureRecords perform)).1]
  exact (run_bind_append hrun).mpr (run_ofExcept.mpr ⟨rfl, hsnapshot.symm⟩)

end Sample

theorem own_never_manual_iff_sample : ∃ t records snapshot,
    @Run OkxRead Value PyError _ (@captureRecords Sample.runtime _ perform) t (.ok records) ∧
      @Run OkxRead Value PyError _ (@captureSnapshot Sample.runtime _ perform 1778407200000000) t
        (.ok snapshot) ∧
      @NeverManual Sample.runtime records snapshot := by
  let _ : Runtime := Sample.runtime
  obtain ⟨t, records, snapshot, hrecords, hsnapshot, hcheck⟩ := Sample.exists_capture
    (Sample.account (Sample.stop "sl")) (fun records =>
      records.closing.all (fun item => decide (¬ImpliedManual item)) &&
        records.fills.all fun fill =>
          (closing? records.closing fill).all fun item => decide (¬ImpliedManual item))
    (by decide +kernel)
  rw [Bool.and_eq_true, List.all_eq_true, List.all_eq_true] at hcheck
  refine ⟨t, records, snapshot, hrecords, hsnapshot,
    (own_never_manual_iff hrecords hsnapshot).mpr (looksOwn_of_records ?_ ?_)⟩
  · exact fun item hitem => of_decide_eq_true (hcheck.1 item hitem)
  · exact fun fill hfill item hitem =>
      of_decide_eq_true (Option.all_eq_true _ _ |>.mp (hcheck.2 fill hfill) item hitem)

/-- The executor's own stop is called manual before it has triggered, though no record says so. -/
theorem remediation_stop_called_manual : ∃ t records snapshot,
    @Run OkxRead Value PyError _ (@captureRecords Sample.runtime _ perform) t (.ok records) ∧
      @Run OkxRead Value PyError _ (@captureSnapshot Sample.runtime _ perform 1778407200000000) t
        (.ok snapshot) ∧
      (∀ item ∈ records.closing ++ records.fills, ¬@NamesManual Sample.runtime item) ∧
      ¬@NeverManual Sample.runtime records snapshot := by
  let _ : Runtime := Sample.runtime
  obtain ⟨t, records, snapshot, hrecords, hsnapshot, hcheck⟩ := Sample.exists_capture
    (Sample.account (Sample.stop "")) (fun records =>
      (records.closing ++ records.fills).all (fun item => closeSourceKeys.all fun key =>
        decide (namedCloseSource (normalizedToken (item.get key)) ≠ some "provider_manual")) &&
      records.closing.any fun item => decide (fieldText item "algoClOrdId" =
        okxAttachedAlgoClientOrderId "client-1:order-1" "sr" ∧ ImpliedManual item))
    (by decide +kernel)
  rw [Bool.and_eq_true, List.all_eq_true, List.any_eq_true] at hcheck
  obtain ⟨hnames, item, hitem, hstop⟩ := hcheck
  obtain ⟨hid, himplied⟩ := of_decide_eq_true hstop
  refine ⟨t, records, snapshot, hrecords, hsnapshot, ?_, fun h => ?_⟩
  · rintro record hrecord ⟨key, hkey, hnamed⟩
    exact of_decide_eq_true (List.all_eq_true.mp (hnames record hrecord) key hkey) hnamed
  · have hown : IsExecutorId (fieldText item "algoClOrdId") :=
      Or.inr ⟨"client-1:order-1", "sr", by simp, hid⟩
    exact ((own_never_manual_iff hrecords hsnapshot).mp h).stops item hitem hown himplied

end Reconciliation

end YtmExecutor
