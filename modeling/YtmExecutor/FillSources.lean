/-
Whether a fill and its order are said to close for the same reason.

An order is labelled by its own fields, a fill that has none of them by a map from ids to
close sources.  Orders and algo orders write into that map, and later ones over earlier
ones; so the stop that an order came from can relabel the fill and not the order
(`one_close_source_iff`).  The map does not keep kinds of ids apart either: the client id
of one order may be the order id of another, and the fill of the latter then takes over
what the former says (`fills_from_own_order_iff`).
-/
import Mathlib.Data.List.Find
import YtmExecutor.CloseSources

namespace YtmExecutor

open Python Interaction Prog

namespace Reconciliation

section FillSources

variable [Runtime]

/-! ### What the entries say -/

theorem orderEntry_providerOrderId {item : Dict} {id : String} :
    (orderEntry item).get "providerOrderId" = .str id ↔ id ≠ "" ∧ fieldText item "ordId" = id := by
  rw [orderEntry, get_compact_eq_str_iff (by simp) rfl, Value.str.injEq]

theorem fillEntry_providerOrderId {closeSources : List (String × String)} {item : Dict}
    {id : String} :
    (fillEntry closeSources item).get "providerOrderId" = .str id ↔
      id ≠ "" ∧ fieldText item "ordId" = id := by
  rw [fillEntry, get_compact_eq_str_iff (by simp) rfl, Value.str.injEq]

/-! ### The last record of an id -/

theorem lastBy_eq_some {keys : List String} {items : List Dict} {id : String} {item : Dict}
    (h : lastBy keys items id = some item) :
    item ∈ items ∧ inferCloseSource item ≠ "" ∧ id ≠ "" ∧ ∃ key ∈ keys, fieldText item key = id := by
  rw [lastBy] at h
  have hsat := List.find?_some h
  exact ⟨List.mem_reverse.mp (List.mem_of_find?_eq_some h), of_decide_eq_true hsat⟩

theorem exists_lastBy {keys : List String} {items : List Dict} {item : Dict} (key : String)
    (hitem : item ∈ items) (hsource : inferCloseSource item ≠ "") (hkey : key ∈ keys)
    (hid : fieldText item key ≠ "") : ∃ last, lastBy keys items (fieldText item key) = some last := by
  rw [← Option.isSome_iff_exists, lastBy, List.find?_isSome]
  exact ⟨item, List.mem_reverse.mpr hitem, decide_eq_true ⟨hsource, hid, key, hkey, rfl⟩⟩

omit [Runtime] in
theorem ordId_mem_refKeys : "ordId" ∈ refKeys := by simp [refKeys]

/-- A fill that says nothing itself has what the last record of its order id says. -/
theorem fillCloseSource_of_lastWithRef {items : List Dict} {fill item : Dict}
    (hfill : inferCloseSource fill = "")
    (h : lastWithRef items (fieldText fill "ordId") = some item) :
    fillCloseSource fill (closeSourcesByOrderRef items) = inferCloseSource item := by
  have hclosing : closing? items fill = some item := by
    rw [closing?, if_neg (not_not.mpr hfill), fillRefKeys, List.findSome?_cons, h]
  rw [fillCloseSource_eq, hclosing, Option.map_some, Option.getD_some]

/-! ### One order, one close source -/

/-- A fill and an order of the snapshot with one order id have one close source. -/
def OneCloseSource (snapshot : Dict) : Prop :=
  ∀ fill ∈ entriesOf snapshot "fills",
    ∀ order ∈ entriesOf snapshot "openOrders" ++ entriesOf snapshot "orderHistory",
      ∀ id, fill.get "providerOrderId" = .str id → order.get "providerOrderId" = .str id →
        ∀ fillSource orderSource, fill.get "closeSource" = .str fillSource →
          order.get "closeSource" = .str orderSource → fillSource = orderSource

/-- The fill says what the order says; if it says nothing, the last record that has the order's
id and says something does. -/
structure SameSource (records : OkxRecords) (order fill : Dict) : Prop where
  named : inferCloseSource fill ≠ "" → inferCloseSource fill = inferCloseSource order
  last : inferCloseSource fill = "" →
    ∀ item, lastWithRef records.closing (fieldText order "ordId") = some item →
      inferCloseSource item = inferCloseSource order

/-- Every order that says something is not contradicted by what decides for its fills. -/
def SourcesAgree (records : OkxRecords) : Prop :=
  ∀ order ∈ records.orders ++ records.orderHistory, inferCloseSource order ≠ "" →
    ∀ fill ∈ records.fills, fieldText order "ordId" ≠ "" →
      fieldText fill "ordId" = fieldText order "ordId" → SameSource records order fill

/-- The fill of an order that says something has a source: its own, or that of the last record
of the order id. -/
theorem fillCloseSource_of_order {items : List Dict} {order fill : Dict} (horder : order ∈ items)
    (hsource : inferCloseSource order ≠ "") (hid : fieldText order "ordId" ≠ "")
    (hsame : fieldText fill "ordId" = fieldText order "ordId") :
    inferCloseSource fill ≠ "" ∧
        fillCloseSource fill (closeSourcesByOrderRef items) = inferCloseSource fill ∨
      inferCloseSource fill = "" ∧ ∃ item, lastWithRef items (fieldText order "ordId") = some item ∧
        fillCloseSource fill (closeSourcesByOrderRef items) = inferCloseSource item := by
  by_cases hnamed : inferCloseSource fill = ""
  · obtain ⟨item, hitem⟩ := exists_lastBy "ordId" horder hsource ordId_mem_refKeys hid
    refine Or.inr ⟨hnamed, item, hitem, fillCloseSource_of_lastWithRef hnamed ?_⟩
    rw [hsame]
    exact hitem
  · refine Or.inl ⟨hnamed, ?_⟩
    rw [fillCloseSource, if_pos hnamed]

theorem sameSource_iff {records : OkxRecords} {order fill : Dict}
    (horder : order ∈ records.closing) (hsource : inferCloseSource order ≠ "")
    (hid : fieldText order "ordId" ≠ "") (hsame : fieldText fill "ordId" = fieldText order "ordId") :
    SameSource records order fill ↔
      fillCloseSource fill records.closeSources = inferCloseSource order := by
  rw [OkxRecords.closeSources]
  rcases fillCloseSource_of_order horder hsource hid hsame with
    ⟨hnamed, hown⟩ | ⟨hnamed, item, hitem, hlast⟩
  · rw [hown]
    exact ⟨fun h => h.named hnamed, fun h => ⟨fun _ => h, fun hempty => absurd hempty hnamed⟩⟩
  · rw [hlast]
    constructor
    · intro h
      exact h.last hnamed item hitem
    · intro h
      refine ⟨fun hne => absurd hnamed hne, fun _ other hother => ?_⟩
      rw [hitem] at hother
      cases hother
      exact h

theorem oneCloseSource_iff {records : OkxRecords} {snapshot : Dict}
    (hlists : Lists records snapshot) : OneCloseSource snapshot ↔ SourcesAgree records := by
  have horders : (entriesOf snapshot "openOrders" ++ entriesOf snapshot "orderHistory").Perm
      ((records.orders ++ records.orderHistory).map orderEntry) := by
    rw [List.map_append]
    exact hlists.openOrders.append hlists.orderHistory
  have hclosing : ∀ order ∈ records.orders ++ records.orderHistory, order ∈ records.closing :=
    fun order horder => List.mem_append_left _ horder
  constructor
  · intro h order horder hsource fill hfill hid hsame
    rw [sameSource_iff (hclosing order horder) hsource hid hsame]
    have hblank : fillCloseSource fill records.closeSources ≠ "" := by
      rw [OkxRecords.closeSources]
      rcases fillCloseSource_of_order (hclosing order horder) hsource hid hsame with
        ⟨hnamed, hown⟩ | ⟨_, item, hitem, hlast⟩
      · rwa [hown]
      · rw [hlast]
        exact (lastBy_eq_some hitem).2.1
    exact h _ (hlists.fills.mem_iff.mpr (List.mem_map_of_mem hfill)) _
      (horders.mem_iff.mpr (List.mem_map_of_mem horder)) _
      (fillEntry_providerOrderId.mpr ⟨hid, hsame⟩) (orderEntry_providerOrderId.mpr ⟨hid, rfl⟩) _ _
      (fillEntry_closeSource_iff.mpr ⟨hblank, rfl⟩)
      (orderEntry_closeSource_iff.mpr ⟨hsource, rfl⟩)
  · intro h fillE hfillE orderE horderE id hfillId horderId fillSource orderSource hfs hos
    obtain ⟨fill, hfill, rfl⟩ := List.mem_map.mp (hlists.fills.mem_iff.mp hfillE)
    obtain ⟨order, horder, rfl⟩ := List.mem_map.mp (horders.mem_iff.mp horderE)
    obtain ⟨hid, hfillId⟩ := fillEntry_providerOrderId.mp hfillId
    obtain ⟨_, horderId⟩ := orderEntry_providerOrderId.mp horderId
    obtain ⟨_, hfs⟩ := fillEntry_closeSource_iff.mp hfs
    obtain ⟨hsource, hos⟩ := orderEntry_closeSource_iff.mp hos
    subst horderId hos
    rw [← hfs]
    exact (sameSource_iff (hclosing order horder) hsource hid hfillId).mp
      (h order horder hsource fill hfill hid hfillId)

/-- **A snapshot gives an order and its fills one close source exactly when** what decides for
each fill agrees with the order. -/
theorem one_close_source_iff {t : Transcript OkxRead Value PyError} {now : Instant}
    {records : OkxRecords} {snapshot : Dict} (hrecords : Run (captureRecords perform) t (.ok records))
    (hsnapshot : Run (captureSnapshot perform now) t (.ok snapshot)) :
    OneCloseSource snapshot ↔ SourcesAgree records :=
  oneCloseSource_iff (lists_of_capture hrecords hsnapshot)

/-! ### One map for all kinds of ids -/

/-- The first of the fill's ids that something is found for, and what that is. -/
def FoundFirst {β : Type} (find : String → Option β) (fill : Dict) (key : String) (b : β) : Prop :=
  ∃ before after, fillRefKeys = before ++ key :: after ∧ find (fieldText fill key) = some b ∧
    ∀ k ∈ before, find (fieldText fill k) = none

theorem findSome?_fillRefKeys {β : Type} {find : String → Option β} {fill : Dict} {b : β} :
    (fillRefKeys.findSome? fun key => find (fieldText fill key)) = some b ↔
      ∃ key, FoundFirst find fill key b := by
  rw [List.findSome?_eq_some_iff]
  constructor
  · rintro ⟨before, key, after, hkeys, hfound, hnone⟩
    exact ⟨key, before, after, hkeys, hfound, hnone⟩
  · rintro ⟨key, before, after, hkeys, hfound, hnone⟩
    exact ⟨before, key, after, hkeys, hfound, hnone⟩

theorem FoundFirst.key_mem {β : Type} {find : String → Option β} {fill : Dict} {key : String}
    {b : β} (h : FoundFirst find fill key b) : key ∈ fillRefKeys := by
  obtain ⟨before, after, hkeys, _⟩ := h
  rw [hkeys]
  exact List.mem_append_right _ List.mem_cons_self

/-- A source is found for the id that a record is found for. -/
theorem foundFirst_closeSources {items : List Dict} {fill : Dict} {key source : String} :
    FoundFirst (fun id => (closeSourcesByOrderRef items).lookup id) fill key source ↔
      ∃ item, FoundFirst (lastWithRef items) fill key item ∧ inferCloseSource item = source := by
  simp only [FoundFirst, lookup_closeSources, Option.map_eq_some_iff, Option.map_eq_none_iff]
  constructor
  · rintro ⟨before, after, hkeys, ⟨item, hfound, hsource⟩, hnone⟩
    exact ⟨item, ⟨before, after, hkeys, hfound, hnone⟩, hsource⟩
  · rintro ⟨item, ⟨before, after, hkeys, hfound, hnone⟩, hsource⟩
    exact ⟨before, after, hkeys, ⟨item, hfound, hsource⟩, hnone⟩

/-- The record and the fill have one id of this kind. -/
def SameId (key : String) (item fill : Dict) : Prop :=
  fieldText fill key ≠ "" ∧ fieldText item key = fieldText fill key

/-- What a fill takes over it takes over from a record with the same id of the same kind. -/
structure FromOwnOrder (items : List Dict) (fill : Dict) : Prop where
  carried : ∀ source,
    (fillEntry (closeSourcesByOrderRef items) fill).get "closeSource" = .str source →
      ∃ item ∈ items, inferCloseSource item = source ∧ ∃ key ∈ refKeys, SameId key item fill
  kindsApart : ∀ key source,
    FoundFirst (fun id => (closeSourcesByOrderRef items).lookup id) fill key source →
      (closeSourcesBy [key] items).lookup (fieldText fill key) = some source
  blank : (closeSourcesByOrderRef items).lookup "" = none

/-- The last record that has the id, as whatever kind, says what the last one says that has it as
an id of this kind. -/
def KindDecides (items : List Dict) (fill : Dict) : Prop :=
  ∀ key item, FoundFirst (lastWithRef items) fill key item →
    ∃ own, lastBy [key] items (fieldText fill key) = some own ∧
      inferCloseSource own = inferCloseSource item

theorem lookup_closeSources_blank (items : List Dict) :
    (closeSourcesByOrderRef items).lookup "" = none := by
  rw [lookup_closeSources, Option.map_eq_none_iff, Option.eq_none_iff_forall_not_mem]
  intro item hitem
  exact (lastBy_eq_some hitem).2.2.1 rfl

/-- The source of a fill that says nothing itself is the one found first. -/
theorem foundFirst_of_fillCloseSource {closeSources : List (String × String)} {fill : Dict}
    (hfill : inferCloseSource fill = "") (h : fillCloseSource fill closeSources ≠ "") :
    ∃ key, FoundFirst (fun id => closeSources.lookup id) fill key
      (fillCloseSource fill closeSources) := by
  rw [← findSome?_fillRefKeys]
  rw [fillCloseSource, if_neg (not_not.mpr hfill)] at h ⊢
  cases hfound : fillRefKeys.findSome? fun key => closeSources.lookup (fieldText fill key) with
  | none =>
      rw [hfound] at h
      exact absurd rfl h
  | some source => rfl

omit [Runtime] in
theorem mem_refKeys_of_mem_fillRefKeys {key : String} (h : key ∈ fillRefKeys) : key ∈ refKeys := by
  simp only [fillRefKeys, refKeys, List.mem_cons] at h ⊢
  tauto

theorem fromOwnOrder_iff {items : List Dict} {fill : Dict} (hfill : inferCloseSource fill = "") :
    FromOwnOrder items fill ↔ KindDecides items fill := by
  constructor
  · intro h key item hitem
    have hown := h.kindsApart key _ (foundFirst_closeSources.mpr ⟨item, hitem, rfl⟩)
    rw [lookup_closeSourcesBy] at hown
    exact Option.map_eq_some_iff.mp hown
  · intro h
    refine ⟨?_, ?_, lookup_closeSources_blank items⟩
    · intro source hsource
      obtain ⟨hne, hlabel⟩ := fillEntry_closeSource_iff.mp hsource
      subst hlabel
      obtain ⟨key, hfound⟩ := foundFirst_of_fillCloseSource hfill hne
      obtain ⟨item, hitem, hinfer⟩ := foundFirst_closeSources.mp hfound
      obtain ⟨own, hown, hsame⟩ := h key item hitem
      obtain ⟨hmem, _, hid, k, hk, hfield⟩ := lastBy_eq_some hown
      cases List.mem_singleton.mp hk
      exact ⟨own, hmem, hsame.trans hinfer, key, mem_refKeys_of_mem_fillRefKeys hfound.key_mem,
        hid, hfield⟩
    · intro key source hfound
      obtain ⟨item, hitem, hinfer⟩ := foundFirst_closeSources.mp hfound
      rw [lookup_closeSourcesBy, Option.map_eq_some_iff]
      obtain ⟨own, hown, hsame⟩ := h key item hitem
      exact ⟨own, hown, hsame.trans hinfer⟩

/-- **Every fill takes its close source over from its own order exactly when** its first known id
means the same with and without the ids of other kinds. -/
theorem fills_from_own_order_iff (orders orderHistory algoOrders fills : List Dict) :
    (∀ fill ∈ fills, inferCloseSource fill = "" →
      FromOwnOrder (orders ++ orderHistory ++ algoOrders) fill) ↔
    ∀ fill ∈ fills, inferCloseSource fill = "" →
      KindDecides (orders ++ orderHistory ++ algoOrders) fill :=
  forall₃_congr fun _ _ hfill => fromOwnOrder_iff hfill

/-- Ids that are never ids of another kind are enough. -/
theorem kindDecides_of_apart {items : List Dict} {fill : Dict}
    (h : ∀ item ∈ items, ∀ key ∈ fillRefKeys, ∀ other ∈ refKeys, fieldText fill key ≠ "" →
      fieldText item other = fieldText fill key → fieldText item key = fieldText fill key) :
    KindDecides items fill := by
  intro key item hfound
  have hkey := hfound.key_mem
  obtain ⟨_, _, _, hlast, _⟩ := hfound
  refine ⟨item, ?_, rfl⟩
  have hkinds : lastBy [key] items (fieldText fill key) =
      lastBy refKeys items (fieldText fill key) := by
    refine List.find?_congr fun other hother => decide_eq_decide.mpr ?_
    refine and_congr_right fun _ => and_congr_right fun hid => ?_
    constructor
    · rintro ⟨k, hk, hfield⟩
      cases List.mem_singleton.mp hk
      exact ⟨key, mem_refKeys_of_mem_fillRefKeys hkey, hfield⟩
    · rintro ⟨k, hk, hfield⟩
      exact ⟨key, List.mem_singleton_self key,
        h other (List.mem_reverse.mp hother) key hkey k hk hid hfield⟩
  rw [hkinds]
  exact hlast

end FillSources

/-! ### Two accounts -/

instance [Runtime] (records : OkxRecords) (order fill : Dict) :
    Decidable (SameSource records order fill) :=
  decidable_of_iff
    ((inferCloseSource fill ≠ "" → inferCloseSource fill = inferCloseSource order) ∧
      (inferCloseSource fill = "" →
        ∀ item ∈ lastWithRef records.closing (fieldText order "ordId"),
          inferCloseSource item = inferCloseSource order))
    ⟨fun h => ⟨h.1, h.2⟩, fun h => ⟨h.named, h.last⟩⟩

namespace Sample

/-- The order that a triggered stop has placed. -/
def triggeredOrder (actualSide : String) : Dict :=
  [("actualSide", actualSide), ("algoId", "algo-1"), ("clOrdId", ""), ("instId", "BTC-USDT-SWAP"),
    ("ordId", "order-2"), ("ordType", "market"), ("reduceOnly", "true"), ("side", "sell")]

def triggeredStop : Dict :=
  [("actualSide", "sl"), ("algoClOrdId", "stop-1"), ("algoId", "algo-1"),
    ("instId", "BTC-USDT-SWAP"), ("ordId", "order-2"), ("ordType", "conditional"),
    ("side", "sell"), ("state", "effective")]

def triggeredFill : Dict :=
  [("billId", "fill-2"), ("clOrdId", ""), ("fillTime", "1770000001000"),
    ("instId", "BTC-USDT-SWAP"), ("ordId", "order-2"), ("side", "sell")]

/-- An OKX account whose stop has triggered. -/
def stoppedAccount (actualSide : String) : OkxRead → Except PyError Value
  | .getOrdersHistory _ _ => .ok (okxReply [triggeredOrder actualSide])
  | .getFillsHistory _ _ => .ok (okxReply [triggeredFill])
  | .orderAlgosHistory ordType _ _ =>
      .ok (okxReply (if ordType = "conditional" then [triggeredStop] else []))
  | _ => .ok (okxReply [])

/-- An order placed by hand, under the order id of the one it closes. -/
def closingOrder : Dict :=
  [("clOrdId", "order-1"), ("instId", "BTC-USDT-SWAP"), ("ordId", "order-3"),
    ("ordType", "market"), ("reduceOnly", "true"), ("side", "sell")]

end Sample

theorem one_close_source_iff_sample : ∃ t records snapshot,
    @Run OkxRead Value PyError _ (@captureRecords Sample.runtime _ perform) t (.ok records) ∧
      @Run OkxRead Value PyError _ (@captureSnapshot Sample.runtime _ perform 1778407200000000) t
        (.ok snapshot) ∧
      OneCloseSource snapshot := by
  let _ : Runtime := Sample.runtime
  obtain ⟨t, records, snapshot, hrecords, hsnapshot, hcheck⟩ := Sample.exists_capture
    (Sample.stoppedAccount "sl") (fun records =>
      (records.orders ++ records.orderHistory).all fun order =>
        records.fills.all fun fill => decide (SameSource records order fill))
    (by decide +kernel)
  refine ⟨t, records, snapshot, hrecords, hsnapshot,
    (one_close_source_iff hrecords hsnapshot).mpr ?_⟩
  intro order horder _ fill hfill _ _
  exact of_decide_eq_true (List.all_eq_true.mp (List.all_eq_true.mp hcheck order horder) fill hfill)

/-- The order of a triggered stop is called manual, and its fill a stop loss. -/
theorem triggered_stop_two_sources : ∃ t records snapshot,
    @Run OkxRead Value PyError _ (@captureRecords Sample.runtime _ perform) t (.ok records) ∧
      @Run OkxRead Value PyError _ (@captureSnapshot Sample.runtime _ perform 1778407200000000) t
        (.ok snapshot) ∧
      ¬OneCloseSource snapshot := by
  let _ : Runtime := Sample.runtime
  obtain ⟨t, records, snapshot, hrecords, hsnapshot, hcheck⟩ := Sample.exists_capture
    (Sample.stoppedAccount "") (fun records =>
      (records.orders ++ records.orderHistory).any fun order =>
        records.fills.any fun fill => decide (inferCloseSource order ≠ "" ∧
          fieldText order "ordId" ≠ "" ∧ fieldText fill "ordId" = fieldText order "ordId" ∧
          ¬SameSource records order fill))
    (by decide +kernel)
  obtain ⟨order, horder, hcheck⟩ := List.any_eq_true.mp hcheck
  obtain ⟨fill, hfill, hcheck⟩ := List.any_eq_true.mp hcheck
  obtain ⟨hsource, hid, hsame, hnot⟩ := of_decide_eq_true hcheck
  refine ⟨t, records, snapshot, hrecords, hsnapshot, fun h => hnot ?_⟩
  exact (oneCloseSource_iff (lists_of_capture hrecords hsnapshot)).mp h order horder hsource fill
    hfill hid hsame

/-- The fill of an opening order is called a manual close, though no manual order has one of its
ids in the same field. -/
theorem opening_fill_called_manual : let _ : Runtime := Sample.runtime
    inferCloseSource Sample.fill = "" ∧
      (fillEntry (closeSourcesByOrderRef [Sample.order, Sample.closingOrder]) Sample.fill).get
        "closeSource" = .str "provider_manual" ∧
      ∀ item ∈ [Sample.order, Sample.closingOrder], inferCloseSource item = "provider_manual" →
        ∀ key ∈ refKeys, ¬SameId key item Sample.fill := by
  let _ : Runtime := Sample.runtime
  refine ⟨by decide +kernel, fillEntry_closeSource_iff.mpr (by decide +kernel), ?_⟩
  have hfields : ∀ item ∈ [Sample.order, Sample.closingOrder],
      inferCloseSource item = "provider_manual" → ∀ key ∈ refKeys,
        ¬(fieldText Sample.fill key ≠ "" ∧ fieldText item key = fieldText Sample.fill key) := by
    decide +kernel
  exact hfields

end Reconciliation

end YtmExecutor
