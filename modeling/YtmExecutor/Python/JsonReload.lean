/-
Values that are written as JSON and read again.

Whatever is read is JSON, each key a text that is there once (`isJson_loads`), and what
stands under a key of a dict is what was written of it (`fieldsOf_dumps`).  Floats keep
their texts on both ways.
-/
import YtmExecutor.Python.Fields
import YtmExecutor.Python.JsonRoundTrip

namespace Python

/-! ### What is read is JSON -/

theorem entriesAreJson_iff {entries : Dict} :
    EntriesAreJson entries ↔ ∀ entry ∈ entries, entry.1.text?.isSome ∧ IsJson entry.2 := by
  induction entries with
  | nil => simp [EntriesAreJson]
  | cons entry rest ih =>
      obtain ⟨key, v⟩ := entry
      simp [EntriesAreJson, ih, and_assoc]

namespace Dict

theorem mem_set {d : Dict} {key : Key} {v : Value} {entry : Key × Value}
    (h : entry ∈ d.set key v) : entry ∈ d ∨ entry = (key, v) := by
  induction d with
  | nil => exact Or.inr (List.mem_singleton.mp h)
  | cons first rest ih =>
      obtain ⟨k, w⟩ := first
      rw [Dict.set] at h
      split at h
      · rcases List.mem_cons.mp h with rfl | h
        · exact Or.inr rfl
        · exact Or.inl (List.mem_cons_of_mem _ h)
      · rcases List.mem_cons.mp h with rfl | h
        · exact Or.inl List.mem_cons_self
        · exact (ih h).imp (List.mem_cons_of_mem _) id

theorem keys_set_nodup {d : Dict} {key : Key} {v : Value} (h : (d.map Prod.fst).Nodup) :
    ((d.set key v).map Prod.fst).Nodup := by
  induction d with
  | nil => exact List.nodup_singleton key
  | cons first rest ih =>
      obtain ⟨k, w⟩ := first
      rw [List.map_cons, List.nodup_cons] at h
      rw [Dict.set]
      by_cases hk : k = key
      · rw [if_pos hk, ← hk, List.map_cons, List.nodup_cons]
        exact h
      · rw [if_neg hk, List.map_cons, List.nodup_cons]
        refine ⟨fun hmem => ?_, ih h.2⟩
        obtain ⟨entry, hentry, hkey⟩ := List.mem_map.mp hmem
        rcases mem_set hentry with hrest | rfl
        · exact h.1 (List.mem_map.mpr ⟨entry, hrest, hkey⟩)
        · exact hk hkey.symm

theorem get?_eq_none {d : Dict} {key : String} : get? d key = none ↔ .str key ∉ d.map Prod.fst := by
  induction d with
  | nil => simp [get?]
  | cons entry rest ih =>
      obtain ⟨k, v⟩ := entry
      rw [get?, List.map_cons, List.mem_cons, not_or]
      by_cases hk : k = .str key
      · rw [if_pos hk]
        exact iff_of_false (by simp) fun h => h.1 hk.symm
      · rw [if_neg hk, ih]
        exact ⟨fun h => ⟨Ne.symm hk, h⟩, fun h => h.2⟩

/-- An update brings in nothing but its entries, and no key twice. -/
theorem update_nodup {d : Dict} (e : Dict) (h : (d.map Prod.fst).Nodup) :
    ((Dict.update d e).map Prod.fst).Nodup ∧
      ∀ entry ∈ Dict.update d e, entry ∈ d ∨ entry ∈ e := by
  induction e generalizing d with
  | nil => exact ⟨h, fun entry hentry => Or.inl hentry⟩
  | cons first rest ih =>
      obtain ⟨hnodup, hmem⟩ := ih (d := d.set first.1 first.2) (keys_set_nodup h)
      refine ⟨hnodup, fun entry hentry => ?_⟩
      rcases hmem entry hentry with hset | hrest
      · rcases mem_set hset with hd | rfl
        · exact Or.inl hd
        · exact Or.inr List.mem_cons_self
      · exact Or.inr (List.mem_cons_of_mem _ hrest)

end Dict

mutual

/-- **What is read is JSON**, whatever keys the text has. -/
theorem isJson_loads : ∀ j : Json, IsJson (loads j)
  | .null | .bool _ | .int _ | .float _ | .str _ => trivial
  | .array items => by
      rw [loads]
      exact itemsAreJson_loadItems items
  | .object fields => by
      obtain ⟨hnodup, hmem⟩ := Dict.update_nodup (d := []) (loadFields fields) List.nodup_nil
      rw [loads]
      refine ⟨hnodup, entriesAreJson_iff.mpr fun entry hentry => ?_⟩
      rcases hmem entry hentry with hnone | hentry
      · cases hnone
      · exact isJson_of_mem_loadFields fields entry hentry

theorem itemsAreJson_loadItems : ∀ items : List Json, ItemsAreJson (loadItems items)
  | [] => trivial
  | j :: rest => ⟨isJson_loads j, itemsAreJson_loadItems rest⟩

theorem isJson_of_mem_loadFields : ∀ (fields : List (String × Json)) (entry : Key × Value),
    entry ∈ loadFields fields → entry.1.text?.isSome ∧ IsJson entry.2
  | [], _, h => by cases h
  | (key, j) :: rest, entry, h => by
      rw [loadFields] at h
      rcases List.mem_cons.mp h with rfl | h
      · exact ⟨rfl, isJson_loads j⟩
      · exact isJson_of_mem_loadFields rest entry h

end

theorem IsJson.of_get? {entries : Dict} (h : IsJson (.dict entries)) {key : String} {v : Value}
    (hv : Dict.get? entries key = some v) : IsJson v := by
  have hentries := entriesAreJson_iff.mp h.2
  clear h
  induction entries with
  | nil => cases hv
  | cons entry rest ih =>
      rw [List.forall_mem_cons] at hentries
      rw [Dict.get?] at hv
      split at hv
      · cases hv
        exact hentries.1.2
      · exact ih hv hentries.2

/-! ### What is written under a key -/

/-- The fields are what is written of the entries, in some order. -/
structure FieldsOf (entries : Dict) (fields : List (String × Json)) : Prop where
  nodup : (fields.map Prod.fst).Nodup
  absent : ∀ key, Dict.get? entries key = none → fields.lookup key = none
  present : ∀ key v, Dict.get? entries key = some v →
    ∃ j, fields.lookup key = some j ∧ dumps v = .ok j

theorem FieldsOf.perm {entries : Dict} {fields fields' : List (String × Json)}
    (h : FieldsOf entries fields) (hperm : fields'.Perm fields) : FieldsOf entries fields' where
  nodup := (hperm.map Prod.fst).nodup_iff.mpr h.nodup
  absent key hkey := by rw [lookup_perm h.nodup hperm, h.absent key hkey]
  present key v hv := by rw [lookup_perm h.nodup hperm]; exact h.present key v hv

theorem FieldsOf.get_cases {entries : Dict} {fields : List (String × Json)}
    (h : FieldsOf entries fields) (key : String) :
    (Dict.get entries key = .none ∧ fields.lookup key = none) ∨
      ∃ j, dumps (Dict.get entries key) = .ok j ∧ fields.lookup key = some j := by
  cases hv : Dict.get? entries key with
  | none => exact Or.inl ⟨by rw [Dict.get, hv]; rfl, h.absent key hv⟩
  | some v =>
      obtain ⟨j, hj, hd⟩ := h.present key v hv
      exact Or.inr ⟨j, by rw [Dict.get, hv]; exact hd, hj⟩

theorem fieldsOf_dumpEntries : ∀ {entries : Dict}, IsJson (.dict entries) →
    ∃ fields, dumpEntries entries = .ok (fields.map fun field => (.str field.1, field.2)) ∧
      entries.map Prod.fst = fields.map (fun field => Key.str field.1) ∧ FieldsOf entries fields
  | [], _ => ⟨[], rfl, rfl, List.nodup_nil, fun _ _ => rfl, fun _ _ h => by cases h⟩
  | (key, v) :: rest, h => by
      obtain ⟨hnodup, hkey, hv, hrest⟩ := h
      rw [List.map_cons, List.nodup_cons] at hnodup
      obtain ⟨j, hj, _⟩ := exists_dumps hv
      obtain ⟨fields, hfields, hkeys, hof⟩ := fieldsOf_dumpEntries ⟨hnodup.2, hrest⟩
      cases key with
      | str s =>
          refine ⟨(s, j) :: fields, ?_, ?_, ?_, ?_, ?_⟩
          · rw [dumpEntries, hj, hfields]
            rfl
          · rw [List.map_cons, hkeys]
            rfl
          · rw [List.map_cons, List.nodup_cons]
            refine ⟨fun hmem => hnodup.1 ?_, hof.nodup⟩
            obtain ⟨field, hfield, hs⟩ := List.mem_map.mp hmem
            rw [hkeys]
            exact List.mem_map.mpr ⟨field, hfield, congrArg Key.str hs⟩
          · intro other hother
            rw [Dict.get?] at hother
            split_ifs at hother with hs
            rw [lookup_cons, if_neg fun heq => hs (congrArg Key.str heq.symm), hof.absent other hother]
          · intro other w hw
            rw [Dict.get?] at hw
            rw [lookup_cons]
            split_ifs at hw with hs
            · cases hw
              rw [if_pos (Key.str.inj hs).symm]
              exact ⟨j, rfl, hj⟩
            · rw [if_neg fun heq => hs (congrArg Key.str heq.symm)]
              exact hof.present other w hw
      | int | float | bool | none => cases hkey

/-- **Under each key of what is written stands what is written of its value.** -/
theorem fieldsOf_dumps {entries : Dict} (hjson : IsJson (.dict entries)) {j : Json}
    (h : dumps (.dict entries) = .ok j) : ∃ fields, j = .object fields ∧ FieldsOf entries fields := by
  obtain ⟨fields, hfields, _, hof⟩ := fieldsOf_dumpEntries hjson
  rw [dumps, hfields] at h
  obtain ⟨dumped, hdumped, h⟩ := bind_eq_ok.mp h
  cases hdumped
  obtain ⟨sorted, hsorted, h⟩ := bind_eq_ok.mp h
  cases h
  rw [sortFields_text] at hsorted
  cases hsorted
  exact ⟨_, rfl, hof.perm (List.perm_insertionSort _ _)⟩

theorem exists_object_of_dumps {entries : Dict} {j : Json} (h : dumps (.dict entries) = .ok j) :
    ∃ fields, j = .object fields := by
  rw [dumps] at h
  obtain ⟨_, _, h⟩ := bind_eq_ok.mp h
  obtain ⟨fields, _, h⟩ := bind_eq_ok.mp h
  cases h
  exact ⟨fields, rfl⟩

/-- Nothing but a dict is written as an object, and nothing but a text as a string. -/
theorem dict_or_str_of_dumps {v : Value} {j : Json} (h : dumps v = .ok j) :
    ((∃ fields, j = .object fields) → ∃ entries, v = .dict entries) ∧
      ∀ s, j = .str s → v = .str s := by
  cases v with
  | dict entries =>
      obtain ⟨fields, rfl⟩ := exists_object_of_dumps h
      exact ⟨fun _ => ⟨entries, rfl⟩, fun s hs => by cases hs⟩
  | none | bool | int | float | str =>
      cases h
      simp
  | list items | tuple items =>
      rw [dumps] at h
      cases hitems : dumpItems items with
      | error e =>
          rw [hitems] at h
          cases h
      | ok js =>
          rw [hitems] at h
          cases h
          simp

theorem isSorted_dumps {v : Value} (hjson : IsJson v) {j : Json} (h : dumps v = .ok j) :
    j.IsSorted := by
  obtain ⟨j', hj', hsorted⟩ := exists_dumps hjson
  rw [h] at hj'
  cases hj'
  exact hsorted

theorem get?_loadFields (fields : List (String × Json)) (key : String) :
    Dict.get? (loadFields fields) key = (fields.lookup key).map loads := by
  induction fields with
  | nil => rfl
  | cons field rest ih =>
      obtain ⟨k, j⟩ := field
      rw [loadFields, Dict.get?, lookup_cons]
      by_cases hk : key = k
      · rw [if_pos hk, if_pos (congrArg Key.str hk.symm), Option.map_some]
      · rw [if_neg hk, if_neg fun heq => hk (Key.str.inj heq).symm, ih]

/-- What is read of an object is a dict that is written as this object. -/
theorem loads_dumps_dict {entries : Dict} (hjson : IsJson (.dict entries))
    {fields : List (String × Json)} (h : dumps (.dict entries) = .ok (.object fields)) :
    loads (.object fields) = .dict (loadFields fields) ∧
      dumps (.dict (loadFields fields)) = .ok (.object fields) := by
  have hsorted := isSorted_dumps hjson h
  have hloads := loads_object hsorted.1
  exact ⟨hloads, hloads ▸ dumps_loads hsorted⟩

/-! ### A dict, written and read back -/

/-- The entries of a dict after it was written and read. -/
def reload (entries : Dict) : Dict :=
  match dumps (.dict entries) with
  | .ok j => (loads j).dict?.getD []
  | .error _ => []

theorem reload_spec {entries : Dict} (hjson : IsJson (.dict entries)) :
    ∃ j, dumps (.dict entries) = .ok j ∧ j.IsSorted ∧ loads j = .dict (reload entries) := by
  obtain ⟨j, hj, hsorted⟩ := exists_dumps hjson
  obtain ⟨fields, rfl⟩ := exists_object_of_dumps hj
  refine ⟨_, hj, hsorted, ?_⟩
  rw [reload, hj]
  show loads (.object fields) = .dict ((loads (.object fields)).dict?.getD [])
  rw [(loads_dumps_dict hjson hj).1]
  rfl

theorem dumps_reload {entries : Dict} (hjson : IsJson (.dict entries)) :
    dumps (.dict (reload entries)) = dumps (.dict entries) := by
  obtain ⟨j, hj, hsorted, hloads⟩ := reload_spec hjson
  rw [hj, ← hloads, dumps_loads hsorted]

theorem isJson_reload {entries : Dict} (hjson : IsJson (.dict entries)) :
    IsJson (.dict (reload entries)) := by
  obtain ⟨j, _, _, hloads⟩ := reload_spec hjson
  rw [← hloads]
  exact isJson_loads j

/-- Once is enough. -/
theorem reload_reload {entries : Dict} (hjson : IsJson (.dict entries)) :
    reload (reload entries) = reload entries := by
  rw [reload, dumps_reload hjson]
  rfl

/-- What is found under a key is what is read of what was written of it. -/
theorem get?_reload {entries : Dict} (hjson : IsJson (.dict entries)) (key : String) :
    (Dict.get? entries key = none ∧ Dict.get? (reload entries) key = none) ∨
      ∃ v j, Dict.get? entries key = some v ∧ dumps v = .ok j ∧
        Dict.get? (reload entries) key = some (loads j) := by
  obtain ⟨j, hj, _, hloads⟩ := reload_spec hjson
  obtain ⟨fields, rfl, hof⟩ := fieldsOf_dumps hjson hj
  rw [(loads_dumps_dict hjson hj).1, Value.dict.injEq] at hloads
  rw [← hloads, get?_loadFields]
  cases hv : Dict.get? entries key with
  | none => exact Or.inl ⟨rfl, by rw [hof.absent key hv]; rfl⟩
  | some v =>
      obtain ⟨j, hlookup, hdumps⟩ := hof.present key v hv
      exact Or.inr ⟨v, j, rfl, hdumps, by rw [hlookup]; rfl⟩

theorem str_of_loads {j : Json} {s : String} (h : loads j = .str s) : j = .str s := by
  cases j <;> rw [loads] at h <;> cases h
  rfl

/-- Texts come back as they are, and nothing else comes back as a text. -/
theorem get_reload_text {entries : Dict} (hjson : IsJson (.dict entries)) (key s : String) :
    Dict.get (reload entries) key = .str s ↔ Dict.get entries key = .str s := by
  unfold Dict.get
  rcases get?_reload hjson key with ⟨hnone, hnone'⟩ | ⟨v, j, hv, hj, hv'⟩
  · rw [hnone, hnone']
  · rw [hv, hv', Option.getD_some, Option.getD_some]
    constructor
    · intro h
      exact (dict_or_str_of_dumps hj).2 s (str_of_loads h)
    · rintro rfl
      cases hj
      rfl

theorem isJson_dicts {items : List Dict} (hjson : ∀ item ∈ items, IsJson (.dict item)) :
    IsJson (.list (items.map .dict)) := by
  rw [IsJson]
  induction items with
  | nil => trivial
  | cons item rest ih =>
      exact ⟨hjson item List.mem_cons_self,
        ih fun item hitem => hjson item (List.mem_cons_of_mem _ hitem)⟩

/-- Dicts in a list come back as dicts. -/
theorem loadItems_dicts {items : List Dict} (hjson : ∀ item ∈ items, IsJson (.dict item))
    {js : List Json} (h : dumpItems (items.map .dict) = .ok js) :
    (loadItems js).filterMap Value.dict? = items.map reload := by
  induction items generalizing js with
  | nil =>
      cases h
      rfl
  | cons item rest ih =>
      rw [List.map_cons, dumpItems] at h
      obtain ⟨j, hj, h⟩ := bind_eq_ok.mp h
      obtain ⟨js, hjs, h⟩ := bind_eq_ok.mp h
      cases h
      obtain ⟨j', hj', _, hloads⟩ := reload_spec (hjson item List.mem_cons_self)
      rw [hj] at hj'
      cases hj'
      rw [loadItems, hloads, List.map_cons,
        ← ih (fun item hitem => hjson item (List.mem_cons_of_mem _ hitem)) hjs]
      rfl

theorem isText_reload {entries : Dict} (hjson : IsJson (.dict entries)) (key s : String) :
    (Dict.get (reload entries) key).isText s = (Dict.get entries key).isText s := by
  rw [Bool.eq_iff_iff, Value.isText_iff, Value.isText_iff, get_reload_text hjson]

theorem text_reload {entries : Dict} (hjson : IsJson (.dict entries)) (key : String) :
    (Dict.get (reload entries) key).text = (Dict.get entries key).text := by
  have hother {v : Value} (h : ¬∃ s, v = .str s) : v.text = "" := by
    cases v with
    | str s => exact absurd ⟨s, rfl⟩ h
    | none | bool | int | float | list | tuple | dict => rfl
  by_cases h : ∃ s, Dict.get entries key = .str s
  · obtain ⟨s, hs⟩ := h
    rw [hs, (get_reload_text hjson key s).mpr hs]
  · rw [hother h, hother]
    simpa only [get_reload_text hjson] using h

/-! ### Floats -/

mutual

/-- Every float of the value is written as one of these texts. -/
def Value.AllFloats (P : String → Prop) : Value → Prop
  | .float text => P text
  | .list items => Value.ItemsAllFloats P items
  | .tuple items => Value.ItemsAllFloats P items
  | .dict entries => Value.EntriesAllFloats P entries
  | _ => True

def Value.ItemsAllFloats (P : String → Prop) : List Value → Prop
  | [] => True
  | v :: rest => v.AllFloats P ∧ Value.ItemsAllFloats P rest

def Value.EntriesAllFloats (P : String → Prop) : List (Key × Value) → Prop
  | [] => True
  | (_, v) :: rest => v.AllFloats P ∧ Value.EntriesAllFloats P rest

end

theorem Value.itemsAllFloats_iff {P : String → Prop} {items : List Value} :
    Value.ItemsAllFloats P items ↔ ∀ v ∈ items, v.AllFloats P := by
  induction items with
  | nil => simp [Value.ItemsAllFloats]
  | cons v rest ih => simp [Value.ItemsAllFloats, ih]

theorem Value.entriesAllFloats_iff {P : String → Prop} {entries : Dict} :
    Value.EntriesAllFloats P entries ↔ ∀ entry ∈ entries, entry.2.AllFloats P := by
  induction entries with
  | nil => simp [Value.EntriesAllFloats]
  | cons entry rest ih =>
      obtain ⟨key, v⟩ := entry
      simp [Value.EntriesAllFloats, ih]

section Floats

variable {P : String → Prop}

mutual

theorem allFloats_dumps : ∀ {v : Value} {j : Json}, dumps v = .ok j → v.AllFloats P → j.AllFloats P
  | .none, _, h, _ | .bool _, _, h, _ | .int _, _, h, _ | .str _, _, h, _ => by
      cases h
      trivial
  | .float _, _, h, hv => by
      cases h
      exact hv
  | .list items, j, h, hv | .tuple items, j, h, hv => by
      rw [dumps] at h
      cases hitems : dumpItems items with
      | error e =>
          rw [hitems] at h
          cases h
      | ok js =>
          rw [hitems] at h
          cases h
          exact allFloats_dumpItems hitems hv
  | .dict entries, j, h, hv => by
      rw [dumps] at h
      obtain ⟨dumped, hdumped, h⟩ := bind_eq_ok.mp h
      obtain ⟨fields, hfields, h⟩ := bind_eq_ok.mp h
      cases h
      refine Json.fieldsAllFloats_iff.mpr fun field hfield => ?_
      obtain ⟨entry, hentry, rfl⟩ := List.mem_map.mp ((sortFields_perm hfields).mem_iff.mp hfield)
      exact allFloats_dumpEntries hdumped hv entry hentry

theorem allFloats_dumpItems : ∀ {items : List Value} {js : List Json}, dumpItems items = .ok js →
    Value.ItemsAllFloats P items → Json.ItemsAllFloats P js
  | [], _, h, _ => by
      cases h
      trivial
  | v :: rest, _, h, hv => by
      rw [dumpItems] at h
      obtain ⟨j, hj, h⟩ := bind_eq_ok.mp h
      obtain ⟨js, hjs, h⟩ := bind_eq_ok.mp h
      cases h
      exact ⟨allFloats_dumps hj hv.1, allFloats_dumpItems hjs hv.2⟩

theorem allFloats_dumpEntries : ∀ {entries : List (Key × Value)} {dumped : List (Key × Json)},
    dumpEntries entries = .ok dumped → Value.EntriesAllFloats P entries →
      ∀ entry ∈ dumped, entry.2.AllFloats P
  | [], _, h, _ => by
      cases h
      exact List.forall_mem_nil _
  | (key, v) :: rest, _, h, hv => by
      rw [dumpEntries] at h
      obtain ⟨j, hj, h⟩ := bind_eq_ok.mp h
      obtain ⟨js, hjs, h⟩ := bind_eq_ok.mp h
      cases h
      exact List.forall_mem_cons.mpr ⟨allFloats_dumps hj hv.1, allFloats_dumpEntries hjs hv.2⟩

end

mutual

theorem allFloats_loads : ∀ {j : Json}, j.AllFloats P → (loads j).AllFloats P
  | .null, _ | .bool _, _ | .int _, _ | .str _, _ => trivial
  | .float _, h => h
  | .array items, h => by
      rw [loads]
      exact allFloats_loadItems h
  | .object fields, h => by
      obtain ⟨_, hmem⟩ := Dict.update_nodup (d := []) (loadFields fields) List.nodup_nil
      rw [loads]
      refine Value.entriesAllFloats_iff.mpr fun entry hentry => ?_
      rcases hmem entry hentry with hnone | hentry
      · cases hnone
      · exact allFloats_of_mem_loadFields h entry hentry

theorem allFloats_loadItems : ∀ {items : List Json}, Json.ItemsAllFloats P items →
    Value.ItemsAllFloats P (loadItems items)
  | [], _ => trivial
  | _ :: _, h => ⟨allFloats_loads h.1, allFloats_loadItems h.2⟩

theorem allFloats_of_mem_loadFields : ∀ {fields : List (String × Json)},
    Json.FieldsAllFloats P fields → ∀ entry ∈ loadFields fields, entry.2.AllFloats P
  | [], _, _, hentry => by cases hentry
  | (key, j) :: rest, h, entry, hentry => by
      rw [loadFields] at hentry
      rcases List.mem_cons.mp hentry with rfl | hentry
      · exact allFloats_loads h.1
      · exact allFloats_of_mem_loadFields h.2 entry hentry

end

end Floats

end Python
