/-
A dict of texts on one line: `json.dumps(texts, separators=(",", ":"), sort_keys=True)`.

The reader of `JsonText` takes such a text too.  What it reads are the fields in the order
of their keys, so the dict comes back with its entries sorted.
-/
import YtmExecutor.Python.JsonReload

namespace Python

namespace Json

/-! ### The text -/

def flatField (field : String × String) : List Char :=
  stringText field.1 ++ ':' :: stringText field.2

/-- The fields after the first. -/
def flatRest : List (String × String) → List Char
  | [] => []
  | field :: rest => ',' :: (flatField field ++ flatRest rest)

def flatText : List (String × String) → List Char
  | [] => ['{', '}']
  | field :: rest => '{' :: (flatField field ++ (flatRest rest ++ ['}']))

/-- The tree of a dict of texts. -/
def flatObject (fields : List (String × String)) : Json :=
  .object (fields.map fun field => (field.1, .str field.2))

variable [FloatRepr]

/-! ### What is written is read -/

theorem run_flatField (field : String × String) (fields : List (String × Json)) (first : Bool)
    (stack : List Frame) (rest : List Char) :
    run (.fieldStart fields first, stack) (flatField field ++ rest) =
      run (.afterField ((field.1, .str field.2) :: fields), stack) rest := by
  have hquote : step (.fieldStart fields first, stack) '"' =
      some (.string (some fields) [] .plain, stack) := rfl
  have hcolon : step (.colon fields field.1, stack) ':' =
      some (.value, .object fields field.1 :: stack) := rfl
  have hvalue : step (.value, .object fields field.1 :: stack) '"' =
      some (.string none [] .plain, .object fields field.1 :: stack) := rfl
  rw [flatField, List.append_assoc, stringText, List.cons_append, run_cons hquote, run_stringText]
  show run (.colon fields field.1, stack) _ = _
  rw [List.cons_append, run_cons hcolon, stringText, List.cons_append, run_cons hvalue,
    run_stringText]
  rfl

theorem run_flatRest (texts : List (String × String)) (fields : List (String × Json))
    (stack : List Frame) (rest : List Char) :
    run (.afterField fields, stack) (flatRest texts ++ rest) =
      run (.afterField ((texts.map fun field => (field.1, .str field.2)).reverse ++ fields), stack)
        rest := by
  induction texts generalizing fields with
  | nil => rfl
  | cons field texts ih =>
      have hcomma : step (.afterField fields, stack) ',' =
          some (.fieldStart fields false, stack) := rfl
      rw [flatRest, List.cons_append, List.append_assoc, run_cons hcomma, run_flatField, ih,
        List.map_cons, List.reverse_cons, List.append_assoc]
      rfl

/-- **A dict of texts is read as it was written.** -/
theorem parse_flatText (texts : List (String × String)) :
    parse (flatText texts) = some (flatObject texts) := by
  have hopen : step (.value, []) '{' = some (.fieldStart [] true, []) := rfl
  cases texts with
  | nil =>
      have hclose : step (.fieldStart [] true, []) '}' = some (.done (.object []), []) := rfl
      rw [parse, flatText, run_cons hopen, run_cons hclose]
      rfl
  | cons field rest =>
      have hclose (fields : List (String × Json)) : step (.afterField fields, []) '}' =
          some (.done (.object fields.reverse), []) := rfl
      rw [parse, flatText, run_cons hopen, run_flatField, run_flatRest, run_cons (hclose _)]
      simp [run, finish, flatObject]

end Json

/-! ### The dict that is read -/

/-- The entries in the order of their keys. -/
def sortTexts (texts : List (String × String)) : List (String × String) :=
  texts.insertionSort fun a b => a.1 ≤ b.1

theorem sortTexts_perm (texts : List (String × String)) : (sortTexts texts).Perm texts :=
  List.perm_insertionSort _ _

/-- A dict of texts in the order of its keys is read as it is. -/
theorem loads_flatObject {texts : List (String × String)}
    (h : (texts.map Prod.fst).Pairwise (· < ·)) :
    loads (Json.flatObject texts) =
      .dict (texts.map fun field => (.str field.1, .str field.2)) := by
  have hkeys : ((texts.map fun field => (field.1, Json.str field.2)).map Prod.fst).Pairwise
      (· < ·) := by
    rw [List.map_map]
    exact h
  rw [Json.flatObject, loads_object hkeys]
  congr 1
  clear h hkeys
  induction texts with
  | nil => rfl
  | cons field rest ih =>
      rw [List.map_cons, loadFields, ih]
      rfl

theorem isSorted_flatObject {texts : List (String × String)}
    (h : (texts.map Prod.fst).Pairwise (· < ·)) : (Json.flatObject texts).IsSorted := by
  refine ⟨by rw [List.map_map]; exact h, ?_⟩
  rw [fieldsSorted_iff]
  intro field hfield
  obtain ⟨text, _, rfl⟩ := List.mem_map.mp hfield
  trivial

/-- A dict of texts in the order of its keys comes back from a file as it is. -/
theorem reload_texts {texts : List (String × String)} (h : (texts.map Prod.fst).Pairwise (· < ·)) :
    IsJson (.dict (texts.map fun field => (.str field.1, .str field.2))) ∧
      reload (texts.map fun field => (.str field.1, .str field.2)) =
        texts.map fun field => (.str field.1, .str field.2) := by
  have hloads := loads_flatObject h
  have hdumps := dumps_loads (isSorted_flatObject h)
  rw [hloads] at hdumps
  constructor
  · rw [← hloads]
    exact isJson_loads _
  · rw [reload, hdumps]
    show (loads (Json.flatObject texts)).dict?.getD [] = _
    rw [hloads]
    rfl

/-- A dict of texts comes back in the order of its keys. -/
theorem reload_unsorted {texts : List (String × String)} (h : (texts.map Prod.fst).Nodup) :
    reload (texts.map fun field => (.str field.1, .str field.2)) =
      (sortTexts texts).map fun field => (.str field.1, .str field.2) := by
  have hsorted : ((sortTexts texts).map Prod.fst).Pairwise (· < ·) := sorted_insertionSort h
  have hentries : dumpEntries (texts.map fun field => (.str field.1, .str field.2)) =
      .ok ((texts.map fun field => (field.1, Json.str field.2)).map
        fun field => (.str field.1, field.2)) := by
    clear h hsorted
    induction texts with
    | nil => rfl
    | cons field rest ih =>
        rw [List.map_cons, dumpEntries, ih]
        rfl
  have hsort : (texts.map fun field => (field.1, Json.str field.2)).insertionSort
      (fun a b => a.1 ≤ b.1) = (sortTexts texts).map fun field => (field.1, Json.str field.2) :=
    (List.map_insertionSort (fun a b : String × String => a.1 ≤ b.1) _
      (fun field => (field.1, Json.str field.2)) _ fun _ _ _ _ => Iff.rfl).symm
  have hdumps : dumps (.dict (texts.map fun field => (.str field.1, .str field.2))) =
      .ok (Json.flatObject (sortTexts texts)) := by
    rw [dumps, hentries]
    show (sortFields _ >>= fun fields => pure (Json.object fields)) = _
    rw [sortFields_text, hsort]
    rfl
  rw [reload, hdumps]
  show (loads (Json.flatObject (sortTexts texts))).dict?.getD [] = _
  rw [loads_flatObject hsorted]
  rfl

end Python
