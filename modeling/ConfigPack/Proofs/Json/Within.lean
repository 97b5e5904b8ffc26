import ConfigPack.Merge
import Mathlib.Data.List.Nodup

/-!
# Documents with distinct names

The objects of a document that is read have no two fields of one name (`Distinct`).  `Within P
depth` also bounds how deep its arrays and objects are nested and what its numbers are.  A document
that is merged into another one keeps within the bounds of both (`Within.merge`).
-/

namespace ConfigPack

/-- A document in which no object has two fields of one name. -/
inductive Json.Distinct : Json → Prop
  | null : Json.Distinct .null
  | bool {b} : Json.Distinct (.bool b)
  | number {n} : Json.Distinct (.number n)
  | string {s} : Json.Distinct (.string s)
  | array {items} : (∀ item ∈ items, Json.Distinct item) → Json.Distinct (.array items)
  | object {fields} : (fields.map Prod.fst).Nodup → (∀ field ∈ fields, Json.Distinct field.2) →
    Json.Distinct (.object fields)

namespace Json

variable {items : List Json} {fields : List (String × Json)}

@[simp] lemma distinct_string (s : String) : (Json.string s).Distinct := .string

@[simp] lemma distinct_null : Json.null.Distinct := .null

@[simp] lemma distinct_number (n : Number) : (Json.number n).Distinct := .number

@[simp] lemma distinct_bool (b : Bool) : (Json.bool b).Distinct := .bool

/-- The names in an array are distinct when those in its items are. -/
@[simp] lemma distinct_array : (Json.array items).Distinct ↔ ∀ item ∈ items, item.Distinct :=
  ⟨fun h => by cases h; assumption, .array⟩

/-- The names in an object are distinct when its own are and those in its values are. -/
@[simp] lemma distinct_object :
    (Json.object fields).Distinct ↔
      (fields.map Prod.fst).Nodup ∧ ∀ field ∈ fields, field.2.Distinct :=
  ⟨fun h => by cases h; exact ⟨‹_›, ‹_›⟩, fun h => .object h.1 h.2⟩

/-! ## Bounds -/

/-- A document with numbers of a kind and at most so many nested arrays and objects, in which no
object has two fields of one name. -/
inductive Within (P : Number → Prop) : Nat → Json → Prop
  | null {depth : Nat} : Within P depth .null
  | bool {depth : Nat} {b : Bool} : Within P depth (.bool b)
  | number {depth : Nat} {n : Number} : P n → Within P depth (.number n)
  | string {depth : Nat} {s : String} : Within P depth (.string s)
  | array {depth : Nat} {items : List Json} :
    (∀ item ∈ items, Within P depth item) → Within P (depth + 1) (.array items)
  | object {depth : Nat} {fields : List (String × Json)} : (fields.map Prod.fst).Nodup →
    (∀ field ∈ fields, Within P depth field.2) → Within P (depth + 1) (.object fields)

/-- Fields of an object whose values are within bounds. -/
structure FieldsWithin (P : Number → Prop) (depth : Nat) (fields : List (String × Json)) :
    Prop where
  nodup : (fields.map Prod.fst).Nodup
  values : ∀ field ∈ fields, Within P depth field.2

variable {P : Number → Prop} {depth : Nat}

/-- No fields are within any bounds. -/
lemma FieldsWithin.nil : FieldsWithin P depth [] := ⟨.nil, fun _ h => nomatch h⟩

/-! ## Changed fields -/

/-- A changed field keeps its place, and a new one comes last. -/
lemma map_fst_upsert (name : String) (change : Json → Json) (new : Json)
    (fields : List (String × Json)) : (upsert name change new fields).map Prod.fst =
      if name ∈ fields.map Prod.fst then fields.map Prod.fst
      else fields.map Prod.fst ++ [name] := by
  induction fields with
  | nil => rfl
  | cons field rest ih =>
    rw [upsert]
    by_cases hname : field.1 = name
    · simp [hname]
    · have hne : name ≠ field.1 := fun h => hname h.symm
      rw [if_neg hname, List.map_cons, ih]
      by_cases hrest : name ∈ rest.map Prod.fst
      · simp [hrest]
      · simp [hrest, hne]

/-- A field after a change was there before, or it is the changed one or the new one. -/
lemma mem_upsert {name : String} {change : Json → Json} {new : Json} {field : String × Json} :
    ∀ {fields : List (String × Json)}, field ∈ upsert name change new fields →
      field ∈ fields ∨ (∃ old, (name, old) ∈ fields ∧ field = (name, change old)) ∨
        field = (name, new)
  | [], h => .inr (.inr (List.mem_singleton.1 h))
  | (n, v) :: rest, h => by
    rw [upsert] at h
    split at h
    next hname =>
      subst hname
      rcases List.mem_cons.1 h with rfl | h
      · exact .inr (.inl ⟨v, List.mem_cons_self, rfl⟩)
      · exact .inl (List.mem_cons_of_mem _ h)
    next =>
      rcases List.mem_cons.1 h with rfl | h
      · exact .inl List.mem_cons_self
      · rcases mem_upsert h with h | ⟨old, hold, rfl⟩ | rfl
        · exact .inl (List.mem_cons_of_mem _ h)
        · exact .inr (.inl ⟨old, List.mem_cons_of_mem _ hold, rfl⟩)
        · exact .inr (.inr rfl)

/-- Changed fields keep within bounds when the change does. -/
lemma FieldsWithin.upsert {name : String} {change : Json → Json} {new : Json}
    (h : FieldsWithin P depth fields)
    (hchange : ∀ old, Within P depth old → Within P depth (change old))
    (hnew : Within P depth new) : FieldsWithin P depth (upsert name change new fields) := by
  refine ⟨?_, fun field hfield => ?_⟩
  · rw [map_fst_upsert]
    split
    next => exact h.nodup
    next hname =>
      refine List.nodup_append.2 ⟨h.nodup, List.nodup_singleton _, ?_⟩
      rintro _ ha _ hb rfl
      exact hname (List.mem_singleton.1 hb ▸ ha)
  · rcases mem_upsert hfield with hfield | ⟨old, hold, rfl⟩ | rfl
    · exact h.values field hfield
    · exact hchange old (h.values _ hold)
    · exact hnew

/-- To set a field is to change it to the new value. -/
lemma setField_eq_upsert (name : String) (value : Json) (fields : List (String × Json)) :
    setField name value fields = Json.upsert name (fun _ => value) value fields := by
  induction fields with
  | nil => rfl
  | cons field rest ih => rw [setField, Json.upsert, ih]

/-- So fields with one more field keep within bounds. -/
lemma FieldsWithin.setField {name : String} {value : Json} (h : FieldsWithin P depth fields)
    (hvalue : Within P depth value) : FieldsWithin P depth (setField name value fields) := by
  rw [setField_eq_upsert]
  exact h.upsert (fun _ _ => hvalue) hvalue

/-- A field of a new name comes last. -/
lemma setField_of_not_mem {name : String} {value : Json} :
    ∀ {fields : List (String × Json)}, name ∉ fields.map Prod.fst →
      Json.setField name value fields = fields ++ [(name, value)]
  | [], _ => rfl
  | (n, v) :: rest, h => by
    rw [List.map_cons, List.mem_cons, not_or] at h
    rw [Json.setField, if_neg fun hname => h.1 hname.symm, setField_of_not_mem h.2,
      List.cons_append]

/-! ## Merged documents -/

/-- Fields keep within bounds when those that are merged into them do. -/
lemma FieldsWithin.mergeFields :
    ∀ {incoming existing : List (String × Json)},
      (∀ field ∈ incoming, Within P depth field.2 ∧
        ∀ old, Within P depth old → Within P depth (merge old field.2)) →
      FieldsWithin P depth existing → FieldsWithin P depth (Json.mergeFields existing incoming)
  | [], _, _, h => h
  | (name, value) :: rest, _, hincoming, h => by
    obtain ⟨⟨hvalue, hmerge⟩, hrest⟩ := List.forall_mem_cons.1 hincoming
    rw [Json.mergeFields, mergeField]
    exact FieldsWithin.mergeFields hrest (h.upsert hmerge hvalue)

/-- A merged document is nested no deeper than both that were merged. -/
lemma Within.merge {incoming : Json} (h : Within P depth incoming) :
    ∀ {existing}, Within P depth existing → Within P depth (existing.merge incoming) := by
  induction h with
  | null | bool | string =>
    intro existing _
    cases existing <;> constructor
  | number hn =>
    intro existing _
    cases existing <;> exact .number hn
  | @array depth items hitems =>
    intro existing hexisting
    cases hexisting with
    | array hold =>
      exact .array fun item hitem =>
        (List.mem_append.1 hitem).elim (hitems item) (hold item)
    | null | bool | number _ | string | object _ _ => exact .array hitems
  | @object depth fields hnames hvalues ih =>
    intro existing hexisting
    cases hexisting with
    | object hold hkeep =>
      have hmerged : FieldsWithin P depth _ :=
        FieldsWithin.mergeFields
          (fun field hfield => ⟨hvalues field hfield, fun _ => ih field hfield⟩) ⟨hold, hkeep⟩
      exact .object hmerged.nodup hmerged.values
    | null | bool | number _ | string | array _ => exact .object hnames hvalues

/-! ## Documents without floating-point numbers -/

mutual

/-- Whether no number of a document is a floating-point number. -/
def isWhole : Json → Bool
  | .number (.float _) => false
  | .array items => areWhole items
  | .object fields => fieldsWhole fields
  | _ => true

/-- Whether no number of items is a floating-point number. -/
def areWhole : List Json → Bool
  | [] => true
  | item :: rest => item.isWhole && areWhole rest

/-- Whether no number of fields is a floating-point number. -/
def fieldsWhole : List (String × Json) → Bool
  | [] => true
  | (_, value) :: rest => value.isWhole && fieldsWhole rest

end

/-- Items are whole one by one. -/
lemma areWhole_iff {items : List Json} :
    areWhole items = true ↔ ∀ item ∈ items, item.isWhole := by
  induction items with
  | nil => simp [areWhole]
  | cons item rest ih => rw [areWhole, Bool.and_eq_true, ih, List.forall_mem_cons]

/-- Fields are whole by their values. -/
lemma fieldsWhole_iff {fields : List (String × Json)} :
    fieldsWhole fields = true ↔ ∀ field ∈ fields, field.2.isWhole := by
  induction fields with
  | nil => simp [fieldsWhole]
  | cons field rest ih => rw [fieldsWhole, Bool.and_eq_true, ih, List.forall_mem_cons]

/-- The numbers of a document without floating-point numbers are whole. -/
lemma Within.whole {document : Json} (h : Within P depth document) (hwhole : document.isWhole) :
    Within (fun n => P n ∧ ∃ i, n = .int i) depth document := by
  induction h with
  | null => exact .null
  | bool => exact .bool
  | string => exact .string
  | @number depth n hn =>
    cases n with
    | int i => exact .number ⟨hn, i, rfl⟩
    | float x => cases hwhole
  | array _ ih => exact .array fun item hitem => ih item hitem (areWhole_iff.1 hwhole item hitem)
  | object hnames _ ih =>
    exact .object hnames fun field hfield => ih field hfield (fieldsWhole_iff.1 hwhole field hfield)

end Json

end ConfigPack
