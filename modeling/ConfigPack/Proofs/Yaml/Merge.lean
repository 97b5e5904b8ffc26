import ConfigPack.Merge
import Mathlib.Tactic.Lemma

/-!
# Merging documents as YAML values

A document is also a YAML value, its objects mappings with texts as keys.  Merging two documents as
YAML values gives the merged document as a YAML value, the order of keys included (`merge_ofJson`).
-/

namespace ConfigPack.Yaml

/-- Items are turned one by one. -/
lemma ofItems_append (xs ys : List Json) : ofItems (xs ++ ys) = ofItems xs ++ ofItems ys := by
  induction xs with
  | nil => rfl
  | cons x xs ih => rw [List.cons_append, ofItems, ofItems, ih, List.cons_append]

/-- A field is changed, or a new one appended, on both sides. -/
lemma upsert_ofFields {change : Json → Json} {changeYaml : Yaml → Yaml}
    (h : ∀ old, changeYaml (ofJson old) = ofJson (change old)) (name : String) (new : Json)
    (fields : List (String × Json)) :
    upsert (.string name) changeYaml (ofJson new) (ofFields fields) =
      ofFields (Json.upsert name change new fields) := by
  induction fields with
  | nil => rfl
  | cons field rest ih =>
    obtain ⟨n, v⟩ := field
    rw [ofFields, upsert, Json.upsert]
    by_cases hname : n = name
    · have hsame : same (.string n) (.string name) = true := beq_iff_eq.2 hname
      rw [if_pos hsame, if_pos hname, ofFields, h]
    · have hother : ¬ same (.string n) (.string name) = true := fun hsame =>
        hname (beq_iff_eq.1 hsame)
      rw [if_neg hother, if_neg hname, ofFields, ih]

/-- The fields of objects are merged alike when the values are. -/
lemma mergeEntries_ofFields {existing incoming : List (String × Json)}
    (h : ∀ field ∈ incoming, ∀ old, merge (ofJson old) (ofJson field.2) =
      ofJson (old.merge field.2)) :
    mergeEntries (ofFields existing) (ofFields incoming) =
      ofFields (Json.mergeFields existing incoming) := by
  induction incoming generalizing existing with
  | nil => rw [ofFields, mergeEntries, Json.mergeFields]
  | cons field rest ih =>
    obtain ⟨name, value⟩ := field
    rw [List.forall_mem_cons] at h
    rw [ofFields, mergeEntries, mergeEntry, Json.mergeFields, Json.mergeField,
      upsert_ofFields h.1 name value, ih h.2]

/-- Documents are merged as YAML values like as documents. -/
theorem merge_ofJson (existing : Json) :
    (incoming : Json) → merge (ofJson existing) (ofJson incoming) = ofJson (existing.merge incoming)
  | .object fields => by
    cases existing with
    | object old =>
      have hvalues : ∀ field ∈ fields, ∀ old, merge (ofJson old) (ofJson field.2) =
          ofJson (old.merge field.2) := fun field hfield old => merge_ofJson old field.2
      rw [ofJson, ofJson, merge, mergeEntries_ofFields hvalues, Json.merge, ofJson]
    | _ => rfl
  | .array items => by
    cases existing with
    | array old => rw [ofJson, ofJson, merge, ← ofItems_append, Json.merge, ofJson]
    | _ => rfl
  | .null => by cases existing <;> rfl
  | .bool _ => by cases existing <;> rfl
  | .number _ => by cases existing <;> rfl
  | .string _ => by cases existing <;> rfl
termination_by incoming => incoming
decreasing_by
  obtain ⟨name, value⟩ := field
  have hmem : sizeOf (name, value) < sizeOf fields := List.sizeOf_lt_of_mem hfield
  rw [Prod.mk.sizeOf_spec] at hmem
  show sizeOf value < sizeOf (Json.object fields)
  rw [Json.object.sizeOf_spec]
  omega

end ConfigPack.Yaml
