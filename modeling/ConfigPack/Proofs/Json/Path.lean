import ConfigPack.Proofs.Json.Fields

/-!
# Documents along paths of names

A path of names leads through the objects of a document to a value.  What a merged document holds at
a path is told by what the two documents hold there (`merge_keeps_both`): nothing is lost, nothing
is made up, and only a value that is not an object hides what was below it.
-/

namespace ConfigPack.Json

/-- What a value is merged as. -/
inductive Kind where
  | object
  | array
  | scalar
deriving DecidableEq, Repr

/-- What a document is merged as. -/
def kind : Json → Kind
  | .object _ => .object
  | .array _ => .array
  | _ => .scalar

/-- The value that a path of names leads to, through objects only. -/
def valueAt? : Json → List String → Option Json
  | document, [] => some document
  | document, name :: path => (document.field? name).bind fun value => value.valueAt? path

/-- The names of the object that a path leads to; none if it leads to no object. -/
def namesAt (document : Json) (path : List String) : List String :=
  match document.valueAt? path with
  | some (.object fields) => fields.map Prod.fst
  | _ => []

variable {document existing incoming value : Json} {name : String} {path : List String}

/-! ## Kinds -/

/-- A document of that kind is an object. -/
lemma eq_object_of_kind (h : document.kind = .object) : ∃ fields, document = .object fields := by
  cases document with
  | object fields => exact ⟨fields, rfl⟩
  | _ => cases h

/-- A document of that kind is an array. -/
lemma eq_array_of_kind (h : document.kind = .array) : ∃ items, document = .array items := by
  cases document with
  | array items => exact ⟨items, rfl⟩
  | _ => cases h

/-- What is no object has no fields. -/
lemma field?_of_kind (h : document.kind ≠ .object) (name : String) :
    document.field? name = none := by
  cases document with
  | object fields => exact absurd rfl h
  | _ => rfl

/-- What has a field is an object. -/
lemma kind_of_field? (h : document.field? name = some value) : document.kind = .object := by
  by_contra hkind
  rw [field?_of_kind hkind] at h
  cases h

/-- A value of another kind takes the place of the existing one. -/
lemma merge_of_kind_ne (h : existing.kind ≠ incoming.kind) : existing.merge incoming = incoming := by
  cases incoming with
  | object fields =>
    cases existing with
    | object _ => exact absurd rfl h
    | _ => rfl
  | array items =>
    cases existing with
    | array _ => exact absurd rfl h
    | _ => rfl
  | _ => cases existing <;> rfl

/-- A scalar takes the place of the existing value. -/
lemma merge_of_scalar (h : incoming.kind = .scalar) : existing.merge incoming = incoming := by
  cases incoming with
  | object fields => cases h
  | array items => cases h
  | _ => cases existing <;> rfl

/-- A merged value is of the kind of the incoming one. -/
lemma kind_merge (existing incoming : Json) : (existing.merge incoming).kind = incoming.kind := by
  by_cases h : existing.kind = incoming.kind
  · cases hkind : incoming.kind with
    | object =>
      obtain ⟨new, rfl⟩ := eq_object_of_kind hkind
      obtain ⟨old, rfl⟩ := eq_object_of_kind (h.trans hkind)
      rfl
    | array =>
      obtain ⟨new, rfl⟩ := eq_array_of_kind hkind
      obtain ⟨old, rfl⟩ := eq_array_of_kind (h.trans hkind)
      rfl
    | scalar => rw [merge_of_scalar hkind, hkind]
  · rw [merge_of_kind_ne h]

/-! ## Steps of paths -/

/-- A field of a document with distinct names has distinct names. -/
lemma Distinct.field? (h : document.Distinct) (hvalue : document.field? name = some value) :
    value.Distinct := by
  obtain ⟨fields, rfl⟩ := eq_object_of_kind (kind_of_field? hvalue)
  exact (distinct_object.1 h).2 _ (mem_of_lookup hvalue)

/-- So has what stands at a path. -/
lemma Distinct.valueAt? {document : Json} (h : document.Distinct)
    (hvalue : document.valueAt? path = some value) : value.Distinct := by
  induction path generalizing document with
  | nil =>
    cases hvalue
    exact h
  | cons name path ih =>
    obtain ⟨inner, hfield, hvalue⟩ := Option.bind_eq_some_iff.1 hvalue
    exact ih (h.field? hfield) hvalue

/-- What stands at a path stands at its rest in the field of its first name. -/
lemma valueAt?_cons_of_some (h : document.field? name = some value) (path : List String) :
    document.valueAt? (name :: path) = value.valueAt? path := by
  rw [Json.valueAt?, h, Option.bind_some]

/-- Nothing stands at a path whose first name no field has. -/
lemma valueAt?_cons_of_none (h : document.field? name = none) (path : List String) :
    document.valueAt? (name :: path) = none := by
  rw [Json.valueAt?, h, Option.bind_none]

/-- Below a value that is no object there is nothing. -/
lemma valueAt?_below {document : Json} {front : List String} (hfront : front <+: path)
    (hne : front ≠ path) (hvalue : document.valueAt? front = some value)
    (hkind : value.kind ≠ .object) : document.valueAt? path = none := by
  obtain ⟨back, rfl⟩ := hfront
  induction front generalizing document with
  | nil =>
    cases hvalue
    cases back with
    | nil => exact absurd rfl hne
    | cons name back => exact valueAt?_cons_of_none (field?_of_kind hkind name) back
  | cons name front ih =>
    obtain ⟨inner, hfield, hvalue⟩ := Option.bind_eq_some_iff.1 hvalue
    rw [List.cons_append, valueAt?_cons_of_some hfield]
    exact ih hvalue fun h => hne (congrArg (name :: ·) h)

/-- The names at a path are those of the object there. -/
lemma namesAt_of_object {fields : List (String × Json)}
    (h : document.valueAt? path = some (.object fields)) :
    document.namesAt path = fields.map Prod.fst := by
  rw [namesAt, h]

/-- Where nothing stands there are no names. -/
lemma namesAt_of_none (h : document.valueAt? path = none) : document.namesAt path = [] := by
  rw [namesAt, h]

/-- Where something else than an object stands there are none either. -/
lemma namesAt_of_kind (h : document.valueAt? path = some value) (hkind : value.kind ≠ .object) :
    document.namesAt path = [] := by
  rw [namesAt, h]
  cases value with
  | object fields => exact absurd rfl hkind
  | _ => rfl

/-- The names at a path are all different. -/
lemma nodup_namesAt (h : document.Distinct) (path : List String) :
    (document.namesAt path).Nodup := by
  unfold namesAt
  split
  next fields hvalue => exact (distinct_object.1 (h.valueAt? hvalue)).1
  · exact .nil

/-! ## Merged documents -/

/-- A field of a merged document: where the incoming one is an object, both values merged or the
only value there is. -/
lemma field?_merge (existing : Json) (hincoming : incoming.Distinct) (name : String) :
    (existing.merge incoming).field? name =
      if incoming.kind = .object then
        Option.merge merge (existing.field? name) (incoming.field? name)
      else none := by
  by_cases hkind : incoming.kind = .object
  · rw [if_pos hkind]
    by_cases hold : existing.kind = .object
    · obtain ⟨new, rfl⟩ := eq_object_of_kind hkind
      obtain ⟨old, rfl⟩ := eq_object_of_kind hold
      exact lookup_mergeFields (distinct_object.1 hincoming).1 name
    · rw [merge_of_kind_ne fun h => hold (h.trans hkind), field?_of_kind hold,
        Option.merge_none_left]
  · rw [if_neg hkind, field?_of_kind (kind_merge existing incoming ▸ hkind)]

/-- A field of the incoming document, merged into the existing field or new. -/
lemma field?_merge_of_some (existing : Json) {new : Json} (hincoming : incoming.Distinct)
    (h : incoming.field? name = some new) : (existing.merge incoming).field? name =
      some ((existing.field? name).elim new fun old => old.merge new) := by
  rw [field?_merge existing hincoming, if_pos (kind_of_field? h), h]
  cases existing.field? name <;> rfl

/-- What becomes of a value that another one is merged into. -/
inductive Joined : (old new merged : Json) → Prop
  | objects {old new merged : Json} : old.kind = .object → new.kind = .object →
    merged.kind = .object → Joined old new merged
  | arrays {old new : List Json} : Joined (.array old) (.array new) (.array (new ++ old))
  | replaced {old new : Json} : ¬ (old.kind = .object ∧ new.kind = .object) →
    ¬ (old.kind = .array ∧ new.kind = .array) → Joined old new new

/-- A merge joins its two sides. -/
lemma joined_merge (old new : Json) : Joined old new (old.merge new) := by
  by_cases hobjects : old.kind = .object ∧ new.kind = .object
  · exact .objects hobjects.1 hobjects.2 ((kind_merge old new).trans hobjects.2)
  · by_cases harrays : old.kind = .array ∧ new.kind = .array
    · obtain ⟨xs, rfl⟩ := eq_array_of_kind harrays.1
      obtain ⟨ys, rfl⟩ := eq_array_of_kind harrays.2
      exact .arrays
    · have hsame : old.merge new = new := by
        cases hkind : new.kind with
        | object => exact merge_of_kind_ne fun h => hobjects ⟨h.trans hkind, hkind⟩
        | array => exact merge_of_kind_ne fun h => harrays ⟨h.trans hkind, hkind⟩
        | scalar => exact merge_of_scalar hkind
      rw [hsame]
      exact .replaced hobjects harrays

/-- Where both documents hold a value, the merged one holds the two values merged. -/
lemma valueAt?_merge_of_both {existing incoming : Json} (hincoming : incoming.Distinct)
    {old new : Json} (hold : existing.valueAt? path = some old)
    (hnew : incoming.valueAt? path = some new) :
    (existing.merge incoming).valueAt? path = some (old.merge new) := by
  induction path generalizing existing incoming with
  | nil =>
    cases hold
    cases hnew
    rfl
  | cons name path ih =>
    obtain ⟨a, ha, hold⟩ := Option.bind_eq_some_iff.1 hold
    obtain ⟨b, hb, hnew⟩ := Option.bind_eq_some_iff.1 hnew
    have hfield := field?_merge_of_some existing hincoming hb
    rw [ha, Option.elim_some] at hfield
    rw [valueAt?_cons_of_some hfield]
    exact ih (hincoming.field? hb) hold hnew

/-- Where only the incoming document holds a value, that value is held. -/
lemma valueAt?_merge_of_new {existing incoming : Json} (hincoming : incoming.Distinct) {new : Json}
    (hold : existing.valueAt? path = none) (hnew : incoming.valueAt? path = some new) :
    (existing.merge incoming).valueAt? path = some new := by
  induction path generalizing existing incoming with
  | nil => cases hold
  | cons name path ih =>
    obtain ⟨b, hb, hnew⟩ := Option.bind_eq_some_iff.1 hnew
    have hfield := field?_merge_of_some existing hincoming hb
    cases ha : existing.field? name with
    | none =>
      rw [ha, Option.elim_none] at hfield
      rw [valueAt?_cons_of_some hfield, hnew]
    | some a =>
      rw [ha, Option.elim_some] at hfield
      rw [valueAt?_cons_of_some ha] at hold
      rw [valueAt?_cons_of_some hfield]
      exact ih (hincoming.field? hb) hold hnew

/-- Where the incoming document holds nothing, below objects only, the existing value is kept. -/
lemma valueAt?_merge_of_old {existing incoming : Json} (hincoming : incoming.Distinct)
    (hnew : incoming.valueAt? path = none)
    (hfronts : ∀ front, front <+: path → front ≠ path →
      ∀ value, incoming.valueAt? front = some value → value.kind = .object) :
    (existing.merge incoming).valueAt? path = existing.valueAt? path := by
  -- on the path; the first name leads both documents one level down
  induction path generalizing existing incoming with
  | nil => cases hnew
  | cons name path ih =>
    have hkind : incoming.kind = .object :=
      hfronts [] List.nil_prefix (List.cons_ne_nil name path).symm incoming rfl
    cases hb : incoming.field? name with
    | none =>
      have hfield : (existing.merge incoming).field? name = existing.field? name := by
        rw [field?_merge existing hincoming, if_pos hkind, hb, Option.merge_none_right]
      rw [Json.valueAt?, Json.valueAt?, hfield]
    | some b =>
      have hfield := field?_merge_of_some existing hincoming hb
      rw [valueAt?_cons_of_some hb] at hnew
      cases ha : existing.field? name with
      | none =>
        rw [ha, Option.elim_none] at hfield
        rw [valueAt?_cons_of_some hfield, valueAt?_cons_of_none ha, hnew]
      | some a =>
        rw [ha, Option.elim_some] at hfield
        rw [valueAt?_cons_of_some hfield, valueAt?_cons_of_some ha]
        refine ih (hincoming.field? hb) hnew fun front hfront hne value hvalue => ?_
        refine hfronts (name :: front) (List.cons_prefix_cons.2 ⟨rfl, hfront⟩) ?_ value ?_
        · exact fun h => hne (List.cons.inj h).2
        · rw [valueAt?_cons_of_some hb, hvalue]

/-- Below a value of the incoming document that is no object nothing is held. -/
lemma valueAt?_merge_of_hidden {existing incoming : Json} {front : List String}
    (hincoming : incoming.Distinct) (hfront : front <+: path) (hne : front ≠ path)
    (hvalue : incoming.valueAt? front = some value) (hkind : value.kind ≠ .object) :
    (existing.merge incoming).valueAt? path = none := by
  -- what is held there is no object either
  cases hold : existing.valueAt? front with
  | none =>
    exact valueAt?_below hfront hne (valueAt?_merge_of_new hincoming hold hvalue) hkind
  | some old =>
    refine valueAt?_below hfront hne (valueAt?_merge_of_both hincoming hold hvalue) ?_
    rw [kind_merge]
    exact hkind

/-- The names of a merged object: the existing ones in their order, then the new ones in theirs. -/
lemma namesAt_merge (hincoming : incoming.Distinct) {fields : List (String × Json)}
    (hvalue : (existing.merge incoming).valueAt? path = some (.object fields)) :
    fields.map Prod.fst = existing.namesAt path ++
      (incoming.namesAt path).filter fun name => name ∉ existing.namesAt path := by
  cases hnew : incoming.valueAt? path with
  | none =>
    -- nothing above the path hides it, since the merged document has a value there
    have hfronts : ∀ front, front <+: path → front ≠ path →
        ∀ value, incoming.valueAt? front = some value → value.kind = .object := by
      intro front hfront hne value hfound
      by_contra hkind
      rw [valueAt?_merge_of_hidden hincoming hfront hne hfound hkind] at hvalue
      cases hvalue
    rw [valueAt?_merge_of_old hincoming hnew hfronts] at hvalue
    rw [namesAt_of_none hnew, namesAt_of_object hvalue, List.filter_nil, List.append_nil]
  | some new =>
    cases hold : existing.valueAt? path with
    | none =>
      rw [valueAt?_merge_of_new hincoming hold hnew] at hvalue
      rw [namesAt_of_none hold, namesAt_of_object (hnew.trans hvalue)]
      simp
    | some old =>
      rw [valueAt?_merge_of_both hincoming hold hnew, Option.some.injEq] at hvalue
      have hkind : new.kind = .object := by rw [← kind_merge old new, hvalue, kind]
      obtain ⟨ys, rfl⟩ := eq_object_of_kind hkind
      rw [namesAt_of_object hnew]
      by_cases hold' : old.kind = .object
      · obtain ⟨xs, rfl⟩ := eq_object_of_kind hold'
        rw [merge, object.injEq] at hvalue
        rw [namesAt_of_object hold, ← hvalue]
        exact map_fst_mergeFields (distinct_object.1 (hincoming.valueAt? hnew)).1
      · rw [merge_of_kind_ne fun h => hold' h, object.injEq] at hvalue
        rw [namesAt_of_kind hold hold', hvalue]
        simp

/-- What a merged document holds at a path, by what the two documents hold there. -/
structure Keeps (existing incoming merged : Json) (path : List String) : Prop where
  /-- Where both hold a value, the two are joined. -/
  both : ∀ old new, existing.valueAt? path = some old → incoming.valueAt? path = some new →
    ∃ value, merged.valueAt? path = some value ∧ Joined old new value
  /-- A value that only the incoming document holds is held. -/
  added : ∀ new, existing.valueAt? path = none → incoming.valueAt? path = some new →
    merged.valueAt? path = some new
  /-- Where the incoming document holds nothing and objects only on the way, the existing one is
  kept, value or not. -/
  kept : incoming.valueAt? path = none →
    (∀ front, front <+: path → front ≠ path →
      ∀ value, incoming.valueAt? front = some value → value.kind = .object) →
    merged.valueAt? path = existing.valueAt? path
  /-- Below a value of the incoming document that is no object nothing is held. -/
  hidden : ∀ front value, front <+: path → front ≠ path →
    incoming.valueAt? front = some value → value.kind ≠ .object → merged.valueAt? path = none
  /-- The names of an object: the existing ones in their order, then the new ones in theirs. -/
  names : ∀ fields, merged.valueAt? path = some (.object fields) →
    fields.map Prod.fst = existing.namesAt path ++
      (incoming.namesAt path).filter fun name => name ∉ existing.namesAt path
  /-- No name comes twice. -/
  nodup : ∀ fields, merged.valueAt? path = some (.object fields) → (fields.map Prod.fst).Nodup

/-- Merging loses nothing and makes nothing up: at every path of names the merged document holds
what the two documents hold there, joined, and it holds nothing else. -/
theorem merge_keeps_both (hexisting : existing.Distinct) (hincoming : incoming.Distinct)
    (path : List String) : Keeps existing incoming (existing.merge incoming) path where
  both old new hold hnew :=
    ⟨old.merge new, valueAt?_merge_of_both hincoming hold hnew, joined_merge old new⟩
  added _ hold hnew := valueAt?_merge_of_new hincoming hold hnew
  kept hnew hfronts := valueAt?_merge_of_old hincoming hnew hfronts
  hidden _ _ hfront hne hvalue hkind := valueAt?_merge_of_hidden hincoming hfront hne hvalue hkind
  names _ hvalue := namesAt_merge hincoming hvalue
  nodup fields hvalue := by
    rw [namesAt_merge hincoming hvalue]
    exact nodup_append_new (nodup_namesAt hexisting path) (nodup_namesAt hincoming path)

/-- Settings, and others that change some of them and hide a list. -/
def settings : Json :=
  .object [("editor", .object [("tab", .number (.int 4)), ("theme", .string "dark")]),
    ("paths", .array [.string "a"]), ("rules", .array [.null])]

/-- Settings that agree with the others in some places only. -/
def otherSettings : Json :=
  .object [("rules", .object [("strict", .bool true)]), ("paths", .array [.string "b"]),
    ("editor", .object [("font", .string "mono"), ("tab", .number (.int 2))])]

/-- Merged settings have what each of them says, and where both speak, what the merge makes of it.
-/
theorem settings_keep_both :
    settings.Distinct ∧ otherSettings.Distinct ∧
      (settings.merge otherSettings).valueAt? ["editor", "theme"] = some (.string "dark") ∧
      (settings.merge otherSettings).valueAt? ["editor", "font"] = some (.string "mono") ∧
      (settings.merge otherSettings).valueAt? ["paths"] =
        some (.array [.string "b", .string "a"]) ∧
      (settings.merge otherSettings).valueAt? ["paths", "theme"] = none ∧
      (settings.merge otherSettings).namesAt ["editor"] = ["tab", "theme", "font"] := by
  have hexisting : settings.Distinct := by simp [settings]
  have hincoming : otherSettings.Distinct := by simp [otherSettings]
  refine ⟨hexisting, hincoming, ?_, ?_, ?_, ?_, ?_⟩
  · refine (merge_keeps_both hexisting hincoming ["editor", "theme"]).kept rfl ?_
    intro front hfront hne value hvalue
    rcases List.prefix_cons_iff.1 hfront with rfl | ⟨rest, rfl, hrest⟩
    · cases hvalue
      rfl
    · rcases List.prefix_cons_iff.1 hrest with rfl | ⟨last, rfl, hlast⟩
      · cases hvalue
        rfl
      · exact absurd (by rw [List.prefix_nil.1 hlast]) hne
  · exact (merge_keeps_both hexisting hincoming ["editor", "font"]).added _ rfl rfl
  · obtain ⟨value, hvalue, hjoined⟩ :=
      (merge_keeps_both hexisting hincoming ["paths"]).both _ _ rfl rfl
    cases hjoined with
    | objects hold => cases hold
    | arrays => exact hvalue
    | replaced _ hkinds => exact absurd ⟨rfl, rfl⟩ hkinds
  · exact (merge_keeps_both hexisting hincoming ["paths", "theme"]).hidden ["paths"] _
      (by simp) (by simp) rfl (by simp [kind])
  · have hkeeps := merge_keeps_both hexisting hincoming ["editor"]
    obtain ⟨value, hvalue, hjoined⟩ := hkeeps.both _ _ rfl rfl
    obtain ⟨fields, rfl⟩ : ∃ fields, value = .object fields := by
      cases hjoined with
      | objects _ _ hkind => exact eq_object_of_kind hkind
      | replaced hkinds => exact absurd ⟨rfl, rfl⟩ hkinds
    rw [namesAt_of_object hvalue, hkeeps.names fields hvalue]
    decide

end ConfigPack.Json
