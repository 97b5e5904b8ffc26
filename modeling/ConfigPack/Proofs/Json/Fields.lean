import ConfigPack.Proofs.Json.Within

/-!
# Merged fields

The fields of a merged object, by their names: a name that only one side has keeps its value, and a
name that both have gets the values merged (`lookup_mergeFields`).  The existing names come first,
the new ones behind them (`map_fst_mergeFields`).  Fields with different names are known from their
names in order and their values (`fields_ext`).
-/

namespace ConfigPack.Json

variable {fields fields' existing incoming : List (String × Json)} {name : String}

/-! ## Fields by name -/

/-- The first field of a name is what is found. -/
lemma lookup_cons (name : String) (value : Json) (rest : List (String × Json)) (key : String) :
    ((name, value) :: rest).lookup key = if key = name then some value else rest.lookup key := by
  rw [List.lookup_cons]
  by_cases hkey : key = name
  · rw [if_pos hkey, hkey, beq_self_eq_true]
  · rw [if_neg hkey, beq_false_of_ne hkey]

/-- Nothing is found for a name that no field has. -/
lemma lookup_eq_none_iff : fields.lookup name = none ↔ name ∉ fields.map Prod.fst := by
  induction fields with
  | nil => simp
  | cons field rest ih =>
    rw [lookup_cons, List.map_cons, List.mem_cons, not_or, ← ih]
    by_cases hname : name = field.1 <;> simp [hname]

/-- What is found is the value of a field. -/
lemma mem_of_lookup {value : Json} (h : fields.lookup name = some value) :
    (name, value) ∈ fields := by
  obtain ⟨front, back, rfl, _⟩ := List.lookup_eq_some_iff.1 h
  exact List.mem_append_right _ List.mem_cons_self

/-- Where the names differ, every field is found. -/
lemma lookup_of_mem {value : Json} (hnames : (fields.map Prod.fst).Nodup)
    (h : (name, value) ∈ fields) : fields.lookup name = some value := by
  cases hfound : fields.lookup name with
  | none => exact absurd (List.mem_map_of_mem h) (lookup_eq_none_iff.1 hfound)
  | some found =>
    have hsame := List.inj_on_of_nodup_map hnames (mem_of_lookup hfound) h rfl
    injection hsame with _ hvalue
    rw [hvalue]

/-- Fields with different names are known from their names in order and their values. -/
lemma fields_ext (hnames : (fields.map Prod.fst).Nodup)
    (horder : fields.map Prod.fst = fields'.map Prod.fst)
    (hvalues : ∀ name, fields.lookup name = fields'.lookup name) : fields = fields' := by
  induction fields generalizing fields' with
  | nil => exact (List.map_eq_nil_iff.1 horder.symm).symm
  | cons field rest ih =>
    cases fields' with
    | nil => cases horder
    | cons field' rest' =>
      obtain ⟨name, value⟩ := field
      obtain ⟨name', value'⟩ := field'
      rw [List.map_cons, List.map_cons, List.cons.injEq] at horder
      obtain ⟨rfl, horder⟩ : name = name' ∧ _ := horder
      rw [List.map_cons, List.nodup_cons] at hnames
      have hvalue := hvalues name
      rw [lookup_cons, lookup_cons, if_pos rfl, if_pos rfl] at hvalue
      cases hvalue
      congr 1
      refine ih hnames.2 horder fun key => ?_
      by_cases hkey : key = name
      · -- the first name is in neither rest
        rw [hkey, lookup_eq_none_iff.2 hnames.1, lookup_eq_none_iff.2 (horder ▸ hnames.1)]
      · have hbehind := hvalues key
        rwa [lookup_cons, lookup_cons, if_neg hkey, if_neg hkey] at hbehind

/-! ## One merged field -/

/-- After a change its name has the changed value or the new one, and all others have theirs. -/
lemma lookup_upsert (name : String) (change : Json → Json) (new : Json) (key : String)
    (fields : List (String × Json)) : (upsert name change new fields).lookup key =
      if key = name then some ((fields.lookup name).elim new change) else fields.lookup key := by
  induction fields with
  | nil => rw [upsert, lookup_cons, List.lookup_nil, List.lookup_nil, Option.elim_none]
  | cons field rest ih =>
    obtain ⟨n, v⟩ := field
    rw [upsert]
    by_cases hname : n = name
    · rw [if_pos hname, lookup_cons, lookup_cons, lookup_cons, if_pos hname.symm, hname,
        Option.elim_some]
      by_cases hkey : key = name
      · rw [if_pos hkey, if_pos hkey]
      · rw [if_neg hkey, if_neg hkey, if_neg hkey]
    · rw [if_neg hname, lookup_cons, lookup_cons, lookup_cons, ih, if_neg (Ne.symm hname)]
      by_cases hkey : key = n
      · rw [if_pos hkey, if_pos hkey, if_neg fun h => hname (hkey.symm.trans h)]
      · rw [if_neg hkey, if_neg hkey]

/-- A field that stays as it is when it is changed. -/
lemma upsert_eq_self {change : Json → Json} {new old : Json} (hold : fields.lookup name = some old)
    (hchange : change old = old) : upsert name change new fields = fields := by
  induction fields with
  | nil => cases hold
  | cons field rest ih =>
    obtain ⟨n, v⟩ := field
    rw [lookup_cons] at hold
    rw [upsert]
    by_cases hname : n = name
    · rw [if_pos hname.symm] at hold
      cases hold
      rw [if_pos hname, hchange]
    · rw [if_neg (Ne.symm hname)] at hold
      rw [if_neg hname, ih hold]

/-! ## All merged fields -/

/-- A field of a merged object has both values merged, or the only value there is. -/
lemma lookup_mergeFields (hnames : (incoming.map Prod.fst).Nodup) (key : String) :
    (mergeFields existing incoming).lookup key =
      Option.merge merge (existing.lookup key) (incoming.lookup key) := by
  induction incoming generalizing existing with
  | nil => rw [mergeFields, List.lookup_nil, Option.merge_none_right]
  | cons field rest ih =>
    obtain ⟨name, value⟩ := field
    rw [List.map_cons, List.nodup_cons] at hnames
    rw [mergeFields, mergeField, ih hnames.2, lookup_upsert, lookup_cons]
    by_cases hkey : key = name
    · -- the name does not come again
      have hrest : rest.lookup name = none := lookup_eq_none_iff.2 hnames.1
      rw [if_pos hkey, if_pos hkey, hkey, hrest, Option.merge_none_right]
      cases existing.lookup name <;> rfl
    · rw [if_neg hkey, if_neg hkey]

/-- The names of a merged object: the existing ones in their order, then the new ones in theirs. -/
lemma map_fst_mergeFields (hnames : (incoming.map Prod.fst).Nodup) :
    (mergeFields existing incoming).map Prod.fst = existing.map Prod.fst ++
      (incoming.map Prod.fst).filter fun name => name ∉ existing.map Prod.fst := by
  induction incoming generalizing existing with
  | nil => rw [mergeFields, List.map_nil, List.filter_nil, List.append_nil]
  | cons field rest ih =>
    obtain ⟨name, value⟩ := field
    rw [List.map_cons, List.nodup_cons] at hnames
    rw [mergeFields, mergeField, ih hnames.2, map_fst_upsert, List.map_cons]
    by_cases hname : name ∈ existing.map Prod.fst
    · rw [if_pos hname, List.filter_cons_of_neg (by simpa using hname)]
    · rw [if_neg hname, List.filter_cons_of_pos (by simpa using hname), List.append_assoc,
        List.singleton_append]
      congr 2
      refine List.filter_congr fun other hother => ?_
      have hne : other ≠ name := fun h => hnames.1 (h ▸ hother)
      simp [hne]

/-- Names with the new ones of others behind them are different. -/
lemma nodup_append_new {names others : List String} (hnames : names.Nodup) (hothers : others.Nodup) :
    (names ++ others.filter fun name => name ∉ names).Nodup := by
  refine hnames.append (hothers.filter _) ?_
  intro name hold hnew
  rw [List.mem_filter, decide_eq_true_eq] at hnew
  exact hnew.2 hold

/-- Merged fields have different names when those of both sides do. -/
lemma nodup_mergeFields (hexisting : (existing.map Prod.fst).Nodup)
    (hincoming : (incoming.map Prod.fst).Nodup) :
    ((mergeFields existing incoming).map Prod.fst).Nodup := by
  rw [map_fst_mergeFields hincoming]
  exact nodup_append_new hexisting hincoming

/-- Nothing changes when every field is there and keeps its value. -/
lemma mergeFields_eq_self (h : ∀ field ∈ incoming, ∃ old,
    existing.lookup field.1 = some old ∧ merge old field.2 = old) :
    mergeFields existing incoming = existing := by
  induction incoming with
  | nil => rw [mergeFields]
  | cons field rest ih =>
    rw [List.forall_mem_cons] at h
    obtain ⟨⟨old, hold, hmerge⟩, hrest⟩ := h
    obtain ⟨name, value⟩ := field
    rw [mergeFields, mergeField, upsert_eq_self hold hmerge]
    exact ih hrest

end ConfigPack.Json
