import ConfigPack.Proofs.Json.Path

/-!
# Laws of merging

Three documents are merged into one in any grouping when their kinds do not clash
(`merge_assoc_of_no_clash`).  A document that is merged in once more changes nothing exactly when no
list with items is reached in it (`merge_again_eq_iff`): such a list is put in front each time.
-/

namespace ConfigPack.Json

variable {a b c : Json} {xs ys zs : List (String × Json)}

/-! ## Grouping -/

/-- The kind of the value that a path leads to. -/
def kindAt? (document : Json) (path : List String) : Option Kind :=
  (document.valueAt? path).map kind

/-- At a path the first and the third of three documents both hold an object or both hold an array,
and the second holds a value of another kind. -/
def ClashAt (a b c : Json) (path : List String) : Prop :=
  ∃ k other, (k = .object ∨ k = .array) ∧ a.kindAt? path = some k ∧ c.kindAt? path = some k ∧
    b.kindAt? path = some other ∧ other ≠ k

/-- The kind at a path is that at its rest in the field of its first name. -/
lemma kindAt?_cons {document value : Json} {name : String} (h : document.field? name = some value)
    (path : List String) : document.kindAt? (name :: path) = value.kindAt? path := by
  rw [kindAt?, valueAt?_cons_of_some h, kindAt?]

/-- A clash below a name is one of the three values of that name. -/
lemma clashAt_cons {name : String} {path : List String} :
    ClashAt a b c (name :: path) ↔ ∃ x y z, a.field? name = some x ∧ b.field? name = some y ∧
      c.field? name = some z ∧ ClashAt x y z path := by
  constructor
  · rintro ⟨k, other, hk, ha, hc, hb, hne⟩
    obtain ⟨_, hvalue, rfl⟩ := Option.map_eq_some_iff.1 ha
    obtain ⟨x, hx, _⟩ := Option.bind_eq_some_iff.1 hvalue
    obtain ⟨_, hvalue, rfl⟩ := Option.map_eq_some_iff.1 hb
    obtain ⟨y, hy, _⟩ := Option.bind_eq_some_iff.1 hvalue
    obtain ⟨_, hvalue, _⟩ := Option.map_eq_some_iff.1 hc
    obtain ⟨z, hz, _⟩ := Option.bind_eq_some_iff.1 hvalue
    rw [kindAt?_cons hx] at ha
    rw [kindAt?_cons hy] at hb
    rw [kindAt?_cons hz] at hc
    exact ⟨x, y, z, hx, hy, hz, _, _, hk, ha, hc, hb, hne⟩
  · rintro ⟨x, y, z, hx, hy, hz, k, other, hk, ha, hc, hb, hne⟩
    rw [← kindAt?_cons hx] at ha
    rw [← kindAt?_cons hy] at hb
    rw [← kindAt?_cons hz] at hc
    exact ⟨k, other, hk, ha, hc, hb, hne⟩

/-- Where the first and the second value are of one kind, there is no clash. -/
lemma not_clashAt_nil (h : a.kind = b.kind) : ¬ ClashAt a b c [] := by
  rintro ⟨k, other, _, ha, _, hb, hne⟩
  obtain rfl : a.kind = k := Option.some.inj ha
  obtain rfl : b.kind = other := Option.some.inj hb
  exact hne h.symm

/-- The names of three objects come in the same order in any grouping. -/
lemma map_fst_mergeFields_assoc (hys : (ys.map Prod.fst).Nodup) (hzs : (zs.map Prod.fst).Nodup) :
    (mergeFields (mergeFields xs ys) zs).map Prod.fst =
      (mergeFields xs (mergeFields ys zs)).map Prod.fst := by
  rw [map_fst_mergeFields hzs, map_fst_mergeFields hys,
    map_fst_mergeFields (nodup_mergeFields hys hzs), map_fst_mergeFields hzs, List.filter_append,
    List.filter_filter, List.append_assoc]
  congr 2
  -- a name of the last object is new to both others
  refine List.filter_congr fun name _ => ?_
  by_cases hname : name ∈ xs.map Prod.fst
  · simp [hname]
  · simp [hname]

/-- The fields of three objects are merged in any grouping when the values of each name are. -/
lemma mergeFields_assoc (hxs : (xs.map Prod.fst).Nodup) (hys : (ys.map Prod.fst).Nodup)
    (hzs : (zs.map Prod.fst).Nodup)
    (hvalues : ∀ name x y z, xs.lookup name = some x → ys.lookup name = some y →
      zs.lookup name = some z → (x.merge y).merge z = x.merge (y.merge z)) :
    mergeFields (mergeFields xs ys) zs = mergeFields xs (mergeFields ys zs) := by
  refine fields_ext (nodup_mergeFields (nodup_mergeFields hxs hys) hzs)
    (map_fst_mergeFields_assoc hys hzs) fun name => ?_
  rw [lookup_mergeFields hzs, lookup_mergeFields hys,
    lookup_mergeFields (nodup_mergeFields hys hzs), lookup_mergeFields hzs]
  cases hx : xs.lookup name with
  | none => rw [Option.merge_none_left, Option.merge_none_left]
  | some x =>
    cases hy : ys.lookup name with
    | none => rw [Option.merge_none_right, Option.merge_none_left]
    | some y =>
      cases hz : zs.lookup name with
      | none => rw [Option.merge_none_right, Option.merge_none_right]
      | some z =>
        simp only [Option.merge_some_some]
        rw [hvalues name x y z hx hy hz]

/-- Documents that are not all objects are merged in any grouping when their kinds do not clash. -/
lemma merge_assoc_of_kinds
    (hobjects : ¬ (a.kind = .object ∧ b.kind = .object ∧ c.kind = .object))
    (h : ¬ ClashAt a b c []) : (a.merge b).merge c = a.merge (b.merge c) := by
  by_cases hbc : b.kind = c.kind
  · by_cases hab : a.kind = b.kind
    · cases hkind : c.kind with
      | object => exact absurd ⟨hab.trans (hbc.trans hkind), hbc.trans hkind, hkind⟩ hobjects
      | array =>
        obtain ⟨xs, rfl⟩ := eq_array_of_kind (hab.trans (hbc.trans hkind))
        obtain ⟨ys, rfl⟩ := eq_array_of_kind (hbc.trans hkind)
        obtain ⟨zs, rfl⟩ := eq_array_of_kind hkind
        simp only [merge, List.append_assoc]
      | scalar => rw [merge_of_scalar hkind, merge_of_scalar hkind, merge_of_scalar hkind]
    · have hne : a.kind ≠ (b.merge c).kind := by
        rw [kind_merge, ← hbc]
        exact hab
      rw [merge_of_kind_ne hab, merge_of_kind_ne hne]
  · have hne : (a.merge b).kind ≠ c.kind := by
      rw [kind_merge]
      exact hbc
    rw [merge_of_kind_ne hbc, merge_of_kind_ne hne]
    -- the second value is gone on both sides, so it must not part two values of one kind
    by_cases hac : a.kind = c.kind
    · cases hkind : c.kind with
      | object =>
        refine absurd ⟨.object, b.kind, .inl rfl, ?_, ?_, rfl, hkind ▸ hbc⟩ h
        · exact congrArg some (hac.trans hkind)
        · exact congrArg some hkind
      | array =>
        refine absurd ⟨.array, b.kind, .inr rfl, ?_, ?_, rfl, hkind ▸ hbc⟩ h
        · exact congrArg some (hac.trans hkind)
        · exact congrArg some hkind
      | scalar => rw [merge_of_scalar hkind]
    · rw [merge_of_kind_ne hac]

/-- Three documents whose kinds do not clash are merged into one document in any grouping, the order
of names and of items included. -/
theorem merge_assoc_of_no_clash (ha : a.Distinct) (hb : b.Distinct) (hc : c.Distinct)
    (h : ∀ path, ¬ ClashAt a b c path) : (a.merge b).merge c = a.merge (b.merge c) := by
  induction hc generalizing a b with
  | @object zs hzs hvalues ih =>
    by_cases hobjects : a.kind = .object ∧ b.kind = .object
    · obtain ⟨xs, rfl⟩ := eq_object_of_kind hobjects.1
      obtain ⟨ys, rfl⟩ := eq_object_of_kind hobjects.2
      rw [distinct_object] at ha hb
      simp only [merge]
      congr 1
      refine mergeFields_assoc ha.1 hb.1 hzs fun name x y z hx hy hz => ?_
      have hmem := mem_of_lookup hz
      refine ih _ hmem (ha.2 _ (mem_of_lookup hx)) (hb.2 _ (mem_of_lookup hy)) fun path hclash => ?_
      exact h (name :: path) (clashAt_cons.2 ⟨x, y, z, hx, hy, hz, hclash⟩)
    · exact merge_assoc_of_kinds (fun hall => hobjects ⟨hall.1, hall.2.1⟩) (h [])
  | _ =>
    refine merge_assoc_of_kinds ?_ (h [])
    rintro ⟨-, -, hkind⟩
    cases hkind

/-- Preferences with a list, others without it, and some that bring it again. -/
def preferences : Json :=
  .object [("hosts", .array [.string "a"]), ("ports", .object [("a", .number (.int 1))])]

/-- Preferences that go on with the same items. -/
def morePreferences : Json := .object [("ports", .object [("b", .number (.int 2))])]

/-- Preferences that come last. -/
def lastPreferences : Json :=
  .object [("debug", .bool false), ("ports", .object [("c", .number (.int 3)),
    ("a", .number (.int 4))]), ("hosts", .array [.string "c"])]

/-- Three documents without a clash are merged to the same in both groupings. -/
theorem preferences_merge_in_any_grouping :
    preferences.Distinct ∧ morePreferences.Distinct ∧ lastPreferences.Distinct ∧
      (∀ path, ¬ ClashAt preferences morePreferences lastPreferences path) ∧
      (preferences.merge morePreferences).merge lastPreferences =
        preferences.merge (morePreferences.merge lastPreferences) := by
  have ha : preferences.Distinct := by simp [preferences]
  have hb : morePreferences.Distinct := by simp [morePreferences]
  have hc : lastPreferences.Distinct := by simp [lastPreferences]
  have hclash : ∀ path, ¬ ClashAt preferences morePreferences lastPreferences path := by
    intro path h
    cases path with
    | nil => exact not_clashAt_nil rfl h
    | cons name path =>
      obtain ⟨x, y, z, hx, hy, _, h⟩ := clashAt_cons.1 h
      -- the second document has the ports only, and among them none of the first one
      obtain ⟨rfl, rfl⟩ := Prod.mk.inj (List.mem_singleton.1 (mem_of_lookup hy))
      cases hx
      cases path with
      | nil => exact not_clashAt_nil rfl h
      | cons name path =>
        obtain ⟨x, y, z, hx, hy, _, h⟩ := clashAt_cons.1 h
        obtain ⟨rfl, rfl⟩ := Prod.mk.inj (List.mem_singleton.1 (mem_of_lookup hy))
        cases hx
  exact ⟨ha, hb, hc, hclash, merge_assoc_of_no_clash ha hb hc hclash⟩

/-! ## Repetition -/

/-- A list with items that is merged in is put in front each time. -/
lemma merge_again_grows {items : List Json} {path : List String} (hb : b.Distinct)
    (h : b.valueAt? path = some (.array items)) :
    ∃ held, (a.merge b).valueAt? path = some (.array held) ∧
      ((a.merge b).merge b).valueAt? path = some (.array (items ++ held)) := by
  obtain ⟨held, hheld⟩ : ∃ held, (a.merge b).valueAt? path = some (.array held) := by
    cases hold : a.valueAt? path with
    | none => exact ⟨items, valueAt?_merge_of_new hb hold h⟩
    | some old =>
      obtain ⟨held, hheld⟩ := eq_array_of_kind (kind_merge old (.array items))
      exact ⟨held, (valueAt?_merge_of_both hb hold h).trans (congrArg some hheld)⟩
  exact ⟨held, hheld, valueAt?_merge_of_both hb hheld h⟩

/-- No list with items is reached through objects. -/
def ReachesNoItems (document : Json) : Prop :=
  ∀ path items, document.valueAt? path = some (.array items) → items = []

/-- A field of a document that reaches no items reaches none. -/
lemma ReachesNoItems.field? {value : Json} {name : String} (h : b.ReachesNoItems)
    (hvalue : b.field? name = some value) : value.ReachesNoItems := by
  intro path items hitems
  apply h (name :: path) items
  rw [valueAt?_cons_of_some hvalue, hitems]

/-- Nothing merged with a document is that document. -/
lemma null_merge (document : Json) : null.merge document = document := by
  cases document <;> rfl

/-- A document in which no list with items is reached changes nothing when it is merged in once
more. -/
lemma merge_again (hb : b.Distinct) (h : b.ReachesNoItems) (a : Json) :
    (a.merge b).merge b = a.merge b := by
  induction hb generalizing a with
  | @object ys hys hvalues ih =>
    obtain ⟨held, hheld⟩ := eq_object_of_kind (kind_merge a (.object ys))
    rw [hheld, merge]
    congr 1
    refine mergeFields_eq_self fun field hfield => ?_
    have hagain := ih field hfield (h.field? (lookup_of_mem hys hfield))
    have hfound : (object held).field? field.1 = _ :=
      hheld ▸ field?_merge_of_some a (.object hys hvalues) (lookup_of_mem hys hfield)
    refine ⟨_, hfound, ?_⟩
    cases a.field? field.1 with
    | none =>
      have hself := hagain null
      rw [null_merge] at hself
      exact hself
    | some old => exact hagain old
  | @array items _ _ =>
    obtain rfl : items = [] := h [] items rfl
    cases a <;> rfl
  | _ => rw [merge_of_scalar rfl, merge_of_scalar rfl]

/-- Merging a document in once more changes nothing exactly when no list with items is reached in it
through objects. -/
theorem merge_again_eq_iff (hb : b.Distinct) :
    (a.merge b).merge b = a.merge b ↔ b.ReachesNoItems := by
  constructor
  · intro hsame path items hitems
    obtain ⟨held, hheld, hagain⟩ := merge_again_grows (a := a) hb hitems
    rw [hsame, hheld, Option.some.injEq, array.injEq] at hagain
    exact List.append_left_eq_self.1 hagain.symm
  · intro h
    exact merge_again hb h a

/-- Preferences in which all lists are empty. -/
def quietPreferences : Json :=
  .object [("hosts", .array []), ("ports", .object [("a", .null), ("b", .array [])])]

/-- One document may be merged twice and another may not. -/
theorem quiet_preferences_merge_once :
    quietPreferences.Distinct ∧ ((preferences.merge quietPreferences).merge quietPreferences =
      preferences.merge quietPreferences ↔ quietPreferences.ReachesNoItems) ∧
    lastPreferences.Distinct ∧ (preferences.merge lastPreferences).merge lastPreferences ≠
      preferences.merge lastPreferences := by
  have hquiet : quietPreferences.Distinct := by simp [quietPreferences]
  have hlast : lastPreferences.Distinct := by simp [lastPreferences]
  refine ⟨hquiet, merge_again_eq_iff hquiet, hlast, fun hsame => ?_⟩
  exact absurd ((merge_again_eq_iff hlast).1 hsame ["hosts"] _ rfl) (by simp)

end ConfigPack.Json
