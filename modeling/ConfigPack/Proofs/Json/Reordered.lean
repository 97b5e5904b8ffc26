import ConfigPack.Proofs.Json.Path

/-!
# Merging in either order

Two documents are free of conflict when each path that leads to a value in both leads to an object
in both.  They can be merged in either order: the two results differ in the order of names only, at
any level (`merge_either_order`).
-/

namespace ConfigPack.Json

/-- A document is another one but for the order of names, in its objects at any level. -/
inductive Reordered : Json → Json → Prop
  | null : Reordered .null .null
  | bool (value : Bool) : Reordered (.bool value) (.bool value)
  | number (value : Number) : Reordered (.number value) (.number value)
  | string (value : String) : Reordered (.string value) (.string value)
  | array {xs ys : List Json} : List.Forall₂ Reordered xs ys →
    Reordered (.array xs) (.array ys)
  | object {xs ys : List (String × Json)} : (xs.map Prod.fst).Perm (ys.map Prod.fst) →
    (∀ name x y, xs.lookup name = some x → ys.lookup name = some y → Reordered x y) →
    Reordered (.object xs) (.object ys)

/-- Wherever two documents both hold a value, both hold an object. -/
def ConflictFree (a b : Json) : Prop :=
  ∀ path x y, a.valueAt? path = some x → b.valueAt? path = some y →
    x.kind = .object ∧ y.kind = .object

variable {a b x y : Json} {xs ys : List (String × Json)} {name : String}

/-- A document with distinct names is a reordering of itself. -/
lemma Reordered.refl (h : a.Distinct) : Reordered a a := by
  induction h with
  | null => exact .null
  | bool => exact .bool _
  | number => exact .number _
  | string => exact .string _
  | array _ ih => exact .array (List.forall₂_same.2 ih)
  | @object fields _ _ ih =>
    apply Reordered.object (List.Perm.refl _)
    intro name x y hx hy
    obtain rfl : x = y := Option.some.inj (hx.symm.trans hy)
    exact ih _ (mem_of_lookup hx)

/-- Documents without conflicts are objects. -/
lemma ConflictFree.kinds (h : ConflictFree a b) : a.kind = .object ∧ b.kind = .object :=
  h [] a b rfl rfl

/-- Objects are free of conflict when the values of each common name are. -/
lemma conflictFree_object : ConflictFree (.object xs) (.object ys) ↔
    ∀ name x y, xs.lookup name = some x → ys.lookup name = some y → ConflictFree x y := by
  constructor
  · intro h name x y hx hy path u v hu hv
    apply h (name :: path) u v
    · rw [valueAt?, show (object xs).field? name = some x from hx, Option.bind_some, hu]
    · rw [valueAt?, show (object ys).field? name = some y from hy, Option.bind_some, hv]
  · intro h path u v hu hv
    cases path with
    | nil =>
      cases hu
      cases hv
      exact ⟨rfl, rfl⟩
    | cons name path =>
      obtain ⟨x, hx, hu⟩ := Option.bind_eq_some_iff.1 hu
      obtain ⟨y, hy, hv⟩ := Option.bind_eq_some_iff.1 hv
      exact h name x y hx hy path u v hu hv

/-- Merged either way round, fields have the same names. -/
lemma perm_mergeFields (hxs : (xs.map Prod.fst).Nodup) (hys : (ys.map Prod.fst).Nodup) :
    ((mergeFields xs ys).map Prod.fst).Perm ((mergeFields ys xs).map Prod.fst) := by
  apply (List.perm_ext_iff_of_nodup (nodup_mergeFields hxs hys) (nodup_mergeFields hys hxs)).2
  intro name
  rw [map_fst_mergeFields hys, map_fst_mergeFields hxs, List.mem_append, List.mem_append,
    List.mem_filter, List.mem_filter, decide_eq_true_eq, decide_eq_true_eq]
  tauto

/-- The fields of two objects are merged in either order when the values of each common name are. -/
lemma mergeFields_reordered (hxs : (Json.object xs).Distinct) (hys : (Json.object ys).Distinct)
    (hvalues : ∀ name x y, xs.lookup name = some x → ys.lookup name = some y →
      Reordered (x.merge y) (y.merge x)) :
    Reordered (.object (mergeFields xs ys)) (.object (mergeFields ys xs)) := by
  rw [distinct_object] at hxs hys
  apply Reordered.object (perm_mergeFields hxs.1 hys.1)
  intro name u v hu hv
  rw [lookup_mergeFields hys.1] at hu
  rw [lookup_mergeFields hxs.1] at hv
  -- a name that only one of them has keeps its value, and else the values are merged in turn
  cases hx : xs.lookup name with
  | none =>
    rw [hx, Option.merge_none_left] at hu
    rw [hx, hu, Option.merge_none_right] at hv
    cases hv
    exact .refl (hys.2 _ (mem_of_lookup hu))
  | some x =>
    cases hy : ys.lookup name with
    | none =>
      rw [hx, hy, Option.merge_none_right] at hu
      rw [hx, hy, Option.merge_none_left] at hv
      cases hu
      cases hv
      exact .refl (hxs.2 _ (mem_of_lookup hx))
    | some y =>
      rw [hx, hy, Option.merge_some_some] at hu
      rw [hx, hy, Option.merge_some_some] at hv
      cases hu
      cases hv
      exact hvalues name x y hx hy

/-- Documents without conflict are merged in either order, but for the order of names. -/
theorem merge_either_order (ha : a.Distinct) (hb : b.Distinct) (h : ConflictFree a b) :
    Reordered (a.merge b) (b.merge a) := by
  induction ha generalizing b with
  | @object xs hnames hfields ih =>
    obtain ⟨ys, rfl⟩ := eq_object_of_kind h.kinds.2
    rw [merge, merge]
    apply mergeFields_reordered (.object hnames hfields) hb
    intro name x y hx hy
    exact ih _ (mem_of_lookup hx) (hb.field? hy) (conflictFree_object.1 h name x y hx hy)
  | _ => cases h.kinds.1

/-- The options of a server, and others that add to them at two levels. -/
def serverOptions : Json :=
  .object [("server", .object [("tls", .object [("port", .number (.int 443))]),
    ("host", .string "a")]), ("paths", .array [.string "b"])]

/-- Options with fields in another order. -/
def clientOptions : Json :=
  .object [("debug", .bool true), ("server", .object [("tls", .object [("strict", .null)])])]

/-- Options without conflicts are merged to the same but for the order of their names. -/
theorem options_merge_either_order :
    serverOptions.Distinct ∧ clientOptions.Distinct ∧ ConflictFree serverOptions clientOptions ∧
      Reordered (serverOptions.merge clientOptions) (clientOptions.merge serverOptions) ∧
      (serverOptions.merge clientOptions).namesAt [] = ["server", "paths", "debug"] ∧
      (clientOptions.merge serverOptions).namesAt [] = ["debug", "server", "paths"] := by
  have ha : serverOptions.Distinct := by simp [serverOptions]
  have hb : clientOptions.Distinct := by simp [clientOptions]
  have hfree : ConflictFree serverOptions clientOptions := by
    apply conflictFree_object.2
    intro name x y hx hy
    -- the second document has two names, and the first one knows only the second of them
    rcases List.mem_pair.1 (mem_of_lookup hy) with hname | hname
    · cases hname
      cases hx
    · cases hname
      cases hx
      apply conflictFree_object.2
      intro name x y hx hy
      cases List.mem_singleton.1 (mem_of_lookup hy)
      cases hx
      apply conflictFree_object.2
      intro name x y hx hy
      cases List.mem_singleton.1 (mem_of_lookup hy)
      cases hx
  refine ⟨ha, hb, hfree, merge_either_order ha hb hfree, ?_, ?_⟩
  · decide
  · decide

end ConfigPack.Json
