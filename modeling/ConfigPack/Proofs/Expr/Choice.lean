import ConfigPack.Expr
import Mathlib.Tactic.Lemma

/-!
# Choices

Nodes of the kind `either` that stand in one another make up a tree of choices.  What it gives is
decided by one of its leaves: the first one that fails or is truthy, or the last one when there is
none (`Operand.decided`).  Leaves behind the one that decides are not looked at, and the shape of
the tree does not matter (`evaluate_either`).
-/

namespace ConfigPack

mutual

/-- The leaves of a tree of choices from left to right; an expression of another kind is a leaf. -/
def Expr.leaves : Expr → List Operand
  | .condition comparison a b outcome => [.nested (.condition comparison a b outcome)]
  | .format a b template => [.nested (.format a b template)]
  | .either a b => a.leaves ++ b.leaves

/-- The leaves of an operand; a literal is a leaf. -/
def Operand.leaves : Operand → List Operand
  | .literal value => [.literal value]
  | .nested node => node.leaves

end

/-- The value of a leaf of a tree that is evaluated with a fallback: an expression is evaluated with
the fallback if that is truthy, and with true if it is not. -/
def leafValue (env : ParameterEnv) (fallback : Value) : Operand → Except Mismatch Value
  | .literal value => (Operand.literal value).evaluate env fallback
  | .nested node => node.evaluate env (if fallback.isTruthy then fallback else .bool true)

/-- All leaves of a list have values, and none of these is truthy. -/
def PassedOver (value : Operand → Except Mismatch Value) (leaves : List Operand) : Prop :=
  ∀ leaf ∈ leaves, ∃ v, value leaf = .ok v ∧ v.isTruthy = false

/-- The leaf between two lists decides: those before it are passed over, and it is not, unless it is
the last one. -/
structure Decides (value : Operand → Except Mismatch Value) (front : List Operand) (leaf : Operand)
    (back : List Operand) : Prop where
  before : PassedOver value front
  here : back = [] ∨ ∀ v, value leaf = .ok v → v.isTruthy = true

/-- One of the leaves decides, and the result is its value. -/
def DecidedBy (value : Operand → Except Mismatch Value) (leaves : List Operand)
    (result : Except Mismatch Value) : Prop :=
  ∃ front leaf back, leaves = front ++ leaf :: back ∧ Decides value front leaf back ∧
    result = value leaf

variable {env : ParameterEnv} {fallback : Value} {a b leaf leaf' : Operand}
  {value : Operand → Except Mismatch Value} {front front' back back' : List Operand}

/-! ## The leaf that decides -/

/-- A leaf that decides is not passed over, unless it is the last one. -/
lemma Decides.eq_nil (h : Decides value front leaf back) (hpassed : PassedOver value front')
    (hmem : leaf ∈ front') : back = [] := by
  obtain ⟨v, hvalue, hfalsy⟩ := hpassed leaf hmem
  refine h.here.resolve_right fun htruthy => ?_
  rw [htruthy v hvalue] at hfalsy
  cases hfalsy

/-- No two leaves of a tree decide. -/
lemma Decides.unique (h : Decides value front leaf back) (h' : Decides value front' leaf' back')
    (hsame : front ++ leaf :: back = front' ++ leaf' :: back') : leaf = leaf' := by
  rcases List.append_eq_append_iff.1 hsame with ⟨between, rfl, hrest⟩ | ⟨between, rfl, hrest⟩
  · cases between with
    | nil => exact (List.cons.inj hrest).1
    | cons o between =>
      obtain ⟨rfl, hback⟩ := List.cons.inj hrest
      rw [h.eq_nil h'.before (List.mem_append_right front List.mem_cons_self)] at hback
      exact absurd hback.symm (List.append_ne_nil_of_right_ne_nil _ (List.cons_ne_nil _ _))
  · cases between with
    | nil => exact (List.cons.inj hrest).1.symm
    | cons o between =>
      obtain ⟨rfl, hback⟩ := List.cons.inj hrest
      rw [h'.eq_nil h.before (List.mem_append_right front' List.mem_cons_self)] at hback
      exact absurd hback.symm (List.append_ne_nil_of_right_ne_nil _ (List.cons_ne_nil _ _))

/-- The leaf that decides gives the result. -/
lemma DecidedBy.eq (h : Decides value front leaf back) {result : Except Mismatch Value}
    (hresult : DecidedBy value (front ++ leaf :: back) result) : result = value leaf := by
  obtain ⟨front', leaf', back', hsame, h', rfl⟩ := hresult
  rw [h.unique h' hsame]

/-- A truthy leaf decides behind leaves that are not. -/
lemma decides_of_truthy {v : Value} (hbefore : PassedOver value front) (hvalue : value leaf = .ok v)
    (htruthy : v.isTruthy = true) : Decides value front leaf back := by
  refine ⟨hbefore, .inr fun v' hv' => ?_⟩
  rw [hvalue] at hv'
  cases hv'
  exact htruthy

/-- So does a leaf that fails. -/
lemma decides_of_error {m : Mismatch} (hbefore : PassedOver value front)
    (hvalue : value leaf = .error m) : Decides value front leaf back := by
  refine ⟨hbefore, .inr fun v hv => ?_⟩
  rw [hvalue] at hv
  cases hv

/-- A single leaf decides. -/
lemma decidedBy_single (leaf : Operand) : DecidedBy value [leaf] (value leaf) := by
  refine ⟨[], leaf, [], rfl, ⟨?_, .inl rfl⟩, rfl⟩
  intro o ho
  cases ho

/-! ## Trees -/

/-- Nesting a tree more deeply does not change what its leaves are evaluated with. -/
lemma leafValue_operandFallback (env : ParameterEnv) (fallback : Value) :
    leafValue env (operandFallback fallback) = leafValue env fallback := by
  have htruthy : (operandFallback fallback).isTruthy = true := by
    rw [operandFallback]
    split
    next h => exact h
    next => rfl
  funext leaf
  cases leaf with
  | literal value => cases value <;> rfl
  | nested node =>
    rw [leafValue, if_pos htruthy]
    rfl

/-- The leaf that decides for the first operand decides for both, unless its value is not truthy. -/
lemma DecidedBy.either (ha : DecidedBy value a.leaves (a.evaluate env fallback))
    (hb : DecidedBy value b.leaves (b.evaluate env fallback)) :
    DecidedBy value (Expr.either a b).leaves ((Expr.either a b).evaluate env fallback) := by
  obtain ⟨front, leaf, back, hleaves, hdecides, hvalue⟩ := ha
  rw [Expr.leaves, Expr.evaluate, hvalue, hleaves, List.append_assoc, List.cons_append]
  -- the leaf that decides the first operand decides both, unless it is the last and not truthy
  cases hleaf : value leaf with
  | error m =>
    refine ⟨front, leaf, back ++ b.leaves, rfl, decides_of_error hdecides.before hleaf, ?_⟩
    rw [hleaf]
    rfl
  | ok v =>
    by_cases htruthy : v.isTruthy = true
    · refine ⟨front, leaf, back ++ b.leaves, rfl, ?_, ?_⟩
      · exact decides_of_truthy hdecides.before hleaf htruthy
      · rw [hleaf]
        exact if_pos htruthy
    · -- the leaf was the last one of the first operand, so one of the second operand decides
      obtain rfl : back = [] := hdecides.here.resolve_right fun h => htruthy (h v hleaf)
      obtain ⟨front', leaf', back', hleaves', hdecides', hvalue'⟩ := hb
      refine ⟨front ++ leaf :: front', leaf', back', ?_, ⟨?_, hdecides'.here⟩, ?_⟩
      · rw [hleaves', List.nil_append, List.append_assoc, List.cons_append]
      · intro o ho
        rcases List.mem_append.1 ho with ho | ho
        · exact hdecides.before o ho
        · rcases List.mem_cons.1 ho with rfl | ho
          · exact ⟨v, hleaf, Bool.eq_false_iff.2 htruthy⟩
          · exact hdecides'.before o ho
      · rw [← hvalue']
        exact if_neg htruthy

mutual

/-- What an operand gives is decided by one of its leaves. -/
lemma Operand.decided (env : ParameterEnv) : ∀ (op : Operand) (fallback : Value),
    DecidedBy (leafValue env fallback) op.leaves (op.evaluate env fallback)
  | .literal value, _ => decidedBy_single (.literal value)
  | .nested node, fallback => Expr.decided env node fallback

/-- A node is decided by its leaves. -/
lemma Expr.decided (env : ParameterEnv) : ∀ (node : Expr) (fallback : Value),
    DecidedBy (leafValue env fallback) node.leaves (node.evaluate env (operandFallback fallback))
  | .condition comparison a b outcome, _ =>
    decidedBy_single (.nested (.condition comparison a b outcome))
  | .format a b template, _ => decidedBy_single (.nested (.format a b template))
  | .either a b, fallback => by
    rw [← leafValue_operandFallback]
    exact (Operand.decided env a _).either (Operand.decided env b _)

end

/-- So is the evaluation of a choice. -/
lemma evaluate_decided (env : ParameterEnv) (fallback : Value) (a b : Operand) :
    DecidedBy (leafValue env fallback) (Expr.either a b).leaves
      ((Expr.either a b).evaluate env fallback) :=
  (Operand.decided env a fallback).either (Operand.decided env b fallback)

/-- A choice gives what the leaf that decides it gives. -/
lemma evaluate_eq_of_decides (hleaves : (Expr.either a b).leaves = front ++ leaf :: back)
    (h : Decides (leafValue env fallback) front leaf back) :
    (Expr.either a b).evaluate env fallback = leafValue env fallback leaf := by
  have hdecided := evaluate_decided env fallback a b
  rw [hleaves] at hdecided
  exact hdecided.eq h

/-- Trees with the same leaves give the same. -/
lemma evaluate_eq_of_leaves {a' b' : Operand}
    (h : (Expr.either a' b').leaves = (Expr.either a b).leaves) :
    (Expr.either a' b').evaluate env fallback = (Expr.either a b).evaluate env fallback := by
  obtain ⟨front, leaf, back, hleaves, hdecides, hvalue⟩ := evaluate_decided env fallback a b
  rw [hvalue]
  exact evaluate_eq_of_decides (h.trans hleaves) hdecides

/-- A tree of choices gives the value of its first truthy leaf, or that of the last leaf when none
is truthy; it fails exactly when a leaf does and none before it is truthy, as that leaf does.  What
stands behind a leaf that ends the search does not matter, and neither does the shape of the tree,
so choices associate. -/
theorem evaluate_either (env : ParameterEnv) (fallback : Value) (a b : Operand) :
    (∀ v, (Expr.either a b).evaluate env fallback = .ok v ↔
      ∃ front leaf back, (Expr.either a b).leaves = front ++ leaf :: back ∧
        PassedOver (leafValue env fallback) front ∧ leafValue env fallback leaf = .ok v ∧
        (v.isTruthy = true ∨ back = [])) ∧
    (∀ m, (Expr.either a b).evaluate env fallback = .error m ↔
      ∃ front leaf back, (Expr.either a b).leaves = front ++ leaf :: back ∧
        PassedOver (leafValue env fallback) front ∧ leafValue env fallback leaf = .error m) ∧
    (∀ a' b' front leaf back back', (Expr.either a b).leaves = front ++ leaf :: back →
      (Expr.either a' b').leaves = front ++ leaf :: back' →
      PassedOver (leafValue env fallback) front →
      (∀ v, leafValue env fallback leaf = .ok v → v.isTruthy = true) →
      (Expr.either a' b').evaluate env fallback = (Expr.either a b).evaluate env fallback) ∧
    (∀ a' b', (Expr.either a' b').leaves = (Expr.either a b).leaves →
      (Expr.either a' b').evaluate env fallback = (Expr.either a b).evaluate env fallback) ∧
    ∀ c, (Expr.either (.nested (.either a b)) c).evaluate env fallback =
      (Expr.either a (.nested (.either b c))).evaluate env fallback := by
  refine ⟨fun v => ⟨fun h => ?_, ?_⟩, fun m => ⟨fun h => ?_, ?_⟩, ?_, ?_, fun c => ?_⟩
  · obtain ⟨front, leaf, back, hleaves, hdecides, hvalue⟩ := evaluate_decided env fallback a b
    rw [h] at hvalue
    refine ⟨front, leaf, back, hleaves, hdecides.before, hvalue.symm, ?_⟩
    exact hdecides.here.symm.imp_left fun htruthy => htruthy v hvalue.symm
  · rintro ⟨front, leaf, back, hleaves, hbefore, hvalue, hends⟩
    rw [← hvalue]
    apply evaluate_eq_of_decides hleaves
    rcases hends with htruthy | hlast
    · exact decides_of_truthy hbefore hvalue htruthy
    · exact ⟨hbefore, .inl hlast⟩
  · obtain ⟨front, leaf, back, hleaves, hdecides, hvalue⟩ := evaluate_decided env fallback a b
    rw [h] at hvalue
    exact ⟨front, leaf, back, hleaves, hdecides.before, hvalue.symm⟩
  · rintro ⟨front, leaf, back, hleaves, hbefore, hvalue⟩
    rw [← hvalue]
    exact evaluate_eq_of_decides hleaves (decides_of_error hbefore hvalue)
  · intro a' b' front leaf back back' hleaves hleaves' hbefore hends
    rw [evaluate_eq_of_decides hleaves ⟨hbefore, .inr hends⟩]
    exact evaluate_eq_of_decides hleaves' ⟨hbefore, .inr hends⟩
  · exact fun a' b' h => evaluate_eq_of_leaves h
  · apply evaluate_eq_of_leaves
    simp only [Expr.leaves, Operand.leaves, List.append_assoc]

/-- An editor, or whether the shell is that of the editor; the last leaf has no value. -/
def editorNode : Expr :=
  .either
    (.nested (.either (.literal (.text "$editor"))
      (.nested (.condition .equal (.literal (.text "$shell")) (.literal (.text "fish")) none))))
    (.nested (.condition .contains (.literal (.bool true)) (.literal (.text "vi")) none))

/-- The parameters of a shell without an editor. -/
def shellParameters : ParameterEnv :=
  ⟨[("$editor", .text ""), ("$shell", .text "fish")], by decide +kernel⟩

/-- The second leaf decides, so the last one, which would fail, is never looked at. -/
theorem shell_decides_editor :
    leafValue shellParameters (.bool false)
        (.nested (.condition .contains (.literal (.bool true)) (.literal (.text "vi")) none)) =
      .error ⟨.bool true, .text "vi"⟩ ∧
    editorNode.evaluate shellParameters (.bool false) = .ok (.bool true) := by
  refine ⟨rfl, ?_⟩
  have hresult := (evaluate_either shellParameters (.bool false)
    (.nested (.either (.literal (.text "$editor"))
      (.nested (.condition .equal (.literal (.text "$shell")) (.literal (.text "fish")) none))))
    (.nested (.condition .contains (.literal (.bool true)) (.literal (.text "vi")) none))).1
  refine (hresult (.bool true)).2
    ⟨[.literal (.text "$editor")], _, _, rfl, ?_, rfl, .inl rfl⟩
  intro leaf hleaf
  obtain rfl := List.mem_singleton.1 hleaf
  exact ⟨.text "", rfl, rfl⟩

end ConfigPack
