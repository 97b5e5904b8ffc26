import ConfigPack.Expr
import ConfigPack.Proofs.Dict

/-!
# Names that expressions mention

An expression mentions the texts among its operands, at any depth.  Under two environments that give
these texts the same values, or no value, it evaluates to the same value or fails by the same
mismatch (`Expr.evaluate_congr`).
-/

namespace ConfigPack

mutual

/-- `node.Mentions text`: a text is an operand somewhere in a tree. -/
inductive Expr.Mentions : Expr → String → Prop where
  | conditionLeft {comparison a b outcome text} :
    Operand.Mentions a text → Expr.Mentions (.condition comparison a b outcome) text
  | conditionRight {comparison a b outcome text} :
    Operand.Mentions b text → Expr.Mentions (.condition comparison a b outcome) text
  | formatLeft {a b template text} :
    Operand.Mentions a text → Expr.Mentions (.format a b template) text
  | formatRight {a b template text} :
    Operand.Mentions b text → Expr.Mentions (.format a b template) text
  | eitherLeft {a b text} : Operand.Mentions a text → Expr.Mentions (.either a b) text
  | eitherRight {a b text} : Operand.Mentions b text → Expr.Mentions (.either a b) text

/-- A text is an operand itself, or somewhere in a nested tree. -/
inductive Operand.Mentions : Operand → String → Prop where
  | literal {text} : Operand.Mentions (.literal (.text text)) text
  | nested {node text} : Expr.Mentions node text → Operand.Mentions (.nested node) text

end

mutual

/-- The literal texts of a tree are the texts that it mentions. -/
lemma Expr.mem_literalTexts {text : String} :
    ∀ {node : Expr}, text ∈ node.literalTexts ↔ node.Mentions text
  | .condition _ a b _ => by
    rw [Expr.literalTexts, List.mem_append, a.mem_literalTexts, b.mem_literalTexts]
    constructor
    · rintro (h | h)
      · exact .conditionLeft h
      · exact .conditionRight h
    · intro h
      cases h with
      | conditionLeft h => exact .inl h
      | conditionRight h => exact .inr h
  | .format a b _ => by
    rw [Expr.literalTexts, List.mem_append, a.mem_literalTexts, b.mem_literalTexts]
    constructor
    · rintro (h | h)
      · exact .formatLeft h
      · exact .formatRight h
    · intro h
      cases h with
      | formatLeft h => exact .inl h
      | formatRight h => exact .inr h
  | .either a b => by
    rw [Expr.literalTexts, List.mem_append, a.mem_literalTexts, b.mem_literalTexts]
    constructor
    · rintro (h | h)
      · exact .eitherLeft h
      · exact .eitherRight h
    · intro h
      cases h with
      | eitherLeft h => exact .inl h
      | eitherRight h => exact .inr h

/-- The texts of an operand are those it mentions. -/
lemma Operand.mem_literalTexts {text : String} :
    ∀ {op : Operand}, text ∈ op.literalTexts ↔ op.Mentions text
  | .literal (.text s) => by
    rw [Operand.literalTexts, List.mem_singleton]
    constructor
    · rintro rfl
      exact .literal
    · rintro ⟨⟩
      rfl
  | .literal (.bool _) => by
    rw [Operand.literalTexts]
    constructor
    · intro h
      cases h
    · intro h
      cases h
  | .nested node => by
    rw [Operand.literalTexts, node.mem_literalTexts]
    constructor
    · exact .nested
    · intro h
      cases h with
      | nested h => exact h

end

variable {env env' : ParameterEnv}

mutual

/-- A tree looks at an environment only for the texts that it mentions. -/
lemma Expr.evaluate_congr :
    ∀ {node : Expr} (fallback : Value),
      (∀ text, node.Mentions text → env.find? text = env'.find? text) →
      node.evaluate env fallback = node.evaluate env' fallback
  | .condition _ a b _, fallback, h => by
    have ha := a.evaluate_congr fallback fun text ht => h text (.conditionLeft ht)
    have hb := b.evaluate_congr fallback fun text ht => h text (.conditionRight ht)
    rw [Expr.evaluate, Expr.evaluate, ha, hb]
  | .format a b _, fallback, h => by
    have ha := a.evaluate_congr fallback fun text ht => h text (.formatLeft ht)
    have hb := b.evaluate_congr fallback fun text ht => h text (.formatRight ht)
    rw [Expr.evaluate, Expr.evaluate, ha, hb]
  | .either a b, fallback, h => by
    -- the second operand may be left out, but it is looked at in both or in neither
    have ha := a.evaluate_congr fallback fun text ht => h text (.eitherLeft ht)
    have hb := b.evaluate_congr fallback fun text ht => h text (.eitherRight ht)
    rw [Expr.evaluate, Expr.evaluate, ha, hb]

/-- An operand has one value under parameters that agree on what it mentions. -/
lemma Operand.evaluate_congr :
    ∀ {op : Operand} (fallback : Value),
      (∀ text, op.Mentions text → env.find? text = env'.find? text) →
      op.evaluate env fallback = op.evaluate env' fallback
  | .literal (.text s), fallback, h => by
    rw [Operand.evaluate, Operand.evaluate, h s .literal]
  | .literal (.bool _), _, _ => by
    rw [Operand.evaluate, Operand.evaluate]
  | .nested node, fallback, h => by
    rw [Operand.evaluate, Operand.evaluate]
    exact node.evaluate_congr _ fun text ht => h text (.nested ht)

end

end ConfigPack
