import ConfigPack.Proofs.Parameters.Equations

/-!
# Entries that come later

An expression looks at an environment at its literal texts alone, whichever of its operands are
evaluated.  Its references are checked while the environment has entries for only a part of the
parameters; once they are in order, the entries that the other parameters get later do not change
what it gives (`Expr.evaluate_reads_literals`).
-/

namespace ConfigPack

/-- `Dict.Extended new d d'`: the entries of `d` are kept in `d'`, and the keys that have been added
are of one kind. -/
structure Dict.Extended {α : Type} (new : String → Prop) (d d' : Dict α) : Prop where
  kept : ∀ key, d.contains key = true → d'.find? key = d.find? key
  added : ∀ key, d.contains key = false → d'.contains key = true → new key

namespace Dict.Extended

variable {α : Type} {new : String → Prop} {d d' : Dict α} {key : String}

/-- A dictionary extends itself. -/
lemma refl (new : String → Prop) (d : Dict α) : Extended new d d :=
  ⟨fun _ _ => rfl, fun _ hmissing hthere => by rw [hmissing] at hthere; cases hthere⟩

/-- One more entry under a key that there was none for. -/
lemma insert (h : Extended new d d') (hfresh : d.contains key = false) (hnew : new key)
    (value : α) : Extended new d (d'.insert key value) := by
  refine ⟨fun name hname => ?_, fun name hmissing hthere => ?_⟩
  · have hother : name ≠ key := by
      rintro rfl
      rw [hfresh] at hname
      cases hname
    rw [find?_insert, if_neg hother, h.kept name hname]
  · rcases contains_insert.1 hthere with rfl | hthere
    · exact hnew
    · exact h.added name hmissing hthere

/-- Under keys of another kind nothing has been added. -/
lemma find?_eq (h : Extended new d d') (hold : d.contains key = true ∨ ¬ new key) :
    d'.find? key = d.find? key := by
  by_cases hthere : d.contains key = true
  · exact h.kept key hthere
  · have hmissing : d.contains key = false := Bool.eq_false_iff.2 hthere
    have hstill : d'.contains key = false := by
      by_contra hadded
      exact hold.elim hthere fun hnot =>
        hnot (h.added key hmissing (Bool.not_eq_false _ ▸ hadded))
    rw [contains, Option.isSome_eq_false_iff, Option.isNone_iff_eq_none] at hmissing hstill
    rw [hmissing, hstill]

end Dict.Extended

namespace Parameters

variable {declared : List String} {env env' : ParameterEnv} {node : Expr} {owner : String}

/-- An id other than those that an expression refers to, once its references are in order and have
entries: that of any parameter that has none yet, or a text that the expression does not hold. -/
def Other (declared : List String) (node : Expr) (id : String) : Prop :=
  id ∈ declared ∨ id ∉ node.literalTexts

/-- Once the references are in order, what an expression mentions stays as it is. -/
lemma find?_of_checked (hchecked : checkReferences node owner declared env = .ok ())
    (h : Dict.Extended (Other declared node) env env') {text : String}
    (hmentioned : node.Mentions text) : env'.find? text = env.find? text := by
  apply h.find?_eq
  by_cases hdeclared : text ∈ declared
  · exact .inl (checkReferences_eq_ok.1 hchecked text hdeclared hmentioned)
  · refine .inr fun hnew => ?_
    exact hnew.elim hdeclared fun hunnamed => hunnamed (Expr.mem_literalTexts.2 hmentioned)

end Parameters

/-- Under environments that agree on its literal texts an expression gives one value or one error.
So once its references are in order, entries that are added for other ids change neither that nor
what the expression gives. -/
theorem Expr.evaluate_reads_literals (node : Expr) (fallback : Value) (env : ParameterEnv) :
    (∀ env' : ParameterEnv, (∀ text ∈ node.literalTexts, env'.find? text = env.find? text) →
      node.evaluate env' fallback = node.evaluate env fallback) ∧
    ∀ (declared : List String) (owner : String) (env' : ParameterEnv),
      Parameters.checkReferences node owner declared env = .ok () →
      Dict.Extended (Parameters.Other declared node) env env' →
      Parameters.checkReferences node owner declared env' = .ok () ∧
        node.evaluate env' fallback = node.evaluate env fallback := by
  refine ⟨fun env' hagree => ?_, fun declared owner env' hchecked hextended => ⟨?_, ?_⟩⟩
  · refine node.evaluate_congr fallback fun text hmentioned => ?_
    exact hagree text (Expr.mem_literalTexts.2 hmentioned)
  · refine Parameters.checkReferences_eq_ok.2 fun id hid hmentioned => ?_
    have hthere := Parameters.checkReferences_eq_ok.1 hchecked id hid hmentioned
    rw [Dict.contains, hextended.kept id hthere]
    exact hthere
  · exact node.evaluate_congr fallback fun text hmentioned =>
      Parameters.find?_of_checked hchecked hextended hmentioned

/-- The package of a system, or whether one of the tools looks after packages. -/
def packageNode : Expr :=
  .either
    (.nested (.condition .equal (.literal (.text "$os")) (.literal (.text "linux"))
      (some (.text "apt"))))
    (.nested (.condition .contains (.literal (.text "$tools")) (.literal (.text "brew")) none))

/-- The identifiers that are declared. -/
def systemIds : List String := ["$os", "$tools", "$package", "$shell"]

/-- What is known about a system. -/
def systemParameters : ParameterEnv :=
  ⟨[("$os", .text "mac"), ("$tools", .bool true)], by decide +kernel⟩

/-- The parameters of a system that got values later, or by a listener. -/
def laterParameters : ParameterEnv :=
  (systemParameters.insert "$shell" (.text "fish")).insert "apt" (.bool false)

/-- A comparison fails the same with entries that it does not mention. -/
theorem later_entries_keep_mismatch :
    Parameters.checkReferences packageNode "$package" systemIds systemParameters = .ok () ∧
      packageNode.evaluate systemParameters (.bool true) = .error ⟨.bool true, .text "brew"⟩ ∧
      packageNode.evaluate laterParameters (.bool true) = .error ⟨.bool true, .text "brew"⟩ := by
  have hchecked : Parameters.checkReferences packageNode "$package" systemIds systemParameters =
    .ok () := rfl
  have hvalue : packageNode.evaluate systemParameters (.bool true) =
    .error ⟨.bool true, .text "brew"⟩ := rfl
  -- one more parameter, and a text that is no operand of the expression but one of its results
  have hshell : Parameters.Other systemIds packageNode "$shell" := .inl (by decide)
  have hpackage : Parameters.Other systemIds packageNode "apt" := .inr (by decide +kernel)
  have hextended : Dict.Extended (Parameters.Other systemIds packageNode) systemParameters
      laterParameters :=
    ((Dict.Extended.refl _ systemParameters).insert (by decide +kernel) hshell
      (.text "fish")).insert (by decide +kernel) hpackage (.bool false)
  obtain ⟨_, hsame⟩ := (packageNode.evaluate_reads_literals (.bool true) systemParameters).2
    systemIds "$package" laterParameters hchecked hextended
  exact ⟨hchecked, hvalue, hsame.trans hvalue⟩

end ConfigPack
