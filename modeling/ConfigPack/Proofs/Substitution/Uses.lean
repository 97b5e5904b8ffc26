import ConfigPack.Proofs.Dict
import ConfigPack.Substitution
import Mathlib.Data.Finset.Card
import Mathlib.Logic.Relation

/-!
# Tokens that use other tokens

A token uses the tokens that occur in its value.  When no token leads back to itself, each has a
rank, higher than the ranks of the tokens that it uses (`rank_lt_of_uses`) and lower than the number
of tokens (`rank_lt_size`).  Between tokens that are not empty the relation is `Refers`: the empty
token is never replaced, so it does not matter where it occurs.
-/

namespace ConfigPack.Substitution

/-- A token uses the tokens that occur in its value. -/
def Uses (tokens : Variables) (token used : String) : Prop :=
  ∃ value, tokens.find? token = some value ∧ tokens.contains used = true ∧
    value.contains used = true

/-- No token leads back to itself. -/
def Acyclic (tokens : Variables) : Prop :=
  ∀ token, ¬ Relation.TransGen (Uses tokens) token token

open Classical in
/-- The tokens that a token leads to. -/
noncomputable def reached (tokens : Variables) (token : String) : Finset String :=
  tokens.keys.toFinset.filter fun used => Relation.TransGen (Uses tokens) token used

/-- The rank of a token is the number of tokens that it leads to. -/
noncomputable def rank (tokens : Variables) (token : String) : Nat := (reached tokens token).card

variable {tokens : Variables}

/-- What is reached from a token are the tokens that its uses lead to. -/
lemma mem_reached {token used : String} : used ∈ reached tokens token ↔
    tokens.contains used = true ∧ Relation.TransGen (Uses tokens) token used := by
  classical
  rw [reached, Finset.mem_filter, List.mem_toFinset, Dict.contains_iff]

/-- A token that is used has a lower rank. -/
lemma rank_lt_of_uses (hacyclic : Acyclic tokens) {token used : String}
    (huses : Uses tokens token used) : rank tokens used < rank tokens token := by
  have hsub : reached tokens used ⊆ reached tokens token := by
    intro last hlast
    rw [mem_reached] at hlast ⊢
    exact ⟨hlast.1, .head huses hlast.2⟩
  have hne : reached tokens used ≠ reached tokens token := by
    intro hsame
    have hmem : used ∈ reached tokens token := mem_reached.2 ⟨huses.choose_spec.2.1, .single huses⟩
    rw [← hsame, mem_reached] at hmem
    exact hacyclic used hmem.2
  exact Finset.card_lt_card (Finset.ssubset_iff_subset_ne.2 ⟨hsub, hne⟩)

/-- The rank of a token is below the number of tokens. -/
lemma rank_lt_size (hacyclic : Acyclic tokens) {token : String}
    (htoken : tokens.contains token = true) : rank tokens token < tokens.size := by
  have hsub : reached tokens token ⊆ tokens.keys.toFinset := fun used hused =>
    List.mem_toFinset.2 (Dict.contains_iff.1 (mem_reached.1 hused).1)
  have hne : reached tokens token ≠ tokens.keys.toFinset := by
    intro hsame
    have hmem : token ∈ tokens.keys.toFinset := List.mem_toFinset.2 (Dict.contains_iff.1 htoken)
    rw [← hsame, mem_reached] at hmem
    exact hacyclic token hmem.2
  calc rank tokens token
    _ < tokens.keys.toFinset.card :=
      Finset.card_lt_card (Finset.ssubset_iff_subset_ne.2 ⟨hsub, hne⟩)
    _ ≤ tokens.keys.length := List.toFinset_card_le _
    _ = tokens.size := List.length_map _

/-- Tokens with numbers that fall along uses do not lead back to themselves. -/
lemma acyclic_of_falling (number : String → Nat)
    (h : ∀ token used, Uses tokens token used → number used < number token) : Acyclic tokens := by
  have hfalls : ∀ {token last : String}, Relation.TransGen (Uses tokens) token last →
      number last < number token := by
    intro token last hleads
    induction hleads with
    | single huses => exact h _ _ huses
    | tail _ huses ih => exact Nat.lt_trans (h _ _ huses) ih
  exact fun token hleads => Nat.lt_irrefl _ (hfalls hleads)

/-! ## Tokens that are not empty -/

/-- A token that is not empty refers to the tokens that are not empty and occur in its value. -/
def Refers (tokens : Variables) (token used : String) : Prop :=
  token ≠ "" ∧ used ≠ "" ∧ Uses tokens token used

/-- Tokens refer to each other as they use each other when the empty one is taken away. -/
lemma uses_erase_iff {token used : String} :
    Uses (tokens.erase "") token used ↔ Refers tokens token used := by
  rw [Uses, Refers, Uses, Dict.contains, Dict.contains, Dict.find?_erase]
  simp only [Dict.find?_erase]
  by_cases htoken : token = ""
  · simp [htoken]
  · by_cases hused : used = ""
    · simp [hused]
    · simp [htoken, hused]

/-- Tokens without a cycle of references are acyclic without the empty one. -/
lemma acyclic_erase (h : ∀ token, ¬ Relation.TransGen (Refers tokens) token token) :
    Acyclic (tokens.erase "") := by
  have hsame : Uses (tokens.erase "") = Refers tokens :=
    funext₂ fun _ _ => propext uses_erase_iff
  intro token hleads
  rw [hsame] at hleads
  exact h token hleads

end ConfigPack.Substitution
