import ConfigPack.Proofs.Substitution.Pass
import ConfigPack.Proofs.Substitution.Uses

/-!
# Texts without tokens

When no token refers back to itself, each pass lowers the rank of the tokens that occur in the text,
as long as all of them come from the text before or from a value.  Where a value meets the text
around it a token can also be formed that was in neither.  Substitution therefore ends with a text
without tokens unless tokens are formed in later passes (`substitute_clears_iff`).
-/

namespace ConfigPack.Substitution

/-- No token occurs in the text, but for the empty one. -/
def Clear (tokens : Variables) (text : String) : Prop :=
  ∀ token, token ≠ "" → tokens.contains token = true → ¬ text.contains token = true

/-- Replacing the token of an entry forms a token: one that occurs afterwards, but is not in the
value and did not, as another token, occur before. -/
def Forms (tokens : Variables) (text : String) (entry : String × String) : Prop :=
  ∃ token, token ≠ "" ∧ tokens.contains token = true ∧
    (replaceOne text entry).contains token = true ∧ ¬ entry.2.contains token = true ∧
    ¬ (text.contains token = true ∧ token ≠ entry.1)

/-- A pass over a text forms a token. -/
def PassForms (tokens : Variables) (text : String) : Prop :=
  ∃ front entry back, tokens.entries = front ++ entry :: back ∧
    Forms tokens (replaceEach text front) entry

/-- The tokens that occur in a text have ranks below a level. -/
def HeldBelow (tokens : Variables) (level : Nat) (text : String) : Prop :=
  ∀ token, token ≠ "" → tokens.contains token = true → text.contains token = true →
    rank (tokens.erase "") token < level

/-- The tokens that occur in a text have ranks below a level, or just at it when still due. -/
def HeldOrDue (tokens : Variables) (level : Nat) (due : List String) (text : String) : Prop :=
  ∀ token, token ≠ "" → tokens.contains token = true → text.contains token = true →
    rank (tokens.erase "") token < level ∨ rank (tokens.erase "") token = level ∧ token ∈ due

variable {tokens : Variables} {text content : String} {entry : String × String} {level : Nat}

/-! ## Tokens in a text -/

/-- A text is clear when all tokens it holds are below the lowest level. -/
lemma clear_iff_heldBelow : Clear tokens text ↔ HeldBelow tokens 0 text := by
  constructor
  · intro h token hne htoken hoccurs
    exact absurd hoccurs (h token hne htoken)
  · intro h token hne htoken hoccurs
    exact absurd (h token hne htoken hoccurs) (Nat.not_lt_zero _)

/-- Replacing tokens leaves a text without tokens as it is. -/
lemma Clear.kept (h : Clear tokens text) {entries : List (String × String)}
    (hentries : ∀ e ∈ entries, e.1 ∈ tokens.keys) : replaceEach text entries = text := by
  induction entries with
  | nil => rfl
  | cons entry entries ih =>
    rw [List.forall_mem_cons] at hentries
    have hone : replaceOne text entry = text := by
      by_cases hempty : entry.1 = ""
      · exact replaceOne_of_empty hempty
      · exact replaceOne_of_absent (h entry.1 hempty (Dict.contains_iff.2 hentries.1))
    rw [replaceEach, List.foldl_cons, hone]
    exact ih hentries.2

/-- A clear text is not changed by a pass. -/
lemma Clear.fixed (h : Clear tokens text) : replaceEach text tokens.entries = text :=
  h.kept fun _ he => List.mem_map_of_mem he

/-- All tokens of a text have a rank below the number of tokens. -/
lemma heldBelow_size (hacyclic : Acyclic (tokens.erase "")) (text : String) :
    HeldBelow tokens tokens.size text := by
  intro token hne htoken _
  have hproper : (tokens.erase "").contains token = true := by
    rw [Dict.contains, Dict.find?_erase, if_neg hne]
    exact htoken
  exact Nat.lt_of_lt_of_le (rank_lt_size hacyclic hproper) (Dict.size_erase_le tokens "")

/-! ## Passes that form no token -/

/-- A token that occurs after a replacement is in the value, or it occurred before as another token,
or it was formed. -/
lemma occurs_before {token : String} (hforms : ¬ Forms tokens text entry) (hne : token ≠ "")
    (htoken : tokens.contains token = true)
    (hoccurs : (replaceOne text entry).contains token = true) :
    entry.1 ≠ "" ∧ text.contains entry.1 = true ∧ entry.2.contains token = true ∨
      text.contains token = true ∧ token ≠ entry.1 := by
  by_cases hreplaced : entry.1 ≠ "" ∧ text.contains entry.1 = true
  · by_cases hvalue : entry.2.contains token = true
    · exact .inl ⟨hreplaced.1, hreplaced.2, hvalue⟩
    · right
      by_contra hbefore
      exact hforms ⟨token, hne, htoken, hoccurs, hvalue, hbefore⟩
  · have hsame : replaceOne text entry = text := by
      by_cases hempty : entry.1 = ""
      · exact replaceOne_of_empty hempty
      · exact replaceOne_of_absent fun hcontains => hreplaced ⟨hempty, hcontains⟩
    rw [hsame] at hoccurs
    refine .inr ⟨hoccurs, ?_⟩
    rintro rfl
    exact hreplaced ⟨hne, hoccurs⟩

/-- A token that is replaced is no longer due: what comes from its value has a lower rank. -/
lemma HeldOrDue.replaced (hacyclic : Acyclic (tokens.erase "")) {due : List String}
    (hentry : tokens.find? entry.1 = some entry.2) (hforms : ¬ Forms tokens text entry)
    (h : HeldOrDue tokens level (entry.1 :: due) text) :
    HeldOrDue tokens level due (replaceOne text entry) := by
  intro token hne htoken hoccurs
  rcases occurs_before hforms hne htoken hoccurs with ⟨hempty, hbefore, hvalue⟩ | ⟨hbefore, hother⟩
  · have hrefers : Refers tokens entry.1 token :=
      ⟨hempty, hne, entry.2, hentry, htoken, hvalue⟩
    have hlower := rank_lt_of_uses hacyclic (uses_erase_iff.2 hrefers)
    have hrank := h entry.1 hempty (Dict.contains_of_find? hentry) hbefore
    omega
  · refine (h token hne htoken hbefore).imp_right fun hdue => ⟨hdue.1, ?_⟩
    exact (List.mem_cons.1 hdue.2).resolve_left hother

/-- A whole pass lowers what a text holds, as long as it forms no token. -/
lemma HeldOrDue.replacedEach (hacyclic : Acyclic (tokens.erase ""))
    {entries : List (String × String)} (hentries : ∀ e ∈ entries, tokens.find? e.1 = some e.2)
    (hforms : ∀ front entry back, entries = front ++ entry :: back →
      ¬ Forms tokens (replaceEach text front) entry)
    (h : HeldOrDue tokens level (entries.map Prod.fst) text) :
    HeldOrDue tokens level [] (replaceEach text entries) := by
  induction entries generalizing text with
  | nil => exact h
  | cons entry entries ih =>
    rw [List.forall_mem_cons] at hentries
    have hnext := HeldOrDue.replaced hacyclic hentries.1 (hforms [] entry entries rfl) h
    apply ih hentries.2 _ hnext
    intro front e back hsplit
    exact hforms (entry :: front) e back (congrArg (entry :: ·) hsplit)

/-- A pass that forms no token lowers the level. -/
lemma HeldBelow.pass (hacyclic : Acyclic (tokens.erase "")) (hforms : ¬ PassForms tokens text)
    (h : HeldBelow tokens (level + 1) text) :
    HeldBelow tokens level (replaceEach text tokens.entries) := by
  have hdue : HeldOrDue tokens level (tokens.entries.map Prod.fst) text := by
    intro token hne htoken hoccurs
    refine (Nat.lt_or_eq_of_le (Nat.le_of_lt_succ (h token hne htoken hoccurs))).imp_right ?_
    exact fun hrank => ⟨hrank, Dict.contains_iff.1 htoken⟩
  have hafter := hdue.replacedEach hacyclic (fun e he => Dict.find?_eq_some_iff.2 he)
    fun front entry back hsplit hentry => hforms ⟨front, entry, back, hsplit, hentry⟩
  intro token hne htoken hoccurs
  exact (hafter token hne htoken hoccurs).resolve_right fun hleft => List.not_mem_nil hleft.2

/-- Passes that form no token leave none when there are as many as the level. -/
lemma HeldBelow.passes (hacyclic : Acyclic (tokens.erase "")) {start : Nat}
    (hforms : ∀ passes, start ≤ passes → passes < start + level →
      ¬ PassForms tokens (passed tokens passes content))
    (h : HeldBelow tokens level (passed tokens start content)) :
    Clear tokens (passed tokens (start + level) content) := by
  induction level generalizing start with
  | zero => exact clear_iff_heldBelow.2 h
  | succ level ih =>
    have hnext := h.pass hacyclic (hforms start (Nat.le_refl start) (by omega))
    rw [← passed_succ'] at hnext
    rw [Nat.add_comm level 1, ← Nat.add_assoc]
    apply ih _ hnext
    intro passes hstart hend
    exact hforms passes (by omega) (by omega)

/-- When no token refers back to itself and no text on the way is too long, substitution ends with a
text without tokens exactly when none is left after one more pass than there are tokens.  One is
left only if a token was formed in a pass after the first. -/
theorem substitute_clears_iff
    (hacyclic : ∀ token, ¬ Relation.TransGen (Refers tokens) token token)
    (hshort : ∀ passes count, passes ≤ tokens.size + 1 →
      (duringPass tokens content passes count).utf8ByteSize ≤ content.utf8ByteSize + maxGrowth) :
    ((∃ out, substitute content tokens = .ok out ∧ Clear tokens out) ↔
      Clear tokens (passed tokens (tokens.size + 1) content)) ∧
    (Clear tokens (passed tokens (tokens.size + 1) content) ∨
      ∃ passes, 1 ≤ passes ∧ passes ≤ tokens.size ∧
        PassForms tokens (passed tokens passes content)) := by
  refine ⟨⟨?_, fun hclear => ?_⟩, ?_⟩
  · rintro ⟨out, hok, hclear⟩
    obtain ⟨passes, hpasses, rfl, hfixed⟩ := of_run_ok hok
    rwa [passed_of_le hfixed (Nat.le_of_lt_succ hpasses)]
  · refine ⟨_, ?_, hclear⟩
    rcases run_cases (content.utf8ByteSize + maxGrowth) hclear.fixed
      (Nat.lt_succ_self (tokens.size + 1)) 0 with hok | ⟨passes, count, hpasses, hlong, _⟩
    · exact hok
    · exact absurd hlong (Nat.not_lt.2 (hshort passes count hpasses))
  · by_contra hneither
    rw [not_or] at hneither
    have hproper := acyclic_erase hacyclic
    apply hneither.1
    rw [Nat.add_comm]
    apply (heldBelow_size hproper (passed tokens 1 content)).passes hproper
    intro passes hstart hend hforms
    exact hneither.2 ⟨passes, hstart, by omega, hforms⟩

/-- A token without a value, and a text in which it is nested. -/
def nested : Variables := ⟨[("\x7b\x7bX\x7d\x7d", "")], by decide +kernel⟩

/-- The token in itself, three times. -/
def nestedText : String := "\x7b\x7b\x7b\x7b\x7b\x7bX\x7d\x7dX\x7d\x7dX\x7d\x7d"

/-- The token has no value that could refer to it. -/
lemma nested_acyclic (token : String) : ¬ Relation.TransGen (Refers nested) token token := by
  have hnone : ∀ token used, ¬ Refers nested token used := by
    rintro token used ⟨_, hused, value, hvalue, _, hoccurs⟩
    cases List.mem_singleton.1 (Dict.mem_entries_of_find? hvalue)
    apply hused
    have hempty := List.infix_nil.1 (String.contains_string_iff.1 hoccurs)
    exact String.toList_eq_nil_iff.1 hempty
  intro hleads
  cases hleads with
  | single h => exact hnone _ _ h
  | tail _ h => exact hnone _ _ h

/-- The text never outgrows the limit. -/
lemma nested_short (passes count : Nat) (hpasses : passes ≤ nested.size + 1) :
    (duringPass nested nestedText passes count).utf8ByteSize ≤
      nestedText.utf8ByteSize + maxGrowth := by
  refine duringPass_short ?_ hpasses count
  simp only [duringPass, passed, replaceEach, replaceOne_eq]
  decide +kernel

/-- Each pass takes away the innermost token and so forms the next one, until the passes are used
up. -/
theorem nested_token_is_formed :
    (∀ token, ¬ Relation.TransGen (Refers nested) token token) ∧
      (∀ passes count, passes ≤ nested.size + 1 →
        (duringPass nested nestedText passes count).utf8ByteSize ≤
          nestedText.utf8ByteSize + maxGrowth) ∧
      substitute nestedText nested = .error ⟨3⟩ ∧
      ∃ passes, 1 ≤ passes ∧ passes ≤ nested.size ∧
        PassForms nested (passed nested passes nestedText) := by
  have herror : substitute nestedText nested = .error ⟨3⟩ := by
    -- there is one token, so three passes are allowed, and each of them changes the text
    have hchanges : ∀ passes ∈ List.range 3,
        replaceEach (passed nested passes nestedText) nested.entries ≠
          passed nested passes nestedText := by
      simp only [passed, replaceEach, replaceOne_eq]
      decide +kernel
    apply run_unsettled (fun passes hpasses => hchanges passes (List.mem_range.2 hpasses)) _ 0
    exact fun passes count hpasses => nested_short passes count (Nat.le_of_lt_succ hpasses)
  have hresult := substitute_clears_iff nested_acyclic nested_short
  -- it is not clear after the first pass, or it would have settled
  refine ⟨nested_acyclic, nested_short, herror, hresult.2.resolve_left fun hclear => ?_⟩
  obtain ⟨out, hok, _⟩ := hresult.1.2 hclear
  rw [herror] at hok
  cases hok

end ConfigPack.Substitution
