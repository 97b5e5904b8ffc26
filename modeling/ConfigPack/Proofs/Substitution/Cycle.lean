import ConfigPack.Proofs.Substitution.Marker
import ConfigPack.Proofs.Substitution.Pass
import ConfigPack.Proofs.Substitution.Uses

/-!
# Tokens that are left in a result

Substitution ends when a whole pass leaves the text as it is.  A pass can do so and still replace
tokens, when later ones undo what earlier ones did; exactly then a token is left in the result
(`token_left_iff`).  A cycle of tokens is never resolved: a text that holds a token of it holds one
after each pass, so a run that succeeds has come to such a pass.
-/

namespace ConfigPack.Substitution

/-- A token occurs in the text that is neither empty nor its own value. -/
def HoldsLive (tokens : Variables) (text : String) : Prop :=
  ∃ token value, tokens.find? token = some value ∧ token ≠ "" ∧ value ≠ token ∧
    text.contains token = true

/-- A pass over a text replaces a token in it, and a later one in a text that has become different,
which gives the first text again. -/
def PutsBack (tokens : Variables) (text : String) : Prop :=
  ∃ front first middle second back,
    tokens.entries = front ++ first :: (middle ++ second :: back) ∧
    replaceEach text front = text ∧ replaceOne text first ≠ text ∧
    replaceEach (replaceOne text first) middle ≠ text ∧
    replaceOne (replaceEach (replaceOne text first) middle) second = text

/-- No two tokens overlap wherever both occur. -/
def Separate (tokens : Variables) : Prop :=
  ∀ token other, token ≠ "" → other ≠ "" → tokens.contains token = true →
    tokens.contains other = true → token ≠ other → Text.Apart token.toList other.toList

/-- A token leads to one that refers back to itself and is not its own value. -/
def LeadsToCycle (tokens : Variables) (token : String) : Prop :=
  ∃ last, Relation.ReflTransGen (Refers tokens) token last ∧
    Relation.TransGen (Refers tokens) last last ∧ tokens.find? last ≠ some last

/-- A token that leads to a cycle occurs in the text. -/
def HoldsCycle (tokens : Variables) (text : String) : Prop :=
  ∃ token, LeadsToCycle tokens token ∧ text.contains token = true

variable {tokens : Variables} {text content out token : String}
  {entries : List (String × String)} {entry : String × String}

/-! ## Passes that change nothing -/

/-- A text that becomes the one it was before becomes it by replacing some token. -/
lemma exists_return {next : String} (hne : next ≠ text) (hsame : replaceEach next entries = text) :
    ∃ middle second back, entries = middle ++ second :: back ∧
      replaceEach next middle ≠ text ∧ replaceOne (replaceEach next middle) second = text := by
  induction entries generalizing next with
  | nil => exact absurd hsame hne
  | cons entry entries ih =>
    by_cases hhere : replaceOne next entry = text
    · exact ⟨[], entry, entries, rfl, hne, hhere⟩
    · obtain ⟨middle, second, back, rfl, hmiddle, hsecond⟩ := ih hhere hsame
      exact ⟨entry :: middle, second, back, rfl, hmiddle, hsecond⟩

/-- Where replacing tokens gives the text again though one of them is in it, a later token undoes
what an earlier one did. -/
lemma exists_put_back (hsame : replaceEach text entries = text) (hmem : entry ∈ entries)
    (hchanges : replaceOne text entry ≠ text) : ∃ front first middle second back,
      entries = front ++ first :: (middle ++ second :: back) ∧
      replaceEach text front = text ∧ replaceOne text first ≠ text ∧
      replaceEach (replaceOne text first) middle ≠ text ∧
      replaceOne (replaceEach (replaceOne text first) middle) second = text := by
  induction entries with
  | nil => cases hmem
  | cons first entries ih =>
    rw [replaceEach, List.foldl_cons] at hsame
    by_cases hfirst : replaceOne text first = text
    · rw [hfirst] at hsame
      have hrest : entry ∈ entries := by
        rcases List.mem_cons.1 hmem with rfl | hrest
        · exact absurd hfirst hchanges
        · exact hrest
      obtain ⟨front, e, middle, second, back, rfl, hfront, hback⟩ := ih hsame hrest
      refine ⟨first :: front, e, middle, second, back, rfl, ?_, hback⟩
      rw [replaceEach, List.foldl_cons, hfirst]
      exact hfront
    · obtain ⟨middle, second, back, rfl, hmiddle, hsecond⟩ := exists_return hfirst hsame
      exact ⟨[], first, middle, second, back, rfl, rfl, hfirst, hmiddle, hsecond⟩

/-- A text that a pass leaves as it is holds a token exactly when the pass puts it back. -/
lemma holdsLive_iff (hfixed : replaceEach text tokens.entries = text) :
    HoldsLive tokens text ↔ PutsBack tokens text := by
  constructor
  · rintro ⟨token, value, hvalue, hne, hother, hoccurs⟩
    apply exists_put_back hfixed (Dict.mem_entries_of_find? hvalue)
    exact replaceOne_ne_iff.2 ⟨hne, hoccurs, hother⟩
  · rintro ⟨front, first, middle, second, back, hentries, _, hchanges, _, _⟩
    obtain ⟨hne, hoccurs, hother⟩ := replaceOne_ne_iff.1 hchanges
    have hmem : first ∈ tokens.entries := by
      rw [hentries]
      exact List.mem_append_right front List.mem_cons_self
    exact ⟨first.1, first.2, Dict.find?_eq_some_iff.2 hmem, hne, hother, hoccurs⟩

/-! ## Cycles -/

/-- The next token on the way to a cycle: it occurs in the value, which is another text. -/
lemma LeadsToCycle.next (hseparate : Separate tokens) (h : LeadsToCycle tokens token) :
    token ≠ "" ∧ ∃ value used, tokens.find? token = some value ∧ value ≠ token ∧
      value.contains used = true ∧ LeadsToCycle tokens used := by
  obtain ⟨last, hleads, hcycle, hlive⟩ := h
  induction hleads using Relation.ReflTransGen.head_induction_on with
  | refl =>
    obtain ⟨used, ⟨hne, _, value, hvalue, _, hoccurs⟩, hback⟩ :=
      Relation.TransGen.head'_iff.1 hcycle
    refine ⟨hne, value, used, hvalue, ?_, hoccurs, last, hback, hcycle, hlive⟩
    rintro rfl
    exact hlive hvalue
  | @head token used hrefers hleads ih =>
    obtain ⟨hne, husedNe, value, hvalue, hused, hoccurs⟩ := hrefers
    by_cases hsame : used = token
    · rw [← hsame]
      exact ih
    · refine ⟨hne, value, used, hvalue, ?_, hoccurs, last, hleads, hcycle, hlive⟩
      -- a token that is its own value would hold the next one
      rintro rfl
      have hapart := hseparate value used hne husedNe (Dict.contains_of_find? hvalue) hused
        (Ne.symm hsame)
      apply hapart.not_occurs fun h => husedNe (String.toList_eq_nil_iff.1 h)
      exact String.contains_string_iff.1 hoccurs

/-- A text that holds a cycle holds a token with a value. -/
lemma HoldsCycle.live (hseparate : Separate tokens) (h : HoldsCycle tokens text) :
    HoldsLive tokens text := by
  obtain ⟨token, hleads, hoccurs⟩ := h
  obtain ⟨hne, value, _, hvalue, hother, _⟩ := hleads.next hseparate
  exact ⟨token, value, hvalue, hne, hother, hoccurs⟩

/-- What is put for one token leads to the cycle again. -/
lemma HoldsCycle.replaced (hseparate : Separate tokens)
    (hentry : tokens.find? entry.1 = some entry.2) (h : HoldsCycle tokens text) :
    HoldsCycle tokens (replaceOne text entry) := by
  obtain ⟨token, hleads, hoccurs⟩ := h
  obtain ⟨hne, value, used, hvalue, _, hused, hnext⟩ := hleads.next hseparate
  by_cases hempty : entry.1 = ""
  · rw [replaceOne_of_empty hempty]
    exact ⟨token, hleads, hoccurs⟩
  · have hpattern : entry.1.toList ≠ [] := fun h => hempty (String.toList_eq_nil_iff.1 h)
    have hreplaced := replaceOne_replaced text hempty
    rw [String.contains_string_iff] at hoccurs hused
    by_cases hsame : token = entry.1
    · -- the value takes its place, and the next token is in it
      subst hsame
      obtain rfl : value = entry.2 := Option.some.inj (hvalue.symm.trans hentry)
      refine ⟨used, hnext, String.contains_string_iff.2 ?_⟩
      exact hused.trans (hreplaced.value_occurs hpattern hoccurs)
    · have hapart := hseparate entry.1 token hempty hne (Dict.contains_of_find? hentry)
        (Dict.contains_of_find? hvalue) (Ne.symm hsame)
      have hkept : token.toList ≠ [] := fun h => hne (String.toList_eq_nil_iff.1 h)
      refine ⟨token, hleads, String.contains_string_iff.2 ?_⟩
      exact hreplaced.keeps hpattern hkept hapart hoccurs

/-- So the text holds the cycle after a whole pass. -/
lemma HoldsCycle.replacedEach (hseparate : Separate tokens)
    (hentries : ∀ e ∈ entries, tokens.find? e.1 = some e.2) (h : HoldsCycle tokens text) :
    HoldsCycle tokens (replaceEach text entries) := by
  induction entries generalizing text with
  | nil => exact h
  | cons entry entries ih =>
    rw [List.forall_mem_cons] at hentries
    exact ih hentries.2 (h.replaced hseparate hentries.1)

/-- So it does after any number of passes. -/
lemma HoldsCycle.passed (hseparate : Separate tokens) (h : HoldsCycle tokens content)
    (passes : Nat) : HoldsCycle tokens (passed tokens passes content) := by
  induction passes with
  | zero => exact h
  | succ passes ih =>
    rw [passed_succ']
    exact ih.replacedEach hseparate fun e he => Dict.find?_eq_some_iff.2 he

/-- Tokens between braces are separate. -/
lemma separate_of_markers
    (h : ∀ token, tokens.contains token = true → ∃ name : Name, token = name.token) :
    Separate tokens := by
  intro token other _ _ htoken hother hne
  obtain ⟨name, rfl⟩ := h token htoken
  obtain ⟨name', rfl⟩ := h other hother
  rw [Name.toList_token, Name.toList_token]
  exact Name.apart fun hsame => hne (congrArg Name.token hsame)

/-- A token that is not its own value is left in the result of a substitution exactly when the last
pass has replaced tokens and put the text back.  Where tokens do not overlap, it has done so
whenever the text held a token that leads to a cycle. -/
theorem token_left_iff (h : substitute content tokens = .ok out) :
    (HoldsLive tokens out ↔ PutsBack tokens out) ∧
      (Separate tokens → HoldsCycle tokens content → PutsBack tokens out) := by
  obtain ⟨passes, _, rfl, hfixed⟩ := of_run_ok h
  refine ⟨holdsLive_iff hfixed, fun hseparate hcycle => ?_⟩
  apply (holdsLive_iff hfixed).1
  exact (hcycle.passed hseparate passes).live hseparate

/-- Two tokens each of which is the value of the other one. -/
def twins : Variables :=
  ⟨[("\x7b\x7bA\x7d\x7d", "\x7b\x7bB\x7d\x7d"), ("\x7b\x7bB\x7d\x7d", "\x7b\x7bA\x7d\x7d")],
    by decide +kernel⟩

/-- The two tokens stand between braces. -/
lemma twins_separate : Separate twins := by
  apply separate_of_markers
  intro token htoken
  rw [Dict.contains_iff] at htoken
  have hkeys : ∀ token ∈ twins.keys,
      token = (Name.mk ['A'] (by decide) (by decide)).token ∨
        token = (Name.mk ['B'] (by decide) (by decide)).token := by
    decide +kernel
  rcases hkeys token htoken with h | h
  · exact ⟨_, h⟩
  · exact ⟨_, h⟩

/-- The first token leads to the second one and back. -/
lemma twins_leadToCycle : LeadsToCycle twins "\x7b\x7bA\x7d\x7d" := by
  have hA : twins.find? "\x7b\x7bA\x7d\x7d" = some "\x7b\x7bB\x7d\x7d" := by decide +kernel
  have hB : twins.find? "\x7b\x7bB\x7d\x7d" = some "\x7b\x7bA\x7d\x7d" := by decide +kernel
  have hself (text : String) : text.contains text = true :=
    String.contains_string_iff.2 (List.infix_refl _)
  have hto : Refers twins "\x7b\x7bA\x7d\x7d" "\x7b\x7bB\x7d\x7d" :=
    ⟨by decide, by decide, _, hA, Dict.contains_of_find? hB, hself _⟩
  have hback : Refers twins "\x7b\x7bB\x7d\x7d" "\x7b\x7bA\x7d\x7d" :=
    ⟨by decide, by decide, _, hB, Dict.contains_of_find? hA, hself _⟩
  refine ⟨_, .refl, .tail (.single hto) hback, ?_⟩
  rw [hA]
  decide

/-- The first token is put back within each pass, so a cycle is taken for a text that has settled.
-/
theorem twin_is_left :
    substitute "\x7b\x7bA\x7d\x7d" twins = .ok "\x7b\x7bA\x7d\x7d" ∧
      HoldsLive twins "\x7b\x7bA\x7d\x7d" ∧ Separate twins ∧
      HoldsCycle twins "\x7b\x7bA\x7d\x7d" ∧ PutsBack twins "\x7b\x7bA\x7d\x7d" := by
  have hcycle : HoldsCycle twins "\x7b\x7bA\x7d\x7d" :=
    ⟨_, twins_leadToCycle, String.contains_string_iff.2 (List.infix_refl _)⟩
  have hok : substitute "\x7b\x7bA\x7d\x7d" twins = .ok "\x7b\x7bA\x7d\x7d" := by
    -- the second token puts back within the pass what the first one has replaced
    have hfixed : replaceEach (passed twins 0 "\x7b\x7bA\x7d\x7d") twins.entries =
        passed twins 0 "\x7b\x7bA\x7d\x7d" := by
      simp only [passed, replaceEach, replaceOne_eq]
      decide +kernel
    rcases run_cases _ hfixed (Nat.succ_pos (twins.size + 1)) 0 with
      hok | ⟨passes, count, hpasses, hlong, _⟩
    · exact hok
    · refine absurd hlong (Nat.not_lt.2 (duringPass_short ?_ hpasses count))
      simp only [duringPass, passed, replaceEach, replaceOne_eq]
      decide +kernel
  -- so the run takes the cycle for a text that has settled
  have hleft := token_left_iff hok
  have hback := hleft.2 twins_separate hcycle
  exact ⟨hok, hleft.1.2 hback, twins_separate, hcycle, hback⟩

end ConfigPack.Substitution
