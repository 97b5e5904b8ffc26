import ConfigPack.Proofs.Substitution.Marker
import ConfigPack.Proofs.Substitution.Pass
import ConfigPack.Proofs.Substitution.Uses

/-!
# Substitution expands markers

When all tokens are markers and no token leads back to itself, substitution gives the text in which
every marker of a token is replaced by the expansion of its value (`substitute_expands`).  A pass
replaces all markers of tokens that it finds, so it leaves only markers of lower rank
(`pass_lowers`), and after as many passes as there are tokens none is left.
-/

namespace ConfigPack.Substitution

/-! ## Expansion -/

/-- A text with every marker of a token replaced by the expansion of the token's value; all other
characters are kept. -/
inductive Expansion (tokens : Variables) : List Char → List Char → Prop
  | nil : Expansion tokens [] []
  | keep {c : Char} {rest out : List Char} :
    (∀ name : Name, tokens.contains name.token = true → ¬ name.marker <+: c :: rest) →
    Expansion tokens rest out → Expansion tokens (c :: rest) (c :: out)
  | marker {name : Name} {value : String} {rest inner out : List Char} :
    tokens.find? name.token = some value → Expansion tokens value.toList inner →
    Expansion tokens rest out → Expansion tokens (name.marker ++ rest) (inner ++ out)

variable {tokens : Variables} {name : Name} {pieces xs ys out : List Piece}

/-- A text has one expansion at most. -/
lemma Expansion.unique {text out out' : List Char} (h : Expansion tokens text out)
    (h' : Expansion tokens text out') : out = out' := by
  -- the second expansion has to take the same step, as a marker is not also an ordinary character
  induction h generalizing out' with
  | nil =>
    generalize htext : ([] : List Char) = text at h'
    cases h' with
    | nil => rfl
    | keep => cases htext
    | marker => cases htext
  | @keep c rest out hother _ ih =>
    generalize htext : c :: rest = text at h'
    cases h' with
    | nil => cases htext
    | keep _ hrest =>
      cases htext
      rw [ih hrest]
    | @marker name value rest' inner out' hvalue _ _ =>
      exact absurd ⟨rest', htext.symm⟩ (hother name (Dict.contains_of_find? hvalue))
  | @marker name value rest inner out hvalue _ _ ihinner ihrest =>
    generalize htext : name.marker ++ rest = text at h'
    cases h' with
    | nil => cases htext
    | keep hother _ => exact absurd ⟨rest, htext⟩ (hother name (Dict.contains_of_find? hvalue))
    | @marker name' value' rest' inner' out' hvalue' hinner' hrest' =>
      obtain rfl : name = name' := Name.eq_of_prefix ⟨rest, htext⟩
      rw [hvalue] at hvalue'
      cases hvalue'
      rw [ihinner hinner', ihrest (List.append_cancel_left htext ▸ hrest')]

/-- The expansion of pieces, piece by piece. -/
inductive Unfolds (tokens : Variables) : List Piece → List Piece → Prop
  | nil : Unfolds tokens [] []
  | char {c : Char} {rest out : List Piece} : Unfolds tokens rest out →
    Unfolds tokens (.char c :: rest) (.char c :: out)
  | other {name : Name} {rest out : List Piece} : tokens.find? name.token = none →
    Unfolds tokens rest out → Unfolds tokens (.marker name :: rest) (.marker name :: out)
  | token {name : Name} {value : String} {inner rest unfolded out : List Piece} :
    tokens.find? name.token = some value → Reads value inner → Unfolds tokens inner unfolded →
    Unfolds tokens rest out → Unfolds tokens (.marker name :: rest) (unfolded ++ out)

/-- What unfolds to a text unfolds part by part. -/
lemma Unfolds.split (h : Unfolds tokens (xs ++ ys) out) :
    ∃ front back, out = front ++ back ∧ Unfolds tokens xs front ∧ Unfolds tokens ys back := by
  induction xs generalizing out with
  | nil => exact ⟨[], out, rfl, .nil, h⟩
  | cons piece xs ih =>
    cases h with
    | char hrest =>
      obtain ⟨front, back, rfl, hfront, hback⟩ := ih hrest
      exact ⟨_, back, rfl, .char hfront, hback⟩
    | other hname hrest =>
      obtain ⟨front, back, rfl, hfront, hback⟩ := ih hrest
      exact ⟨_, back, rfl, .other hname hfront, hback⟩
    | token hvalue hreads hinner hrest =>
      obtain ⟨front, back, rfl, hfront, hback⟩ := ih hrest
      exact ⟨_, back, (List.append_assoc _ _ _).symm, .token hvalue hreads hinner hfront, hback⟩

/-- What pieces unfold to after a marker was replaced, they unfold to before. -/
lemma Unfolds.of_filled {value : String} {inner : List Piece}
    (hvalue : tokens.find? name.token = some value) (hreads : Reads value inner)
    (h : Unfolds tokens (filled name inner pieces) out) : Unfolds tokens pieces out := by
  induction pieces generalizing out with
  | nil => exact h
  | cons piece rest ih =>
    cases piece with
    | char c =>
      rw [filled_char] at h
      cases h with
      | char hrest => exact .char (ih hrest)
    | marker other =>
      by_cases hname : other = name
      · subst hname
        rw [filled_same] at h
        obtain ⟨front, back, rfl, hfront, hback⟩ := h.split
        exact .token hvalue hreads hfront (ih hback)
      · rw [filled_other hname] at h
        cases h with
        | other hnone hrest => exact .other hnone (ih hrest)
        | token hfound hinner hunfolded hrest => exact .token hfound hinner hunfolded (ih hrest)

/-- Characters without a brace are kept. -/
lemma Expansion.copy {front rest out : List Char} (hfront : '\x7b' ∉ front)
    (h : Expansion tokens rest out) : Expansion tokens (front ++ rest) (front ++ out) := by
  induction front with
  | nil => exact h
  | cons c front ih =>
    rw [List.mem_cons, not_or] at hfront
    refine .keep (fun name _ hprefix => ?_) (ih hfront.2)
    exact hfront.1 (List.cons_prefix_cons.1 hprefix).1

/-- What pieces unfold to is the expansion of their characters. -/
lemma Unfolds.expansion (h : Unfolds tokens pieces out) (hproper : Proper pieces) :
    Expansion tokens (write pieces) (write out) := by
  induction h with
  | nil => exact .nil
  | char _ ih => exact .keep (fun name _ => hproper.not_prefix name) (ih hproper.2)
  | @other name rest out hnone _ ih =>
    refine .keep (fun name' hname' hprefix => ?_) (.keep (fun name' _ => ?_) ?_)
    · obtain rfl := Name.eq_of_prefix hprefix
      rw [Dict.contains, hnone] at hname'
      cases hname'
    · exact Name.not_prefix_of_head (name.head?_tail _) _
    · exact (ih hproper).copy name.open_notMem_tail
  | token hvalue hreads _ _ ihinner ihrest =>
    rw [write_marker, write_append]
    refine .marker hvalue ?_ (ihrest hproper)
    rw [hreads.text_eq]
    exact ihinner hreads.proper

/-! ## What passes leave -/

/-- Tokens to which substitution applies in the ordinary way: they are markers, none leads back to
itself, and in their values two braces stand only where a marker begins, also when the values are
put into a text. -/
structure Ordinary (tokens : Variables) : Prop where
  markers : ∀ token, tokens.contains token = true → ∃ name : Name, token = name.token
  acyclic : Acyclic tokens
  closed : ∀ token value, tokens.find? token = some value → EndsClosed value.toList
  values : ∀ token value, tokens.find? token = some value → OpensMarkers value.toList

/-- The markers of tokens among pieces have ranks below a level. -/
def Below (tokens : Variables) (level : Nat) (pieces : List Piece) : Prop :=
  ∀ name : Name, .marker name ∈ pieces → tokens.contains name.token = true →
    rank tokens name.token < level

/-- The markers of tokens among pieces have ranks below a level, or just at it when the token is
still due. -/
def BelowOrDue (tokens : Variables) (level : Nat) (due : List String) (pieces : List Piece) : Prop :=
  ∀ name : Name, .marker name ∈ pieces → tokens.contains name.token = true →
    rank tokens name.token < level ∨ rank tokens name.token = level ∧ name.token ∈ due

/-- What is below a level is below every higher one. -/
lemma Below.mono {level level' : Nat} (h : Below tokens level pieces) (hle : level ≤ level') :
    Below tokens level' pieces :=
  fun name hmem hname => Nat.lt_of_lt_of_le (h name hmem hname) hle

/-- Before a pass all tokens are due. -/
lemma Below.due {level : Nat} (h : Below tokens (level + 1) pieces) :
    BelowOrDue tokens level tokens.keys pieces := by
  intro name hmem hname
  refine (Nat.lt_or_eq_of_le (Nat.le_of_lt_succ (h name hmem hname))).imp_right fun hrank => ?_
  exact ⟨hrank, Dict.contains_iff.1 hname⟩

/-- After a pass no token is due. -/
lemma BelowOrDue.below {level : Nat} (h : BelowOrDue tokens level [] pieces) :
    Below tokens level pieces := by
  intro name hmem hname
  exact (h name hmem hname).resolve_right fun hdue => List.not_mem_nil hdue.2

/-- A marker in a value is used by the token of the value. -/
lemma uses_of_mem {value : String} {inner : List Piece} {other : Name}
    (hvalue : tokens.find? name.token = some value) (hreads : Reads value inner)
    (hother : .marker other ∈ inner) (hdeclared : tokens.contains other.token = true) :
    Uses tokens name.token other.token := by
  refine ⟨value, hvalue, hdeclared, String.contains_string_iff.2 ?_⟩
  obtain ⟨front, back, rfl⟩ := List.append_of_mem hother
  rw [hreads.text_eq, write_append, write_marker, Name.toList_token]
  exact ⟨write front, write back, List.append_assoc _ _ _⟩

/-- One token is replaced by its value all over a text. -/
lemma replaceOne_token (text : String) (name : Name) (value : String) :
    replaceOne text (name.token, value) = Text.replace text name.token value := by
  rw [replaceOne, if_neg fun hempty => name.token_ne_empty (String.isEmpty_iff.1 hempty)]

/-- A token that is replaced is no longer due: what comes from its value has a lower rank. -/
lemma BelowOrDue.filled {level : Nat} {due : List String} {value : String} {inner : List Piece}
    (hacyclic : Acyclic tokens) (hvalue : tokens.find? name.token = some value)
    (hreads : Reads value inner) (h : BelowOrDue tokens level (name.token :: due) pieces) :
    BelowOrDue tokens level due (filled name inner pieces) := by
  intro other hmem hother
  rcases marker_mem_filled hmem with ⟨hname, hinner⟩ | ⟨hpieces, hne⟩
  · have hlower := rank_lt_of_uses hacyclic (uses_of_mem hvalue hreads hinner hother)
    have hrank := h name hname (Dict.contains_of_find? hvalue)
    omega
  · refine (h other hpieces hother).imp_right fun hdue => ⟨hdue.1, ?_⟩
    exact (List.mem_cons.1 hdue.2).resolve_left fun hsame => hne (Name.token_inj hsame)

/-- Replacing tokens leaves pieces in which they are no longer due, and which unfold to the same. -/
lemma replaceEach_lowers (h : Ordinary tokens) {level : Nat} {entries : List (String × String)}
    (hentries : ∀ e ∈ entries, tokens.find? e.1 = some e.2) {text : String}
    (hreads : Reads text pieces)
    (hdue : BelowOrDue tokens level (entries.map Prod.fst) pieces) :
    ∃ left, Reads (replaceEach text entries) left ∧ BelowOrDue tokens level [] left ∧
      ∀ out, Unfolds tokens left out → Unfolds tokens pieces out := by
  induction entries generalizing text pieces with
  | nil => exact ⟨pieces, hreads, hdue, fun _ hout => hout⟩
  | cons entry entries ih =>
    obtain ⟨token, value⟩ := entry
    rw [List.forall_mem_cons] at hentries
    have hvalue : tokens.find? token = some value := hentries.1
    obtain ⟨name, rfl⟩ := h.markers token (Dict.contains_of_find? hvalue)
    obtain ⟨inner, hinner⟩ := exists_reads (h.values _ value hvalue)
    have hnext := hreads.replace hinner (h.closed _ value hvalue) name
    rw [← replaceOne_token] at hnext
    obtain ⟨left, hleft, hlow, hunfolds⟩ :=
      ih hentries.2 hnext (hdue.filled h.acyclic hvalue hinner)
    exact ⟨left, hleft, hlow, fun out hout => (hunfolds out hout).of_filled hvalue hinner⟩

/-- A pass leaves markers of a lower level, which unfold to the same. -/
lemma pass_lowers (h : Ordinary tokens) {level : Nat} {text : String}
    (hreads : Reads text pieces) (hbelow : Below tokens (level + 1) pieces) :
    ∃ left, Reads (replaceEach text tokens.entries) left ∧ Below tokens level left ∧
      ∀ out, Unfolds tokens left out → Unfolds tokens pieces out := by
  obtain ⟨left, hleft, hlow, hunfolds⟩ :=
    replaceEach_lowers h (fun e he => Dict.find?_eq_some_iff.2 he) hreads hbelow.due
  exact ⟨left, hleft, hlow.below, hunfolds⟩

/-- Pieces without markers of tokens unfold to themselves. -/
lemma unfolds_self (h : Below tokens 0 pieces) : Unfolds tokens pieces pieces := by
  induction pieces with
  | nil => exact .nil
  | cons piece rest ih =>
    have hrest := ih fun name hmem => h name (List.mem_cons_of_mem _ hmem)
    cases piece with
    | char c => exact .char hrest
    | marker name =>
      refine .other ?_ hrest
      rw [Dict.find?_eq_none_iff, ← Dict.contains_iff]
      exact fun hname => Nat.not_lt_zero _ (h name List.mem_cons_self hname)

/-- Passes expand a text when there are as many as its level. -/
lemma passed_unfolds (h : Ordinary tokens) {level : Nat} {text : String}
    (hreads : Reads text pieces) (hbelow : Below tokens level pieces) :
    ∃ out, Unfolds tokens pieces out ∧ (passed tokens level text).toList = write out := by
  induction level generalizing text pieces with
  | zero => exact ⟨pieces, unfolds_self hbelow, hreads.text_eq⟩
  | succ level ih =>
    obtain ⟨left, hleft, hlow, hunfolds⟩ := pass_lowers h hreads hbelow
    obtain ⟨out, hout, htext⟩ := ih hleft hlow
    exact ⟨out, hunfolds out hout, htext⟩

/-- After as many passes as there are tokens a text is its expansion. -/
lemma passed_expansion (h : Ordinary tokens) {content : String}
    (hcontent : OpensMarkers content.toList) {level : Nat} (hlevel : tokens.size ≤ level) :
    Expansion tokens content.toList (passed tokens level content).toList := by
  obtain ⟨pieces, hreads⟩ := exists_reads hcontent
  have hbelow : Below tokens tokens.size pieces := fun name _ hname =>
    rank_lt_size h.acyclic hname
  obtain ⟨out, hout, htext⟩ := passed_unfolds h hreads (hbelow.mono hlevel)
  rw [htext, hreads.text_eq]
  exact hout.expansion hreads.proper

/-- Where tokens are markers that do not lead back to themselves, a text has one expansion, and
substitution gives it.  It fails only because a text on the way has grown too far, and never for
having run too many passes. -/
theorem substitute_expands (h : Ordinary tokens) {content : String}
    (hcontent : OpensMarkers content.toList) :
    ∃ expanded : String,
      (∀ out, Expansion tokens content.toList out ↔ out = expanded.toList) ∧
      (substitute content tokens = .ok expanded ∨
        ∃ passes count, passes ≤ tokens.size ∧
          content.utf8ByteSize + maxGrowth <
            (duringPass tokens content passes count).utf8ByteSize ∧
          substitute content tokens = .error ⟨passes + 1⟩) := by
  have hexpansion := passed_expansion h hcontent (Nat.le_refl tokens.size)
  refine ⟨passed tokens tokens.size content, fun out => ?_, ?_⟩
  · exact ⟨fun hout => hout.unique hexpansion, fun hout => hout ▸ hexpansion⟩
  · -- one more pass gives the expansion again
    have hfixed : replaceEach (passed tokens tokens.size content) tokens.entries =
        passed tokens tokens.size content := by
      have hmore := passed_expansion h hcontent (Nat.le_succ tokens.size)
      rw [passed_succ'] at hmore
      exact String.toList_inj.1 (hmore.unique hexpansion)
    rcases run_cases (content.utf8ByteSize + maxGrowth) hfixed
      (show tokens.size < tokens.size + 2 by omega) 0 with hok | ⟨passes, count, hle, hlong, herror⟩
    · exact .inl hok
    · rw [Nat.zero_add] at herror
      exact .inr ⟨passes, count, hle, hlong, herror⟩

/-- Three tokens of which the second leads to the third and this one to the first. -/
def chain : Variables :=
  ⟨[("\x7b\x7bA\x7d\x7d", "a"), ("\x7b\x7bB\x7d\x7d", "\x7b\x7bC\x7d\x7d"),
    ("\x7b\x7bC\x7d\x7d", "<\x7b\x7bA\x7d\x7d>")], by decide +kernel⟩

/-- The name of one letter. -/
def letter (c : Char) (h : c ≠ '\x7b' ∧ c ≠ '\x7d') : Name :=
  ⟨[c], by simp [h.1.symm], by simp [h.2.symm]⟩

/-- A text with a token at the start of the chain, and with a marker that is no token. -/
def chainText : String := "[\x7b\x7bB\x7d\x7d]\x7b\x7bD\x7d\x7d"

/-- The values of the tokens are texts of markers, and they do not end in a brace. -/
lemma chain_values : ∀ e ∈ chain.entries, OpensMarkers e.2.toList ∧ EndsClosed e.2.toList := by
  simp only [chain, List.forall_mem_cons, List.not_mem_nil, false_imp_iff, implies_true, and_true]
  refine ⟨⟨?_, by decide +kernel⟩, ⟨?_, by decide +kernel⟩, ⟨?_, by decide +kernel⟩⟩
  · exact @Proper.opensMarkers [.char 'a'] (by simp [Proper])
  · exact @Proper.opensMarkers [.marker (letter 'C' (by decide))] (by simp [Proper])
  · exact @Proper.opensMarkers [.char '<', .marker (letter 'A' (by decide)), .char '>'] (by simp [Proper])

/-- How far a token is from the end of the chain. -/
def chainPlace (token : String) : Nat :=
  ["\x7b\x7bA\x7d\x7d", "\x7b\x7bC\x7d\x7d"].idxOf token

/-- The tokens are ordinary, each below those that refer to it. -/
lemma chain_ordinary : Ordinary chain where
  markers token htoken := by
    rw [Dict.contains_iff] at htoken
    have hnames : ∀ token ∈ chain.keys, token = (letter 'A' (by decide)).token ∨
        token = (letter 'B' (by decide)).token ∨ token = (letter 'C' (by decide)).token := by
      decide +kernel
    rcases hnames token htoken with h | h | h <;> exact ⟨_, h⟩
  acyclic := by
    refine acyclic_of_falling chainPlace ?_
    rintro token used ⟨value, hvalue, hused, hoccurs⟩
    have hfalls : ∀ e ∈ chain.entries, ∀ used ∈ chain.keys, used.toList <:+: e.2.toList →
        chainPlace used < chainPlace e.1 := by
      decide +kernel
    exact hfalls (token, value) (Dict.mem_entries_of_find? hvalue) used (Dict.contains_iff.1 hused)
      (String.contains_string_iff.1 hoccurs)
  closed token value hvalue := (chain_values _ (Dict.mem_entries_of_find? hvalue)).2
  values token value hvalue := (chain_values _ (Dict.mem_entries_of_find? hvalue)).1

/-- Braces in the text open markers only. -/
lemma chainText_opensMarkers : OpensMarkers chainText.toList :=
  @Proper.opensMarkers [.char '[', .marker (letter 'B' (by decide)), .char ']',
    .marker (letter 'D' (by decide))] (by simp [Proper])

/-- No text on the way is long. -/
lemma chain_short (passes count : Nat) (hpasses : passes ≤ chain.size) :
    (duringPass chain chainText passes count).utf8ByteSize ≤ chainText.utf8ByteSize + maxGrowth := by
  refine duringPass_short ?_ hpasses count
  simp only [duringPass, passed, replaceEach, replaceOne_eq]
  decide +kernel

/-- What the text stands for. -/
lemma chain_expansion :
    Expansion chain chainText.toList "[<a>]\x7b\x7bD\x7d\x7d".toList := by
  have hA : Reads "a" [.char 'a'] := ⟨rfl, by simp [Proper]⟩
  have hB : Reads "\x7b\x7bC\x7d\x7d" [.marker (letter 'C' (by decide))] :=
    ⟨rfl, by simp [Proper]⟩
  have hC : Reads "<\x7b\x7bA\x7d\x7d>"
      [.char '<', .marker (letter 'A' (by decide)), .char '>'] := ⟨rfl, by simp [Proper]⟩
  have hcontent : Proper [.char '[', .marker (letter 'B' (by decide)), .char ']',
      .marker (letter 'D' (by decide))] := by simp [Proper]
  have hvalueA : chain.find? (letter 'A' (by decide)).token = some "a" := by decide +kernel
  have hvalueB : chain.find? (letter 'B' (by decide)).token = some "\x7b\x7bC\x7d\x7d" := by
    decide +kernel
  have hvalueC : chain.find? (letter 'C' (by decide)).token = some "<\x7b\x7bA\x7d\x7d>" := by
    decide +kernel
  have hvalueD : chain.find? (letter 'D' (by decide)).token = none := by decide +kernel
  -- from the innermost token outwards: A in C, C in B, and B in the text
  have ha : Unfolds chain [.marker (letter 'A' (by decide)), .char '>']
      ([.char 'a'] ++ [.char '>']) := .token hvalueA hA (.char .nil) (.char .nil)
  have hc : Unfolds chain [.marker (letter 'C' (by decide))]
      ([.char '<', .char 'a', .char '>'] ++ []) := .token hvalueC hC (.char ha) .nil
  have hb : Unfolds chain [.marker (letter 'B' (by decide)), .char ']',
      .marker (letter 'D' (by decide))] ([.char '<', .char 'a', .char '>'] ++
        [.char ']', .marker (letter 'D' (by decide))]) :=
    .token hvalueB hB hc (.char (.other hvalueD .nil))
  exact (Unfolds.char hb).expansion hcontent

/-- The text is expanded through the chain, and a token without a value stays. -/
theorem chain_is_expanded :
    Ordinary chain ∧ OpensMarkers chainText.toList ∧
      substitute chainText chain = .ok "[<a>]\x7b\x7bD\x7d\x7d" := by
  refine ⟨chain_ordinary, chainText_opensMarkers, ?_⟩
  obtain ⟨expanded, hexpanded, hresult⟩ :=
    substitute_expands chain_ordinary chainText_opensMarkers
  have hsame : expanded = "[<a>]\x7b\x7bD\x7d\x7d" :=
    String.toList_inj.1 ((hexpanded _).1 chain_expansion).symm
  rw [← hsame]
  refine hresult.resolve_right ?_
  -- no text on the way is long enough to be given up
  rintro ⟨passes, count, hpasses, hlong, _⟩
  exact Nat.not_lt.2 (chain_short passes count hpasses) hlong

end ConfigPack.Substitution
