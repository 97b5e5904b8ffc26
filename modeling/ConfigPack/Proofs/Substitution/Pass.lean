import ConfigPack.Proofs.Text.Replace
import ConfigPack.Substitution
import Mathlib.Logic.Function.Iterate

/-!
# Passes over a text

A pass that does not give up replaces the tokens one after the other, whatever the limit.  A run of
passes therefore goes through the texts that unlimited passes go through (`duringPass`), and it ends
with the first one that a pass leaves as it was, unless a text on the way is too long (`run_cases`).
-/

namespace ConfigPack.Substitution

variable {limit : Nat}

/-- The text with the token of an entry replaced; an empty token replaces nothing. -/
def replaceOne (text : String) (entry : String × String) : String :=
  if entry.1.isEmpty then text else Text.replace text entry.1 entry.2

/-- The text with the tokens of entries replaced one after the other. -/
def replaceEach (text : String) (entries : List (String × String)) : String :=
  entries.foldl replaceOne text

/-- The text after so many whole passes. -/
def passed (tokens : Variables) (passes : Nat) (text : String) : String :=
  (fun t => replaceEach t tokens.entries)^[passes] text

/-- The text after so many whole passes and so many tokens of the next one. -/
def duringPass (tokens : Variables) (text : String) (passes count : Nat) : String :=
  replaceEach (passed tokens passes text) (tokens.entries.take count)

/-- The last of several passes comes after all others. -/
lemma passed_succ' (tokens : Variables) (passes : Nat) (text : String) :
    passed tokens (passes + 1) text = replaceEach (passed tokens passes text) tokens.entries :=
  Function.iterate_succ_apply' _ passes text

/-! ## Replacing one token -/

/-- Replacing one token as a computation on characters, without a search for the token first. -/
lemma replaceOne_eq : replaceOne = fun text entry => if entry.1.isEmpty then text
    else Text.replaceFrom entry.1.toList entry.2 0 text.toList "" := by
  funext text entry
  rw [replaceOne, Text.replace_eq_replaceFrom]

/-- An empty token is not replaced. -/
lemma replaceOne_of_empty {text : String} {entry : String × String} (h : entry.1 = "") :
    replaceOne text entry = text := by
  rw [replaceOne, h]
  rfl

/-- A text without the token stays as it is. -/
lemma replaceOne_of_absent {text : String} {entry : String × String}
    (h : ¬ text.contains entry.1 = true) : replaceOne text entry = text := by
  rw [replaceOne, Text.replace, if_neg h, ite_self]

/-- Otherwise the occurrences of the token are replaced from the left to the right. -/
lemma replaceOne_replaced (text : String) {entry : String × String} (h : entry.1 ≠ "") :
    Text.Replaced entry.1.toList entry.2.toList text.toList (replaceOne text entry).toList := by
  rw [replaceOne, if_neg fun hempty => h (String.isEmpty_iff.1 hempty)]
  exact Text.replace_replaced h

/-- A text changes exactly when a token occurs in it that is not its own value. -/
lemma replaceOne_ne_iff {text : String} {entry : String × String} :
    replaceOne text entry ≠ text ↔
      entry.1 ≠ "" ∧ text.contains entry.1 = true ∧ entry.2 ≠ entry.1 := by
  constructor
  · intro hne
    have hempty : entry.1 ≠ "" := fun h => hne (replaceOne_of_empty h)
    refine ⟨hempty, ?_, fun hvalue => hne ?_⟩
    · by_contra habsent
      exact hne (replaceOne_of_absent habsent)
    · apply String.toList_inj.1
      exact (replaceOne_replaced text hempty).eq_of_value (congrArg String.toList hvalue)
  · rintro ⟨hempty, hoccurs, hvalue⟩ hsame
    have hne : entry.1.toList ≠ [] := fun h => hempty (String.toList_eq_nil_iff.1 h)
    apply hvalue
    apply String.toList_inj.1
    apply (replaceOne_replaced text hempty).value_eq hne (congrArg String.toList hsame)
    exact String.contains_string_iff.1 hoccurs

/-- Replacing one token gives the replaced text, or gives up because that is too long. -/
lemma replaceToken_cases (limit : Nat) (m : Marked) (entry : String × String) :
    (∃ m', replaceToken limit m entry.1 entry.2 = some m' ∧ m'.text = replaceOne m.text entry) ∨
      replaceToken limit m entry.1 entry.2 = none ∧
        limit < (replaceOne m.text entry).utf8ByteSize := by
  unfold replaceToken replaceOne
  by_cases hempty : entry.1.isEmpty = true
  · rw [if_pos hempty, hempty, Bool.true_or, if_pos rfl]
    exact .inl ⟨m, rfl, rfl⟩
  · rw [if_neg hempty, Bool.eq_false_iff.2 hempty, Bool.false_or]
    by_cases hholds : m.holds entry.1 = true
    · rw [hholds, Bool.not_true, if_neg Bool.false_ne_true]
      by_cases hlong : limit < (Text.replace m.text entry.1 entry.2).utf8ByteSize
      · exact .inr ⟨if_pos hlong, hlong⟩
      · exact .inl ⟨_, if_neg hlong, rfl⟩
    · -- a token that does not occur leaves the text as it is
      rw [Bool.eq_false_iff.2 hholds, Bool.not_false, if_pos rfl]
      rw [Marked.holds_eq_contains] at hholds
      refine .inl ⟨m, rfl, ?_⟩
      rw [Text.replace, if_neg hholds]

/-- Replacing tokens one after the other gives the text with all replaced, or a text on the way is
too long. -/
lemma foldlM_replaceToken (limit : Nat) (entries : List (String × String)) (m : Marked) :
    (∃ m', entries.foldlM (fun m e => replaceToken limit m e.1 e.2) m = some m' ∧
      m'.text = replaceEach m.text entries) ∨
      entries.foldlM (fun m e => replaceToken limit m e.1 e.2) m = none ∧
        ∃ count, limit < (replaceEach m.text (entries.take count)).utf8ByteSize := by
  induction entries generalizing m with
  | nil => exact .inl ⟨m, rfl, rfl⟩
  | cons entry entries ih =>
    rw [List.foldlM_cons]
    rcases replaceToken_cases limit m entry with ⟨m', hstep, htext⟩ | ⟨hstep, hlong⟩
    · rw [hstep]
      rcases ih m' with ⟨m'', hrest, hlast⟩ | ⟨hrest, count, hlong⟩
      · refine .inl ⟨m'', hrest, ?_⟩
        rw [hlast, htext]
        rfl
      · refine .inr ⟨hrest, count + 1, ?_⟩
        rw [htext] at hlong
        exact hlong
    · rw [hstep]
      exact .inr ⟨rfl, 1, hlong⟩

/-- A pass gives the text with all tokens replaced, or a text on the way is too long. -/
lemma pass_cases (limit : Nat) (text : String) (entries : List (String × String)) :
    pass limit text entries = some (replaceEach text entries) ∨
      pass limit text entries = none ∧
        ∃ count, limit < (replaceEach text (entries.take count)).utf8ByteSize := by
  rw [pass]
  rcases foldlM_replaceToken limit entries (.of text) with
    ⟨m, hfold, htext⟩ | ⟨hfold, hlong⟩
  · rw [hfold, Option.map_some, htext]
    exact .inl rfl
  · rw [hfold]
    exact .inr ⟨rfl, hlong⟩

/-- A text that a pass leaves is left by all passes. -/
lemma passed_of_fixed {tokens : Variables} {text : String}
    (h : replaceEach text tokens.entries = text) (passes : Nat) :
    passed tokens passes text = text :=
  Function.iterate_fixed h passes

/-- Texts on the way are short when the finitely many different ones are. -/
lemma duringPass_short {tokens : Variables} {text : String} {bound passes : Nat}
    (h : ∀ passes ∈ List.range (bound + 1), ∀ count ∈ List.range (tokens.size + 1),
      (duringPass tokens text passes count).utf8ByteSize ≤ limit)
    (hpasses : passes ≤ bound) (count : Nat) :
    (duringPass tokens text passes count).utf8ByteSize ≤ limit := by
  rw [duringPass, List.take_eq_take_min]
  apply h passes (List.mem_range.2 (Nat.lt_succ_of_le hpasses))
  exact List.mem_range.2 (Nat.lt_succ_of_le (Nat.min_le_right count tokens.size))

/-- Once a pass leaves a text as it is, all further passes do. -/
lemma passed_of_le {tokens : Variables} {text : String} {passes more : Nat}
    (h : replaceEach (passed tokens passes text) tokens.entries = passed tokens passes text)
    (hle : passes ≤ more) : passed tokens more text = passed tokens passes text := by
  obtain ⟨rest, rfl⟩ := Nat.exists_eq_add_of_le' hle
  rw [passed, Function.iterate_add_apply]
  exact passed_of_fixed h rest

/-! ## Runs of passes -/

/-- A run ends with the first pass that changes nothing. -/
lemma run_ends {tokens : Variables} {text : String} (h : pass limit text tokens.entries = some text)
    (done left : Nat) : run limit tokens text done (left + 1) = .ok text := by
  -- the comparison behind the first pass ends the run
  simp only [run, h, if_pos]

/-- A pass that changes the text is followed by the next one. -/
lemma run_goes_on {tokens : Variables} {text next : String}
    (h : pass limit text tokens.entries = some next) (hne : next ≠ text) (done left : Nat) :
    run limit tokens text done (left + 1) = run limit tokens next (done + 1) left := by
  simp only [run, h, if_neg hne]

/-- A run gives up with a pass that outgrows the limit. -/
lemma run_gives_up {tokens : Variables} {text : String}
    (h : pass limit text tokens.entries = none) (done left : Nat) :
    run limit tokens text done (left + 1) = .error ⟨done + 1⟩ := by
  simp only [run, h]

/-- A text that a run returns is one that passes lead to, and another pass leaves it as it is. -/
lemma of_run_ok {tokens : Variables} {text out : String} {done left : Nat}
    (h : run limit tokens text done left = .ok out) : ∃ passes, passes < left ∧
      passed tokens passes text = out ∧ replaceEach out tokens.entries = out := by
  induction left generalizing text done with
  | zero => cases h
  | succ left ih =>
    rcases pass_cases limit text tokens.entries with hpass | ⟨hpass, _⟩
    · by_cases hsame : replaceEach text tokens.entries = text
      · rw [hsame] at hpass
        rw [run_ends hpass] at h
        cases h
        exact ⟨0, Nat.succ_pos left, rfl, hsame⟩
      · rw [run_goes_on hpass hsame] at h
        obtain ⟨passes, hpasses, hout, hfixed⟩ := ih h
        exact ⟨passes + 1, Nat.succ_lt_succ hpasses, hout, hfixed⟩
    · rw [run_gives_up hpass] at h
      cases h

/-- A run in which each pass changes the text fails when it has run all of them, unless a text on
the way is too long. -/
lemma run_unsettled {tokens : Variables} {text : String} {left : Nat}
    (hchanges : ∀ passes, passes < left →
      replaceEach (passed tokens passes text) tokens.entries ≠ passed tokens passes text)
    (hshort : ∀ passes count, passes < left →
      (duringPass tokens text passes count).utf8ByteSize ≤ limit) (done : Nat) :
    run limit tokens text done left = .error ⟨done + left⟩ := by
  induction left generalizing text done with
  | zero => rfl
  | succ left ih =>
    rcases pass_cases limit text tokens.entries with hpass | ⟨_, count, hlong⟩
    · rw [run_goes_on hpass (hchanges 0 (Nat.succ_pos left)), Nat.add_comm left 1, ← Nat.add_assoc]
      apply ih
      · exact fun passes hpasses => hchanges (passes + 1) (Nat.succ_lt_succ hpasses)
      · exact fun passes count hpasses => hshort (passes + 1) count (Nat.succ_lt_succ hpasses)
    · exact absurd hlong (Nat.not_lt.2 (hshort 0 count (Nat.succ_pos left)))

/-- When passes have come to an end after so many, a run of more passes gives the text they ended
with, unless a text on the way is too long. -/
lemma run_cases (limit : Nat) {tokens : Variables} {text : String} {passes left : Nat}
    (hfixed : replaceEach (passed tokens passes text) tokens.entries = passed tokens passes text)
    (hleft : passes < left) (done : Nat) :
    run limit tokens text done left = .ok (passed tokens passes text) ∨
      ∃ before count, before ≤ passes ∧
        limit < (duringPass tokens text before count).utf8ByteSize ∧
        run limit tokens text done left = .error ⟨done + before + 1⟩ := by
  -- on the passes that are needed: the first one settles the text, changes it, or is too long
  induction passes generalizing text left done with
  | zero =>
    obtain ⟨left, rfl⟩ := Nat.exists_eq_succ_of_ne_zero (Nat.ne_zero_of_lt hleft)
    rcases pass_cases limit text tokens.entries with hpass | ⟨hpass, count, hlong⟩
    · have hsame : replaceEach text tokens.entries = text := hfixed
      rw [hsame] at hpass
      exact .inl (run_ends hpass done left)
    · exact .inr ⟨0, count, Nat.le_refl 0, hlong, run_gives_up hpass done left⟩
  | succ passes ih =>
    obtain ⟨left, rfl⟩ := Nat.exists_eq_succ_of_ne_zero (Nat.ne_zero_of_lt hleft)
    rcases pass_cases limit text tokens.entries with hpass | ⟨hpass, count, hlong⟩
    · by_cases hsame : replaceEach text tokens.entries = text
      · -- the passes ended earlier, and what would follow changes nothing
        rw [hsame] at hpass
        rw [passed_of_fixed hsame]
        exact .inl (run_ends hpass done left)
      · rw [run_goes_on hpass hsame]
        rcases ih hfixed (Nat.lt_of_succ_lt_succ hleft) (done + 1) with
          hok | ⟨before, count, hbefore, hlong, herror⟩
        · exact .inl hok
        · refine .inr ⟨before + 1, count, Nat.succ_le_succ hbefore, hlong, ?_⟩
          rw [herror, Nat.add_right_comm done 1 before]
          rfl
    · exact .inr ⟨0, count, Nat.zero_le _, hlong, run_gives_up hpass done left⟩

end ConfigPack.Substitution
