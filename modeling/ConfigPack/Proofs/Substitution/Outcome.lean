import ConfigPack.Proofs.Substitution.Pass
import Mathlib.Data.Nat.Find

/-!
# Outcomes of substitution

A run of passes has three ways to end: a pass leaves the text as it was, a replacement makes the
text too long, or all passes are used up.  Until then it goes through the texts that unlimited
passes go through (`run_add`).  The first pass that does not go on decides, so the outcome is told
by the number of passes after which the text settles and by the first pass that makes it too long
(`substituteWithin_outcome`).
-/

namespace ConfigPack.Substitution

/-- The token of an entry is replaced in the text, which becomes too long by it. -/
def Outgrows (limit : Nat) (text : String) (entry : String × String) : Prop :=
  entry.1 ≠ "" ∧ text.contains entry.1 = true ∧ limit < (replaceOne text entry).utf8ByteSize

/-- A replacement in a pass over the text makes it too long. -/
def PassOutgrows (limit : Nat) (tokens : Variables) (text : String) : Prop :=
  ∃ front entry back, tokens.entries = front ++ entry :: back ∧
    Outgrows limit (replaceEach text front) entry

/-- A pass over the text does not end the run: it changes the text and does not make it too long. -/
def GoesOn (limit : Nat) (tokens : Variables) (text : String) : Prop :=
  ¬ PassOutgrows limit tokens text ∧ replaceEach text tokens.entries ≠ text

/-- So many passes change the text each, and the next one leaves it as it is. -/
structure SettlesAfter (tokens : Variables) (content : String) (passes : Nat) : Prop where
  fixed : replaceEach (passed tokens passes content) tokens.entries = passed tokens passes content
  changed : ∀ before, before < passes →
    replaceEach (passed tokens before content) tokens.entries ≠ passed tokens before content

/-- The first pass in which the text becomes too long; passes are counted from one. -/
def FirstOutgrown (limit : Nat) (tokens : Variables) (content : String) (number : Nat) : Prop :=
  ∃ before, number = before + 1 ∧ PassOutgrows limit tokens (passed tokens before content) ∧
    ∀ earlier, earlier < before → ¬ PassOutgrows limit tokens (passed tokens earlier content)

variable {limit : Nat} {tokens : Variables} {text content : String} {entry : String × String}

/-! ## One pass -/

/-- A replacement is given up when the text would outgrow the limit. -/
lemma replaceToken_eq_none {m : Marked} :
    replaceToken limit m entry.1 entry.2 = none ↔ Outgrows limit m.text entry := by
  unfold replaceToken Outgrows
  rw [m.holds_eq_contains]
  by_cases hempty : entry.1 = ""
  · simp [hempty]
  · cases hoccurs : m.text.contains entry.1 with
    | false => simp
    | true => simp [hempty, replaceOne, String.isEmpty_iff]

/-- A pass is given up at the first token with which that happens. -/
lemma foldlM_replaceToken_eq_none {entries : List (String × String)} {m : Marked} :
    entries.foldlM (fun m e => replaceToken limit m e.1 e.2) m = none ↔
      ∃ front entry back, entries = front ++ entry :: back ∧
        Outgrows limit (replaceEach m.text front) entry := by
  induction entries generalizing m with
  | nil => simp
  | cons first entries ih =>
    rw [List.foldlM_cons]
    rcases replaceToken_cases limit m first with ⟨m', hstep, htext⟩ | ⟨hstep, _⟩
    · have hfine : ¬ Outgrows limit m.text first := by
        rw [← replaceToken_eq_none, hstep]
        exact Option.some_ne_none m'
      rw [hstep, Option.bind_eq_bind, Option.bind_some, ih, htext]
      constructor
      · rintro ⟨front, entry, back, rfl, hlong⟩
        exact ⟨first :: front, entry, back, rfl, hlong⟩
      · rintro ⟨front, entry, back, hsplit, hlong⟩
        cases front with
        | nil =>
          cases hsplit
          exact absurd hlong hfine
        | cons _ front =>
          cases hsplit
          exact ⟨front, entry, back, rfl, hlong⟩
    · rw [hstep]
      refine ⟨fun _ => ⟨[], first, entries, rfl, ?_⟩, fun _ => rfl⟩
      exact replaceToken_eq_none.1 hstep

/-- A pass gives up exactly when a replacement makes the text too long. -/
lemma pass_eq_none : pass limit text tokens.entries = none ↔ PassOutgrows limit tokens text := by
  rw [pass, Option.map_eq_none_iff, foldlM_replaceToken_eq_none]
  rfl

/-- A pass in which nothing outgrows the limit is made in full. -/
lemma pass_eq_some (h : ¬ PassOutgrows limit tokens text) :
    pass limit text tokens.entries = some (replaceEach text tokens.entries) := by
  rcases pass_cases limit text tokens.entries with hpass | ⟨hpass, _⟩
  · exact hpass
  · exact absurd (pass_eq_none.1 hpass) h

/-! ## Runs of passes -/

/-- A run goes through the texts of passes that do not end it. -/
lemma run_add {passes : Nat}
    (h : ∀ before, before < passes → GoesOn limit tokens (passed tokens before text))
    (done left : Nat) : run limit tokens text done (passes + left) =
      run limit tokens (passed tokens passes text) (done + passes) left := by
  induction passes generalizing left with
  | zero =>
    rw [Nat.zero_add]
    rfl
  | succ passes ih =>
    obtain ⟨hshort, hchanges⟩ := h passes (Nat.lt_succ_self passes)
    rw [Nat.succ_add_eq_add_succ, ih fun before hbefore => h before (Nat.lt_succ_of_lt hbefore),
      passed_succ']
    exact run_goes_on (pass_eq_some hshort) hchanges _ _

/-- A run ends with a text that settles before it is too long. -/
lemma run_settled {passes left : Nat} (h : SettlesAfter tokens text passes) (hleft : passes < left)
    (hshort : ∀ before, before ≤ passes → ¬ PassOutgrows limit tokens (passed tokens before text))
    (done : Nat) : run limit tokens text done left = .ok (passed tokens passes text) := by
  obtain ⟨rest, rfl⟩ := Nat.exists_eq_add_of_lt hleft
  rw [Nat.add_assoc, run_add fun before hbefore =>
    ⟨hshort before (Nat.le_of_lt hbefore), h.changed before hbefore⟩]
  apply run_ends
  rw [pass_eq_some (hshort passes (Nat.le_refl passes)), h.fixed]

/-- A run gives up in the pass that makes a text too long before it settles. -/
lemma run_outgrown {passes left : Nat}
    (h : PassOutgrows limit tokens (passed tokens passes text)) (hleft : passes < left)
    (hbefore : ∀ before, before < passes → GoesOn limit tokens (passed tokens before text))
    (done : Nat) : run limit tokens text done left = .error ⟨done + passes + 1⟩ := by
  obtain ⟨rest, rfl⟩ := Nat.exists_eq_add_of_lt hleft
  rw [Nat.add_assoc, run_add hbefore]
  exact run_gives_up (pass_eq_none.2 h) _ _

/-- Among passes that do not all go on there is a first one that does not. -/
lemma exists_first_end {left : Nat}
    (h : ¬ ∀ passes, passes < left → GoesOn limit tokens (passed tokens passes text)) :
    ∃ passes, passes < left ∧ ¬ GoesOn limit tokens (passed tokens passes text) ∧
      ∀ before, before < passes → GoesOn limit tokens (passed tokens before text) := by
  classical
  simp only [not_forall] at h
  obtain ⟨hleft, hend⟩ := Nat.find_spec h
  refine ⟨Nat.find h, hleft, hend, fun before hbefore => ?_⟩
  by_contra hnot
  exact Nat.find_min h hbefore ⟨Nat.lt_trans hbefore hleft, hnot⟩

/-- A run ends in one of three ways: the text settles, it becomes too long, or neither happens in
any of the passes. -/
lemma run_outcome (limit : Nat) (tokens : Variables) (text : String) (left : Nat) :
    (∃ passes, passes < left ∧ SettlesAfter tokens text passes ∧
      (∀ before, before ≤ passes → ¬ PassOutgrows limit tokens (passed tokens before text)) ∧
      run limit tokens text 0 left = .ok (passed tokens passes text)) ∨
    (∃ number, number ≤ left ∧ FirstOutgrown limit tokens text number ∧
      run limit tokens text 0 left = .error ⟨number⟩) ∨
    (∀ passes, passes < left → ¬ PassOutgrows limit tokens (passed tokens passes text)) ∧
      run limit tokens text 0 left = .error ⟨left⟩ := by
  by_cases hall : ∀ passes, passes < left → GoesOn limit tokens (passed tokens passes text)
  · refine .inr (.inr ⟨fun passes hpasses => (hall passes hpasses).1, ?_⟩)
    have hrun := run_add hall 0 0
    rw [Nat.add_zero, Nat.zero_add] at hrun
    exact hrun
  · obtain ⟨passes, hleft, hend, hbefore⟩ := exists_first_end hall
    by_cases hlong : PassOutgrows limit tokens (passed tokens passes text)
    · refine .inr (.inl ⟨passes + 1, hleft, ⟨passes, rfl, hlong, ?_⟩, ?_⟩)
      · exact fun earlier hearlier => (hbefore earlier hearlier).1
      · rw [run_outgrown hlong hleft hbefore, Nat.zero_add]
    · have hsettles : SettlesAfter tokens text passes := by
        refine ⟨?_, fun before h => (hbefore before h).2⟩
        by_contra hchanges
        exact hend ⟨hlong, hchanges⟩
      have hshort : ∀ before, before ≤ passes →
          ¬ PassOutgrows limit tokens (passed tokens before text) := by
        intro before h
        rcases Nat.lt_or_eq_of_le h with h | rfl
        · exact (hbefore before h).1
        · exact hlong
      exact .inl ⟨passes, hleft, hsettles, hshort, run_settled hsettles hleft hshort 0⟩

/-! ## The length of a result -/

/-- A replacement that does not outgrow the limit keeps a text within it. -/
lemma replaceOne_size_le (h : ¬ Outgrows limit text entry) :
    (replaceOne text entry).utf8ByteSize ≤ max text.utf8ByteSize limit := by
  by_cases hempty : entry.1 = ""
  · rw [replaceOne_of_empty hempty]
    exact Nat.le_max_left _ _
  · by_cases hoccurs : text.contains entry.1 = true
    · refine Nat.le_trans (Nat.le_of_not_lt fun hlong => ?_) (Nat.le_max_right _ _)
      exact h ⟨hempty, hoccurs, hlong⟩
    · rw [replaceOne_of_absent hoccurs]
      exact Nat.le_max_left _ _

/-- So does a pass. -/
lemma replaceEach_size_le {entries : List (String × String)}
    (h : ∀ front entry back, entries = front ++ entry :: back →
      ¬ Outgrows limit (replaceEach text front) entry) :
    (replaceEach text entries).utf8ByteSize ≤ max text.utf8ByteSize limit := by
  induction entries generalizing text with
  | nil => exact Nat.le_max_left _ _
  | cons first entries ih =>
    have hfirst := replaceOne_size_le (h [] first entries rfl)
    have hrest : (replaceEach (replaceOne text first) entries).utf8ByteSize ≤
        max (replaceOne text first).utf8ByteSize limit :=
      ih fun front entry back hsplit =>
        h (first :: front) entry back (congrArg (first :: ·) hsplit)
    exact Nat.le_trans hrest (max_le hfirst (Nat.le_max_right _ _))

/-- So do several passes. -/
lemma passed_size_le {passes : Nat}
    (h : ∀ before, before < passes → ¬ PassOutgrows limit tokens (passed tokens before content)) :
    (passed tokens passes content).utf8ByteSize ≤ max content.utf8ByteSize limit := by
  induction passes with
  | zero => exact Nat.le_max_left _ _
  | succ passes ih =>
    rw [passed_succ']
    have hlast := replaceEach_size_le fun front entry back hsplit hlong =>
      h passes (Nat.lt_succ_self passes) ⟨front, entry, back, hsplit, hlong⟩
    have hbefore := ih fun before hlt => h before (Nat.lt_succ_of_lt hlt)
    exact Nat.le_trans hlast (max_le hbefore (Nat.le_max_right _ _))

/-- Substitution gives a text exactly when it is the one that the content settles to in time, and no
replacement on the way makes the text too long.  Otherwise it reports the first pass in which the
text becomes too long, or, if there is none, the number of all passes.  A text that it gives is left
as it is when it is substituted again, and it is not longer than the content and the limit. -/
theorem substituteWithin_outcome (limit : Nat) (content : String) (tokens : Variables) :
    (∀ out, substituteWithin limit content tokens = .ok out ↔
      ∃ passes, passes ≤ tokens.size + 1 ∧ SettlesAfter tokens content passes ∧
        (∀ before, before ≤ passes →
          ¬ PassOutgrows limit tokens (passed tokens before content)) ∧
        out = passed tokens passes content) ∧
    ((¬ ∃ out, substituteWithin limit content tokens = .ok out) →
      ∃ number, substituteWithin limit content tokens = .error ⟨number⟩ ∧
        (number ≤ tokens.size + 2 ∧ FirstOutgrown limit tokens content number ∨
          number = tokens.size + 2 ∧ ∀ passes, passes < tokens.size + 2 →
            ¬ PassOutgrows limit tokens (passed tokens passes content))) ∧
    ∀ out, substituteWithin limit content tokens = .ok out →
      substituteWithin limit out tokens = .ok out ∧
        out.utf8ByteSize ≤ max content.utf8ByteSize limit := by
  have hok : ∀ out, substituteWithin limit content tokens = .ok out ↔
      ∃ passes, passes ≤ tokens.size + 1 ∧ SettlesAfter tokens content passes ∧
        (∀ before, before ≤ passes →
          ¬ PassOutgrows limit tokens (passed tokens before content)) ∧
        out = passed tokens passes content := by
    intro out
    constructor
    · intro h
      rcases run_outcome limit tokens content (tokens.size + 2) with
        ⟨passes, hleft, hsettles, hshort, hrun⟩ | ⟨number, _, _, hrun⟩ | ⟨_, hrun⟩
      · rw [substituteWithin, hrun] at h
        cases h
        exact ⟨passes, Nat.le_of_lt_succ hleft, hsettles, hshort, rfl⟩
      all_goals
        rw [substituteWithin, hrun] at h
        cases h
    · rintro ⟨passes, hpasses, hsettles, hshort, rfl⟩
      exact run_settled hsettles (Nat.lt_succ_of_le hpasses) hshort 0
  refine ⟨hok, fun hfails => ?_, fun out h => ?_⟩
  · -- a run that does not settle has outgrown the limit or has used up its passes
    rcases run_outcome limit tokens content (tokens.size + 2) with
      ⟨passes, _, _, _, hrun⟩ | ⟨number, hnumber, hfirst, hrun⟩ | ⟨hshort, hrun⟩
    · exact absurd ⟨_, hrun⟩ hfails
    · exact ⟨number, hrun, .inl ⟨hnumber, hfirst⟩⟩
    · exact ⟨_, hrun, .inr ⟨rfl, hshort⟩⟩
  · obtain ⟨passes, _, hsettles, hshort, rfl⟩ := (hok out).1 h
    constructor
    · -- the pass that settled the content is the only one that is needed now
      have hagain : SettlesAfter tokens (passed tokens passes content) 0 :=
        ⟨hsettles.fixed, fun before hbefore => absurd hbefore (Nat.not_lt_zero before)⟩
      apply run_settled hagain (Nat.succ_pos _) _ 0
      intro before hbefore
      obtain rfl := Nat.le_zero.1 hbefore
      exact hshort passes (Nat.le_refl passes)
    · exact passed_size_le fun before hbefore => hshort before (Nat.le_of_lt hbefore)

/-- A token without a value. -/
def vanishing : Variables := ⟨[("()", "")], by decide +kernel⟩

/-- The token is left again when it has been taken out of itself. -/
def twiceNested : String := "(())"

/-- A text may need the last pass that is allowed, and what it settles to needs none. -/
theorem twice_nested_settles :
    SettlesAfter vanishing twiceNested (vanishing.size + 1) ∧
      substituteWithin 10 twiceNested vanishing = .ok "" ∧
      substituteWithin 10 "" vanishing = .ok "" := by
  have hsettles : SettlesAfter vanishing twiceNested (vanishing.size + 1) := by
    have hfixed : replaceEach (passed vanishing 2 twiceNested) vanishing.entries =
        passed vanishing 2 twiceNested := by
      simp only [passed, replaceEach, replaceOne_eq]
      decide +kernel
    have hchanged : ∀ before ∈ List.range 2,
        replaceEach (passed vanishing before twiceNested) vanishing.entries ≠
          passed vanishing before twiceNested := by
      simp only [passed, replaceEach, replaceOne_eq]
      decide +kernel
    exact ⟨hfixed, fun before hbefore => hchanged before (List.mem_range.2 hbefore)⟩
  have hshort : ∀ passes count, passes ≤ 2 →
      (duringPass vanishing twiceNested passes count).utf8ByteSize ≤ 10 := by
    intro passes count hpasses
    refine duringPass_short ?_ hpasses count
    simp only [duringPass, passed, replaceEach, replaceOne_eq]
    decide +kernel
  have hlast : passed vanishing 2 twiceNested = "" := by
    simp only [passed, replaceEach, replaceOne_eq]
    decide +kernel
  obtain ⟨hiff, _, hagain⟩ := substituteWithin_outcome 10 twiceNested vanishing
  have hok : substituteWithin 10 twiceNested vanishing = .ok "" := by
    refine (hiff "").2 ⟨2, Nat.le_refl 2, hsettles, ?_, hlast.symm⟩
    intro before hbefore hlong
    rcases pass_cases 10 (passed vanishing before twiceNested) vanishing.entries with
      hpass | ⟨_, count, hsize⟩
    · rw [pass_eq_none.2 hlong] at hpass
      cases hpass
    · exact absurd (hshort before count hbefore) (Nat.not_le.2 hsize)
  exact ⟨hsettles, hok, (hagain "" hok).1⟩

end ConfigPack.Substitution
