import ConfigPack.Json.Reader
import ConfigPack.Proofs.Json.Within
import ConfigPack.Proofs.Result
import ConfigPack.Proofs.Utf8
import Mathlib.Algebra.Group.Int.Defs
import Mathlib.Algebra.Group.Nat.Defs

/-!
# What is read from a text

A document that is read is within the bounds of the notation (`parse_within`): its whole numbers
have 64 bits, its arrays and objects are nested at most 127 deep and no object has two fields of one
name.
A text with blanks only holds no document (`parse_blank`).
-/

namespace ConfigPack

/-- Whole numbers of 64 bits, signed when negative, and all floating-point numbers. -/
def Number.InRange : Number → Prop
  | .int n => -2 ^ 63 ≤ n ∧ n < 2 ^ 64
  | .float _ => True

namespace Json

variable {α β : Type} {P : α → Prop} {Q : β → Prop}

/-- Whatever a reader returns has a property. -/
def Returns (P : α → Prop) (reader : Reader α) : Prop :=
  ∀ ⦃cursor a cursor'⦄, reader.run cursor = .ok (a, cursor') → P a

/-- A sequence returns what its second reader does after what the first one returns. -/
lemma Returns.bind {reader : Reader β} {next : β → Reader α} (h : Returns Q reader)
    (hnext : ∀ b, Q b → Returns P (next b)) : Returns P (reader >>= next) := by
  intro cursor a cursor' hrun
  rw [StateT.run_bind] at hrun
  rcases hreader : reader.run cursor with e | ⟨b, middle⟩
  all_goals rw [hreader] at hrun
  · cases hrun
  · exact hnext b (h hreader) hrun

/-- What the first reader returns may not matter. -/
lemma Returns.after {reader : Reader β} {next : β → Reader α} (hnext : ∀ b, Returns P (next b)) :
    Returns P (reader >>= next) :=
  .bind (Q := fun _ => True) (fun _ _ _ _ => trivial) fun b _ => hnext b

/-- A reader that reads nothing returns its value. -/
lemma Returns.pure {a : α} (h : P a) : Returns P (Pure.pure a : Reader α) := by
  intro cursor a' cursor' hrun
  cases hrun
  exact h

/-- A reader that fails returns nothing. -/
lemma Returns.failHere (cause : Cause) : Returns P (failHere cause : Reader α) :=
  fun _ _ _ hrun => nomatch hrun

/-- So does one that fails at the next character. -/
lemma Returns.failAhead (cause : Cause) : Returns P (failAhead cause : Reader α) :=
  fun _ _ _ hrun => nomatch hrun

/-- So does one that passes on a fault. -/
lemma Returns.throw (fault : Fault) : Returns P (throw fault : Reader α) :=
  fun _ _ _ hrun => nomatch hrun

/-! ## Numbers -/

/-- Digits are gathered as long as their number fits. -/
lemma gather_lt (digits : List Char) {significand : Nat} (h : significand < 2 ^ 64) :
    (gather digits significand).1 < 2 ^ 64 := by
  induction digits generalizing significand with
  | nil => exact h
  | cons d digits ih =>
    simp only [gather]
    split
    next hnext => exact ih hnext
    next => exact h

/-- A number that is rounded is in range, for one that is too large is refused. -/
lemma float_returns (negative : Bool) (significand : Nat) (exponent : Int) :
    Returns Number.InRange (float negative significand exponent) := by
  rw [float]
  split
  · exact .pure trivial
  · exact .failHere _

-- What a reader does behind a branch is named before the branch is taken apart.
/-- Numbers with an exponent are in range. -/
lemma readExponent_returns (negative : Bool) (significand : Nat) (exponent : Int) :
    Returns Number.InRange (readExponent negative significand exponent) := by
  rw [readExponent]
  refine .after fun _ => .after fun sign => ?_
  extract_lets lowers power digits
  have hpower : ∀ u, Returns Number.InRange (power u) := by
    refine fun _ => .after fun _ => .after fun read => ?_
    split
    · split
      · exact .throw _
      · exact .pure trivial
    · exact float_returns ..
  have hdigits : ∀ u, Returns Number.InRange (digits u) := by
    refine fun _ => .after fun next => ?_
    split
    · exact .failHere _
    · split
      · exact .after hpower
      · exact hpower ()
  refine .after fun next => ?_
  split
  · exact .after hdigits
  · exact hdigits ()

/-- Numbers are in range whatever stands behind their fraction. -/
lemma readAfterFraction_returns (negative : Bool) (significand : Nat) (exponent : Int) :
    Returns Number.InRange (readAfterFraction negative significand exponent) := by
  refine .after fun next => ?_
  split
  · exact readExponent_returns ..
  · exact readExponent_returns ..
  · exact float_returns ..

/-- Numbers with a fraction are in range. -/
lemma readFraction_returns (negative : Bool) (significand : Nat) (exponent : Int) :
    Returns Number.InRange (readFraction negative significand exponent) := by
  refine .after fun _ => .after fun digits => ?_
  extract_lets rest
  have hrest : ∀ u, Returns Number.InRange (rest u) := fun _ => readAfterFraction_returns ..
  split
  · exact .after fun _ => .after hrest
  · exact hrest ()

/-- All numbers that are read are in range. -/
lemma readNumber_returns (negative : Bool) : Returns Number.InRange (readNumber negative) := by
  refine .after fun next => ?_
  split
  · exact .failHere _
  · extract_lets rest digits
    -- the continuations of the reader are bounded from the last one backwards
    have hrest : ∀ found, Returns Number.InRange (rest found) := by
      intro found
      simp -zeta only [rest]
      extract_lets number
      have hnumber : ∀ u, Returns Number.InRange (number u) := by
        intro u
        have hlt := gather_lt found (show 0 < 2 ^ 64 by decide)
        simp only [number]
        rcases hgather : gather found 0 with ⟨significand, left⟩
        rw [hgather] at hlt
        change significand < 2 ^ 64 at hlt
        refine .after fun next => ?_
        split
        · exact readFraction_returns ..
        · exact readExponent_returns ..
        · exact readExponent_returns ..
        · split
          · exact float_returns ..
          · split
            · exact .pure ⟨by omega, by omega⟩
            · split
              · exact .pure trivial
              next hfits =>
                simp only [Bool.or_eq_true, decide_eq_true_eq, not_or, Nat.not_lt] at hfits
                have hle : significand ≤ 2 ^ 63 := hfits.2
                exact .pure ⟨by omega, by omega⟩
      split
      · refine .after fun next => ?_
        split
        · split
          · exact .after hnumber
          · exact hnumber ()
        · exact hnumber ()
      · exact hnumber ()
    have hdigits : ∀ u, Returns Number.InRange (digits u) := by
      intro u
      simp only [digits]
      split
      · exact .after fun _ => .after hrest
      · exact .after hrest
    split
    · exact .after hdigits
    · exact hdigits ()

/-! ## Documents -/

mutual

/-- A document that is read has numbers in range and distinct names, and is no deeper than the
reader may go. -/
lemma readValue_returns : ∀ fuel depth : Nat,
    Returns (Within Number.InRange depth) (readValue fuel depth)
  | 0, _ => .failHere _
  | fuel + 1, depth => by
    simp -zeta only [readValue]
    refine .after fun next => ?_
    split
    · exact .failHere _
    · exact .after fun _ => .after fun _ => .pure .null
    · exact .after fun _ => .after fun _ => .pure .bool
    · exact .after fun _ => .after fun _ => .pure .bool
    · exact .after fun _ => .bind (readNumber_returns _) fun n hn => .pure (.number hn)
    · exact .after fun _ => .after fun _ => .pure .string
    · split
      · exact .failAhead _
      next depth =>
        exact .after fun _ => .bind (readItems_returns fuel depth (fun _ h => nomatch h))
          fun items hitems => .pure (.array hitems)
    · split
      · exact .failAhead _
      next depth =>
        exact .after fun _ => .bind (readFields_returns fuel depth true .nil)
          fun fields hfields => .pure (.object hfields.nodup hfields.values)
    · split
      · exact .bind (readNumber_returns _) fun n hn => .pure (.number hn)
      · exact .failAhead _

/-- So are the items of an array. -/
lemma readItems_returns : ∀ (fuel depth : Nat) {read : List Json},
    (∀ item ∈ read, Within Number.InRange depth item) →
    Returns (fun items => ∀ item ∈ items, Within Number.InRange depth item)
      (readItems fuel depth read)
  | 0, _, _, _ => .failHere _
  | fuel + 1, depth, read, hread => by
    rw [readItems]
    refine .after fun next => ?_
    split
    · exact .failHere _
    · exact .after fun _ => .pure fun item hitem => hread item (List.mem_reverse.1 hitem)
    · extract_lets item comma
      have hitem : ∀ u, Returns _ (item u) := fun _ =>
        .bind (readValue_returns fuel depth) fun value hvalue =>
          readItems_returns fuel depth (List.forall_mem_cons.2 ⟨hvalue, hread⟩)
      have hcomma : ∀ u, Returns (fun items => ∀ item ∈ items, Within Number.InRange depth item)
          (comma u) := by
        refine fun _ => .after fun _ => .after fun next => ?_
        split
        · exact .after hitem
        · exact .after hitem
        · exact hitem ()
      split
      · split
        · exact .after hcomma
        · exact hcomma ()
      · exact hitem ()

/-- So are the fields of an object, where of two with one name the first is replaced. -/
lemma readFields_returns : ∀ (fuel depth : Nat) (first : Bool) {read : List (String × Json)},
    FieldsWithin Number.InRange depth read →
    Returns (FieldsWithin Number.InRange depth) (readFields fuel depth first read)
  | 0, _, _, _, _ => .failHere _
  | fuel + 1, depth, first, read, hread => by
    rw [readFields]
    refine .after fun next => ?_
    split
    · exact .failHere _
    · exact .after fun _ => .pure hread
    · extract_lets name comma
      have hname : ∀ u, Returns (FieldsWithin Number.InRange depth) (name u) := by
        refine fun _ => .after fun _ => .after fun text => .after fun next => ?_
        extract_lets value
        have hvalue : ∀ u, Returns _ (value u) := fun _ =>
          .bind (readValue_returns fuel depth) fun value hvalue =>
            readFields_returns fuel depth false (hread.setField hvalue)
        split
        · exact .after hvalue
        · exact .after hvalue
        · exact .after hvalue
      have hcomma : ∀ u, Returns (FieldsWithin Number.InRange depth) (comma u) := by
        refine fun _ => .after fun _ => .after fun next => ?_
        split
        · exact .after hname
        · exact hname ()
        · exact .after hname
        · exact .after hname
      split
      · split
        · exact .after hname
        · exact hname ()
      · split
        · exact .after hcomma
        · exact hcomma ()

end

/-- A document that is read is within the bounds of the notation. -/
lemma parse_within {text : String} {document : Json} (h : parse text = .ok document) :
    Within Number.InRange 127 document := by
  rw [parse, StateT.run'_eq] at h
  obtain ⟨⟨_, cursor⟩, hrun, rfl⟩ := Result.map_eq_ok.1 h
  refine Returns.bind (readValue_returns _ 127) (fun value hvalue => .after fun next => ?_) hrun
  split
  · exact .pure hvalue
  · exact .failAhead _

/-! ## Blank texts -/

/-- After its blanks the rest of the text is left. -/
lemma skipBlanks_run (cursor : Cursor) :
    skipBlanks.run cursor = .ok ((cursor.rest.dropWhile isBlank).head?,
      ⟨cursor.rest.dropWhile isBlank,
        cursor.offset + (cursor.rest.takeWhile isBlank).length⟩) := rfl

/-- A text with blanks only, form feeds among them, holds no document. -/
lemma parse_blank {text : String} (h : ∀ c ∈ text.toList, isBlank c = true ∨ c = '\x0c')
    (document : Json) : parse text ≠ .ok document := by
  intro hparse
  rw [parse, StateT.run'_eq] at hparse
  obtain ⟨⟨_, cursor⟩, hrun, -⟩ := Result.map_eq_ok.1 hparse
  have hvalue : ∃ e,
      (readValue (2 * text.toList.length + 2) 127).run ⟨text.toList, 0⟩ = .error e := by
    rw [readValue, StateT.run_bind, skipBlanks_run]
    rcases hrest : text.toList.dropWhile isBlank with _ | ⟨c, rest⟩
    · exact ⟨_, rfl⟩
    · have hc : isBlank c = false := by
        have hhead := List.head?_dropWhile_not isBlank text.toList
        rwa [hrest] at hhead
      have hmem : c ∈ text.toList :=
        (List.dropWhile_suffix isBlank).subset (hrest ▸ List.mem_cons_self)
      rcases h c hmem with hblank | rfl
      · rw [hc] at hblank
        cases hblank
      · exact ⟨_, rfl⟩
  obtain ⟨e, hvalue⟩ := hvalue
  rw [readDocument, StateT.run_bind, hvalue] at hrun
  cases hrun

end Json

end ConfigPack
