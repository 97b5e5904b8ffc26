import ConfigPack.Json.Printer
import ConfigPack.Proofs.Json.Reading
import Mathlib.Data.List.Basic
import Mathlib.Data.Nat.Digits.Defs

/-!
# Documents that are read back

The indented form of a document is read as that document, when its numbers are whole, no object has
two fields of one name and it is nested no deeper than the notation allows (`parse_indented`).  A
reader is followed along the text that it passes over (`Reads`); what stands behind that text is
kept apart, since the end of a number shows only there.
-/

namespace ConfigPack.Json

variable {α β : Type} {a : α} {text rest : List Char} {fuel depth indent : Nat}

/-- A reader passes over a text in front of the rest and returns a value. -/
def Reads (reader : Reader α) (text rest : List Char) (a : α) : Prop :=
  ∀ offset, ∃ offset', reader.run ⟨text ++ rest, offset⟩ = .ok (a, ⟨rest, offset'⟩)

/-- A reader that reads nothing succeeds on the empty text. -/
lemma Reads.pure (a : α) (rest : List Char) : Reads (Pure.pure a) [] rest a :=
  fun offset => ⟨offset, rfl⟩

/-- One reader passes over the front of a text, and another one over what is left. -/
lemma Reads.bind {reader : Reader β} {next : β → Reader α} {front back : List Char} {b : β}
    (h : Reads reader front (back ++ rest) b) (hnext : Reads (next b) back rest a) :
    Reads (reader >>= next) (front ++ back) rest a := by
  intro offset
  obtain ⟨middle, hrun⟩ := h offset
  obtain ⟨offset', hrun'⟩ := hnext middle
  refine ⟨offset', ?_⟩
  rw [StateT.run_bind, List.append_assoc, hrun]
  exact hrun'

/-- The last reader passes over all that is left. -/
lemma Reads.last {reader : Reader β} {next : β → Reader α} {b : β} (h : Reads reader text rest b)
    (hnext : next b = Pure.pure a) : Reads (reader >>= next) text rest a := by
  intro offset
  obtain ⟨offset', hrun⟩ := h offset
  refine ⟨offset', ?_⟩
  rw [StateT.run_bind, hrun]
  change (next b).run _ = _
  rw [hnext]
  rfl

/-- To look at the next character reads nothing. -/
lemma Reads.peek {next : Option Char → Reader α}
    (h : Reads (next (text ++ rest).head?) text rest a) : Reads (peek? >>= next) text rest a := h

/-- One character is read. -/
lemma Reads.skip {c : Char} {next : Unit → Reader α} (h : Reads (next ()) text rest a) :
    Reads (skip >>= next) (c :: text) rest a := fun offset => h (offset + c.utf8Size)

/-- Blanks are passed over up to the first character that is none. -/
lemma Reads.skipBlanks (blanks : List Char) {next : Option Char → Reader α}
    (hblanks : ∀ c ∈ blanks, isBlank c = true)
    (htext : ∀ c ∈ (text ++ rest).head?, isBlank c = false)
    (h : Reads (next (text ++ rest).head?) text rest a) :
    Reads (skipBlanks >>= next) (blanks ++ text) rest a := by
  have hdrop : (blanks ++ text ++ rest).dropWhile isBlank = text ++ rest := by
    rw [List.append_assoc, List.dropWhile_append_of_pos hblanks]
    cases hsplit : text ++ rest with
    | nil => rfl
    | cons c more =>
      rw [hsplit] at htext
      rw [List.dropWhile_cons_of_neg (by simpa using htext c rfl)]
  intro offset
  rw [StateT.run_bind, skipBlanks_run]
  simp only [hdrop]
  exact h _

/-- Where no blank stands, the next character is looked at. -/
lemma Reads.next {c : Char} {next : Option Char → Reader α} (hc : isBlank c = false)
    (h : Reads (next (some c)) (c :: text) rest a) :
    Reads (Json.skipBlanks >>= next) (c :: text) rest a := by
  refine .skipBlanks [] (fun _ h => nomatch h) (fun d hd => ?_) h
  cases hd
  exact hc

/-! ## Words and strings -/

/-- A word is read where it stands. -/
lemma reads_expectWord : ∀ (word rest : List Char), Reads (expectWord word) word rest ()
  | [], rest => .pure () rest
  | w :: word, rest => by
    rw [expectWord]
    refine .peek ?_
    simp only [List.cons_append, List.head?_cons, ↓reduceIte]
    exact .skip (reads_expectWord word rest)

/-- Four digits are read as the number that they write. -/
lemma reads_readHex {digits rest : List Char} {values : List Nat} (hlength : digits.length = 4)
    (hsize : digits.foldl (fun n c => n + c.utf8Size) 0 = 4)
    (hvalues : digits.mapM hexValue? = some values) :
    Reads readHex digits rest (values.foldl (fun n v => n * 16 + v) 0) := by
  intro offset
  refine ⟨offset + 4, ?_⟩
  have htake : (digits ++ rest).take 4 = digits := by rw [← hlength, List.take_left]
  have hdrop : (digits ++ rest).drop 4 = rest := by rw [← hlength, List.drop_left]
  rw [readHex, StateT.run_bind]
  simp only [StateT.run_get]
  change StateT.run (if List.foldl (fun n c => n + c.utf8Size) 0 ((digits ++ rest).take 4) < 4
    then _ else _) _ = _
  rw [htake, hsize, if_neg (by decide), hvalues, hdrop]
  rfl

/-- The escape of a control character stands for that character. -/
lemma reads_controlEscape {c : Char} (hc : c.toNat < 0x20) (rest : List Char) :
    Reads readEscape ('u' :: '0' :: '0' :: hexByte c.toNat) rest c := by
  have hdigits : ∀ n < 0x20, ('0' :: '0' :: hexByte n).length = 4 ∧
      ('0' :: '0' :: hexByte n).foldl (fun n c => n + c.utf8Size) 0 = 4 ∧
      ('0' :: '0' :: hexByte n).mapM hexValue? = some [0, 0, n / 16, n % 16] := by
    decide
  obtain ⟨hlength, hsize, hvalues⟩ := hdigits _ hc
  have hvalue : [0, 0, c.toNat / 16, c.toNat % 16].foldl (fun n v => n * 16 + v) 0 = c.toNat := by
    simp only [List.foldl_cons, List.foldl_nil]
    omega
  refine .peek (.skip (.last (hvalue ▸ reads_readHex hlength hsize hvalues) ?_))
  rw [if_neg (by omega), if_pos (by omega), Char.ofNat_toNat]

/-- An escape stands for the character that was escaped. -/
lemma reads_escape {c : Char} {out result : String}
    (h : Reads (readString fuel (out.push c)) text rest result) :
    Reads (readString (fuel + 1) out) (escape c ++ text) rest result := by
  rw [readString, escape.eq_def]
  split
  case h_8 hquote hbackslash _ _ _ _ _ =>
    split
    next hcontrol => exact .peek (.skip (.bind (reads_controlEscape hcontrol _) h))
    next hplain =>
      refine .peek ?_
      simp only [List.cons_append, List.head?_cons]
      rw [if_neg hplain]
      exact .skip h
  all_goals exact .peek (.skip (.bind (fun offset => ⟨_, rfl⟩) h))

/-- A quoted text is read back. -/
lemma reads_chars : ∀ (chars : List Char) {fuel : Nat} (out : String) (rest : List Char),
    chars.length < fuel →
      Reads (readString fuel out) (chars.flatMap escape ++ ['"']) rest (chars.foldl String.push out)
  | _, 0, _, _, h => absurd h (Nat.not_lt_zero _)
  | [], fuel + 1, out, rest, _ => by
    rw [readString]
    exact .peek (.skip (.pure out rest))
  | c :: chars, fuel + 1, out, rest, h => by
    rw [List.flatMap_cons, List.append_assoc]
    exact reads_escape (reads_chars chars (out.push c) rest (Nat.lt_of_succ_lt_succ h))

/-- Characters that are pushed one after the other stand at the end. -/
lemma toList_foldl_push (chars : List Char) (out : String) :
    (chars.foldl String.push out).toList = out.toList ++ chars := by
  induction chars generalizing out with
  | nil => simp
  | cons c chars ih => rw [List.foldl_cons, ih, String.toList_push, List.append_assoc]; rfl

/-- So do their escapes. -/
lemma toList_foldl_escape (chars : List Char) (out : String) :
    (chars.foldl (fun out c => (escape c).foldl String.push out) out).toList =
      out.toList ++ chars.flatMap escape := by
  induction chars generalizing out with
  | nil => simp
  | cons c chars ih =>
    rw [List.foldl_cons, ih, toList_foldl_push, List.flatMap_cons, List.append_assoc]

/-- A quoted text is its escaped characters between two quotes. -/
lemma toList_quote (s : String) : (quote s).toList = '"' :: (s.toList.flatMap escape ++ ['"']) := by
  rw [quote, String.toList_append, String.foldl_eq_foldl_toList, toList_foldl_escape]
  rfl

/-- No escape is shorter than its character. -/
lemma length_le_flatMap_escape (chars : List Char) :
    chars.length ≤ (chars.flatMap escape).length := by
  induction chars with
  | nil => exact Nat.le_refl _
  | cons c chars ih =>
    have hc : 0 < (escape c).length := by
      rw [escape.eq_def]
      repeat' split
      all_goals exact Nat.succ_pos _
    rw [List.flatMap_cons, List.length_append, List.length_cons]
    omega

/-- A quoted text is read back. -/
lemma reads_quoted {s : String} (rest : List Char) (hfuel : (quote s).toList.length ≤ fuel) :
    Reads (readString fuel "") (s.toList.flatMap escape ++ ['"']) rest s := by
  rw [toList_quote, List.length_cons, List.length_append] at hfuel
  have hlength := length_le_flatMap_escape s.toList
  have hsame : s.toList.foldl String.push "" = s := by
    rw [← String.toList_inj, toList_foldl_push, String.toList_empty, List.nil_append]
  have hreads : Reads (readString fuel "") _ rest _ := reads_chars s.toList "" rest (by omega)
  rwa [hsame] at hreads

/-! ## Numbers -/

/-- What may stand behind a value: the end of its line. -/
def LineEnds (rest : List Char) : Prop := ∃ c more, rest = c :: more ∧ (c = '\n' ∨ c = ',')

/-- Digits make a number no smaller. -/
lemma le_ofDigitChars (digits : List Char) (n : Nat) : n ≤ Nat.ofDigitChars 10 digits n := by
  rw [Nat.ofDigitChars_eq_ofDigitChars_zero]
  exact Nat.le_add_right_of_le (Nat.le_mul_of_pos_left n (by positivity))

/-- Digits whose number fits are all gathered. -/
lemma gather_of_lt : ∀ {digits : List Char} {n : Nat}, Nat.ofDigitChars 10 digits n < 2 ^ 64 →
    gather digits n = (Nat.ofDigitChars 10 digits n, [])
  | [], _, _ => rfl
  | d :: digits, n, h => by
    rw [Nat.ofDigitChars_cons, Nat.mul_comm 10 n] at h ⊢
    have hnext : n * 10 + digitValue d < Nat.pow 2 64 := (le_ofDigitChars digits _).trans_lt h
    rw [gather, if_pos hnext]
    exact gather_of_lt h

/-- Only zero begins with the digit zero. -/
lemma eq_zero_of_toDigits (n : Nat) :
    ∀ {digits : List Char}, Nat.toDigits 10 n = '0' :: digits → n = 0 := by
  -- the first digit of a number is that of its quotient by ten
  induction n using Nat.strong_induction_on with
  | _ n ih =>
    intro digits h
    rw [Nat.toDigits_eq_if (by decide)] at h
    split at h
    · exact Nat.digitChar_eq_zero.1 (List.cons.inj h).1
    next hn =>
      cases hfront : Nat.toDigits 10 (n / 10) with
      | nil => exact absurd hfront Nat.toDigits_ne_nil
      | cons c front =>
        rw [hfront, List.cons_append, List.cons.injEq] at h
        have hzero := ih (n / 10) (by omega) (h.1 ▸ hfront)
        omega

/-- Digits are taken as far as they go. -/
lemma takeDigits_run (cursor : Cursor) :
    takeDigits.run cursor = .ok (cursor.rest.takeWhile Char.isDigit,
      ⟨cursor.rest.dropWhile Char.isDigit,
        cursor.offset + (cursor.rest.takeWhile Char.isDigit).length⟩) := rfl

/-- All digits in front of the end of a line, a comma or a bracket are taken. -/
lemma reads_takeDigits {digits : List Char} (hdigits : ∀ c ∈ digits, c.isDigit = true)
    (hrest : LineEnds rest) : Reads takeDigits digits rest digits := by
  obtain ⟨c, more, rfl, hc⟩ := hrest
  have hstop : c.isDigit = false := by rcases hc with rfl | rfl <;> rfl
  intro offset
  refine ⟨offset + digits.length, ?_⟩
  rw [takeDigits_run, List.takeWhile_append_of_pos hdigits, List.dropWhile_append_of_pos hdigits,
    List.takeWhile_cons_of_neg (by simp [hstop]), List.dropWhile_cons_of_neg (by simp [hstop]),
    List.append_nil]

/-- The digits of a number are read as that number. -/
lemma reads_readNumber {negative : Bool} {n : Nat} (hrest : LineEnds rest) (hn : n < 2 ^ 64)
    (hnegative : negative = true → n ≠ 0 ∧ n ≤ 2 ^ 63) :
    Reads (readNumber negative) (Nat.toDigits 10 n) rest
      (.int (if negative then -n else n)) := by
  have hdigits : ∀ c ∈ Nat.toDigits 10 n, c.isDigit = true :=
    fun c hc => Nat.isDigit_of_mem_toDigits (by decide) (by decide) hc
  have hgather : gather (Nat.toDigits 10 n) 0 = (n, []) := by
    rw [gather_of_lt, Nat.ofDigitChars_ten_toDigits]
    rwa [Nat.ofDigitChars_ten_toDigits]
  rw [readNumber]
  refine .peek ?_
  cases htext : Nat.toDigits 10 n with
  | nil => exact absurd htext Nat.toDigits_ne_nil
  | cons c digits =>
    rw [htext] at hdigits hgather
    simp -zeta only [List.cons_append, List.head?_cons]
    extract_lets number start
    -- the line ends behind the digits, so neither a fraction nor an exponent is read
    have hnumber : Reads (number (c :: digits)) [] rest (.int (if negative then -n else n)) := by
      simp -zeta only [number]
      extract_lets whole
      obtain ⟨d, more, rfl, hd⟩ := hrest
      have hwhole : Reads (whole ()) [] (d :: more) (.int (if negative then -n else n)) := by
        simp only [whole, hgather]
        refine .peek ?_
        rcases hd with rfl | rfl
        all_goals
          cases negative with
          | false => exact .pure _ _
          | true =>
            obtain ⟨hne, hle⟩ := hnegative rfl
            have hfits : (decide (n = 0) || decide (n > Nat.pow 2 63)) = false := by
              rw [Bool.or_eq_false_iff, decide_eq_false_iff_not, decide_eq_false_iff_not]
              exact ⟨hne, Nat.not_lt.2 hle⟩
            simp only [hfits]
            exact .pure _ _
      split
      · refine .peek ?_
        rcases hd with rfl | rfl
        all_goals exact hwhole
      · exact hwhole
    rw [if_neg (by simp [hdigits c List.mem_cons_self])]
    simp -zeta only [start]
    split
    next hc =>
      subst hc
      obtain rfl := eq_zero_of_toDigits n htext
      cases htext
      exact .skip hnumber
    next hc =>
      rw [← List.append_nil (c :: digits)]
      exact .bind (reads_takeDigits hdigits hrest) hnumber

/-! ## Lines -/

/-- A new line begins with two blanks for each step of depth. -/
lemma toList_newLine (depth : Nat) :
    (newLine depth).toList = '\n' :: List.replicate (2 * depth) ' ' := by
  rw [newLine, String.toList_ofList]

/-- It has blanks only. -/
lemma isBlank_of_mem_newLine {c : Char} (h : c ∈ (newLine depth).toList) : isBlank c = true := by
  rw [toList_newLine] at h
  rcases List.mem_cons.1 h with rfl | h
  · rfl
  · rw [List.eq_of_mem_replicate h]
    rfl

/-- The blanks of a new line are skipped. -/
lemma Reads.nextLine {c : Char} {next : Option Char → Reader α} (hc : isBlank c = false)
    (h : Reads (next (some c)) (c :: text) rest a) :
    Reads (Json.skipBlanks >>= next) ((newLine depth).toList ++ c :: text) rest a := by
  refine .skipBlanks _ (fun d hd => isBlank_of_mem_newLine hd) (fun d hd => ?_) h
  cases hd
  exact hc

/-- Parts on lines of their own up to a closing text, with commas between them. -/
def partLines (closing : Char) (depth : Nat) : Bool → List (List Char) → List Char
  | _, [] => (newLine depth).toList ++ [closing]
  | first, part :: parts =>
    (if first then [] else [',']) ++
      ((newLine (depth + 1)).toList ++ (part ++ partLines closing depth false parts))

/-- Parts on lines of their own are what `partLines` says. -/
lemma toList_intercalate_lines (closing : Char) (depth : Nat) :
    ∀ (part : String) (parts : List String),
      (("," ++ newLine (depth + 1)).intercalate (part :: parts)).toList ++
          ((newLine depth).toList ++ [closing]) =
        part.toList ++ partLines closing depth false (parts.map String.toList)
  | part, [] => by
    rw [String.intercalate_singleton]
    rfl
  | part, next :: parts => by
    rw [String.intercalate_cons_cons, String.toList_append, String.toList_append,
      List.append_assoc, toList_intercalate_lines closing depth next parts, List.append_assoc,
      String.toList_append, List.append_assoc]
    rfl

/-- A block without parts is its two brackets. -/
lemma toList_block_nil (opening closing : Char) (depth : Nat) :
    (block (String.singleton opening) (String.singleton closing) depth []).toList =
      [opening, closing] := by
  simp only [block, List.isEmpty_nil, ↓reduceIte, String.toList_append, String.toList_singleton]
  rfl

/-- A block with parts puts them on lines of their own. -/
lemma toList_block (opening closing : Char) (depth : Nat) {parts : List String} (h : parts ≠ []) :
    (block (String.singleton opening) (String.singleton closing) depth parts).toList =
      opening :: partLines closing depth true (parts.map String.toList) := by
  cases parts with
  | nil => exact absurd rfl h
  | cons part parts =>
    have hlines := toList_intercalate_lines closing depth part parts
    simp only [block, List.isEmpty_cons, Bool.false_eq_true, ↓reduceIte, String.toList_append,
      String.toList_singleton, List.append_assoc, hlines]
    rfl

/-- Behind a part a line ends. -/
lemma lineEnds_partLines (closing : Char) (depth : Nat) (parts : List (List Char))
    (rest : List Char) : LineEnds (partLines closing depth false parts ++ rest) := by
  cases parts with
  | nil => 
    exact ⟨'\n', _, by rw [partLines, toList_newLine]; rfl, .inl rfl⟩
  | cons part parts => exact ⟨',', _, rfl, .inr rfl⟩

/-- Each part is shorter than what it stands in. -/
lemma length_partLines_cons (closing : Char) (depth : Nat) (first : Bool) (part : List Char)
    (parts : List (List Char)) :
    part.length + (partLines closing depth false parts).length <
      (partLines closing depth first (part :: parts)).length := by
  rw [partLines, List.length_append, List.length_append, List.length_append, toList_newLine,
    List.length_cons]
  omega

/-! ## Documents -/

/-- A document is read from its indented form, which begins with neither a blank nor the end of an
array. -/
structure IsReadBack (depth : Nat) (document : Json) : Prop where
  starts : ∀ indent, ∃ c more, (indentedAt indent document).toList = c :: more ∧
    isBlank c = false ∧ c ≠ ']'
  reads : ∀ ⦃indent fuel : Nat⦄ ⦃rest : List Char⦄, LineEnds rest →
    (indentedAt indent document).toList.length ≤ fuel →
      Reads (readValue fuel depth) (indentedAt indent document).toList rest document

/-- Blanks in front of a value are passed over. -/
lemma reads_afterBlanks {blanks : List Char} {document : Json}
    (hblanks : ∀ c ∈ blanks, isBlank c = true)
    (h : Reads (readValue fuel depth) text rest document) :
    Reads (readValue fuel depth) (blanks ++ text) rest document := by
  cases fuel with
  | zero =>
    obtain ⟨_, hrun⟩ := h 0
    cases hrun
  | succ fuel =>
    intro offset
    obtain ⟨offset', hrun⟩ := h (offset + blanks.length)
    refine ⟨offset', ?_⟩
    rw [readValue.eq_def] at hrun ⊢
    rw [StateT.run_bind, skipBlanks_run] at hrun ⊢
    simp only [List.append_assoc, List.dropWhile_append_of_pos hblanks,
      List.takeWhile_append_of_pos hblanks, List.length_append, ← Nat.add_assoc]
    exact hrun

/-- An item on its line is read, and the items behind it are read with it in front. -/
lemma reads_nextItem {item : Json} {read items : List Json} {more : List Char}
    (hitem : IsReadBack depth item) (hends : LineEnds (more ++ rest))
    (hfuel : (indentedAt indent item).toList.length ≤ fuel)
    (hmore : Reads (readItems fuel depth (item :: read)) more rest items) :
    Reads (readItems (fuel + 1) depth read)
      ((if read.isEmpty then [] else [',']) ++
        ((newLine indent).toList ++ ((indentedAt indent item).toList ++ more))) rest items := by
  have hreads : Reads (readValue fuel depth >>= fun item => readItems fuel depth (item :: read)) _
      rest items := .bind (hitem.reads hends hfuel) hmore
  obtain ⟨c, text, htext, hblank, hend⟩ := hitem.starts indent
  rw [readItems]
  rw [htext] at hreads ⊢
  -- a comma stands in front of every item but the first
  cases read with
  | nil =>
    refine .nextLine hblank ?_
    simp -zeta only
    exact hreads
  | cons last read =>
    refine .next rfl (.skip (.nextLine hblank ?_))
    simp -zeta only
    exact hreads

/-- The lines of the items that are left are read behind those that were read. -/
lemma reads_items (indent : Nat) (rest : List Char) {items read : List Json}
    (hitems : ∀ item ∈ items, IsReadBack depth item)
    (hfuel : (partLines ']' indent read.isEmpty
      (items.map fun item => (indentedAt (indent + 1) item).toList)).length ≤ fuel) :
    Reads (readItems fuel depth read) (partLines ']' indent read.isEmpty
      (items.map fun item => (indentedAt (indent + 1) item).toList)) rest
      (read.reverse ++ items) := by
  induction items generalizing read fuel with
  | nil =>
    cases fuel with
    | zero => simp [partLines] at hfuel
    | succ fuel =>
      rw [readItems, List.map_nil, partLines, List.append_nil]
      exact .nextLine rfl (.skip (.pure _ rest))
  | cons item items ih =>
    obtain ⟨hitem, hmore⟩ := List.forall_mem_cons.1 hitems
    have hlength : (indentedAt (indent + 1) item).toList.length + (partLines ']' indent false
        (items.map fun item => (indentedAt (indent + 1) item).toList)).length < fuel :=
      (length_partLines_cons ..).trans_le hfuel
    cases fuel with
    | zero => cases hlength
    | succ fuel =>
      have hreads : Reads (readItems fuel depth (item :: read)) (partLines ']' indent false _) rest
          ((item :: read).reverse ++ items) := ih hmore (by rw [List.isEmpty_cons]; omega)
      rw [List.reverse_cons, List.append_assoc] at hreads
      rw [List.map_cons, partLines]
      exact reads_nextItem hitem (lineEnds_partLines ..) (by omega) hreads

/-- The text of a field on its line. -/
def fieldText (indent : Nat) (field : String × Json) : List Char :=
  (quote field.1 ++ ": " ++ indentedAt indent field.2).toList

/-- A field is its quoted name, a colon, a blank and its value. -/
lemma fieldText_eq (indent : Nat) (name : String) (value : Json) :
    fieldText indent (name, value) = '"' :: (name.toList.flatMap escape ++ ['"'] ++
      (':' :: ([' '] ++ (indentedAt indent value).toList))) := by
  rw [fieldText, String.toList_append, String.toList_append, toList_quote]
  simp

/-- A field on its line is read, and the fields behind it are read with it among those before. -/
lemma reads_nextField {first : Bool} {name : String} {value : Json}
    {read fields : List (String × Json)} {more : List Char} (hvalue : IsReadBack depth value)
    (hends : LineEnds (more ++ rest)) (hfuel : (fieldText indent (name, value)).length ≤ fuel)
    (hmore : Reads (readFields fuel depth false (setField name value read)) more rest fields) :
    Reads (readFields (fuel + 1) depth first read)
      ((if first then [] else [',']) ++
        ((newLine indent).toList ++ (fieldText indent (name, value) ++ more))) rest fields := by
  rw [fieldText_eq] at hfuel ⊢
  simp only [List.length_cons, List.length_append, List.length_nil] at hfuel
  have hname : ∀ behind, Reads (readString (fuel + 1) "") (name.toList.flatMap escape ++ ['"'])
      behind name := fun behind => reads_quoted behind (by
    rw [toList_quote, List.length_cons, List.length_append, List.length_singleton]
    omega)
  have hreads : Reads (readValue fuel depth >>= fun value =>
      readFields fuel depth false (setField name value read))
      ([' '] ++ (indentedAt indent value).toList ++ more) rest fields :=
    .bind (reads_afterBlanks (by simp [isBlank]) (hvalue.reads hends (by omega))) hmore
  rw [readFields, List.cons_append, List.append_assoc]
  -- in front of the name there may be a comma; from the name on both cases are the same
  cases first with
  | true =>
    refine .nextLine rfl (.skip (.bind (hname _) ?_))
    exact .next rfl (.skip hreads)
  | false =>
    refine .next rfl (.skip (.nextLine rfl (.skip (.bind (hname _) ?_))))
    exact .next rfl (.skip hreads)

/-- The lines of the fields that are left are read behind those that were read. -/
lemma reads_fields (indent : Nat) (rest : List Char) {fields read : List (String × Json)}
    {first : Bool} (hnames : ((read ++ fields).map Prod.fst).Nodup)
    (hfields : ∀ field ∈ fields, IsReadBack depth field.2)
    (hfuel : (partLines '\x7d' indent first (fields.map (fieldText (indent + 1)))).length ≤ fuel) :
    Reads (readFields fuel depth first read)
      (partLines '\x7d' indent first (fields.map (fieldText (indent + 1)))) rest
      (read ++ fields) := by
  induction fields generalizing read fuel first with
  | nil =>
    cases fuel with
    | zero => simp [partLines] at hfuel
    | succ fuel =>
      rw [readFields, List.map_nil, partLines, List.append_nil]
      exact .nextLine rfl (.skip (.pure _ rest))
  | cons field fields ih =>
    obtain ⟨name, value⟩ := field
    obtain ⟨hvalue, hmore⟩ := List.forall_mem_cons.1 hfields
    have hlength : (fieldText (indent + 1) (name, value)).length + (partLines '\x7d' indent false
        (fields.map (fieldText (indent + 1)))).length < fuel :=
      (length_partLines_cons ..).trans_le hfuel
    cases fuel with
    | zero => cases hlength
    | succ fuel =>
      have hreads : Reads (readFields fuel depth false (read ++ [(name, value)]))
          (partLines '\x7d' indent false _) rest (read ++ [(name, value)] ++ fields) :=
        ih (by simpa using hnames) hmore (by omega)
      rw [List.append_assoc] at hreads
      rw [List.map_append, List.map_cons] at hnames
      rw [List.map_cons, partLines]
      refine reads_nextField hvalue (lineEnds_partLines ..) (by omega) ?_
      rwa [setField_of_not_mem fun h =>
        (List.nodup_append.1 hnames).2.2 name h name List.mem_cons_self rfl]

/-- Items are printed one by one. -/
lemma indentedItems_eq_map (indent : Nat) (items : List Json) :
    (indentedItems indent items).map String.toList =
      items.map fun item => (indentedAt indent item).toList := by
  induction items with
  | nil => rw [indentedItems, List.map_nil, List.map_nil]
  | cons item items ih => rw [indentedItems, List.map_cons, List.map_cons, ih]

/-- Fields are printed one by one. -/
lemma indentedFields_eq_map (indent : Nat) (fields : List (String × Json)) :
    (indentedFields indent fields).map String.toList = fields.map (fieldText indent) := by
  induction fields with
  | nil => rw [indentedFields, List.map_nil, List.map_nil]
  | cons field fields ih =>
    rw [indentedFields, List.map_cons, List.map_cons, ih]
    rfl

/-- What is read behind the first character of the indented form decides. -/
lemma IsReadBack.of_text {document : Json} (c : Char) (text : Nat → List Char)
    (htext : ∀ indent, (indentedAt indent document).toList = c :: text indent)
    (hblank : isBlank c = false) (hend : c ≠ ']')
    (hreads : ∀ ⦃indent fuel : Nat⦄ ⦃rest : List Char⦄, LineEnds rest →
      (text indent).length ≤ fuel →
        Reads (readValue (fuel + 1) depth) (c :: text indent) rest document) :
    IsReadBack depth document := by
  refine ⟨fun indent => ⟨c, text indent, htext indent, hblank, hend⟩,
    fun indent fuel rest hrest hfuel => ?_⟩
  rw [htext] at hfuel ⊢
  cases fuel with
  | zero => cases hfuel
  | succ fuel => exact hreads hrest (Nat.le_of_succ_le_succ hfuel)

/-- The word for nothing is read back. -/
lemma isReadBack_null : IsReadBack depth .null := by
  refine .of_text 'n' (fun _ => "ull".toList)
    (fun indent => by rw [indentedAt, compact]; decide) rfl (by decide)
    fun indent fuel rest _ _ => ?_
  rw [readValue.eq_def]
  refine .next rfl ?_
  exact .skip (.last (reads_expectWord _ rest) rfl)

/-- The words for truth and falsehood are read back. -/
lemma isReadBack_bool (b : Bool) : IsReadBack depth (.bool b) := by
  cases b with
  | true =>
    refine .of_text 't' (fun _ => "rue".toList)
      (fun indent => by rw [indentedAt, compact]; decide) rfl (by decide)
      fun indent fuel rest _ _ => ?_
    rw [readValue.eq_def]
    refine .next rfl ?_
    exact .skip (.last (reads_expectWord _ rest) rfl)
  | false =>
    refine .of_text 'f' (fun _ => "alse".toList)
      (fun indent => by rw [indentedAt, compact]; decide) rfl (by decide)
      fun indent fuel rest _ _ => ?_
    rw [readValue.eq_def]
    refine .next rfl ?_
    exact .skip (.last (reads_expectWord _ rest) rfl)

/-- Quoted texts are read back. -/
lemma isReadBack_string (s : String) : IsReadBack depth (.string s) := by
  refine .of_text '"' (fun _ => s.toList.flatMap escape ++ ['"'])
    (fun indent => by rw [indentedAt, compact, toList_quote]) rfl (by decide)
    fun indent fuel rest _ hfuel => ?_
  rw [readValue.eq_def]
  refine .next rfl ?_
  refine .skip (.last (reads_quoted rest ?_) rfl)
  rw [toList_quote]
  exact Nat.succ_le_succ hfuel

/-- No digit is a blank. -/
lemma isBlank_of_isDigit {c : Char} (h : c.isDigit = true) : isBlank c = false := by
  rw [Bool.eq_false_iff]
  intro hblank
  simp only [isBlank, Bool.or_eq_true, beq_iff_eq, or_assoc] at hblank
  rcases hblank with rfl | rfl | rfl | rfl
  all_goals cases h

/-- A value that begins with a digit is a number. -/
lemma reads_digits {n : Nat} (hn : n < 2 ^ 64) (hrest : LineEnds rest) :
    Reads (readValue (fuel + 1) depth) (Nat.toDigits 10 n) rest (.number (.int n)) := by
  have hnumber : Reads (readNumber false) (Nat.toDigits 10 n) rest (.int n) :=
    reads_readNumber hrest hn fun h => nomatch h
  cases hdigits : Nat.toDigits 10 n with
  | nil => exact absurd hdigits Nat.toDigits_ne_nil
  | cons c digits =>
    have hdigit : c.isDigit = true :=
      Nat.isDigit_of_mem_toDigits (by decide) (by decide) (hdigits ▸ List.mem_cons_self)
    rw [hdigits] at hnumber
    rw [readValue.eq_def]
    refine .next (isBlank_of_isDigit hdigit) ?_
    split
    case h_1 hsome => cases hsome
    case h_9 hsome =>
      cases hsome
      rw [if_pos hdigit]
      exact .last hnumber rfl
    all_goals
      rename_i hsome
      cases hsome
      cases hdigit

/-- A whole number is written as digits, behind a sign when it is negative. -/
lemma toList_indentedAt_int (indent : Nat) (i : Int) :
    (indentedAt indent (.number (.int i))).toList =
      if 0 ≤ i then Nat.toDigits 10 i.toNat else '-' :: Nat.toDigits 10 (-i).toNat := by
  rw [indentedAt, compact, renderNumber, Int.toString_eq_repr, Int.repr_eq_if]
  split
  · rw [Nat.repr_eq_ofList_toDigits, String.toList_ofList]
  · rw [Nat.repr_eq_ofList_toDigits, String.toList_append, String.toList_ofList]
    simp

/-- Whole numbers are read back. -/
lemma isReadBack_int {i : Int} (hi : Number.InRange (.int i)) :
    IsReadBack depth (.number (.int i)) := by
  obtain ⟨hlower, hupper⟩ := hi
  have htext := fun indent => toList_indentedAt_int indent i
  by_cases hsign : 0 ≤ i
  · simp only [if_pos hsign] at htext
    cases hdigits : Nat.toDigits 10 i.toNat with
    | nil => exact absurd hdigits Nat.toDigits_ne_nil
    | cons c digits =>
      have hdigit : c.isDigit = true :=
        Nat.isDigit_of_mem_toDigits (by decide) (by decide) (hdigits ▸ List.mem_cons_self)
      refine .of_text c (fun _ => digits) (fun indent => (htext indent).trans hdigits)
        (isBlank_of_isDigit hdigit) (by rintro rfl; cases hdigit) fun indent fuel rest hrest _ => ?_
      have hvalue : Reads (readValue (fuel + 1) depth) (Nat.toDigits 10 i.toNat) rest _ :=
        reads_digits (by omega) hrest
      rwa [hdigits, Int.toNat_of_nonneg hsign] at hvalue
  · simp only [if_neg hsign] at htext
    refine .of_text '-' (fun _ => Nat.toDigits 10 (-i).toNat) htext rfl (by decide)
      fun indent fuel rest hrest _ => ?_
    have hnumber : Reads (readNumber true) (Nat.toDigits 10 (-i).toNat) rest _ :=
      reads_readNumber hrest (by omega) fun _ => ⟨by omega, by omega⟩
    rw [if_pos rfl, Int.toNat_of_nonneg (by omega), Int.neg_neg] at hnumber
    rw [readValue.eq_def]
    refine .next rfl ?_
    exact .skip (.last hnumber rfl)

/-- Arrays are read back when their items are. -/
lemma isReadBack_array {items : List Json} (hitems : ∀ item ∈ items, IsReadBack depth item) :
    IsReadBack (depth + 1) (.array items) := by
  cases items with
  | nil =>
    refine .of_text '[' (fun _ => [']']) (fun indent => ?_) rfl (by decide)
      fun indent fuel rest _ hfuel => ?_
    · rw [indentedAt, indentedItems]
      exact toList_block_nil '[' ']' indent
    · rw [readValue.eq_def]
      refine .next rfl ?_
      refine .skip (.last (b := []) ?_ rfl)
      cases fuel with
      | zero => cases hfuel
      | succ fuel =>
        rw [readItems]
        refine .next rfl ?_
        exact .skip (.pure _ rest)
  | cons item items =>
    refine .of_text '[' (fun indent => partLines ']' indent true
      ((item :: items).map fun item => (indentedAt (indent + 1) item).toList)) (fun indent => ?_)
      rfl (by decide) fun indent fuel rest _ hfuel => ?_
    · rw [indentedAt, ← indentedItems_eq_map]
      exact toList_block '[' ']' indent (by rw [indentedItems]; exact List.cons_ne_nil _ _)
    · rw [readValue.eq_def]
      refine .next rfl ?_
      exact .skip (.last (reads_items indent rest hitems hfuel) rfl)

/-- Objects are read back when the values of their fields are. -/
lemma isReadBack_object {fields : List (String × Json)} (hnames : (fields.map Prod.fst).Nodup)
    (hfields : ∀ field ∈ fields, IsReadBack depth field.2) :
    IsReadBack (depth + 1) (.object fields) := by
  cases fields with
  | nil =>
    refine .of_text '\x7b' (fun _ => ['\x7d']) (fun indent => ?_) rfl (by decide)
      fun indent fuel rest _ hfuel => ?_
    · rw [indentedAt, indentedFields]
      exact toList_block_nil '\x7b' '\x7d' indent
    · rw [readValue.eq_def]
      refine .next rfl ?_
      refine .skip (.last (b := []) ?_ rfl)
      cases fuel with
      | zero => cases hfuel
      | succ fuel =>
        rw [readFields]
        refine .next rfl ?_
        exact .skip (.pure _ rest)
  | cons field fields =>
    refine .of_text '\x7b' (fun indent => partLines '\x7d' indent true
      ((field :: fields).map (fieldText (indent + 1)))) (fun indent => ?_) rfl (by decide)
      fun indent fuel rest _ hfuel => ?_
    · rw [indentedAt, ← indentedFields_eq_map]
      exact toList_block '\x7b' '\x7d' indent (by rw [indentedFields]; exact List.cons_ne_nil _ _)
    · rw [readValue.eq_def]
      refine .next rfl ?_
      exact .skip (.last (reads_fields indent rest hnames hfields hfuel) rfl)

/-- A document within the bounds of the notation, its numbers whole, is read back. -/
lemma Within.isReadBack {document : Json}
    (h : Within (fun n => n.InRange ∧ ∃ i, n = .int i) depth document) :
    IsReadBack depth document := by
  induction h with
  | null => exact isReadBack_null
  | bool => exact isReadBack_bool _
  | string => exact isReadBack_string _
  | number hn =>
    obtain ⟨hrange, i, rfl⟩ := hn
    exact isReadBack_int hrange
  | array _ ih => exact isReadBack_array ih
  | object hnames _ ih => exact isReadBack_object hnames ih

/-- The indented form of a document on lines of its own is parsed as that document. -/
lemma parse_indented {document : Json}
    (h : Within (fun n => n.InRange ∧ ∃ i, n = .int i) 127 document) :
    parse (document.indented ++ "\n") = .ok document := by
  have hends : LineEnds (['\n'] ++ []) := ⟨'\n', [], rfl, .inl rfl⟩
  have htext : (document.indented ++ "\n").toList = (indentedAt 0 document).toList ++ ['\n'] := by
    rw [String.toList_append, indented]
    rfl
  have hreads : ∀ fuel, (indentedAt 0 document).toList.length ≤ fuel →
      Reads (readDocument fuel) ((indentedAt 0 document).toList ++ ['\n']) [] document := by
    intro fuel hfuel
    refine .bind (h.isReadBack.reads hends hfuel) ?_
    rw [← List.append_nil ['\n']]
    exact .skipBlanks ['\n'] (by simp [isBlank]) (fun _ h => nomatch h) (.pure document [])
  have hlength : (indentedAt 0 document).toList.length ≤
      2 * ((indentedAt 0 document).toList ++ ['\n']).length + 2 := by
    rw [List.length_append]
    omega
  obtain ⟨offset, hrun⟩ := hreads _ hlength 0
  rw [List.append_nil] at hrun
  rw [parse, StateT.run'_eq, htext, hrun]
  rfl

end ConfigPack.Json
