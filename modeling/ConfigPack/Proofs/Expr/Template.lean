import ConfigPack.Expr
import ConfigPack.Proofs.Text.Replace

/-!
# Templates

A template is read once from left to right: the names of the operands in it are holes, and all else
is text (`Template.pieces`).  Filling the holes by two replacements, one after the other, gives the
same as long as the first value, alone or with the text around it, does not form the name of the
second operand (`evaluate_format_iff`).
-/

namespace ConfigPack

namespace Template

/-- A piece of a template. -/
inductive Piece where
  | char (c : Char)
  /-- The name of the first operand. -/
  | first
  /-- The name of the second operand. -/
  | second

/-- The pieces of a template from left to right. -/
def pieces : List Char → List Piece
  | '\x7b' :: 'a' :: '\x7d' :: rest => .first :: pieces rest
  | '\x7b' :: 'b' :: '\x7d' :: rest => .second :: pieces rest
  | c :: rest => .char c :: pieces rest
  | [] => []

/-- What is written for a piece. -/
def Piece.fill (a b : List Char) : Piece → List Char
  | char c => [c]
  | first => a
  | second => b

/-- The template with all pieces written, which is looked at only once. -/
def scan (template a b : String) : String :=
  String.ofList ((pieces template.toList).flatMap (Piece.fill a.toList b.toList))

/-- The name of the second operand occurs when the value of the first one has been put in, besides
the places where the template has it, which are left blank. -/
def Forms (template a : String) : Prop := (scan template a " ").contains "\x7bb\x7d" = true

instance (template a : String) : Decidable (Forms template a) :=
  inferInstanceAs (Decidable (_ = true))

/-- The first replacement fills the first gap and leaves the other one. -/
lemma pieces_replaced (a template : List Char) :
    Text.Replaced ['\x7b', 'a', '\x7d'] a template
      ((pieces template).flatMap (Piece.fill a ['\x7b', 'b', '\x7d'])) := by
  fun_induction pieces template with
  | case1 rest ih => exact .found ih
  | case2 rest ih =>
    have hfirst : '\x7b' ∉ ['b', '\x7d'] := by decide
    exact .other (fun hprefix => by simp at hprefix) (ih.keep hfirst)
  | case3 c rest hfirst _ ih =>
    refine .other (fun hprefix => ?_) ih
    obtain ⟨rest', hrest'⟩ := hprefix
    cases hrest'
    exact hfirst rest' rfl rfl
  | case4 => exact .nil

/-- A replacement writes the second value for the second holes and for the names that are formed
where the first value has been written. -/
lemma partly_fill (a b : List Char) (ps : List Piece) (kept : List Char) :
    ∃ count out, Text.Replaced ['\x7b', 'b', '\x7d'] b
        (kept ++ ps.flatMap (Piece.fill a ['\x7b', 'b', '\x7d'])) out ∧
      Text.PartlyReplaced ['\x7b', 'b', '\x7d'] b count (kept ++ ps.flatMap (Piece.fill a b)) out ∧
      (0 < count ↔ ['\x7b', 'b', '\x7d'] <:+: kept ++ ps.flatMap (Piece.fill a [' '])) := by
  -- `kept` gathers up what stands between two second holes
  have hne : ['\x7b', 'b', '\x7d'] ≠ [] := List.cons_ne_nil _ _
  induction ps generalizing kept with
  | nil =>
    obtain ⟨out, hout⟩ := Text.exists_replaced hne b kept
    obtain ⟨count, hcount, hiff⟩ := hout.partly hne
    rw [List.flatMap_nil, List.flatMap_nil, List.flatMap_nil, List.append_nil]
    exact ⟨count, out, hout, hcount, hiff⟩
  | cons p ps ih =>
    rw [List.flatMap_cons, List.flatMap_cons, List.flatMap_cons]
    cases p with
    | char c =>
      rw [← List.append_assoc, ← List.append_assoc, ← List.append_assoc]
      exact ih (kept ++ [c])
    | first =>
      rw [← List.append_assoc, ← List.append_assoc, ← List.append_assoc]
      exact ih (kept ++ a)
    | second =>
      obtain ⟨outKept, houtKept⟩ := Text.exists_replaced hne b kept
      obtain ⟨countKept, hcountKept, hiffKept⟩ := houtKept.partly hne
      obtain ⟨count, out, hout, hcount, hiff⟩ := ih []
      refine ⟨countKept + count, outKept ++ (b ++ out), ?_, ?_, ?_⟩
      · exact houtKept.append (by decide) (.inr (List.prefix_append _ _)) (.found hout)
      · have hvalue := (Text.PartlyReplaced.refl b).append hcount
        rw [Nat.zero_add] at hvalue
        exact hcountKept.append hvalue
      · rw [Piece.fill, List.singleton_append, Text.infix_append_cons_iff (by decide), ← hiffKept]
        rw [List.nil_append] at hiff
        rw [← hiff]
        omega

/-- The values are put in as a single scan does it, unless the first one forms the name of the
second operand, which then is replaced as well; that is not seen only when the name is its own
value. -/
lemma fillTemplate_eq_scan_iff (template : String) (x y : Value) :
    fillTemplate template x y = scan template x.display y.display ↔
      ¬ Forms template x.display ∨ y.display = "\x7bb\x7d" := by
  have hfirst : (Text.replace template "\x7ba\x7d" x.display).toList =
      (pieces template.toList).flatMap (Piece.fill x.display.toList ['\x7b', 'b', '\x7d']) := by
    have hname : "\x7ba\x7d" ≠ "" := by decide
    have hreplaced : Text.Replaced ['\x7b', 'a', '\x7d'] x.display.toList template.toList
        (Text.replace template "\x7ba\x7d" x.display).toList := Text.replace_replaced hname
    exact hreplaced.unique (List.cons_ne_nil _ _) (pieces_replaced _ _)
  obtain ⟨count, out, hout, hcount, hiff⟩ :=
    partly_fill x.display.toList y.display.toList (pieces template.toList) []
  simp only [List.nil_append] at hout hcount hiff
  have hsecond : (fillTemplate template x y).toList = out := by
    have hname : "\x7bb\x7d" ≠ "" := by decide
    have hreplaced : Text.Replaced ['\x7b', 'b', '\x7d'] y.display.toList
        (Text.replace template "\x7ba\x7d" x.display).toList
        (fillTemplate template x y).toList := Text.replace_replaced hname
    rw [hfirst] at hreplaced
    exact hreplaced.unique (List.cons_ne_nil _ _) hout
  have hforms : Forms template x.display ↔ 0 < count := by
    rw [hiff, Forms, String.contains_string_iff, scan, String.toList_ofList, String.toList_ofList]
    rfl
  rw [← String.toList_inj, hsecond, scan, String.toList_ofList, hcount.eq_iff, hforms, Nat.not_lt,
    Nat.le_zero, ← String.toList_inj]
  rfl

/-- A format whose operands have values gives the text of a single scan of its template exactly when
the first value does not form the name of the second operand, or when that name is the second
value. -/
theorem evaluate_format_iff {env : ParameterEnv} {fallback x y : Value} {a b : Operand}
    (template : String) (ha : a.evaluate env fallback = .ok x)
    (hb : b.evaluate env fallback = .ok y) :
    ∃ text, (Expr.format a b template).evaluate env fallback = .ok (.text text) ∧
      (text = scan template x.display y.display ↔
        ¬ Forms template x.display ∨ y.display = "\x7bb\x7d") := by
  refine ⟨fillTemplate template x y, ?_, fillTemplate_eq_scan_iff template x y⟩
  rw [Expr.evaluate, ha, hb]
  rfl

/-- The value of the first operand is taken for the gap of the second one. -/
theorem value_is_taken_for_name :
    (Operand.literal (.text "\x7bb\x7d")).evaluate Dict.empty (.bool true) =
        .ok (.text "\x7bb\x7d") ∧
      (Operand.literal (.text "x")).evaluate Dict.empty (.bool true) = .ok (.text "x") ∧
      (Expr.format (.literal (.text "\x7bb\x7d")) (.literal (.text "x")) "\x7ba\x7d").evaluate
        Dict.empty (.bool true) = .ok (.text "x") ∧
      scan "\x7ba\x7d" "\x7bb\x7d" "x" = "\x7bb\x7d" ∧ Forms "\x7ba\x7d" "\x7bb\x7d" := by
  have ha : (Operand.literal (.text "\x7bb\x7d")).evaluate Dict.empty (.bool true) =
    .ok (.text "\x7bb\x7d") := rfl
  have hb : (Operand.literal (.text "x")).evaluate Dict.empty (.bool true) = .ok (.text "x") := rfl
  have hscan : scan "\x7ba\x7d" "\x7bb\x7d" "x" = "\x7bb\x7d" := by decide +kernel
  have hfill : fillTemplate "\x7ba\x7d" (.text "\x7bb\x7d") (.text "x") = "x" := by
    simp only [fillTemplate, Text.replace_eq_replaceFrom]
    decide +kernel
  have hvalue : (Expr.format (.literal (.text "\x7bb\x7d")) (.literal (.text "x"))
      "\x7ba\x7d").evaluate Dict.empty (.bool true) = .ok (.text "x") :=
    congrArg (fun text => Except.ok (Value.text text)) hfill
  refine ⟨ha, hb, hvalue, hscan, ?_⟩
  obtain ⟨text, htext, hiff⟩ := evaluate_format_iff "\x7ba\x7d" ha hb
  rw [hvalue] at htext
  cases htext
  by_contra hforms
  have hsame : "x" = scan "\x7ba\x7d" "\x7bb\x7d" "x" := hiff.2 (.inl hforms)
  rw [hscan] at hsame
  exact absurd hsame (by decide)

end Template

end ConfigPack
