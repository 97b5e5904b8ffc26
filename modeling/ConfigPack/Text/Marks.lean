/-!
# Marks of characters

Every character has one of sixty-four marks, so a word holds the marks of a text.  A text whose
marks are not among those of another does not occur in it, which is known without a search.
-/

namespace ConfigPack.Text

/-- The mark of a character. -/
def mark (c : Char) : UInt64 := 1 <<< (c.val.toUInt64 % 64)

/-- The marks of the characters of a text. -/
def marks (text : String) : UInt64 := text.foldl (fun seen c => seen ||| mark c) 0

/-- Whether all marks of one word are among those of another. -/
def marksAmong (a b : UInt64) : Bool := a ||| b == b

theorem or_foldl_mark {a init : UInt64} (cs : List Char) (h : a ||| init = init) :
    a ||| cs.foldl (fun seen c => seen ||| mark c) init =
      cs.foldl (fun seen c => seen ||| mark c) init := by
  induction cs generalizing init with
  | nil => exact h
  | cons c cs ih => exact ih (by rw [← UInt64.or_assoc, h])

theorem mark_or_foldl {c : Char} {cs : List Char} (h : c ∈ cs) (init : UInt64) :
    mark c ||| cs.foldl (fun seen c => seen ||| mark c) init =
      cs.foldl (fun seen c => seen ||| mark c) init := by
  induction cs generalizing init with
  | nil => simp at h
  | cons d cs ih =>
    rcases List.mem_cons.1 h with rfl | h
    · exact or_foldl_mark cs (by rw [UInt64.or_comm, UInt64.or_assoc, UInt64.or_self])
    · exact ih h _

theorem foldl_mark_or {b init : UInt64} {cs : List Char} (h : init ||| b = b)
    (hcs : ∀ c ∈ cs, mark c ||| b = b) :
    cs.foldl (fun seen c => seen ||| mark c) init ||| b = b := by
  induction cs generalizing init with
  | nil => exact h
  | cons c cs ih =>
    refine ih ?_ fun d hd => hcs d (List.mem_cons_of_mem c hd)
    rw [UInt64.or_assoc, hcs c List.mem_cons_self, h]

/-- A text that occurs in another has all its marks there. -/
theorem marksAmong_of_contains {text pattern : String} (h : text.contains pattern = true) :
    marksAmong (marks pattern) (marks text) = true := by
  have hsub := (String.contains_string_iff.1 h).subset
  simp only [marksAmong, marks, String.foldl_eq_foldl_toList, beq_iff_eq]
  exact foldl_mark_or (by simp) fun c hc => mark_or_foldl (hsub hc) 0

end ConfigPack.Text
