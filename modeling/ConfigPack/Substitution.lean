import ConfigPack.Dict
import ConfigPack.Text.Marks
import ConfigPack.Text.Replace

/-!
# Substitution

Every token in a text is replaced by its value, in whole passes over the tokens in order, until a
pass changes nothing.  A value may hold other tokens, so more passes than one can be needed, but
never more than there are tokens and two, unless tokens lead back to themselves.  A text that grows
too far is given up at once.
-/

namespace ConfigPack.Substitution

/-- The values of tokens. -/
abbrev Variables := Dict String

/-- The bytes by which a text may grow. -/
def maxGrowth : Nat := 16 * 1024 * 1024

/-- No pass left the text as it was, or it grew too far. -/
structure NotConverged where
  /-- The passes that were begun. -/
  passes : Nat
deriving DecidableEq, Repr

/-- A text with the marks of its characters. -/
structure Marked where
  text : String
  marks : UInt64
  marks_eq : marks = Text.marks text

namespace Marked

/-- A text with its marks. -/
def of (text : String) : Marked := ⟨text, Text.marks text, rfl⟩

/-- Whether a token occurs in a text; the marks spare the search for most that do not. -/
def holds (m : Marked) (token : String) : Bool :=
  Text.marksAmong (Text.marks token) m.marks && m.text.contains token

theorem holds_eq_contains (m : Marked) (token : String) :
    m.holds token = m.text.contains token := by
  rw [holds, m.marks_eq]
  cases h : m.text.contains token with
  | false => simp
  | true => simp [Text.marksAmong_of_contains h]

end Marked

/-- Replace one token; a text that grows beyond the limit is given up. -/
def replaceToken (limit : Nat) (m : Marked) (token value : String) : Option Marked :=
  if token.isEmpty || !m.holds token then some m
  else
    let replaced := Text.replace m.text token value
    if replaced.utf8ByteSize > limit then none else some (.of replaced)

/-- Replace tokens one after the other. -/
def pass (limit : Nat) (text : String) (tokens : List (String × String)) : Option String :=
  (tokens.foldlM (fun m e => replaceToken limit m e.1 e.2) (Marked.of text)).map Marked.text

/-- Run up to `left` passes after `done` ones. -/
def run (limit : Nat) (tokens : Variables) (text : String) (done : Nat) :
    (left : Nat) → Except NotConverged String
  | 0 => .error ⟨done⟩
  | left + 1 =>
    match pass limit text tokens.entries with
    | none => .error ⟨done + 1⟩
    | some next => if next = text then .ok next else run limit tokens next (done + 1) left

/-- The text with all tokens replaced, unless it grows beyond a limit. -/
def substituteWithin (limit : Nat) (text : String) (tokens : Variables) :
    Except NotConverged String :=
  run limit tokens text 0 (tokens.size + 2)

/-- The text with all tokens replaced. -/
def substitute (text : String) (tokens : Variables) : Except NotConverged String :=
  substituteWithin (text.utf8ByteSize + maxGrowth) text tokens

end ConfigPack.Substitution
