import ConfigPack.Text.CodePoint

/-!
# Quoted texts

A quoted text shows every character of a text without doubt: what is unprintable, or would hide in
the character before it, is written by its code point.
-/

namespace ConfigPack.Text

/-- The lower hexadecimal digits of a number. -/
def hexDigits (n : Nat) : List Char := Nat.toDigits 16 n

/-- A character as it stands between quotes. -/
def escapeQuoted (c : Char) : List Char :=
  match c with
  | '\x00' => ['\\', '0']
  | '\t' => ['\\', 't']
  | '\r' => ['\\', 'r']
  | '\n' => ['\\', 'n']
  | '"' => ['\\', '"']
  | '\\' => ['\\', '\\']
  | c =>
    if isPrintable c && !isCombining c then [c]
    else ['\\', 'u', '\x7b'] ++ hexDigits c.toNat ++ ['\x7d']

/-- A text in quotes. -/
def quoted (s : String) : String :=
  String.ofList ('"' :: (s.toList.flatMap escapeQuoted ++ ['"']))

/-- A character of a path as it stands between quotes; a single quote is escaped as well. -/
def escapePath (c : Char) : List Char := if c = '\x27' then ['\\', '\x27'] else escapeQuoted c

/-- A path in quotes. -/
def quotedPath (path : String) : String :=
  String.ofList ('"' :: (path.toList.flatMap escapePath ++ ['"']))

end ConfigPack.Text
