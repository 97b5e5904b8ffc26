/-!
# Replacing a text inside a text

Occurrences are found from left to right and do not overlap; what has been put in is not searched.
-/

namespace ConfigPack.Text

/-- Copy characters to `out`, writing `value` where `pattern` begins; the first `skip` characters
belong to an occurrence already written. -/
def replaceFrom (pattern : List Char) (value : String) (skip : Nat) :
    List Char → String → String
  | [], out => out
  | c :: rest, out =>
    match skip with
    | skip + 1 => replaceFrom pattern value skip rest out
    | 0 =>
      if pattern.isPrefixOf (c :: rest) then
        replaceFrom pattern value (pattern.length - 1) rest (out ++ value)
      else replaceFrom pattern value 0 rest (out.push c)

/-- The text with every occurrence of `pattern`, which is not empty, replaced by `value`. -/
def replace (text pattern value : String) : String :=
  if text.contains pattern then replaceFrom pattern.toList value 0 text.toList "" else text

end ConfigPack.Text
