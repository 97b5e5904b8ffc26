import ConfigPack.Assembly.Error
import ConfigPack.FileTree.Operations

/-!
# Listing the files of a directory

The files at every depth below a directory, each by the names that lead to it, sorted.  What is not
a directory counts as a file; a link to a directory is followed, as far as a path can be walked at
all.  Names that are no text are listed by the texts nearest to them, so two files may be listed by
one path.
-/

namespace ConfigPack.Assembly

/-- More levels than any path has. -/
def maxDepth : Nat := FileTree.pathLimit

/-- The files below a directory; `names` leads to it from the directory at the top. -/
def filesBelow (tree : FileTree) :
    (fuel : Nat) → (directory : String) → (names : List String) → Except AssemblyError (List String)
  | 0, _, _ => .ok []
  | fuel + 1, directory, names => do
    let found ← (tree.listEntry directory).mapError (.io directory)
    let parts ← found.mapM fun name =>
      let path := Path.join directory name
      let below := names ++ [name]
      if tree.entryIsDirectory path then filesBelow tree fuel path below
      else .ok ["/".intercalate below]
    return parts.flatten

/-- Put a text into a list that is in order. -/
def insertText (text : String) : List String → List String
  | [] => [text]
  | first :: rest => if text ≤ first then text :: first :: rest else first :: insertText text rest

/-- The texts of a list in order, each as often as it stands there. -/
def inOrder (texts : List String) : List String := texts.foldr insertText []

/-- The files below a directory by the texts of their paths, in order. -/
def listFiles (tree : FileTree) (directory : String) : Except AssemblyError (List String) := do
  if Path.hasNul directory then throw (.io directory .nulInName)
  return inOrder ((← filesBelow tree maxDepth directory []).map FileName.lossyPath)

end ConfigPack.Assembly
