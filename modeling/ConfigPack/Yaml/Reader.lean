import ConfigPack.Yaml.Node
import ConfigPack.Yaml.Scalar

/-!
# Reading YAML

A YAML text holds one document.  Read as a YAML value, equal keys in a mapping are refused and tags
of the application are kept.  Read as a document of texts, keys are the texts of their scalars, a
key that stands twice takes the later value, and tags of the application are refused.

At most 128 sequences and mappings may be nested, and no more aliases may be followed than a hundred
times the parts of the document.
-/

namespace ConfigPack.Yaml

/-- A tag of the application without its mark; tags of the language itself have none. -/
def applicationTag? (tag : String) : Option String :=
  match tag.toList with
  | ['!'] => some "!"
  | '!' :: rest => some (String.ofList rest)
  | _ => none

/-- What a scalar with a tag of the language, or without a tag, stands for. -/
def scalarPlain (tag : Option String) (text : String) (style : ScalarStyle) :
    Except Fault Plain :=
  match tag with
  | some "tag:yaml.org,2002:bool" =>
    match Plain.bool? text with
    | some b => .ok (.bool b)
    | none => .error .unfitTag
  | some "tag:yaml.org,2002:int" =>
    match Plain.int? text.toList with
    | some n => .ok n
    | none => .error .unfitTag
  | some "tag:yaml.org,2002:float" =>
    match Plain.float? text.toList with
    | some x => .ok (.float x)
    | none => .error .unfitTag
  | some "tag:yaml.org,2002:null" => if Plain.isNull text then .ok .null else .error .unfitTag
  | some _ => .ok .text
  | none => .ok (if style = .plain then Plain.ofText text else .text)

/-- A step of reading values counts the aliases that were followed. -/
abbrev Follow := StateT Nat (Except Fault)

/-- The node that a node stands for: an alias is followed once. -/
def follow (document : Node.Document) (node : Node) : Follow Node := do
  match node with
  | .alias id =>
    modify (· + 1)
    if (← get) > document.parts * 100 then throw .tooManyAliases
    match document.anchored? id with
    | some target => return target
    | none => throw .unknownAlias
  | _ => return node

/-- The YAML value that a scalar stands for. -/
def ofPlain (text : String) : Plain → Except Fault Yaml
  | .null => .ok .null
  | .bool b => .ok (.bool b)
  | .int n => .ok (.number (.int n))
  | .wideInt => .error .numberTooWide
  | .float x => .ok (.number (.float x))
  | .text => .ok (.string text)

/-- A value under the tag of its node. -/
def underTag (tag : Option String) (value : Yaml) : Yaml :=
  match tag.bind applicationTag? with
  | some name => .tagged name value
  | none => value

/-- The entries of a mapping in order, unless two keys are equal; the entries read come last
first. -/
def distinctEntries (read : List (Yaml × Yaml)) :
    List (Yaml × Yaml) → Except Fault (List (Yaml × Yaml))
  | [] => .ok read.reverse
  | (key, value) :: rest =>
    if read.any fun e => same e.1 key then .error .duplicateKey
    else distinctEntries ((key, value) :: read) rest

/-- The YAML value of a node in which `depth` more collections may be nested. -/
def ofNode (document : Node.Document) (depth : Nat) (node : Node) : Follow Yaml := do
  match ← follow document node with
  | .scalar tag text style =>
    let plain ←
      if (tag.bind applicationTag?).isSome then
        pure (if style = .plain then Plain.ofText text else .text)
      else liftM (scalarPlain tag text style)
    return underTag tag (← liftM (ofPlain text plain))
  | .sequence tag items =>
    match depth with
    | 0 => throw .tooDeep
    | depth + 1 => return underTag tag (.sequence (← items.mapM (ofNode document depth)))
  | .mapping tag entries =>
    match depth with
    | 0 => throw .tooDeep
    | depth + 1 =>
      let entries ← entries.mapM fun e => do
        let key ← ofNode document depth e.1
        return (key, ← ofNode document depth e.2)
      return underTag tag (.mapping (← liftM (distinctEntries [] entries)))
  | .alias _ => throw .unknownAlias

/-- The document that a scalar stands for. -/
def documentOfPlain (text : String) : Plain → Except Fault Json
  | .null => .ok .null
  | .bool b => .ok (.bool b)
  | .int n => .ok (.number (.int n))
  | .wideInt => .error .numberTooWide
  | .float x => .ok (if x.isFinite then .number (.float x) else .null)
  | .text => .ok (.string text)

/-- The text of a key. -/
def keyText (document : Node.Document) (node : Node) : Follow String := do
  match ← follow document node with
  | .scalar _ text _ => return text
  | _ => throw .keyNotText

/-- The document of a node in which `depth` more collections may be nested. -/
def documentOfNode (document : Node.Document) (depth : Nat) (node : Node) : Follow Json := do
  match ← follow document node with
  | .scalar tag text style =>
    if (tag.bind applicationTag?).isSome then throw .applicationTag
    let plain ← liftM (scalarPlain tag text style)
    liftM (documentOfPlain text plain)
  | .sequence tag items =>
    if (tag.bind applicationTag?).isSome then throw .applicationTag
    match depth with
    | 0 => throw .tooDeep
    | depth + 1 => return .array (← items.mapM (documentOfNode document depth))
  | .mapping tag entries =>
    if (tag.bind applicationTag?).isSome then throw .applicationTag
    match depth with
    | 0 => throw .tooDeep
    | depth + 1 =>
      let fields ← entries.mapM fun e => do
        let name ← keyText document e.1
        return (name, ← documentOfNode document depth e.2)
      return .object (fields.foldl (fun read f => Json.setField f.1 f.2 read) [])
  | .alias _ => throw .unknownAlias

/-- How many sequences and mappings may be nested. -/
def maxDepth : Nat := 128

/-- The YAML value that a text holds. -/
def parse (text : String) : Except Fault Yaml := do
  let document ← Node.ofTokens (← Token.scan text)
  (ofNode document maxDepth document.root).run' 0

/-- The document that a YAML text holds. -/
def parseDocument (text : String) : Except Fault Json := do
  let document ← Node.ofTokens (← Token.scan text)
  (documentOfNode document maxDepth document.root).run' 0

end ConfigPack.Yaml
