import ConfigPack.Yaml.Token

/-!
# Nodes of YAML documents

The tokens of a text are put together to one tree of nodes.  A node keeps its tag and the way its
scalar was written, from which its value follows later.  An alias names the place of an anchor;
anchors are numbered by the number of distinct names known when they are read, and of two anchors
with one number the later is meant.
-/

namespace ConfigPack.Yaml

/-- A node of a document. -/
inductive Node where
  | scalar (tag : Option String) (text : String) (style : ScalarStyle)
  | sequence (tag : Option String) (items : List Node)
  | mapping (tag : Option String) (entries : List (Node × Node))
  | alias (number : Nat)
deriving Repr, Inhabited

namespace Node

/-- An anchored node. -/
structure Anchored where
  number : Nat
  /-- How many parts of the document stand before it. -/
  place : Nat
  node : Node

/-- How far the tokens are put together. -/
structure Builder where
  tokens : List Token
  /-- The number of scalars, aliases, and starts and ends of collections so far. -/
  parts : Nat
  /-- The numbers of the anchor names. -/
  names : List (String × Nat)
  /-- The nodes with anchors. -/
  anchored : List Anchored
  /-- The handles of tags and what they stand for. -/
  handles : List (String × String)

/-- A step of putting tokens together. -/
abbrev Build := StateT Builder (Except Fault)

/-- The next token, which stays. -/
def peek : Build Token := return (← get).tokens.headD .streamEnd

/-- Pass over the next token. -/
def skip : Build Unit := modify fun s => { s with tokens := s.tokens.tail }

/-- Count parts of the document. -/
def count (parts : Nat) : Build Unit := modify fun s => { s with parts := s.parts + parts }

/-- The node of a scalar that is not written. -/
def empty : Build Node := do
  count 1
  return .scalar none "" .plain

/-- The tag that a handle and a suffix make. -/
def resolveTag (handle suffix : String) : Build String := do
  if handle.isEmpty then return suffix
  match (← get).handles.lookup handle with
  | some start => return start ++ suffix
  | none => throw .badTag

/-- The anchor and the tag before a node, in either order. -/
structure Properties where
  anchor : Option String
  tag : Option String

/-- Read the anchor and the tag of a node. -/
def readProperties : Build Properties := do
  match ← peek with
  | .anchor name =>
    skip
    match ← peek with
    | .tag handle suffix => skip; return ⟨some name, some (← resolveTag handle suffix)⟩
    | _ => return ⟨some name, none⟩
  | .tag handle suffix =>
    skip
    match ← peek with
    | .anchor name => skip; return ⟨some name, some (← resolveTag handle suffix)⟩
    | _ => return ⟨none, some (← resolveTag handle suffix)⟩
  | _ => return ⟨none, none⟩

/-- Give an anchor its number. -/
def number (anchor : Option String) : Build (Option Nat) := do
  match anchor with
  | none => return none
  | some name =>
    let s ← get
    let n := s.names.length
    set { s with names := (name, n) :: s.names.filter (·.1 ≠ name) }
    return some n

/-- Keep a node under the number of its anchor. -/
def keep (number : Option Nat) (place : Nat) (node : Node) : Build Node := do
  if let some n := number then
    modify fun s => { s with anchored := ⟨n, place, node⟩ :: s.anchored }
  return node

/-- Whether a token ends an entry of a block sequence. -/
def endsEntry : Token → Bool
  | .blockEntry | .blockEnd => true
  | _ => false

/-- Whether a token ends an entry of a block sequence that stands at the column of its key. -/
def endsIndentless : Token → Bool
  | .blockEntry | .key | .value | .blockEnd => true
  | _ => false

/-- Whether a token ends a key or value of a block mapping. -/
def endsBlockPart : Token → Bool
  | .key | .value | .blockEnd => true
  | _ => false

/-- Whether a token ends a key of a flow collection. -/
def endsFlowKey (close : Token) (token : Token) : Bool :=
  token == .value || token == .flowEntry || token == close

/-- Whether a token ends a value of a flow collection. -/
def endsFlowValue (close : Token) (token : Token) : Bool := token == .flowEntry || token == close

mutual

/-- Read a node; `block` says whether block collections may begin here, `indentless` whether a block
sequence may begin at the column of its key, and `fuel` bounds the depth of the calls. -/
def read (block indentless : Bool) : Nat → Build Node
  | 0 => throw .tooDeep
  | fuel + 1 => do
    if let .alias name ← peek then
      skip
      count 1
      match (← get).names.lookup name with
      | some n => return .alias n
      | none => throw .unknownAlias
    let properties ← readProperties
    let place := (← get).parts
    let tag := properties.tag
    match ← peek with
    | .scalar text style =>
      skip
      count 1
      keep (← number properties.anchor) place (.scalar tag text style)
    | .flowSequenceStart =>
      skip
      let n ← number properties.anchor
      count 2
      let items ← readFlowItems true fuel
      keep n place (.sequence tag items)
    | .flowMappingStart =>
      skip
      let n ← number properties.anchor
      count 2
      let entries ← readFlowEntries true fuel
      keep n place (.mapping tag entries)
    | token =>
      if token == .blockEntry && indentless then
        let n ← number properties.anchor
        count 2
        let items ← readIndentless fuel
        keep n place (.sequence tag items)
      else if token == .blockSequenceStart && block then
        skip
        let n ← number properties.anchor
        count 2
        let items ← readBlockItems fuel
        keep n place (.sequence tag items)
      else if token == .blockMappingStart && block then
        skip
        let n ← number properties.anchor
        count 2
        let entries ← readBlockEntries fuel
        keep n place (.mapping tag entries)
      else if properties.anchor.isSome || tag.isSome then
        count 1
        keep (← number properties.anchor) place (.scalar tag "" .plain)
      else throw .unexpectedToken

/-- Read the items of a block sequence. -/
def readBlockItems : Nat → Build (List Node)
  | 0 => throw .tooDeep
  | fuel + 1 => do
    match ← peek with
    | .blockEntry =>
      skip
      let item ← if endsEntry (← peek) then empty else read true false fuel
      return item :: (← readBlockItems fuel)
    | .blockEnd => skip; return []
    | _ => throw .unexpectedToken

/-- Read the items of a block sequence that stands at the column of its key. -/
def readIndentless : Nat → Build (List Node)
  | 0 => throw .tooDeep
  | fuel + 1 => do
    match ← peek with
    | .blockEntry =>
      skip
      let item ← if endsIndentless (← peek) then empty else read true false fuel
      return item :: (← readIndentless fuel)
    | _ => return []

/-- Read the entries of a block mapping. -/
def readBlockEntries : Nat → Build (List (Node × Node))
  | 0 => throw .tooDeep
  | fuel + 1 => do
    let part : Build Node := do
      skip
      if endsBlockPart (← peek) then empty else read true true fuel
    match ← peek with
    | .key =>
      let key ← part
      let value ← if (← peek) == .value then part else empty
      return (key, value) :: (← readBlockEntries fuel)
    | .blockEnd => skip; return []
    | _ => throw .unexpectedToken

/-- Read the items of a flow sequence; a key among them makes a mapping of one entry. -/
def readFlowItems (first : Bool) : Nat → Build (List Node)
  | 0 => throw .tooDeep
  | fuel + 1 => do
    if (← peek) == .flowSequenceEnd then
      skip
      return []
    if !first then
      if (← peek) == .flowEntry then skip else throw .unexpectedToken
    match ← peek with
    | .key =>
      skip
      count 2
      let key ←
        if endsFlowKey .flowSequenceEnd (← peek) then do
          -- The token that shows the missing key is lost.
          skip
          empty
        else read false false fuel
      let value ←
        if (← peek) == .value then do
          skip
          if endsFlowValue .flowSequenceEnd (← peek) then empty else read false false fuel
        else empty
      return .mapping none [(key, value)] :: (← readFlowItems false fuel)
    | .flowSequenceEnd => skip; return []
    | _ =>
      let item ← read false false fuel
      return item :: (← readFlowItems false fuel)

/-- Read the entries of a flow mapping. -/
def readFlowEntries (first : Bool) : Nat → Build (List (Node × Node))
  | 0 => throw .tooDeep
  | fuel + 1 => do
    if (← peek) == .flowMappingEnd then
      skip
      return []
    if !first then
      if (← peek) == .flowEntry then skip else throw .unexpectedToken
    match ← peek with
    | .key =>
      skip
      let key ← if endsFlowKey .flowMappingEnd (← peek) then empty else read false false fuel
      let value ←
        if (← peek) == .value then do
          skip
          if endsFlowValue .flowMappingEnd (← peek) then empty else read false false fuel
        else empty
      return (key, value) :: (← readFlowEntries false fuel)
    | .flowMappingEnd => skip; return []
    | _ =>
      let key ← read false false fuel
      let value ← empty
      return (key, value) :: (← readFlowEntries false fuel)

end

/-- Pass over the markers of ended documents. -/
def skipDocumentEnds : Nat → Build Unit
  | 0 => pure ()
  | fuel + 1 => do
    if (← peek) == .documentEnd then
      skip
      skipDocumentEnds fuel

/-- Read the directives of a document: one version, 1.1 or 1.2, and handles that differ. -/
def readDirectives (versionSeen : Bool) (handles : List (String × String)) :
    Nat → Build (List (String × String))
  | 0 => throw .badDirective
  | fuel + 1 => do
    match ← peek with
    | .versionDirective major minor =>
      if versionSeen || major ≠ 1 || (minor ≠ 1 && minor ≠ 2) then throw .badDirective
      skip
      readDirectives true handles fuel
    | .tagDirective handle start =>
      if (handles.lookup handle).isSome then throw .badDirective
      skip
      readDirectives versionSeen (handles ++ [(handle, start)]) fuel
    | _ => return handles

/-- The handles that need no directive. -/
def commonHandles : List (String × String) := [("!", "!"), ("!!", "tag:yaml.org,2002:")]

/-- Whether a token begins or ends a document, or begins its directives. -/
def isBoundary : Token → Bool
  | .versionDirective _ _ | .tagDirective _ _ | .documentStart | .documentEnd | .streamEnd => true
  | _ => false

/-- Read the only document of a text, if there is one. -/
def readOnly (fuel : Nat) : Build (Option Node) := do
  let first ← peek
  if first == .streamEnd then return none
  let content ←
    if isBoundary first && first != .documentEnd then
      let handles ← readDirectives false [] fuel
      if (← peek) != .documentStart then throw .unexpectedToken
      skip
      modify fun s => { s with handles := handles ++ commonHandles }
      if isBoundary (← peek) then empty else read true false fuel
    else read true false fuel
  skipDocumentEnds fuel
  if (← peek) != .streamEnd then throw .manyDocuments
  return some content

/-- A document: its root and the nodes that its aliases mean. -/
structure Document where
  root : Node
  anchored : List Anchored
  /-- The number of scalars, aliases, and starts and ends of collections. -/
  parts : Nat

/-- The document of tokens; a text without a document holds an empty scalar. -/
def ofTokens (tokens : List Token) : Except Fault Document := do
  let start : Builder := ⟨tokens, 0, [], [], commonHandles⟩
  let (root?, s) ← (readOnly (2 * tokens.length + 4)).run start
  return ⟨root?.getD (.scalar none "" .plain), s.anchored, max s.parts 1⟩

/-- The node that an alias means: the last of those with its number. -/
def Document.anchored? (document : Document) (number : Nat) : Option Node :=
  let candidates := document.anchored.filter (·.number == number)
  (candidates.foldl (fun best c =>
    match best with
    | some b => if b.place ≤ c.place then some c else some b
    | none => some c) (none : Option Anchored)).map Anchored.node

end Node

end ConfigPack.Yaml
