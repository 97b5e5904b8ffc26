import ConfigPack.Bytes

/-!
# Inflating

Compressed data is a sequence of blocks.  A block is stored, or it is written in a code of literals,
lengths and distances, which is fixed or described in front of the block.  Data that ends too early
gives what could be read so far.
-/

namespace ConfigPack.Inflate

/-- Why inflating stopped before the last block was complete. -/
inductive Stop where
  /-- The data ends. -/
  | ended
  /-- The data means nothing. -/
  | corrupt
deriving DecidableEq, Repr

/-- How far data is inflated. -/
structure Progress where
  data : ByteArray
  /-- The number of bits that were read. -/
  position : Nat
  output : ByteArray

/-- A step of inflating; the output is kept also when it stops. -/
abbrev Step := ExceptT Stop (StateM Progress)

/-- Read a bit. -/
def readBit : Step Nat := do
  let p ← get
  if p.position / 8 ≥ p.data.size then throw .ended
  set { p with position := p.position + 1 }
  return (Bytes.byteAt p.data (p.position / 8)).toNat >>> (p.position % 8) % 2

/-- Read a number of `count` bits, the lowest first. -/
def readBits : (count : Nat) → Step Nat
  | 0 => return 0
  | count + 1 => do
    let bit ← readBit
    return bit + 2 * (← readBits count)

/-- Append a byte to the output. -/
def emit (byte : UInt8) : Step Unit := modify fun p => { p with output := p.output.push byte }

/-- A code: how many symbols have each length, and the symbols in the order of their codes. -/
structure Code where
  counts : Array Nat
  symbols : Array Nat

/-- The greatest length of a code. -/
def maxLength : Nat := 15

/-- How many codes of the greatest length are still free when `counts` symbols of each length have
codes; none when there are too many symbols. -/
def free? (counts : List Nat) : Option Nat :=
  counts.foldlM (fun left count => if count ≤ 2 * left then some (2 * left - count) else none) 1

/-- The code in which symbol `i` has a code of length `lengths[i]`, or none when that is zero.  The
code must be complete, unless `single` allows one with a single symbol of length one. -/
def Code.ofLengths (single : Bool) (lengths : List Nat) : Except Stop Code :=
  let counts := (List.range maxLength).map fun i => lengths.count (i + 1)
  let numbered := lengths.zipIdx
  let symbols := (List.range maxLength).flatMap fun i =>
    (numbered.filter fun e => e.1 == i + 1).map Prod.snd
  match free? counts with
  | none => .error .corrupt
  | some left =>
    let lone := symbols.isEmpty || (single && counts.headD 0 == 1 && symbols.length == 1)
    if left = 0 || lone then .ok ⟨counts.toArray, symbols.toArray⟩ else .error .corrupt

/-- Read a symbol: `code` are the bits so far, `first` is the first code of the next length and
`index` the number of symbols with shorter codes. -/
def Code.readFrom (c : Code) (code first index : Nat) : List Nat → Step Nat
  | [] => throw .corrupt
  | count :: longer => do
    let code := code + (← readBit)
    if code < first + count then return c.symbols.getD (index + (code - first)) 0
    readFrom c (2 * code) (2 * (first + count)) (index + count) longer

/-- Read a symbol. -/
def Code.read (c : Code) : Step Nat := c.readFrom 0 0 0 c.counts.toList

/-- The least lengths that the symbols of lengths stand for. -/
def lengthBases : Array Nat :=
  #[3, 4, 5, 6, 7, 8, 9, 10, 11, 13, 15, 17, 19, 23, 27, 31, 35, 43, 51, 59, 67, 83, 99, 115, 131,
    163, 195, 227, 258]

/-- The numbers of bits that are added to them. -/
def lengthBits : Array Nat :=
  #[0, 0, 0, 0, 0, 0, 0, 0, 1, 1, 1, 1, 2, 2, 2, 2, 3, 3, 3, 3, 4, 4, 4, 4, 5, 5, 5, 5, 0]

/-- The least distances that the symbols of distances stand for. -/
def distanceBases : Array Nat :=
  #[1, 2, 3, 4, 5, 7, 9, 13, 17, 25, 33, 49, 65, 97, 129, 193, 257, 385, 513, 769, 1025, 1537, 2049,
    3073, 4097, 6145, 8193, 12289, 16385, 24577]

/-- The numbers of bits that are added to them. -/
def distanceBits : Array Nat :=
  #[0, 0, 0, 0, 1, 1, 2, 2, 3, 3, 4, 4, 5, 5, 6, 6, 7, 7, 8, 8, 9, 9, 10, 10, 11, 11, 12, 12, 13, 13]

/-- Copy bytes of the output from a distance back, one after the other. -/
def copyBack (distance : Nat) : (count : Nat) → Step Unit
  | 0 => return
  | count + 1 => do
    let p ← get
    emit (Bytes.byteAt p.output (p.output.size - distance))
    copyBack distance count

/-- Copy the bytes of a length symbol. -/
def copyRun (distances : Code) (symbol : Nat) : Step Unit := do
  match lengthBases[symbol - 257]?, lengthBits[symbol - 257]? with
  | some base, some bits =>
    let length := base + (← readBits bits)
    let far ← distances.read
    match distanceBases[far]?, distanceBits[far]? with
    | some base, some bits =>
      let distance := base + (← readBits bits)
      if distance > (← get).output.size then throw .corrupt
      copyBack distance length
    | _, _ => throw .corrupt
  | _, _ => throw .corrupt

/-- Read the symbols of a block. -/
def readSymbols (literals distances : Code) : (fuel : Nat) → Step Unit
  | 0 => throw .ended
  | fuel + 1 => do
    let symbol ← literals.read
    if symbol < 256 then
      emit (UInt8.ofNat symbol)
      readSymbols literals distances fuel
    else if symbol > 256 then
      copyRun distances symbol
      readSymbols literals distances fuel

/-- Copy a stored block. -/
def readStored : Step Unit := do
  modify fun p => { p with position := (p.position + 7) / 8 * 8 }
  let size ← readBits 16
  let check ← readBits 16
  if size + check ≠ 0xffff then throw .corrupt
  let p ← get
  let start := p.position / 8
  let taken := p.data.extract start (start + size)
  set { p with position := p.position + 8 * taken.size, output := p.output ++ taken }
  if taken.size < size then throw .ended

/-- The lengths of the fixed code of literals. -/
def fixedLengths : List Nat :=
  List.replicate 144 8 ++ List.replicate 112 9 ++ List.replicate 24 7 ++ List.replicate 8 8

/-- The order in which the lengths of the code of lengths are written. -/
def lengthOrder : List Nat := [16, 17, 18, 0, 8, 7, 9, 6, 10, 5, 11, 4, 12, 3, 13, 2, 14, 1, 15]

/-- Read `count` numbers of three bits. -/
def readTriples : (count : Nat) → Step (List Nat)
  | 0 => return []
  | count + 1 => do
    let n ← readBits 3
    return n :: (← readTriples count)

/-- Read `count` lengths in the code of lengths; those read come last first. -/
def readLengths (code : Code) (count : Nat) (read : List Nat) : (fuel : Nat) → Step (List Nat)
  | 0 => throw .corrupt
  | fuel + 1 => do
    if read.length ≥ count then
      if read.length > count then throw .corrupt
      return read.reverse
    let symbol ← code.read
    if symbol < 16 then readLengths code count (symbol :: read) fuel
    else if symbol = 16 then
      match read with
      | [] => throw .corrupt
      | last :: _ =>
        let times := 3 + (← readBits 2)
        readLengths code count (List.replicate times last ++ read) fuel
    else
      let times ← if symbol = 17 then (3 + ·) <$> readBits 3 else (11 + ·) <$> readBits 7
      readLengths code count (List.replicate times 0 ++ read) fuel

/-- Read a block with a code of its own. -/
def readDynamic (fuel : Nat) : Step Unit := do
  let literalCount := 257 + (← readBits 5)
  let distanceCount := 1 + (← readBits 5)
  let lengthCount := 4 + (← readBits 4)
  if literalCount > 286 || distanceCount > 30 then throw .corrupt
  let triples ← readTriples lengthCount
  let order := lengthOrder.zip triples
  let code ← liftM (Code.ofLengths false ((List.range 19).map fun i => (order.lookup i).getD 0))
  let lengths ← readLengths code (literalCount + distanceCount) [] (literalCount + distanceCount + 1)
  if (lengths[256]?).getD 0 = 0 then throw .corrupt
  let literals ← liftM (Code.ofLengths true (lengths.take literalCount))
  let distances ← liftM (Code.ofLengths true (lengths.drop literalCount))
  readSymbols literals distances fuel

/-- Read a block; says whether it is the last one. -/
def readBlock (fuel : Nat) : Step Bool := do
  let last ← readBit
  match ← readBits 2 with
  | 0 => readStored
  | 1 =>
    let literals ← liftM (Code.ofLengths true fixedLengths)
    let distances ← liftM (Code.ofLengths true (List.replicate 32 5))
    readSymbols literals distances fuel
  | 2 => readDynamic fuel
  | _ => throw .corrupt
  return last = 1

/-- Read blocks up to the last one. -/
def readBlocks (symbols : Nat) : (fuel : Nat) → Step Unit
  | 0 => throw .ended
  | fuel + 1 => do
    if ← readBlock symbols then return
    readBlocks symbols fuel

/-- The inflated data, or none when it means nothing. -/
def inflate (data : ByteArray) : Option ByteArray :=
  let bits := 8 * data.size + 1
  match (readBlocks bits bits).run.run ⟨data, 0, .empty⟩ with
  | (.error .corrupt, _) => none
  | (_, p) => some p.output

end ConfigPack.Inflate
