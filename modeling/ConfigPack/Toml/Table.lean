import ConfigPack.Json.Basic
import ConfigPack.Toml.Fault

/-!
# Tables of TOML documents

A table is built up line by line.  It is known of each table whether it was only mentioned on the
way to another one, and whether that was in a key with dots: both decide whether the table may be
defined or extended later.
-/

namespace ConfigPack.Toml

/-- What a key of a table stands for. -/
inductive Item where
  /-- A finished value. -/
  | value (value : Json)
  /-- A table; `implicit` when it was only mentioned, `dotted` when that was in a key with dots. -/
  | table (implicit dotted : Bool) (entries : List (String × Item))
  /-- The tables of one header with double brackets. -/
  | tables (elements : List (List (String × Item)))

/-- The entries of a table in order. -/
abbrev Entries := List (String × Item)

/-- Replace the item of a key. -/
def setItem (key : String) (item : Item) : Entries → Entries
  | [] => [(key, item)]
  | (k, i) :: rest => if k = key then (key, item) :: rest else (k, i) :: setItem key item rest

/-- Change the entries of the table at the end of a path; `change` learns whether that table stems
from a key with dots.  Missing tables on the way are created. -/
def changeAt {α : Type} (dotted : Bool) (change : Bool → Entries → Except Fault (Entries × α)) :
    List String → Bool → Entries → Except Fault (Entries × α)
  | [], stems, entries => change stems entries
  | key :: rest, _, entries =>
    match entries.lookup key with
    | none => do
      let (inner, result) ← changeAt dotted change rest dotted []
      return (entries ++ [(key, .table true dotted inner)], result)
    | some (.value _) => .error .notTable
    | some (.tables elements) =>
      match elements.reverse with
      | [] => .error .notTable
      | last :: before => do
        let (inner, result) ← changeAt dotted change rest false last
        return (setItem key (.tables ((inner :: before).reverse)) entries, result)
    | some (.table implicit stems inner) =>
      if dotted && !implicit then .error .duplicate
      else do
        let (inner, result) ← changeAt dotted change rest stems inner
        return (setItem key (.table implicit stems inner) entries, result)

/-- Put a value under a key with dots: `path` leads to the table, `key` is the last part. -/
def putValue (path : List String) (key : String) (value : Json) (entries : Entries) :
    Except Fault Entries := do
  let put (stems : Bool) (inner : Entries) : Except Fault (Entries × Unit) :=
    if stems == path.isEmpty || (inner.lookup key).isSome then .error .duplicate
    else .ok (inner ++ [(key, .value value)], ())
  return (← changeAt true put path false entries).1

/-- Take out the table of a header, as far as it was mentioned before. -/
def openTable (path : List String) (key : String) (entries : Entries) :
    Except Fault (Entries × Entries) :=
  changeAt false (fun _ inner =>
    match inner.lookup key with
    | none => .ok (inner, [])
    | some (.table true false mentioned) => .ok (inner.filter (·.1 ≠ key), mentioned)
    | some _ => .error .duplicate) path false entries

/-- Put the finished table of a header in. -/
def closeTable (path : List String) (key : String) (table entries : Entries) :
    Except Fault Entries := do
  let put (_ : Bool) (inner : Entries) : Except Fault (Entries × Unit) :=
    .ok (inner ++ [(key, .table false false table)], ())
  return (← changeAt false put path false entries).1

/-- Make sure that the key of a header with double brackets stands for tables. -/
def openElement (path : List String) (key : String) (entries : Entries) :
    Except Fault Entries := do
  let mention (_ : Bool) (inner : Entries) : Except Fault (Entries × Unit) :=
    match inner.lookup key with
    | none => .ok (inner ++ [(key, .tables [])], ())
    | some (.tables _) => .ok (inner, ())
    | some _ => .error .duplicate
  return (← changeAt false mention path false entries).1

/-- Append the finished table of a header with double brackets. -/
def closeElement (path : List String) (key : String) (table entries : Entries) :
    Except Fault Entries := do
  let put (_ : Bool) (inner : Entries) : Except Fault (Entries × Unit) :=
    match inner.lookup key with
    | some (.tables elements) => .ok (setItem key (.tables (elements ++ [table])) inner, ())
    | _ => .error .duplicate
  return (← changeAt false put path false entries).1

mutual

/-- The document of an item. -/
def Item.json : Item → Json
  | .value value => value
  | .table _ _ entries => .object (entriesJson entries)
  | .tables elements => .array (elementsJson elements)

/-- The fields of the entries of a table. -/
def entriesJson : List (String × Item) → List (String × Json)
  | [] => []
  | (key, item) :: rest => (key, item.json) :: entriesJson rest

/-- The documents of tables. -/
def elementsJson : List (List (String × Item)) → List Json
  | [] => []
  | entries :: rest => .object (entriesJson entries) :: elementsJson rest

end

end ConfigPack.Toml
