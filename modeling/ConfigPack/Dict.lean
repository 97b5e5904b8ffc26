/-!
# Dictionaries

A `Dict α` maps texts to values and lists its entries in the order of their keys.  The order is part
of the type, so two dictionaries with the same look-ups are equal and a walk over the entries never
depends on how the dictionary was built.  Texts are compared by code point, which is also the order
of their encoded bytes.
-/

namespace ConfigPack

/-- A finite map from texts to values, its keys strictly increasing. -/
structure Dict (α : Type) where
  /-- The entries in key order. -/
  entries : List (String × α)
  /-- Each key comes before every key behind it. -/
  sorted : entries.Pairwise (fun x y => x.1 < y.1)

namespace Dict

variable {α β : Type}

theorem ext {d e : Dict α} (h : d.entries = e.entries) : d = e := by
  cases d; cases e; cases h; rfl

instance [DecidableEq α] : DecidableEq (Dict α) := fun d e =>
  if h : d.entries = e.entries then .isTrue (ext h) else .isFalse fun he => h (he ▸ rfl)

/-- The dictionary without entries. -/
def empty : Dict α := ⟨[], .nil⟩

instance : Inhabited (Dict α) := ⟨empty⟩
instance : EmptyCollection (Dict α) := ⟨empty⟩

/-- The number of entries. -/
def size (d : Dict α) : Nat := d.entries.length

/-- Whether there is no entry. -/
def isEmpty (d : Dict α) : Bool := d.entries.isEmpty

/-- The keys in order. -/
def keys (d : Dict α) : List String := d.entries.map Prod.fst

/-- The value under a key. -/
def find? (d : Dict α) (key : String) : Option α :=
  (d.entries.find? fun e => e.1 == key).map Prod.snd

/-- Whether a key has a value. -/
def contains (d : Dict α) (key : String) : Bool := (d.find? key).isSome

/-- Put a value under a key into a list in key order. -/
def insertEntry (key : String) (value : α) : List (String × α) → List (String × α)
  | [] => [(key, value)]
  | (k, v) :: rest =>
    if key < k then (key, value) :: (k, v) :: rest
    else if k < key then (k, v) :: insertEntry key value rest
    else (key, value) :: rest

theorem eq_of_not_lt {s t : String} (h : ¬ s < t) (h' : ¬ t < s) : s = t :=
  String.le_antisymm (String.not_lt.1 h') (String.not_lt.1 h)

theorem mem_insertEntry {key : String} {value : α} {e : String × α} :
    ∀ {l : List (String × α)}, e ∈ insertEntry key value l → e = (key, value) ∨ e ∈ l
  | [], h => by simpa [insertEntry] using h
  | (k, v) :: rest, h => by
    unfold insertEntry at h
    split at h
    · simpa using h
    · split at h
      · rcases List.mem_cons.1 h with h | h
        · exact .inr (h ▸ List.mem_cons_self)
        · exact (mem_insertEntry h).imp id (List.mem_cons_of_mem _)
      · rcases List.mem_cons.1 h with h | h
        · exact .inl h
        · exact .inr (List.mem_cons_of_mem _ h)

theorem pairwise_insertEntry (key : String) (value : α) :
    ∀ {l : List (String × α)}, l.Pairwise (fun x y => x.1 < y.1) →
      (insertEntry key value l).Pairwise (fun x y => x.1 < y.1)
  | [], _ => by simp [insertEntry]
  | (k, v) :: rest, h => by
    have ⟨hk, hr⟩ := List.pairwise_cons.1 h
    unfold insertEntry
    split
    next hlt =>
      refine List.pairwise_cons.2 ⟨fun e he => ?_, h⟩
      rcases List.mem_cons.1 he with rfl | he
      · exact hlt
      · exact String.lt_trans hlt (hk e he)
    next hge =>
      split
      next hgt =>
        refine List.pairwise_cons.2 ⟨fun e he => ?_, pairwise_insertEntry key value hr⟩
        rcases mem_insertEntry he with rfl | he
        · exact hgt
        · exact hk e he
      next hle =>
        have : k = key := eq_of_not_lt hle hge
        exact List.pairwise_cons.2 ⟨fun e he => this ▸ hk e he, hr⟩

/-- Put a value under a key, in place of the value there was. -/
def insert (d : Dict α) (key : String) (value : α) : Dict α :=
  ⟨insertEntry key value d.entries, pairwise_insertEntry key value d.sorted⟩

/-- Take the entry of a key away. -/
def erase (d : Dict α) (key : String) : Dict α :=
  ⟨d.entries.filter fun e => e.1 != key, d.sorted.filter _⟩

/-- The dictionary of a list of entries; of two with one key the later counts. -/
def ofList (entries : List (String × α)) : Dict α :=
  entries.foldl (fun d e => d.insert e.1 e.2) empty

/-- The same keys with other values. -/
def map (f : String → α → β) (d : Dict α) : Dict β :=
  ⟨d.entries.map fun e => (e.1, f e.1 e.2), List.pairwise_map.2 d.sorted⟩

/-- Change the values in key order, up to the first failure. -/
def mapEntriesM {ε : Type} (f : String → α → Except ε β) :
    List (String × α) → Except ε (List (String × β))
  | [] => .ok []
  | (k, v) :: rest => do
    let w ← f k v
    let ws ← mapEntriesM f rest
    return (k, w) :: ws

/-- The dictionary of the changed values, or the first failure in key order. -/
def mapM {ε : Type} (f : String → α → Except ε β) (d : Dict α) : Except ε (Dict β) :=
  (mapEntriesM f d.entries).map ofList

end Dict

/-- The texts of a list, each once and in order. -/
def sortedTexts (texts : List String) : List String :=
  (Dict.ofList (texts.map fun t => (t, ()))).keys

end ConfigPack
