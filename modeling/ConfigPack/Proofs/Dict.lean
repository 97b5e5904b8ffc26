import ConfigPack.Dict
import ConfigPack.Proofs.Result
import Mathlib.Data.List.Induction
import Mathlib.Data.List.Sort

/-!
# Entries of dictionaries

A dictionary is known from its entries: each key has one value, and an insertion adds an entry and
takes away only the one with the same key (`mem_insert`).
-/

namespace ConfigPack

namespace Dict

variable {α β : Type} {d d' : Dict α} {key : String} {value : α}

/-- To insert an entry replaces those of its key. -/
lemma mem_insertEntry_iff {e : String × α} :
    ∀ {l : List (String × α)}, l.Pairwise (fun x y => x.1 < y.1) →
      (e ∈ insertEntry key value l ↔ e = (key, value) ∨ e ∈ l ∧ e.1 ≠ key)
  | [], _ => by simp [insertEntry]
  | (k, v) :: rest, h => by
    obtain ⟨hk, hrest⟩ := List.pairwise_cons.1 h
    -- keys are in order, so behind a key that is not smaller the key does not come up
    have hbehind : ∀ x ∈ rest, ¬ k < key → x.1 ≠ key := by
      rintro x hx hle rfl
      exact hle (hk x hx)
    unfold insertEntry
    split
    next hlt =>
      have hne : ∀ x ∈ (k, v) :: rest, x.1 ≠ key := by
        intro x hx he
        rcases List.mem_cons.1 hx with rfl | hx
        · exact String.lt_irrefl _ (he ▸ hlt)
        · exact String.lt_irrefl _ (String.lt_trans (he ▸ hlt) (hk x hx))
      rw [List.mem_cons]
      exact or_congr_right ⟨fun he => ⟨he, hne e he⟩, And.left⟩
    next hge =>
      split
      next hgt =>
        have hne : k ≠ key := fun he => String.lt_irrefl _ (he ▸ hgt)
        rw [List.mem_cons, mem_insertEntry_iff hrest, List.mem_cons]
        constructor
        · rintro (rfl | h | h)
          · exact .inr ⟨.inl rfl, hne⟩
          · exact .inl h
          · exact .inr ⟨.inr h.1, h.2⟩
        · rintro (h | ⟨rfl | h, hkey⟩)
          · exact .inr (.inl h)
          · exact .inl rfl
          · exact .inr (.inr ⟨h, hkey⟩)
      next hle =>
        have hsame : k = key := eq_of_not_lt hle hge
        rw [List.mem_cons, List.mem_cons]
        constructor
        · rintro (h | h)
          · exact .inl h
          · exact .inr ⟨.inr h, hbehind e h hle⟩
        · rintro (h | ⟨rfl | h, hkey⟩)
          · exact .inl h
          · exact absurd hsame hkey
          · exact .inr h

/-- The entries after an insertion. -/
lemma mem_insert {e : String × α} :
    e ∈ (d.insert key value).entries ↔ e = (key, value) ∨ e ∈ d.entries ∧ e.1 ≠ key :=
  mem_insertEntry_iff d.sorted

/-- A key is one of some entry. -/
lemma mem_keys {name : String} : name ∈ d.keys ↔ ∃ value, (name, value) ∈ d.entries := by
  simp [keys]

/-- An insertion adds one key. -/
lemma mem_keys_insert {name : String} :
    name ∈ (d.insert key value).keys ↔ name = key ∨ name ∈ d.keys := by
  simp only [mem_keys, mem_insert, Prod.mk.injEq]
  constructor
  · rintro ⟨v, ⟨h, _⟩ | ⟨h, _⟩⟩
    · exact .inl h
    · exact .inr ⟨v, h⟩
  · rintro (rfl | ⟨v, h⟩)
    · exact ⟨value, .inl ⟨rfl, rfl⟩⟩
    · by_cases hname : name = key
      · exact ⟨value, .inl ⟨hname, rfl⟩⟩
      · exact ⟨v, .inr ⟨h, hname⟩⟩

/-- No two entries have one key. -/
lemma nodup_keys (d : Dict α) : (d.entries.map Prod.fst).Nodup := by
  refine List.pairwise_map.2 (d.sorted.imp ?_)
  intro x y hlt he
  exact String.lt_irrefl _ (he ▸ hlt)

/-- A key has one value. -/
lemma eq_of_mem {v v' : α} (h : (key, v) ∈ d.entries) (h' : (key, v') ∈ d.entries) : v = v' := by
  have hsame := List.inj_on_of_nodup_map d.nodup_keys h h' rfl
  injection hsame

/-- Dictionaries with the same entries are equal. -/
lemma ext_mem (h : ∀ e, e ∈ d.entries ↔ e ∈ d'.entries) : d = d' := by
  have : Std.Irrefl fun x y : String × α => x.1 < y.1 := ⟨fun x => String.lt_irrefl x.1⟩
  have : Std.Antisymm fun x y : String × α => x.1 < y.1 :=
    ⟨fun x y hxy hyx => absurd (String.lt_trans hxy hyx) (String.lt_irrefl x.1)⟩
  exact ext (d.sorted.eq_of_mem_iff d'.sorted h)

/-- A dictionary contains its keys. -/
lemma contains_iff : d.contains key = true ↔ key ∈ d.keys := by
  simp [contains, find?, keys]

/-- Entries with different keys are all taken. -/
lemma mem_foldl_insert {e : String × α} :
    ∀ {l : List (String × α)} {start : Dict α}, (l.map Prod.fst).Nodup →
      (e ∈ (l.foldl (fun d e => d.insert e.1 e.2) start).entries ↔
        e ∈ l ∨ e ∈ start.entries ∧ e.1 ∉ l.map Prod.fst)
  | [], start, _ => by simp
  | (k, v) :: rest, start, hnodup => by
    obtain ⟨hk, hrest⟩ := List.nodup_cons.1 hnodup
    rw [List.foldl_cons, mem_foldl_insert hrest, mem_insert, List.mem_cons, List.map_cons,
      List.mem_cons]
    constructor
    · rintro (h | ⟨h | ⟨h, hne⟩, hnot⟩)
      · exact .inl (.inr h)
      · exact .inl (.inl h)
      · exact .inr ⟨h, fun hor => hor.elim hne hnot⟩
    · rintro ((h | h) | ⟨h, hnot⟩)
      · exact .inr ⟨.inl h, h ▸ hk⟩
      · exact .inl h
      · exact .inr ⟨.inr ⟨h, fun he => hnot (.inl he)⟩, fun he => hnot (.inr he)⟩

/-- Insertions one after the other add all of their keys. -/
lemma mem_keys_foldl_insert {name : String} :
    ∀ {l : List (String × α)} {start : Dict α},
      name ∈ (l.foldl (fun d e => d.insert e.1 e.2) start).keys ↔
        name ∈ l.map Prod.fst ∨ name ∈ start.keys
  | [], start => by simp
  | (k, v) :: rest, start => by
    rw [List.foldl_cons, mem_keys_foldl_insert, mem_keys_insert, List.map_cons, List.mem_cons]
    tauto

/-- What is found is an entry. -/
lemma mem_entries_of_find? (h : d.find? key = some value) : (key, value) ∈ d.entries := by
  obtain ⟨e, he, rfl⟩ := Option.map_eq_some_iff.1 h
  have hkey : e.1 = key := by simpa using List.find?_some he
  exact hkey ▸ List.mem_of_find?_eq_some he

/-- Each entry is found by its key. -/
lemma find?_eq_some_iff : d.find? key = some value ↔ (key, value) ∈ d.entries := by
  refine ⟨mem_entries_of_find?, fun h => ?_⟩
  have hkey : d.contains key = true := contains_iff.2 (mem_keys.2 ⟨value, h⟩)
  obtain ⟨found, hfound⟩ := Option.isSome_iff_exists.1 hkey
  rw [hfound, eq_of_mem (mem_entries_of_find? hfound) h]

/-- Nothing is found for other keys. -/
lemma find?_eq_none_iff : d.find? key = none ↔ key ∉ d.keys := by
  rw [← contains_iff, contains, Bool.not_eq_true, Option.isSome_eq_false_iff,
    Option.isNone_iff_eq_none]

/-- A key with a value is contained. -/
lemma contains_of_find? (h : d.find? key = some value) : d.contains key = true := by
  rw [contains, h, Option.isSome_some]

/-- After an insertion its key has the new value, and all others have theirs. -/
lemma find?_insert (d : Dict α) (key : String) (value : α) (name : String) :
    (d.insert key value).find? name = if name = key then some value else d.find? name := by
  apply Option.ext
  intro v
  rw [find?_eq_some_iff, mem_insert, Prod.mk.injEq]
  split
  next hname => simp [hname, eq_comm]
  next hname => simp [hname, find?_eq_some_iff]

/-- It contains one key more. -/
lemma contains_insert {name : String} :
    (d.insert key value).contains name = true ↔ name = key ∨ d.contains name = true := by
  rw [contains_iff, contains_iff, mem_keys_insert]

/-- After a removal one key has no value, and all others have theirs. -/
lemma find?_erase (d : Dict α) (key name : String) :
    (d.erase key).find? name = if name = key then none else d.find? name := by
  apply Option.ext
  intro v
  rw [find?_eq_some_iff, erase, List.mem_filter, bne_iff_ne]
  split
  next hname => simp [hname]
  next hname => simp [hname, find?_eq_some_iff]

/-- A removal makes no dictionary larger. -/
lemma size_erase_le (d : Dict α) (key : String) : (d.erase key).size ≤ d.size :=
  List.length_filter_le _ _

/-- Of the values under one key in a list, the last is taken. -/
lemma find?_ofList (l : List (String × α)) (name : String) :
    (ofList l).find? name = l.reverse.lookup name := by
  induction l using List.reverseRecOn with
  | nil => rfl
  | append_singleton l e ih =>
    have hlast : ofList (l ++ [e]) = (ofList l).insert e.1 e.2 := by
      rw [ofList, List.foldl_append]
      rfl
    rw [hlast, find?_insert, ih, List.reverse_append, List.reverse_singleton, List.singleton_append,
      List.lookup_cons]
    split
    next h => rw [h, beq_self_eq_true]
    next h => rw [beq_eq_false_iff_ne.2 h]

/-- Dictionaries with the same look-ups are equal. -/
lemma ext_find? (h : ∀ name, d.find? name = d'.find? name) : d = d' := by
  apply ext_mem
  intro e
  rw [← find?_eq_some_iff, ← find?_eq_some_iff, h]

/-- Of two values put under one key the later counts. -/
lemma insert_insert (d : Dict α) (key : String) (v w : α) :
    (d.insert key v).insert key w = d.insert key w := by
  refine ext_find? fun name => ?_
  rw [find?_insert, find?_insert, find?_insert]
  split <;> rfl

/-- Changing the values of entries keeps the keys and leaves the changed values. -/
lemma mapEntriesM_eq_ok {ε : Type} {f : String → α → Except ε β} :
    ∀ {l : List (String × α)} {changed : List (String × β)}, mapEntriesM f l = .ok changed →
      changed.map Prod.fst = l.map Prod.fst ∧
        ∀ e, e ∈ changed ↔ ∃ value, (e.1, value) ∈ l ∧ f e.1 value = .ok e.2
  | [], changed, h => by
    cases h
    simp
  | first :: l, changed, h => by
    obtain ⟨v, hv, h⟩ := Result.bind_eq_ok.1 h
    obtain ⟨rest, hrest, h⟩ := Result.bind_eq_ok.1 h
    cases h
    obtain ⟨hkeys, hmem⟩ := mapEntriesM_eq_ok hrest
    refine ⟨by rw [List.map_cons, List.map_cons, hkeys], fun e => ?_⟩
    rw [List.mem_cons, hmem]
    constructor
    · rintro (rfl | ⟨value, he, hvalue⟩)
      · exact ⟨first.2, List.mem_cons_self, hv⟩
      · exact ⟨value, List.mem_cons_of_mem _ he, hvalue⟩
    · rintro ⟨value, he, hvalue⟩
      rcases List.mem_cons.1 he with rfl | he
      · rw [hv] at hvalue
        cases hvalue
        exact .inl rfl
      · exact .inr ⟨value, he, hvalue⟩

/-- The entries of a changed dictionary are the changed entries. -/
lemma mem_mapM {ε : Type} {f : String → α → Except ε β} {results : Dict β}
    (h : d.mapM f = .ok results) {e : String × β} :
    e ∈ results.entries ↔ ∃ value, (e.1, value) ∈ d.entries ∧ f e.1 value = .ok e.2 := by
  obtain ⟨changed, hchanged, rfl⟩ := Result.map_eq_ok.1 h
  obtain ⟨hkeys, hmem⟩ := mapEntriesM_eq_ok hchanged
  rw [ofList, mem_foldl_insert (hkeys ▸ d.nodup_keys), ← hmem]
  simp [empty]

/-- When a dictionary can be changed, each of its entries can. -/
lemma exists_of_mapM {ε : Type} {f : String → α → Except ε β} {results : Dict β}
    (h : d.mapM f = .ok results) (hmem : (key, value) ∈ d.entries) :
    ∃ changed, f key value = .ok changed ∧ (key, changed) ∈ results.entries := by
  obtain ⟨l, hl, rfl⟩ := Result.map_eq_ok.1 h
  obtain ⟨hkeys, hchanged⟩ := mapEntriesM_eq_ok hl
  have hkey : key ∈ l.map Prod.fst := hkeys ▸ List.mem_map_of_mem hmem
  obtain ⟨⟨_, changed⟩, he, rfl⟩ := List.mem_map.1 hkey
  obtain ⟨value', hvalue, hf⟩ := (hchanged _).1 he
  cases eq_of_mem hmem hvalue
  exact ⟨changed, hf, (mem_mapM h).2 ⟨value, hmem, hf⟩⟩

/-- A loop that puts a value under a key for each item, keys of different items being different. -/
lemma mem_foldlM_insert {ι ε : Type} {key : ι → String} {value : ι → Except ε α} :
    ∀ {items : List ι} {start : Dict α}, (∀ a ∈ items, ∀ b ∈ items, key a = key b → a = b) →
      items.foldlM (fun d a => (value a).map (d.insert (key a))) start = .ok d →
      (∀ a ∈ items, ∃ v, value a = .ok v) ∧
        ∀ e, e ∈ d.entries ↔ (∃ a ∈ items, value a = .ok e.2 ∧ e.1 = key a) ∨
          e ∈ start.entries ∧ ∀ a ∈ items, e.1 ≠ key a
  | [], start, _, h => by
    cases h
    simp
  | a :: items, start, hkey, h => by
    rw [List.foldlM_cons] at h
    obtain ⟨next, hnext, h⟩ := Result.bind_eq_ok.1 h
    obtain ⟨v, hv, rfl⟩ := Result.map_eq_ok.1 hnext
    -- the later items decide over an entry of theirs, whatever this one inserts
    obtain ⟨hvalues, hentries⟩ := mem_foldlM_insert
      (fun b hb c hc => hkey b (List.mem_cons_of_mem _ hb) c (List.mem_cons_of_mem _ hc)) h
    refine ⟨?_, fun e => ?_⟩
    · intro b hb
      rcases List.mem_cons.1 hb with rfl | hb
      · exact ⟨v, hv⟩
      · exact hvalues b hb
    rw [hentries, mem_insert]
    constructor
    · rintro (⟨b, hb, hvalue, hname⟩ | ⟨rfl | ⟨he, hne⟩, hrest⟩)
      · exact .inl ⟨b, List.mem_cons_of_mem _ hb, hvalue, hname⟩
      · exact .inl ⟨a, List.mem_cons_self, hv, rfl⟩
      · refine .inr ⟨he, fun b hb => ?_⟩
        rcases List.mem_cons.1 hb with rfl | hb
        · exact hne
        · exact hrest b hb
    · rintro (⟨b, hb, hvalue, hname⟩ | ⟨he, hne⟩)
      · -- a later item with the same key is the same item
        by_cases hlater : ∃ c ∈ items, e.1 = key c
        · obtain ⟨c, hc, hname'⟩ := hlater
          rw [hkey c (List.mem_cons_of_mem _ hc) b hb (hname'.symm.trans hname)] at hc
          exact .inl ⟨b, hc, hvalue, hname⟩
        · refine .inr ⟨.inl ?_, fun c hc hname' => hlater ⟨c, hc, hname'⟩⟩
          rcases List.mem_cons.1 hb with rfl | hb
          · rw [hv] at hvalue
            cases hvalue
            exact Prod.ext hname rfl
          · exact absurd ⟨b, hb, hname⟩ hlater
      · exact .inr ⟨.inr ⟨he, hne a List.mem_cons_self⟩,
          fun b hb => hne b (List.mem_cons_of_mem _ hb)⟩

end Dict

/-- Sorting keeps all texts. -/
lemma mem_sortedTexts {text : String} {texts : List String} :
    text ∈ sortedTexts texts ↔ text ∈ texts := by
  rw [sortedTexts, Dict.ofList, Dict.mem_keys_foldl_insert]
  simp [Dict.keys, Dict.empty]

end ConfigPack
