import ConfigPack.Install
import ConfigPack.Proofs.Dict
import ConfigPack.Proofs.FileTree.Canonical

/-!
# Requested fuels

A fuel of a directory is the text of a file inside it.  What is supplied to an environment depends
only on the fuels that its values ask for by name.
-/

namespace ConfigPack

namespace Fuel

/-- A fuel of a directory is the text of a file whose canonical path is inside the directory. -/
lemma ofDirectory_eq_ok {tree : FileTree} {root name content : String} :
    ofDirectory tree root name = .ok content ↔
      name ≠ "" ∧ Path.staysInside name = true ∧ ∃ place top mode,
        tree.canonical (Path.join root name) = .ok place ∧ tree.canonical root = .ok top ∧
        top <+: place ∧ FileTree.placeSize place < FileTree.pathLimit ∧
        tree.node? place = some (.file content.toUTF8 mode) := by
  simp only [ofDirectory]
  split
  next hname =>
    simp only [reduceCtorEq, false_iff, not_and]
    intro hempty hstays
    simp [hempty, hstays] at hname
  next hname =>
    simp only [Bool.or_eq_true, Bool.not_eq_true', not_or, Bool.not_eq_true,
      Bool.not_eq_false, String.isEmpty_eq_false_iff] at hname
    obtain ⟨hempty, hstays⟩ := hname
    constructor
    · intro h
      -- both places are found before they are compared, and the file is read last
      rcases hplace : tree.canonical (Path.join root name) with e | place
      · simp only [hplace] at h
        cases h
      rcases htop : tree.canonical root with e | top
      · simp only [hplace, htop] at h
        cases h
      simp only [hplace, htop] at h
      split at h
      · cases h
      next hinside =>
        split at h
        next text hread =>
          cases h
          obtain ⟨hnear, mode, hnode⟩ := FileTree.readTextFrom_eq_ok.1 hread
          refine ⟨hempty, hstays, place, top, mode, rfl, rfl, ?_, hnear, hnode⟩
          simpa using hinside
        next => cases h
    · rintro ⟨_, _, place, top, mode, hplace, htop, hinside, hnear, hnode⟩
      simp only [hplace, htop, List.isPrefixOf_iff_prefix.2 hinside, Bool.not_true,
        Bool.false_eq_true, ↓reduceIte, FileTree.readTextFrom_eq_ok.2 ⟨hnear, mode, hnode⟩]

variable {source source' : Source}

/-- Only the fuel that a text stands for is looked up. -/
lemma refuel_congr {value : String}
    (h : ∀ name, name? value = some name → source name = source' name) :
    refuel source value = refuel source' value := by
  rw [refuel, refuel]
  split
  next name hname => exact h name hname
  next => rfl

end Fuel

/-- Loops over one dictionary that do the same with each entry. -/
lemma Dict.mapM_congr {α β ε : Type} {f g : String → α → Except ε β} {d : Dict α}
    (h : ∀ e ∈ d.entries, f e.1 e.2 = g e.1 e.2) : d.mapM f = d.mapM g := by
  have hentries : ∀ l : List (String × α), (∀ e ∈ l, f e.1 e.2 = g e.1 e.2) →
      mapEntriesM f l = mapEntriesM g l := by
    intro l
    induction l with
    | nil => exact fun _ => rfl
    | cons e l ih =>
      intro hl
      rw [mapEntriesM, mapEntriesM, hl e List.mem_cons_self,
        ih fun x hx => hl x (List.mem_cons_of_mem _ hx)]
  rw [mapM, mapM, hentries _ h]

namespace Install

open Fuel

/-- The names of the fuels that an environment asks for. -/
def requested (environment : Environment) : List String :=
  (environment.tokens.entries.map Prod.snd).filterMap name? ++
    (environment.builders.entries.map fun e => e.2.content).filterMap name?

/-- Sources that agree on what is asked for supply the same fuels. -/
lemma fueled_congr {source source' : Source} {environment : Environment}
    (h : ∀ name ∈ requested environment, source name = source' name) :
    fueled source environment = fueled source' environment := by
  have htokens : supply source environment.tokens = supply source' environment.tokens := by
    apply Dict.mapM_congr
    intro e he
    apply refuel_congr
    intro name hname
    exact h name (List.mem_append_left _
      (List.mem_filterMap.2 ⟨e.2, List.mem_map_of_mem he, hname⟩))
  have hbuilders :
      supplyBuilders source environment.builders = supplyBuilders source' environment.builders := by
    apply Dict.mapM_congr
    intro e he
    have hcontent : refuel source e.2.content = refuel source' e.2.content := by
      apply refuel_congr
      intro name hname
      exact h name (List.mem_append_right _
        (List.mem_filterMap.2 ⟨e.2.content, List.mem_map.2 ⟨e, he, rfl⟩, hname⟩))
    rw [hcontent]
  rw [fueled, fueled, htokens, hbuilders]

/-- Where fuels are supplied, every one that is asked for is there. -/
lemma exists_of_fueled {source : Source} {environment supplied : Environment}
    (h : fueled source environment = .ok supplied) {name : String}
    (hname : name ∈ requested environment) : ∃ content, source name = .ok content := by
  obtain ⟨tokens, htokens, h⟩ := Result.bind_eq_ok.1 h
  obtain ⟨builders, hbuilders, _⟩ := Result.bind_eq_ok.1 h
  rcases List.mem_append.1 hname with hname | hname
  · obtain ⟨value, hvalue, hasked⟩ := List.mem_filterMap.1 hname
    obtain ⟨e, he, rfl⟩ := List.mem_map.1 hvalue
    obtain ⟨content, hcontent, _⟩ := Dict.exists_of_mapM htokens he
    rw [refuel, hasked] at hcontent
    exact ⟨content, hcontent⟩
  · obtain ⟨value, hvalue, hasked⟩ := List.mem_filterMap.1 hname
    obtain ⟨e, he, rfl⟩ := List.mem_map.1 hvalue
    obtain ⟨_, hfile, _⟩ := Dict.exists_of_mapM hbuilders he
    obtain ⟨content, hcontent, _⟩ := Result.bind_eq_ok.1 hfile
    rw [refuel, hasked] at hcontent
    exact ⟨content, hcontent⟩

end Install

end ConfigPack
