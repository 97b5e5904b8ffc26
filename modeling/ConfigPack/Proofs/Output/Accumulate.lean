import ConfigPack.Proofs.FileTree.Again
import ConfigPack.Proofs.Json.Roundtrip
import ConfigPack.Proofs.Output.Settled

/-!
# Documents written one after the other

Documents that are written to one path accumulate there: the file holds the first of them with the
others merged into it (`writes_accumulate`).  Each write reads the document that the one before it
printed, so printing and reading meet at every step.
-/

namespace ConfigPack

variable {σ : Type}

namespace Json

/-- Documents merged from left to right into the first of them. -/
def mergedAll : List Json → Option Json
  | [] => none
  | first :: rest => some (rest.foldl merge first)

end Json

/-- A text holds a document, all of its numbers whole. -/
structure HoldsWhole (item : String × Json) : Prop where
  parses : Json.parse item.1 = .ok item.2
  whole : item.2.isWhole = true

/-- A text holds a document that is read back as it is printed. -/
structure IsSound (item : String × Json) : Prop where
  parses : Json.parse item.1 = .ok item.2
  within : item.2.Within (fun n => n.InRange ∧ ∃ i, n = .int i) 127

/-- A document that is held whole is sound. -/
lemma HoldsWhole.isSound {item : String × Json} (h : HoldsWhole item) : IsSound item :=
  ⟨h.parses, (Json.parse_within h.parses).whole h.whole⟩

namespace FileTree

/-- The files that a path leads to when its content is replaced again and again, the directory above
it being made before. -/
inductive Rewritten (path : String) (tree : FileTree) : FileTree → Prop
  | start : Rewritten path tree tree
  | again {before after : FileTree} {chance : WriteChance} {data : ByteArray} :
    Rewritten path tree before → (before.readied path).replace chance path data = (after, .ok ()) →
    Rewritten path tree after

/-- However often the content of a path is replaced, what took its place is what is read. -/
def ReadsWritten (tree : FileTree) (path : String) : Prop :=
  ∀ ⦃before after : FileTree⦄ ⦃chance : WriteChance⦄ ⦃data : ByteArray⦄,
    Rewritten path tree before → (before.readied path).replace chance path data = (after, .ok ()) →
    after.read path = .ok data

variable {tree tree' : FileTree} {path : String} {chance : WriteChance} {data : ByteArray}

/-- What is rewritten twice is rewritten. -/
lemma Rewritten.trans {t u : FileTree} (h : Rewritten path tree t) (h' : Rewritten path t u) :
    Rewritten path tree u := by
  induction h' with
  | start => exact h
  | again _ hreplace ih => exact .again ih hreplace

/-- What is written is read again after another write. -/
lemma ReadsWritten.again (h : tree.ReadsWritten path)
    (hreplace : (tree.readied path).replace chance path data = (tree', .ok ())) :
    tree'.ReadsWritten path :=
  fun _ _ _ _ hbefore => h ((Rewritten.again .start hreplace).trans hbefore)

/-- Directories above a path are no links. -/
lemma LinkFree.readied (h : tree.LinkFree []) : (tree.readied path).LinkFree [] :=
  (Output.readied_grows tree path).sameLinks.linkFree h

/-- Replacing a file makes no links. -/
lemma Rewritten.linkFree (h : Rewritten path tree tree') (hfree : tree.LinkFree []) :
    tree'.LinkFree [] := by
  induction h with
  | start => exact hfree
  | again _ hreplace ih =>
    obtain ⟨directory, name, mode, _, _, _, _, rfl⟩ := replace_ok hreplace
    have hready : (FileTree.readied _ path).LinkFree [] := ih.readied
    refine (SameLinks.set_file (by simp) (fun target => ?_) _ mode).linkFree hready
    exact hready _ target List.nil_prefix

/-- Where there are no links, what was written is read. -/
lemma readsWritten_of_linkFree (h : tree.LinkFree []) (path : String) : tree.ReadsWritten path :=
  fun _ _ _ _ hbefore hreplace => read_of_replace hreplace (hbefore.linkFree h).readied

end FileTree

namespace Output

variable {α β : Type} {mode : MergeMode} {path : String} {w : World σ}

/-- Write texts to a path one after the other. -/
def writeEach (mode : MergeMode) (path : String) (texts : List String) :
    Work σ OutputError (List Written) :=
  texts.mapM fun text => write ⟨mode, false⟩ [] path text.toUTF8

/-! ## One write -/

/-- A text that holds a document is not blank. -/
lemma isBlank_of_parse {text : String} {document : Json} (h : Json.parse text = .ok document) :
    isBlank text.toUTF8 = false := by
  rw [← Bool.not_eq_true]
  intro hblank
  have hbytes : ∀ b ∈ text.toUTF8.data.toList, b = 32 ∨ b = 9 ∨ b = 10 ∨ b = 12 ∨ b = 13 := by
    intro b hb
    have hall := Array.all_eq_true_iff_forall_mem.1 hblank b (Array.mem_toList_iff.1 hb)
    simpa [isBlankByte, or_assoc] using hall
  have hchars := Utf8.toList_of_ascii fun b hb => by
    rcases hbytes b hb with rfl | rfl | rfl | rfl | rfl <;> decide
  refine Json.parse_blank (fun c hc => ?_) document h
  rw [hchars] at hc
  obtain ⟨b, hb, rfl⟩ := List.mem_map.1 hc
  rcases hbytes b hb with rfl | rfl | rfl | rfl | rfl <;> decide

/-- A document with its text, after it was merged into what is held. -/
def mergedInto (held : Option (String × Json)) (item : String × Json) : String × Json :=
  match held with
  | none => item
  | some (_, old) => ((old.merge item.2).indented ++ "\n", old.merge item.2)

/-- Sound documents are merged to a sound one. -/
lemma isSound_mergedInto {held : Option (String × Json)} {item : String × Json}
    (hheld : ∀ h ∈ held, IsSound h) (hitem : IsSound item) : IsSound (mergedInto held item) := by
  cases held with
  | none => exact hitem
  | some old =>
    have hmerged := hitem.within.merge (hheld old rfl).within
    exact ⟨Json.parse_indented hmerged, hmerged⟩

/-- What a document is merged with is what is held. -/
lemma mergeBase_held (hmode : mode = .deep ∨ mode = .concat) (hkind : MergeKind.ofPath path = .json)
    {tree : FileTree} {held : Option (String × Json)} (hheld : ∀ h ∈ held, IsSound h)
    (hread : readExisting tree path = .ok (held.map fun h => h.1.toUTF8)) (data : ByteArray) :
    mergeBase tree (Draft.start mode path data) = .ok (held.map fun h => h.1.toUTF8) := by
  have hadmits : mode.admits (MergeKind.ofPath path) = true := by
    rw [hkind]
    rcases hmode with rfl | rfl <;> rfl
  rw [mergeBase_start mode data hread, if_pos hadmits]
  cases held with
  | none => rfl
  | some old =>
    have hblank := isBlank_of_parse (hheld old rfl).parses
    rw [Option.map_some, Option.filter_some, hblank, Bool.and_false, Bool.not_false, if_pos rfl]

/-- Two documents settle on the text of the second one merged into the first. -/
lemma settled_json {draft : Draft} {old new : String} {a b : Json} (hkind : draft.kind = .json)
    (hresult : draft.result = none) (hdata : draft.data = new.toUTF8)
    (hold : Json.parse old = .ok a) (hnew : Json.parse new = .ok b) :
    ∃ draft', settled draft (some old.toUTF8) =
      .ok (draft', ((a.merge b).indented ++ "\n").toUTF8, .merged) := by
  have hjson : Pair.readJson draft.path old new = .ok (.json a b) :=
    Result.bind_eq_ok.2 ⟨a, Result.mapError_eq_ok.2 hold,
      Result.bind_eq_ok.2 ⟨b, Result.mapError_eq_ok.2 hnew, rfl⟩⟩
  have hpair : { draft with existing := some old.toUTF8 }.readPair = .ok (.json a b) := by
    refine Result.bind_eq_ok.2 ⟨new, Result.mapError_eq_ok.2 (Utf8.decode_eq_ok.2 hdata), ?_⟩
    refine Result.bind_eq_ok.2 ⟨old, Result.mapError_eq_ok.2 (Utf8.decode_eq_ok.2 rfl), ?_⟩
    simp only [hkind]
    exact hjson
  refine ⟨{ draft with existing := some old.toUTF8, pair := some (.json a b) }, ?_⟩
  refine Result.bind_eq_ok.2 ⟨_, ?_, Result.bind_eq_ok.2 ⟨_, ?_, rfl⟩⟩
  · simp only [Draft.opened, hkind, MergeKind.isStructured, ↓reduceIte]
    simp only [hkind] at hpair
    exact Result.bind_eq_ok.2 ⟨_, hpair, rfl⟩
  · simp only [Draft.merged, hresult, hkind]
    rfl

/-- A document settles on its text, merged into what is held. -/
lemma settled_held (hkind : MergeKind.ofPath path = .json) {held : Option (String × Json)}
    (hheld : ∀ h ∈ held, IsSound h) {item : String × Json} (hitem : IsSound item) :
    ∃ draft outcome, settled (Draft.start mode path item.1.toUTF8)
      (held.map fun h => h.1.toUTF8) = .ok (draft, (mergedInto held item).1.toUTF8, outcome) := by
  cases held with
  | none => exact ⟨_, .written, rfl⟩
  | some old =>
    obtain ⟨draft, hsettled⟩ : ∃ draft,
        settled (Draft.start mode path item.1.toUTF8) (some old.1.toUTF8) = _ :=
      settled_json hkind rfl rfl (hheld old rfl).parses hitem.parses
    exact ⟨draft, .merged, hsettled⟩

/-- What is held at a path once the directory above it is there: nothing, or a document that is read
back. -/
structure Holds (tree : FileTree) (path : String) (held : Option (String × Json)) : Prop where
  files : tree.ReadsWritten path
  read : readExisting (tree.readied path) path = .ok (held.map fun h => h.1.toUTF8)
  sound : ∀ h ∈ held, IsSound h

/-- A computation succeeds and leaves files with a property, or the file system refuses it. -/
def Achieves (P : FileTree → Prop) (w : World σ) (action : Work σ OutputError α) : Prop :=
  ∀ ⦃result w'⦄, action.exec w = (result, w') →
    (∃ above io, result = .error (.io above io)) ∨ (∃ a, result = .ok a) ∧ P w'.tree

/-- What holds is achieved by doing nothing. -/
lemma Achieves.pure {P : FileTree → Prop} (h : P w.tree) (a : α) :
    Achieves P w (Pure.pure a : Work σ OutputError α) := by
  intro result w' hrun
  cases hrun
  exact .inr ⟨⟨a, rfl⟩, h⟩

/-- A sequence achieves what its second step does after the first one. -/
lemma Achieves.bind {P Q : FileTree → Prop} {action : Work σ OutputError β}
    {next : β → Work σ OutputError α} (h : Achieves Q w action)
    (hnext : ∀ b w', Q w'.tree → Achieves P w' (next b)) : Achieves P w (action >>= next) := by
  intro result w' hrun
  rcases Work.exec_bind_cases hrun with ⟨e, hfirst, rfl⟩ | ⟨b, w₁, hfirst, hlast⟩
  · rcases h hfirst with ⟨above, io, he⟩ | ⟨⟨_, hok⟩, _⟩
    · cases he
      exact .inl ⟨above, io, rfl⟩
    · cases hok
  · rcases h hfirst with ⟨_, _, he⟩ | ⟨_, hq⟩
    · cases he
    · exact hnext b w₁ hq hlast

/-- A document that is written is merged into what is held. -/
lemma write_achieves (hmode : mode = .deep ∨ mode = .concat) (hkind : MergeKind.ofPath path = .json)
    {held : Option (String × Json)} (hheld : Holds w.tree path held) {item : String × Json}
    (hitem : IsSound item) :
    Achieves (fun tree => Holds tree path (some (mergedInto held item)) ∧
      tree.read path = .ok (mergedInto held item).1.toUTF8) w
      (write ⟨mode, false⟩ [] path item.1.toUTF8) := by
  intro result w' h
  have hbase := mergeBase_held hmode hkind hheld.sound hheld.read item.1.toUTF8
  obtain ⟨draft, outcome, hsettled⟩ : ∃ draft outcome, settled
      (Draft.start mode path item.1.toUTF8) (held.map fun h => h.1.toUTF8) =
        .ok (draft, (mergedInto held item).1.toUTF8, outcome) :=
    settled_held hkind hheld.sound hitem
  -- by the way the write ends; what is held is read back, so it cannot end unsettled
  cases write_ends h with
  | refused => exact .inl ⟨_, _, rfl⟩
  | unsettled hbase' hsettled' =>
    rw [hbase] at hbase'
    cases hbase'
    rw [hsettled] at hsettled'
    cases hsettled'
  | replaced hbase' hsettled' hreplace =>
    rw [hbase] at hbase'
    cases hbase'
    rw [hsettled] at hsettled'
    cases hsettled'
    have hread := hheld.files .start hreplace
    refine .inr ⟨⟨_, rfl⟩, ⟨hheld.files.again hreplace, ?_, ?_⟩, hread⟩
    · rw [readExisting, (readied_grows w'.tree path).read hread]
      rfl
    · rintro _ ⟨⟩
      exact isSound_mergedInto hheld.sound hitem

/-! ## All writes -/

/-- What is held after documents were written one after the other. -/
def heldAfter (held : Option (String × Json)) (items : List (String × Json)) :
    Option (String × Json) :=
  items.foldl (fun held item => some (mergedInto held item)) held

/-- The last document is merged into what the others left. -/
lemma heldAfter_concat (held : Option (String × Json)) (items : List (String × Json))
    (item : String × Json) :
    heldAfter held (items ++ [item]) = some (mergedInto (heldAfter held items) item) := by
  rw [heldAfter, List.foldl_append]
  rfl

/-- Nothing is held only when nothing was and nothing was written. -/
lemma heldAfter_eq_none {first : Option (String × Json)} {items : List (String × Json)} :
    heldAfter first items = none ↔ first = none ∧ items = [] := by
  rcases List.eq_nil_or_concat' items with rfl | ⟨front, last, rfl⟩
  · rw [heldAfter, List.foldl_nil, and_iff_left rfl]
  · simp [heldAfter_concat]

/-- The text that is held is the printed document, unless nothing was merged yet. -/
lemma heldAfter_text {first : Option (String × Json)} {items : List (String × Json)}
    {held : String × Json} (h : heldAfter first items = some held) :
    held.1 = held.2.indented ++ "\n" ∨ first.toList ++ items = [held] := by
  rcases List.eq_nil_or_concat' items with rfl | ⟨front, last, rfl⟩
  · cases (h : first = some held)
    exact .inr rfl
  · rw [heldAfter_concat] at h
    cases h
    cases hfront : heldAfter first front with
    | some held => exact .inl rfl
    | none =>
      obtain ⟨rfl, rfl⟩ := heldAfter_eq_none.1 hfront
      exact .inr rfl

/-- The document that is held is the fold of all that were merged. -/
lemma heldAfter_documents (first : Option (String × Json)) (items : List (String × Json)) :
    (heldAfter first items).map Prod.snd =
      Json.mergedAll ((first.toList ++ items).map Prod.snd) := by
  have hsome : ∀ (items : List (String × Json)) (held : String × Json),
      (heldAfter (some held) items).map Prod.snd =
        some ((items.map Prod.snd).foldl Json.merge held.2) := by
    intro items
    induction items with
    | nil => exact fun _ => rfl
    | cons item items ih => exact fun held => ih _
  cases first with
  | some held => exact hsome items held
  | none =>
    cases items with
    | nil => rfl
    | cons item items => exact hsome items item

/-- Documents that are written one after the other are all merged into what is held, and the last
text is what is read. -/
lemma writeEach_achieves (hmode : mode = .deep ∨ mode = .concat)
    (hkind : MergeKind.ofPath path = .json) {first : Option (String × Json)}
    (hfirst : Holds w.tree path first) {items : List (String × Json)}
    (hitems : ∀ item ∈ items, IsSound item) :
    Achieves (fun tree => Holds tree path (heldAfter first items) ∧
      (items ≠ [] → ∀ held ∈ heldAfter first items, tree.read path = .ok held.1.toUTF8)) w
      (writeEach mode path (items.map Prod.fst)) := by
  -- the last document is merged into what all before it left
  induction items using List.reverseRecOn with
  | nil => exact .pure ⟨hfirst, fun h => absurd rfl h⟩ []
  | append_singleton front last ih =>
    obtain ⟨hfront, hlast⟩ := List.forall_mem_append.1 hitems
    rw [writeEach, List.map_append, List.mapM_append, heldAfter_concat]
    refine (ih hfront).bind fun _ w' hheld => .bind ?_ fun _ _ h => .pure h _
    refine (write_achieves hmode hkind hheld.1 (hlast last List.mem_cons_self)).bind
      fun _ _ h => .pure ⟨h.1, fun _ held hsome => ?_⟩ _
    cases hsome
    exact h.2

/-- Documents that are written to one path of a JSON file, merging what is there, are refused by the
file system only.  After each of them the file holds all that were written so far, merged from left
to right into what stood there first.  The next write reads the very text that the one before it
printed. -/
theorem writes_accumulate (hmode : mode = .deep ∨ mode = .concat)
    (hkind : MergeKind.ofPath path = .json) (hfiles : w.tree.ReadsWritten path)
    {first : Option (String × Json)} {items : List (String × Json)}
    (hfirst : readExisting (w.tree.readied path) path = .ok (first.map fun held => held.1.toUTF8))
    (hwhole : ∀ item ∈ first.toList ++ items, HoldsWhole item) :
    (∀ e w', (writeEach mode path (items.map Prod.fst)).exec w = (.error e, w') →
        ∃ above io, e = .io above io) ∧
      ∀ done later written w', items = done ++ later → done ≠ [] →
        (writeEach mode path (done.map Prod.fst)).exec w = (.ok written, w') →
        ∃ text document,
          Json.mergedAll ((first.toList ++ done).map Prod.snd) = some document ∧
            Json.parse text = .ok document ∧ w'.tree.read path = .ok text.toUTF8 ∧
            (text = document.indented ++ "\n" ∨ first.toList ++ done = [(text, document)]) ∧
            ∀ data, mergeBase (w'.tree.readied path) (Draft.start mode path data) =
              .ok (some text.toUTF8) := by
  have hsound : ∀ item ∈ items, IsSound item :=
    fun item hitem => (hwhole item (List.mem_append_right _ hitem)).isSound
  have hheld : Holds w.tree path first := ⟨hfiles, hfirst, fun h hh =>
    (hwhole h (List.mem_append_left _ (Option.mem_toList.2 hh))).isSound⟩
  refine ⟨fun e w' h => ?_, fun done later written w' hitems hdone h => ?_⟩
  · rcases writeEach_achieves hmode hkind hheld hsound h with ⟨above, io, he⟩ | ⟨⟨_, hok⟩, _⟩
    · cases he
      exact ⟨above, io, rfl⟩
    · cases hok
  · rw [hitems] at hsound
    have hachieves := writeEach_achieves hmode hkind hheld (List.forall_mem_append.1 hsound).1
    obtain ⟨hleft, hread⟩ := (hachieves h).resolve_left (by rintro ⟨_, _, ⟨⟩⟩) |>.2
    cases hlast : heldAfter first done with
    | none => exact absurd (heldAfter_eq_none.1 hlast).2 hdone
    | some held =>
      rw [hlast] at hleft
      have hdocuments := heldAfter_documents first done
      rw [hlast] at hdocuments
      exact ⟨held.1, held.2, hdocuments.symm, (hleft.sound held rfl).parses, hread hdone held hlast,
        heldAfter_text hlast, mergeBase_held hmode hkind hleft.sound hleft.read⟩

/-- A file with a list, and lists that are written to it. -/
def ledgerTree : FileTree := ⟨[(["a.json"], .file "[1]".toUTF8 FileTree.newFileMode)], []⟩

/-- What the file holds at first. -/
def ledgerFirst : String × Json := ("[1]", .array [.number (.int 1)])

/-- What is written into it, one after the other. -/
def ledgerItems : List (String × Json) :=
  [("[-2]\n", .array [.number (.int (-2))]), ("[[3]]", .array [.array [.number (.int 3)]])]

/-- Later items come first, and none is lost. -/
theorem ledger_accumulates :
    ∃ written w', (writeEach .deep "a.json" (ledgerItems.map Prod.fst)).exec
        (⟨⟨#[], ()⟩, ledgerTree, .calm⟩ : World Unit) = (.ok written, w') ∧
      w'.tree.read "a.json" = .ok ((Json.array [.array [.number (.int 3)], .number (.int (-2)),
        .number (.int 1)]).indented ++ "\n").toUTF8 := by
  have hwhole : ∀ item ∈ (some ledgerFirst).toList ++ ledgerItems, HoldsWhole item := by
    simp only [Option.toList_some, List.cons_append, List.nil_append, ledgerItems,
      List.forall_mem_cons]
    exact ⟨⟨rfl, rfl⟩, ⟨rfl, rfl⟩, ⟨rfl, rfl⟩, by simp⟩
  have hfirst : readExisting (ledgerTree.readied "a.json") "a.json" =
      .ok ((some ledgerFirst).map fun held => held.1.toUTF8) :=
    Result.toOption_eq_some.1 (by decide +kernel)
  have hfiles : ledgerTree.ReadsWritten "a.json" :=
    FileTree.readsWritten_of_linkFree (FileTree.linkFree_of_nodes (by simp [ledgerTree]) []) _
  have hrun : ((writeEach .deep "a.json" (ledgerItems.map Prod.fst)).exec
      (⟨⟨#[], ()⟩, ledgerTree, .calm⟩ : World Unit)).1.toOption.isSome = true := by decide +kernel
  rcases h : (writeEach .deep "a.json" (ledgerItems.map Prod.fst)).exec
    (⟨⟨#[], ()⟩, ledgerTree, .calm⟩ : World Unit) with ⟨e | written, w'⟩
  · rw [h] at hrun
    cases hrun
  obtain ⟨text, document, hmerged, _, hread, htext, _⟩ :=
    (writes_accumulate (.inl rfl) (by decide +kernel) hfiles hfirst hwhole).2 ledgerItems [] written
      w' rfl (by simp [ledgerItems]) h
  cases hmerged
  rcases htext with rfl | hsingle
  · exact ⟨written, w', rfl, hread⟩
  · cases hsingle

end Output

end ConfigPack
