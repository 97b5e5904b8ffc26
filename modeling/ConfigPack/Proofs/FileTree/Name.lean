import ConfigPack.FileTree.Name
import ConfigPack.Proofs.FileTree.Walk
import ConfigPack.Proofs.Utf8

/-!
# Names and their texts

The bytes of a name are found in it again (`bytes_ofBytes`).  A name that is a text is its own text;
the text of any other has a character above the first 128, and none of these but those that are
bytes of the name, so it is the name of an entry as well (`isEntryName_lossy`).
-/

namespace ConfigPack.FileName

variable {name path : String} {data : ByteArray}

/-! ## Texts -/

/-- A name without zero characters is a text. -/
lemma isText_of_hasNul (h : Path.hasNul name = false) : isText name = true := by
  rw [isText, bne_iff_ne]
  intro hhead
  have hmem : mark ∈ name.toList := List.mem_of_mem_head? (Option.mem_def.2 hhead)
  rw [Path.hasNul, List.contains_eq_mem, decide_eq_false_iff_not] at h
  exact h hmem

/-- Its size is that of the text. -/
lemma size_of_text (h : Path.hasNul name = false) : size name = name.utf8ByteSize := by
  rw [size, if_pos (isText_of_hasNul h)]

/-- It is its own text. -/
lemma lossy_of_text (h : Path.hasNul name = false) : lossy name = name := by
  rw [lossy, if_pos (isText_of_hasNul h)]

/-- The size of a path without zero characters is that of the text. -/
lemma pathSize_of_text (h : Path.hasNul path = false) : pathSize path = path.utf8ByteSize := by
  simp only [pathSize, h, Bool.false_eq_true, ↓reduceIte]

/-! ## Bytes -/

/-- The character of a byte has the number of the byte. -/
lemma toNat_byte (b : UInt8) : (Char.ofNat b.toNat).toNat = b.toNat := by
  have hlt := UInt8.toNat_lt b
  exact Utf8.toNat_ofNat (.inl (by omega))

/-- The bytes of a name that is made of bytes are these. -/
lemma bytes_ofBytes (hzero : 0 ∉ data.data.toList) : bytes (ofBytes data) = data := by
  rw [ofBytes]
  split
  next text htext =>
    have hdata := Utf8.decode_eq_ok.1 htext
    have htext : isText text = true := by
      refine isText_of_hasNul ?_
      rw [Path.hasNul, List.contains_eq_mem, decide_eq_false_iff_not]
      intro hmem
      refine hzero ?_
      rw [hdata, Utf8.toList_toUTF8]
      exact List.mem_flatMap.2 ⟨_, hmem, by decide⟩
    rw [bytes, if_pos htext, hdata]
  next =>
    have htext : isText (String.ofList
        (mark :: data.data.toList.map fun b => Char.ofNat b.toNat)) = false := by
      simp [isText]
    rw [bytes, htext]
    simp only [Bool.false_eq_true, ↓reduceIte, String.toList_ofList, List.drop_one, List.tail_cons,
      List.map_map]
    have hback :
        (fun c : Char => UInt8.ofNat c.toNat) ∘ (fun b : UInt8 => Char.ofNat b.toNat) = id := by
      funext b
      simp only [Function.comp_apply, toNat_byte, UInt8.ofNat_toNat, id]
    rw [hback, List.map_id]
    exact ByteArray.ext (by simp)

/-- A name of bytes is a text, or its bytes are none and it has each of them as a character. -/
lemma cases_of_isValid (h : isValid name = true) :
    Path.hasNul name = false ∨
      isText name = false ∧ 0 ∉ (bytes name).data.toList ∧
        (∃ fault, Utf8.decode (bytes name) = .error fault) ∧
        ∀ b ∈ (bytes name).data.toList, Char.ofNat b.toNat ∈ name.toList := by
  rw [isValid] at h
  split at h
  next => exact .inl (by simpa using h)
  next htext =>
    simp only [Bool.and_eq_true, beq_iff_eq, Bool.not_eq_true', Array.contains_eq_mem,
      decide_eq_false_iff_not] at h
    obtain ⟨hname, hzero⟩ := h
    have htext : isText name = false := by simpa using htext
    refine .inr ⟨htext, by simpa using hzero, ?_⟩
    rw [ofBytes] at hname
    split at hname
    next text hdecode =>
      -- the bytes of a text that begins with zero have a zero
      subst hname
      have hdata := Utf8.decode_eq_ok.1 hdecode
      have hmem : '\x00' ∈ text.toList := by
        rw [isText, bne_eq_false_iff_eq] at htext
        exact List.mem_of_mem_head? (Option.mem_def.2 htext)
      refine absurd ?_ hzero
      rw [← Array.mem_toList_iff, hdata, Utf8.toList_toUTF8]
      exact List.mem_flatMap.2 ⟨_, hmem, by decide⟩
    next fault hdecode =>
      refine ⟨⟨fault, hdecode⟩, fun b hb => ?_⟩
      rw [← hname, String.toList_ofList]
      exact List.mem_cons_of_mem _ (List.mem_map_of_mem hb)

/-! ## Texts of names -/

/-- The text of a name has no zero character. -/
lemma hasNul_lossy (h : isValid name = true) : Path.hasNul (lossy name) = false := by
  rcases cases_of_isValid h with hnul | ⟨htext, hzero, ⟨fault, hdecode⟩, -⟩
  · rwa [lossy_of_text hnul]
  · rw [lossy, htext, if_neg (by simp), Utf8.decodeLossy_of_decode hdecode, Path.hasNul,
      List.contains_eq_mem, decide_eq_false_iff_not]
    intro hmem
    rcases Utf8.mem_lossyFrom _ _ hmem with hhigh | ⟨b, hb, -, hchar⟩
    · exact absurd hhigh (by decide)
    · have hb0 : b = 0 := by
        have := congrArg Char.toNat hchar
        rw [toNat_byte] at this
        exact UInt8.toNat_inj.1 this.symm
      exact hzero (hb0 ▸ hb)

/-- The text of the name of an entry is the name of an entry. -/
lemma isEntryName_lossy (hvalid : isValid name = true) (hname : FileTree.IsEntryName name)
    (hslash : '/' ∉ name.toList) :
    FileTree.IsEntryName (lossy name) ∧ '/' ∉ (lossy name).toList := by
  rcases cases_of_isValid hvalid with hnul | ⟨htext, hzero, ⟨fault, hdecode⟩, hchars⟩
  · rw [lossy_of_text hnul]
    exact ⟨hname, hslash⟩
  have hlossy : lossy name = Utf8.lossyFrom 0 (bytes name).data.toList "" := by
    rw [lossy, htext, if_neg (by simp), Utf8.decodeLossy_of_decode hdecode]
  obtain ⟨c, hc, hhigh⟩ := Utf8.exists_lossyFrom (Utf8.exists_high_of_decode hdecode)
  rw [← hlossy] at hc
  have hother : ∀ text : String, (∀ c ∈ text.toList, c.toNat < 128) → lossy name ≠ text := by
    rintro text htext rfl
    exact absurd hhigh (Nat.not_le.2 (htext c hc))
  refine ⟨⟨hother _ (by simp), hother _ (by simp), hother _ (by simp)⟩, fun hmem => ?_⟩
  rw [hlossy] at hmem
  rcases Utf8.mem_lossyFrom _ _ hmem with hhigh | ⟨b, hb, -, hchar⟩
  · exact absurd hhigh (by decide)
  · exact hslash (hchar ▸ hchars b hb)

end ConfigPack.FileName
