import ConfigPack.Proofs.Archive.Returned
import ConfigPack.Proofs.Bytes
import ConfigPack.Proofs.Utf8

/-!
# Archives that fit their fields

The fields of an archive have fixed widths.  When the entries fit them, the archive of the entries
gives back their names and their contents (`returned_of_fits`).
-/

namespace ConfigPack.Archive

open Bytes

variable {data : ByteArray} {name : String} {content : ByteArray} {start index : Nat}
  {list : List (String × ByteArray)}

/-! ## Names -/

/-- A text is decoded from its own bytes without replacements. -/
lemma decodeLossy_toUTF8 (name : String) : Utf8.decodeLossy name.toUTF8 = name := by
  have hdecode : String.fromUTF8? name.toUTF8 = some name := by
    rw [String.fromUTF8?, String.toUTF8_eq_toByteArray, dif_pos name.isValidUTF8]
    rfl
  rw [Utf8.decodeLossy, hdecode]

/-- The code page agrees with the first 128 characters. -/
lemma codePageChar_ascii {c : Char} (h : c.toNat < 128) :
    codePageChar (UInt8.ofNat c.toNat) = c := by
  have hnat : (UInt8.ofNat c.toNat).toNat = c.toNat := by
    rw [UInt8.toNat_ofNat']
    omega
  have hlt : UInt8.ofNat c.toNat < 128 := by
    rw [UInt8.lt_iff_toNat_lt, hnat]
    exact h
  rw [codePageChar, if_pos hlt, hnat, Char.ofNat_toNat]

/-- A text of ASCII characters is the same in the code page. -/
lemma codePageText_toUTF8 (h : ∀ c ∈ name.toList, c.toNat < 128) :
    codePageText name.toUTF8 = name := by
  have hchars : ∀ chars : List Char, (∀ c ∈ chars, c.toNat < 128) →
      (chars.flatMap String.utf8EncodeChar).map codePageChar = chars := by
    intro chars hascii
    induction chars with
    | nil => rfl
    | cons c chars ih =>
      have hc := hascii c List.mem_cons_self
      rw [List.flatMap_cons, List.map_append, Utf8.encodeChar_ascii hc,
        ih fun x hx => hascii x (List.mem_cons_of_mem _ hx), List.map_singleton,
        codePageChar_ascii hc]
      rfl
  rw [codePageText, Utf8.toList_toUTF8, hchars _ h, String.ofList_toList]

/-- A name is read back by its flags. -/
lemma nameOf_flagsOf (name : String) : nameOf (flagsOf name) name.toUTF8 = name := by
  rw [nameOf, flagsOf]
  by_cases h : name.toList.all fun c => c.toNat < 128
  · rw [if_pos h, if_neg (by decide)]
    exact codePageText_toUTF8 (by simpa using h)
  · rw [if_neg h, if_pos (by decide)]
    exact decodeLossy_toUTF8 name

/-- The flags of a name are those of UTF-8 or none. -/
lemma flagsOf_cases (name : String) : flagsOf name = 0 ∨ flagsOf name = utf8Flag := by
  rw [flagsOf]
  split
  · exact .inl rfl
  · exact .inr rfl

/-! ## What is written -/

/-- The members of entries, one after the other. -/
def memberBytes : List (String × ByteArray) → ByteArray
  | [] => .empty
  | (name, content) :: rest => writeMember name content ++ memberBytes rest

/-- The descriptions of entries whose members begin at an index. -/
def descriptionBytes (start : Nat) : List (String × ByteArray) → ByteArray
  | [] => .empty
  | (name, content) :: rest =>
    writeDescription name content start ++
      descriptionBytes (start + (writeMember name content).size) rest

/-- The members that are described for entries whose members begin at an index. -/
def membersFrom (start : Nat) : List (String × ByteArray) → List Member
  | [] => []
  | (name, content) :: rest =>
    ⟨name, false, 0, Crc32.checksum content, content.size, start⟩ ::
      membersFrom (start + (writeMember name content).size) rest

/-- Entries are written one after the other, the descriptions apart from the members. -/
lemma foldl_write (list : List (String × ByteArray)) :
    ∀ members directory : ByteArray,
      list.foldl (fun (members, directory) (name, content) =>
        (members ++ writeMember name content,
          directory ++ writeDescription name content members.size)) (members, directory) =
      (members ++ memberBytes list, directory ++ descriptionBytes members.size list) := by
  induction list with
  | nil =>
    intro members directory
    simp [memberBytes, descriptionBytes]
  | cons e rest ih =>
    intro members directory
    obtain ⟨name, content⟩ := e
    simp only [List.foldl_cons, ih, memberBytes, descriptionBytes, ByteArray.append_assoc,
      ByteArray.size_append]

/-- An archive is its members, their descriptions and the record of the end. -/
lemma ofEntries_eq (d : Dict ByteArray) :
    ofEntries d = memberBytes d.entries ++ descriptionBytes 0 d.entries ++
      writeEnd d.size (descriptionBytes 0 d.entries).size (memberBytes d.entries).size := by
  have hfold := foldl_write d.entries .empty .empty
  rw [ByteArray.empty_append, ByteArray.empty_append, ByteArray.size_empty] at hfold
  rw [ofEntries]
  simp only [hfold]

/-- The fields that a member shares with its description have 26 bytes. -/
lemma length_sharedFields (name : String) (content : ByteArray) :
    (sharedFields name content).length = 26 := by
  simp [sharedFields]

/-- The size of a member. -/
lemma size_writeMember (name : String) (content : ByteArray) :
    (writeMember name content).size = 30 + name.utf8ByteSize + content.size := by
  simp [writeMember, length_sharedFields]

/-- The size of a description. -/
lemma size_writeDescription (name : String) (content : ByteArray) (start : Nat) :
    (writeDescription name content start).size = 46 + name.utf8ByteSize := by
  simp [writeDescription, length_sharedFields]

/-- The size of the record of the end. -/
lemma size_writeEnd (count size start : Nat) : (writeEnd count size start).size = 22 := by
  simp [writeEnd]

/-! ## What is read back -/

/-- A checksum has 32 bits. -/
lemma checksum_lt (content : ByteArray) : Crc32.checksum content < 2 ^ 32 :=
  UInt32.toNat_lt _

/-- Bytes that are stored as they are stand for themselves. -/
lemma unpacked?_stored (bytes : ByteArray) : unpacked? 0 bytes = .ok (some bytes) := rfl

/-- A member that stands at its start is read. -/
lemma read_of_at (hname : name.utf8ByteSize < 2 ^ 16)
    (h : At data start (writeMember name content).data.toList) :
    (⟨name, false, 0, Crc32.checksum content, content.size, start⟩ : Member).read data =
      .ok (name, content) := by
  simp only [writeMember, ByteArray.toList_data_append, List.toList_data_toByteArray, sharedFields,
    List.append_assoc, at_append, length_littleEndian, Array.length_toList, ByteArray.size_data,
    Nat.add_assoc, Nat.reduceAdd] at h
  obtain ⟨hmark, _, _, _, _, _, _, _, hsize, hextra, _, hcontent⟩ := h
  have hbytes : name.toUTF8.size = name.utf8ByteSize := rfl
  have hstored :
      (⟨name, false, 0, Crc32.checksum content, content.size, start⟩ : Member).stored data =
        .ok content := by
    rw [Member.stored, if_neg Bool.false_ne_true, if_neg (by simp [hmark.number? (by decide)])]
    simp only [hsize.number? hname, hextra.number? (by decide), Nat.add_zero]
    rw [hbytes, ← Nat.add_assoc] at hcontent
    exact congrArg _ hcontent.extract
  simp only [Member.read, Member.content, hstored, bind, Except.bind, unpacked?_stored, if_pos]
  rfl

/-- A description that stands at an index is read. -/
lemma describedAt_of_at (hname : name.utf8ByteSize < 2 ^ 16) (hcontent : content.size < 2 ^ 32)
    (hstart : start < 2 ^ 32)
    (h : At data index (writeDescription name content start).data.toList) :
    describedAt data 0 index =
      some (⟨name, false, 0, Crc32.checksum content, content.size, start⟩,
        index + (writeDescription name content start).size) := by
  have hend := h.size_le
  rw [Array.length_toList, ByteArray.size_data, size_writeDescription] at hend
  simp only [writeDescription, ByteArray.toList_data_append, List.toList_data_toByteArray,
    sharedFields, List.append_assoc, at_append, length_littleEndian, Nat.add_assoc,
    Nat.reduceAdd] at h
  obtain ⟨hmark, _, _, hflags, hmethod, _, hchecksum, hpacked, _, hnamed, hextra, hcomment, _, _, _,
    hstarts, hbytes⟩ := h
  have hflag : flagsOf name < 256 ^ 2 ∧ flagsOf name % 2 = 0 := by
    rcases flagsOf_cases name with h | h <;> rw [h] <;> decide
  have hslice : slice? data (index + 46) name.utf8ByteSize = some name.toUTF8 := hbytes.slice?
  have hempty : slice? data (index + (46 + name.utf8ByteSize)) 0 = some .empty := by
    rw [slice?, if_pos (by omega)]
    exact congrArg some (ByteArray.extract_eq_empty_iff.2 (by omega))
  have hfields : areFields .empty (0 + 1) 0 = true := rfl
  rw [describedAt, size_writeDescription]
  simp only [Nat.add_zero, hmark.number? (by decide), hflags.number? hflag.1,
    hmethod.number? (by decide), hchecksum.number? (checksum_lt content), hpacked.number? hcontent,
    hnamed.number? hname, hextra.number? (by decide), hcomment.number? (by decide),
    hstarts.number? hstart, Option.bind_eq_bind, Option.bind_some, hslice, Nat.add_assoc, hempty,
    hfields, hend, guard_true, hflag.2, nameOf_flagsOf]
  rfl

/-- Entries whose members begin at an index fit the fields of an archive. -/
structure FitFrom (start : Nat) (list : List (String × ByteArray)) : Prop where
  size : start + (memberBytes list).size < 2 ^ 32
  names : ∀ e ∈ list, e.1.utf8ByteSize < 2 ^ 16

/-- The first entry fits, and the others fit behind it. -/
lemma FitFrom.cons (h : FitFrom start ((name, content) :: list)) :
    name.utf8ByteSize < 2 ^ 16 ∧ content.size < 2 ^ 32 ∧ start < 2 ^ 32 ∧
      FitFrom (start + (writeMember name content).size) list := by
  have hsize := h.size
  rw [memberBytes, ByteArray.size_append] at hsize
  have hmember := size_writeMember name content
  exact ⟨h.names _ List.mem_cons_self, by omega, by omega,
    ⟨by omega, fun e he => h.names e (List.mem_cons_of_mem _ he)⟩⟩

/-- The descriptions of entries give their members. -/
lemma described_of_at (hfit : FitFrom start list)
    (h : At data index (descriptionBytes start list).data.toList) :
    described data 0 list.length index = some (membersFrom start list) := by
  induction list generalizing start index with
  | nil => rfl
  | cons e rest ih =>
    obtain ⟨name, content⟩ := e
    obtain ⟨hname, hcontent, hstart, hrest⟩ := hfit.cons
    rw [descriptionBytes, ByteArray.toList_data_append, at_append, Array.length_toList,
      ByteArray.size_data] at h
    rw [List.length_cons, described, describedAt_of_at hname hcontent hstart h.1]
    simp only [Option.bind_eq_bind, Option.bind_some, ih hrest h.2]
    rfl

/-- The members that stand one after the other are read. -/
lemma reads_of_at (hfit : FitFrom start list) (h : At data start (memberBytes list).data.toList) :
    List.Forall₂ (fun m e => m.read data = .ok e) (membersFrom start list) list := by
  induction list generalizing start with
  | nil => exact .nil
  | cons e rest ih =>
    obtain ⟨name, content⟩ := e
    obtain ⟨hname, _, _, hrest⟩ := hfit.cons
    rw [memberBytes, ByteArray.toList_data_append, at_append, Array.length_toList,
      ByteArray.size_data] at h
    exact .cons (read_of_at hname h.1) (ih hrest h.2)

/-- A member with a new name is put behind the others. -/
lemma place_of_notMem {m : Member} :
    ∀ {members : List Member}, m.name ∉ members.map Member.name → place m members = members ++ [m]
  | [], _ => rfl
  | first :: rest, h => by
    rw [List.map_cons, List.mem_cons, not_or] at h
    rw [place, if_neg (Ne.symm h.1), place_of_notMem h.2, List.cons_append]

/-- So members with different names stay in their order. -/
lemma foldl_place :
    ∀ {members found : List Member}, ((found ++ members).map Member.name).Nodup →
      members.foldl (fun found m => place m found) found = found ++ members
  | [], found, _ => by rw [List.foldl_nil, List.append_nil]
  | m :: rest, found, h => by
    have hnew : m.name ∉ found.map Member.name := by
      rw [List.map_append, List.map_cons, List.nodup_append] at h
      exact fun hmem => h.2.2 _ hmem _ List.mem_cons_self rfl
    have hsplit : found ++ m :: rest = (found ++ [m]) ++ rest := by simp
    rw [List.foldl_cons, place_of_notMem hnew, hsplit]
    exact foldl_place (hsplit ▸ h)

/-- The members have the names of the entries. -/
lemma names_membersFrom :
    ∀ (list : List (String × ByteArray)) (start : Nat),
      (membersFrom start list).map Member.name = list.map Prod.fst
  | [], _ => rfl
  | (name, content) :: rest, start => by
    rw [membersFrom, List.map_cons, names_membersFrom rest, List.map_cons]

/-! ## Finding the directory -/

/-- Too near to the end no directory ends. -/
lemma directoryBefore_eq_none (h : data.size < index + 22) : directoryBefore data index = none := by
  have hnone : number? data (index + 20) 2 = none := number?_eq_none (by omega)
  simp only [directoryBefore, hnone, Option.bind_eq_bind, Option.bind_none, Option.bind_fun_none]

/-- The last directory is the one behind which there is none. -/
lemma lastDirectory_eq {members : List Member} (h : directoryBefore data index = some members)
    (hlast : ∀ i, index < i → directoryBefore data i = none) :
    ∀ {i : Nat}, index < i → lastDirectory data i = some members
  | i + 1, hi => by
    rw [lastDirectory]
    rcases Nat.lt_or_ge index i with hlt | hge
    · rw [hlast i hlt]
      exact lastDirectory_eq h hlast hlt
    · have : i = index := by omega
      rw [this, h]

/-- The size of members and descriptions together. -/
lemma size_members_descriptions (list : List (String × ByteArray)) (start : Nat) :
    (memberBytes list).size + (descriptionBytes start list).size =
      (list.map fun e => 76 + 2 * e.1.utf8ByteSize + e.2.size).sum := by
  induction list generalizing start with
  | nil => rfl
  | cons e rest ih =>
    obtain ⟨name, content⟩ := e
    have hrest := ih (start + (writeMember name content).size)
    rw [memberBytes, descriptionBytes, ByteArray.size_append, ByteArray.size_append,
      size_writeMember, size_writeDescription, List.map_cons, List.sum_cons]
    rw [size_writeMember] at hrest
    dsimp only
    omega

/-- At the begin of descriptions stands their mark. -/
lemma firstMark?_of_at {size : Nat} {e : String × ByteArray} (hsize : 0 < size)
    (h : At data index (descriptionBytes start (e :: list)).data.toList) :
    firstMark? data size index = some index := by
  obtain ⟨size, rfl⟩ := Nat.exists_eq_succ_of_ne_zero hsize.ne'
  have hmark : At data index (littleEndian 4 descriptionMark) := by
    simp only [descriptionBytes, writeDescription, ByteArray.toList_data_append,
      List.toList_data_toByteArray, List.append_assoc] at h
    exact (at_append.1 h).1
  rw [Nat.succ_eq_add_one, firstMark?, if_pos (hmark.number? (by decide))]

/-- The record behind the descriptions gives the members of the entries. -/
lemma directoryBefore_of_at (hfit : FitFrom 0 list) (hcount : list.length < 2 ^ 16)
    (hsize : (memberBytes list).size + (descriptionBytes 0 list).size < 2 ^ 32)
    (h : At data (memberBytes list).size
      ((descriptionBytes 0 list).data.toList ++
        (writeEnd list.length (descriptionBytes 0 list).size (memberBytes list).size).data.toList)) :
    directoryBefore data ((memberBytes list).size + (descriptionBytes 0 list).size) =
      some (membersFrom 0 list) := by
  have hend := h.size_le
  rw [List.length_append, Array.length_toList, ByteArray.size_data, Array.length_toList,
    ByteArray.size_data, size_writeEnd, ← Nat.add_assoc] at hend
  rw [at_append, Array.length_toList, ByteArray.size_data] at h
  obtain ⟨hdescriptions, hrecord⟩ := h
  generalize hindex : (memberBytes list).size + (descriptionBytes 0 list).size = index
    at hrecord hend ⊢
  simp only [writeEnd, List.toList_data_toByteArray, List.append_assoc, at_append,
    length_littleEndian, Nat.add_assoc, Nat.reduceAdd] at hrecord
  obtain ⟨hmark, hdisks, hdescribed, hall, _, hstart, hcomment⟩ := hrecord
  -- the numbers of the two disks are written as one number
  have hzeros : littleEndian 4 0 = littleEndian 2 0 ++ littleEndian 2 0 := by decide
  rw [hzeros, at_append, length_littleEndian] at hdisks
  have hlimit : (memberBytes list).size < 256 ^ 4 := by omega
  simp only [directoryBefore, Nat.add_zero, hmark.number? (by decide), hcomment.number? (by decide),
    hall.number? hcount, hdescribed.number? hcount, hdisks.1.number? (by decide),
    hdisks.2.number? (by decide), hstart.number? hlimit, Option.bind_eq_bind, Option.bind_some,
    hend, guard_true, Option.pure_def]
  cases list with
  | nil => rfl
  | cons e rest =>
    have hrest : 0 < (descriptionBytes 0 (e :: rest)).size := by
      rw [descriptionBytes, ByteArray.size_append, size_writeDescription]
      omega
    have hfirst : firstMark? data (index - (memberBytes (e :: rest)).size)
        (memberBytes (e :: rest)).size = some (memberBytes (e :: rest)).size :=
      firstMark?_of_at (by omega) hdescriptions
    rw [if_neg (by simp), hfirst, Option.bind_some, Nat.sub_self]
    exact described_of_at hfit hdescriptions

variable {d : Dict ByteArray}

/-- The widths of the fields of an archive bound its entries. -/
structure Fits (d : Dict ByteArray) : Prop where
  count : d.size < 2 ^ 16
  names : ∀ name ∈ d.keys, name.utf8ByteSize < 2 ^ 16
  total : (d.entries.map fun e => 76 + 2 * e.1.utf8ByteSize + e.2.size).sum < 2 ^ 32

/-- An archive gives back the entries that fit it. -/
theorem returned_of_fits (h : Fits d) : Returned d := by
  have hsizes := size_members_descriptions d.entries 0
  have htotal := h.total
  have hfit : FitFrom 0 d.entries :=
    ⟨by omega, fun e he => h.names e.1 (Dict.mem_keys.2 ⟨e.2, he⟩)⟩
  -- the members come first, then their descriptions, and last the mark of the end
  have hwhole : At (ofEntries d) 0 ((memberBytes d.entries).data.toList ++
      ((descriptionBytes 0 d.entries).data.toList ++
        (writeEnd d.entries.length (descriptionBytes 0 d.entries).size
          (memberBytes d.entries).size).data.toList)) := by
    have hdata := At.whole (ofEntries d)
    rwa [congrArg (·.data.toList) (ofEntries_eq d), ByteArray.toList_data_append,
      ByteArray.toList_data_append, List.append_assoc] at hdata
  obtain ⟨hmembers, hrest⟩ := at_append.1 hwhole
  rw [Nat.zero_add, Array.length_toList, ByteArray.size_data] at hrest
  have hend : (ofEntries d).size =
      (memberBytes d.entries).size + (descriptionBytes 0 d.entries).size + 22 := by
    rw [ofEntries_eq, ByteArray.size_append, ByteArray.size_append, size_writeEnd]
  -- the reader looks for that mark from the back, and no other is found behind it
  have hlast : lastDirectory (ofEntries d) (ofEntries d).size = some (membersFrom 0 d.entries) :=
    lastDirectory_eq (directoryBefore_of_at hfit h.count (by omega) hrest)
      (fun i hi => directoryBefore_eq_none (by omega)) (by omega)
  have hdirectory : directory (ofEntries d) = .ok (membersFrom 0 d.entries) := by
    have hplaces : (membersFrom 0 d.entries).foldl (fun found m => place m found) [] =
        [] ++ membersFrom 0 d.entries := by
      refine foldl_place ?_
      rw [List.nil_append, names_membersFrom]
      exact d.nodup_keys
    simp only [directory, hlast, hplaces, List.nil_append]
  rw [Returned, hdirectory]
  exact Result.mapM_eq_ok.2 (reads_of_at hfit hmembers)

end ConfigPack.Archive
