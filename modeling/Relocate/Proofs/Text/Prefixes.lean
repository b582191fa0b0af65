import Relocate.Text.Fold

/-!
# Prefixes in bytes and in characters

No character begins with all the bytes of another one, and a change of ASCII case changes
single bytes below 128 only.  So a text whose first bytes are those of a prefix up to
ASCII case has the characters of the prefix up to ASCII case, and the prefix ends between
two characters: `sameFoldBytes_take_iff`.

`dropPrefix?` looks for a prefix in the characters.  `startsWithBytes` and `replaceBytes`
find what it finds, and they meet no bad slice on the way: `replaceBytes_exact`.
-/

namespace Relocate.Text

/-! ## Prefixes in characters -/

/-- What follows the prefix in the text, when the text starts with it up to the
case of ASCII letters. -/
def dropPrefix? : List Char → List Char → Option (List Char)
  | [], text => some text
  | _ :: _, [] => none
  | p :: ps, c :: cs => if p.toLower = c.toLower then dropPrefix? ps cs else none

theorem dropPrefix?_eq_some_iff {start text rest : List Char} :
    dropPrefix? start text = some rest ↔
      ∃ front, text = front ++ rest ∧
        front.map Char.toLower = start.map Char.toLower := by
  fun_induction dropPrefix? start text with
  | case1 text => simp [eq_comm]
  | case2 p ps => simp
  | case3 p ps c cs hsame ih =>
    refine ih.trans ?_
    constructor
    · rintro ⟨front, rfl, hfront⟩
      exact ⟨c :: front, rfl, List.map_eq_cons_iff.mpr ⟨c, front, rfl, hsame.symm, hfront⟩⟩
    · rintro ⟨front, htext, hfront⟩
      obtain ⟨d, more, rfl, -, hmore⟩ := List.map_eq_cons_iff.mp hfront
      exact ⟨more, (List.cons.inj htext).2, hmore⟩
  | case4 p ps c cs hother =>
    refine iff_of_false nofun ?_
    rintro ⟨front, htext, hfront⟩
    obtain ⟨d, more, rfl, hsame, -⟩ := List.map_eq_cons_iff.mp hfront
    exact hother ((List.cons.inj htext).1 ▸ hsame.symm)

theorem dropPrefix?_toList_eq_some_iff {text start : String} {rest : List Char} :
    dropPrefix? start.toList text.toList = some rest ↔
      ∃ front, text = front ++ String.ofList rest ∧ sameFold front start = true := by
  rw [dropPrefix?_eq_some_iff]
  constructor
  · rintro ⟨front, htext, hfront⟩
    refine ⟨String.ofList front, ?_, by simpa [sameFold] using hfront⟩
    rw [← String.ofList_append, ← htext, String.ofList_toList]
  · rintro ⟨front, rfl, hsame⟩
    exact ⟨front.toList, by simp, beq_iff_eq.mp hsame⟩

/-! ## Bytes of characters -/

/-- The characters in UTF-8. -/
def encode (text : List Char) : List UInt8 :=
  text.flatMap String.utf8EncodeChar

theorem utf8Bytes_eq (text : String) : utf8Bytes text = encode text.toList := by
  rw [utf8Bytes, ← String.ofList_toList (s := text), String.toByteArray_ofList, List.utf8Encode,
    List.toList_data_toByteArray, String.toList_ofList, encode]

theorem length_utf8Bytes (text : String) : (utf8Bytes text).length = text.utf8ByteSize :=
  Array.length_toList

theorem utf8Bytes_append (front rest : String) :
    utf8Bytes (front ++ rest) = utf8Bytes front ++ utf8Bytes rest := by
  simp only [utf8Bytes_eq, String.toList_append, encode, List.flatMap_append]

/-- The bytes in front tell which characters are in front. -/
theorem isPrefix_of_encode {front text : List Char} {rest : List UInt8}
    (h : encode front ++ rest = encode text) : front <+: text := by
  refine List.isPrefix_of_utf8Encode_append_eq_utf8Encode rest.toByteArray ?_
  rw [List.utf8Encode, List.utf8Encode, ← List.toByteArray_append]
  exact congrArg List.toByteArray h

/-! ## Case of bytes -/

theorem lowerByte_of_le {byte : UInt8} (h : 128 ≤ byte.toNat) : lowerByte byte = byte := by
  refine if_neg fun hcapital => ?_
  have hlast : byte.toNat ≤ 0x5A := UInt8.le_iff_toNat_le.mp hcapital.2
  omega

theorem toLower_of_le {c : Char} (hc : 128 ≤ c.toNat) : c.toLower = c := by
  refine dif_neg fun hcapital => ?_
  have hlast : c.toNat ≤ 0x5A := UInt32.le_iff_toNat_le.mp hcapital.2
  omega

/-- All bytes of a character beyond ASCII are beyond ASCII. -/
theorem le_of_mem_utf8EncodeChar
    {c : Char} (hc : 128 ≤ c.toNat) {byte : UInt8} (hbyte : byte ∈ String.utf8EncodeChar c) :
    128 ≤ byte.toNat := by
  have hlarge : ¬ c.toNat ≤ 0x7F := by omega
  simp only [String.utf8EncodeChar, Char.toNat_val, if_neg hlarge] at hbyte
  -- Two, three or four bytes; each of them is a remainder put on top of a mark.
  split at hbyte
  · simp only [List.mem_cons, List.not_mem_nil, or_false] at hbyte
    rcases hbyte with rfl | rfl <;> rw [UInt8.toNat_ofNat'] <;> omega
  · split at hbyte <;> simp only [List.mem_cons, List.not_mem_nil, or_false] at hbyte
    · rcases hbyte with rfl | rfl | rfl <;> rw [UInt8.toNat_ofNat'] <;> omega
    · rcases hbyte with rfl | rfl | rfl | rfl <;> rw [UInt8.toNat_ofNat'] <;> omega

/-- A character and its bytes change their case together. -/
theorem map_lowerByte_utf8EncodeChar (c : Char) :
    (String.utf8EncodeChar c).map lowerByte = String.utf8EncodeChar c.toLower := by
  by_cases hc : c.toNat < 128
  · have hascii : ∀ code < 128, (String.utf8EncodeChar (Char.ofNat code)).map lowerByte =
        String.utf8EncodeChar (Char.ofNat code).toLower := by decide
    simpa using hascii c.toNat hc
  · have hlarge : 128 ≤ c.toNat := by omega
    rw [toLower_of_le hlarge]
    calc (String.utf8EncodeChar c).map lowerByte
        = (String.utf8EncodeChar c).map id :=
          List.map_congr_left fun byte hbyte =>
            lowerByte_of_le (le_of_mem_utf8EncodeChar hlarge hbyte)
      _ = String.utf8EncodeChar c := List.map_id _

theorem map_lowerByte_encode (text : List Char) :
    (encode text).map lowerByte = encode (text.map Char.toLower) := by
  simp only [encode, List.map_flatMap, List.flatMap_map, map_lowerByte_utf8EncodeChar]

theorem map_lowerByte_of_sameFold {a b : String} (h : sameFold a b = true) :
    (utf8Bytes a).map lowerByte = (utf8Bytes b).map lowerByte := by
  rw [utf8Bytes_eq, utf8Bytes_eq, map_lowerByte_encode, map_lowerByte_encode, beq_iff_eq.mp h]

/-- A change of case keeps the number of bytes. -/
theorem utf8ByteSize_of_sameFold {a b : String} (h : sameFold a b = true) :
    a.utf8ByteSize = b.utf8ByteSize := by
  have hlength := congrArg List.length (map_lowerByte_of_sameFold h)
  rwa [List.length_map, List.length_map, length_utf8Bytes, length_utf8Bytes] at hlength

/-- The first bytes of a text are those of a prefix up to case exactly when its first
characters are. -/
theorem sameFoldBytes_take_iff {text start : String} :
    sameFoldBytes ((utf8Bytes text).take start.utf8ByteSize) (utf8Bytes start) = true ↔
      ∃ front rest, text = front ++ rest ∧ sameFold front start = true := by
  rw [sameFoldBytes, beq_iff_eq]
  constructor
  · intro hbytes
    -- In small letters the bytes of the prefix are the first bytes of the text, so its
    -- characters are the first characters of the text.
    have hencoded : encode (start.toList.map Char.toLower) ++
          (encode (text.toList.map Char.toLower)).drop start.utf8ByteSize =
        encode (text.toList.map Char.toLower) := by
      rw [List.map_take, utf8Bytes_eq, utf8Bytes_eq, map_lowerByte_encode,
        map_lowerByte_encode] at hbytes
      rw [← hbytes, List.take_append_drop]
    obtain ⟨lowered, hlowered⟩ := isPrefix_of_encode hencoded
    obtain ⟨front, rest, htext, hfront, -⟩ := List.map_eq_append_iff.mp hlowered.symm
    obtain ⟨front, hsplit⟩ :=
      dropPrefix?_toList_eq_some_iff.mp (dropPrefix?_eq_some_iff.mpr ⟨front, htext, hfront⟩)
    exact ⟨front, String.ofList rest, hsplit⟩
  · rintro ⟨front, rest, rfl, hsame⟩
    rw [utf8Bytes_append, ← utf8ByteSize_of_sameFold hsame, ← length_utf8Bytes, List.take_left]
    exact map_lowerByte_of_sameFold hsame

/-! ## Slices -/

theorem isValid_append (front rest : String) :
    String.Pos.Raw.IsValid (front ++ rest) ⟨front.utf8ByteSize⟩ :=
  String.Pos.Raw.isValid_iff_exists_append.mpr ⟨front, rest, rfl, rfl⟩

theorem bytesBefore_of_le {text : String} {offset : Nat} (h : offset ≤ text.utf8ByteSize) :
    bytesBefore text offset = .ok ((utf8Bytes text).take offset) :=
  if_pos h

theorem textBehind_append (front rest : String) :
    textBehind (front ++ rest) front.utf8ByteSize = .ok rest := by
  have hvalid := isValid_append front rest
  have hsplits : ((front ++ rest).pos ⟨front.utf8ByteSize⟩ hvalid).Splits front rest := ⟨rfl, rfl⟩
  rw [textBehind, dif_pos hvalid, hsplits.copy_sliceFrom_eq]

/-! ## Prefixes in bytes -/

/-- The bytes decide alone: where they agree, the text is long enough and the prefix ends
between two characters. -/
theorem startsWithBytes_eq (text start : String) :
    startsWithBytes text start =
      .ok (sameFoldBytes ((utf8Bytes text).take start.utf8ByteSize) (utf8Bytes start)) := by
  by_cases hfits : start.utf8ByteSize ≤ text.utf8ByteSize ∧
      String.Pos.Raw.IsValid text ⟨start.utf8ByteSize⟩
  · rw [startsWithBytes, if_pos hfits, bytesBefore_of_le hfits.1]
    rfl
  · have hdiffer : sameFoldBytes ((utf8Bytes text).take start.utf8ByteSize)
        (utf8Bytes start) = false := by
      refine Bool.eq_false_iff.mpr fun hbytes => hfits ?_
      obtain ⟨front, rest, rfl, hsame⟩ := sameFoldBytes_take_iff.mp hbytes
      rw [← utf8ByteSize_of_sameFold hsame, String.utf8ByteSize_append]
      exact ⟨Nat.le_add_right _ _, isValid_append front rest⟩
    rw [startsWithBytes, if_neg hfits, hdiffer]
    rfl

theorem startsWithBytes_eq_ok (text start : String) :
    startsWithBytes text start = .ok (startsWithFold text start) := by
  rw [startsWithFold, startsWithBytes_eq]
  rfl

theorem startsWithFold_iff {text start : String} :
    startsWithFold text start = true ↔
      ∃ front rest, text = front ++ rest ∧ sameFold front start = true := by
  rw [startsWithFold, startsWithBytes_eq]
  exact sameFoldBytes_take_iff

theorem startsWithFold_eq (text start : String) :
    startsWithFold text start = (dropPrefix? start.toList text.toList).isSome := by
  rw [Bool.eq_iff_iff, startsWithFold_iff, Option.isSome_iff_exists]
  constructor
  · rintro ⟨front, rest, htext, hsame⟩
    refine ⟨rest.toList, dropPrefix?_toList_eq_some_iff.mpr ⟨front, ?_, hsame⟩⟩
    rw [htext, String.ofList_toList]
  · rintro ⟨rest, hrest⟩
    obtain ⟨front, hsplit⟩ := dropPrefix?_toList_eq_some_iff.mp hrest
    exact ⟨front, String.ofList rest, hsplit⟩

/-- The bytes are replaced like the characters. -/
theorem replaceBytes_eq (text start replacement : String) :
    replaceBytes text start replacement =
      .ok ((dropPrefix? start.toList text.toList).map fun rest =>
        replacement ++ String.ofList rest) := by
  rw [replaceBytes, startsWithBytes_eq_ok, startsWithFold_eq]
  cases hdrop : dropPrefix? start.toList text.toList with
  | none => rfl
  | some rest =>
      obtain ⟨front, rfl, hsame⟩ := dropPrefix?_toList_eq_some_iff.mp hdrop
      rw [← utf8ByteSize_of_sameFold hsame, textBehind_append]
      rfl

theorem replacePrefix?_eq (text start replacement : String) :
    replacePrefix? text start replacement =
      (dropPrefix? start.toList text.toList).map fun rest =>
        replacement ++ String.ofList rest := by
  rw [replacePrefix?, replaceBytes_eq]
  rfl

theorem isSome_replacePrefix? (text start replacement : String) :
    (replacePrefix? text start replacement).isSome = startsWithFold text start := by
  rw [replacePrefix?_eq, Option.isSome_map, startsWithFold_eq]

/-- Looking for a prefix and replacing it end with an answer: no slice is past the end of
the text or starts inside a character.  There is a result exactly when the text is made of
two texts of which the first is the prefix up to ASCII case, and then it is the replacement
with the second behind it. -/
theorem replaceBytes_exact (text start replacement : String) :
    startsWithBytes text start = .ok (replacePrefix? text start replacement).isSome ∧
    replaceBytes text start replacement = .ok (replacePrefix? text start replacement) ∧
    ∀ result, replacePrefix? text start replacement = some result ↔
      ∃ front rest, text = front ++ rest ∧ sameFold front start = true ∧
        result = replacement ++ rest := by
  refine ⟨?_, ?_, fun result => ?_⟩
  · rw [isSome_replacePrefix?, startsWithBytes_eq_ok]
  · rw [replacePrefix?_eq, replaceBytes_eq]
  · rw [replacePrefix?_eq, Option.map_eq_some_iff]
    constructor
    · rintro ⟨rest, hrest, rfl⟩
      obtain ⟨front, htext, hsame⟩ := dropPrefix?_toList_eq_some_iff.mp hrest
      exact ⟨front, String.ofList rest, htext, hsame, rfl⟩
    · rintro ⟨front, rest, htext, hsame, rfl⟩
      refine ⟨rest.toList, dropPrefix?_toList_eq_some_iff.mpr ⟨front, ?_, hsame⟩, ?_⟩
      · rw [htext, String.ofList_toList]
      · rw [String.ofList_toList]

/-- A letter of another case that is not ASCII is another letter. -/
example : replacePrefix? "ÉTÉ/Sales" "ÉtÉ" "Q3" = some "Q3/Sales" ∧
    replacePrefix? "ÉTÉ/Sales" "été" "Q3" = none := by
  decide

end Relocate.Text
