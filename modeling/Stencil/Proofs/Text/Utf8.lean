import Stencil.Text.Utf8

/-! # Decoding what was encoded

The characters of a text come back from its bytes. Decoding knows where it is by the bytes before,
so the statement is about what is decoded behind other bytes.
-/

namespace Stencil.Text

/-! ## The bytes of texts -/

theorem toList_loop (bytes : ByteArray) (place : Nat) (listed : List UInt8) :
    ByteArray.toList.loop bytes place listed = listed.reverse ++ bytes.data.toList.drop place := by
  fun_induction ByteArray.toList.loop bytes place listed with
  | case1 place listed inside induction =>
      have bound : place < bytes.data.toList.length := by simpa using inside
      have shown : bytes.get! place = bytes.data.toList[place] := by
        rw [ByteArray.get!, getElem!_pos bytes.data place inside]
        rfl
      rw [induction, List.reverse_cons, List.append_assoc, List.singleton_append, shown,
        ← List.drop_eq_getElem_cons]
  | case2 place listed outside =>
      rw [List.drop_eq_nil_of_le (by simpa using outside), List.append_nil]

theorem toList_eq_toList_data (bytes : ByteArray) : bytes.toList = bytes.data.toList := by
  simpa [ByteArray.toList] using toList_loop bytes 0 []

theorem toList_toUTF8_append (first later : String) :
    (first ++ later).toUTF8.toList = first.toUTF8.toList ++ later.toUTF8.toList := by
  simp only [toList_eq_toList_data, String.toUTF8_eq_toByteArray, String.toByteArray_append,
    ByteArray.toList_data_append]

/-! ## Decoding -/

theorem size_utf8Encode_singleton (character : Char) :
    [character].utf8Encode.size = character.utf8Size := by
  simp [List.utf8Encode]

theorem utf8DecodeChar?_append (before bytes : ByteArray) :
    (before ++ bytes).utf8DecodeChar? before.size = bytes.utf8DecodeChar? 0 := by
  rw [ByteArray.utf8DecodeChar?_eq_utf8DecodeChar?_extract,
    ByteArray.extract_append_eq_right rfl (by rw [ByteArray.size_append])]

theorem decodeFrom_utf8Encode {bytes before rest : ByteArray} {characters : List Char}
    (whole : bytes = before ++ (characters.utf8Encode ++ rest)) (read : List Char) :
    decodeFrom bytes before.size read =
      decodeFrom bytes (before ++ characters.utf8Encode).size (characters.reverse ++ read) := by
  induction characters generalizing before read with
  | nil => simp
  | cons character later induction =>
      have size := size_utf8Encode_singleton character
      have positive := character.utf8Size_pos
      rw [List.utf8Encode_cons] at whole ⊢
      rw [ByteArray.append_assoc] at whole
      have shown : bytes.utf8DecodeChar? before.size = some character := by
        rw [whole, utf8DecodeChar?_append, List.utf8Encode_singleton]
        exact ByteArray.utf8DecodeChar?_utf8EncodeChar_append
      have inside : before.size < bytes.size := by
        rw [whole, ByteArray.size_append, ByteArray.size_append]
        omega
      have behind := induction (whole.trans ByteArray.append_assoc.symm) (character :: read)
      rw [ByteArray.size_append, size] at behind
      rw [decodeFrom, if_pos inside, shown]
      dsimp only
      rw [behind, ByteArray.append_assoc, List.reverse_cons, List.append_assoc,
        List.singleton_append]

theorem decodeUtf8_append (text : String) (rest : ByteArray) :
    decodeUtf8 (text.toUTF8 ++ rest) =
      decodeFrom (text.toUTF8 ++ rest) text.toUTF8.size text.toList.reverse := by
  have whole : text.toUTF8 ++ rest = .empty ++ (text.toList.utf8Encode ++ rest) := by
    rw [ByteArray.empty_append, String.utf8Encode_toList, String.toUTF8_eq_toByteArray]
  have decoded := decodeFrom_utf8Encode whole []
  rw [ByteArray.empty_append, String.utf8Encode_toList, List.append_nil] at decoded
  exact decoded

theorem decodeUtf8_toUTF8 (text : String) : decodeUtf8 text.toUTF8 = .ok text.toList := by
  have whole := decodeUtf8_append text .empty
  rw [ByteArray.append_empty] at whole
  rw [whole, decodeFrom, if_neg (Nat.lt_irrefl _), List.reverse_reverse]

/-! ## Bytes that are no character -/

/-- Bytes that do not begin with all the bytes of some character. -/
def Undecodable (bytes : ByteArray) : Prop :=
  ∀ (character : Char) (rest : ByteArray), bytes ≠ (String.singleton character).toUTF8 ++ rest

theorem undecodable_iff (bytes : ByteArray) :
    Undecodable bytes ↔ bytes.utf8DecodeChar? 0 = none := by
  constructor
  · intro undecodable
    cases decoded : bytes.utf8DecodeChar? 0 with
    | none => rfl
    | some character =>
        rcases ByteArray.exists_of_utf8DecodeChar?_eq_some decoded with ⟨rest, whole⟩
        rw [← List.utf8Encode_singleton, ← String.toByteArray_singleton] at whole
        exact absurd whole (undecodable character rest)
  · intro refused character rest whole
    rw [whole, String.toUTF8_eq_toByteArray, String.toByteArray_singleton,
      List.utf8DecodeChar?_utf8Encode_singleton_append] at refused
    cases refused

theorem decodeUtf8_append_of_undecodable (text : String) {bytes : ByteArray}
    (nonempty : bytes ≠ .empty) (undecodable : Undecodable bytes) :
    decodeUtf8 (text.toUTF8 ++ bytes) = .error text.toUTF8.size := by
  have inside : text.toUTF8.size < (text.toUTF8 ++ bytes).size := by
    have some : bytes.size ≠ 0 := fun none => nonempty (ByteArray.size_eq_zero_iff.mp none)
    rw [ByteArray.size_append]
    omega
  rw [decodeUtf8_append, decodeFrom, if_pos inside, utf8DecodeChar?_append,
    (undecodable_iff bytes).mp undecodable]

/-! ## Counting characters by their bytes -/

theorem beginsCharacter_of_isUTF8FirstByte {byte : UInt8} (first : byte.IsUTF8FirstByte) :
    beginsCharacter byte = true := by
  have begins : ∀ bits : BitVec 8, (UInt8.ofBitVec bits).IsUTF8FirstByte →
      beginsCharacter (.ofBitVec bits) = true := by decide +kernel
  exact begins byte.toBitVec first

theorem not_beginsCharacter_of_continuation (byte : UInt8) :
    beginsCharacter (byte &&& 0x3f ||| 0x80) = false := by
  have goesOn : ∀ bits : BitVec 8, beginsCharacter (.ofBitVec bits &&& 0x3f ||| 0x80) = false := by
    decide +kernel
  exact goesOn byte.toBitVec

theorem countP_utf8EncodeChar (character : Char) :
    (String.utf8EncodeChar character).countP beginsCharacter = 1 := by
  have first := beginsCharacter_of_isUTF8FirstByte
    (UInt8.isUTF8FirstByte_getElem_zero_utf8EncodeChar (c := character))
  rcases character.utf8Size_eq with one | two | three | four
  · simp only [String.utf8EncodeChar_eq_singleton one, List.getElem_cons_zero] at first
    simp only [String.utf8EncodeChar_eq_singleton one, List.countP_cons, first]
    rfl
  · simp only [String.utf8EncodeChar_eq_cons_cons two, List.getElem_cons_zero] at first
    simp only [String.utf8EncodeChar_eq_cons_cons two, List.countP_cons, first,
      not_beginsCharacter_of_continuation]
    rfl
  · simp only [String.utf8EncodeChar_eq_cons_cons_cons three, List.getElem_cons_zero] at first
    simp only [String.utf8EncodeChar_eq_cons_cons_cons three, List.countP_cons, first,
      not_beginsCharacter_of_continuation]
    rfl
  · simp only [String.utf8EncodeChar_eq_cons_cons_cons_cons four, List.getElem_cons_zero] at first
    simp only [String.utf8EncodeChar_eq_cons_cons_cons_cons four, List.countP_cons, first,
      not_beginsCharacter_of_continuation]
    rfl

theorem countP_toUTF8 (text : String) :
    text.toUTF8.toList.countP beginsCharacter = text.length := by
  have encoded : text.toUTF8.toList = text.toList.flatMap String.utf8EncodeChar := by
    rw [toList_eq_toList_data, String.toUTF8_eq_toByteArray, ← String.utf8Encode_toList]
    exact List.toList_data_toByteArray
  rw [encoded, ← String.length_toList]
  induction text.toList with
  | nil => rfl
  | cons character later induction =>
      rw [List.flatMap_cons, List.countP_append, countP_utf8EncodeChar, induction,
        List.length_cons, Nat.add_comm]

theorem charactersBefore_append (text : String) (rest : ByteArray) :
    charactersBefore (text.toUTF8 ++ rest) text.toUTF8.size = text.length := by
  have front : (text.toUTF8 ++ rest).toList.take text.toUTF8.size = text.toUTF8.toList := by
    rw [toList_eq_toList_data, toList_eq_toList_data, ByteArray.toList_data_append]
    exact List.take_left
  rw [charactersBefore, front, countP_toUTF8]

theorem ofUtf8_toUTF8 (text : String) : ofUtf8 text.toUTF8 = text := by
  rw [ofUtf8, decodeUtf8_toUTF8]
  exact String.ofList_toList

end Stencil.Text
