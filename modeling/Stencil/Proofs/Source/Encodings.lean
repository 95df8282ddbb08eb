import Mathlib.Data.List.Basic
import Stencil.Proofs.Text.Utf8
import Stencil.Source.Tokens

/-! # Sources given as bytes

The bytes of a text are read as the text. Bytes that are no text are refused before anything is cut
off, at the first character that they do not hold completely.
-/

namespace Stencil.Source

/-- A text is read the same from its bytes. With bytes behind it that are no character, it is refused
for those, whatever is wrong with the text itself. The error counts characters, of which there are as
many as bytes that begin one. -/
theorem tokenizeBytes_toUTF8 (text : String) :
    tokenizeBytes text.toUTF8 = tokenizeText text ∧
      (∀ rest : ByteArray, rest ≠ .empty → Text.Undecodable rest →
        tokenizeBytes (text.toUTF8 ++ rest) = throw (.invalidEncoding (text.length + 1))) ∧
      text.toUTF8.toList.countP Text.beginsCharacter = text.length := by
  refine ⟨?_, ?_, Text.countP_toUTF8 text⟩
  · rw [tokenizeBytes, Text.decodeUtf8_toUTF8]
    rfl
  · intro rest nonempty undecodable
    rw [tokenizeBytes, Text.decodeUtf8_append_of_undecodable text nonempty undecodable]
    dsimp only
    rw [Text.charactersBefore_append]

theorem tokenizeBytes_toUTF8_surrogate :
    let surrogate : ByteArray := ⟨#[0xed, 0xa0, 0x80]⟩
    (tokenizeText "é\rb").value = .error (.loneCarriageReturn 1 2) ∧ surrogate ≠ .empty ∧
      Text.Undecodable surrogate ∧
      tokenizeBytes ("é\rb".toUTF8 ++ surrogate) = throw (.invalidEncoding 4) := by
  have nonempty : (⟨#[0xed, 0xa0, 0x80]⟩ : ByteArray) ≠ .empty := by decide
  have undecodable : Text.Undecodable ⟨#[0xed, 0xa0, 0x80]⟩ :=
    (Text.undecodable_iff _).mpr (by decide +kernel)
  exact ⟨by decide +kernel, nonempty, undecodable,
    (tokenizeBytes_toUTF8 "é\rb").2.1 _ nonempty undecodable⟩

end Stencil.Source
