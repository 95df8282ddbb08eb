import Stencil.Text.Quoted

/-! # What a quotation tells

A quotation shows which text it quotes. Each character is written in a form that ends by itself: a
visible character is its own form, and behind a backslash one more letter tells how the form goes on.
-/

namespace Stencil.Text

theorem append_cons_inj {stop : Char} {left right rest rest' : List Char} (leftFree : stop ∉ left)
    (rightFree : stop ∉ right) (same : left ++ stop :: rest = right ++ stop :: rest') :
    left = right ∧ rest = rest' := by
  induction left generalizing right with
  | nil =>
      cases right with
      | nil => exact ⟨rfl, (List.cons.inj same).2⟩
      | cons first later =>
          have stops : stop = first := (List.cons.inj same).1
          exact absurd (stops ▸ List.mem_cons_self) rightFree
  | cons first later induction =>
      cases right with
      | nil =>
          have stops : first = stop := (List.cons.inj same).1
          exact absurd (stops ▸ List.mem_cons_self) leftFree
      | cons first' later' =>
          rcases List.cons.inj same with ⟨head, tail⟩
          have equal := induction (List.not_mem_of_not_mem_cons leftFree)
            (List.not_mem_of_not_mem_cons rightFree) tail
          exact ⟨List.cons_eq_cons.mpr ⟨head, equal.1⟩, equal.2⟩

/-! ## Hexadecimal digits -/

theorem digitChar_inj {left right : Nat} (leftDigit : left < 16) (rightDigit : right < 16)
    (same : left.digitChar = right.digitChar) : left = right := by
  have apart : ∀ left < 16, ∀ right < 16, Nat.digitChar left = Nat.digitChar right →
      left = right := by decide
  exact apart left leftDigit right rightDigit same

theorem toDigits_inj {left right : Nat} (same : Nat.toDigits 16 left = Nat.toDigits 16 right) :
    left = right := by
  induction left using Nat.strongRecOn generalizing right with
  | ind left induction =>
  rw [Nat.toDigits_eq_if (by decide), Nat.toDigits_eq_if (n := right) (by decide)] at same
  split at same <;> split at same
  · rename_i leftDigit rightDigit
    exact digitChar_inj leftDigit rightDigit (List.singleton_inj.mp same)
  · simp [List.cons_eq_append_iff] at same
  · simp [List.append_eq_cons_iff] at same
  · rcases List.append_inj' same rfl with ⟨front, last⟩
    have quotients := induction (left / 16) (by omega) front
    have remainders := digitChar_inj (Nat.mod_lt left (by decide)) (Nat.mod_lt right (by decide))
      (List.singleton_inj.mp last)
    omega

theorem exists_digitChar_of_mem_toDigits {number : Nat} {character : Char}
    (member : character ∈ Nat.toDigits 16 number) : ∃ digit < 16, character = digit.digitChar := by
  induction number using Nat.strongRecOn with
  | ind number induction =>
  rw [Nat.toDigits_eq_if (by decide)] at member
  split at member
  · rename_i single
    exact ⟨number, single, List.mem_singleton.mp member⟩
  · rcases List.mem_append.mp member with front | last
    · exact induction (number / 16) (by omega) front
    · exact ⟨number % 16, Nat.mod_lt number (by decide), List.mem_singleton.mp last⟩

theorem not_mem_toDigits {number : Nat} {character : Char}
    (other : ∀ digit < 16, character ≠ Nat.digitChar digit) :
    character ∉ Nat.toDigits 16 number := by
  intro member
  rcases exists_digitChar_of_mem_toDigits member with ⟨digit, bound, same⟩
  exact other digit bound same

/-! ## Single characters -/

def shortEscapes (quote : Quote) : List (Char × Char) :=
  [('0', '\x00'), ('t', '\t'), ('r', '\r'), ('n', '\n'), ('\\', '\\'), (quote.mark, quote.mark)]

theorem lookup_shortEscapes_u (quote : Quote) : (shortEscapes quote).lookup 'u' = none := by
  cases quote <;> rfl

theorem lookup_shortEscapes_lineFeed (quote : Quote) :
    (shortEscapes quote).lookup '\n' = none := by
  cases quote <;> rfl

inductive Escaped (quote : Quote) : Char → List Char → Prop
  | plain {character : Char} (unescaped : character ≠ '\\') (level : character ≠ '\n') :
      Escaped quote character [character]
  | short {letter character : Char}
      (listed : (shortEscapes quote).lookup letter = some character) :
      Escaped quote character ['\\', letter]
  | code {character : Char} : Escaped quote character (codePointEscape character)

theorem escaped_escape (quote : Quote) (character : Char) :
    Escaped quote character (escape quote character) := by
  fun_cases escape quote character with
  | case1 null => exact .short (by rw [null]; cases quote <;> rfl)
  | case2 _ tab => exact .short (by rw [tab]; cases quote <;> rfl)
  | case3 _ _ carriage => exact .short (by rw [carriage]; cases quote <;> rfl)
  | case4 _ _ _ feed => exact .short (by rw [feed]; cases quote <;> rfl)
  | case5 _ _ _ _ backslash => exact .short (by rw [backslash]; cases quote <;> rfl)
  | case6 _ _ _ _ _ mark => exact .short (by rw [mark]; cases quote <;> rfl)
  | case7 _ _ _ level unescaped => exact .plain unescaped level
  | case8 => exact .code

/-- The form tells the character, and where the form ends. -/
theorem Escaped.append_inj {quote : Quote} {left right : Char} {form form' rest rest' : List Char}
    (escaped : Escaped quote left form) (escaped' : Escaped quote right form')
    (same : form ++ rest = form' ++ rest') : left = right ∧ rest = rest' := by
  cases escaped with
  | plain unescaped =>
      cases escaped' with
      | plain => exact List.cons.inj same
      | short => exact absurd (List.cons.inj same).1 unescaped
      | code => exact absurd (List.cons.inj same).1 unescaped
  | @short letter _ listed =>
      cases escaped' with
      | plain unescaped' => exact absurd (List.cons.inj same).1.symm unescaped'
      | short listed' =>
          rcases List.cons.inj (List.cons.inj same).2 with ⟨letters, tail⟩
          rw [letters, listed'] at listed
          exact ⟨(Option.some.inj listed).symm, tail⟩
      | code =>
          have letters : letter = 'u' := (List.cons.inj (List.cons.inj same).2).1
          rw [letters, lookup_shortEscapes_u] at listed
          cases listed
  | code =>
      cases escaped' with
      | plain unescaped' => exact absurd (List.cons.inj same).1.symm unescaped'
      | @short letter _ listed' =>
          have letters : letter = 'u' := (List.cons.inj (List.cons.inj same).2).1.symm
          rw [letters, lookup_shortEscapes_u] at listed'
          cases listed'
      | code =>
          simp only [codePointEscape, List.cons_append, List.append_assoc, List.nil_append,
            List.cons.injEq, true_and] at same
          have digits := append_cons_inj (not_mem_toDigits (by decide))
            (not_mem_toDigits (by decide)) same
          exact ⟨Char.toNat_inj.mp (toDigits_inj digits.1), digits.2⟩

theorem Escaped.lineFeed_not_mem {quote : Quote} {character : Char} {form : List Char}
    (escaped : Escaped quote character form) : '\n' ∉ form := by
  cases escaped with
  | plain _ level => exact List.not_mem_cons_of_ne_of_not_mem level.symm List.not_mem_nil
  | @short letter _ listed =>
      intro member
      have letters : '\n' = letter := by simpa using member
      rw [← letters, lookup_shortEscapes_lineFeed] at listed
      cases listed
  | code =>
      have free : '\n' ∉ Nat.toDigits 16 character.toNat := not_mem_toDigits (by decide)
      simp [codePointEscape, free]

/-! ## Whole texts -/

theorem Escaped.ne_nil {quote : Quote} {character : Char} {form : List Char}
    (escaped : Escaped quote character form) : form ≠ [] := by
  cases escaped <;> exact List.cons_ne_nil _ _

theorem flatMap_escape_inj {quote : Quote} {left right : List Char}
    (same : left.flatMap (escape quote) = right.flatMap (escape quote)) : left = right := by
  induction left generalizing right with
  | nil =>
      cases right with
      | nil => rfl
      | cons first later =>
          have empty := (List.append_eq_nil_iff.mp same.symm).1
          exact absurd empty (escaped_escape quote first).ne_nil
  | cons first later induction =>
      cases right with
      | nil =>
          have empty := (List.append_eq_nil_iff.mp same).1
          exact absurd empty (escaped_escape quote first).ne_nil
      | cons first' later' =>
          rcases (escaped_escape quote first).append_inj (escaped_escape quote first') same with
            ⟨head, tail⟩
          rw [head, induction tail]

theorem toList_quoteText (text : String) :
    (quoteText text).toList =
      Quote.double.mark :: (text.toList.flatMap (escape .double) ++ [Quote.double.mark]) :=
  String.toList_ofList

theorem quoteText_inj {left right : String} (same : quoteText left = quoteText right) :
    left = right := by
  have quoted := congrArg String.toList same
  rw [toList_quoteText, toList_quoteText, List.cons.injEq] at quoted
  have inner := List.append_cancel_right quoted.2
  exact String.toList_inj.mp (flatMap_escape_inj inner)

theorem append_quoteText_inj {front front' rest rest' : List Char} {left right : String}
    (free : '"' ∉ front) (free' : '"' ∉ front')
    (same : front ++ ((quoteText left).toList ++ rest) =
      front' ++ ((quoteText right).toList ++ rest')) :
    front = front' ∧ (quoteText left).toList ++ rest = (quoteText right).toList ++ rest' := by
  rw [toList_quoteText, toList_quoteText, List.cons_append, List.cons_append] at same ⊢
  rcases append_cons_inj free free' same with ⟨fronts, rests⟩
  exact ⟨fronts, congrArg (List.cons _) rests⟩

theorem lineFeed_not_mem_quoteText (text : String) : '\n' ∉ (quoteText text).toList := by
  have level : '\n' ∉ text.toList.flatMap (escape .double) := by
    intro member
    rcases List.mem_flatMap.mp member with ⟨character, _, within⟩
    exact (escaped_escape .double character).lineFeed_not_mem within
  rw [toList_quoteText]
  simp [level, Quote.mark]

end Stencil.Text
