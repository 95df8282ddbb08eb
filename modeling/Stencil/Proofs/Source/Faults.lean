import Mathlib.Data.List.Basic
import Stencil.Proofs.Source.Continuing

/-! # Where reading fails

Reading fails at the first character that it cannot go on with. Everything up to there is read the
same in front of other characters, so an error depends on no more of the source than that character
and, for a carriage return, the one behind it.
-/

namespace Stencil

/-! ## What an error says about its source -/

def Source.lineAt (source : List Char) (index : Nat) : Nat :=
  1 + (source.take index).count '\n'

def Source.columnAt (source : List Char) (index : Nat) : Nat :=
  1 + ((source.take index).rtakeWhile fun character => character ≠ '\n').length

open Source (lineAt columnAt)

namespace LexError

/-- What an error about a place of a source says is the case there. -/
inductive Describes (source : List Char) (index : Nat) : LexError → Prop
  | unexpectedCharacter {character : Char} (found : source[index]? = some character) :
      Describes source index
        (.unexpectedCharacter character (lineAt source index) (columnAt source index))
  | unexpectedEnd (ended : index = source.length) :
      Describes source index (.unexpectedEnd (lineAt source index) (columnAt source index))
  | loneCarriageReturn (found : source[index]? = some '\r')
      (lone : source[index + 1]? ≠ some '\n') :
      Describes source index (.loneCarriageReturn (lineAt source index) (columnAt source index))

theorem Describes.getElem?_eq {source : List Char} {index line column : Nat} {character : Char}
    (describes : (LexError.unexpectedCharacter character line column).Describes source index) :
    source[index]? = some character := by
  cases describes
  assumption

/-- Another source has all that an error at some place depends on: the same characters up to there
and one more. Where there is no more, the other source may go on in any way, unless the error says
that a carriage return is the last character. -/
def SharedBy (error : LexError) (source other : List Char) (index : Nat) : Prop :=
  other.take (index + 2) = source.take (index + 2) ∨
    source.length < index + 2 ∧ (∀ line column, error ≠ .loneCarriageReturn line column) ∧
      source <+: other

/-- An error is the first that there is in a source, and certain as soon as it can be seen. -/
structure Earliest (error : LexError) (source : String) (index : Nat) : Prop where
  describes : error.Describes source.toList index
  /-- The characters in front of it are read, or at most break off too early. -/
  before : ∀ earlier,
    (Source.tokenizeText (String.ofList (source.toList.take index))).value = .error earlier →
      ∃ line column, earlier = .unexpectedEnd line column
  settled : (∀ line column, error ≠ .unexpectedEnd line column) → ∀ other : String,
    error.SharedBy source.toList other.toList index →
      (Source.tokenizeText other).value = .error error

end LexError

namespace Source

open Lexeme

variable {mode last : Mode} {place : Place} {front stop other rest : List Char} {character : Char}
  {error : LexError}

/-! ## Where there is no lexeme -/

theorem lineBreak_eq_loneCarriageReturn_iff (breaks : character = '\n' ∨ character = '\r') :
    lineBreak mode character rest = .loneCarriageReturn ↔
      character = '\r' ∧ rest.head? ≠ some '\n' := by
  unfold lineBreak
  split
  · rename_i feed
    simp [feed]
  · rename_i noFeed
    have carriage := breaks.resolve_left noFeed
    split
    · simp
    · rename_i other
      refine iff_of_true rfl ⟨carriage, ?_⟩
      intro head
      rcases List.head?_eq_some_iff.mp head with ⟨later, rfl⟩
      exact other later rfl

theorem lineBreak_ne_unexpected (shown : Char) :
    lineBreak mode character rest ≠ .unexpected shown := by
  intro found
  unfold lineBreak at found
  split at found
  · cases found
  · split at found <;> cases found

theorem first_of_break (outside : mode ≠ .name) (breaks : character = '\n' ∨ character = '\r') :
    first mode character rest = lineBreak mode character rest := by
  cases mode with
  | text => rcases breaks with rfl | rfl <;> simp [first, firstOfText, opens_eq_false]
  | placeholder =>
      rcases breaks with rfl | rfl <;>
        simp [first, firstOfPlaceholder, isSpacing, closes_eq_false, opens_eq_false]
  | name => exact absurd rfl outside

theorem first_ne_loneCarriageReturn
    (unbroken : ¬(mode ≠ .name ∧ (character = '\n' ∨ character = '\r'))) :
    first mode character rest ≠ .loneCarriageReturn := by
  intro found
  have plain (outside : mode ≠ .name) :
      ¬(decide (character = '\n') || decide (character = '\r')) = true := by
    simpa [outside] using unbroken
  cases mode with
  | text =>
      change firstOfText character rest = _ at found
      rw [firstOfText, if_neg (plain (by decide))] at found
      split at found
      · cases found
      · split at found <;> cases found
  | placeholder =>
      change firstOfPlaceholder character rest = _ at found
      rw [firstOfPlaceholder, if_neg (plain (by decide))] at found
      dsimp only at found
      repeat' split at found
      all_goals cases found
  | name =>
      change (if _ then _ else _) = _ at found
      split at found <;> cases found

theorem first_eq_loneCarriageReturn_iff :
    first mode character rest = .loneCarriageReturn ↔
      mode ≠ .name ∧ character = '\r' ∧ rest.head? ≠ some '\n' := by
  by_cases breaks : mode ≠ .name ∧ (character = '\n' ∨ character = '\r')
  · rw [first_of_break breaks.1 breaks.2, lineBreak_eq_loneCarriageReturn_iff breaks.2,
      and_iff_right breaks.1]
  · exact iff_of_false (first_ne_loneCarriageReturn breaks)
      fun lone => breaks ⟨lone.1, .inr lone.2.1⟩

theorem firstOfText_ne_unexpected (shown : Char) :
    firstOfText character rest ≠ .unexpected shown := by
  intro found
  unfold firstOfText at found
  split at found
  · cases found
  · split at found
    · exact lineBreak_ne_unexpected shown found
    · split at found <;> cases found

theorem firstOfPlaceholder_eq_unexpected_iff {shown : Char} :
    firstOfPlaceholder character rest = .unexpected shown ↔
      shown = character ∧ Text.isUppercase character = false ∧ character ∉ punctuation := by
  constructor
  · intro found
    unfold firstOfPlaceholder at found
    split at found
    · dsimp only at found
      split at found <;> cases found
    · rename_i visible
      split at found
      · cases found
      · split at found
        · cases found
        · split at found
          · cases found
          · rename_i noDot
            split at found
            · exact absurd found (lineBreak_ne_unexpected shown)
            · rename_i unbroken
              split at found
              · cases found
              · rename_i noBrace
                split at found
                · cases found
                · rename_i small
                  cases found
                  refine ⟨rfl, Bool.eq_false_iff.mpr small, ?_⟩
                  simp_all [punctuation, isSpacing]
  · rintro ⟨rfl, small, plain⟩
    rw [firstOfPlaceholder_of_not_mem plain, if_neg (Bool.eq_false_iff.mp small)]

theorem first_eq_unexpected_iff {shown : Char} :
    first mode character rest = .unexpected shown ↔
      shown = character ∧ Text.isUppercase character = false ∧
        (mode = .name ∨ mode = .placeholder ∧ character ∉ punctuation) := by
  cases mode with
  | text => exact iff_of_false (firstOfText_ne_unexpected shown) (by simp)
  | placeholder =>
      rw [first, firstOfPlaceholder_eq_unexpected_iff]
      simp
  | name =>
      change (if _ then _ else _) = _ ↔ _
      split
      · rename_i upper
        simp [nameRun, upper]
      · rename_i small
        rw [Lexeme.unexpected.injEq, Bool.eq_false_iff, and_iff_left ⟨small, .inl rfl⟩]
        exact eq_comm

/-! ## Where reading stops -/

/-- In some mode and at some place, reading cannot go on in front of the rest of a source. -/
inductive Stuck : Mode → Place → List Char → LexError → Prop
  | ended {place : Place} : Stuck .name place [] (.unexpectedEnd place.line place.column)
  | lone {mode : Mode} {place : Place} {character : Char} {rest : List Char}
      (found : first mode character rest = .loneCarriageReturn) :
      Stuck mode place (character :: rest) (.loneCarriageReturn place.line place.column)
  | unexpected {mode : Mode} {place : Place} {character shown : Char} {rest : List Char}
      (found : first mode character rest = .unexpected shown) :
      Stuck mode place (character :: rest)
        (.unexpectedCharacter shown place.line place.column)

theorem Stuck.outcome_eq (stuck : Stuck mode place stop error) (read : List Token) :
    (cut mode place stop read).2 = .error error := by
  cases stuck with
  | ended => rw [cut, if_pos rfl]
  | lone found =>
      rw [cut]
      split <;> rename_i shown <;> rw [found] at shown <;> cases shown
  | unexpected found =>
      rw [cut]
      split <;> rename_i shown <;> rw [found] at shown <;> cases shown
      rfl

theorem Passes.exists_cut_eq (passes : Passes mode front stop last) (place : Place)
    (read : List Token) :
    ∃ tokens, cut mode place (front ++ stop) read = cut last (place.after front) stop tokens := by
  induction passes generalizing place read with
  | here mode stop => exact ⟨read, rfl⟩
  | on takes _ induction =>
      rw [Place.after_append, List.append_assoc]
      cases takes with
      | token found =>
          rw [(token_of_first found).2, cut_of_token found]
          exact induction _ _
      | skipped found =>
          rw [(skipped_of_first found).2, cut_of_skipped found]
          exact induction _ _

theorem exists_passes_of_outcome {read : List Token} {source : List Char}
    (failed : (cut mode place source read).2 = .error error) :
    ∃ front stop last, source = front ++ stop ∧ Passes mode front stop last ∧
      Stuck last (place.after front) stop error := by
  fun_induction cut mode place source read with
  | case1 mode place read =>
      split at failed
      · rename_i named
        subst named
        cases failed
        exact ⟨[], [], .name, rfl, .here _ _, .ended⟩
      · cases failed
  | case2 mode place read character rest kind raw behind next found induction =>
      rcases induction failed with ⟨front, stop, last, rfl, passes, stuck⟩
      refine ⟨raw ++ front, stop, last, ?_, .on (.token found) passes, ?_⟩
      · rw [← (token_of_first found).2, List.append_assoc]
      · rwa [Place.after_append]
  | case3 mode place read character rest raw behind found induction =>
      rcases induction failed with ⟨front, stop, last, rfl, passes, stuck⟩
      refine ⟨raw ++ front, stop, last, ?_, .on (.skipped found) passes, ?_⟩
      · rw [← (skipped_of_first found).2, List.append_assoc]
      · rwa [Place.after_append]
  | case4 mode place read character rest found =>
      cases failed
      exact ⟨[], character :: rest, mode, rfl, .here _ _, .lone found⟩
  | case5 mode place read character rest shown found =>
      cases failed
      exact ⟨[], character :: rest, mode, rfl, .here _ _, .unexpected found⟩

theorem value_tokenize_eq_error_iff_outcome {characters : List Char} :
    (tokenize characters).value = .error error ↔
      (cut .text .origin characters []).2 = .error error := by
  rw [tokenize]
  rcases cut .text .origin characters [] with ⟨read, earlier | place⟩
  · change Except.error earlier = _ ↔ Except.error earlier = _
    rw [Except.error.injEq, Except.error.injEq]
  · change Except.ok _ = _ ↔ Except.ok place = _
    simp

theorem value_tokenize_eq_error_iff {characters : List Char} :
    (tokenize characters).value = .error error ↔
      ∃ front stop last, characters = front ++ stop ∧ Passes .text front stop last ∧
        Stuck last (Place.origin.after front) stop error := by
  rw [value_tokenize_eq_error_iff_outcome]
  constructor
  · exact exists_passes_of_outcome
  · rintro ⟨front, stop, last, rfl, passes, stuck⟩
    rcases passes.exists_cut_eq .origin [] with ⟨tokens, same⟩
    rw [same]
    exact stuck.outcome_eq tokens

theorem eq_unexpectedEnd_of_passes {characters : List Char}
    (passes : Passes .text characters [] last)
    (failed : (tokenize characters).value = .error error) :
    ∃ line column, error = .unexpectedEnd line column := by
  rcases passes.exists_cut_eq .origin [] with ⟨tokens, same⟩
  rw [value_tokenize_eq_error_iff_outcome, ← List.append_nil characters, same, cut] at failed
  split at failed
  · cases failed
    exact ⟨_, _, rfl⟩
  · cases failed

/-! ## What an error depends on -/

theorem exists_of_sharedBy
    (shared : error.SharedBy (front ++ character :: rest) other front.length) :
    ∃ later, other = front ++ character :: later ∧
      ∀ line column, error = .loneCarriageReturn line column → later.head? = rest.head? := by
  rcases shared with agrees | ⟨_, noReturn, extra, rfl⟩
  · rw [List.take_length_add_append] at agrees
    refine ⟨rest.take 1 ++ other.drop (front.length + 2), ?_, fun _ _ _ => ?_⟩
    · have whole := List.take_append_drop (front.length + 2) other
      rw [agrees, List.append_assoc] at whole
      exact whole.symm
    · cases rest with
      -- A source that ends here agrees with no longer one on two characters.
      | nil =>
          have short := congrArg List.length agrees
          simp only [List.length_take, List.length_append, List.length_cons, List.length_nil,
            List.take_succ_cons, List.take_nil] at short
          rw [List.drop_eq_nil_of_le (by omega)]
          rfl
      | cons second later => rfl
  · refine ⟨rest ++ extra, by simp, fun line column lone => ?_⟩
    exact absurd lone (noReturn line column)

theorem Stuck.congr (stuck : Stuck mode place (character :: rest) error) {later : List Char}
    (lone : ∀ line column, error = .loneCarriageReturn line column → later.head? = rest.head?) :
    Stuck mode place (character :: later) error ∧
      EndsAlike mode (character :: rest) (character :: later) := by
  cases stuck with
  | lone found =>
      rcases first_eq_loneCarriageReturn_iff.mp found with ⟨outside, rfl, noFeed⟩
      refine ⟨.lone (first_eq_loneCarriageReturn_iff.mpr ⟨outside, rfl, ?_⟩),
        fun _ head => head, fun _ _ => rfl, fun _ _ => closes_eq_false (by decide) later⟩
      rwa [lone _ _ rfl]
  | unexpected found =>
      rcases first_eq_unexpected_iff.mp found with ⟨rfl, small, inside⟩
      refine ⟨.unexpected (first_eq_unexpected_iff.mpr ⟨rfl, small, inside⟩),
        fun _ head => head, fun text => ?_, fun placeholder _ => ?_⟩
      · subst text
        simp at inside
      · subst placeholder
        have plain := inside.resolve_left (by simp)
        exact closes_eq_false (fun closing => plain.2 (by simp [closing, punctuation])) later

theorem Stuck.describes (stuck : Stuck mode (Place.origin.after front) stop error) :
    error.Describes (front ++ stop) front.length := by
  have reached := Place.after_origin front
  have line : (Place.origin.after front).line = lineAt (front ++ stop) front.length := by
    rw [lineAt, List.take_left, reached]
  have column : (Place.origin.after front).column = columnAt (front ++ stop) front.length := by
    rw [columnAt, List.take_left, reached]
  cases stuck with
  | ended =>
      rw [line, column]
      exact .unexpectedEnd (by simp)
  | @lone _ _ character rest found =>
      rcases first_eq_loneCarriageReturn_iff.mp found with ⟨_, rfl, noFeed⟩
      rw [line, column]
      refine .loneCarriageReturn (by simp) ?_
      rw [List.getElem?_append_right (Nat.le_succ _)]
      simpa [List.head?_eq_getElem?] using noFeed
  | @unexpected _ _ character _ rest found =>
      rcases first_eq_unexpected_iff.mp found with ⟨rfl, _⟩
      rw [line, column]
      exact .unexpectedCharacter (by simp)

/-- An error is about the first place at which reading cannot go on, and depends on no more of the
source than what shows that. -/
theorem tokenizeText_error {source : String}
    (failed : (tokenizeText source).value = .error error) :
    ∃ index, error.Earliest source index := by
  rcases value_tokenize_eq_error_iff.mp failed with ⟨front, stop, last, whole, passes, stuck⟩
  refine ⟨front.length, ?_, ?_, ?_⟩
  · rw [whole]
    exact stuck.describes
  · intro earlier failed
    rw [whole, List.take_left, tokenizeText, String.toList_ofList] at failed
    exact eq_unexpectedEnd_of_passes passes.truncate failed
  · intro unended other shared
    match stop, stuck with
    | [], .ended => exact absurd rfl (unended _ _)
    | character :: rest, stuck =>
        rw [whole] at shared
        rcases exists_of_sharedBy shared with ⟨later, same, lone⟩
        rcases stuck.congr lone with ⟨stuck, alike⟩
        exact value_tokenize_eq_error_iff.mpr
          ⟨front, character :: later, last, same, passes.replace alike rfl, stuck⟩

theorem tokenizeText_error_unexpected :
    (tokenizeText "é\n\x7b\x7b .A  -x").value = .error (.unexpectedCharacter '-' 2 8) ∧
      (LexError.unexpectedCharacter '-' 2 8).Earliest "é\n\x7b\x7b .A  -x" 9 ∧
      (tokenizeText "é\n\x7b\x7b .A  -xyz\r").value = .error (.unexpectedCharacter '-' 2 8) := by
  have failed : (tokenizeText "é\n\x7b\x7b .A  -x").value =
      .error (.unexpectedCharacter '-' 2 8) := by decide +kernel
  rcases tokenizeText_error failed with ⟨index, earliest⟩
  have place : index = 9 := by
    have only : ∀ index < "é\n\x7b\x7b .A  -x".toList.length,
        "é\n\x7b\x7b .A  -x".toList[index]? = some '-' → index = 9 := by decide +kernel
    have found := earliest.describes.getElem?_eq
    exact only index (List.getElem?_eq_some_iff.mp found).1 found
  subst place
  exact ⟨failed, earliest, earliest.settled (by simp) _ (.inl (by decide +kernel))⟩

end Source

end Stencil
