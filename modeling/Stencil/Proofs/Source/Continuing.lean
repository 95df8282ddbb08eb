import Stencil.Proofs.Source.LineBreaks
import Stencil.Proofs.Source.Places

/-! # Lexemes in front of other sources

How far a lexeme reaches depends on what comes behind it, but only on the next character or two.
The same lexemes are therefore cut off in front of other characters, if those begin in the same way
or if the source ends there.
-/

namespace Stencil.Source

open Lexeme

/-! ## What comes behind a lexeme -/

/-- A lexeme that ends in front of certain characters ends in front of others, too. Which of them
matter is up to the mode behind the lexeme: only literal text ends in front of opening braces, and
only the blanks of a placeholder go on with closing braces. -/
structure EndsAlike (mode : Mode) (behind other : List Char) : Prop where
  head : ∀ character ∈ other.head?, behind.head? = some character
  text : mode = .text → endsText behind = true → endsText other = true
  unclosed : mode = .placeholder → closes behind = false → closes other = false

variable {mode next last : Mode} {behind other front stop raw run : List Char} {character : Char}

theorem EndsAlike.stops (alike : EndsAlike mode behind other) {test : Char → Bool}
    (stops : ∀ character ∈ behind.head?, test character = false) :
    ∀ character ∈ other.head?, test character = false :=
  fun character head => stops character (alike.head character head)

theorem EndsAlike.longest_spacing (alike : EndsAlike mode behind other)
    (longest : Longest Spacing (run ++ behind) run) : Longest Spacing (run ++ other) run := by
  rw [longest_spacing_iff] at longest ⊢
  exact ⟨longest.1, alike.stops longest.2⟩

theorem EndsAlike.longest_name (alike : EndsAlike mode behind other)
    (longest : Longest IsName (run ++ behind) run) : Longest IsName (run ++ other) run := by
  rw [longest_name_iff] at longest ⊢
  exact ⟨longest.1, alike.stops longest.2⟩

theorem EndsAlike.not_opens_cons (alike : EndsAlike mode behind other) (first : Char)
    (unopened : opens (first :: behind) = false) : opens (first :: other) = false := by
  cases other with
  | nil => rfl
  | cons second later =>
      rcases List.head?_eq_some_iff.mp (alike.head second rfl) with ⟨rest, rfl⟩
      exact unopened

theorem EndsAlike.not_closes_cons (alike : EndsAlike mode behind other) (first : Char)
    (unclosed : closes (first :: behind) = false) : closes (first :: other) = false := by
  cases other with
  | nil => rfl
  | cons second later =>
      rcases List.head?_eq_some_iff.mp (alike.head second rfl) with ⟨rest, rfl⟩
      exact unclosed

theorem EndsAlike.endsText_append (alike : EndsAlike mode behind other) {inner : List Char}
    (nonempty : inner ≠ []) (goesOn : endsText (inner ++ behind) = false) :
    endsText (inner ++ other) = false := by
  match inner, nonempty with
  | [first], _ =>
      simp only [List.singleton_append, endsText, Bool.or_eq_false_iff] at goesOn ⊢
      exact ⟨goesOn.1, alike.not_opens_cons first goesOn.2⟩
  | first :: second :: later, _ => exact goesOn

theorem EndsAlike.longest_literal (alike : EndsAlike .text behind other)
    (longest : Longest (Literal (run ++ behind)) (run ++ behind) run) :
    Longest (Literal (run ++ other)) (run ++ other) run := by
  rw [longest_literal_iff] at longest ⊢
  refine ⟨?_, alike.text rfl longest.2⟩
  intro count inside
  have goesOn := longest.1 count inside
  have inner : run.drop count ≠ [] := by simpa using inside
  rw [List.drop_append_of_le_length (Nat.le_of_lt inside)] at goesOn ⊢
  exact alike.endsText_append inner goesOn

/-! ## One lexeme -/

theorem closes_cons (first : Char) (rest : List Char) :
    closes (first :: rest) =
      (decide (first = '\x7d') && (rest.head?.map (decide <| · = '\x7d')).getD false) := by
  cases rest <;> simp [closes]

theorem closes_eq_false {first : Char} (different : first ≠ '\x7d') (rest : List Char) :
    closes (first :: rest) = false := by
  simp [closes_cons, different]

/-- The first lexeme of a source takes some characters off it, as a token or as blanks that are
none. -/
inductive Takes : Mode → List Char → List Char → Mode → Prop
  | token {mode next : Mode} {character : Char} {rest raw behind : List Char} {kind : Symbol}
      (found : first mode character rest = .token kind raw behind next) : Takes mode raw behind next
  | skipped {mode : Mode} {character : Char} {rest raw behind : List Char}
      (found : first mode character rest = .skipped raw behind) : Takes mode raw behind mode

theorem Takes.ne_nil (takes : Takes mode raw behind next) : raw ≠ [] := by
  cases takes with
  | token found => exact (token_of_first found).1
  | skipped found => exact (skipped_of_first found).1

theorem first_of_brace {brace : Char} (single : brace = '\x7b' ∨ brace = '\x7d')
    (unclosed : closes (brace :: behind) = false) (unopened : opens (brace :: behind) = false) :
    first .placeholder brace behind = .token .text [brace] behind .placeholder := by
  rcases single with rfl | rfl <;>
    simp [first, firstOfPlaceholder, isSpacing, unclosed, unopened]

theorem single_of_first {brace : Char} (single : brace = '\x7b' ∨ brace = '\x7d')
    (found : first .placeholder brace behind = .token .text [brace] behind next) :
    closes (brace :: behind) = false ∧ opens (brace :: behind) = false := by
  have visible : isSpacing brace = false := by rcases single with rfl | rfl <;> rfl
  change firstOfPlaceholder brace behind = _ at found
  rw [firstOfPlaceholder, visible] at found
  constructor
  · rw [Bool.eq_false_iff]
    intro closed
    rw [if_neg Bool.false_ne_true, if_pos closed] at found
    cases found
  · rw [Bool.eq_false_iff]
    intro opened
    rw [if_neg Bool.false_ne_true] at found
    split at found <;> cases found

theorem exists_first_of_opening (longest : Longest Spacing (run ++ behind) run) :
    ∃ character rest, first .placeholder character rest =
      .token .openBraces ('\x7b' :: '\x7b' :: run) behind .placeholder := by
  rcases takeWhile_eq_of_longest longest with ⟨taken, left⟩
  refine ⟨'\x7b', '\x7b' :: (run ++ behind), ?_⟩
  simp [first, firstOfPlaceholder, isSpacing, closes, opens, opening, taken, left]

theorem exists_first_of_newline (breaks : raw = ['\n'] ∨ raw = ['\r', '\n'])
    (behind : List Char) : ∃ character rest, first .placeholder character rest =
      .token .newline raw behind .placeholder := by
  rcases breaks with rfl | rfl
  · refine ⟨'\n', behind, ?_⟩
    cases behind <;> simp [first, firstOfPlaceholder, isSpacing, closes, opens, lineBreak]
  · refine ⟨'\r', '\n' :: behind, ?_⟩
    simp [first, firstOfPlaceholder, isSpacing, closes, opens, lineBreak]

def punctuation : List Char :=
  [' ', '\t', '\n', '\r', '.', '\x7b', '\x7d']

theorem not_mem_punctuation (upper : Text.isUppercase character = true) :
    character ∉ punctuation := by
  intro member
  simp only [punctuation, List.mem_cons, List.not_mem_nil, or_false] at member
  rcases member with rfl | rfl | rfl | rfl | rfl | rfl | rfl <;>
    exact absurd upper (by decide +kernel)

theorem firstOfPlaceholder_of_not_mem (plain : character ∉ punctuation) (rest : List Char) :
    firstOfPlaceholder character rest =
      if Text.isUppercase character then nameRun character rest else .unexpected character := by
  simp only [punctuation, List.mem_cons, List.not_mem_nil, or_false, not_or] at plain
  rcases plain with ⟨space, tab, feed, carriage, dot, opening, closing⟩
  simp [firstOfPlaceholder, isSpacing, closes_eq_false closing, opens_eq_false opening,
    space, tab, feed, carriage, dot, opening, closing]

theorem exists_first_of_name (longest : Longest IsName (run ++ behind) run) :
    ∃ character rest, first .placeholder character rest =
      .token .name run behind .placeholder := by
  rcases first_of_name longest with ⟨character, rest, whole, named⟩
  rcases longest.exists_cons with ⟨_, _, same, upper, _⟩
  rcases List.cons.inj (whole.symm.trans same) with ⟨rfl, rfl⟩
  refine ⟨character, rest, ?_⟩
  rw [← named]
  exact firstOfPlaceholder_of_not_mem (not_mem_punctuation upper) rest

theorem exists_first_of_skipped (nonempty : raw ≠ [])
    (longest : Longest Spacing (raw ++ behind) raw) (unclosed : closes behind = false) :
    ∃ character rest, first .placeholder character rest = .skipped raw behind := by
  rcases List.exists_cons_of_ne_nil nonempty with ⟨character, later, rfl⟩
  rcases takeWhile_eq_of_longest longest with ⟨taken, left⟩
  have spacing := (isSpacing_iff character).mpr (longest.holds character List.mem_cons_self)
  rw [List.cons_append, List.takeWhile_cons_of_pos spacing] at taken
  rw [List.cons_append, List.dropWhile_cons_of_pos spacing] at left
  refine ⟨character, later ++ behind, ?_⟩
  change firstOfPlaceholder character (later ++ behind) = _
  rw [firstOfPlaceholder, if_pos spacing]
  dsimp only
  rw [left, unclosed, taken]
  rfl

theorem Takes.congr (takes : Takes mode raw behind next) (alike : EndsAlike next behind other) :
    Takes mode raw other next := by
  cases takes with
  | @token _ character rest _ _ kind found =>
      cases mode with
      | text =>
          have shows := ofText_of_first found
          have shown : ∃ source, OfText source kind raw other next := by
            generalize character :: rest = source at shows
            cases shows with
            | opening longest => exact ⟨_, .opening (alike.longest_spacing longest)⟩
            | newline breaks => exact ⟨_, .newline breaks⟩
            | blank nonempty longest =>
                exact ⟨_, .blank nonempty (alike.longest_spacing longest)⟩
            | text nonempty longest => exact ⟨_, .text nonempty (alike.longest_literal longest)⟩
          rcases shown with ⟨source, shown⟩
          rcases first_of_ofText shown with ⟨_, _, _, found⟩
          exact .token found
      | placeholder =>
          have shows := ofPlaceholder_of_first found
          generalize whole : character :: rest = source at shows
          -- A lexeme is put together again from its parts. Only a single brace is no run, and has
          -- to be kept from joining another one.
          cases shows with
          | closing blank =>
              rcases first_of_closing blank other with ⟨_, _, _, found⟩
              exact .token found
          | opening longest =>
              rcases exists_first_of_opening (alike.longest_spacing longest) with ⟨_, _, found⟩
              exact .token found
          | dot => exact .token (first_of_dot other)
          | newline breaks =>
              rcases exists_first_of_newline breaks other with ⟨_, _, found⟩
              exact .token found
          | brace single =>
              rcases List.cons.inj whole with ⟨rfl, rfl⟩
              rcases single_of_first single found with ⟨unclosed, unopened⟩
              exact .token (first_of_brace single (alike.not_closes_cons _ unclosed)
                (alike.not_opens_cons _ unopened))
          | name longest =>
              rcases exists_first_of_name (alike.longest_name longest) with ⟨_, _, found⟩
              exact .token found
      | name =>
          rcases ofName_of_first found with ⟨rfl, rfl, _, longest⟩
          rcases first_of_name (alike.longest_name longest) with ⟨_, _, _, found⟩
          exact .token found
  | skipped found =>
      rcases of_skipped found with ⟨rfl, _, visible, unclosed⟩
      have longest := longest_spacing_iff.mpr ⟨spacing_of_skipped found, visible⟩
      obtain ⟨_, _, found⟩ := exists_first_of_skipped (skipped_of_first found).1
        (alike.longest_spacing longest) (alike.unclosed rfl unclosed)
      exact .skipped found

/-! ## Many lexemes -/

/-- Reading gets through a beginning of a source, lexeme by lexeme, and stops in some mode. -/
inductive Passes : Mode → List Char → List Char → Mode → Prop
  | here (mode : Mode) (stop : List Char) : Passes mode [] stop mode
  | on {mode next last : Mode} {raw front stop : List Char}
      (takes : Takes mode raw (front ++ stop) next) (passes : Passes next front stop last) :
      Passes mode (raw ++ front) stop last

theorem Passes.mode_eq (passes : Passes mode [] stop last) : mode = last := by
  generalize empty : [] = front at passes
  cases passes with
  | here => rfl
  | on takes => exact absurd (List.append_eq_nil_iff.mp empty.symm).1 takes.ne_nil

theorem Passes.congr (passes : Passes mode front stop last)
    (alike : ∀ next front, Passes next front stop last →
      EndsAlike next (front ++ stop) (front ++ other)) : Passes mode front other last := by
  induction passes with
  | here mode stop => exact .here mode other
  | on takes passes induction => exact .on (takes.congr (alike _ _ passes)) (induction alike)

/-! ## The source ends early -/

theorem Takes.opens_raw (takes : Takes mode raw behind next)
    (opened : opens (raw ++ behind) = true) : opens raw = true := by
  have braces : ∀ inside, first mode '\x7b' ('\x7b' :: inside) =
      opening ('\x7b' :: '\x7b' :: inside) ∨
        first mode '\x7b' ('\x7b' :: inside) = .unexpected '\x7b' := by
    intro inside
    cases mode with
    | text => exact .inl rfl
    | placeholder => exact .inl rfl
    | name =>
        have small : Text.isUppercase '\x7b' = false := by decide +kernel
        exact .inr (by rw [first, if_neg (Bool.eq_false_iff.mp small)])
  rcases (opens_iff _).mp opened with ⟨inside, split⟩
  cases takes with
  | token found =>
      rw [(token_of_first found).2] at split
      cases split
      rcases braces inside with shown | shown
      · cases shown.symm.trans found
        rfl
      · cases shown.symm.trans found
  | skipped found =>
      rw [(skipped_of_first found).2] at split
      cases split
      rcases braces inside with shown | shown <;> cases shown.symm.trans found

theorem opens_append_left (opened : opens front = true) (behind : List Char) :
    opens (front ++ behind) = true :=
  (opens_iff _).mpr (((opens_iff _).mp opened).trans (List.prefix_append _ _))

theorem closes_of_append (unclosed : closes (front ++ behind) = false) : closes front = false := by
  rw [Bool.eq_false_iff] at unclosed ⊢
  intro closed
  rcases (closes_iff _).mp closed with ⟨later, rfl⟩
  exact unclosed rfl

theorem endsText_of_opens (opened : opens front = true) : endsText front = true := by
  rcases (opens_iff _).mp opened with ⟨later, rfl⟩
  rfl

theorem Passes.opens_front (passes : Passes mode front stop last) (nonempty : front ≠ [])
    (opened : opens (front ++ stop) = true) : opens front = true := by
  cases passes with
  | here => exact absurd rfl nonempty
  | on takes =>
      rw [List.append_assoc] at opened
      exact opens_append_left (takes.opens_raw opened) _

theorem Passes.endsAlike_end (passes : Passes mode front stop last) :
    EndsAlike mode (front ++ stop) front := by
  match front, passes with
  | [], _ => exact ⟨nofun, fun _ _ => rfl, fun _ _ => rfl⟩
  | first :: later, passes =>
      refine ⟨fun _ head => head, fun _ ends => ?_, fun _ => closes_of_append⟩
      rw [List.cons_append, endsText, Bool.or_eq_true] at ends
      rcases ends with stops | opened
      · rw [endsText, stops, Bool.true_or]
      · exact endsText_of_opens (passes.opens_front (List.cons_ne_nil _ _) opened)

theorem Passes.truncate (passes : Passes mode front stop last) : Passes mode front [] last := by
  apply passes.congr
  intro next front passes
  rw [List.append_nil]
  exact passes.endsAlike_end

/-! ## The source goes on in another way -/

theorem EndsAlike.of_head?_eq (same : other.head? = stop.head?) (nonempty : front ≠ []) :
    EndsAlike mode (front ++ stop) (front ++ other) := by
  match front, nonempty with
  | [only], _ =>
      refine ⟨fun _ head => head, fun _ ends => ?_, fun _ unclosed => ?_⟩
      · rw [List.singleton_append, endsText, opens_cons] at ends ⊢
        rwa [same]
      · rw [List.singleton_append, closes_cons] at unclosed ⊢
        rwa [same]
  | first :: second :: later, _ =>
      exact ⟨fun _ head => head, fun _ ends => ends, fun _ unclosed => unclosed⟩

theorem Passes.replace (passes : Passes mode front stop last) (alike : EndsAlike last stop other)
    (same : other.head? = stop.head?) : Passes mode front other last := by
  apply passes.congr
  intro next front passes
  -- Only the last lexeme reaches as far as the characters that differ.
  by_cases empty : front = []
  · subst empty
    exact passes.mode_eq ▸ alike
  · exact .of_head?_eq same empty

end Stencil.Source
