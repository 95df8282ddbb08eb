import Stencil.Proofs.Source.Runs

/-! # Which lexeme comes first

For the tokens of a well-formed template: what a source has to begin with for them to come first.
-/

namespace Stencil.Source

open Stencil.Lexeme

theorem opens_eq_false {first : Char} (different : first ≠ '\x7b') (rest : List Char) :
    opens (first :: rest) = false := by
  cases rest <;> simp [opens, different]

theorem head?_dropWhile (source : List Char) :
    ∀ character ∈ (source.dropWhile isSpacing).head?, isSpacing character = false := by
  intro character head
  have stops := List.head?_dropWhile_not isSpacing source
  rw [Option.mem_def.mp head] at stops
  simpa using stops

theorem takeWhile_eq_of_longest {run behind : List Char}
    (longest : Longest Spacing (run ++ behind) run) :
    (run ++ behind).takeWhile isSpacing = run ∧ (run ++ behind).dropWhile isSpacing = behind := by
  have taken := (longest_spacing (run ++ behind)).unique longest
  refine ⟨taken, ?_⟩
  have whole := List.takeWhile_append_dropWhile (p := isSpacing) (l := run ++ behind)
  rw [taken] at whole
  exact List.append_cancel_left whole

theorem longest_of_takeWhile (source : List Char) :
    Longest Spacing (source.takeWhile isSpacing ++ source.dropWhile isSpacing)
      (source.takeWhile isSpacing) := by
  rw [List.takeWhile_append_dropWhile]
  exact longest_spacing source

theorem of_lineBreak {mode next : Mode} {character : Char} {rest raw behind : List Char}
    {kind : Symbol} (breaks : character = '\n' ∨ character = '\r')
    (found : lineBreak mode character rest = .token kind raw behind next) :
    kind = .newline ∧ next = mode ∧ (raw = ['\n'] ∨ raw = ['\r', '\n']) ∧
      character :: rest = raw ++ behind := by
  unfold lineBreak at found
  split at found
  · rename_i feed
    cases found
    exact ⟨rfl, rfl, .inl rfl, by rw [feed]; rfl⟩
  · rename_i noFeed
    have carriage : character = '\r' := breaks.resolve_left noFeed
    split at found
    · cases found
      exact ⟨rfl, rfl, .inr rfl, by rw [carriage]; rfl⟩
    · cases found

inductive OfText : List Char → Symbol → List Char → List Char → Mode → Prop
  | opening {spacing behind : List Char} (longest : Longest Spacing (spacing ++ behind) spacing) :
      OfText ('\x7b' :: '\x7b' :: (spacing ++ behind)) .openBraces ('\x7b' :: '\x7b' :: spacing)
        behind .placeholder
  | newline {raw behind : List Char} (breaks : raw = ['\n'] ∨ raw = ['\r', '\n']) :
      OfText (raw ++ behind) .newline raw behind .text
  | blank {run behind : List Char} (nonempty : run ≠ [])
      (longest : Longest Spacing (run ++ behind) run) :
      OfText (run ++ behind) .blank run behind .text
  | text {run behind : List Char} (nonempty : run ≠ [])
      (longest : Longest (Literal (run ++ behind)) (run ++ behind) run) :
      OfText (run ++ behind) .text run behind .text

theorem ofText_of_first {character : Char} {rest raw behind : List Char} {kind : Symbol}
    {next : Mode} (found : first .text character rest = .token kind raw behind next) :
    OfText (character :: rest) kind raw behind next := by
  change firstOfText character rest = _ at found
  unfold firstOfText at found
  split at found
  · rename_i braces
    rcases (opens_iff _).mp braces with ⟨inside, whole⟩
    rw [← whole] at found ⊢
    cases found
    have shown := OfText.opening (longest_of_takeWhile inside)
    rwa [List.takeWhile_append_dropWhile] at shown
  · rename_i noBraces
    split at found
    · rename_i breaks
      rcases of_lineBreak (by simpa using breaks) found with ⟨rfl, rfl, feeds, whole⟩
      rw [whole]
      exact .newline feeds
    · rename_i noBreak
      split at found
      · rename_i spacing
        cases found
        have shown := OfText.blank (by simp [spacing]) (longest_of_takeWhile (character :: rest))
        rw [List.takeWhile_append_dropWhile, List.takeWhile_cons_of_pos spacing,
          List.dropWhile_cons_of_pos spacing] at shown
        exact shown
      · rename_i noSpacing
        cases found
        have goes : endsText (character :: rest) = false := by
          simp_all [endsText]
        have whole := cutText_eq [character] rest
        have longest := longest_literal goes
        rw [List.reverse_singleton, List.singleton_append] at whole
        have shown := OfText.text (cutText_ne_nil (List.cons_ne_nil character []) rest)
          (whole ▸ longest)
        rwa [whole] at shown

theorem OfText.of_openBraces {source raw behind : List Char} {next : Mode}
    (shows : OfText source .openBraces raw behind next) :
    ∃ spacing, Spacing spacing ∧ source = '\x7b' :: '\x7b' :: (spacing ++ behind) ∧
      raw = '\x7b' :: '\x7b' :: spacing ∧ next = .placeholder ∧
      ∀ character ∈ behind.head?, isSpacing character = false := by
  cases shows with
  | @opening spacing _ longest =>
      refine ⟨spacing, longest.holds, rfl, rfl, rfl, ?_⟩
      intro character head
      rw [← (takeWhile_eq_of_longest longest).2] at head
      exact head?_dropWhile _ character head

theorem OfText.of_blank {source raw behind : List Char} {next : Mode}
    (shows : OfText source .blank raw behind next) :
    (∃ character ∈ source.head?, isSpacing character = true) ∧
      ∀ character ∈ behind.head?, isSpacing character = false := by
  cases shows with
  | blank nonempty longest =>
      rcases raw with _ | ⟨first, others⟩
      · exact absurd rfl nonempty
      · have blank := longest.holds first List.mem_cons_self
        refine ⟨⟨first, rfl, (isSpacing_iff first).mpr blank⟩, ?_⟩
        rw [← (takeWhile_eq_of_longest longest).2]
        exact head?_dropWhile _

theorem first_of_blank {raw behind : List Char} (nonempty : raw ≠ [])
    (longest : Longest Spacing (raw ++ behind) raw) :
    ∃ character rest, raw ++ behind = character :: rest ∧
      first .text character rest = .token .blank raw behind .text := by
  rcases raw with _ | ⟨character, others⟩
  · exact absurd rfl nonempty
  · rcases takeWhile_eq_of_longest longest with ⟨taken, left⟩
    have spacing := longest.holds character List.mem_cons_self
    have test := (isSpacing_iff character).mpr spacing
    rw [List.cons_append, List.takeWhile_cons_of_pos test] at taken
    rw [List.cons_append, List.dropWhile_cons_of_pos test] at left
    have noBrace : character ≠ '\x7b' := by
      intro brace
      simp [brace] at spacing
    have noBreak : ¬(character = '\n' ∨ character = '\r') := by
      rcases spacing with rfl | rfl <;> decide
    refine ⟨character, others ++ behind, rfl, ?_⟩
    simp only [first, firstOfText, opens_eq_false noBrace, Bool.or_eq_true,
      decide_eq_true_eq, Bool.false_eq_true, if_false]
    rw [if_neg noBreak, if_pos test, taken, left]

theorem first_of_literal {raw behind : List Char} (nonempty : raw ≠ [])
    (longest : Longest (Literal (raw ++ behind)) (raw ++ behind) raw) :
    ∃ character rest, raw ++ behind = character :: rest ∧
      first .text character rest = .token .text raw behind .text := by
  rcases raw with _ | ⟨character, others⟩
  · exact absurd rfl nonempty
  · have goes := (literal_iff longest.begins).mp longest.holds 0 (Nat.zero_lt_succ _)
    rw [List.drop_zero, List.cons_append] at goes
    have taken := (longest_literal goes).unique longest
    have whole := cutText_eq [character] (others ++ behind)
    rw [taken] at whole
    have left : (cutText [character] (others ++ behind)).2 = behind :=
      List.append_cancel_left whole
    refine ⟨character, others ++ behind, rfl, ?_⟩
    -- Text goes on here, so none of the tests before the last one succeeds.
    rw [Bool.eq_false_iff, ne_eq, endsText_cons_iff, ← opens_iff, not_or] at goes
    rcases goes with ⟨stops, noBraces⟩
    have noBreak : ¬(character = '\n' ∨ character = '\r') := fun breaks =>
      stops (.inr (.inr breaks))
    have noSpacing : ¬isSpacing character = true := by
      rw [isSpacing_iff]
      intro blank
      rcases blank with space | tab
      · exact stops (.inl space)
      · exact stops (.inr (.inl tab))
    simp only [first, firstOfText, Bool.or_eq_true, decide_eq_true_eq]
    rw [if_neg noBraces, if_neg noBreak, if_neg noSpacing, taken, left]

theorem first_of_ofText {source raw behind : List Char} {kind : Symbol} {next : Mode}
    (shows : OfText source kind raw behind next) :
    ∃ character rest, source = character :: rest ∧
      first .text character rest = .token kind raw behind next := by
  cases shows with
  | @opening spacing behind longest =>
      rcases takeWhile_eq_of_longest longest with ⟨taken, left⟩
      refine ⟨_, _, rfl, ?_⟩
      simp [first, firstOfText, opens, opening, taken, left]
  | newline breaks =>
      rcases breaks with rfl | rfl
      · exact ⟨'\n', behind, rfl, by simp [first, firstOfText, opens_eq_false, lineBreak]⟩
      · exact ⟨'\r', '\n' :: behind, rfl,
          by simp [first, firstOfText, opens_eq_false, lineBreak]⟩
  | blank nonempty longest => exact first_of_blank nonempty longest
  | text nonempty longest => exact first_of_literal nonempty longest

/-! ## Inside a placeholder -/

theorem closes_iff (source : List Char) :
    closes source = true ↔ ∃ behind, source = '\x7d' :: '\x7d' :: behind := by
  match source with
  | [] => simp [closes]
  | [only] => simp [closes]
  | first :: second :: rest => simp [closes]

inductive OfPlaceholder : List Char → Symbol → List Char → List Char → Mode → Prop
  | closing {spacing behind : List Char} (blank : Spacing spacing) :
      OfPlaceholder (spacing ++ '\x7d' :: '\x7d' :: behind) .closeBraces
        (spacing ++ ['\x7d', '\x7d']) behind .text
  | opening {spacing behind : List Char} (longest : Longest Spacing (spacing ++ behind) spacing) :
      OfPlaceholder ('\x7b' :: '\x7b' :: (spacing ++ behind)) .openBraces
        ('\x7b' :: '\x7b' :: spacing) behind .placeholder
  | dot {behind : List Char} : OfPlaceholder ('.' :: behind) .dot ['.'] behind .name
  | newline {raw behind : List Char} (breaks : raw = ['\n'] ∨ raw = ['\r', '\n']) :
      OfPlaceholder (raw ++ behind) .newline raw behind .placeholder
  | brace {brace : Char} {behind : List Char} (single : brace = '\x7b' ∨ brace = '\x7d') :
      OfPlaceholder (brace :: behind) .text [brace] behind .placeholder
  | name {name behind : List Char} (longest : Longest IsName (name ++ behind) name) :
      OfPlaceholder (name ++ behind) .name name behind .placeholder

theorem OfPlaceholder.of_dot {source raw behind : List Char} {next : Mode}
    (shows : OfPlaceholder source .dot raw behind next) :
    source = '.' :: behind ∧ raw = ['.'] ∧ next = .name := by
  cases shows
  exact ⟨rfl, rfl, rfl⟩

theorem OfPlaceholder.of_closeBraces {source raw behind : List Char} {next : Mode}
    (shows : OfPlaceholder source .closeBraces raw behind next) :
    ∃ spacing, Spacing spacing ∧ source = spacing ++ '\x7d' :: '\x7d' :: behind ∧
      raw = spacing ++ ['\x7d', '\x7d'] ∧ next = .text := by
  cases shows with
  | closing blank => exact ⟨_, blank, rfl, rfl, rfl⟩

theorem OfPlaceholder.kind_ne_blank {source raw behind : List Char} {kind : Symbol} {next : Mode}
    (shows : OfPlaceholder source kind raw behind next) : kind ≠ .blank := by
  cases shows <;> exact nofun

theorem OfPlaceholder.of_closes {spacing source : List Char} (blank : Spacing spacing)
    (closed : closes source = true) :
    OfPlaceholder (spacing ++ source) .closeBraces (spacing ++ source.take 2) (source.drop 2)
      .text := by
  rcases (closes_iff source).mp closed with ⟨behind, rfl⟩
  exact .closing blank

theorem longest_of_nameRun {character : Char} (upper : Text.isUppercase character = true)
    (rest : List Char) :
    Longest IsName (character :: rest.takeWhile isCased ++ rest.dropWhile isCased)
      (character :: rest.takeWhile isCased) := by
  rw [List.cons_append, List.takeWhile_append_dropWhile]
  exact longest_name upper rest

theorem ofPlaceholder_of_first {character : Char} {rest raw behind : List Char} {kind : Symbol}
    {next : Mode} (found : first .placeholder character rest = .token kind raw behind next) :
    OfPlaceholder (character :: rest) kind raw behind next := by
  change firstOfPlaceholder character rest = _ at found
  unfold firstOfPlaceholder at found
  split at found
  · rename_i spacing
    dsimp only at found
    split at found
    · rename_i closed
      have blank := (longest_spacing (character :: rest)).holds
      rw [List.takeWhile_cons_of_pos spacing] at blank
      cases found
      have shown := OfPlaceholder.of_closes blank closed
      rwa [List.cons_append, List.takeWhile_append_dropWhile] at shown
    · cases found
  · split at found
    · rename_i closed
      cases found
      have blank : Spacing [] := nofun
      exact .of_closes blank closed
    · split at found
      · rename_i braces
        rcases (opens_iff _).mp braces with ⟨inside, whole⟩
        rw [← whole] at found ⊢
        cases found
        have shown := OfPlaceholder.opening (longest_of_takeWhile inside)
        rwa [List.takeWhile_append_dropWhile] at shown
      · split at found
        · rename_i dot
          subst dot
          cases found
          exact .dot
        · split at found
          · rename_i breaks
            rcases of_lineBreak (by simpa using breaks) found with ⟨rfl, rfl, feeds, whole⟩
            rw [whole]
            exact .newline feeds
          · split at found
            · rename_i single
              cases found
              exact .brace (by simpa using single)
            · split at found
              · rename_i upper
                cases found
                have shown := OfPlaceholder.name (longest_of_nameRun upper rest)
                rwa [List.cons_append, List.takeWhile_append_dropWhile] at shown
              · cases found

theorem first_of_closing {spacing : List Char} (blank : Spacing spacing) (behind : List Char) :
    ∃ character rest, spacing ++ '\x7d' :: '\x7d' :: behind = character :: rest ∧
      first .placeholder character rest =
        .token .closeBraces (spacing ++ ['\x7d', '\x7d']) behind .text := by
  match spacing with
  | [] =>
      refine ⟨_, _, rfl, ?_⟩
      simp [first, firstOfPlaceholder, isSpacing, closes, closing]
  | first' :: others =>
      have tests : ∀ character ∈ first' :: others, isSpacing character = true :=
        fun character member => (isSpacing_iff character).mpr (blank character member)
      rcases List.forall_mem_cons.mp tests with ⟨head, tail⟩
      have brace : ¬isSpacing '\x7d' = true := by decide
      refine ⟨_, _, rfl, ?_⟩
      simp only [first, firstOfPlaceholder, head, if_true, List.append_eq,
        List.takeWhile_append_of_pos tail, List.dropWhile_append_of_pos tail,
        List.takeWhile_cons_of_neg brace, List.dropWhile_cons_of_neg brace, List.append_nil]
      simp [closes, closing]

/-- Blanks are skipped only in a placeholder, as far as they reach, and not in front of its end. -/
theorem of_skipped {mode : Mode} {character : Char} {rest raw behind : List Char}
    (found : first mode character rest = .skipped raw behind) :
    mode = .placeholder ∧ isSpacing character = true ∧
      (∀ character ∈ behind.head?, isSpacing character = false) ∧ closes behind = false := by
  have noBreak : ∀ mode, lineBreak mode character rest ≠ .skipped raw behind := by
    intro mode
    unfold lineBreak
    split
    · exact nofun
    · split <;> exact nofun
  cases mode with
  | text =>
      change firstOfText character rest = _ at found
      unfold firstOfText at found
      split at found
      · cases found
      · split at found
        · exact absurd found (noBreak _)
        · split at found <;> cases found
  | placeholder =>
      change firstOfPlaceholder character rest = _ at found
      unfold firstOfPlaceholder at found
      split at found
      · rename_i spacing
        dsimp only at found
        split at found
        · cases found
        · rename_i unclosed
          cases found
          exact ⟨rfl, spacing, head?_dropWhile rest, Bool.eq_false_iff.mpr unclosed⟩
      · split at found
        · cases found
        · split at found
          · cases found
          · split at found
            · cases found
            · split at found
              · exact absurd found (noBreak _)
              · split at found
                · cases found
                · split at found <;> cases found
  | name =>
      change (if _ then _ else _) = _ at found
      split at found <;> cases found

theorem first_of_dot (rest : List Char) :
    first .placeholder '.' rest = .token .dot ['.'] rest .name := by
  have noClose : closes ('.' :: rest) = false := by
    cases rest <;> simp [closes]
  simp [first, firstOfPlaceholder, isSpacing, noClose, opens_eq_false]

/-! ## Names -/

theorem ofName_of_first {character : Char} {rest raw behind : List Char} {kind : Symbol}
    {next : Mode} (found : first .name character rest = .token kind raw behind next) :
    kind = .name ∧ next = .placeholder ∧ character :: rest = raw ++ behind ∧
      Longest IsName (raw ++ behind) raw := by
  change (if _ then _ else _) = _ at found
  split at found
  · rename_i upper
    cases found
    refine ⟨rfl, rfl, ?_, longest_of_nameRun upper rest⟩
    rw [List.cons_append, List.takeWhile_append_dropWhile]
  · cases found

theorem first_of_name {name behind : List Char} (longest : Longest IsName (name ++ behind) name) :
    ∃ character rest, name ++ behind = character :: rest ∧
      first .name character rest = .token .name name behind .placeholder := by
  rcases longest.exists_cons with ⟨character, rest, whole, upper, taken⟩
  refine ⟨character, rest, whole, ?_⟩
  have same : name ++ rest.dropWhile isCased = name ++ behind := by
    rw [whole, taken, List.cons_append, List.takeWhile_append_dropWhile]
  have left : rest.dropWhile isCased = behind := List.append_cancel_left same
  change (if _ then _ else _) = _
  rw [if_pos upper, nameRun, ← taken, left]

end Stencil.Source
