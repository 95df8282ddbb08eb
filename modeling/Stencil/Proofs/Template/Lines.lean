import Stencil.Proofs.Template.Filling
import Stencil.Proofs.Template.RoundTrip

/-! # Templates line by line

Nothing that a template is made of reaches over a line break. So a template can be taken apart at
any of them, as long as something stands on both sides, and its parts can be read and rendered one by
one.
-/

namespace Stencil.Source

open Stencil.Lexeme

/-! ## Runs in front of a line feed -/

theorem head?_append_lineFeed {test : Char → Bool} (outside : test '\n' = false)
    (rest lower : List Char) :
    (∀ character ∈ (rest ++ '\n' :: lower).head?, test character = false) ↔
      ∀ character ∈ rest.head?, test character = false := by
  cases rest with
  | nil => simp [outside]
  | cons character later => simp

theorem endsText_append_lineFeed (source lower : List Char) :
    endsText (source ++ '\n' :: lower) = endsText source := by
  match source with
  | [] => rfl
  | [character] => simp [endsText, opens]
  | first :: second :: later => rfl

theorem longest_spacing_append_lineFeed {run rest : List Char} (lower : List Char) :
    Longest Spacing (run ++ (rest ++ '\n' :: lower)) run ↔ Longest Spacing (run ++ rest) run := by
  rw [longest_spacing_iff, longest_spacing_iff, head?_append_lineFeed (by decide)]

theorem longest_literal_append_lineFeed {run rest : List Char} (lower : List Char) :
    Longest (Literal (run ++ (rest ++ '\n' :: lower))) (run ++ (rest ++ '\n' :: lower)) run ↔
      Longest (Literal (run ++ rest)) (run ++ rest) run := by
  rw [longest_literal_iff, longest_literal_iff, endsText_append_lineFeed]
  apply and_congr_left'
  apply forall₂_congr
  intro count inside
  rw [← List.append_assoc, List.drop_append_of_le_length, endsText_append_lineFeed]
  rw [List.length_append]
  omega

theorem exists_append_of_not_mem {run rest upper lower : List Char} (level : '\n' ∉ run)
    (same : run ++ rest = upper ++ '\n' :: lower) :
    ∃ later, upper = run ++ later ∧ rest = later ++ '\n' :: lower := by
  rcases List.append_eq_append_iff.mp same with ⟨later, inside, outside⟩ | ⟨beyond, whole, begins⟩
  · exact ⟨later, inside, outside⟩
  · match beyond, whole, begins with
    | [], whole, begins =>
        rw [List.append_nil] at whole
        exact ⟨[], by rw [whole, List.append_nil], begins.symm⟩
    | first :: others, whole, begins =>
        rcases List.cons.inj begins with ⟨rfl, _⟩
        exact absurd (by simp [whole]) level

end Stencil.Source

namespace Stencil.Template

open Stencil.Source Stencil.Lexeme

/-! ## Single pieces -/

/-- The first piece of what stands above a line break stays the first with the rest below it. -/
theorem Next.append_lineFeed {upper rest : List Char} {piece : Piece}
    (next : Next upper piece rest) (lower : List Char) :
    Next (upper ++ '\n' :: lower) piece (rest ++ '\n' :: lower) := by
  cases next with
  | placeholder blankBefore longest blankAfter =>
      rw [List.append_assoc]
      exact .placeholder blankBefore (longest.name_before_closing _) blankAfter
  | lineFeed => exact .lineFeed
  | carriageReturn => exact .carriageReturn
  | blanks nonempty longest =>
      rw [List.append_assoc]
      exact .blanks nonempty ((longest_spacing_append_lineFeed lower).mpr longest)
  | literal nonempty longest =>
      rw [List.append_assoc]
      exact .literal nonempty ((longest_literal_append_lineFeed lower).mpr longest)

theorem getLast?_ne_of_append {upper later : List Char} {character : Char}
    (differs : (upper ++ later).getLast? ≠ some character) :
    later.getLast? ≠ some character := by
  intro ends
  apply differs
  rw [List.getLast?_append, ends, Option.some_or]

theorem Next.exists_of_append_lineFeed {upper lower rest : List Char} {piece : Piece}
    (nonempty : upper ≠ []) (unreturned : upper.getLast? ≠ some '\r')
    (next : Next (upper ++ '\n' :: lower) piece rest) :
    ∃ later, rest = later ++ '\n' :: lower ∧ Next upper piece later ∧
      later.getLast? ≠ some '\r' := by
  generalize whole : upper ++ '\n' :: lower = source at next
  cases next with
  | @placeholder before name after rest blankBefore longest blankAfter =>
      have level := not_mem_marker blankBefore longest.holds blankAfter (.inl rfl)
      rcases exists_append_of_not_mem level whole.symm with ⟨later, rfl, rfl⟩
      have next := Next.placeholder blankBefore (longest.name_before_closing later) blankAfter
      exact ⟨later, rfl, next, getLast?_ne_of_append unreturned⟩
  | lineFeed =>
      rcases List.exists_cons_of_ne_nil nonempty with ⟨first, later, rfl⟩
      rcases List.cons.inj whole with ⟨rfl, rfl⟩
      change (['\n'] ++ later).getLast? ≠ _ at unreturned
      exact ⟨later, rfl, .lineFeed, getLast?_ne_of_append unreturned⟩
  | carriageReturn =>
      rcases List.exists_cons_of_ne_nil nonempty with ⟨first, more, rfl⟩
      rcases List.cons.inj whole with ⟨rfl, feeds⟩
      cases more with
      | nil => exact absurd rfl unreturned
      | cons second later =>
          rcases List.cons.inj feeds with ⟨rfl, rfl⟩
          change (['\r', '\n'] ++ later).getLast? ≠ _ at unreturned
          exact ⟨later, rfl, .carriageReturn, getLast?_ne_of_append unreturned⟩
  | @blanks run rest some longest =>
      have level : '\n' ∉ run := longest.holds.not_mem (by decide)
      rcases exists_append_of_not_mem level whole.symm with ⟨later, rfl, rfl⟩
      have shorter := (longest_spacing_append_lineFeed lower).mp longest
      exact ⟨later, rfl, .blanks some shorter, getLast?_ne_of_append unreturned⟩
  | @literal run rest some longest =>
      have level : '\n' ∉ run := fun member => (longest.holds.plain _ member).2.2.1 rfl
      rcases exists_append_of_not_mem level whole.symm with ⟨later, rfl, rfl⟩
      have shorter := (longest_literal_append_lineFeed lower).mp longest
      exact ⟨later, rfl, .literal some shorter, getLast?_ne_of_append unreturned⟩

theorem Next.of_lineFeed {lower rest : List Char} {piece : Piece}
    (next : Next ('\n' :: lower) piece rest) : piece = .text "\n" ∧ rest = lower := by
  generalize whole : '\n' :: lower = source at next
  cases next with
  | placeholder => cases whole
  | lineFeed => exact ⟨rfl, (List.cons.inj whole).2.symm⟩
  | carriageReturn => cases whole
  | @blanks run rest some longest =>
      rcases List.exists_cons_of_ne_nil some with ⟨first, others, rfl⟩
      rcases List.cons.inj whole with ⟨rfl, _⟩
      simpa using longest.holds _ List.mem_cons_self
  | @literal run rest some longest =>
      rcases List.exists_cons_of_ne_nil some with ⟨first, others, rfl⟩
      rcases List.cons.inj whole with ⟨rfl, _⟩
      exact absurd rfl (longest.holds.plain _ List.mem_cons_self).2.2.1

/-! ## Whole sources -/

theorem Reads.append_lineFeed {upper lower : List Char} {above below : List Piece}
    (reads : Reads upper above) (under : Reads lower below) :
    Reads (upper ++ '\n' :: lower) (above ++ .text "\n" :: below) := by
  induction reads with
  | done => exact .next .lineFeed under
  | next next _ induction => exact .next (next.append_lineFeed lower) induction

theorem Reads.exists_of_append_lineFeed {upper lower : List Char} {pieces : List Piece}
    (unreturned : upper.getLast? ≠ some '\r') (reads : Reads (upper ++ '\n' :: lower) pieces) :
    ∃ above below, Reads upper above ∧ Reads lower below ∧
      pieces = above ++ .text "\n" :: below := by
  generalize whole : upper ++ '\n' :: lower = source at reads
  induction reads generalizing upper with
  | done => simp at whole
  | @next source rest piece pieces next reads induction =>
      subst whole
      by_cases empty : upper = []
      · subst empty
        rcases next.of_lineFeed with ⟨rfl, rfl⟩
        exact ⟨[], pieces, .done, reads, rfl⟩
      · rcases next.exists_of_append_lineFeed empty unreturned with ⟨later, rfl, next, unreturned⟩
        rcases induction unreturned rfl with ⟨above, below, upon, under, rfl⟩
        exact ⟨piece :: above, below, .next next upon, under, rfl⟩

/-! ## Rendering -/

theorem text_filled_append_lineFeed {above below : List Piece} {options : Options}
    {values : String → Option String} {written : String} :
    ((⟨above ++ .text "\n" :: below, options⟩ : Template).filled values).text = .ok written ↔
      ∃ first second, ((⟨above, options⟩ : Template).filled values).text = .ok first ∧
        ((⟨below, options⟩ : Template).filled values).text = .ok second ∧
        written = first ++ "\n" ++ second := by
  simp only [text_eq_ok_iff, filled, unresolved, portions, List.map_append, List.map_cons,
    List.filterMap_append, Piece.filled, Piece.written, Piece.filterMap_name?_text,
    String.join_append, String.join_cons, List.append_eq_nil_iff, ← String.append_assoc]
  constructor
  · rintro ⟨complete, rfl⟩
    exact ⟨_, _, ⟨fun refuse => (complete refuse).1, rfl⟩,
      ⟨fun refuse => (complete refuse).2, rfl⟩, rfl⟩
  · rintro ⟨_, _, ⟨upper, rfl⟩, ⟨lower, rfl⟩, rfl⟩
    exact ⟨fun refuse => ⟨upper refuse, lower refuse⟩, rfl⟩

theorem render_append_lineFeed {above below : List Piece} {options : Options} {lookup : Lookup}
    {written : String} :
    ((⟨above ++ .text "\n" :: below, options⟩ : Template).render lookup).value = .ok written ↔
      ∃ first second, ((⟨above, options⟩ : Template).render lookup).value = .ok first ∧
        ((⟨below, options⟩ : Template).render lookup).value = .ok second ∧
        written = first ++ "\n" ++ second := by
  simp only [render_eq_ok_iff, text_filled_append_lineFeed, unresolved, List.filterMap_append,
    Piece.filterMap_name?_text, List.forall_mem_append]
  constructor
  · rintro ⟨⟨upper, lower⟩, first, second, firstSpelled, secondSpelled, rfl⟩
    exact ⟨first, second, ⟨upper, firstSpelled⟩, ⟨lower, secondSpelled⟩, rfl⟩
  · rintro ⟨first, second, ⟨upper, firstSpelled⟩, ⟨lower, secondSpelled⟩, rfl⟩
    exact ⟨⟨upper, lower⟩, first, second, firstSpelled, secondSpelled, rfl⟩

/-! ## Templates in parts -/

section Parts

variable {upper lower : String} {options : Options} {events : List Event}

theorem toList_append_lineFeed (upper lower : String) :
    (upper ++ "\n" ++ lower).toList = upper.toList ++ '\n' :: lower.toList := by
  simp

theorem ofText_append_lineFeed_iff (above : upper ≠ "") (below : lower ≠ "")
    (unreturned : upper.toList.getLast? ≠ some '\r') (upperEvents lowerEvents : List Event)
    {template : Template} :
    (ofText ⟨table, events⟩ options (upper ++ "\n" ++ lower)).value = .ok template ↔
      ∃ first second, (ofText ⟨table, upperEvents⟩ options upper).value = .ok first ∧
        (ofText ⟨table, lowerEvents⟩ options lower).value = .ok second ∧
        template = ⟨first.pieces ++ .text "\n" :: second.pieces, options⟩ := by
  have upperSome : upper.toList ≠ [] := by simpa using above
  have lowerSome : lower.toList ≠ [] := by simpa using below
  simp only [ofText, tokenizeText, value_tokenize_bind_eq_ok_iff, toList_append_lineFeed]
  constructor
  · rintro ⟨_, rfl, reads⟩
    rcases reads.exists_of_append_lineFeed unreturned with
      ⟨front, back, upperReads, lowerReads, same⟩
    refine ⟨⟨front, template.options⟩, ⟨back, template.options⟩, ⟨upperSome, rfl, upperReads⟩,
      ⟨lowerSome, rfl, lowerReads⟩, ?_⟩
    rw [← same]
  · rintro ⟨first, second, ⟨_, rfl, upperReads⟩, ⟨_, _, lowerReads⟩, rfl⟩
    exact ⟨by simp, rfl, upperReads.append_lineFeed lowerReads⟩

theorem options_eq_of_ofText_eq_ok {source : String} {template : Template}
    (read : (ofText ⟨table, events⟩ options source).value = .ok template) :
    template.options = options :=
  ((value_tokenize_bind_eq_ok_iff _ _ _ _).mp read).2.1

theorem render_of_ofText_eq_ok {source other : String} {first second : Template}
    (firstRead : (ofText ⟨table, events⟩ options source).value = .ok first)
    {later : List Event} (secondRead : (ofText ⟨table, later⟩ options other).value = .ok second)
    {lookup : Lookup} {written : String} :
    ((⟨first.pieces ++ .text "\n" :: second.pieces, options⟩ : Template).render lookup).value =
        .ok written ↔
      ∃ front back, (first.render lookup).value = .ok front ∧
        (second.render lookup).value = .ok back ∧ written = front ++ "\n" ++ back := by
  rcases options_eq_of_ofText_eq_ok firstRead with rfl
  have same : second = ⟨second.pieces, first.options⟩ := by
    rw [← options_eq_of_ofText_eq_ok secondRead]
  rw [render_append_lineFeed, ← same]

/-- A template with something on both sides of a line break is two templates. It can be read if both
of them can, and then it has their pieces with the line break in between. With any data it is rendered
as they are, the one below the other. -/
theorem ofText_append_lineFeed {upper lower : String} (above : upper ≠ "") (below : lower ≠ "")
    (unreturned : upper.toList.getLast? ≠ some '\r') (options : Options)
    (wholeEvents upperEvents lowerEvents : List Event) :
    (∀ template,
      (ofText ⟨table, wholeEvents⟩ options (upper ++ "\n" ++ lower)).value = .ok template ↔
        ∃ first second, (ofText ⟨table, upperEvents⟩ options upper).value = .ok first ∧
          (ofText ⟨table, lowerEvents⟩ options lower).value = .ok second ∧
          template = ⟨first.pieces ++ .text "\n" :: second.pieces, options⟩) ∧
    ∀ template first second,
      (ofText ⟨table, wholeEvents⟩ options (upper ++ "\n" ++ lower)).value = .ok template →
      (ofText ⟨table, upperEvents⟩ options upper).value = .ok first →
      (ofText ⟨table, lowerEvents⟩ options lower).value = .ok second →
      ∀ lookup written, (template.render lookup).value = .ok written ↔
        ∃ front back, (first.render lookup).value = .ok front ∧
          (second.render lookup).value = .ok back ∧ written = front ++ "\n" ++ back := by
  refine ⟨fun template =>
    ofText_append_lineFeed_iff above below unreturned upperEvents lowerEvents, ?_⟩
  intro template first second read firstRead secondRead lookup written
  rcases (ofText_append_lineFeed_iff above below unreturned upperEvents lowerEvents).mp read with
    ⟨_, _, firstSame, secondSame, rfl⟩
  rcases Except.ok.inj (firstRead.symm.trans firstSame) with rfl
  rcases Except.ok.inj (secondRead.symm.trans secondSame) with rfl
  exact render_of_ofText_eq_ok firstRead secondRead

theorem ofText_append_lineFeed_placeholders :
    let upper := "\x7b\x7b.A\x7d\x7d:"
    let lower := "b \x7b\x7b.B \x7d\x7d"
    upper ≠ "" ∧ lower ≠ "" ∧ upper.toList.getLast? ≠ some '\r' ∧
      ∃ template, (ofText ⟨table, []⟩ {} (upper ++ "\n" ++ lower)).value = .ok template ∧
        template.pieces = [.placeholder "A" "\x7b\x7b.A\x7d\x7d", .text ":", .text "\n", .text "b",
          .text " ", .placeholder "B" "\x7b\x7b.B \x7d\x7d"] ∧
        (template.render fun name => .ok (some name)).value = .ok "A:\nb B" := by
  intro upper lower
  have above : upper ≠ "" := by decide
  have below : lower ≠ "" := by decide
  have unreturned : upper.toList.getLast? ≠ some '\r' := by decide +kernel
  let first : Template := ⟨[.placeholder "A" "\x7b\x7b.A\x7d\x7d", .text ":"], {}⟩
  let second : Template :=
    ⟨[.text "b", .text " ", .placeholder "B" "\x7b\x7b.B \x7d\x7d"], {}⟩
  have firstRead : (ofText ⟨table, []⟩ {} upper).value = .ok first := by decide +kernel
  have secondRead : (ofText ⟨table, []⟩ {} lower).value = .ok second := by decide +kernel
  rcases ofText_append_lineFeed above below unreturned {} [] [] [] with ⟨read, rendered⟩
  have whole := (read _).mpr ⟨first, second, firstRead, secondRead, rfl⟩
  have front : (first.render fun name => .ok (some name)).value = .ok "A:" := by
    rw [value_render first fun _ _ => rfl]
    decide +kernel
  have back : (second.render fun name => .ok (some name)).value = .ok "b B" := by
    rw [value_render second fun _ _ => rfl]
    decide +kernel
  refine ⟨above, below, unreturned, _, whole, rfl, ?_⟩
  exact (rendered _ first second whole firstRead secondRead _ _).mpr
    ⟨"A:", "b B", front, back, by decide⟩

/-! ## All lines -/

/-- Reading and rendering a source with some data gives a text. -/
def Renders (options : Options) (lookup : Lookup) (source written : String) : Prop :=
  ∃ template, (ofText ⟨table, []⟩ options source).value = .ok template ∧
    (template.render lookup).value = .ok written

variable {lookup : Lookup} {written : String}

theorem renders_append_lineFeed (above : upper ≠ "") (below : lower ≠ "")
    (unreturned : upper.toList.getLast? ≠ some '\r') :
    Renders options lookup (upper ++ "\n" ++ lower) written ↔
      ∃ first second, Renders options lookup upper first ∧ Renders options lookup lower second ∧
        written = first ++ "\n" ++ second := by
  unfold Renders
  simp only [ofText_append_lineFeed_iff above below unreturned [] []]
  constructor
  · rintro ⟨_, ⟨first, second, firstRead, secondRead, rfl⟩, rendered⟩
    rcases (render_of_ofText_eq_ok firstRead secondRead).mp rendered with
      ⟨front, back, upon, under, same⟩
    exact ⟨front, back, ⟨first, firstRead, upon⟩, ⟨second, secondRead, under⟩, same⟩
  · rintro ⟨front, back, ⟨first, firstRead, upon⟩, ⟨second, secondRead, under⟩, same⟩
    exact ⟨_, ⟨first, second, firstRead, secondRead, rfl⟩,
      (render_of_ofText_eq_ok firstRead secondRead).mpr ⟨front, back, upon, under, same⟩⟩

theorem intercalate_ne_empty (separator : String) {first : String} (some : first ≠ "")
    (later : List String) : separator.intercalate (first :: later) ≠ "" := by
  cases later with
  | nil => rwa [String.intercalate_singleton]
  | cons second more =>
      rw [String.intercalate_cons_cons, String.append_assoc]
      simp [some]

/-- A template without empty lines can be read and rendered line by line. -/
theorem renders_intercalate {lines : List String} (nonempty : lines ≠ [])
    (filled : ∀ line ∈ lines, line ≠ "")
    (unreturned : ∀ line ∈ lines.dropLast, line.toList.getLast? ≠ some '\r') :
    Renders options lookup ("\n".intercalate lines) written ↔
      ∃ texts, List.Forall₂ (Renders options lookup) lines texts ∧
        written = "\n".intercalate texts := by
  induction lines generalizing written with
  | nil => exact absurd rfl nonempty
  | cons first later induction =>
      cases later with
      | nil =>
          rw [String.intercalate_singleton]
          constructor
          · intro renders
            exact ⟨[written], .cons renders .nil, String.intercalate_singleton.symm⟩
          · rintro ⟨texts, all, rfl⟩
            rcases List.forall₂_cons_left_iff.mp all with ⟨text, _, renders, ends, rfl⟩
            rcases List.forall₂_nil_left_iff.mp ends with rfl
            rwa [String.intercalate_singleton]
      | cons second more =>
          rcases List.forall_mem_cons.mp filled with ⟨above, laterFilled⟩
          rcases List.forall_mem_cons.mp unreturned with ⟨returns, laterUnreturned⟩
          have below := intercalate_ne_empty "\n" (laterFilled second List.mem_cons_self) more
          rw [String.intercalate_cons_cons, renders_append_lineFeed above below returns]
          simp only [induction (List.cons_ne_nil _ _) laterFilled laterUnreturned]
          constructor
          · rintro ⟨front, _, renders, ⟨texts, rest, rfl⟩, rfl⟩
            rcases List.forall₂_cons_left_iff.mp rest with ⟨next, others, _, _, rfl⟩
            exact ⟨_, .cons renders rest, String.intercalate_cons_cons.symm⟩
          · rintro ⟨texts, all, rfl⟩
            rcases List.forall₂_cons_left_iff.mp all with ⟨front, texts, renders, rest, rfl⟩
            rcases List.forall₂_cons_left_iff.mp rest with ⟨next, others, _, _, rfl⟩
            exact ⟨front, _, renders, ⟨_, rest, rfl⟩, String.intercalate_cons_cons⟩

end Parts

end Stencil.Template
