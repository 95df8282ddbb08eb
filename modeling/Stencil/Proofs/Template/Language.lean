import Mathlib.Computability.RegularExpressions
import Stencil.Proofs.Template.Elements

/-! # The language of templates

The rules for templates are recursive, but what they describe is regular: elements one after the
other, and the end of the input. All these words are parsed except those in which two blanks stand
next to each other. Such blanks may belong together or not, and the parser reports that.
-/

namespace Stencil

open scoped Computability

/-! ## Languages of symbols -/

theorem Derivation.map_kind_flatMap_mem {language : Symbol → Language Symbol}
    {parts : List Derivation}
    (inner : ∀ part ∈ parts, part.frontier.map Token.kind ∈ language part.kind) :
    (parts.flatMap frontier).map Token.kind ∈ ((parts.map kind).map language).prod := by
  induction parts with
  | nil => exact Language.nil_mem_one
  | cons part later induction =>
      rcases List.forall_mem_cons.mp inner with ⟨head, tail⟩
      rw [List.flatMap_cons, List.map_append, List.map_cons, List.map_cons, List.prod_cons]
      exact Language.append_mem_mul head (induction tail)

theorem Derivation.Valid.map_kind_frontier_mem {rules : List Rule}
    {language : Symbol → Language Symbol}
    (closed : ∀ rule ∈ rules, ∀ word ∈ (rule.rhs.map language).prod, word ∈ language rule.lhs)
    (own : ∀ symbol : Symbol, symbol.isTerminal = true → [symbol] ∈ language symbol)
    {derivation : Derivation} (valid : derivation.Valid rules)
    (terminal : ∀ token ∈ derivation.frontier, token.kind.isTerminal = true) :
    derivation.frontier.map Token.kind ∈ language derivation.kind := by
  induction valid with
  | read token => exact own token.kind (terminal token (List.mem_singleton.mpr rfl))
  | @built index rule parts numbered kinds _ induction =>
      rw [frontier_built] at terminal ⊢
      apply closed rule (List.mem_of_getElem? numbered) _
      rw [← kinds]
      apply map_kind_flatMap_mem
      intro part member
      apply induction part member
      intro token used
      exact terminal token (List.mem_flatMap.mpr ⟨part, member, used⟩)

namespace Template

def elementExpression : RegularExpression Symbol :=
  .char .openBraces * .char .dot * .char .name * .char .closeBraces +
    .char .text + .char .newline + .char .blank

def expression : RegularExpression Symbol :=
  elementExpression * elementExpression.star * .char .endOfInput

/-- The words for a symbol of the grammar. Those for the phrases between a whole template and its
tokens need not be told apart. -/
def words : Symbol → Language Symbol
  | .source => expression.matches'
  | .elements | .element | .placeholder | .blanks =>
    (elementExpression * elementExpression.star).matches'
  | symbol => {[symbol]}

theorem mem_matches'_elementExpression {word : List Symbol} :
    word ∈ elementExpression.matches' ↔
      word = [.openBraces, .dot, .name, .closeBraces] ∨ word = [.text] ∨ word = [.newline] ∨
        word = [.blank] := by
  rw [← RegularExpression.rmatch_iff_matches']
  simp only [elementExpression, RegularExpression.add_rmatch_iff, RegularExpression.mul_rmatch_iff,
    RegularExpression.char_rmatch_iff]
  simp [or_assoc]

theorem words_closed :
    ∀ rule ∈ rules, ∀ word ∈ (rule.rhs.map words).prod, word ∈ words rule.lhs := by
  let elements := elementExpression.matches'
  have one : elements ≤ elements * elements∗ := le_mul_of_one_le_right' one_le_kstar
  have join : elements * (elements * elements∗) ≤ elements * elements∗ :=
    mul_le_mul_right mul_kstar_le_kstar elements
  have more : elements * elements∗ * (elements * elements∗) ≤ elements * elements∗ := by
    calc elements * elements∗ * (elements * elements∗)
      _ ≤ elements * elements∗ * elements∗ := mul_le_mul_right mul_kstar_le_kstar _
      _ = elements * elements∗ := by rw [mul_assoc, kstar_mul_kstar]
  have text : {[.text]} ≤ elements := fun _ member => .inl (.inl (.inr member))
  have newline : {[.newline]} ≤ elements := fun _ member => .inl (.inr member)
  have blank : {[.blank]} ≤ elements := fun _ member => .inr member
  have placeholder :
      {[.openBraces]} * ({[.dot]} * ({[.name]} * {[.closeBraces]})) ≤ elements := by
    rw [← mul_assoc, ← mul_assoc]
    exact fun _ member => .inl (.inl (.inl member))
  have closed : ∀ rule ∈ rules, (rule.rhs.map words).prod ≤ words rule.lhs := by
    simp only [rules, List.forall_mem_cons, List.map_cons, List.map_nil, List.prod_cons,
      List.prod_nil, mul_one, words, expression, RegularExpression.matches'_mul,
      RegularExpression.matches'_star, RegularExpression.matches'_char]
    exact ⟨le_rfl, le_rfl, more, le_rfl, text.trans one, newline.trans one, le_rfl,
      placeholder.trans one, blank.trans one, (mul_le_mul_left blank _).trans join,
      List.forall_mem_nil _⟩
  exact fun rule member word formed => closed rule member formed

theorem mem_words_self (symbol : Symbol) (terminal : symbol.isTerminal = true) :
    [symbol] ∈ words symbol := by
  cases symbol <;> first | exact rfl | cases terminal

/-! ## Words and rows -/

theorem exists_element_of_mem {tokens : List Token}
    (word : tokens.map Token.kind ∈ elementExpression.matches') :
    ∃ element : Element, element.WellKinded ∧ tokens = element.tokens := by
  rcases mem_matches'_elementExpression.mp word with spelled | text | newline | blank
  · simp only [List.map_eq_cons_iff, List.map_eq_nil_iff] at spelled
    rcases spelled with ⟨opening, _, rfl, openingKind, dot, _, rfl, dotKind, name, _, rfl,
      nameKind, closing, _, rfl, closingKind, rfl⟩
    exact ⟨.placeholder opening dot name closing,
      ⟨openingKind, dotKind, nameKind, closingKind⟩, rfl⟩
  · rcases List.map_eq_singleton_iff.mp text with ⟨token, rfl, kind⟩
    exact ⟨.plain token, .inl kind, rfl⟩
  · rcases List.map_eq_singleton_iff.mp newline with ⟨token, rfl, kind⟩
    exact ⟨.plain token, .inr (.inl kind), rfl⟩
  · rcases List.map_eq_singleton_iff.mp blank with ⟨token, rfl, kind⟩
    exact ⟨.plain token, .inr (.inr kind), rfl⟩

theorem exists_elements_of_flatten {words : List (List Symbol)} {tokens : List Token}
    (elements : ∀ word ∈ words, word ∈ elementExpression.matches')
    (spelled : tokens.map Token.kind = words.flatten) :
    ∃ row : List Element, (∀ element ∈ row, element.WellKinded) ∧
      tokens = row.flatMap Element.tokens := by
  induction words generalizing tokens with
  | nil => exact ⟨[], nofun, List.map_eq_nil_iff.mp spelled⟩
  | cons word later induction =>
      rcases List.forall_mem_cons.mp elements with ⟨head, tail⟩
      rcases List.map_eq_append_iff.mp spelled with ⟨front, back, rfl, rfl, backSpelled⟩
      rcases exists_element_of_mem head with ⟨element, wellKinded, rfl⟩
      rcases induction tail backSpelled with ⟨row, others, rfl⟩
      exact ⟨element :: row, List.forall_mem_cons.mpr ⟨wellKinded, others⟩, rfl⟩

theorem exists_row_of_mem {tokens : List Token}
    (word : tokens.map Token.kind ∈ expression.matches') :
    ∃ first later ending, (∀ element ∈ first :: later, element.WellKinded) ∧
      ending.kind = .endOfInput ∧
      tokens = (first :: later).flatMap Element.tokens ++ [ending] := by
  rcases Language.mem_mul.mp word with ⟨front, row, back, ends, spelled⟩
  rcases Language.mem_mul.mp row with ⟨head, element, tail, others, rfl⟩
  rcases Language.mem_kstar.mp others with ⟨words, rfl, elements⟩
  obtain rfl : back = [.endOfInput] := ends
  rcases List.map_eq_append_iff.mp spelled.symm with ⟨row, last, rfl, rowSpelled, lastSpelled⟩
  rcases List.map_eq_append_iff.mp rowSpelled with ⟨front, back, rfl, rfl, backSpelled⟩
  rcases List.map_eq_singleton_iff.mp lastSpelled with ⟨ending, rfl, ends⟩
  rcases exists_element_of_mem element with ⟨first, firstKinded, rfl⟩
  rcases exists_elements_of_flatten elements backSpelled with ⟨later, laterKinded, rfl⟩
  exact ⟨first, later, ending, List.forall_mem_cons.mpr ⟨firstKinded, laterKinded⟩, ends, rfl⟩

/-! ## Blanks that can be taken together -/

theorem joined_ne_derivation (left right : Token) (element : Element) :
    joined left right ≠ element.derivation := by
  intro same
  cases element with
  | placeholder => cases same
  | plain token =>
      rw [Element.derivation] at same
      split at same
      · cases same
      · split at same <;> cases same

theorem rowFrom_joined_ne_row (left right : Token) (first next : Element)
    (later : List Element) :
    rowFrom (joined left right) later ≠ row first (next :: later) := by
  intro same
  cases later with
  | nil => cases same
  | cons third later =>
      have parts := (Derivation.built.inj same).2.2
      exact joined_ne_derivation left right first (List.cons.inj parts).1

theorem Element.eq_plain_of_blank {element : Element} (wellKinded : element.WellKinded)
    (blank : .blank ∈ element.tokens.map Token.kind) :
    ∃ token, element = .plain token ∧ token.kind = .blank := by
  cases element with
  | placeholder opening dot name closing =>
      rcases wellKinded with ⟨first, second, third, fourth⟩
      simp [tokens, first, second, third, fourth] at blank
  | plain token =>
      refine ⟨token, rfl, ?_⟩
      simpa [tokens, eq_comm] using blank

theorem Element.mem_of_head? {element : Element} {later : List Token} {kind : Symbol}
    (head : kind ∈ ((element.tokens ++ later).map Token.kind).head?) :
    kind ∈ element.tokens.map Token.kind := by
  cases element <;> simp_all [tokens]

theorem Element.blanksApart {element : Element} (wellKinded : element.WellKinded) :
    BlanksApart (element.tokens.map Token.kind) := by
  cases element with
  | placeholder opening dot name closing =>
      rcases wellKinded with ⟨first, second, third, fourth⟩
      simp [BlanksApart, tokens, first, second, third, fourth]
  | plain token => exact .singleton _

theorem Element.blanksApart_append {first next : Element} {later : List Token}
    (wellKinded : first.WellKinded)
    (distinct : ¬(.blank ∈ first.tokens.map Token.kind ∧ .blank ∈ next.tokens.map Token.kind))
    (apart : BlanksApart ((next.tokens ++ later).map Token.kind)) :
    BlanksApart ((first.tokens ++ (next.tokens ++ later)).map Token.kind) := by
  rw [List.map_append]
  apply List.IsChain.append (blanksApart wellKinded) apart
  intro above last below head
  apply Decidable.byContradiction
  intro blanks
  rw [not_or, not_not, not_not] at blanks
  rcases blanks with ⟨rfl, rfl⟩
  exact distinct ⟨List.mem_of_getLast? last, mem_of_head? head⟩

/-- A row in which two blanks are neighbours is not the only one for its tokens. -/
theorem blanksApart_or_exists_other {first : Element} {later : List Element}
    (wellKinded : ∀ element ∈ first :: later, element.WellKinded) :
    BlanksApart (((first :: later).flatMap Element.tokens).map Token.kind) ∨
    ∃ other : Derivation, other.Valid rules ∧ other.kind = .elements ∧
      other.frontier = (first :: later).flatMap Element.tokens ∧ other ≠ row first later := by
  induction later generalizing first with
  | nil =>
      left
      rw [List.flatMap_singleton]
      exact Element.blanksApart (wellKinded first List.mem_cons_self)
  | cons next later induction =>
      rcases List.forall_mem_cons.mp wellKinded with ⟨firstKinded, tailKinded⟩
      rcases List.forall_mem_cons.mp tailKinded with ⟨nextKinded, laterKinded⟩
      -- Two blanks in front can be joined. Otherwise it is up to the rest of the row.
      by_cases both : .blank ∈ first.tokens.map Token.kind ∧ .blank ∈ next.tokens.map Token.kind
      · right
        rcases Element.eq_plain_of_blank firstKinded both.1 with ⟨left, rfl, leftBlank⟩
        rcases Element.eq_plain_of_blank nextKinded both.2 with ⟨right, rfl, rightBlank⟩
        refine ⟨rowFrom (joined left right) later,
          valid_rowFrom (valid_joined leftBlank rightBlank) rfl laterKinded,
          kind_rowFrom _ _, ?_, rowFrom_joined_ne_row _ _ _ _ _⟩
        rw [frontier_rowFrom]
        rfl
      · rcases induction tailKinded with apart | ⟨other, valid, kind, frontier, differ⟩
        · exact .inl (Element.blanksApart_append firstKinded both apart)
        · right
          refine ⟨phrase 2 [first.derivation, other],
            valid_prepended (Element.valid_derivation firstKinded) first.kind_derivation valid
              kind, rfl, ?_, ?_⟩
          · rw [frontier_phrase, List.flatMap_cons, List.flatMap_singleton, frontier,
              Element.frontier_derivation]
            exact List.flatMap_cons.symm
          · intro same
            have parts := (Derivation.built.inj same).2.2
            exact differ (List.cons.inj (List.cons.inj parts).2).1

theorem exists_other_whole {first : Element} {later : List Element} {ending : Token}
    (wellKinded : ∀ element ∈ first :: later, element.WellKinded)
    (ends : ending.kind = .endOfInput)
    (together : ¬BlanksApart
      (((first :: later).flatMap Element.tokens ++ [ending]).map Token.kind)) :
    ∃ other : Derivation,
      other.Derives grammar ((first :: later).flatMap Element.tokens ++ [ending]) ∧
      other ≠ whole first later ending := by
  rcases blanksApart_or_exists_other wellKinded with apart | ⟨row, valid, kind, frontier, differ⟩
  · refine absurd ?_ together
    rw [List.map_append]
    apply List.IsChain.append apart (.singleton _)
    intro _ _ last shown
    right
    rintro rfl
    rw [ends] at shown
    cases shown
  · rw [← frontier]
    refine ⟨phrase 0 [row, .read ending], derives_ended valid kind ends, ?_⟩
    intro same
    have parts := (Derivation.built.inj same).2.2
    exact differ (List.cons.inj parts).1

/-! ## Trees -/

def Element.tree : Element → Token
  | placeholder opening dot name closing =>
    .ofChildren .element [.ofChildren .placeholder [opening, dot, name, closing]]
  | plain token =>
    .ofChildren .element [if token.kind = .blank then .ofChildren .blanks [token] else token]

def rowTree : Element → List Element → Token
  | only, [] => .ofChildren .elements [only.tree]
  | first, next :: later => .ofChildren .elements [first.tree, rowTree next later]

def wholeTree (first : Element) (later : List Element) (ending : Token) : Token :=
  .ofChildren .source [rowTree first later, ending]

theorem Element.token_derivation (element : Element) : element.derivation.token = element.tree := by
  cases element with
  | placeholder => rfl
  | plain token =>
      rw [derivation, tree]
      split
      · rfl
      · split <;> rfl

theorem token_row (first : Element) (later : List Element) :
    (row first later).token = rowTree first later := by
  induction later generalizing first with
  | nil => rw [rowTree, ← first.token_derivation]; rfl
  | cons next later induction => rw [rowTree, ← first.token_derivation, ← induction]; rfl

theorem token_whole (first : Element) (later : List Element) (ending : Token) :
    (whole first later ending).token = wholeTree first later ending := by
  rw [wholeTree, ← token_row]
  rfl

/-! ## Parsing -/

variable {tokens : List Token}

theorem parse_eq_ambiguous (terminal : ∀ token ∈ tokens, token.kind.isTerminal = true)
    (linked : Token.Linked tokens) (word : tokens.map Token.kind ∈ expression.matches')
    (together : ¬BlanksApart (tokens.map Token.kind)) (trailing : TrailingPolicy) :
    ∃ line column fitting, (table.parse trailing tokens).value =
      .error (.decision line column (.ambiguous .blank fitting)) := by
  rcases exists_row_of_mem word with ⟨first, later, ending, wellKinded, ends, rfl⟩
  have derives := derives_whole wellKinded ends
  rcases exists_other_whole wellKinded ends together with ⟨other, otherDerives, differ⟩
  generalize (first :: later).flatMap Element.tokens ++ [ending] = tokens at *
  match tokens with
  | [] => exact absurd derives.frontier_eq derives.valid.frontier_ne_nil
  | token :: rest =>
      rcases Table.conflicts_of_ne terminated_grammar terminal linked otherDerives derives
          differ with ⟨⟨stack, input⟩, reaches, torn⟩
      rcases between_blanks_of_torn torn with ⟨top, below, rfl, blank, _⟩
      rcases torn.fails_on with ⟨line, column, fitting, fails⟩
      rw [blank] at fails
      exact ⟨line, column, fitting, Parser.parse_eq_of_fails (Table.restores table)
        (Table.run_ne_endless terminated_grammar.phrases token rest) reaches fails trailing⟩

theorem mem_of_parse (terminal : ∀ token ∈ tokens, token.kind.isTerminal = true)
    (linked : Token.Linked tokens) {trailing : TrailingPolicy} {tree : Token}
    (parsed : (table.parse trailing tokens).value = .ok tree) :
    tokens.map Token.kind ∈ expression.matches' ∧ BlanksApart (tokens.map Token.kind) := by
  rcases Table.exists_accepted terminated_grammar linked parsed with
    ⟨_, _, _, root, _, _, _, _, valid, start, spelled⟩
  have word := valid.map_kind_frontier_mem words_closed mem_words_self (by rwa [spelled])
  rw [spelled, start] at word
  refine ⟨word, ?_⟩
  apply Decidable.byContradiction
  intro together
  rcases parse_eq_ambiguous terminal linked word together trailing with ⟨_, _, _, failed⟩
  rw [parsed] at failed
  cases failed

theorem exists_parse_eq_wholeTree (terminal : ∀ token ∈ tokens, token.kind.isTerminal = true)
    (linked : Token.Linked tokens) (word : tokens.map Token.kind ∈ expression.matches')
    (apart : BlanksApart (tokens.map Token.kind)) :
    ∃ first later ending, (∀ element ∈ first :: later, element.WellKinded) ∧
      ending.kind = .endOfInput ∧
      tokens = (first :: later).flatMap Element.tokens ++ [ending] ∧
      ∀ trailing, (table.parse trailing tokens).value = .ok (wholeTree first later ending) := by
  rcases exists_row_of_mem word with ⟨first, later, ending, wellKinded, ends, rfl⟩
  have parsed := parse_of_derives (derives_whole wellKinded ends) terminal linked apart
  rw [token_whole] at parsed
  exact ⟨first, later, ending, wellKinded, ends, rfl, parsed⟩

/-- Tokens are parsed exactly if their kinds are a word and no two blanks are neighbours. The tree
then has the elements in order and all of the tokens, so it does not matter what may trail. Words in
which two blanks are neighbours are ambiguous. -/
theorem parse_language (terminal : ∀ token ∈ tokens, token.kind.isTerminal = true)
    (linked : Token.Linked tokens) (trailing : TrailingPolicy) :
    ((∃ tree, (table.parse trailing tokens).value = .ok tree) ↔
      tokens.map Token.kind ∈ expression.matches' ∧ BlanksApart (tokens.map Token.kind)) ∧
    (∀ tree, (table.parse trailing tokens).value = .ok tree →
      (table.parse .refuse tokens).value = .ok tree ∧
      ∃ first later ending, (∀ element ∈ first :: later, element.WellKinded) ∧
        ending.kind = .endOfInput ∧
        tokens = (first :: later).flatMap Element.tokens ++ [ending] ∧
        tree = wholeTree first later ending) ∧
    (tokens.map Token.kind ∈ expression.matches' → ¬BlanksApart (tokens.map Token.kind) →
      ∃ line column fitting, (table.parse trailing tokens).value =
        .error (.decision line column (.ambiguous .blank fitting))) := by
  refine ⟨⟨?_, ?_⟩, ?_, ?_⟩
  · rintro ⟨tree, parsed⟩
    exact mem_of_parse terminal linked parsed
  · rintro ⟨word, apart⟩
    rcases exists_parse_eq_wholeTree terminal linked word apart with ⟨_, _, _, _, _, _, parsed⟩
    exact ⟨_, parsed trailing⟩
  · intro tree parsed
    rcases mem_of_parse terminal linked parsed with ⟨word, apart⟩
    rcases exists_parse_eq_wholeTree terminal linked word apart with
      ⟨first, later, ending, wellKinded, ends, spelled, again⟩
    rw [again trailing] at parsed
    rcases Except.ok.inj parsed with rfl
    exact ⟨again .refuse, first, later, ending, wellKinded, ends, spelled, rfl⟩
  · intro word together
    exact parse_eq_ambiguous terminal linked word together trailing

theorem parse_language_blanks :
    (∃ tree, (table.parse .warn Table.placeholderDerivation.frontier).value = .ok tree) ∧
      ∃ line column fitting, (table.parse .warn Table.blanksApart.frontier).value =
        .error (.decision line column (.ambiguous .blank fitting)) := by
  have placeholder : ∀ token ∈ Table.placeholderDerivation.frontier,
      token.kind.isTerminal = true := by decide
  have blanks : ∀ token ∈ Table.blanksApart.frontier, token.kind.isTerminal = true := by decide
  exact ⟨(parse_language placeholder (by decide) .warn).1.mpr ⟨by decide, by decide⟩,
    (parse_language blanks (by decide) .warn).2.2 (by decide) (by decide)⟩

end Template

end Stencil
