import Stencil.Proofs.Template.Elements

/-! # How far a parser gets

A parser that reads elements puts their derivations on its stack, one above the other. It goes on
until the input ends, or until a token is not followed by what has to come behind it.
-/

namespace Stencil

namespace Table

open Stencil.Parser

/-- On the way from a state a parser comes to another one, or it finds an ambiguity. -/
def ComesTo (grammar : Grammar) (state later : State) : Prop :=
  Reaches (ofGrammar grammar).parser state later ∨ Conflicts (ofGrammar grammar) state

variable {grammar : Grammar}

theorem ComesTo.trans {state between later : State} (first : ComesTo grammar state between)
    (second : ComesTo grammar between later) : ComesTo grammar state later := by
  rcases first with reaches | conflicts
  · rcases second with further | conflicts
    · exact .inl (reaches.trans further)
    · exact .inr (conflicts.of_reaches reaches)
  · exact .inr conflicts

theorem comesTo_shift {index : Nat} {rule : Rule} (numbered : grammar.rules[index]? = some rule)
    {top : Derivation} {done below : List Derivation} {next : Symbol} {later : List Symbol}
    (split : rule.rhs = (done.map Derivation.kind).reverse ++ top.kind :: next :: later)
    (starts : (grammar.surroundings.precede.get rule.lhs).contains
      (below.head?.map Derivation.kind) = true)
    {token : Token} (follows : top.token.lookahead.map (·.symbol) = some token.kind)
    (begins : (grammar.surroundings.first.get next).contains (some token.kind) = true)
    (input : List Token) :
    ComesTo grammar ⟨top :: (done ++ below), token :: input⟩
      ⟨.read token :: top :: (done ++ below), input⟩ := by
  have member := mem_items_iff.mpr ⟨index, rule, _, _, numbered, split, rfl⟩
  have fits : (Item.atPlace grammar.surroundings index rule (done.map Derivation.kind).reverse
      top.kind (next :: later)).Fits (top.token.lookahead.map (·.symbol))
      (top.kind :: (done ++ below).map Derivation.kind) := by
    refine ⟨by rw [follows]; exact begins, below.map Derivation.kind, ?_, ?_⟩
    · rw [Item.expected_atPlace]
      simp
    · rw [Item.mayStartAbove, Item.preceding_atPlace, List.head?_map]
      exact starts
  rcases decision_or_conflicts (token :: input) member fits with decided | conflicts
  · exact .inl (.single (.shift decided))
  · exact .inr conflicts

end Table

namespace Template

open Stencil.Parser Stencil.Table

/-! ## What has to come next -/

/-- What has to come behind a token of some kind, where it is a single kind of token that a source
may fail to have there. -/
def expectedBehind : Symbol → Option Symbol
  | .openBraces => some .dot
  | .name => some .closeBraces
  | _ => none

/-- The first token of a list that is not followed by what has to come behind it, with what that is
and with the token that comes instead. -/
inductive FirstUnmet : List Token → Token → Symbol → Token → Prop
  | here {token next : Token} {behind : List Token} {wanted : Symbol}
      (expected : expectedBehind token.kind = some wanted) (unmet : next.kind ≠ wanted) :
      FirstUnmet (token :: next :: behind) token wanted next
  | later {first second : Token} {behind : List Token} {token next : Token} {wanted : Symbol}
      (met : ∀ wanted ∈ expectedBehind first.kind, second.kind = wanted)
      (unmet : FirstUnmet (second :: behind) token wanted next) :
      FirstUnmet (first :: second :: behind) token wanted next

def unmetError (token : Token) (wanted : Symbol) (next : Token) : ParseError :=
  .decision token.span.line token.span.column
    (.unexpectedLookahead token.kind (.singleton wanted) (some next.kind))

/-- Tokens that begin a placeholder, up to one behind which a certain token has to come. -/
inductive Unfinished : List Token → Token → Symbol → Prop
  | braces {opening : Token} (opens : opening.kind = .openBraces) : Unfinished [] opening .dot
  | name {opening dot name : Token} (opens : opening.kind = .openBraces) (dots : dot.kind = .dot)
      (names : name.kind = .name) : Unfinished [opening, dot] name .closeBraces

/-- How the tokens of a source follow each other: a row of elements, and then the end of the input
or a placeholder that goes wrong. -/
inductive Layout : List Token → Prop
  | ended {ending : Token} (ends : ending.kind = .endOfInput) : Layout [ending]
  | element {element : Element} {tokens : List Token} (wellKinded : element.WellKinded)
      (later : Layout tokens) : Layout (element.tokens ++ tokens)
  | unfinished {begun behind : List Token} {token next : Token} {wanted : Symbol}
      (unfinished : Unfinished begun token wanted) (unmet : next.kind ≠ wanted) :
      Layout (begun ++ token :: next :: behind)

/-! ## Checks of the table -/

theorem items_of_expectedBehind : ∀ symbol ∈ Symbol.all, ∀ wanted ∈ expectedBehind symbol,
    (table.items.get symbol).map (fun item => (item.focus, item.lookaheads)) =
      [(symbol, .singleton wanted)] := by
  decide +kernel

theorem fails_of_unmet {token next : Token} {wanted : Symbol}
    (expected : expectedBehind token.kind = some wanted)
    (follows : token.lookahead.map (·.symbol) = some next.kind) (unmet : next.kind ≠ wanted)
    (below : List Derivation) (input : List Token) :
    Fails table.parser ⟨.read token :: below, input⟩ (unmetError token wanted next) := by
  have items := items_of_expectedBehind token.kind token.kind.mem_all wanted expected
  rcases List.map_eq_singleton_iff.mp items with ⟨item, single, same⟩
  rcases Prod.mk.inj same with ⟨focus, lookaheads⟩
  have refused : item.lookaheads.contains (some next.kind) = false := by
    rw [lookaheads, SymbolSet.contains_singleton]
    simpa using unmet
  have decided : State.decision ⟨.read token :: below, input⟩ table.parser =
      .error (.unexpectedLookahead token.kind (.singleton wanted) (some next.kind)) := by
    rw [decision_cons, Derivation.token, follows, decide_of_single single,
      decideAlone_of_not_contains refused, focus, lookaheads]
  exact .undecided decided

def beginnings : List Symbol :=
  [.openBraces, .text, .newline, .blank]

theorem contains_precede : ∀ phrase ∈ [Symbol.elements, .element, .placeholder],
    ∀ below ∈ [none, some Symbol.element],
      (grammar.surroundings.precede.get phrase).contains below = true := by
  decide +kernel

theorem contains_beginning : ∀ kind ∈ beginnings,
    (grammar.surroundings.first.get .elements).contains (some kind) = true ∧
      (grammar.surroundings.follow.get .element).contains (some kind) = true := by
  decide +kernel

/-! ## Elements and placeholders that go wrong -/

theorem Element.exists_head {element : Element} (wellKinded : element.WellKinded) :
    ∃ head others, element.tokens = head :: others ∧ head.kind ∈ beginnings := by
  cases element with
  | placeholder opening dot name closing =>
      exact ⟨opening, _, rfl, by simp [beginnings, wellKinded.1]⟩
  | plain token =>
      refine ⟨token, _, rfl, ?_⟩
      rcases wellKinded with kind | kind | kind <;> simp [beginnings, kind]

theorem Element.isTerminal {element : Element} (wellKinded : element.WellKinded) :
    ∀ token ∈ element.tokens, token.kind.isTerminal = true := by
  cases element with
  | placeholder opening dot name closing =>
      rcases wellKinded with ⟨first, second, third, fourth⟩
      simp [tokens, first, second, third, fourth, Symbol.isTerminal]
  | plain token =>
      rcases wellKinded with kind | kind | kind <;> simp [tokens, kind, Symbol.isTerminal]

theorem comesTo_element {element : Element} (wellKinded : element.WellKinded) {first next : Token}
    {rest behind : List Token} (spelled : element.tokens = first :: rest)
    (linked : Token.Linked (element.tokens ++ next :: behind)) (begins : next.kind ∈ beginnings)
    {below : List Derivation} (above : below.head?.map Derivation.kind ∈ [none, some .element]) :
    ComesTo grammar ⟨.read first :: below, rest ++ next :: behind⟩
      ⟨.read next :: element.derivation :: below, behind⟩ := by
  have valid := Element.valid_derivation wellKinded
  have frontier := element.frontier_derivation
  have kind := element.kind_derivation
  have suits : Suits grammar element.derivation.kind (below.head?.map Derivation.kind)
      ((next :: behind).head?.map Token.kind) := by
    rw [kind]
    exact ⟨contains_precede .element (by simp) _ above,
      fun _ => (contains_beginning next.kind begins).2⟩
  have arises := arises_of_valid terminated_grammar valid (by rw [kind]; exact nofun)
    (by rw [frontier]; exact Element.isTerminal wellKinded)
  have built := arises below first rest (next :: behind) (frontier.trans spelled)
    (by rwa [frontier]) suits
  have follows : element.derivation.token.lookahead.map (·.symbol) = some next.kind := by
    rw [valid.lookahead_token, frontier]
    exact linked.getLast?_lookahead (by rw [spelled]; exact List.cons_ne_nil _ _)
  have numbered : grammar.rules[2]? = some rules[2] := rfl
  have place : rules[2].rhs = (([] : List Derivation).map Derivation.kind).reverse ++
      element.derivation.kind :: [.elements] := by
    rw [kind]
    rfl
  have shifted : ComesTo grammar ⟨element.derivation :: ([] ++ below), next :: behind⟩
      ⟨.read next :: element.derivation :: ([] ++ below), behind⟩ :=
    comesTo_shift numbered place (contains_precede .elements (by simp) _ above) follows
      (contains_beginning next.kind begins).1 behind
  exact ComesTo.trans built shifted

theorem comesTo_unfinished {begun behind : List Token} {token next : Token} {wanted : Symbol}
    (unfinished : Unfinished begun token wanted)
    (linked : Token.Linked (begun ++ token :: next :: behind)) {first : Token} {rest : List Token}
    (spelled : begun ++ token :: next :: behind = first :: rest) {below : List Derivation}
    (above : below.head?.map Derivation.kind ∈ [none, some .element]) :
    ∃ shown, ComesTo grammar ⟨.read first :: below, rest⟩
      ⟨.read token :: shown, next :: behind⟩ := by
  cases unfinished with
  | braces opens =>
      rcases List.cons.inj spelled with ⟨rfl, rfl⟩
      exact ⟨below, .inl .refl⟩
  | @name opening dot _ opens dots names =>
      rcases List.cons.inj spelled with ⟨rfl, rfl⟩
      have numbered : grammar.rules[7]? = some rules[7] := rfl
      have starts := contains_precede .placeholder (by simp) _ above
      have firstPlace : rules[7].rhs = (([] : List Derivation).map Derivation.kind).reverse ++
          (Derivation.read opening).kind :: [.dot, .name, .closeBraces] := by
        rw [Derivation.kind, opens]
        rfl
      have secondPlace : rules[7].rhs = ([Derivation.read opening].map Derivation.kind).reverse ++
          (Derivation.read dot).kind :: [.name, .closeBraces] := by
        rw [List.map_singleton, Derivation.kind, Derivation.kind, opens, dots]
        rfl
      have dotBegins := grammar.first_terminal (show Symbol.isTerminal .dot = true from rfl)
      have nameBegins := grammar.first_terminal (show Symbol.isTerminal .name = true from rfl)
      have shifted : ComesTo grammar
          ⟨.read opening :: ([] ++ below), dot :: token :: next :: behind⟩
          ⟨.read dot :: .read opening :: ([] ++ below), token :: next :: behind⟩ :=
        comesTo_shift numbered firstPlace starts linked.1 (by rw [dots]; exact dotBegins) _
      have again : ComesTo grammar
          ⟨.read dot :: ([.read opening] ++ below), token :: next :: behind⟩
          ⟨.read token :: .read dot :: ([.read opening] ++ below), next :: behind⟩ :=
        comesTo_shift numbered secondPlace starts linked.2.1 (by rw [names]; exact nameBegins) _
      exact ⟨_, ComesTo.trans shifted again⟩

/-! ## Whole inputs -/

theorem Unfinished.expectedBehind {begun : List Token} {token : Token} {wanted : Symbol}
    (unfinished : Unfinished begun token wanted) :
    Template.expectedBehind token.kind = some wanted := by
  cases unfinished with
  | braces opens => rw [opens]; rfl
  | name _ _ names => rw [names]; rfl

theorem FirstUnmet.of_unfinished {begun : List Token} {token next : Token} {wanted : Symbol}
    (unfinished : Unfinished begun token wanted) (unmet : next.kind ≠ wanted)
    (behind : List Token) : FirstUnmet (begun ++ token :: next :: behind) token wanted next := by
  have expected := unfinished.expectedBehind
  cases unfinished with
  | braces => exact .here expected unmet
  | name opens dots =>
      apply FirstUnmet.later
      · simp [Template.expectedBehind, opens, dots]
      · apply FirstUnmet.later
        · simp [Template.expectedBehind, dots]
        · exact .here expected unmet

theorem FirstUnmet.later_iff {first second : Token} {behind : List Token}
    (met : ∀ wanted ∈ Template.expectedBehind first.kind, second.kind = wanted)
    {token next : Token} {wanted : Symbol} :
    FirstUnmet (first :: second :: behind) token wanted next ↔
      FirstUnmet (second :: behind) token wanted next := by
  constructor
  · intro unmet
    cases unmet with
    | here expected differs => exact absurd (met _ expected) differs
    | later _ unmet => exact unmet
  · exact .later met

theorem FirstUnmet.behind_element_iff {element : Element} (wellKinded : element.WellKinded)
    {tokens : List Token} (nonempty : tokens ≠ []) {token next : Token} {wanted : Symbol} :
    FirstUnmet (element.tokens ++ tokens) token wanted next ↔
      FirstUnmet tokens token wanted next := by
  rcases List.exists_cons_of_ne_nil nonempty with ⟨head, others, rfl⟩
  cases element with
  | placeholder opening dot name closing =>
      rcases wellKinded with ⟨opens, dots, names, closes⟩
      simp only [Element.tokens, List.cons_append, List.nil_append]
      rw [later_iff (by simp [Template.expectedBehind, opens, dots]),
        later_iff (by simp [Template.expectedBehind, dots]),
        later_iff (by simp [Template.expectedBehind, names, closes]),
        later_iff (by simp [Template.expectedBehind, closes])]
  | plain token =>
      apply later_iff
      rcases wellKinded with kind | kind | kind <;> simp [Template.expectedBehind, kind]

theorem FirstUnmet.unique {tokens : List Token} {token token' next next' : Token}
    {wanted wanted' : Symbol} (unmet : FirstUnmet tokens token wanted next)
    (unmet' : FirstUnmet tokens token' wanted' next') :
    token = token' ∧ wanted = wanted' ∧ next = next' := by
  induction unmet with
  | here expected differs =>
      cases unmet' with
      | here expected' => exact ⟨rfl, Option.some.inj (expected.symm.trans expected'), rfl⟩
      | later met => exact absurd (met _ expected) differs
  | later met _ induction => exact induction ((later_iff met).mp unmet')

theorem not_firstUnmet_row {row : List Element}
    (wellKinded : ∀ element ∈ row, element.WellKinded) (ending token : Token) (wanted : Symbol)
    (next : Token) : ¬FirstUnmet (row.flatMap Element.tokens ++ [ending]) token wanted next := by
  induction row with
  | nil => exact nofun
  | cons element later induction =>
      rcases List.forall_mem_cons.mp wellKinded with ⟨head, tail⟩
      rw [List.flatMap_cons, List.append_assoc,
        FirstUnmet.behind_element_iff head (List.concat_ne_nil _ _)]
      exact induction tail

theorem Layout.exists_head {tokens : List Token} (layout : Layout tokens) :
    ∃ head others, tokens = head :: others ∧ (others = [] ∨ head.kind ∈ beginnings) := by
  cases layout with
  | ended => exact ⟨_, [], rfl, .inl rfl⟩
  | element wellKinded =>
      rcases Element.exists_head wellKinded with ⟨head, others, spelled, begins⟩
      rw [spelled]
      exact ⟨head, _, rfl, .inr begins⟩
  | unfinished unfinished =>
      cases unfinished with
      | braces opens => exact ⟨_, _, rfl, .inr (by simp [beginnings, opens])⟩
      | name opens => exact ⟨_, _, rfl, .inr (by simp [beginnings, opens])⟩

/-- Tokens are a row of elements and an end, or a parser fails at the first token that is not
followed by what has to come behind it. -/
theorem Layout.outcome {tokens : List Token} (layout : Layout tokens) (linked : Token.Linked tokens)
    {first : Token} {rest : List Token} (spelled : tokens = first :: rest)
    {below : List Derivation} (above : below.head?.map Derivation.kind ∈ [none, some .element]) :
    (∃ (row : List Element) (ending : Token), (∀ element ∈ row, element.WellKinded) ∧
      ending.kind = .endOfInput ∧ tokens = row.flatMap Element.tokens ++ [ending]) ∨
    ∃ token wanted next, FirstUnmet tokens token wanted next ∧
      ∃ last, ComesTo grammar ⟨.read first :: below, rest⟩ last ∧
        Fails table.parser last (unmetError token wanted next) := by
  -- Below the tokens that are left there is nothing or an element, so the next one may begin.
  induction layout generalizing first rest below with
  | ended ends => exact .inl ⟨[], _, nofun, ends, rfl⟩
  | @element element tokens wellKinded layout induction =>
      rcases layout.exists_head with ⟨head, others, rfl, short⟩
      have inside : (element.derivation :: below).head?.map Derivation.kind ∈
          [none, some .element] := by
        simp [element.kind_derivation]
      rcases induction linked.append_right rfl inside with
        ⟨row, ending, others, ends, whole⟩ | ⟨token, wanted, next, unmet, last, comesTo, fails⟩
      · left
        refine ⟨element :: row, ending, List.forall_mem_cons.mpr ⟨wellKinded, others⟩, ends, ?_⟩
        rw [whole, List.flatMap_cons, List.append_assoc]
      · right
        have whole := (FirstUnmet.behind_element_iff wellKinded (List.cons_ne_nil _ _)).mpr unmet
        refine ⟨token, wanted, next, whole, last, ?_, fails⟩
        rcases short with rfl | begins
        · cases unmet
        · rcases Element.exists_head wellKinded with ⟨own, more, shown, _⟩
          have advanced := comesTo_element wellKinded shown linked begins above
          rw [shown] at spelled
          rcases List.cons.inj spelled with ⟨rfl, rfl⟩
          exact advanced.trans comesTo
  | @unfinished begun behind token next wanted unfinished unmet =>
      right
      have here := linked.append_right.1
      rcases comesTo_unfinished unfinished linked spelled above with ⟨shown, comesTo⟩
      exact ⟨token, wanted, next, .of_unfinished unfinished unmet behind, _, comesTo,
        fails_of_unmet unfinished.expectedBehind here unmet _ _⟩

theorem Layout.parse {tokens : List Token} (layout : Layout tokens) (linked : Token.Linked tokens)
    (apart : BlanksApart (tokens.map Token.kind)) (trailing : TrailingPolicy) :
    (∃ (row : List Element) (ending : Token), (∀ element ∈ row, element.WellKinded) ∧
      ending.kind = .endOfInput ∧ tokens = row.flatMap Element.tokens ++ [ending]) ∨
    ∃ token wanted next, FirstUnmet tokens token wanted next ∧
      (table.parse trailing tokens).value = .error (unmetError token wanted next) := by
  rcases layout.exists_head with ⟨first, rest, rfl, _⟩
  rcases layout.outcome linked rfl (show ([] : List Derivation).head?.map Derivation.kind ∈
      [none, some .element] by simp) with rows | ⟨token, wanted, next, unmet, last, comesTo, fails⟩
  · exact .inl rows
  · rcases comesTo with reaches | conflicts
    · exact .inr ⟨token, wanted, next, unmet, parse_eq_of_fails (Table.restores table)
        (Table.run_ne_endless terminated_grammar.phrases first rest) reaches fails trailing⟩
    · exact absurd conflicts (not_conflicts linked apart)

end Template

end Stencil
