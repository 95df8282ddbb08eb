import Stencil.Grammar.Notation
import Stencil.Proofs.Text.Fields

/-! # Lines of grammar text

A line describes a rule, or it has a fault. Both are told here from the fields of the line, without
the reader, and every line that is not blank turns out to have one or the other: the rule that the
reader finds there, or the fault that it reports.
-/

namespace Stencil

open Text

def Symbol.field (symbol : Symbol) : List Char :=
  symbol.grammarName.toList

def Unnamed (name : List Char) : Prop :=
  ∀ symbol : Symbol, symbol.field ≠ name

theorem Symbol.isField_field (symbol : Symbol) : IsField symbol.field := by
  cases symbol <;> decide

theorem Symbol.field_ne_equals (symbol : Symbol) : symbol.field ≠ ['='] := by
  cases symbol <;> decide

namespace Rule

variable {rule : Rule} {line : List Char} {row : List (List Char)} {cause : RuleTextError}

def fields (rule : Rule) : List (List Char) :=
  rule.lhs.field :: ['='] :: rule.rhs.map Symbol.field

/-- A line describes a rule for a phrase: it has the fields of the rule, with a dot behind them.
Blanks separate the fields; they may also stand at both ends of the line and in front of the dot. -/
structure DescribedBy (rule : Rule) (line : List Char) : Prop where
  phrase : rule.lhs.isTerminal = false
  form : ∃ body after, line = body ++ '.' :: after ∧ Fields rule.fields body ∧ AllBlank after

inductive FieldsFault : List (List Char) → RuleTextError → Prop
  | missingEquals {fields : List (List Char)} (none : ['='] ∉ fields) :
      FieldsFault fields .missingEquals
  | emptyLhs {right : List (List Char)} : FieldsFault (['='] :: right) .emptyLhs
  | multipleLhs {left right : List (List Char)} (first : ['='] ∉ left) (several : 2 ≤ left.length) :
      FieldsFault (left ++ ['='] :: right) (.multipleLhs left.length)
  | unknownLhs {name : List Char} {right : List (List Char)} (first : name ≠ ['='])
      (unnamed : Unnamed name) :
      FieldsFault (name :: ['='] :: right) (.unknownSymbol (String.ofList name))
  | terminalLhs {lhs : Symbol} {right : List (List Char)} (terminal : lhs.isTerminal = true) :
      FieldsFault (lhs.field :: ['='] :: right) (.terminalLhs lhs.grammarName)
  | unknownRhs {lhs : Symbol} {known : List Symbol} {name : List Char} {right : List (List Char)}
      (phrase : lhs.isTerminal = false) (unnamed : Unnamed name) :
      FieldsFault (lhs.field :: ['='] :: (known.map Symbol.field ++ name :: right))
        (.unknownSymbol (String.ofList name))
  | emptyRhs {lhs : Symbol} (phrase : lhs.isTerminal = false) :
      FieldsFault [lhs.field, ['=']] .emptyRhs

/-- What is wrong with a line that is not blank and describes no rule. -/
inductive LineFault : List Char → RuleTextError → Prop
  | missingTerminator {body after : List Char} {last : Char} (solid : isBlank last = false)
      (other : last ≠ '.') (blank : AllBlank after) :
      LineFault (body ++ last :: after) .missingTerminator
  | ofFields {body after : List Char} {fields : List (List Char)} {cause : RuleTextError}
      (blank : AllBlank after) (cut : Fields fields body) (fault : FieldsFault fields cause) :
      LineFault (body ++ '.' :: after) cause

/-! ## Names -/

theorem symbolNamed_field (symbol : Symbol) : symbolNamed symbol.field = .ok symbol := by
  rw [symbolNamed, Symbol.field, String.ofList_toList, Symbol.ofGrammarName?_grammarName]

theorem symbolNamed_of_unnamed {name : List Char} (unnamed : Unnamed name) :
    symbolNamed name = .error (.unknownSymbol (String.ofList name)) := by
  have unknown : Symbol.ofGrammarName? (String.ofList name) = none := by
    apply List.find?_eq_none.mpr
    intro symbol _ same
    apply unnamed symbol
    rw [Symbol.field, beq_iff_eq.mp same, String.toList_ofList]
  rw [symbolNamed, unknown]

theorem mapM_symbolNamed_append (known : List Symbol) (names : List (List Char)) :
    (known.map Symbol.field ++ names).mapM symbolNamed =
      (names.mapM symbolNamed).map (known ++ ·) := by
  induction known with
  | nil =>
      rw [List.map_nil, List.nil_append]
      cases names.mapM symbolNamed <;> rfl
  | cons symbol later induction =>
      rw [List.map_cons, List.cons_append, List.mapM_cons, symbolNamed_field, induction]
      cases names.mapM symbolNamed <;> rfl

theorem exists_symbol {name : List Char} (named : ¬Unnamed name) :
    ∃ symbol : Symbol, symbol.field = name :=
  (Classical.not_forall.mp named).imp fun _ => Classical.not_not.mp

theorem named_or_unnamed (names : List (List Char)) :
    (∃ symbols : List Symbol, names = symbols.map Symbol.field) ∨
      ∃ (known : List Symbol) (name : List Char) (right : List (List Char)),
        names = known.map Symbol.field ++ name :: right ∧ Unnamed name := by
  induction names with
  | nil => exact .inl ⟨[], rfl⟩
  | cons name later induction =>
      by_cases unnamed : Unnamed name
      · exact .inr ⟨[], name, later, rfl, unnamed⟩
      · rcases exists_symbol unnamed with ⟨symbol, rfl⟩
        rcases induction with ⟨symbols, rfl⟩ | ⟨known, name, right, rfl, unnamed⟩
        · exact .inl ⟨symbol :: symbols, rfl⟩
        · exact .inr ⟨symbol :: known, name, right, rfl, unnamed⟩

/-! ## Fields -/

section Sides

variable {left : List (List Char)}

theorem ne_equals_of_not_mem (first : ['='] ∉ left) :
    ∀ field ∈ left, decide (field ≠ ['=']) = true := by
  intro field member
  rw [decide_eq_true_eq]
  rintro rfl
  exact first member

theorem takeWhile_append_equals (first : ['='] ∉ left) (right : List (List Char)) :
    (left ++ ['='] :: right).takeWhile (· ≠ ['=']) = left := by
  rw [List.takeWhile_append_of_pos (ne_equals_of_not_mem first),
    List.takeWhile_cons_of_neg (by decide), List.append_nil]

theorem dropWhile_append_equals (first : ['='] ∉ left) (right : List (List Char)) :
    (left ++ ['='] :: right).dropWhile (· ≠ ['=']) = ['='] :: right := by
  rw [List.dropWhile_append_of_pos (ne_equals_of_not_mem first),
    List.dropWhile_cons_of_neg (by decide)]

theorem ofFields_of_not_mem (none : ['='] ∉ left) : ofFields left = .error .missingEquals := by
  have nothing : (left ++ []).dropWhile (· ≠ ['=']) = [].dropWhile (· ≠ ['=']) :=
    List.dropWhile_append_of_pos (ne_equals_of_not_mem none)
  rw [List.append_nil] at nothing
  rw [ofFields, nothing]
  rfl

theorem ofFields_several (first : ['='] ∉ left) (several : 2 ≤ left.length)
    (right : List (List Char)) :
    ofFields (left ++ ['='] :: right) = .error (.multipleLhs left.length) := by
  rw [ofFields, takeWhile_append_equals first, dropWhile_append_equals first]
  match left, several with
  | _ :: _ :: _, _ => rfl

theorem ofFields_single {name : List Char} (first : name ≠ ['=']) (right : List (List Char)) :
    ofFields (name :: ['='] :: right) = (do
      let lhs ← phraseNamed name
      let rhs ← right.mapM symbolNamed
      (ofSides? lhs rhs).elim (.error .emptyRhs) .ok) := by
  have absent : ['='] ∉ [name] := by
    rw [List.mem_singleton]
    exact first.symm
  change ofFields ([name] ++ ['='] :: right) = _
  rw [ofFields, takeWhile_append_equals absent, dropWhile_append_equals absent]
  refine bind_congr fun lhs => bind_congr fun rhs => ?_
  cases ofSides? lhs rhs <;> rfl

end Sides

theorem phraseNamed_field {lhs : Symbol} (phrase : lhs.isTerminal = false) :
    phraseNamed lhs.field = .ok lhs := by
  rw [phraseNamed, symbolNamed_field]
  change (if lhs.isTerminal = true then _ else _) = _
  rw [phrase]
  rfl

theorem phraseNamed_of_terminal {lhs : Symbol} (terminal : lhs.isTerminal = true) :
    phraseNamed lhs.field = .error (.terminalLhs lhs.grammarName) := by
  rw [phraseNamed, symbolNamed_field]
  change (if lhs.isTerminal = true then _ else _) = _
  rw [if_pos terminal, Symbol.field, String.ofList_toList]

theorem phraseNamed_of_unnamed {name : List Char} (unnamed : Unnamed name) :
    phraseNamed name = .error (.unknownSymbol (String.ofList name)) := by
  rw [phraseNamed, symbolNamed_of_unnamed unnamed]
  rfl

theorem mapM_symbolNamed_map (symbols : List Symbol) :
    (symbols.map Symbol.field).mapM symbolNamed = .ok symbols := by
  have known := mapM_symbolNamed_append symbols []
  rw [List.append_nil] at known
  rw [known]
  exact congrArg Except.ok (List.append_nil symbols)

theorem ofFields_fields (phrase : rule.lhs.isTerminal = false) : ofFields rule.fields = .ok rule := by
  rw [fields, ofFields_single rule.lhs.field_ne_equals, phraseNamed_field phrase,
    mapM_symbolNamed_map]
  change (ofSides? rule.lhs rule.rhs).elim _ _ = _
  rw [ofSides?, dif_pos rule.rhs_ne_nil]
  rfl

theorem FieldsFault.ofFields_eq (fault : FieldsFault row cause) : ofFields row = .error cause := by
  cases fault with
  | missingEquals none => exact ofFields_of_not_mem none
  | emptyLhs => rfl
  | multipleLhs first several => exact ofFields_several first several _
  | unknownLhs first unnamed =>
      rw [ofFields_single first, phraseNamed_of_unnamed unnamed]
      rfl
  | @terminalLhs lhs right terminal =>
      rw [ofFields_single lhs.field_ne_equals, phraseNamed_of_terminal terminal]
      rfl
  | @unknownRhs lhs known name right phrase unnamed =>
      rw [ofFields_single lhs.field_ne_equals, phraseNamed_field phrase, mapM_symbolNamed_append,
        List.mapM_cons, symbolNamed_of_unnamed unnamed]
      rfl
  | @emptyRhs lhs phrase =>
      rw [ofFields_single lhs.field_ne_equals, phraseNamed_field phrase]
      rfl

theorem fields_or_fault_of_single {name : List Char} (first : name ≠ ['='])
    (right : List (List Char)) :
    (∃ rule : Rule, rule.lhs.isTerminal = false ∧ name :: ['='] :: right = rule.fields) ∨
      ∃ cause, FieldsFault (name :: ['='] :: right) cause := by
  by_cases unnamed : Unnamed name
  · exact .inr ⟨_, .unknownLhs first unnamed⟩
  · rcases exists_symbol unnamed with ⟨lhs, rfl⟩
    cases terminal : lhs.isTerminal with
    | true => exact .inr ⟨_, .terminalLhs terminal⟩
    | false =>
        rcases named_or_unnamed right with ⟨rhs, rfl⟩ | ⟨known, name, later, rfl, unnamed⟩
        · by_cases empty : rhs = []
          · subst empty
            exact .inr ⟨_, .emptyRhs terminal⟩
          · exact .inl ⟨⟨lhs, rhs, empty⟩, terminal, rfl⟩
        · exact .inr ⟨_, .unknownRhs terminal unnamed⟩

theorem fields_or_fault (row : List (List Char)) :
    (∃ rule : Rule, rule.lhs.isTerminal = false ∧ row = rule.fields) ∨
      ∃ cause, FieldsFault row cause := by
  by_cases present : ['='] ∈ row
  · rcases List.eq_append_cons_of_mem present with ⟨left, right, rfl, first⟩
    match left with
    | [] => exact .inr ⟨_, .emptyLhs⟩
    | [name] =>
        have different : name ≠ ['='] := fun same => first (List.mem_singleton.mpr same.symm)
        exact fields_or_fault_of_single different right
    | _ :: _ :: _ => exact .inr ⟨_, .multipleLhs first (Nat.le_add_left 2 _)⟩
  · exact .inr ⟨_, .missingEquals present⟩

/-! ## Lines -/

theorem ofLine_trim {body after : List Char} {last : Char} (solid : isBlank last = false)
    (blank : AllBlank after) :
    ofLine (trim (body ++ last :: after)) =
      if last = '.' then ofFields (splitFields body) else .error .missingTerminator := by
  rw [trim_of_last solid blank, ofLine, List.getLast?_concat, List.dropLast_concat,
    splitFields_dropWhile]
  simp only [Option.some.injEq]

theorem isBlank_dot : isBlank '.' = false := by
  decide

theorem DescribedBy.ofLine_eq (described : rule.DescribedBy line) :
    ofLine (trim line) = .ok rule := by
  rcases described with ⟨phrase, body, after, rfl, cut, blank⟩
  rw [ofLine_trim isBlank_dot blank, if_pos rfl, cut.splitFields_eq, ofFields_fields phrase]

theorem LineFault.ofLine_eq (fault : LineFault line cause) : ofLine (trim line) = .error cause := by
  cases fault with
  | missingTerminator solid other blank => rw [ofLine_trim solid blank, if_neg other]
  | ofFields blank cut fault =>
      rw [ofLine_trim isBlank_dot blank, if_pos rfl, cut.splitFields_eq, fault.ofFields_eq]

theorem described_or_fault (visible : ¬AllBlank line) :
    (∃ rule : Rule, rule.DescribedBy line) ∨ ∃ cause, LineFault line cause := by
  rcases exists_last visible with ⟨body, last, after, rfl, solid, blank⟩
  by_cases dot : last = '.'
  · subst dot
    rcases exists_fields body with ⟨row, cut⟩
    rcases fields_or_fault row with ⟨rule, phrase, rfl⟩ | ⟨cause, fault⟩
    · exact .inl ⟨rule, phrase, body, after, rfl, cut, blank⟩
    · exact .inr ⟨cause, .ofFields blank cut fault⟩
  · exact .inr ⟨_, .missingTerminator solid dot blank⟩

theorem LineFault.not_describedBy (fault : LineFault line cause) (rule : Rule) :
    ¬rule.DescribedBy line := by
  intro described
  have read := described.ofLine_eq
  rw [fault.ofLine_eq] at read
  cases read

theorem not_allBlank_of_last {body after : List Char} {last : Char} (solid : isBlank last = false) :
    ¬AllBlank (body ++ last :: after) := by
  intro blank
  have here := blank last (List.mem_append_right body List.mem_cons_self)
  rw [solid] at here
  cases here

theorem DescribedBy.not_allBlank (described : rule.DescribedBy line) : ¬AllBlank line := by
  rcases described with ⟨phrase, body, after, rfl, cut, blank⟩
  exact not_allBlank_of_last isBlank_dot

theorem LineFault.not_allBlank (fault : LineFault line cause) : ¬AllBlank line := by
  cases fault with
  | missingTerminator solid other blank => exact not_allBlank_of_last solid
  | ofFields blank cut fault => exact not_allBlank_of_last isBlank_dot

/-! ## Writing rules -/

theorem isField_of_mem_fields {field : List Char} (member : field ∈ rule.fields) :
    IsField field := by
  simp only [fields, List.mem_cons, List.mem_map] at member
  rcases member with rfl | rfl | ⟨symbol, -, rfl⟩
  · exact rule.lhs.isField_field
  · decide
  · exact symbol.isField_field

def writtenLine (rule : Rule) : List Char :=
  rule.fields.flatMap (· ++ [' ']) ++ ['.']

theorem describedBy_writtenLine (phrase : rule.lhs.isTerminal = false) :
    rule.DescribedBy rule.writtenLine where
  phrase := phrase
  form := ⟨_, [], rfl, fields_flatMap _ fun _ => isField_of_mem_fields, nofun⟩

theorem lineFeed_not_mem_writtenLine (rule : Rule) : '\n' ∉ rule.writtenLine := by
  have feed : isBlank '\n' = true := by decide
  simp only [writtenLine, List.mem_append, List.mem_flatMap, List.mem_singleton, not_or, not_exists,
    not_and]
  refine ⟨fun field member => ⟨fun inside => ?_, by decide⟩, by decide⟩
  have solid := (isField_of_mem_fields member).solid _ inside
  rw [feed] at solid
  cases solid

end Rule

end Stencil
