import Stencil.Proofs.Grammar.RuleLines
import Stencil.Proofs.Grammar.Verdicts
import Stencil.Template.Grammar

/-! # Texts of grammars

A text describes a list of rules line by line, blank lines apart. What a text that describes rules
is read as is what the rules come to; a text that describes none is refused at its first line that is
neither blank nor describes a rule.

The lines of a text are what stands between its line feeds. A carriage return in front of a line
feed is a blank at the end of its line.
-/

namespace Stencil.Grammar

open Text

variable {rules : List Rule} {lines : List (List Char)} {cause : RuleTextError} {number : Nat}

/-- Each line describes the next rule or is blank. -/
inductive Describes : List Rule → List (List Char) → Prop
  | nil : Describes [] []
  | blank {line : List Char} {rules : List Rule} {later : List (List Char)} (blank : AllBlank line)
      (describes : Describes rules later) : Describes rules (line :: later)
  | rule {line : List Char} {rule : Rule} {rules : List Rule} {later : List (List Char)}
      (described : rule.DescribedBy line) (describes : Describes rules later) :
      Describes (rule :: rules) (line :: later)

/-- The first line that is neither blank nor describes a rule, with its number and its fault. Lines
are numbered from one, and nothing depends on those behind it. -/
inductive FirstFault : List (List Char) → Nat → RuleTextError → Prop
  | intro {before later : List (List Char)} {line : List Char} {cause : RuleTextError}
      (earlier : ∀ other ∈ before, AllBlank other ∨ ∃ rule : Rule, rule.DescribedBy other)
      (visible : ¬AllBlank line) (undescribed : ∀ rule : Rule, ¬rule.DescribedBy line)
      (fault : Rule.LineFault line cause) :
      FirstFault (before ++ line :: later) (before.length + 1) cause

/-! ## Lines -/

theorem splitLines_cons_lineFeed (text : List Char) :
    splitLines ('\n' :: text) = [] :: splitLines text := rfl

theorem splitLines_cons_of_nil {character : Char} {text : List Char} (apart : character ≠ '\n')
    (behind : splitLines text = []) : splitLines (character :: text) = [[character]] := by
  rw [splitLines] at behind ⊢
  rw [List.foldr_cons, behind, if_neg apart]

theorem splitLines_cons_of_cons {character : Char} {text line : List Char}
    {later : List (List Char)} (apart : character ≠ '\n')
    (behind : splitLines text = line :: later) :
    splitLines (character :: text) = (character :: line) :: later := by
  rw [splitLines] at behind ⊢
  rw [List.foldr_cons, behind, if_neg apart]

theorem splitOn_cons_lineFeed (text : List Char) :
    ('\n' :: text).splitOn '\n' = [] :: text.splitOn '\n' := by
  rw [List.splitOn_eq_splitOnP, List.splitOnP_cons_eq_if_modifyHead, if_pos (beq_self_eq_true _),
    List.splitOn_eq_splitOnP]

theorem splitOn_cons {character : Char} (apart : character ≠ '\n') (text : List Char) :
    (character :: text).splitOn '\n' = (text.splitOn '\n').modifyHead (character :: ·) := by
  rw [List.splitOn_eq_splitOnP, List.splitOnP_cons_eq_if_modifyHead, if_neg (by simpa using apart),
    List.splitOn_eq_splitOnP]

/-- What stands between the line feeds of a text are its lines. Only when nothing stands behind the
last line feed, that is no line. -/
theorem splitOn_eq (text : List Char) :
    text.splitOn '\n' = splitLines text ∨ text.splitOn '\n' = splitLines text ++ [[]] := by
  induction text with
  | nil => exact .inr rfl
  | cons character later induction =>
      by_cases feed : character = '\n'
      · subst feed
        rw [splitOn_cons_lineFeed, splitLines_cons_lineFeed]
        exact induction.imp (congrArg ([] :: ·)) (congrArg ([] :: ·))
      · rw [splitOn_cons feed]
        cases behind : splitLines later with
        | nil =>
            rw [behind] at induction
            rw [splitLines_cons_of_nil feed behind]
            rcases induction with none | closing
            · exact absurd none (List.splitOnP_ne_nil _ _)
            · exact .inl (congrArg (List.modifyHead (character :: ·)) closing)
        | cons line lines =>
            rw [behind] at induction
            rw [splitLines_cons_of_cons feed behind]
            exact induction.imp (congrArg (List.modifyHead (character :: ·)))
              (congrArg (List.modifyHead (character :: ·)))

/-! ## Reading lines -/

def rulesFrom (number : Nat) (lines : List (List Char)) : Except GrammarError (List Rule) :=
  rulesOfLines ((lines.map trim).zipIdx number)

theorem rulesFrom_cons (number : Nat) (line : List Char) (later : List (List Char)) :
    rulesFrom number (line :: later) =
      if (trim line).isEmpty then rulesFrom (number + 1) later
      else match Rule.ofLine (trim line) with
        | .error cause => .error (.badLine number cause)
        | .ok rule => (rulesFrom (number + 1) later).map (rule :: ·) := rfl

theorem rulesFrom_concat_nil (number : Nat) (lines : List (List Char)) :
    rulesFrom number (lines ++ [[]]) = rulesFrom number lines := by
  induction lines generalizing number with
  | nil => rfl
  | cons line later induction => rw [List.cons_append, rulesFrom_cons, rulesFrom_cons, induction]

theorem rulesOfText_eq (text : String) :
    rulesOfText text = rulesFrom 1 (text.toList.splitOn '\n') := by
  rcases splitOn_eq text.toList with same | closing
  · rw [same]
    rfl
  · rw [closing, rulesFrom_concat_nil]
    rfl

theorem rulesFrom_of_blank {line : List Char} (blank : AllBlank line) (number : Nat)
    (later : List (List Char)) :
    rulesFrom number (line :: later) = rulesFrom (number + 1) later := by
  rw [rulesFrom_cons, trim_of_allBlank blank]
  rfl

theorem rulesFrom_of_visible {line : List Char} (visible : ¬AllBlank line) (number : Nat)
    (later : List (List Char)) :
    rulesFrom number (line :: later) =
      match Rule.ofLine (trim line) with
      | .error cause => .error (.badLine number cause)
      | .ok rule => (rulesFrom (number + 1) later).map (rule :: ·) := by
  rcases exists_last visible with ⟨body, last, after, rfl, solid, blank⟩
  have some : ¬(trim (body ++ last :: after)).isEmpty = true := by
    rw [trim_of_last solid blank, List.isEmpty_iff]
    exact List.concat_ne_nil _ _
  rw [rulesFrom_cons, if_neg some]

theorem Describes.rulesFrom_eq (describes : Describes rules lines) (number : Nat) :
    rulesFrom number lines = .ok rules := by
  induction describes generalizing number with
  | nil => rfl
  | blank blank _ induction => rw [rulesFrom_of_blank blank, induction]
  | rule described _ induction =>
      rw [rulesFrom_of_visible described.not_allBlank, described.ofLine_eq, induction]
      rfl

theorem rulesFrom_of_fault {before later : List (List Char)} {line : List Char}
    (earlier : ∀ other ∈ before, AllBlank other ∨ ∃ rule : Rule, rule.DescribedBy other)
    (fault : Rule.LineFault line cause) (number : Nat) :
    rulesFrom number (before ++ line :: later) =
      .error (.badLine (number + before.length) cause) := by
  induction before generalizing number with
  | nil =>
      rw [List.nil_append, rulesFrom_of_visible fault.not_allBlank, fault.ofLine_eq]
      rfl
  | cons other further induction =>
      rcases List.forall_mem_cons.mp earlier with ⟨here, rest⟩
      have count : number + 1 + further.length = number + (further.length + 1) := by omega
      rw [List.cons_append, List.length_cons, ← count]
      rcases here with blank | ⟨rule, described⟩
      · rw [rulesFrom_of_blank blank, induction rest]
      · rw [rulesFrom_of_visible described.not_allBlank, described.ofLine_eq, induction rest]
        rfl

/-! ## Every text describes rules or has a first fault -/

theorem FirstFault.behind {line : List Char}
    (passed : AllBlank line ∨ ∃ rule : Rule, rule.DescribedBy line)
    (first : FirstFault lines number cause) : FirstFault (line :: lines) (number + 1) cause := by
  rcases first with ⟨earlier, visible, undescribed, fault⟩
  exact .intro (List.forall_mem_cons.mpr ⟨passed, earlier⟩) visible undescribed fault

theorem describes_or_firstFault (lines : List (List Char)) :
    (∃ rules, Describes rules lines) ∨ ∃ number cause, FirstFault lines number cause := by
  induction lines with
  | nil => exact .inl ⟨[], .nil⟩
  | cons line later induction =>
      by_cases blank : AllBlank line
      · rcases induction with ⟨rules, describes⟩ | ⟨number, cause, first⟩
        · exact .inl ⟨rules, .blank blank describes⟩
        · exact .inr ⟨number + 1, cause, first.behind (.inl blank)⟩
      · rcases Rule.described_or_fault blank with ⟨rule, described⟩ | ⟨cause, fault⟩
        · rcases induction with ⟨rules, describes⟩ | ⟨number, cause, first⟩
          · exact .inl ⟨rule :: rules, .rule described describes⟩
          · exact .inr ⟨number + 1, cause, first.behind (.inr ⟨rule, described⟩)⟩
        · exact .inr ⟨1, cause, @FirstFault.intro [] later line cause nofun blank
            fault.not_describedBy fault⟩

theorem FirstFault.rulesFrom_eq (first : FirstFault lines number cause) :
    rulesFrom 1 lines = .error (.badLine number cause) := by
  rcases first with ⟨earlier, -, -, fault⟩
  rw [rulesFrom_of_fault earlier fault, Nat.add_comm]

/-- The dot may touch a name, and a blank line counts. What comes behind the fault does not matter. -/
example : rulesOfText "Sws = ws.\r\n \n = = .\n\nSws" = .error (.badLine 3 .emptyLhs) := rfl

/-! ## Texts -/

theorem describes_map_writtenLine (phrases : ∀ rule ∈ rules, rule.lhs.isTerminal = false) :
    Describes rules (rules.map Rule.writtenLine) := by
  induction rules with
  | nil => exact .nil
  | cons rule later induction =>
      rcases List.forall_mem_cons.mp phrases with ⟨phrase, others⟩
      exact .rule (Rule.describedBy_writtenLine phrase) (induction others)

theorem exists_describes (phrases : ∀ rule ∈ rules, rule.lhs.isTerminal = false) :
    ∃ text : String, Describes rules (text.toList.splitOn '\n') := by
  by_cases empty : rules = []
  · subst empty
    exact ⟨"", .blank nofun .nil⟩
  · have feeds : ∀ line ∈ rules.map Rule.writtenLine, '\n' ∉ line :=
      List.forall_mem_map.mpr fun rule _ => rule.lineFeed_not_mem_writtenLine
    refine ⟨String.ofList (['\n'].intercalate (rules.map Rule.writtenLine)), ?_⟩
    rw [String.toList_ofList, List.splitOn_intercalate '\n' feeds (by simpa using empty)]
    exact describes_map_writtenLine phrases

theorem ofText_of_rulesFrom {text : String} {outcome : Except GrammarError (List Rule)}
    (read : rulesFrom 1 (text.toList.splitOn '\n') = outcome) :
    ofText text = outcome.bind ofRules := by
  rw [ofText, rulesOfText_eq, read]
  rfl

theorem ofRules_ne_badLine (rules : List Rule) (number : Nat) (cause : RuleTextError) :
    ofRules rules ≠ .error (.badLine number cause) := by
  intro refused
  have verdict := verdict_ofRules rules
  rw [refused] at verdict
  cases verdict

/-- A text that describes rules comes to what the rules come to, grammar or fault. Every list of
rules for phrases is described by some text. Any other text is refused at the first line that is
neither blank nor describes a rule, for the first fault of that line, and no other text is refused
at a line. -/
theorem ofText_reads :
    (∀ (text : String) rules, Describes rules (text.toList.splitOn '\n') →
      ofText text = ofRules rules) ∧
    (∀ rules : List Rule, (∀ rule ∈ rules, rule.lhs.isTerminal = false) →
      ∃ text : String, Describes rules (text.toList.splitOn '\n')) ∧
    (∀ text : String, (¬∃ rules, Describes rules (text.toList.splitOn '\n')) →
      ∃ number cause, FirstFault (text.toList.splitOn '\n') number cause) ∧
    ∀ (text : String) number cause,
      ofText text = .error (.badLine number cause) ↔
        FirstFault (text.toList.splitOn '\n') number cause := by
  have described : ∀ (text : String) rules, Describes rules (text.toList.splitOn '\n') →
      ofText text = ofRules rules :=
    fun text rules describes => ofText_of_rulesFrom (describes.rulesFrom_eq 1)
  refine ⟨described, fun rules => exists_describes, ?_, ?_⟩
  · intro text undescribed
    exact (describes_or_firstFault _).resolve_left undescribed
  · intro text number cause
    constructor
    · intro refused
      rcases describes_or_firstFault (text.toList.splitOn '\n') with
        ⟨rules, describes⟩ | ⟨number', cause', first⟩
      · rw [described text rules describes] at refused
        exact absurd refused (ofRules_ne_badLine rules number cause)
      · rw [ofText_of_rulesFrom first.rulesFrom_eq] at refused
        cases refused
        exact first
    · exact fun first => ofText_of_rulesFrom first.rulesFrom_eq

end Stencil.Grammar

namespace Stencil.Template

open Grammar

theorem splitOn_grammarText :
    grammarText.toList.splitOn '\n' = [] :: (rules.map Rule.writtenLine ++ [[]]) := by
  decide +kernel

theorem ofText_grammarText : Grammar.ofText grammarText = .ok grammar := by
  have phrases : ∀ rule ∈ rules, rule.lhs.isTerminal = false := by decide
  have read : rulesFrom 1 (grammarText.toList.splitOn '\n') = .ok rules := by
    rw [splitOn_grammarText, rulesFrom_of_blank (List.forall_mem_nil _), rulesFrom_concat_nil]
    exact (describes_map_writtenLine phrases).rulesFrom_eq 2
  rw [ofText_of_rulesFrom read]
  exact grammar.ofRules_rules

end Stencil.Template
