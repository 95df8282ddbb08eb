import Stencil.Source.Lexeme

/-! # Longest runs

Blanks, names and literal text reach as far as they can. What that means is said here without saying
how they are cut off, and then compared with how they are.
-/

namespace Stencil.Source

/-- A beginning of a source with some property, such that no longer beginning has it. -/
structure Longest (Holds : List Char → Prop) (source run : List Char) : Prop where
  begins : run <+: source
  holds : Holds run
  length_le : ∀ other, other <+: source → Holds other → other.length ≤ run.length

theorem Longest.unique {Holds : List Char → Prop} {source left right : List Char}
    (leftLongest : Longest Holds source left) (rightLongest : Longest Holds source right) :
    left = right := by
  have upper := rightLongest.length_le left leftLongest.begins leftLongest.holds
  have lower := leftLongest.length_le right rightLongest.begins rightLongest.holds
  have nested := List.prefix_of_prefix_length_le leftLongest.begins rightLongest.begins upper
  exact nested.eq_of_length_le lower

theorem Longest.append_inj {Holds : List Char → Prop} {run run' rest rest' : List Char}
    (longest : Longest Holds (run ++ rest) run) (longest' : Longest Holds (run' ++ rest') run')
    (whole : run ++ rest = run' ++ rest') : run = run' ∧ rest = rest' := by
  rw [whole] at longest
  have same := longest.unique longest'
  exact ⟨same, List.append_cancel_left (same ▸ whole)⟩

theorem Longest.congr {Holds Holds' : List Char → Prop} {source run : List Char}
    (longest : Longest Holds source run)
    (same : ∀ run, run <+: source → (Holds run ↔ Holds' run)) : Longest Holds' source run where
  begins := longest.begins
  holds := (same run longest.begins).mp longest.holds
  length_le other begins holds := longest.length_le other begins ((same other begins).mpr holds)

theorem longest_takeWhile (test : Char → Bool) (source : List Char) :
    Longest (fun run => ∀ character ∈ run, test character = true) source
      (source.takeWhile test) where
  begins := List.takeWhile_prefix test
  holds := List.all_eq_true.mp List.all_takeWhile
  length_le other begins holds := by
    rcases begins with ⟨behind, rfl⟩
    rw [List.takeWhile_append_of_pos holds, List.length_append]
    exact Nat.le_add_right _ _

/-! ## Blanks -/

def Spacing (run : List Char) : Prop :=
  ∀ character ∈ run, character = ' ' ∨ character = '\t'

theorem isSpacing_iff (character : Char) :
    Lexeme.isSpacing character = true ↔ character = ' ' ∨ character = '\t' := by
  simp [Lexeme.isSpacing]

theorem Spacing.not_mem {run : List Char} (spacing : Spacing run) {character : Char}
    (visible : Lexeme.isSpacing character = false) : character ∉ run := by
  intro member
  rw [(isSpacing_iff character).mpr (spacing character member)] at visible
  cases visible

theorem longest_spacing (source : List Char) :
    Longest Spacing source (source.takeWhile Lexeme.isSpacing) := by
  apply (longest_takeWhile Lexeme.isSpacing source).congr
  intro run _
  simp only [Spacing, isSpacing_iff]

theorem longest_of_spacing {run : List Char} (spacing : Spacing run) {stop : Char}
    (stops : Lexeme.isSpacing stop = false) (behind : List Char) :
    Longest Spacing (run ++ stop :: behind) run := by
  have longest := longest_spacing (run ++ stop :: behind)
  have tests : ∀ character ∈ run, Lexeme.isSpacing character = true :=
    fun character member => (isSpacing_iff character).mpr (spacing character member)
  rwa [List.takeWhile_append_of_pos tests, List.takeWhile_cons_of_neg (by simp [stops]),
    List.append_nil] at longest

/-! ## Names -/

/-- Words in a row, each an uppercase character with lowercase characters behind it. -/
inductive IsName : List Char → Prop
  | word {capital : Char} {small : List Char} (upper : Text.isUppercase capital = true)
      (lower : ∀ character ∈ small, Text.isLowercase character = true) : IsName (capital :: small)
  | words {capital : Char} {small more : List Char} (upper : Text.isUppercase capital = true)
      (lower : ∀ character ∈ small, Text.isLowercase character = true) (later : IsName more) :
      IsName (capital :: (small ++ more))

theorem IsName.cons_lowercase {first second : Char} {rest : List Char}
    (name : IsName (first :: rest)) (lowercase : Text.isLowercase second = true) :
    IsName (first :: second :: rest) := by
  cases name with
  | word upper lower =>
      exact .word upper (List.forall_mem_cons.mpr ⟨lowercase, lower⟩)
  | @words _ small _ upper lower later =>
      have grown : ∀ character ∈ second :: small, Text.isLowercase character = true :=
        List.forall_mem_cons.mpr ⟨lowercase, lower⟩
      exact .words upper grown later

theorem isName_cons_iff (first : Char) (rest : List Char) :
    IsName (first :: rest) ↔
      Text.isUppercase first = true ∧ ∀ character ∈ rest, Lexeme.isCased character = true := by
  constructor
  · intro name
    generalize whole : first :: rest = run at name
    induction name generalizing first rest with
    | word upper lower =>
        rcases List.cons.inj whole with ⟨rfl, rfl⟩
        refine ⟨upper, ?_⟩
        intro character member
        simp [Lexeme.isCased, lower character member]
    | @words capital small more upper lower later induction =>
        rcases List.cons.inj whole with ⟨rfl, rfl⟩
        refine ⟨upper, ?_⟩
        intro character member
        rcases List.mem_append.mp member with member | member
        · simp [Lexeme.isCased, lower character member]
        · cases more with
          | nil => cases member
          | cons second others =>
              rcases induction second others rfl with ⟨secondUpper, cased⟩
              rcases List.mem_cons.mp member with rfl | member
              · simp [Lexeme.isCased, secondUpper]
              · exact cased character member
  · intro named
    rcases named with ⟨upper, cased⟩
    induction rest generalizing first with
    | nil => exact .word upper nofun
    | cons second others induction =>
        rcases List.forall_mem_cons.mp cased with ⟨secondCased, othersCased⟩
        rw [Lexeme.isCased, Bool.or_eq_true] at secondCased
        rcases secondCased with capital | small
        · have none : ∀ character ∈ ([] : List Char), Text.isLowercase character = true := nofun
          exact .words upper none (induction second capital othersCased)
        · exact (induction first upper othersCased).cons_lowercase small

theorem longest_name {first : Char} (upper : Text.isUppercase first = true) (rest : List Char) :
    Longest IsName (first :: rest) (first :: rest.takeWhile Lexeme.isCased) where
  begins := (List.prefix_cons_inj first).mpr (List.takeWhile_prefix _)
  holds := (isName_cons_iff _ _).mpr ⟨upper, (longest_takeWhile _ rest).holds⟩
  length_le other begins holds := by
    match other, begins, holds with
    | [], _, _ => exact Nat.zero_le _
    | head :: tail, begins, holds =>
        rcases List.cons_prefix_cons.mp begins with ⟨rfl, tailBegins⟩
        have cased := ((isName_cons_iff _ _).mp holds).2
        exact Nat.succ_le_succ ((longest_takeWhile _ rest).length_le tail tailBegins cased)

theorem Longest.exists_cons {inside name : List Char} (longest : Longest IsName inside name) :
    ∃ first rest, inside = first :: rest ∧ Text.isUppercase first = true ∧
      name = first :: rest.takeWhile Lexeme.isCased := by
  match name, longest with
  | [], longest =>
      have impossible := longest.holds
      cases impossible
  | first :: others, longest =>
      rcases longest.begins with ⟨behind, rfl⟩
      have upper := ((isName_cons_iff _ _).mp longest.holds).1
      exact ⟨first, others ++ behind, rfl, upper,
        longest.unique (longest_name upper (others ++ behind))⟩

/-! ## Literal text -/

def Opens (source : List Char) : Prop :=
  ['\x7b', '\x7b'] <+: source

theorem opens_iff (source : List Char) : Lexeme.opens source = true ↔ Opens source := by
  match source with
  | [] => simp [Lexeme.opens, Opens]
  | [only] => simp [Lexeme.opens, Opens]
  | first :: second :: rest =>
      simp only [Lexeme.opens, Opens, Bool.and_eq_true, decide_eq_true_eq,
        List.cons_prefix_cons, List.nil_prefix, and_true]
      exact and_congr eq_comm eq_comm

/-- Something without blanks, line breaks and carriage returns in which no two opening braces of the
source begin. -/
structure Literal (source run : List Char) : Prop where
  plain : ∀ character ∈ run,
    character ≠ ' ' ∧ character ≠ '\t' ∧ character ≠ '\n' ∧ character ≠ '\r'
  closed : ∀ count < run.length, ¬Opens (source.drop count)

theorem endsText_cons_iff (first : Char) (rest : List Char) :
    Lexeme.endsText (first :: rest) = true ↔
      (first = ' ' ∨ first = '\t' ∨ first = '\n' ∨ first = '\r') ∨ Opens (first :: rest) := by
  rw [← opens_iff]
  simp [Lexeme.endsText, Lexeme.isSpacing, or_assoc]

theorem literal_iff {source run : List Char} (begins : run <+: source) :
    Literal source run ↔
      ∀ count < run.length, Lexeme.endsText (source.drop count) = false := by
  rcases begins with ⟨behind, rfl⟩
  have shown : ∀ count (inside : count < run.length), (run ++ behind).drop count =
      run[count] :: (run ++ behind).drop (count + 1) := by
    intro count inside
    have within : count < (run ++ behind).length := by
      rw [List.length_append]
      omega
    rw [List.drop_eq_getElem_cons within, List.getElem_append_left inside]
  constructor
  · intro literal count inside
    rcases literal with ⟨plain, closed⟩
    rw [shown count inside, Bool.eq_false_iff]
    intro ends
    rcases (endsText_cons_iff _ _).mp ends with stops | opens
    · have free := plain run[count] (List.getElem_mem inside)
      rcases free with ⟨noSpace, noTab, noFeed, noReturn⟩
      rcases stops with stops | stops | stops | stops <;> contradiction
    · apply closed count inside
      rwa [shown count inside]
  · intro goes
    constructor
    · intro character member
      rcases List.getElem_of_mem member with ⟨count, inside, rfl⟩
      have free := goes count inside
      rw [shown count inside, Bool.eq_false_iff] at free
      refine ⟨?_, ?_, ?_, ?_⟩ <;> intro equal <;> apply free <;>
        rw [endsText_cons_iff] <;> simp [equal]
    · intro count inside opens
      have free := goes count inside
      rw [shown count inside, Bool.eq_false_iff] at free
      apply free
      rw [endsText_cons_iff, ← shown count inside]
      exact .inr opens

theorem exists_cutText (taken source : List Char) :
    ∃ run behind, source = run ++ behind ∧
      Lexeme.cutText taken source = (taken.reverse ++ run, behind) ∧
      (∀ count < run.length, Lexeme.endsText (source.drop count) = false) ∧
      Lexeme.endsText behind = true := by
  induction source generalizing taken with
  | nil => exact ⟨[], [], rfl, by simp [Lexeme.cutText], nofun, rfl⟩
  | cons first rest induction =>
      cases ends : Lexeme.endsText (first :: rest) with
      | true => exact ⟨[], first :: rest, rfl, by simp [Lexeme.cutText, ends], nofun, ends⟩
      | false =>
          rcases induction (first :: taken) with ⟨run, behind, rfl, cut, goes, stops⟩
          refine ⟨first :: run, behind, rfl, ?_, ?_, stops⟩
          · simp [Lexeme.cutText, ends, cut]
          · intro count inside
            cases count with
            | zero => exact ends
            | succ count => exact goes count (Nat.lt_of_succ_lt_succ inside)

theorem longest_literal {first : Char} {rest : List Char}
    (goes : Lexeme.endsText (first :: rest) = false) :
    Longest (Literal (first :: rest)) (first :: rest) (Lexeme.cutText [first] rest).1 := by
  rcases exists_cutText [first] rest with ⟨run, behind, rfl, cut, later, stops⟩
  have begins : first :: run <+: first :: (run ++ behind) := ⟨behind, rfl⟩
  rw [cut]
  refine ⟨begins, ?_, ?_⟩
  · apply (literal_iff begins).mpr
    intro count inside
    cases count with
    | zero => exact goes
    | succ count => exact later count (Nat.lt_of_succ_lt_succ inside)
  · intro other otherBegins literal
    apply Nat.le_of_not_lt
    intro longer
    have free := (literal_iff otherBegins).mp literal _ longer
    have reached : (first :: (run ++ behind)).drop ([first].reverse ++ run).length = behind := by
      simp
    rw [reached, stops] at free
    cases free

end Stencil.Source
