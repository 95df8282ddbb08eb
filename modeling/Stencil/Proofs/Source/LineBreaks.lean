import Stencil.Proofs.Source.Lexemes

/-! # Line breaks made alike

A line break of a source is a line feed, with or without a carriage return in front of it. Writing
all of them as line feeds changes nothing else. The runs of a source are as long as before, since a
line break ends them in either spelling.
-/

namespace Stencil.Source

open Stencil.Lexeme

/-- A source with a line feed for every line break. -/
def unifyBreaks : List Char → List Char
  | '\r' :: '\n' :: rest => '\n' :: unifyBreaks rest
  | character :: rest => character :: unifyBreaks rest
  | [] => []

theorem unifyBreaks_cons {character : Char} (other : character ≠ '\r') (rest : List Char) :
    unifyBreaks (character :: rest) = character :: unifyBreaks rest := by
  rw [unifyBreaks]
  intro _ carriage _
  exact other carriage

theorem unifyBreaks_append {run : List Char} (plain : '\r' ∉ run) (rest : List Char) :
    unifyBreaks (run ++ rest) = run ++ unifyBreaks rest := by
  induction run with
  | nil => rfl
  | cons character later induction =>
      rw [List.mem_cons, not_or] at plain
      rw [List.cons_append, unifyBreaks_cons (Ne.symm plain.1), induction plain.2,
        List.cons_append]

/-! ## What a source begins with -/

theorem map_head?_unifyBreaks {α : Type} {view : Char → α} (alike : view '\r' = view '\n')
    (source : List Char) : (unifyBreaks source).head?.map view = source.head?.map view := by
  fun_cases unifyBreaks source with
  | case1 => simp [alike]
  | case2 => rfl
  | case3 => rfl

theorem opens_cons (first : Char) (rest : List Char) :
    opens (first :: rest) =
      (decide (first = '\x7b') && (rest.head?.map (decide <| · = '\x7b')).getD false) := by
  cases rest <;> simp [opens]

theorem opens_cons_unifyBreaks (first : Char) (rest : List Char) :
    opens (first :: unifyBreaks rest) = opens (first :: rest) := by
  rw [opens_cons, opens_cons, map_head?_unifyBreaks (by decide)]

theorem endsText_unifyBreaks (source : List Char) :
    endsText (unifyBreaks source) = endsText source := by
  fun_cases unifyBreaks source with
  | case1 => simp [endsText]
  | case2 character rest => rw [endsText, endsText, opens_cons_unifyBreaks]
  | case3 => rfl

/-! ## Where runs end -/

theorem Longest.iff_eq {Holds : List Char → Prop} {source run other : List Char}
    (longest : Longest Holds source run) : Longest Holds source other ↔ run = other :=
  ⟨longest.unique, fun same => same ▸ longest⟩

theorem takeWhile_append_eq_left_iff {test : Char → Bool} {run rest : List Char} :
    (run ++ rest).takeWhile test = run ↔
      (∀ character ∈ run, test character = true) ∧
        ∀ character ∈ rest.head?, test character = false := by
  constructor
  · intro taken
    have passes := (longest_takeWhile test (run ++ rest)).holds
    rw [taken] at passes
    refine ⟨passes, ?_⟩
    intro character head
    rcases List.head?_eq_some_iff.mp head with ⟨later, rfl⟩
    rw [Bool.eq_false_iff]
    intro passed
    rw [List.takeWhile_append_of_pos passes, List.takeWhile_cons_of_pos passed] at taken
    simp at taken
  · rintro ⟨passes, stops⟩
    rw [List.takeWhile_append_of_pos passes]
    cases rest with
    | nil => simp
    | cons first later =>
        rw [List.takeWhile_cons_of_neg (by simp [stops first rfl]), List.append_nil]

theorem longest_spacing_iff {run rest : List Char} :
    Longest Spacing (run ++ rest) run ↔
      Spacing run ∧ ∀ character ∈ rest.head?, isSpacing character = false := by
  rw [(longest_spacing _).iff_eq, takeWhile_append_eq_left_iff]
  simp only [Spacing, isSpacing_iff]

theorem longest_name_iff {name rest : List Char} :
    Longest IsName (name ++ rest) name ↔
      IsName name ∧ ∀ character ∈ rest.head?, isCased character = false := by
  cases name with
  | nil =>
      have unnamed : ¬IsName [] := nofun
      exact iff_of_false (fun longest => unnamed longest.holds) (fun named => unnamed named.1)
  | cons first others =>
      rw [isName_cons_iff]
      cases upper : Text.isUppercase first with
      | true =>
          rw [List.cons_append, (longest_name upper (others ++ rest)).iff_eq, List.cons.injEq,
            takeWhile_append_eq_left_iff]
          simp
      | false =>
          refine iff_of_false (fun longest => ?_) (fun named => ?_)
          · simpa [upper] using ((isName_cons_iff _ _).mp longest.holds).1
          · cases named.1.1

theorem longest_literal_iff {run rest : List Char} :
    Longest (Literal (run ++ rest)) (run ++ rest) run ↔
      (∀ count < run.length, endsText ((run ++ rest).drop count) = false) ∧
        endsText rest = true := by
  constructor
  · intro longest
    have goes := (literal_iff longest.begins).mp longest.holds
    refine ⟨goes, ?_⟩
    cases ends : endsText rest with
    | true => rfl
    | false =>
        match rest, ends with
        | next :: later, ends =>
            have begins : run ++ [next] <+: run ++ next :: later := ⟨later, by simp⟩
            have literal : Literal (run ++ next :: later) (run ++ [next]) := by
              apply (literal_iff begins).mpr
              intro count inside
              rw [List.length_append, List.length_singleton] at inside
              rcases Nat.lt_succ_iff_lt_or_eq.mp inside with before | rfl
              · exact goes count before
              · simpa using ends
            have bound := longest.length_le _ begins literal
            rw [List.length_append, List.length_singleton] at bound
            omega
  · rintro ⟨goes, ends⟩
    have begins : run <+: run ++ rest := List.prefix_append run rest
    refine ⟨begins, (literal_iff begins).mpr goes, ?_⟩
    intro other otherBegins literal
    apply Nat.le_of_not_lt
    intro longer
    have free := (literal_iff otherBegins).mp literal run.length longer
    rw [List.drop_left, ends] at free
    cases free

/-! ## Runs in front of unified breaks -/

variable {run rest : List Char}

theorem forall_head?_unifyBreaks {test : Char → Bool} (alike : test '\r' = test '\n')
    (stops : ∀ character ∈ rest.head?, test character = false) :
    ∀ character ∈ (unifyBreaks rest).head?, test character = false := by
  intro character head
  have same := map_head?_unifyBreaks alike rest
  rw [Option.mem_def.mp head] at same
  rcases Option.map_eq_some_iff.mp same.symm with ⟨other, otherHead, equal⟩
  rw [← equal, stops other otherHead]

theorem Longest.spacing_unifyBreaks (longest : Longest Spacing (run ++ rest) run) :
    '\r' ∉ run ∧ Longest Spacing (run ++ unifyBreaks rest) run := by
  rw [longest_spacing_iff] at longest ⊢
  exact ⟨longest.1.not_mem rfl, longest.1, forall_head?_unifyBreaks rfl longest.2⟩

theorem Longest.literal_unifyBreaks
    (longest : Longest (Literal (run ++ rest)) (run ++ rest) run) :
    '\r' ∉ run ∧ Longest (Literal (run ++ unifyBreaks rest)) (run ++ unifyBreaks rest) run := by
  have plain : '\r' ∉ run := fun member => (longest.holds.plain _ member).2.2.2 rfl
  rw [longest_literal_iff] at longest ⊢
  refine ⟨plain, ?_, ?_⟩
  · intro count inside
    have laterPlain : '\r' ∉ run.drop count := fun member => plain (List.mem_of_mem_drop member)
    rw [List.drop_append_of_le_length (Nat.le_of_lt inside), ← unifyBreaks_append laterPlain,
      endsText_unifyBreaks, ← List.drop_append_of_le_length (Nat.le_of_lt inside)]
    exact longest.1 count inside
  · rw [endsText_unifyBreaks]
    exact longest.2

theorem Longest.name_before_closing {name after rest : List Char}
    (longest : Longest IsName (name ++ (after ++ '\x7d' :: '\x7d' :: rest)) name)
    (other : List Char) :
    Longest IsName (name ++ (after ++ '\x7d' :: '\x7d' :: other)) name := by
  rw [longest_name_iff] at longest ⊢
  refine ⟨longest.1, ?_⟩
  cases after <;> exact longest.2

theorem not_mem_of_isName {name : List Char} (named : IsName name) {character : Char}
    (uncased : isCased character = false) : character ∉ name := by
  cases name with
  | nil => exact nofun
  | cons first others =>
      rcases (isName_cons_iff _ _).mp named with ⟨upper, cased⟩
      intro member
      cases List.mem_cons.mp member with
      | inl same =>
          rw [same, isCased, upper] at uncased
          cases uncased
      | inr member =>
          rw [cased _ member] at uncased
          cases uncased

end Stencil.Source
