import Stencil.Proofs.Attempts
import Stencil.Proofs.Source.Lexemes
import Stencil.Source.Tokens

/-! # Cutting as a relation

A source is cut lexeme by lexeme. The relation says the same without the list of tokens that cutting
carries along, and is what statements about the tokens are proved by induction on.
-/

namespace Stencil.Source

/-- In some mode, a source from one place to another consists of certain tokens. -/
inductive Cuts : Mode → Place → List Char → List Token → Place → Prop
  | done {mode : Mode} {place : Place} (complete : mode ≠ .name) : Cuts mode place [] [] place
  | token {mode next : Mode} {place last : Place} {character : Char} {rest raw behind : List Char}
      {kind : Symbol} {later : List Token}
      (found : Lexeme.first mode character rest = .token kind raw behind next)
      (cuts : Cuts next (place.after raw) behind later last) :
      Cuts mode place (character :: rest) (tokenAt place kind raw :: later) last
  | skipped {mode : Mode} {place last : Place} {character : Char} {rest raw behind : List Char}
      {later : List Token} (found : Lexeme.first mode character rest = .skipped raw behind)
      (cuts : Cuts mode (place.after raw) behind later last) :
      Cuts mode place (character :: rest) later last

theorem cut_of_token {mode next : Mode} {character : Char} {rest raw behind : List Char}
    {kind : Symbol} (found : Lexeme.first mode character rest = .token kind raw behind next)
    (place : Place) (read : List Token) :
    cut mode place (character :: rest) read =
      cut next (place.after raw) behind (tokenAt place kind raw :: read) := by
  rw [cut]
  split <;> rename_i shown <;> rw [found] at shown <;> cases shown
  rfl

theorem cut_of_skipped {mode : Mode} {character : Char} {rest raw behind : List Char}
    (found : Lexeme.first mode character rest = .skipped raw behind) (place : Place)
    (read : List Token) :
    cut mode place (character :: rest) read = cut mode (place.after raw) behind read := by
  rw [cut]
  split <;> rename_i shown <;> rw [found] at shown <;> cases shown
  rfl

theorem cut_of_cuts {mode : Mode} {place last : Place} {source : List Char} {later : List Token}
    (cuts : Cuts mode place source later last) (read : List Token) :
    cut mode place source read = (read.reverse ++ later, .ok last) := by
  induction cuts generalizing read with
  | done complete => simp [cut, complete]
  | token found _ induction =>
      rw [cut_of_token found, induction]
      simp
  | skipped found _ induction =>
      rw [cut_of_skipped found]
      exact induction read

theorem cuts_of_cut {mode : Mode} {place last : Place} {source : List Char}
    {read tokens : List Token} (done : cut mode place source read = (tokens, .ok last)) :
    ∃ later, tokens = read.reverse ++ later ∧ Cuts mode place source later last := by
  fun_induction cut mode place source read with
  | case1 mode place read =>
      split at done
      · cases done
      · rename_i complete
        cases done
        exact ⟨[], by simp, .done complete⟩
  | case2 mode place read character rest kind raw behind next found induction =>
      rcases induction done with ⟨later, rfl, cuts⟩
      exact ⟨_, by simp, .token found cuts⟩
  | case3 mode place read character rest raw behind found induction =>
      rcases induction done with ⟨later, rfl, cuts⟩
      exact ⟨later, rfl, .skipped found cuts⟩
  | case4 => cases done
  | case5 => cases done

theorem value_tokenize_eq_ok_iff {characters : List Char} {tokens : List Token} :
    (tokenize characters).value = .ok tokens ↔
      ∃ later last, Cuts .text .origin characters later last ∧
        tokens = Token.link (later ++ [endToken last]) := by
  rw [tokenize]
  constructor
  · intro done
    match outcome : cut .text .origin characters [] with
    | (read, .error error) =>
        rw [outcome] at done
        cases done
    | (read, .ok last) =>
        rw [outcome] at done
        rcases cuts_of_cut outcome with ⟨later, same, cuts⟩
        rw [List.reverse_nil, List.nil_append] at same
        subst same
        cases done
        exact ⟨read, last, cuts, rfl⟩
  · intro cut
    rcases cut with ⟨later, last, cuts, rfl⟩
    rw [cut_of_cuts cuts]
    rfl

theorem Cuts.isLeaf {mode : Mode} {place last : Place} {source : List Char} {tokens : List Token}
    (cuts : Cuts mode place source tokens last) : ∀ token ∈ tokens, token.isLeaf = true := by
  induction cuts with
  | done => exact nofun
  | token _ _ induction => exact List.forall_mem_cons.mpr ⟨rfl, induction⟩
  | skipped _ _ induction => exact induction

theorem isTerminal_of_first {mode next : Mode} {character : Char} {rest raw behind : List Char}
    {kind : Symbol} (found : Lexeme.first mode character rest = .token kind raw behind next) :
    kind.isTerminal = true := by
  cases mode with
  | text =>
      have shows := ofText_of_first found
      generalize character :: rest = source at shows
      cases shows <;> rfl
  | placeholder =>
      have shows := ofPlaceholder_of_first found
      generalize character :: rest = source at shows
      cases shows <;> rfl
  | name =>
      rw [(ofName_of_first found).1]
      rfl

theorem Cuts.isTerminal {mode : Mode} {place last : Place} {source : List Char}
    {tokens : List Token} (cuts : Cuts mode place source tokens last) :
    ∀ token ∈ tokens, token.kind.isTerminal = true := by
  induction cuts with
  | done => exact nofun
  | token found _ induction =>
      exact List.forall_mem_cons.mpr ⟨isTerminal_of_first found, induction⟩
  | skipped _ _ induction => exact induction

theorem Cuts.exists_first {mode : Mode} {place last : Place} {source : List Char} {token : Token}
    {later : List Token} (cuts : Cuts mode place source (token :: later) last)
    (dense : mode = .placeholder →
      ∀ character ∈ source.head?, Lexeme.isSpacing character = false) :
    ∃ character rest kind raw behind next, source = character :: rest ∧
      Lexeme.first mode character rest = .token kind raw behind next ∧
      token = tokenAt place kind raw ∧ Cuts next (place.after raw) behind later last := by
  cases cuts with
  | token found cuts => exact ⟨_, _, _, _, _, _, rfl, found, rfl, cuts⟩
  | skipped found cuts =>
      rcases of_skipped found with ⟨inside, spacing, _⟩
      rw [dense inside _ rfl] at spacing
      cases spacing

end Stencil.Source
