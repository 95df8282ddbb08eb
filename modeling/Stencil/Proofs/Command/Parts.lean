import Mathlib.Data.List.Basic
import Stencil.Command.Invocation

/-! # What a command line says

A command line behind the name of the command is a row of parts: files, options with a value, and
flags. The order of the parts matters only among those of the same kind.
-/

namespace Stencil.Command

/-! ## Assignments -/

theorem readAssignment_eq_ok_iff {text name value : String} :
    readAssignment text = .ok (name, value) ↔
      name ≠ "" ∧ '=' ∉ name.toList ∧ text = name ++ "=" ++ value := by
  have given : text.toList.takeWhile (· ≠ '=') ++ text.toList.dropWhile (· ≠ '=') = text.toList :=
    List.takeWhile_append_dropWhile
  have before : ∀ character ∈ text.toList.takeWhile (· ≠ '='), (character ≠ '=' : Bool) = true :=
    List.all_eq_true.mp List.all_takeWhile
  have behind := List.head?_dropWhile_not (· ≠ '=') text.toList
  constructor
  · intro splits
    unfold readAssignment at splits
    generalize text.toList.takeWhile _ = front at splits given before
    generalize text.toList.dropWhile _ = back at splits given behind
    match front, back with
    | [], _ => cases splits
    | _ :: _, [] => cases splits
    | first :: more, sign :: rest =>
        cases splits
        have stops : sign = '=' := by simpa using behind
        subst stops
        refine ⟨by simp, ?_, ?_⟩
        · intro inside
          rw [String.toList_ofList] at inside
          simpa using before _ inside
        · apply String.toList_injective
          simp [← given]
  · rintro ⟨nonempty, absent, rfl⟩
    have whole : (name ++ "=" ++ value).toList = name.toList ++ '=' :: value.toList := by
      simp [String.toList_append]
    have others : ∀ character ∈ name.toList, decide (character ≠ '=') = true := by
      intro character member
      exact decide_eq_true fun same => absent (same ▸ member)
    unfold readAssignment
    rw [whole, List.takeWhile_append_of_pos others, List.dropWhile_append_of_pos others,
      List.takeWhile_cons_of_neg (by simp), List.dropWhile_cons_of_neg (by simp), List.append_nil]
    match spelled : name.toList with
    | [] => exact absurd (String.toList_eq_nil_iff.mp spelled) nonempty
    | first :: more =>
        dsimp only
        rw [← spelled, String.ofList_toList, String.ofList_toList]

/-! ## Parts of a command line -/

/-- Something that is said behind the name of a command. The value of an option is joined to it by
an equals sign, or it is an argument of its own. -/
inductive Part where
  | file (path : String)
  | option (joined : Bool) (setting : Setting) (value : String)
  | switch (flag : Flag)
deriving DecidableEq

/-- Whether an argument does not look like an option. -/
def Plain (argument : String) : Prop :=
  argument.toList.head? ≠ some '-' ∨ argument = "-"

instance (argument : String) : Decidable (Plain argument) :=
  inferInstanceAs (Decidable (_ ∨ _))

namespace Part

def texts : Part → List String
  | file path => [path]
  | option false setting value => ["--" ++ setting.spelling, value]
  | option true setting value => ["--" ++ setting.spelling ++ "=" ++ value]
  | switch flag => ["--" ++ flag.spelling]

def Suits (command : Name) : Part → Prop
  | file path => Plain path
  | option joined setting value =>
    setting ∈ command.settings ∧ (joined = false → Plain value)
  | switch flag => flag ∈ command.flags

def path? : Part → Option String
  | file path => some path
  | _ => none

def value? (setting : Setting) : Part → Option String
  | option _ given value => if given = setting then some value else none
  | _ => none

end Part

def Options.raised (options : Options) : Flag → Nat
  | .verbose => options.verbosity
  | .strictTrailing => options.strictTrailing.toNat
  | .ast => options.ast.toNat
  | .strict => options.strict.toNat

theorem Options.raised_le_one (options : Options) {flag : Flag} (single : flag ≠ .verbose) :
    options.raised flag ≤ 1 := by
  cases flag with
  | verbose => exact absurd rfl single
  | strictTrailing | ast | strict => exact Bool.toNat_le _

/-- An invocation says just what the parts of a command line say: there is one file, there is at
most one file of data, values are assigned in the order of the parts, and no flag but the one for
verbosity is raised twice. -/
structure Asks (assign : String → Except String (String × String)) (command : Name)
    (parts : List Part) (invocation : Invocation) : Prop where
  command : invocation.command = command
  path : parts.filterMap Part.path? = [invocation.path]
  data : parts.filterMap (Part.value? .data) = invocation.data.toList
  assignments :
    (parts.filterMap (Part.value? .set)).map assign = invocation.assignments.map .ok
  flags : ∀ flag, parts.count (.switch flag) = invocation.raised flag

/-- A command line: flags in front of the command, the command, and what is said behind it. -/
def line (front : List Flag) (command : Name) (parts : List Part) : List String :=
  front.map (fun flag => "--" ++ flag.spelling) ++ command.spelling :: parts.flatMap Part.texts

/-- What is promised of a reader of arguments: a command line is read as what its parts say, and
refused if they do not go together. A general flag may stand on either side of the command, but not on
both. Verbosity is counted in a byte. -/
structure ArgumentReader.Documented (reader : ArgumentReader) : Prop where
  read_line : ∀ (assign : String → Except String (String × String)) (front : List Flag)
    (command : Name) (parts : List Part) (invocation : Invocation),
    (∀ flag ∈ front, flag ∈ generalFlags ∧ .switch flag ∉ parts) →
    (∀ part ∈ parts, part.Suits command) →
    (front.map Part.switch ++ parts).count (.switch .verbose) < 256 →
    (reader.read assign (line front command parts) = .ok invocation ↔
      Asks assign command (front.map Part.switch ++ parts) invocation)

end Stencil.Command
