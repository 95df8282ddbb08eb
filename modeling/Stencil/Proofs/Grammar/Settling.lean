import Stencil.Proofs.Grammar.Closure

/-! # How sets are reached

A family of sets is the end of a loop: a round of additions is repeated as long as it changes
something. Every such loop ends, since each round but the last fills a place that was free. What a
member of the last family stands for is known from the additions alone: if each of them adds only
members that a property allows, the family has no others.
-/

namespace Stencil.SetFamily

/-! ## The loop -/

section Loop

variable {round : SetFamily → SetFamily}

/-- The loop that repeats a round, from the family that it starts with to the one that it leaves
behind, with the number of rounds that change something. One more round is made to find that nothing
changes any more. -/
inductive Settles (round : SetFamily → SetFamily) : SetFamily → Nat → SetFamily → Prop
  | settled {family : SetFamily} (same : round family = family) : Settles round family 0 family
  | again {family last : SetFamily} {rounds : Nat} (changed : round family ≠ family)
      (settles : Settles round (round family) rounds last) :
      Settles round family (rounds + 1) last

theorem exists_settles_of_room (adds : ∀ family, Included family (round family))
    (family : SetFamily) :
    ∃ rounds ≤ family.room, Settles round family rounds (saturate round adds family) := by
  fun_induction saturate round adds family with
  | case1 family _ same => exact ⟨0, Nat.zero_le _, .settled same⟩
  | case2 family _ changed induction =>
      rcases induction with ⟨rounds, few, settles⟩
      have less : (round family).room < family.room := room_lt (adds family) changed
      exact ⟨rounds + 1, Nat.lt_of_le_of_lt few less, .again changed settles⟩

theorem exists_settles_saturate (adds : ∀ family, Included family (round family))
    (family : SetFamily) :
    ∃ rounds ≤ slots.length, Settles round family rounds (saturate round adds family) := by
  rcases exists_settles_of_room adds family with ⟨rounds, few, settles⟩
  exact ⟨rounds, Nat.le_trans few List.countP_le_length, settles⟩

end Loop

/-! ## Members -/

section Members

variable {Allowed : Symbol → Option Symbol → Prop} {family : SetFamily}

def Within (Allowed : Symbol → Option Symbol → Prop) (family : SetFamily) : Prop :=
  ∀ symbol slot, (family.get symbol).contains slot = true → Allowed symbol slot

theorem within_empty : Within Allowed (.replicate .empty) := by
  intro symbol slot held
  simp at held

theorem Within.extend (within : Within Allowed family) {symbol : Symbol} {added : SymbolSet}
    (allowed : ∀ slot, added.contains slot = true → Allowed symbol slot) :
    Within Allowed (family.extend symbol added) := by
  intro other slot held
  rw [contains_get_extend, Bool.or_eq_true, Bool.and_eq_true, decide_eq_true_eq] at held
  rcases held with present | ⟨rfl, new⟩
  · exact within other slot present
  · exact allowed slot new

variable {α : Type} {add : SetFamily → α → SetFamily} {items : List α}

theorem Within.foldl (within : Within Allowed family)
    (keeps : ∀ item ∈ items, ∀ family, Within Allowed family → Within Allowed (add family item)) :
    Within Allowed (items.foldl add family) := by
  induction items generalizing family with
  | nil => exact within
  | cons item later induction =>
      rcases List.forall_mem_cons.mp keeps with ⟨here, further⟩
      exact induction (here family within) further

theorem Within.saturate_foldl (within : Within Allowed family)
    (adds : ∀ family, Included family (items.foldl add family))
    (keeps : ∀ item ∈ items, ∀ family, Within Allowed family → Within Allowed (add family item)) :
    Within Allowed (saturate (items.foldl add ·) adds family) :=
  saturate_induction adds (Within Allowed) (fun _ before => before.foldl keeps) within

end Members

end Stencil.SetFamily
