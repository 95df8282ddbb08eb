import Stencil.SymbolSet

/-!
# Families of symbol sets

What may begin, follow or precede a symbol is computed for all symbols at once, by adding to a
family of sets until nothing new comes in. There are finitely many symbols to add, so this ends.
The main statement is that the family reached is closed: one more round changes nothing.
-/

namespace Stencil

abbrev SetFamily := PerSymbol SymbolSet

namespace SetFamily

def extend (family : SetFamily) (symbol : Symbol) (added : SymbolSet) : SetFamily :=
  family.set symbol ((family.get symbol).union added)

def Included (smaller larger : SetFamily) : Prop :=
  ∀ symbol slot, (smaller.get symbol).contains slot = true →
    (larger.get symbol).contains slot = true

theorem Included.refl (family : SetFamily) : Included family family :=
  fun _ _ held => held

theorem Included.trans {first second third : SetFamily} (lower : Included first second)
    (upper : Included second third) : Included first third :=
  fun symbol slot held => upper symbol slot (lower symbol slot held)

theorem contains_get_extend (family : SetFamily) (symbol other : Symbol) (added : SymbolSet)
    (slot : Option Symbol) :
    ((family.extend symbol added).get other).contains slot =
      ((family.get other).contains slot || (decide (symbol = other) && added.contains slot)) := by
  by_cases same : symbol = other
  · subst same
    simp [extend, PerSymbol.get_set]
  · simp [extend, PerSymbol.get_set, same]

theorem included_extend (family : SetFamily) (symbol : Symbol) (added : SymbolSet) :
    Included family (family.extend symbol added) := by
  intro other slot held
  simp [contains_get_extend, held]

theorem included_foldl {α : Type} {add : SetFamily → α → SetFamily}
    (adds : ∀ family item, Included family (add family item)) (items : List α)
    (family : SetFamily) : Included family (items.foldl add family) := by
  induction items generalizing family with
  | nil => exact Included.refl family
  | cons item later induction => exact (adds family item).trans (induction _)

/-! ## Growing to the end -/

/-- Every place that a family can fill: a symbol, and a member of its set. -/
def slots : List (Symbol × Option Symbol) :=
  Symbol.all.flatMap fun symbol => (none :: Symbol.all.map some).map (symbol, ·)

theorem mem_slots (slot : Symbol × Option Symbol) : slot ∈ slots := by
  rcases slot with ⟨symbol, member⟩
  cases member <;> simp [slots, Symbol.mem_all]

def room (family : SetFamily) : Nat :=
  slots.countP fun (symbol, slot) => !(family.get symbol).contains slot

theorem countP_lt_countP {α : Type} {fewer more : α → Bool} {items : List α}
    (weaker : ∀ item ∈ items, fewer item = true → more item = true)
    (gap : ∃ item ∈ items, more item = true ∧ fewer item = false) :
    items.countP fewer < items.countP more := by
  induction items with
  | nil => simp at gap
  | cons item later induction =>
    have laterWeaker : ∀ other ∈ later, fewer other = true → more other = true :=
      fun other member => weaker other (List.mem_cons_of_mem _ member)
    have here : fewer item = true → more item = true := weaker item List.mem_cons_self
    have laterLe := List.countP_mono_left laterWeaker
    rcases gap with ⟨witness, member, holds, fails⟩
    rcases List.mem_cons.mp member with equal | member
    · subst equal
      simp only [List.countP_cons, holds, fails]
      simp only [Bool.false_eq_true, if_false, if_true]
      omega
    · have laterLt := induction laterWeaker ⟨witness, member, holds, fails⟩
      simp only [List.countP_cons]
      by_cases now : fewer item = true
      · simp only [now, here now, if_true]
        omega
      · simp only [now, if_false, Bool.false_eq_true]
        omega

theorem room_lt {smaller larger : SetFamily} (included : Included smaller larger)
    (different : larger ≠ smaller) : larger.room < smaller.room := by
  apply countP_lt_countP
  · intro slot _ free
    simp only [Bool.not_eq_true'] at free ⊢
    cases held : (smaller.get slot.1).contains slot.2 with
    | false => rfl
    | true => rw [included _ _ held] at free; cases free
  · apply Classical.byContradiction
    intro none
    apply different
    apply PerSymbol.ext
    intro symbol
    apply SymbolSet.ext
    intro slot
    cases lower : (smaller.get symbol).contains slot with
    | true => exact included _ _ lower
    | false =>
      cases upper : (larger.get symbol).contains slot with
      | false => rfl
      | true => exact absurd ⟨(symbol, slot), mem_slots _, by simp [lower], by simp [upper]⟩ none

def saturate (round : SetFamily → SetFamily) (adds : ∀ family, Included family (round family))
    (family : SetFamily) : SetFamily :=
  let larger := round family
  if _ : larger = family then family else saturate round adds larger
termination_by family.room
decreasing_by exact room_lt (adds family) ‹_›

/-- What saturation reaches is closed under the round. -/
theorem round_saturate (round : SetFamily → SetFamily)
    (adds : ∀ family, Included family (round family)) (family : SetFamily) :
    round (saturate round adds family) = saturate round adds family := by
  fun_induction saturate round adds family with
  | case1 family _ closed => exact closed
  | case2 family _ _ induction => exact induction

theorem included_saturate (round : SetFamily → SetFamily)
    (adds : ∀ family, Included family (round family)) (family : SetFamily) :
    Included family (saturate round adds family) := by
  fun_induction saturate round adds family with
  | case1 family _ _ => exact Included.refl family
  | case2 family _ _ induction => exact (adds family).trans induction

end SetFamily

end Stencil
