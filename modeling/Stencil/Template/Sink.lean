/-!
# Sinks

A sink takes bytes in portions of its own choice. It may take fewer bytes than it is offered, be
interrupted, or fail. Two promises make writing to it possible: it never takes more than it is
offered, and it is not interrupted for ever.
-/

namespace Stencil

inductive WriteAnswer where
  | took (count : Nat)
  | interrupted
  | failed (reason : String)
deriving DecidableEq

structure Sink (σ : Type) where
  write : σ → List UInt8 → WriteAnswer × σ
  /-- Asks the sink to pass on what it took. A failure comes with its reason. -/
  flush : σ → Except String Unit × σ
  /-- The number of interruptions in a row before the sink gives another answer. -/
  patience : σ → List UInt8 → Nat
  took_le : ∀ state bytes count, (write state bytes).1 = .took count → count ≤ bytes.length
  patience_lt : ∀ state bytes, (write state bytes).1 = .interrupted →
    patience (write state bytes).2 bytes < patience state bytes

namespace Sink

/-- A sink that takes everything. Its state is what it took, the latest portion first. -/
def everything : Sink (List (List UInt8)) where
  write taken bytes := (.took bytes.length, bytes :: taken)
  flush taken := (.ok (), taken)
  patience _ _ := 0
  took_le _ _ _ answer := by
    injection answer with equal
    omega
  patience_lt _ _ answer := by cases answer

structure Limits where
  portion : Option Nat
  total : Option Nat
  /-- Whether it fails when it cannot take anything. -/
  fails : Bool
  flushFails : Bool
  /-- Whether the first of every two offers is interrupted. -/
  interrupts : Bool

structure Seen where
  count : Nat
  taken : List (List UInt8)
  interrupted : Bool
  flushed : Bool

def Seen.nothing : Seen :=
  ⟨0, [], false, false⟩

def Seen.bytes (seen : Seen) : List UInt8 :=
  seen.taken.reverse.flatten

def Limits.accept (limits : Limits) (seen : Seen) (bytes : List UInt8) : List UInt8 :=
  let portion := limits.portion.elim bytes bytes.take
  limits.total.elim portion fun total => portion.take (total - seen.count)

theorem Limits.length_accept_le (limits : Limits) (seen : Seen) (bytes : List UInt8) :
    (limits.accept seen bytes).length ≤ bytes.length := by
  unfold accept
  cases limits.portion <;> cases limits.total <;>
    simp only [Option.elim_none, Option.elim_some, List.length_take] <;> omega

def bounded (limits : Limits) : Sink Seen where
  write seen bytes :=
    if limits.interrupts && !seen.interrupted then (.interrupted, { seen with interrupted := true })
    else
      let seen := { seen with interrupted := false }
      let portion := limits.accept seen bytes
      if portion.isEmpty && limits.fails then (.failed "write refused", seen)
      else
        (.took portion.length,
          { seen with count := seen.count + portion.length, taken := portion :: seen.taken })
  flush seen :=
    (if limits.flushFails then .error "flush refused" else .ok (), { seen with flushed := true })
  patience seen _ := if seen.interrupted then 0 else 1
  took_le seen bytes count answer := by
    dsimp only at answer
    split at answer
    · cases answer
    · split at answer
      · cases answer
      · injection answer with equal
        rw [← equal]
        exact limits.length_accept_le _ bytes
  patience_lt seen bytes answer := by
    dsimp only at answer ⊢
    split at answer
    · simp_all
    · split at answer <;> cases answer

end Sink

end Stencil
