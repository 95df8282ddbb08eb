import Stencil.Proofs.Attempts
import Stencil.Proofs.Template.Writing

/-! # What a sink is asked

A sink may take bytes in portions, be interrupted, stop or fail, in any order. Its calls are kept in
a log beside its state, and the log tells what became of the text that was to be written.
-/

namespace Stencil

variable {σ : Type}

inductive Sink.Call where
  | offered (bytes : List UInt8) (answer : WriteAnswer)
  | flushed (answer : Except String Unit)

namespace Sink.Call

def taken : Call → List UInt8
  | offered bytes (.took count) => bytes.take count
  | _ => []

def isFlush : Call → Bool
  | offered .. => false
  | flushed _ => true

def Continues : Call → Prop
  | offered _ (.took count) => count ≠ 0
  | offered _ .interrupted => True
  | _ => False

def allTaken (calls : List Call) : List UInt8 :=
  calls.flatMap taken

theorem allTaken_append (earlier later : List Call) :
    allTaken (earlier ++ later) = allTaken earlier ++ allTaken later :=
  List.flatMap_append

theorem not_continues_took_zero (bytes : List UInt8) :
    ¬(offered bytes (.took 0)).Continues := fun continues => continues rfl

theorem not_continues_failed (bytes : List UInt8) (reason : String) :
    ¬(offered bytes (.failed reason)).Continues := id

theorem not_continues_flushed (answer : Except String Unit) : ¬(flushed answer).Continues := id

variable {calls : List Call}

theorem mem_append_singleton_iff (continues : ∀ call ∈ calls, call.Continues) (last : Call)
    {call : Call} (ends : ¬call.Continues) : call ∈ calls ++ [last] ↔ call = last := by
  rw [List.mem_append, List.mem_singleton]
  exact or_iff_right fun member => ends (continues call member)

theorem countP_isFlush (continues : ∀ call ∈ calls, call.Continues) :
    calls.countP isFlush = 0 := by
  rw [List.countP_eq_zero]
  intro call member
  have more := continues call member
  cases call with
  | offered => exact Bool.false_ne_true
  | flushed => cases more

end Sink.Call

open Sink (Call)

open Sink.Call

/-- A sink with a log of its calls. The log has no part in what the sink answers. -/
def Sink.logged (sink : Sink σ) : Sink (σ × List Call) where
  write entry bytes :=
    let (answer, state) := sink.write entry.1 bytes
    (answer, state, entry.2 ++ [.offered bytes answer])
  flush entry :=
    let (answer, state) := sink.flush entry.1
    (answer, state, entry.2 ++ [.flushed answer])
  patience entry bytes := sink.patience entry.1 bytes
  took_le entry := sink.took_le entry.1
  patience_lt entry := sink.patience_lt entry.1

/-! ## Offering bytes -/

/-- How offering bytes can end, with the number of bytes taken before: all were taken, or the last
call was answered with nothing or a failure. Until then no byte is left out and none comes
twice. -/
inductive Delivery (bytes : List UInt8) (before : Nat) : Except WriteError Nat → List Call → Prop
  | complete {calls : List Call} (continues : ∀ call ∈ calls, call.Continues)
      (all : allTaken calls = bytes) : Delivery bytes before (.ok (before + bytes.length)) calls
  | stopped {calls : List Call} {offer : List UInt8} (continues : ∀ call ∈ calls, call.Continues)
      (some : offer ≠ []) (inside : allTaken calls ++ offer <+: bytes) :
      Delivery bytes before (.error (.stopped (before + (allTaken calls).length)))
        (calls ++ [.offered offer (.took 0)])
  | failed {calls : List Call} {offer : List UInt8} {reason : String}
      (continues : ∀ call ∈ calls, call.Continues) (some : offer ≠ [])
      (inside : allTaken calls ++ offer <+: bytes) :
      Delivery bytes before (.error (.sinkFailed reason))
        (calls ++ [.offered offer (.failed reason)])

namespace Delivery

variable {bytes front back : List UInt8} {before : Nat} {outcome : Except WriteError Nat}
  {earlier calls : List Call}

theorem behind (continues : ∀ call ∈ earlier, call.Continues) (all : allTaken earlier = front)
    (delivery : Delivery back (before + front.length) outcome calls) :
    Delivery (front ++ back) before outcome (earlier ++ calls) := by
  have joined {later : List Call} (more : ∀ call ∈ later, call.Continues) :
      ∀ call ∈ earlier ++ later, call.Continues :=
    List.forall_mem_append.mpr ⟨continues, more⟩
  have within {later : List Call} {offer : List UInt8}
      (inside : allTaken later ++ offer <+: back) :
      allTaken (earlier ++ later) ++ offer <+: front ++ back := by
    rw [allTaken_append, all, List.append_assoc]
    exact (List.prefix_append_right_inj front).mpr inside
  have counted (later : List Call) : before + front.length + (allTaken later).length =
      before + (allTaken (earlier ++ later)).length := by
    rw [allTaken_append, all, List.length_append, Nat.add_assoc]
  cases delivery with
  | complete more rest =>
      rw [Nat.add_assoc, ← List.length_append]
      exact .complete (joined more) (by rw [allTaken_append, all, rest])
  | stopped more some inside =>
      rw [counted, ← List.append_assoc]
      exact .stopped (joined more) some (within inside)
  | failed more some inside =>
      rw [← List.append_assoc]
      exact .failed (joined more) some (within inside)

theorem append_of_error {error : WriteError} (delivery : Delivery front before (.error error) calls)
    (back : List UInt8) : Delivery (front ++ back) before (.error error) calls := by
  have within {part : List UInt8} (inside : part <+: front) : part <+: front ++ back :=
    inside.trans (List.prefix_append front back)
  cases delivery with
  | stopped continues some inside => exact .stopped continues some (within inside)
  | failed continues some inside => exact .failed continues some (within inside)

end Delivery

namespace Sink

theorem writeAll_of_ne_nil (sink : Sink σ) (state : σ) {bytes : List UInt8} (some : bytes ≠ [])
    (written : Nat) :
    sink.writeAll state bytes written =
      match sink.write state bytes with
      | (.took 0, state) => (.error (.stopped written), state)
      | (.took (less + 1), state) =>
        sink.writeAll state (bytes.drop (less + 1)) (written + (less + 1))
      | (.interrupted, state) => sink.writeAll state bytes written
      | (.failed reason, state) => (.error (.sinkFailed reason), state) := by
  rw [writeAll, if_neg (by simpa using some)]
  split <;> simp_all

theorem logged_write (sink : Sink σ) (state : σ) (log : List Call) (bytes : List UInt8) :
    sink.logged.write (state, log) bytes =
      ((sink.write state bytes).1, (sink.write state bytes).2,
        log ++ [.offered bytes (sink.write state bytes).1]) := rfl

theorem delivery_writeAll (sink : Sink σ) (state : σ) (log : List Call) (bytes : List UInt8)
    (written : Nat) :
    ∃ outcome after calls, sink.writeAll state bytes written = (outcome, after) ∧
      sink.logged.writeAll (state, log) bytes written = (outcome, after, log ++ calls) ∧
      Delivery bytes written outcome calls := by
  have none : ∀ call ∈ ([] : List Call), call.Continues := nofun
  fun_induction sink.writeAll state bytes written generalizing log with
  | case1 state bytes written nothing =>
      have same := List.isEmpty_iff.mp nothing
      subst same
      refine ⟨_, state, [], rfl, ?_, .complete none rfl⟩
      rw [writeAll, if_pos nothing, List.append_nil]
  | case2 state bytes written some next answer =>
      rw [List.isEmpty_iff] at some
      refine ⟨_, next, [.offered bytes (.took 0)], rfl, ?_, .stopped none some List.prefix_rfl⟩
      rw [writeAll_of_ne_nil _ _ some, logged_write, answer]
  | case3 state bytes written some less next answer induction =>
      rw [List.isEmpty_iff] at some
      rcases induction (log ++ [.offered bytes (.took (less + 1))]) with
        ⟨outcome, after, calls, writes, logs, delivery⟩
      have bound : less + 1 ≤ bytes.length :=
        sink.took_le state bytes _ (congrArg Prod.fst answer)
      refine ⟨outcome, after, .offered bytes (.took (less + 1)) :: calls, writes, ?_, ?_⟩
      · rw [writeAll_of_ne_nil _ _ some, logged_write, answer]
        simpa using logs
      · have first : (Call.offered bytes (.took (less + 1))).Continues := Nat.succ_ne_zero less
        have front : allTaken [.offered bytes (.took (less + 1))] = bytes.take (less + 1) :=
          List.append_nil _
        have reached : written + (bytes.take (less + 1)).length = written + (less + 1) := by
          rw [List.length_take_of_le bound]
        rw [← reached] at delivery
        have whole := delivery.behind (List.forall_mem_singleton.mpr first) front
        rwa [List.take_append_drop] at whole
  | case4 state bytes written some next answer induction =>
      rw [List.isEmpty_iff] at some
      rcases induction (log ++ [.offered bytes .interrupted]) with
        ⟨outcome, after, calls, writes, logs, delivery⟩
      refine ⟨outcome, after, .offered bytes .interrupted :: calls, writes, ?_, ?_⟩
      · rw [writeAll_of_ne_nil _ _ some, logged_write, answer]
        simpa using logs
      · have first : (Call.offered bytes .interrupted).Continues := trivial
        have nothing : allTaken [.offered bytes .interrupted] = [] := rfl
        exact delivery.behind (List.forall_mem_singleton.mpr first) nothing
  | case5 state bytes written some reason next answer =>
      rw [List.isEmpty_iff] at some
      refine ⟨_, next, [.offered bytes (.failed reason)], rfl, ?_,
        .failed none some List.prefix_rfl⟩
      rw [writeAll_of_ne_nil _ _ some, logged_write, answer]

theorem delivery_writePortions (sink : Sink σ) (state : σ) (log : List Call) (written : Nat)
    (portions : List String) :
    ∃ outcome after calls, sink.writePortions state written portions = (outcome, after) ∧
      sink.logged.writePortions (state, log) written portions = (outcome, after, log ++ calls) ∧
      Delivery (String.join portions).toUTF8.toList written outcome calls := by
  induction portions generalizing state log written with
  | nil =>
      have none : ∀ call ∈ ([] : List Call), call.Continues := nofun
      have empty : (String.join []).toUTF8.toList = [] := by simp [Text.toList_eq_toList_data]
      rw [empty]
      exact ⟨.ok written, state, [], rfl, by rw [List.append_nil]; rfl, .complete none rfl⟩
  | cons portion later induction =>
      rcases delivery_writeAll sink state log portion.toUTF8.toList written with
        ⟨outcome, next, earlier, writes, logs, delivery⟩
      rw [String.join_cons, Text.toList_toUTF8_append, writePortions, writePortions, writes, logs]
      cases outcome with
      | error error => exact ⟨_, next, earlier, rfl, rfl, delivery.append_of_error _⟩
      | ok total =>
          rcases induction next (log ++ earlier) total with
            ⟨outcome, after, calls, writes, logs, others⟩
          refine ⟨outcome, after, earlier ++ calls, writes, ?_, ?_⟩
          · rw [← List.append_assoc]
            exact logs
          · cases delivery with
            | complete continues all => exact others.behind continues all

end Sink

/-! ## Whole templates -/

/-- What became of a text that was to be written, told by the calls of the sink. -/
structure Account (text : List UInt8) (outcome : Except WriteError Unit) (calls : List Call) :
    Prop where
  /-- No byte is left out, and none comes twice. -/
  in_order : allTaken calls <+: text
  ok_iff : outcome = .ok () ↔ allTaken calls = text ∧ .flushed (.ok ()) ∈ calls
  /-- The sink is flushed once when it has taken everything, and otherwise never. -/
  flushes : calls.countP Call.isFlush = if allTaken calls = text then 1 else 0
  stopped_iff : ∀ count, outcome = .error (.stopped count) ↔
    (∃ bytes, bytes ≠ [] ∧ .offered bytes (.took 0) ∈ calls) ∧ count = (allTaken calls).length
  failed_iff : ∀ reason, outcome = .error (.sinkFailed reason) ↔
    (∃ bytes, .offered bytes (.failed reason) ∈ calls) ∨ .flushed (.error reason) ∈ calls
  not_unresolved : ∀ name, outcome ≠ .error (.unresolved name)

namespace Account

variable {text : List UInt8} {calls : List Call}

theorem allTaken_halted {offer : List UInt8} (some : offer ≠ []) {answer : WriteAnswer}
    (nothing : (Call.offered offer answer).taken = [])
    (inside : allTaken calls ++ offer <+: text) :
    allTaken (calls ++ [.offered offer answer]) = allTaken calls ∧
      allTaken calls <+: text ∧ allTaken calls ≠ text := by
  refine ⟨?_, (List.prefix_append _ _).trans inside, ?_⟩
  · rw [allTaken_append, allTaken, allTaken, List.flatMap_singleton, nothing, List.append_nil]
  · rintro rfl
    have length := inside.length_le
    have positive := List.length_pos_iff.mpr some
    rw [List.length_append] at length
    omega

theorem of_delivery {error : WriteError} (delivery : Delivery text 0 (.error error) calls) :
    Account text (.error error) calls := by
  cases delivery with
  | @stopped calls offer continues some inside =>
      have nothing : (Call.offered offer (.took 0)).taken = [] := rfl
      rcases allTaken_halted some nothing inside with ⟨same, begins, short⟩
      have member {call : Call} (ends : ¬call.Continues) :=
        mem_append_singleton_iff continues (.offered offer (.took 0)) ends
      constructor
      · rwa [same]
      · simp [same, short]
      · simp [same, short, countP_isFlush continues, Call.isFlush]
      · intro count
        simp only [member (not_continues_took_zero _), same]
        constructor
        · intro equal
          cases equal
          exact ⟨⟨offer, some, rfl⟩, Nat.zero_add _⟩
        · rintro ⟨_, rfl⟩
          rw [Nat.zero_add]
      · simp [member (not_continues_failed _ _), member (not_continues_flushed _)]
      · exact nofun
  | @failed calls offer reason continues some inside =>
      have nothing : (Call.offered offer (.failed reason)).taken = [] := rfl
      rcases allTaken_halted some nothing inside with ⟨same, begins, short⟩
      have member {call : Call} (ends : ¬call.Continues) :=
        mem_append_singleton_iff continues (.offered offer (.failed reason)) ends
      constructor
      · rwa [same]
      · simp [same, short]
      · simp [same, short, countP_isFlush continues, Call.isFlush]
      · simp [member (not_continues_took_zero _)]
      · simp [member (not_continues_failed _ _), member (not_continues_flushed _), eq_comm]
      · exact nofun

theorem of_complete (continues : ∀ call ∈ calls, call.Continues) (all : allTaken calls = text)
    (answer : Except String Unit) :
    Account text (answer.mapError .sinkFailed) (calls ++ [.flushed answer]) := by
  have same : allTaken (calls ++ [.flushed answer]) = text := by
    rw [allTaken_append, all]
    exact List.append_nil _
  have member {call : Call} (ends : ¬call.Continues) :=
    mem_append_singleton_iff continues (.flushed answer) ends
  constructor
  · exact same ▸ List.prefix_rfl
  · simp only [same, member (not_continues_flushed _), true_and]
    cases answer <;> simp
  · simp [same, countP_isFlush continues, Call.isFlush]
  · intro count
    simp only [member (not_continues_took_zero _)]
    cases answer <;> simp
  · intro reason
    simp only [member (not_continues_failed _ _), member (not_continues_flushed _)]
    cases answer <;> simp [eq_comm]
  · intro name
    cases answer <;> simp

end Account

namespace Template

theorem account_of_checkResolved {template : Template} (allowed : template.checkResolved = .ok ())
    (sink : Sink σ) (state : σ) :
    ∃ outcome after calls, template.write sink state = (outcome, after) ∧
      template.write sink.logged (state, []) = (outcome, after, calls) ∧
      Account (String.join template.portions).toUTF8.toList outcome calls := by
  rcases sink.delivery_writePortions state [] 0 template.portions with
    ⟨outcome, next, calls, writes, logs, delivery⟩
  rw [List.nil_append] at logs
  rw [write, write, allowed, writes, logs]
  cases delivery with
  | complete continues all =>
      refine ⟨(sink.flush next).1.mapError .sinkFailed, (sink.flush next).2, _, ?_, ?_,
        .of_complete continues all (sink.flush next).1⟩
      · dsimp only
        rcases sink.flush next with ⟨_ | _, _⟩ <;> rfl
      · have flushes : sink.logged.flush (next, calls) = ((sink.flush next).1,
            (sink.flush next).2, calls ++ [.flushed (sink.flush next).1]) := rfl
        dsimp only
        rw [flushes]
        rcases sink.flush next with ⟨_ | _, _⟩ <;> rfl
  | stopped continues some inside =>
      exact ⟨_, next, _, rfl, rfl, .of_delivery (.stopped continues some inside)⟩
  | failed continues some inside =>
      exact ⟨_, next, _, rfl, rfl, .of_delivery (.failed continues some inside)⟩

/-- Writing a template, told by the calls of any sink: none if a placeholder without a value is not
allowed and there is one, and otherwise those that account for the text of the template. -/
theorem account_write (template : Template) (sink : Sink σ) (state : σ) :
    ∃ outcome after calls, template.write sink state = (outcome, after) ∧
      template.write sink.logged (state, []) = (outcome, after, calls) ∧
      (∀ name, template.options.unresolved = .refuse → template.unresolved.head? = some name →
        outcome = .error (.unresolved name) ∧ calls = []) ∧
      (template.options.unresolved = .keep ∨ template.unresolved = [] →
        Account (String.join template.portions).toUTF8.toList outcome calls) := by
  by_cases missing : ∃ name, template.options.unresolved = .refuse ∧
      template.unresolved.head? = some name
  · rcases missing with ⟨name, policy, first⟩
    refine ⟨.error (.unresolved name), state, [], ?_, ?_, ?_, ?_⟩
    · rw [write, checkResolved_of_refuse policy first]
    · rw [write, checkResolved_of_refuse policy first]
    · intro other _ otherFirst
      rw [first] at otherFirst
      exact ⟨by rw [Option.some.inj otherFirst], rfl⟩
    · rintro (keep | none)
      · rw [policy] at keep
        cases keep
      · rw [none] at first
        cases first
  · have allowed : template.checkResolved = .ok () := by
      cases policy : template.options.unresolved with
      | keep => exact checkResolved_of_keep policy
      | refuse =>
          apply checkResolved_of_unresolved_eq_nil
          rw [← List.head?_eq_none_iff, Option.eq_none_iff_forall_ne_some]
          exact fun name first => missing ⟨name, policy, first⟩
    rcases account_of_checkResolved allowed sink state with
      ⟨outcome, after, calls, writes, logs, account⟩
    exact ⟨outcome, after, calls, writes, logs,
      fun name policy first => absurd ⟨name, policy, first⟩ missing, fun _ => account⟩

end Template

end Stencil
