import Stencil.Command.Arguments
import Stencil.Proofs.Attempts
import Stencil.Proofs.Command.Parts

/-! # Taking arguments apart

Reading the arguments one after the other finds just what the parts of the command line say. An option
whose value has come can be examined at once instead of later.
-/

namespace Stencil.Command

variable {assign : String → Except String (String × String)}

/-! ## Settling -/

namespace Collected

variable {command : Name} {collected next : Collected}

theorem settle_of_pending_eq_none (settled : collected.pending = none) :
    collected.settle assign = .ok collected := by
  rw [settle, settled]

theorem of_settle_eq_ok (settles : collected.settle assign = .ok next) :
    next.pending = none ∧ next.path = collected.path := by
  unfold settle at settles
  split at settles
  · cases settles
    exact ⟨‹_›, rfl⟩
  · cases settles
  · split at settles
    · cases settles
    · cases settles
      exact ⟨rfl, rfl⟩
  · split at settles
    · cases settles
      exact ⟨rfl, rfl⟩
    · cases settles

theorem raise_of_settle (settles : collected.settle assign = .ok next) (flag : Flag) :
    collected.raise assign flag = next.raise assign flag := by
  rw [raise, raise, settles, settle_of_pending_eq_none (of_settle_eq_ok settles).1]

theorem refuse_of_settle (settles : collected.settle assign = .ok next) (error : UsageError) :
    collected.refuse assign error = next.refuse assign error := by
  rw [refuse, refuse, settles, settle_of_pending_eq_none (of_settle_eq_ok settles).1]

theorem long_of_settle (settles : collected.settle assign = .ok next) (owner : Option Name)
    (name : String) (value : Option String) :
    collected.long assign owner name value = next.long assign owner name value := by
  unfold long
  rw [settles, settle_of_pending_eq_none (of_settle_eq_ok settles).1]
  simp only [raise_of_settle settles, refuse_of_settle settles]

theorem file_of_settle (settles : collected.settle assign = .ok next) (path : String) :
    collected.file assign path = next.file assign path := by
  rw [file, file, settles, settle_of_pending_eq_none (of_settle_eq_ok settles).1,
    (of_settle_eq_ok settles).2]

theorem collect_of_settle (settles : collected.settle assign = .ok next) (separated : Bool)
    (arguments : List String) :
    collect assign command separated collected arguments =
      collect assign command separated next arguments := by
  have settled : next.settle assign = .ok next :=
    settle_of_pending_eq_none (of_settle_eq_ok settles).1
  induction arguments generalizing separated with
  | nil => rw [collect, collect, settles, settled]
  | cons argument later induction =>
      rw [collect, collect, file_of_settle settles]
      cases separated with
      | true => rfl
      | false =>
          simp only [Bool.false_eq_true, if_false]
          cases Argument.ofText argument with
          | separator => exact induction true
          | long name value =>
              dsimp only
              rw [long_of_settle settles]
          | short letters =>
              cases letters with
              | nil => exact induction false
              | cons letter letters =>
                  simp only [short, raise_of_settle settles, refuse_of_settle settles]
          | plain text =>
              cases waits : collected.pending with
              | none =>
                  rw [(of_settle_eq_ok settles).1]
                  dsimp only
                  rw [file_of_settle settles]
              | some option =>
                  rcases option with ⟨setting, _ | value⟩
                  · rw [settle, waits] at settles
                    cases settles
                  · rw [(of_settle_eq_ok settles).1]
                    dsimp only
                    rw [file_of_settle settles]

theorem exists_collect_eq_error {cause : UsageError}
    (refused : collected.settle assign = .error cause)
    (complete : ∀ setting, collected.pending ≠ some (setting, none)) (separated : Bool)
    (arguments : List String) :
    ∃ error, collect assign command separated collected arguments = .error error := by
  have file (path : String) (separated : Bool) (later : List String) :
      ∃ error, (do collect assign command separated (← collected.file assign path) later) =
        .error error := by
    unfold Collected.file
    split
    · exact ⟨_, rfl⟩
    · rw [refused]
      exact ⟨_, rfl⟩
  have raise (flag : Flag) : collected.raise assign flag = .error cause := by
    rw [Collected.raise, refused]
    rfl
  have refuse (error : UsageError) : collected.refuse assign error = .error cause := by
    rw [Collected.refuse, refused]
    rfl
  induction arguments generalizing separated with
  | nil => exact ⟨cause, refused⟩
  | cons argument later induction =>
      rw [collect]
      cases separated with
      | true => exact file argument true later
      | false =>
          simp only [Bool.false_eq_true, if_false]
          cases Argument.ofText argument with
          | separator => exact induction true
          | long name value =>
              dsimp only
              unfold long
              cases Flag.ofText? (some command) name with
              | some flag =>
                  cases value with
                  | none =>
                      dsimp only
                      rw [raise]
                      exact ⟨_, rfl⟩
                  | some value => exact ⟨_, rfl⟩
              | none =>
                  cases Setting.ofText? (some command) name with
                  | some setting =>
                      dsimp only
                      rw [refused]
                      exact ⟨_, rfl⟩
                  | none =>
                      simp only [refuse]
                      repeat' split
                      all_goals exact ⟨_, rfl⟩
          | short letters =>
              cases letters with
              | nil => exact induction false
              | cons letter letters =>
                  dsimp only
                  rw [short, raise, refuse, refuse]
                  repeat' split
                  all_goals exact ⟨_, rfl⟩
          | plain text =>
              cases waits : collected.pending with
              | none => exact file text false later
              | some option =>
                  rcases option with ⟨setting, _ | value⟩
                  · exact absurd waits (complete setting)
                  · exact file text false later

/-- Examining an option that has its value later comes to the same as examining it at once. -/
theorem collect_eq_ok_iff {all : Collected}
    (complete : ∀ setting, collected.pending ≠ some (setting, none)) (separated : Bool)
    (arguments : List String) :
    collect assign command separated collected arguments = .ok all ↔
      ∃ next, collected.settle assign = .ok next ∧
        collect assign command separated next arguments = .ok all := by
  cases settles : collected.settle assign with
  | ok next =>
      rw [collect_of_settle settles]
      constructor
      · exact fun done => ⟨next, rfl, done⟩
      · rintro ⟨_, same, done⟩
        cases same
        exact done
  | error cause =>
      rcases exists_collect_eq_error settles complete separated arguments with ⟨error, failed⟩
      rw [failed]
      exact iff_of_false nofun nofun

end Collected

/-! ## Parts -/

namespace Collected

theorem flagOfText?_of_mem {command : Name} {flag : Flag} (known : flag ∈ command.flags) :
    Flag.ofText? (some command) flag.spelling = some flag := by
  cases command <;> cases flag <;> first | rfl | exact absurd known (by decide)

theorem settingOfText?_of_mem {command : Name} {setting : Setting}
    (known : setting ∈ command.settings) :
    Setting.ofText? (some command) setting.spelling = some setting := by
  cases command <;> cases setting <;> first | rfl | exact absurd known (by decide)

theorem ofText_of_plain {argument : String} (plain : Plain argument) :
    Argument.ofText argument = .plain argument := by
  rcases plain with begins | rfl
  · unfold Argument.ofText
    split
    · simp_all
    · simp_all
    · simp_all
    · rfl
  · rfl

def take (assign : String → Except String (String × String)) (collected : Collected) :
    Part → Except UsageError Collected
  | .file path => collected.file assign path
  | .option _ setting value => { collected with pending := some (setting, some value) }.settle assign
  | .switch flag => collected.raise assign flag

theorem ofText_flag (flag : Flag) :
    Argument.ofText ("--" ++ flag.spelling) = .long flag.spelling none := by
  cases flag <;> rfl

theorem ofText_setting (setting : Setting) :
    Argument.ofText ("--" ++ setting.spelling) = .long setting.spelling none := by
  cases setting <;> rfl

theorem ofText_joined (setting : Setting) (value : String) :
    Argument.ofText ("--" ++ setting.spelling ++ "=" ++ value) =
      .long setting.spelling (some value) := by
  cases setting <;> simp [Argument.ofText, Setting.spelling, String.toList_append]

theorem flagOfText?_setting (command : Name) (setting : Setting) :
    Flag.ofText? (some command) setting.spelling = none := by
  cases command <;> cases setting <;> rfl

theorem collect_texts_eq_ok_iff {command : Name} {collected all : Collected} {part : Part}
    (suits : part.Suits command) (settled : collected.pending = none) (later : List String) :
    collect assign command false collected (part.texts ++ later) = .ok all ↔
      ∃ next, collected.take assign part = .ok next ∧
        collect assign command false next later = .ok all := by
  cases part with
  | file path =>
      have plain : Argument.ofText path = .plain path := ofText_of_plain suits
      change collect assign command false collected (path :: later) = _ ↔ _
      rw [collect, if_neg Bool.false_ne_true, plain]
      dsimp only
      rw [settled]
      exact Attempt.except_bind_eq_ok_iff
  | switch flag =>
      have known : Flag.ofText? (some command) flag.spelling = some flag :=
        flagOfText?_of_mem suits
      change collect assign command false collected (("--" ++ flag.spelling) :: later) = _ ↔ _
      rw [collect, if_neg Bool.false_ne_true, ofText_flag]
      dsimp only
      rw [long, known]
      exact Attempt.except_bind_eq_ok_iff
  | option joined setting value =>
      rcases suits with ⟨known, plain⟩
      have known := settingOfText?_of_mem known
      have unknown := flagOfText?_setting command setting
      cases joined with
      | true =>
          change collect assign command false collected
            (("--" ++ setting.spelling ++ "=" ++ value) :: later) = _ ↔ _
          rw [collect, if_neg Bool.false_ne_true, ofText_joined]
          dsimp only
          rw [long, unknown, known, settle_of_pending_eq_none settled]
          exact Attempt.except_bind_eq_ok_iff
      | false =>
          change collect assign command false collected
            (("--" ++ setting.spelling) :: value :: later) = _ ↔ _
          rw [collect, if_neg Bool.false_ne_true, ofText_setting]
          dsimp only
          rw [long, unknown, known, settle_of_pending_eq_none settled]
          change collect assign command false { collected with pending := some (setting, none) }
            (value :: later) = _ ↔ _
          rw [collect, if_neg Bool.false_ne_true, ofText_of_plain (plain rfl)]
          refine collect_eq_ok_iff ?_ false later
          intro other waits
          cases waits

theorem toList_inj {α : Type} {left right : Option α} :
    left.toList = right.toList ↔ left = right := by
  cases left <;> cases right <;> simp

theorem toNat_inj {left right : Bool} : left.toNat = right.toNat ↔ left = right := by
  cases left <;> cases right <;> simp

/-- What is known in the end is what was known before and what the parts say. -/
structure Gathers (assign : String → Except String (String × String)) (earlier : Collected)
    (parts : List Part) (all : Collected) : Prop where
  path : earlier.path.toList ++ parts.filterMap Part.path? = all.path.toList
  data : earlier.data.toList ++ parts.filterMap (Part.value? .data) = all.data.toList
  assignments : earlier.assignments.map .ok ++
    (parts.filterMap (Part.value? .set)).map assign = all.assignments.map .ok
  flags : ∀ flag, earlier.raised flag + parts.count (.switch flag) = all.raised flag
  settled : all.pending = none

theorem gathers_nil_iff {collected all : Collected} (settled : collected.pending = none) :
    collected.Gathers assign [] all ↔ collected = all := by
  constructor
  · rintro ⟨path, data, assignments, flags, settled'⟩
    have verbose := flags .verbose
    have strictTrailing := flags .strictTrailing
    have ast := flags .ast
    have strict := flags .strict
    simp only [List.filterMap_nil, List.map_nil, List.append_nil, List.count_nil, Nat.add_zero,
      Options.raised] at path data assignments verbose strictTrailing ast strict
    have path := toList_inj.mp path
    have data := toList_inj.mp data
    have strictTrailing := toNat_inj.mp strictTrailing
    have ast := toNat_inj.mp ast
    have strict := toNat_inj.mp strict
    have assignments := List.map_inj_right (fun _ _ same => Except.ok.inj same) |>.mp assignments
    rcases collected with ⟨⟨_, _, _, _, _, _⟩, _, _⟩
    rcases all with ⟨⟨_, _, _, _, _, _⟩, _, _⟩
    simp_all
  · rintro rfl
    exact ⟨by simp, by simp, by simp, by simp, settled⟩

theorem Gathers.append_iff {earlier next all : Collected} {first : List Part}
    (gathers : earlier.Gathers assign first next) (later : List Part) :
    earlier.Gathers assign (first ++ later) all ↔ next.Gathers assign later all := by
  have path : earlier.path.toList ++ (first ++ later).filterMap Part.path? =
      next.path.toList ++ later.filterMap Part.path? := by
    rw [List.filterMap_append, ← List.append_assoc, gathers.path]
  have data : earlier.data.toList ++ (first ++ later).filterMap (Part.value? .data) =
      next.data.toList ++ later.filterMap (Part.value? .data) := by
    rw [List.filterMap_append, ← List.append_assoc, gathers.data]
  have assignments : earlier.assignments.map .ok ++
        ((first ++ later).filterMap (Part.value? .set)).map assign =
      next.assignments.map .ok ++ (later.filterMap (Part.value? .set)).map assign := by
    rw [List.filterMap_append, List.map_append, ← List.append_assoc, gathers.assignments]
  have flags (flag : Flag) : earlier.raised flag + (first ++ later).count (.switch flag) =
      next.raised flag + later.count (.switch flag) := by
    rw [List.count_append, ← Nat.add_assoc, gathers.flags]
  constructor
  · intro all
    exact ⟨path.symm.trans all.path, data.symm.trans all.data,
      assignments.symm.trans all.assignments, fun flag => (flags flag).symm.trans (all.flags flag),
      all.settled⟩
  · intro all
    exact ⟨path.trans all.path, data.trans all.data, assignments.trans all.assignments,
      fun flag => (flags flag).trans (all.flags flag), all.settled⟩

theorem of_raise_eq_ok {collected next : Collected} (settled : collected.pending = none)
    {flag : Flag} (raised : collected.raise assign flag = .ok next) :
    next.path = collected.path ∧ next.data = collected.data ∧
      next.assignments = collected.assignments ∧ next.pending = none ∧
      ∀ other, next.raised other = collected.raised other + if flag = other then 1 else 0 := by
  rw [raise, settle_of_pending_eq_none settled] at raised
  cases flag with
  | verbose =>
      cases raised
      refine ⟨rfl, rfl, rfl, settled, ?_⟩
      rintro (_ | _ | _ | _) <;> rfl
  | strictTrailing | ast | strict =>
      change (if _ then _ else _) = _ at raised
      split at raised
      · cases raised
      · cases raised
        refine ⟨rfl, rfl, rfl, settled, ?_⟩
        rintro (_ | _ | _ | _) <;> simp_all [Options.raised]

theorem gathers_of_take_eq_ok {collected next : Collected} {part : Part}
    (settled : collected.pending = none) (taken : collected.take assign part = .ok next) :
    collected.Gathers assign [part] next := by
  cases part with
  | file path =>
      change collected.file assign path = .ok next at taken
      unfold file at taken
      split at taken
      · cases taken
      · rename_i absent
        rw [settle_of_pending_eq_none settled] at taken
        cases taken
        rw [Option.not_isSome_iff_eq_none] at absent
        exact ⟨by simp [absent, Part.path?], by simp [Part.value?], by simp [Part.value?],
          by simp [Options.raised], settled⟩
  | option joined setting value =>
      change settle assign { collected with pending := some (setting, some value) } =
        .ok next at taken
      cases setting with
      | data =>
          change (if collected.data.isSome then _ else _) = _ at taken
          split at taken
          · cases taken
          · rename_i absent
            cases taken
            rw [Option.not_isSome_iff_eq_none] at absent
            exact ⟨by simp [Part.path?], by simp [absent, Part.value?], by simp [Part.value?],
              by simp [Options.raised], rfl⟩
      | set =>
          rw [settle] at taken
          dsimp only at taken
          split at taken
          · rename_i assignment splits
            cases taken
            exact ⟨by simp [Part.path?], by simp [Part.value?], by simp [splits, Part.value?],
              by simp [Options.raised], rfl⟩
          · cases taken
  | switch flag =>
      rcases of_raise_eq_ok settled taken with ⟨path, data, assignments, settled, flags⟩
      exact ⟨by simp [path, Part.path?], by simp [data, Part.value?],
        by simp [assignments, Part.value?], by simp [flags, List.count_singleton], settled⟩

theorem Gathers.exists_take {collected all : Collected} (settled : collected.pending = none)
    {part : Part} {later : List Part} (gathers : collected.Gathers assign (part :: later) all) :
    ∃ next, collected.take assign part = .ok next := by
  cases part with
  | file path =>
      have absent : collected.path = none := by
        have path := gathers.path
        cases given : collected.path with
        | none => rfl
        | some other =>
            rw [given] at path
            cases whole : all.path <;> simp [whole, Part.path?] at path
      change ∃ next, collected.file assign path = .ok next
      rw [file, absent, settle_of_pending_eq_none settled]
      exact ⟨_, rfl⟩
  | option joined setting value =>
      cases setting with
      | data =>
          have absent : collected.data.isSome = false := by
            have data := gathers.data
            cases given : collected.data with
            | none => rfl
            | some other =>
                rw [given] at data
                cases whole : all.data <;> simp [whole, Part.value?] at data
          change ∃ next, (if collected.data.isSome then _ else _) = _
          rw [absent]
          exact ⟨_, rfl⟩
      | set =>
          have member : assign value ∈ all.assignments.map .ok := by
            rw [← gathers.assignments]
            simp [Part.value?]
          rcases List.mem_map.mp member with ⟨assignment, _, splits⟩
          change ∃ next,
            settle assign { collected with pending := some (.set, some value) } = .ok next
          rw [settle]
          simp only [← splits]
          exact ⟨_, rfl⟩
  | switch flag =>
      have down (single : flag ≠ .verbose) : collected.raised flag = 0 := by
        have once := gathers.flags flag
        have bound := all.raised_le_one single
        rw [List.count_cons_self] at once
        omega
      change ∃ next, collected.raise assign flag = .ok next
      rw [raise, settle_of_pending_eq_none settled]
      cases flag with
      | verbose => exact ⟨_, rfl⟩
      | strictTrailing | ast | strict =>
          have down := down nofun
          simp only [Options.raised, Bool.toNat_eq_zero] at down
          exact ⟨_, if_neg (ne_true_of_eq_false down)⟩

theorem gathers_cons_iff {collected all : Collected} (settled : collected.pending = none)
    {part : Part} {later : List Part} :
    collected.Gathers assign (part :: later) all ↔
      ∃ next, collected.take assign part = .ok next ∧ next.Gathers assign later all := by
  constructor
  · intro gathers
    rcases gathers.exists_take settled with ⟨next, taken⟩
    exact ⟨next, taken, ((gathers_of_take_eq_ok settled taken).append_iff later).mp gathers⟩
  · rintro ⟨next, taken, gathers⟩
    exact ((gathers_of_take_eq_ok settled taken).append_iff later).mpr gathers

theorem collect_flatMap_eq_ok_iff {command : Name} {collected all : Collected} {parts : List Part}
    (suit : ∀ part ∈ parts, part.Suits command) (settled : collected.pending = none) :
    collect assign command false collected (parts.flatMap Part.texts) = .ok all ↔
      collected.Gathers assign parts all := by
  induction parts generalizing collected with
  | nil =>
      rw [gathers_nil_iff settled, List.flatMap_nil, collect, settle_of_pending_eq_none settled,
        Except.ok.injEq]
  | cons part later induction =>
      rcases List.forall_mem_cons.mp suit with ⟨suits, others⟩
      rw [List.flatMap_cons, collect_texts_eq_ok_iff suits settled, gathers_cons_iff settled]
      apply exists_congr
      intro next
      apply and_congr_right
      intro taken
      exact induction others (gathers_of_take_eq_ok settled taken).settled

end Collected

/-! ## Command lines -/

section Lines

variable {front : List Flag} {command : Name} {parts : List Part} {invocation : Invocation}

theorem toNat_or {left right : Bool} (either : left.toNat = 0 ∨ right.toNat = 0) :
    (left || right).toNat = left.toNat + right.toNat := by
  cases left <;> cases right <;> simp_all

theorem toNat_decide_eq_one {count : Nat} (bound : count ≤ 1) :
    (decide (count = 1)).toNat = count := by
  rcases Nat.le_one_iff_eq_zero_or_eq_one.mp bound with rfl | rfl <;> rfl

theorem count_map_switch (front : List Flag) (flag : Flag) :
    (front.map Part.switch).count (.switch flag) = front.count flag := by
  rw [List.count, List.countP_map, List.count]
  exact List.countP_congr fun other _ => by simp

theorem filterMap_path?_map_switch (front : List Flag) :
    (front.map Part.switch).filterMap Part.path? = [] := by
  simp [List.filterMap_eq_nil_iff, Part.path?]

theorem filterMap_value?_map_switch (setting : Setting) (front : List Flag) :
    (front.map Part.switch).filterMap (Part.value? setting) = [] := by
  simp [List.filterMap_eq_nil_iff, Part.value?]

theorem ofGeneral_append_eq_ok_iff {general : Collected}
    (known : ∀ flag ∈ front, flag ∈ generalFlags) (settled : general.pending = none)
    (rest : List String) :
    Invocation.ofGeneral assign general (front.map (fun flag => "--" ++ flag.spelling) ++ rest) =
        .ok invocation ↔
      ∃ next, general.Gathers assign (front.map Part.switch) next ∧
        Invocation.ofGeneral assign next rest = .ok invocation := by
  induction front generalizing general with
  | nil => simp [Collected.gathers_nil_iff settled]
  | cons flag later induction =>
      rcases List.forall_mem_cons.mp known with ⟨own, others⟩
      have found : Flag.ofText? none flag.spelling = some flag := by
        cases flag <;> first | rfl | exact absurd own (by decide)
      rw [List.map_cons, List.cons_append, Invocation.ofGeneral.eq_def]
      dsimp only
      rw [Collected.ofText_flag]
      dsimp only
      rw [Collected.long, found]
      dsimp only
      rw [Attempt.except_bind_eq_ok_iff]
      constructor
      · rintro ⟨next, raised, done⟩
        have gathers : general.Gathers assign [.switch flag] next :=
          Collected.gathers_of_take_eq_ok settled raised
        rcases (induction others gathers.settled).mp done with ⟨all, more, done⟩
        exact ⟨all, (Collected.gathers_cons_iff settled).mpr ⟨next, raised, more⟩, done⟩
      · rintro ⟨all, gathers, done⟩
        rcases (Collected.gathers_cons_iff settled).mp gathers with ⟨next, raised, more⟩
        have own := Collected.gathers_of_take_eq_ok settled raised
        exact ⟨next, raised, (induction others own.settled).mpr ⟨all, more, done⟩⟩

theorem ofGeneral_command_eq_ok_iff {general : Collected}
    (suit : ∀ part ∈ parts, part.Suits command) :
    Invocation.ofGeneral assign general (command.spelling :: parts.flatMap Part.texts) =
        .ok invocation ↔
      ∃ own, Collected.Gathers assign {} parts own ∧
        Invocation.ofCollected command general own = .ok invocation := by
  have start : Invocation.ofGeneral assign general (command.spelling :: parts.flatMap Part.texts) =
      (do Invocation.ofCollected command general
            (← collect assign command false {} (parts.flatMap Part.texts))) := by
    cases command <;> rfl
  have collects (own : Collected) :
      collect assign command false {} (parts.flatMap Part.texts) = .ok own ↔
        Collected.Gathers assign {} parts own :=
    Collected.collect_flatMap_eq_ok_iff suit rfl
  rw [start, Attempt.except_bind_eq_ok_iff]
  simp only [collects]

theorem count_append_switch (front : List Flag) (parts : List Part) (flag : Flag) :
    (front.map Part.switch ++ parts).count (.switch flag) =
      front.count flag + parts.count (.switch flag) := by
  rw [List.count_append, count_map_switch]

theorem count_eq_zero_or (apart : ∀ flag ∈ front, flag ∈ generalFlags ∧ .switch flag ∉ parts)
    (flag : Flag) : front.count flag = 0 ∨ parts.count (.switch flag) = 0 := by
  by_cases member : flag ∈ front
  · exact .inr (List.count_eq_zero.mpr (apart flag member).2)
  · exact .inl (List.count_eq_zero.mpr member)

theorem count_eq_zero_of_not_general
    (apart : ∀ flag ∈ front, flag ∈ generalFlags ∧ .switch flag ∉ parts) {flag : Flag}
    (special : flag ∉ generalFlags) : front.count flag = 0 :=
  List.count_eq_zero.mpr fun member => special (apart flag member).1

theorem asks_of_gathers (apart : ∀ flag ∈ front, flag ∈ generalFlags ∧ .switch flag ∉ parts)
    {general own : Collected} (before : Collected.Gathers assign {} (front.map Part.switch) general)
    (behind : Collected.Gathers assign {} parts own)
    (done : Invocation.ofCollected command general own = .ok invocation) :
    Asks assign command (front.map Part.switch ++ parts) invocation := by
  rw [Invocation.ofCollected] at done
  split at done
  · cases done
  rename_i path given
  cases done
  have path := behind.path
  rw [given] at path
  refine ⟨rfl, ?_, ?_, ?_, ?_⟩
  · rwa [List.filterMap_append, filterMap_path?_map_switch]
  · rw [List.filterMap_append, filterMap_value?_map_switch]
    exact behind.data
  · rw [List.filterMap_append, filterMap_value?_map_switch]
    exact behind.assignments
  · intro flag
    have before := before.flags flag
    have behind := behind.flags flag
    have either := count_eq_zero_or apart flag
    rw [count_map_switch] at before
    rw [count_append_switch]
    cases flag with
    | verbose =>
        simp only [Options.raised] at before behind ⊢
        split <;> omega
    | strictTrailing =>
        simp only [Options.raised, Bool.toNat_false, Nat.zero_add] at before behind ⊢
        rw [before, behind] at either ⊢
        exact (toNat_or either).symm
    | ast | strict =>
        simp only [Options.raised, Bool.toNat_false, Nat.zero_add] at behind ⊢
        rw [count_eq_zero_of_not_general apart (by decide), behind, Nat.zero_add]

theorem Asks.exists_gathers (apart : ∀ flag ∈ front, flag ∈ generalFlags ∧ .switch flag ∉ parts)
    (asks : Asks assign command (front.map Part.switch ++ parts) invocation) :
    ∃ general own, Collected.Gathers assign {} (front.map Part.switch) general ∧
      Collected.Gathers assign {} parts own ∧
      Invocation.ofCollected command general own = .ok invocation := by
  have path := asks.path
  have data := asks.data
  have assignments := asks.assignments
  have flags (flag : Flag) : front.count flag + parts.count (.switch flag) =
      invocation.raised flag := by
    rw [← count_append_switch]
    exact asks.flags flag
  have verbosity := flags .verbose
  have strictTrailing := flags .strictTrailing
  have ast : front.count .ast = 0 := count_eq_zero_of_not_general apart (by decide)
  have strict : front.count .strict = 0 := count_eq_zero_of_not_general apart (by decide)
  rw [List.filterMap_append, filterMap_path?_map_switch] at path
  rw [List.filterMap_append, filterMap_value?_map_switch] at data assignments
  have bound : invocation.raised .strictTrailing ≤ 1 := invocation.raised_le_one nofun
  have once : (decide (front.count .strictTrailing = 1)).toNat = front.count .strictTrailing :=
    toNat_decide_eq_one (by omega)
  have more : (decide (parts.count (.switch .strictTrailing) = 1)).toNat =
      parts.count (.switch .strictTrailing) :=
    toNat_decide_eq_one (by omega)
  -- Only the general flags are shared out between the two sides.
  let general : Collected :=
    { verbosity := front.count .verbose, strictTrailing := front.count .strictTrailing = 1 }
  let own : Collected :=
    { invocation.toOptions with
      path := some invocation.path
      pending := none
      verbosity := parts.count (.switch .verbose)
      strictTrailing := parts.count (.switch .strictTrailing) = 1 }
  refine ⟨general, own, ?_, ?_, ?_⟩
  · refine ⟨?_, ?_, ?_, ?_, rfl⟩
    · rw [filterMap_path?_map_switch]
      rfl
    · rw [filterMap_value?_map_switch]
      rfl
    · rw [filterMap_value?_map_switch]
      rfl
    · intro flag
      rw [count_map_switch]
      cases flag with
      | verbose => exact Nat.zero_add _
      | strictTrailing => exact (Nat.zero_add _).trans once.symm
      | ast => exact (Nat.zero_add _).trans ast
      | strict => exact (Nat.zero_add _).trans strict
  · refine ⟨path, data, assignments, ?_, rfl⟩
    intro flag
    have flags := flags flag
    cases flag with
    | verbose => exact Nat.zero_add _
    | strictTrailing => exact (Nat.zero_add _).trans more.symm
    | ast =>
        rw [ast] at flags
        exact flags
    | strict =>
        rw [strict] at flags
        exact flags
  · have either := count_eq_zero_or apart .verbose
    have apart' := count_eq_zero_or apart .strictTrailing
    have counted : (if own.verbosity = 0 then general.verbosity else own.verbosity) =
        invocation.verbosity := by
      change (if parts.count (.switch .verbose) = 0 then front.count .verbose
        else parts.count (.switch .verbose)) = invocation.raised .verbose
      split <;> omega
    have refused : (general.strictTrailing || own.strictTrailing) = invocation.strictTrailing := by
      apply Collected.toNat_inj.mp
      rw [← once, ← more] at apart'
      rw [toNat_or apart']
      exact (congrArg₂ (· + ·) once more).trans strictTrailing
    rw [Invocation.ofCollected, counted, refused, ← asks.command]

/-- What was said in front of the command and behind it says as much as all of it behind the command,
as long as no flag stands on both sides. -/
theorem exists_gathers_iff (apart : ∀ flag ∈ front, flag ∈ generalFlags ∧ .switch flag ∉ parts) :
    (∃ general own, Collected.Gathers assign {} (front.map Part.switch) general ∧
        Collected.Gathers assign {} parts own ∧
        Invocation.ofCollected command general own = .ok invocation) ↔
      Asks assign command (front.map Part.switch ++ parts) invocation := by
  constructor
  · rintro ⟨general, own, before, behind, done⟩
    exact asks_of_gathers apart before behind done
  · exact Asks.exists_gathers apart

end Lines

theorem argumentReader_documented : argumentReader.Documented where
  read_line assign front command parts invocation apart suit _ := by
    have read : argumentReader.read assign (line front command parts) = .ok invocation ↔
        Invocation.ofArguments assign (line front command parts) = .ok invocation := by
      change (Invocation.ofArguments assign (line front command parts)).mapError _ = _ ↔ _
      cases Invocation.ofArguments assign (line front command parts) with
      | ok other => rw [Attempt.mapError_ok, Except.ok.injEq, Except.ok.injEq]
      | error error => exact iff_of_false nofun nofun
    rw [read, Invocation.ofArguments, line,
      ofGeneral_append_eq_ok_iff (fun flag member => (apart flag member).1) rfl,
      ← exists_gathers_iff apart]
    simp only [ofGeneral_command_eq_ok_iff suit, exists_and_left]

end Stencil.Command
