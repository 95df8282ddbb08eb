import Mathlib.Data.List.Count
import Stencil.Command.Run
import Stencil.Json.Library
import Stencil.Proofs.Command.Arguments
import Stencil.Proofs.Quiet
import Stencil.Proofs.Template.Rendering

/-! # Commands that read the same file

Checking a template, showing its tree or its pieces, and rendering it begin with the same reading,
but they do not all take the same way. Still they accept the same files, and tell the same about the
others.
-/

namespace Stencil

namespace Template

open Stencil.Source

variable {events : List Event} {options : Options} {bytes : ByteArray}

theorem ofBytes_of_decodeUtf8 {characters : List Char}
    (decoded : Text.decodeUtf8 bytes = .ok characters) (prepared : Reported Table)
    (options : Options) :
    ofBytes prepared options bytes = ofText prepared options (.ofList characters) := by
  rw [ofBytes, ofText, tokenizeBytes, decoded, tokenizeText, String.toList_ofList]

theorem value_ofBytes_of_decodeUtf8_error {place : Nat}
    (undecoded : Text.decodeUtf8 bytes = .error place) (prepared : Reported Table)
    (options : Options) :
    (ofBytes prepared options bytes).value =
      .error (.lex (.invalidEncoding (Text.charactersBefore bytes place + 1))) := by
  rw [ofBytes, tokenizeBytes, undecoded]
  rfl

theorem value_ofBytes_eq_ok {template : Template}
    (read : (ofBytes readyTable {} bytes).value = .ok template) (events : List Event)
    (options : Options) :
    (ofBytes ⟨table, events⟩ options bytes).value = .ok { template with options } := by
  cases decoded : Text.decodeUtf8 bytes with
  | error place =>
      rw [value_ofBytes_of_decodeUtf8_error decoded] at read
      cases read
  | ok characters =>
      rw [ofBytes, tokenizeBytes, decoded] at read ⊢
      rcases (value_tokenize_bind_eq_ok_iff _ _ _ _).mp read with ⟨nonempty, _, reads⟩
      exact (value_tokenize_bind_eq_ok_iff _ _ _ _).mpr ⟨nonempty, rfl, reads⟩

theorem value_ofBytes_eq_error {error : TemplateError}
    (refused : (ofBytes readyTable {} bytes).value = .error error) (events : List Event)
    (options : Options) : (ofBytes ⟨table, events⟩ options bytes).value = .error error := by
  cases decoded : Text.decodeUtf8 bytes with
  | error place =>
      rw [value_ofBytes_of_decodeUtf8_error decoded] at refused ⊢
      exact refused
  | ok characters =>
      rw [ofBytes_of_decodeUtf8 decoded] at refused ⊢
      exact (Refusal.of_value_ofText refused).value_ofText

/-- The tree of a source always has the shape of a template. -/
theorem value_ofBytes_ne_structure (cause : StructureError) :
    (ofBytes readyTable {} bytes).value ≠ .error (.structure cause) := by
  intro refused
  cases decoded : Text.decodeUtf8 bytes with
  | error place =>
      rw [value_ofBytes_of_decodeUtf8_error decoded] at refused
      cases refused
  | ok characters =>
      rw [ofBytes_of_decodeUtf8 decoded] at refused
      cases Refusal.of_value_ofText refused

theorem value_ofBytes (prepared : Reported Table) (ready : prepared.value = table) :
    (ofBytes prepared options bytes).value =
      match (tokenizeBytes bytes).value with
      | .error cause => .error (.lex cause)
      | .ok tokens =>
        match (table.parse options.trailing tokens).value with
        | .error cause => .error (.parse cause)
        | .ok tree =>
          match (Piece.ofTree tree).value with
          | .error cause => .error (.structure cause)
          | .ok pieces => .ok ⟨pieces, options⟩ := by
  rw [ofBytes, Attempt.value_bind, Attempt.value_adapt]
  cases (tokenizeBytes bytes).value with
  | error cause => rfl
  | ok tokens =>
      dsimp only [Attempt.mapError_ok]
      rw [ofTokens, Attempt.value_report, Attempt.value_bind, Attempt.value_lift, ready]
      dsimp only
      rw [Attempt.value_bind, Attempt.value_adapt]
      cases (table.parse options.trailing tokens).value with
      | error cause => rfl
      | ok tree =>
          dsimp only [Attempt.mapError_ok]
          rw [Attempt.value_report, Attempt.value_bind, Attempt.value_adapt]
          cases (Piece.ofTree tree).value <;> rfl

theorem value_render_ofMap (template : Template) (entries : List (String × String)) :
    (template.render (.ofMap entries)).value =
      (template.filled fun name => entries.lookup name).text.mapError .write :=
  value_render template fun _ _ => rfl

end Template

namespace Command

variable {files : Files} {path : String}

/-! ## What is under a file name -/

/-- A template is under a file name. Its pieces do not depend on the options, so it is read with the
usual ones. -/
def HoldsTemplate (files : Files) (path : String) (template : Template) : Prop :=
  ∃ bytes, files path = .contents bytes ∧
    (Template.ofBytes Template.readyTable {} bytes).value = .ok template

/-- Why there is no template under a file name. -/
inductive TemplateFault (files : Files) (path : String) : Failure → Prop
  | absent (absent : files path = .absent) : TemplateFault files path (.notFound path)
  | unreadable {reason : String} (unreadable : files path = .unreadable reason) :
      TemplateFault files path (.unreadable path reason)
  | refused {bytes : ByteArray} {error : TemplateError} (found : files path = .contents bytes)
      (refused : (Template.ofBytes Template.readyTable {} bytes).value = .error error) :
      TemplateFault files path (.template error)

theorem holdsTemplate_or_templateFault (files : Files) (path : String) :
    (∃ template, HoldsTemplate files path template) ∨
      ∃ failure, TemplateFault files path failure := by
  cases found : files path with
  | absent => exact .inr ⟨_, .absent found⟩
  | unreadable reason => exact .inr ⟨_, .unreadable found⟩
  | contents bytes =>
      cases read : (Template.ofBytes Template.readyTable {} bytes).value with
      | ok template => exact .inl ⟨template, bytes, found, read⟩
      | error error => exact .inr ⟨_, .refused found read⟩

theorem value_readFile_bind {α : Type} (next : ByteArray → Attempt Failure α) :
    (MonadExcept.ofExcept (readFile files path) >>= next : Attempt Failure α).value =
      match files path with
      | .absent => .error (.notFound path)
      | .unreadable reason => .error (.unreadable path reason)
      | .contents bytes => (next bytes).value := by
  rw [Attempt.value_bind, Attempt.value_ofExcept, readFile]
  cases files path <;> rfl

theorem HoldsTemplate.value_readTemplate {template : Template}
    (holds : HoldsTemplate files path template) (options : Template.Options) :
    (readTemplate files path options).value = .ok { template with options } := by
  rcases holds with ⟨bytes, found, read⟩
  rw [readTemplate, value_readFile_bind, found]
  exact Attempt.adapt_eq_ok_iff.mpr (Template.value_ofBytes_eq_ok read _ options)

theorem TemplateFault.value_readTemplate {failure : Failure}
    (fault : TemplateFault files path failure) (options : Template.Options) :
    (readTemplate files path options).value = .error failure := by
  rw [readTemplate, value_readFile_bind]
  cases fault with
  | absent absent => rw [absent]
  | unreadable unreadable => rw [unreadable]
  | refused found refused =>
      rw [found]
      dsimp only
      rw [Attempt.value_adapt]
      exact congrArg (Except.mapError Failure.template)
        (Template.value_ofBytes_eq_error refused _ options)

theorem value_readTree {bytes : ByteArray} (found : files path = .contents bytes)
    (trailing : TrailingPolicy) :
    (readTree files path trailing).value =
      match (Source.tokenizeBytes bytes).value with
      | .error cause => .error (.template (.lex cause))
      | .ok tokens =>
        match (Template.table.parse trailing tokens).value with
        | .error cause => .error (.template (.parse cause))
        | .ok tree => .ok tree := by
  rw [readTree, value_readFile_bind, found]
  dsimp only
  rw [Attempt.value_bind, Attempt.value_adapt]
  cases (Source.tokenizeBytes bytes).value with
  | error cause => rfl
  | ok tokens =>
      dsimp only [Attempt.mapError_ok]
      rw [Attempt.value_bind, Attempt.value_lift]
      change ((Template.table.parse trailing tokens).adapt _ : Attempt Failure Token).value = _
      rw [Attempt.value_adapt]
      cases (Template.table.parse trailing tokens).value <;> rfl

theorem HoldsTemplate.exists_value_readTree {template : Template}
    (holds : HoldsTemplate files path template) (trailing : TrailingPolicy) :
    ∃ tree, (readTree files path trailing).value = .ok tree := by
  rcases holds with ⟨bytes, found, read⟩
  have read := Template.value_ofBytes_eq_ok read [] { trailing }
  rw [Template.value_ofBytes _ rfl] at read
  rw [value_readTree found]
  cases cut : (Source.tokenizeBytes bytes).value with
  | error cause =>
      rw [cut] at read
      cases read
  | ok tokens =>
      rw [cut] at read
      dsimp only at read ⊢
      cases parsed : (Template.table.parse trailing tokens).value with
      | error cause =>
          rw [parsed] at read
          cases read
      | ok tree => exact ⟨_, rfl⟩

theorem TemplateFault.value_readTree {failure : Failure} (fault : TemplateFault files path failure)
    (trailing : TrailingPolicy) : (readTree files path trailing).value = .error failure := by
  cases fault with
  | absent absent => rw [readTree, value_readFile_bind, absent]
  | unreadable unreadable => rw [readTree, value_readFile_bind, unreadable]
  | @refused bytes error found refused =>
      have lowered (cause : StructureError) : error ≠ .structure cause := by
        rintro rfl
        exact Template.value_ofBytes_ne_structure cause refused
      have refused := Template.value_ofBytes_eq_error refused [] { trailing }
      rw [Template.value_ofBytes _ rfl] at refused
      rw [Command.value_readTree found]
      cases cut : (Source.tokenizeBytes bytes).value with
      | error cause =>
          rw [cut] at refused
          cases refused
          rfl
      | ok tokens =>
          rw [cut] at refused
          dsimp only at refused ⊢
          cases parsed : (Template.table.parse trailing tokens).value with
          | error cause =>
              rw [parsed] at refused
              cases refused
              rfl
          | ok tree =>
              rw [parsed] at refused
              dsimp only at refused
              split at refused
              · cases refused
                exact absurd rfl (lowered _)
              · cases refused

/-! ## What is told without being asked for -/

variable {σ Value : Type} {json : JsonLibrary Value} {sink : Sink σ}

theorem quiet_readTemplate (files : Files) (path : String) (options : Template.Options) :
    Quiet (readTemplate files path options) := by
  apply Quiet.attempt_bind (Quiet.ofExcept _)
  intro bytes _
  exact (Template.quiet_ofBytes options bytes).adapt _

theorem quiet_readTree (files : Files) (path : String) (trailing : TrailingPolicy) :
    Quiet (readTree files path trailing) := by
  apply Quiet.attempt_bind (Quiet.ofExcept _)
  intro bytes _
  apply Quiet.attempt_bind ((Template.quiet_tokenizeBytes bytes).adapt _)
  intro tokens cut
  have cut := Attempt.adapt_eq_ok_iff.mp cut
  apply Quiet.attempt_bind (Quiet.lift Template.quiet_freshTable)
  intro made same
  obtain rfl : Template.table = made := Except.ok.inj same
  exact (Template.quiet_parse cut trailing).adapt _

theorem quiet_printLine (sink : Sink σ) (text : String) (state : σ) :
    Quiet ((printLine sink text).run.run state) :=
  List.forall_mem_nil _

theorem quiet_perform (json : JsonLibrary Value) (files : Files) (sink : Sink σ) (state : σ)
    (invocation : Invocation) : Quiet ((invocation.perform json files sink).run.run state) := by
  unfold Invocation.perform
  cases invocation.command with
  | check =>
      refine Quiet.work_bind (Quiet.work_ofAttempt (quiet_readTemplate _ _ _) _) ?_
      intro template _ _
      refine Quiet.work_bind (Quiet.work_lift (Quiet.report rfl) _) ?_
      intro _ _ _
      exact Quiet.pure _
  | tokens =>
      refine Quiet.work_bind (Quiet.work_ofExcept _ _) ?_
      intro bytes _ _
      refine Quiet.work_bind
        (Quiet.work_ofAttempt ((Template.quiet_tokenizeBytes bytes).adapt _) _) ?_
      intro tokens _ _
      refine Quiet.work_bind (List.forall_mem_nil _) ?_
      intro _ _ _
      exact Quiet.pure _
  | tree =>
      dsimp only
      split
      · refine Quiet.work_bind (Quiet.work_ofAttempt (quiet_readTemplate _ _ _) _) ?_
        intro template _ _
        refine Quiet.work_bind (quiet_printLine _ _ _) ?_
        intro _ _ _
        exact Quiet.pure _
      · refine Quiet.work_bind (Quiet.work_ofAttempt (quiet_readTree _ _ _) _) ?_
        intro tree _ _
        refine Quiet.work_bind (quiet_printLine _ _ _) ?_
        intro _ _ _
        exact Quiet.pure _
  | render =>
      refine Quiet.work_bind (Quiet.work_ofAttempt (quiet_readTemplate _ _ _) _) ?_
      intro template _ _
      refine Quiet.work_bind (Quiet.work_ofExcept _ _) ?_
      intro values _ _
      refine Quiet.work_bind (List.forall_mem_nil _) ?_
      intro before _ _
      refine Quiet.work_bind (Quiet.work_lift (Template.quiet_execute template sink before _) _) ?_
      intro execution _ _
      refine Quiet.work_bind (List.forall_mem_nil _) ?_
      intro _ _ _
      refine Quiet.work_bind (Quiet.work_ofExcept _ _) ?_
      intro _ _ _
      exact Quiet.pure _

theorem exists_run (json : JsonLibrary Value) (files : Files) (sink : Sink σ) (state : σ)
    (invocation : Invocation) :
    ∃ shown, (invocation.verbosity = 0 → shown = "") ∧
      invocation.run json files sink state =
        match ((invocation.perform json files sink).run.run state).value with
        | (.ok remark, after) => ⟨0, after, shown ++ remark⟩
        | (.error failure, after) => ⟨failure.code, after, shown ++ failure.message⟩ := by
  have quiet := quiet_perform json files sink state invocation
  rw [Invocation.run]
  generalize (invocation.perform json files sink).run.run state = performed at quiet ⊢
  rcases performed with ⟨⟨outcome, after⟩, events⟩
  refine ⟨String.join ((Event.shownAt events (threshold invocation.verbosity)).map reportLine),
    ?_, by cases outcome <;> rfl⟩
  intro unasked
  have none : Event.shownAt events .warn = [] :=
    List.filter_eq_nil_iff.mpr fun event member => ne_true_of_eq_false (quiet event member)
  rw [unasked, threshold, none]
  rfl

/-! ## Results -/

theorem value_put (sink : Sink σ) (texts : List String) (state : σ) :
    ((put sink texts).run.run state).value =
      let (outcome, after) := sink.writePortions state 0 texts
      (outcome.map fun _ => (), after) :=
  rfl

theorem value_printLine {content : σ → List UInt8} (takesAll : sink.TakesAll content)
    (text : String) (state : σ) :
    ∃ after, ((printLine sink text).run.run state).value = (.ok (), after) := by
  rcases takesAll.writePortions state 0 [text, "\n"] with ⟨total, after, writes, _⟩
  refine ⟨after, ?_⟩
  rw [printLine, Work.value_adapt, value_put, writes]
  rfl

theorem value_render (json : JsonLibrary Value) (files : Files) (sink : Sink σ)
    (invocation : Invocation) (options : Template.Options) (state : σ) :
    ((render json files sink invocation options).run.run state).value =
      match (readTemplate files invocation.path options).value with
      | .error failure => (.error failure, state)
      | .ok template =>
        match readValues json files invocation with
        | .error failure => (.error failure, state)
        | .ok values =>
          match (template.execute sink state (.ofMap values.entries)).value with
          | ⟨_, after, .error error⟩ => (.error (.template error), after)
          | ⟨_, after, .ok ()⟩ => (.ok "", after) := by
  rw [render]
  simp only [Work.value_bind, Work.value_ofAttempt, Work.value_ofExcept, Work.value_get,
    Work.value_lift, Work.value_set, Work.value_pure]
  cases (readTemplate files invocation.path options).value with
  | error failure => rfl
  | ok template =>
      dsimp only
      cases readValues json files invocation with
      | error failure => rfl
      | ok values =>
          dsimp only
          rcases (template.execute sink state (.ofMap values.entries)).value with
            ⟨_, after, _ | _⟩ <;> rfl

theorem TemplateFault.code_eq_one {failure : Failure} (fault : TemplateFault files path failure) :
    failure.code = 1 := by
  cases fault <;> rfl

theorem TemplateFault.value_perform {invocation : Invocation} {failure : Failure}
    (fault : TemplateFault files invocation.path failure) (reads : invocation.command ≠ .tokens)
    (state : σ) :
    ((invocation.perform json files sink).run.run state).value = (.error failure, state) := by
  unfold Invocation.perform
  cases command : invocation.command with
  | check =>
      dsimp only
      rw [check, Work.value_bind, Work.value_ofAttempt, fault.value_readTemplate]
  | tokens => exact absurd command reads
  | tree =>
      dsimp only
      split
      · rw [pieces, Work.value_bind, Work.value_ofAttempt, fault.value_readTemplate]
      · rw [tree, Work.value_bind, Work.value_ofAttempt, fault.value_readTree]
  | render =>
      dsimp only
      rw [value_render, fault.value_readTemplate]

/-- An invocation that reads a template file and nothing else, minds no placeholder without a value,
and tells nothing about what it does. -/
structure Invocation.OnlyReads (invocation : Invocation) : Prop where
  command : invocation.command ≠ .tokens
  data : invocation.data = none
  strict : invocation.strict = false
  verbosity : invocation.verbosity = 0

theorem HoldsTemplate.exists_value_perform {invocation : Invocation} {template : Template}
    (holds : HoldsTemplate files invocation.path template) (reads : invocation.OnlyReads)
    (json : JsonLibrary Value) {content : σ → List UInt8} (takesAll : sink.TakesAll content)
    (state : σ) :
    ∃ remark after, ((invocation.perform json files sink).run.run state).value =
      (.ok remark, after) := by
  unfold Invocation.perform
  cases command : invocation.command with
  | check =>
      dsimp only
      rw [check, Work.value_bind, Work.value_ofAttempt, holds.value_readTemplate]
      exact ⟨_, _, rfl⟩
  | tokens => exact absurd command reads.command
  | tree =>
      dsimp only
      split
      · rcases value_printLine takesAll (outline template.tree) state with ⟨after, printed⟩
        refine ⟨"", after, ?_⟩
        rw [pieces, Work.value_bind, Work.value_ofAttempt, holds.value_readTemplate]
        change ((printLine sink (outline template.tree) >>= fun _ => _).run.run state).value = _
        rw [Work.value_bind, printed]
        rfl
      · rcases holds.exists_value_readTree invocation.templateOptions.trailing with
          ⟨parsed, readTree⟩
        rcases value_printLine takesAll (outline parsed) state with ⟨after, printed⟩
        refine ⟨"", after, ?_⟩
        rw [tree, Work.value_bind, Work.value_ofAttempt, readTree]
        dsimp only
        rw [Work.value_bind, printed]
        rfl
  | render =>
      dsimp only
      have kept : invocation.templateOptions.unresolved = .keep := by
        rw [Invocation.templateOptions, reads.strict]
        exact if_neg fun refused => Bool.false_ne_true refused.2
      have values : readValues json files invocation =
          .ok (NameMap.empty.insertAll invocation.assignments) := by
        rw [readValues, reads.data]
        rfl
      rw [value_render, holds.value_readTemplate, values]
      dsimp only
      generalize NameMap.entries _ = entries
      have rendered := Template.execute_of_takesAll takesAll state
        { template with options := invocation.templateOptions } (.ofMap entries)
      rw [Template.value_render_ofMap, Template.text_of_checkResolved
        (Template.checkResolved_of_keep kept)] at rendered
      generalize (Template.execute _ sink state _).value = execution at rendered ⊢
      rcases execution with ⟨_, after, outcome⟩
      obtain rfl : outcome = .ok () := rendered.1
      exact ⟨_, _, rfl⟩

theorem HoldsTemplate.run_of_onlyReads {invocation : Invocation} {template : Template}
    (holds : HoldsTemplate files invocation.path template) (reads : invocation.OnlyReads)
    (json : JsonLibrary Value) {content : σ → List UInt8} (takesAll : sink.TakesAll content)
    (state : σ) : (invocation.run json files sink state).code = 0 := by
  rcases exists_run json files sink state invocation with ⟨shown, _, run⟩
  rcases holds.exists_value_perform reads json takesAll state with ⟨remark, after, done⟩
  rw [run, done]

theorem TemplateFault.run_of_onlyReads {invocation : Invocation} {failure : Failure}
    (fault : TemplateFault files invocation.path failure) (reads : invocation.OnlyReads)
    (json : JsonLibrary Value) (sink : Sink σ) (state : σ) :
    invocation.run json files sink state = ⟨1, state, failure.message⟩ := by
  rcases exists_run json files sink state invocation with ⟨shown, unasked, run⟩
  rw [run, fault.value_perform reads.command, unasked reads.verbosity]
  dsimp only
  rw [fault.code_eq_one, String.empty_append]

def readings (path : String) : List (List String) :=
  [["check", path], ["tree", path], ["tree", "--ast", path], ["render", path]]

def Invocation.ofFlags (command : Name) (path : String) (flags : List Flag) : Invocation where
  verbosity := (decide (.verbose ∈ flags)).toNat
  strictTrailing := .strictTrailing ∈ flags
  ast := .ast ∈ flags
  strict := .strict ∈ flags
  command := command
  path := path

theorem Invocation.raised_ofFlags (command : Name) (path : String) (flags : List Flag)
    (flag : Flag) :
    (ofFlags command path flags).raised flag = (decide (flag ∈ flags)).toNat := by
  cases flag <;> rfl

def fileBetween (path : String) (behind last : List Flag) : List Part :=
  behind.map .switch ++ .file path :: last.map .switch

theorem mem_fileBetween {path : String} {behind last : List Flag} {part : Part} :
    part ∈ fileBetween path behind last ↔
      part = .file path ∨ ∃ flag ∈ behind ++ last, part = .switch flag := by
  simp only [fileBetween, List.mem_append, List.mem_cons, List.mem_map]
  grind

theorem filterMap_fileBetween {α : Type} (select : Part → Option α) (path : String)
    {front behind last : List Flag} (flagless : ∀ flag, select (.switch flag) = none) :
    (front.map Part.switch ++ fileBetween path behind last).filterMap select =
      (select (.file path)).toList := by
  have flags (flags : List Flag) : (flags.map Part.switch).filterMap select = [] := by
    rw [List.filterMap_map, List.filterMap_eq_nil_iff]
    exact fun flag _ => flagless flag
  rw [fileBetween, List.filterMap_append, List.filterMap_append, List.filterMap_cons, flags, flags,
    flags]
  cases select (.file path) <;> rfl

theorem ArgumentReader.Documented.read_flags {reader : ArgumentReader}
    (documented : reader.Documented) {path : String} (plain : Plain path) {command : Name}
    {front behind last : List Flag} (distinct : (front ++ behind ++ last).Nodup)
    (general : ∀ flag ∈ front, flag ∈ generalFlags)
    (known : ∀ flag ∈ behind ++ last, flag ∈ command.flags) :
    reader.read readAssignment (line front command (fileBetween path behind last)) =
      .ok (.ofFlags command path (front ++ behind ++ last)) := by
  have injective : Function.Injective Part.switch := fun _ _ same => Part.switch.inj same
  have count (flag : Flag) :
      (front.map Part.switch ++ fileBetween path behind last).count (.switch flag) =
        (decide (flag ∈ front ++ behind ++ last)).toNat := by
    have raised := distinct.count (a := flag)
    rw [List.count_append, List.count_append] at raised
    have other : (Part.file path) ≠ .switch flag := nofun
    rw [fileBetween, List.count_append, List.count_append, List.count_cons_of_ne other,
      List.count_map_of_injective _ _ injective, List.count_map_of_injective _ _ injective,
      List.count_map_of_injective _ _ injective, ← Nat.add_assoc, raised]
    by_cases member : flag ∈ front ++ behind ++ last
    · rw [if_pos member, decide_eq_true member]
      rfl
    · rw [if_neg member, decide_eq_false member]
      rfl
  refine (documented.read_line _ _ _ _ _ ?_ ?_ ?_).mpr ⟨rfl, ?_, ?_, ?_, ?_⟩
  · intro flag member
    refine ⟨general flag member, ?_⟩
    intro again
    rw [List.append_assoc] at distinct
    rcases mem_fileBetween.mp again with same | ⟨other, among, same⟩
    · cases same
    cases same
    exact (List.nodup_append.mp distinct).2.2 flag member flag among rfl
  · intro part member
    rcases mem_fileBetween.mp member with rfl | ⟨flag, among, rfl⟩
    · exact plain
    · exact known flag among
  · rw [count]
    exact lt_of_le_of_lt (Bool.toNat_le _) (by decide)
  · exact filterMap_fileBetween _ path fun _ => rfl
  · exact filterMap_fileBetween _ path fun _ => rfl
  · exact congrArg (List.map _) (filterMap_fileBetween _ path fun _ => rfl)
  · intro flag
    rw [count]
    exact (Invocation.raised_ofFlags command path _ flag).symm

theorem ArgumentReader.Documented.exists_onlyReads {reader : ArgumentReader}
    (documented : reader.Documented) {path : String} (plain : Plain path) :
    ∀ reading ∈ readings path,
      ∀ arguments ∈ [reading, "--strict-trailing" :: reading, reading ++ ["--strict-trailing"]],
        ∃ invocation, reader.read readAssignment arguments = .ok invocation ∧
          invocation.OnlyReads ∧ invocation.path = path := by
  have only (command : Name) (front behind last : List Flag)
      (fits : command ≠ .tokens ∧ (front ++ behind ++ last).Nodup ∧
        (∀ flag ∈ front, flag ∈ generalFlags) ∧ (∀ flag ∈ behind ++ last, flag ∈ command.flags) ∧
        .verbose ∉ front ++ behind ++ last ∧ .strict ∉ front ++ behind ++ last) :
      ∃ invocation, reader.read readAssignment
          (line front command (fileBetween path behind last)) = .ok invocation ∧
        invocation.OnlyReads ∧ invocation.path = path := by
    rcases fits with ⟨reads, distinct, general, known, unasked, lenient⟩
    refine ⟨_, documented.read_flags plain distinct general known, ⟨reads, rfl, ?_, ?_⟩, rfl⟩
    · exact decide_eq_false lenient
    · exact congrArg Bool.toNat (decide_eq_false unasked)
  intro reading member arguments variant
  simp only [readings, List.mem_cons, List.not_mem_nil, or_false] at member
  rcases member with rfl | rfl | rfl | rfl <;>
    simp only [List.mem_cons, List.not_mem_nil, or_false] at variant <;>
    rcases variant with rfl | rfl | rfl
  · exact only .check [] [] [] (by decide)
  · exact only .check [.strictTrailing] [] [] (by decide)
  · exact only .check [] [] [.strictTrailing] (by decide)
  · exact only .tree [] [] [] (by decide)
  · exact only .tree [.strictTrailing] [] [] (by decide)
  · exact only .tree [] [] [.strictTrailing] (by decide)
  · exact only .tree [] [.ast] [] (by decide)
  · exact only .tree [.strictTrailing] [.ast] [] (by decide)
  · exact only .tree [] [.ast] [.strictTrailing] (by decide)
  · exact only .render [] [] [] (by decide)
  · exact only .render [.strictTrailing] [] [] (by decide)
  · exact only .render [] [] [.strictTrailing] (by decide)

/-- All commands that read a template accept the same files, with whatever options. A file that one
of them refuses all of them refuse with the same words, and nothing is written to the output. -/
theorem run_agree {σ Value : Type} (reader : ArgumentReader) (json : JsonLibrary Value)
    (sink : Sink σ) (state : σ) :
    (∀ (files : Files) (left right : List String) (first second : Invocation),
      reader.read readAssignment left = .ok first →
      reader.read readAssignment right = .ok second →
      first.OnlyReads → second.OnlyReads → first.path = second.path →
      (∀ content, sink.TakesAll content →
        ((run reader json files sink state left).code = 0 ↔
          (run reader json files sink state right).code = 0) ∧
        ((run reader json files sink state left).code ≠ 0 →
          ∃ failure, TemplateFault files first.path failure)) ∧
      ∀ failure, TemplateFault files first.path failure →
        run reader json files sink state left = ⟨1, state, failure.message⟩ ∧
        run reader json files sink state right = ⟨1, state, failure.message⟩) ∧
    (reader.Documented → ∀ path, Plain path →
      ∀ reading ∈ readings path,
        ∀ arguments ∈ [reading, "--strict-trailing" :: reading, reading ++ ["--strict-trailing"]],
          ∃ invocation, reader.read readAssignment arguments = .ok invocation ∧
            invocation.OnlyReads ∧ invocation.path = path) := by
  refine ⟨?_, fun documented path plain => documented.exists_onlyReads plain⟩
  intro files left right first second firstAsks secondAsks firstReads secondReads same
  rw [run, run, firstAsks, secondAsks]
  dsimp only
  refine ⟨?_, ?_⟩
  · intro content takesAll
    rcases holdsTemplate_or_templateFault files first.path with ⟨template, holds⟩ | ⟨failure, fault⟩
    · have done := holds.run_of_onlyReads firstReads json takesAll state
      rw [same] at holds
      have also := holds.run_of_onlyReads secondReads json takesAll state
      exact ⟨iff_of_true done also, fun refused => absurd done refused⟩
    · have refused := fault.run_of_onlyReads firstReads json sink state
      refine ⟨?_, fun _ => ⟨failure, fault⟩⟩
      rw [same] at fault
      rw [refused, fault.run_of_onlyReads secondReads json sink state]
  · intro failure fault
    refine ⟨fault.run_of_onlyReads firstReads json sink state, ?_⟩
    rw [same] at fault
    exact fault.run_of_onlyReads secondReads json sink state

theorem run_agree_unfinished :
    let files : Files := fun path =>
      if path = "page" then .contents "\x7b\x7b.".toUTF8 else .absent
    let message := "Lexer error at line 1, column 4: unexpected end of input\n"
    run argumentReader Json.library files .everything [] ["check", "page"] = ⟨1, [], message⟩ ∧
    run argumentReader Json.library files .everything [] ["tree", "page", "--strict-trailing"] =
      ⟨1, [], message⟩ := by
  intro files message
  have documented := argumentReader_documented
  have plain : Plain "page" := by decide
  rcases run_agree argumentReader Json.library .everything [] with ⟨agree, lines⟩
  rcases lines documented "page" plain ["check", "page"] (by simp [readings]) ["check", "page"]
    (by simp) with ⟨first, firstAsks, firstReads, firstPath⟩
  rcases lines documented "page" plain ["tree", "page"] (by simp [readings])
    ["tree", "page", "--strict-trailing"] (by simp) with
    ⟨second, secondAsks, secondReads, secondPath⟩
  rcases agree files _ _ first second firstAsks secondAsks firstReads secondReads
    (firstPath.trans secondPath.symm) with ⟨accept, refuse⟩
  have checked : run argumentReader Json.library files .everything [] ["check", "page"] =
      ⟨1, [], message⟩ := by
    decide +kernel
  rcases (accept _ Sink.everything_takesAll).2 (by rw [checked]; exact Nat.one_ne_zero) with
    ⟨failure, fault⟩
  rcases refuse failure fault with ⟨left, right⟩
  exact ⟨checked, right.trans (left.symm.trans checked)⟩

end Command

end Stencil
