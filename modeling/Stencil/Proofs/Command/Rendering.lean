import Stencil.Proofs.Command.Agreement

/-! # Rendering from the command line

Everything that a rendering needs is read and checked before anything is written. What is written is
the template with values from the command line, or else from the data file.
-/

namespace Stencil

theorem NameMap.lookup_insertAll {α : Type} (map : NameMap α) (entries : List (String × α))
    (name : String) :
    (map.insertAll entries).lookup name =
      ((entries.filter fun entry => entry.1 = name).getLast?.map Prod.snd).or (map.lookup name) := by
  induction entries using List.reverseRecOn with
  | nil => rfl
  | append_singleton earlier last induction =>
      have inserted : map.insertAll (earlier ++ [last]) =
          (map.insertAll earlier).insert last.1 last.2 :=
        List.foldl_append
      rw [inserted, lookup_insert, induction, List.filter_append]
      by_cases same : last.1 = name
      · simp [same]
      · simp [same, Ne.symm same]

namespace Template

variable {values : String → Option String}

theorem unresolved_filled_eq_nil_iff (template : Template) :
    (template.filled values).unresolved = [] ↔
      ∀ name ∈ template.unresolved, (values name).isSome = true := by
  rw [unresolved_filled, List.filter_eq_nil_iff]
  simp [Option.isSome_iff_ne_none]

theorem text_filled_eq_ok_iff {template : Template} {text : String} :
    (template.filled values).text = .ok text ↔
      (template.options.unresolved = .refuse →
        ∀ name ∈ template.unresolved, (values name).isSome = true) ∧
      text = String.join ((template.pieces.map (Piece.filled values)).map Piece.written) := by
  rw [text_eq_ok_iff, unresolved_filled_eq_nil_iff]
  rfl

end Template

namespace Work

variable {σ ε α β : Type}

theorem bind_of_value_eq_error {first : Work σ ε α} {state after : σ} {error : ε}
    (failed : (first.run.run state).value = (.error error, after)) (next : α → Work σ ε β) :
    (first >>= next).run.run state = ⟨(.error error, after), (first.run.run state).events⟩ := by
  change (Reported.andThen (first.run.run state) fun result =>
    (ExceptT.bindCont next result.1).run result.2) = _
  rw [Reported.andThen, failed]
  exact congrArg (Reported.mk _) (List.append_nil _)

end Work

namespace Command

variable {σ Value : Type} {json : JsonLibrary Value} {files : Files} {invocation : Invocation}

/-! ## Data -/

/-- A JSON object with these members is under a file name. -/
def HoldsObject (json : JsonLibrary Value) (files : Files) (path : String)
    (members : NameMap Value) : Prop :=
  ∃ bytes value, files path = .contents bytes ∧ json.parse bytes = .ok value ∧
    json.shape value = .object members

/-- The members of the data file. Without a file there are none. -/
def HoldsData (json : JsonLibrary Value) (files : Files) : Option String → NameMap Value → Prop
  | none, members => members = .empty
  | some path, members => HoldsObject json files path members

/-- The value for a name: the one that was set last on the command line, or else the member of that
name in the data. -/
def valueFor (json : JsonLibrary Value) (assignments : List (String × String))
    (members : NameMap Value) (name : String) : Option String :=
  ((assignments.filter fun assignment => assignment.1 = name).getLast?.map Prod.snd).or
    ((members.lookup name).map (fieldText json))

theorem lookup_insertAll_eq_valueFor (json : JsonLibrary Value)
    (assignments : List (String × String)) (members : NameMap Value) :
    ((members.map (fieldText json)).insertAll assignments).lookup =
      valueFor json assignments members := by
  funext name
  rw [NameMap.lookup_insertAll, NameMap.lookup_map]
  rfl

theorem readFile_eq_ok_iff {path : String} {bytes : ByteArray} :
    readFile files path = .ok bytes ↔ files path = .contents bytes := by
  rw [readFile]
  cases files path <;> simp

theorem readFields_eq_ok_iff {path : String} {fields : NameMap String} :
    readFields json files path = .ok fields ↔
      ∃ members, HoldsObject json files path members ∧ fields = members.map (fieldText json) := by
  rw [readFields, Attempt.except_bind_eq_ok_iff]
  constructor
  · rintro ⟨bytes, found, read⟩
    rcases Attempt.except_bind_eq_ok_iff.mp read with ⟨value, parsed, read⟩
    cases parse : json.parse bytes with
    | error reason =>
        rw [parse] at parsed
        cases parsed
    | ok value =>
        rw [parse] at parsed
        cases parsed
        split at read
        · rename_i members shape
          cases read
          exact ⟨members, ⟨bytes, value, readFile_eq_ok_iff.mp found, parse, shape⟩, rfl⟩
        · cases read
  · rintro ⟨members, ⟨bytes, value, found, parse, shape⟩, rfl⟩
    refine ⟨bytes, readFile_eq_ok_iff.mpr found, ?_⟩
    refine Attempt.except_bind_eq_ok_iff.mpr ⟨value, ?_, ?_⟩
    · rw [parse]
      rfl
    · rw [shape]

theorem readValues_eq_ok_iff {values : NameMap String} :
    readValues json files invocation = .ok values ↔
      ∃ members, HoldsData json files invocation.data members ∧
        values = (members.map (fieldText json)).insertAll invocation.assignments := by
  rw [readValues]
  cases invocation.data with
  | none =>
      constructor
      · rintro ⟨⟩
        exact ⟨.empty, rfl, rfl⟩
      · rintro ⟨_, rfl, rfl⟩
        rfl
  | some path =>
      refine Attempt.except_bind_eq_ok_iff.trans ?_
      constructor
      · rintro ⟨fields, read, ⟨⟩⟩
        rcases readFields_eq_ok_iff.mp read with ⟨members, holds, rfl⟩
        exact ⟨members, holds, rfl⟩
      · rintro ⟨members, holds, rfl⟩
        exact ⟨_, readFields_eq_ok_iff.mpr ⟨members, holds, rfl⟩, rfl⟩

theorem code_of_readFile_eq_error {path : String} {failure : Failure}
    (failed : readFile files path = .error failure) : failure.code = 1 := by
  rw [readFile] at failed
  split at failed
  · cases failed
    rfl
  · cases failed
    rfl
  · cases failed

theorem code_of_readFields_eq_error {path : String} {failure : Failure}
    (failed : readFields json files path = .error failure) : failure.code = 1 := by
  rcases Attempt.except_bind_eq_error_iff.mp failed with missing | ⟨bytes, _, failed⟩
  · exact code_of_readFile_eq_error missing
  rcases Attempt.except_bind_eq_error_iff.mp failed with unread | ⟨value, _, failed⟩
  · cases parsed : json.parse bytes with
    | error reason =>
        rw [parsed] at unread
        cases unread
        rfl
    | ok value =>
        rw [parsed] at unread
        cases unread
  · split at failed
    · cases failed
    · cases failed
      rfl

theorem code_of_readValues_eq_error {failure : Failure}
    (failed : readValues json files invocation = .error failure) : failure.code = 1 := by
  rw [readValues] at failed
  split at failed
  · cases failed
  · rcases Attempt.except_bind_eq_error_iff.mp failed with unread | ⟨fields, _, ⟨⟩⟩
    exact code_of_readFields_eq_error unread

/-! ## What is rendered -/

/-- The text that an invocation asks for, if it is to be had: there is a template, there is an object
with data if a file is named for it, and there is a value for every placeholder if that is asked
for. -/
inductive Renders (json : JsonLibrary Value) (files : Files) (invocation : Invocation) :
    String → Prop
  | intro {template : Template} {members : NameMap Value}
      (holds : HoldsTemplate files invocation.path template)
      (data : HoldsData json files invocation.data members)
      (allowed : invocation.strict = true → ∀ name ∈ template.unresolved,
        (valueFor json invocation.assignments members name).isSome = true) :
      Renders json files invocation (String.join ((template.pieces.map
        (Piece.filled (valueFor json invocation.assignments members))).map Piece.written))

theorem perform_render (rendering : invocation.command = .render) {sink : Sink σ} :
    invocation.perform json files sink =
      render json files sink invocation invocation.templateOptions := by
  rcases invocation with ⟨options, command, path⟩
  cases rendering
  rfl

theorem templateOptions_unresolved (rendering : invocation.command = .render) :
    invocation.templateOptions.unresolved = .refuse ↔ invocation.strict = true := by
  rw [Invocation.templateOptions, rendering]
  cases invocation.strict <;> simp

section Outcomes

variable {sink : Sink σ} {content : σ → List UInt8}

theorem HoldsTemplate.value_perform_render {template : Template} {values : NameMap String}
    (holds : HoldsTemplate files invocation.path template)
    (rendering : invocation.command = .render)
    (read : readValues json files invocation = .ok values) (takesAll : sink.TakesAll content)
    (state : σ) :
    match (({ template with options := invocation.templateOptions } : Template).filled
      values.lookup).text with
    | .ok text => ∃ after, ((invocation.perform json files sink).run.run state).value =
        (.ok "", after) ∧ content after = content state ++ text.toUTF8.toList
    | .error error => ((invocation.perform json files sink).run.run state).value =
        (.error (.template (.write error)), state) := by
  have executes := Template.execute_of_takesAll takesAll state
    { template with options := invocation.templateOptions } (.ofMap values.entries)
  rw [Template.value_render_ofMap] at executes
  rw [perform_render rendering, value_render, holds.value_readTemplate, read]
  dsimp only
  change (match (Template.filled _ fun name => values.entries.lookup name).text with
    | .ok text => _
    | .error error => _)
  cases spelled : (Template.filled _ fun name => values.entries.lookup name).text with
  | error error =>
      rw [spelled] at executes
      generalize (Template.execute _ sink state _).value = execution at executes ⊢
      rcases execution with ⟨_, after, outcome⟩
      rcases executes with ⟨rfl, rfl⟩
      rfl
  | ok text =>
      rw [spelled] at executes
      generalize (Template.execute _ sink state _).value = execution at executes ⊢
      rcases execution with ⟨_, after, outcome⟩
      rcases executes with ⟨rfl, arrived⟩
      exact ⟨after, rfl, arrived⟩

theorem run_of_renders (rendering : invocation.command = .render)
    (takesAll : sink.TakesAll content) (state : σ) {text : String}
    (renders : Renders json files invocation text) :
    (invocation.run json files sink state).code = 0 ∧
      content (invocation.run json files sink state).output =
        content state ++ text.toUTF8.toList := by
  rcases exists_run json files sink state invocation with ⟨shown, _, run⟩
  rcases renders with ⟨holds, data, allowed⟩
  have performs := holds.value_perform_render rendering
    (readValues_eq_ok_iff.mpr ⟨_, data, rfl⟩) takesAll state
  rw [lookup_insertAll_eq_valueFor, Template.text_filled_eq_ok_iff.mpr ⟨?_, rfl⟩] at performs
  · rcases performs with ⟨after, done, arrived⟩
    rw [run, done]
    exact ⟨rfl, arrived⟩
  · intro refused
    exact allowed ((templateOptions_unresolved rendering).mp refused)

theorem run_of_not_renders (rendering : invocation.command = .render)
    (takesAll : sink.TakesAll content) (state : σ)
    (refused : ¬∃ text, Renders json files invocation text) :
    (invocation.run json files sink state).code = 1 ∧
      (invocation.run json files sink state).output = state := by
  rcases exists_run json files sink state invocation with ⟨shown, _, run⟩
  rw [run]
  rcases holdsTemplate_or_templateFault files invocation.path with
    ⟨template, holds⟩ | ⟨failure, fault⟩
  · cases read : readValues json files invocation with
    | error failure =>
        rw [perform_render rendering, value_render, holds.value_readTemplate, read]
        exact ⟨code_of_readValues_eq_error read, rfl⟩
    | ok values =>
        have performs := holds.value_perform_render rendering read takesAll state
        rcases readValues_eq_ok_iff.mp read with ⟨members, data, rfl⟩
        rw [lookup_insertAll_eq_valueFor] at performs
        split at performs
        · rename_i text spelled
          rcases Template.text_filled_eq_ok_iff.mp spelled with ⟨allowed, rfl⟩
          refine absurd ⟨_, .intro holds data ?_⟩ refused
          intro strict
          exact allowed ((templateOptions_unresolved rendering).mpr strict)
        · rw [performs]
          exact ⟨rfl, rfl⟩
  · have reads : invocation.command ≠ .tokens := by
      rw [rendering]
      exact nofun
    rw [fault.value_perform reads]
    exact ⟨fault.code_eq_one, rfl⟩

theorem TemplateFault.run_perform_congr {others : Files} {failure : Failure}
    (fault : TemplateFault files invocation.path failure)
    (rendering : invocation.command = .render)
    (same : others invocation.path = files invocation.path) (state : σ) :
    (invocation.perform json others sink).run.run state =
      (invocation.perform json files sink).run.run state := by
  have read : readTemplate others invocation.path invocation.templateOptions =
      readTemplate files invocation.path invocation.templateOptions := by
    rw [readTemplate, readTemplate, readFile, readFile, same]
  have failed : ((Work.ofAttempt (readTemplate files invocation.path
      invocation.templateOptions)).run.run state).value = (.error failure, state) := by
    rw [Work.value_ofAttempt, fault.value_readTemplate]
  rw [perform_render rendering, perform_render rendering, render, render, read,
    Work.bind_of_value_eq_error failed, Work.bind_of_value_eq_error failed]

theorem TemplateFault.reports_run {failure : Failure}
    (fault : TemplateFault files invocation.path failure)
    (rendering : invocation.command = .render) (state : σ) :
    (∃ shown, (invocation.run json files sink state).reports = shown ++ failure.message ∧
      (invocation.verbosity = 0 → shown = "")) ∧
    ∀ others : Files, others invocation.path = files invocation.path →
      invocation.run json others sink state = invocation.run json files sink state := by
  have reads : invocation.command ≠ .tokens := by
    rw [rendering]
    exact nofun
  constructor
  · rcases exists_run json files sink state invocation with ⟨shown, unasked, run⟩
    rw [run, fault.value_perform reads]
    exact ⟨shown, rfl, unasked⟩
  · intro others same
    rw [Invocation.run, Invocation.run, fault.run_perform_congr rendering same]

end Outcomes

/-- Rendering is all or nothing. It succeeds if there is a template, data if a file is named for it,
and a value for every placeholder if that is asked for. Then all of the text is added to the output,
and otherwise nothing. A file that holds no template is reported before any other is looked at. -/
structure AllOrNothing (json : JsonLibrary Value) (files : Files) (sink : Sink σ)
    (content : σ → List UInt8) (state : σ) (invocation : Invocation) (outcome : Outcome σ) :
    Prop where
  code_of_written : content outcome.output ≠ content state → outcome.code = 0
  code_eq_zero_iff : outcome.code = 0 ↔ ∃ text, Renders json files invocation text
  written : ∀ text, Renders json files invocation text →
    content outcome.output = content state ++ text.toUTF8.toList
  refused : (¬∃ text, Renders json files invocation text) →
    outcome.code = 1 ∧ outcome.output = state
  template_first : (∀ template, ¬HoldsTemplate files invocation.path template) →
    ∃ failure, TemplateFault files invocation.path failure ∧
      (∃ shown, outcome.reports = shown ++ failure.message ∧
        (invocation.verbosity = 0 → shown = "")) ∧
      ∀ others : Files, others invocation.path = files invocation.path →
        invocation.run json others sink state = outcome

theorem allOrNothing_run (rendering : invocation.command = .render) {sink : Sink σ}
    {content : σ → List UInt8} (takesAll : sink.TakesAll content) (state : σ) :
    AllOrNothing json files sink content state invocation
      (invocation.run json files sink state) := by
  have done (text : String) (renders : Renders json files invocation text) :=
    run_of_renders rendering takesAll state renders
  have refused (absent : ¬∃ text, Renders json files invocation text) :=
    run_of_not_renders rendering takesAll state absent
  refine ⟨?_, ⟨?_, ?_⟩, fun text renders => (done text renders).2, refused, ?_⟩
  · intro written
    by_contra failed
    have absent : ¬∃ text, Renders json files invocation text :=
      fun ⟨text, renders⟩ => failed (done text renders).1
    exact written (congrArg content (refused absent).2)
  · intro zero
    by_contra absent
    rw [(refused absent).1] at zero
    cases zero
  · rintro ⟨text, renders⟩
    exact (done text renders).1
  · intro absent
    rcases holdsTemplate_or_templateFault files invocation.path with
      ⟨template, holds⟩ | ⟨failure, fault⟩
    · exact absurd holds (absent template)
    · exact ⟨failure, fault, fault.reports_run rendering state⟩

/-- Rendering from the command line succeeds or leaves the output alone, whatever the arguments are
that ask for it. If arguments are read as documented, they may come in any order, in which only that
of assignments matters. An assignment is split at its first equals sign. -/
theorem run_render {σ Value : Type} (json : JsonLibrary Value) (files : Files) {sink : Sink σ}
    {content : σ → List UInt8} (takesAll : sink.TakesAll content) (state : σ) :
    (∀ (reader : ArgumentReader) (arguments : List String) (invocation : Invocation),
      reader.read readAssignment arguments = .ok invocation → invocation.command = .render →
      AllOrNothing json files sink content state invocation
        (run reader json files sink state arguments)) ∧
    (∀ (reader : ArgumentReader) (front : List Flag) (parts : List Part) (invocation : Invocation),
      reader.Documented →
      (∀ flag ∈ front, flag ∈ generalFlags ∧ .switch flag ∉ parts) →
      (∀ part ∈ parts, part.Suits .render) →
      (front.map Part.switch ++ parts).count (.switch .verbose) < 256 →
      Asks readAssignment .render (front.map Part.switch ++ parts) invocation →
      AllOrNothing json files sink content state invocation
        (run reader json files sink state (line front .render parts))) ∧
    ∀ text name value, readAssignment text = .ok (name, value) ↔
      name ≠ "" ∧ '=' ∉ name.toList ∧ text = name ++ "=" ++ value := by
  have read (reader : ArgumentReader) (arguments : List String) (invocation : Invocation)
      (asks : reader.read readAssignment arguments = .ok invocation)
      (rendering : invocation.command = .render) :
      AllOrNothing json files sink content state invocation
        (run reader json files sink state arguments) := by
    rw [run, asks]
    exact allOrNothing_run rendering takesAll state
  refine ⟨read, ?_, fun text name value => readAssignment_eq_ok_iff⟩
  intro reader front parts invocation documented general suit count asks
  exact read reader _ invocation
    ((documented.read_line _ _ _ _ _ general suit count).mpr asks) asks.command

theorem run_render_page :
    let files : Files := fun path =>
      if path = "page" then .contents "\x7b\x7b.A\x7d\x7d, \x7b\x7b .B \x7d\x7d".toUTF8
      else if path = "data" then .contents "\x7b\x22B\x22: [null, \x22b\x22]\x7d".toUTF8
      else .absent
    let parts : List Part := [.option false .set "A=1", .file "page", .option true .set "A=x=y",
      .option false .data "data", .switch .strict]
    let text := "x=y, [null,\x22b\x22]"
    let outcome := run argumentReader Json.library files .everything []
      (line [] .render parts)
    outcome.code = 0 ∧ outcome.output.reverse.flatten = text.toUTF8.toList := by
  intro files parts text outcome
  let invocation : Invocation :=
    { command := .render, path := "page", data := some "data", strict := true
      assignments := [("A", "1"), ("A", "x=y")] }
  have suit : ∀ part ∈ parts, part.Suits .render := by
    have plain : Plain "A=1" ∧ Plain "page" ∧ Plain "data" := by decide
    simp [parts, Part.Suits, plain, Name.settings, Name.flags]
  have asks : Asks readAssignment .render parts invocation := by
    refine ⟨rfl, rfl, rfl, ?_, ?_⟩
    · decide +kernel
    · intro flag
      cases flag <;> rfl
  let template : Template :=
    ⟨[.placeholder "A" "\x7b\x7b.A\x7d\x7d", .text ",", .text " ",
      .placeholder "B" "\x7b\x7b .B \x7d\x7d"], {}⟩
  have holds : HoldsTemplate files "page" template := ⟨_, rfl, by decide +kernel⟩
  have listed : (readFields Json.library files "data").toOption.map NameMap.entries =
      some [("B", "[null,\x22b\x22]")] := by
    decide +kernel
  rcases Option.map_eq_some_iff.mp listed with ⟨fields, read, entries⟩
  have read : readFields Json.library files "data" = .ok fields := by
    cases tried : readFields Json.library files "data" with
    | error failure =>
        rw [tried] at read
        cases read
    | ok value =>
        rw [tried] at read
        exact congrArg Except.ok (Option.some.inj read)
  rcases readFields_eq_ok_iff.mp read with ⟨members, data, rfl⟩
  have first : valueFor Json.library invocation.assignments members "A" = some "x=y" := rfl
  have second : valueFor Json.library invocation.assignments members "B" =
      some "[null,\x22b\x22]" := by
    change (members.lookup "B").map (fieldText Json.library) = _
    rw [← NameMap.lookup_map, NameMap.lookup, entries]
    rfl
  have allowed : invocation.strict = true → ∀ name ∈ template.unresolved,
      (valueFor Json.library invocation.assignments members name).isSome = true := by
    simp [template, Template.unresolved, Piece.name?, first, second]
  have same : String.join ((template.pieces.map
      (Piece.filled (valueFor Json.library invocation.assignments members))).map Piece.written) =
      text := by
    simp only [template, List.map_cons, List.map_nil, Piece.filled, first, second]
    rfl
  have renders : Renders Json.library files invocation _ := .intro holds data allowed
  rw [same] at renders
  rcases run_render Json.library files Sink.everything_takesAll [] with ⟨_, lines, _⟩
  have rendered := lines argumentReader [] parts invocation argumentReader_documented
    (List.forall_mem_nil _) suit
    (by decide) asks
  refine ⟨rendered.code_eq_zero_iff.mpr ⟨text, renders⟩, ?_⟩
  have written := rendered.written text renders
  exact written

end Command

end Stencil
