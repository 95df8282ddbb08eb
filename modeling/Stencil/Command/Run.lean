import Stencil.Command.Environment
import Stencil.Command.Invocation
import Stencil.Template.Write

/-!
# Running a command

A command reads files, writes to the output stream, and leaves an exit code and what it told on the
other stream. A failure of a file or of a template leaves code 1. The output stream is a sink, which
may fail as well.
-/

namespace Stencil.Command

inductive Failure where
  | notFound (path : String)
  | unreadable (path reason : String)
  | notAnObject (path : String)
  | template (error : TemplateError)
  /-- A list could not be written to its end. Nothing is told about it. -/
  | closed
  /-- A text could not be printed, which the program does not reckon with. -/
  | unprinted (error : WriteError)

namespace Failure

def message : Failure → String
  | notFound path => "Error: file not found: " ++ path ++ "\n"
  | unreadable path reason => "Error reading " ++ path ++ ": " ++ reason ++ "\n"
  | notAnObject path => "Error: " ++ path ++ " must hold a JSON object\n"
  | template error => error.message ++ "\n"
  | closed => ""
  | unprinted (.sinkFailed reason) => "failed printing to stdout: " ++ reason ++ "\n"
  | unprinted _ => "failed printing to stdout: failed to write whole buffer\n"

def code : Failure → Nat
  | unprinted _ => 101
  | _ => 1

end Failure

/-- What a command leaves: the exit code, the output stream, and what was told on the other one. -/
structure Outcome (σ : Type) where
  code : Nat
  output : σ
  reports : String
deriving DecidableEq

variable {σ Value : Type}

/-! ## Reading files -/

def readFile (files : Files) (path : String) : Except Failure ByteArray :=
  match files path with
  | .absent => .error (.notFound path)
  | .unreadable reason => .error (.unreadable path reason)
  | .contents bytes => .ok bytes

def readTemplate (files : Files) (path : String) (options : Template.Options) :
    Attempt Failure Template := do
  let bytes ← MonadExcept.ofExcept (readFile files path)
  (Template.ofBytes Template.freshTable options bytes).adapt .template

def readTree (files : Files) (path : String) (trailing : TrailingPolicy) :
    Attempt Failure Token := do
  let bytes ← MonadExcept.ofExcept (readFile files path)
  let tokens ← (Source.tokenizeBytes bytes).adapt fun error => .template (.lex error)
  let table ← Template.freshTable
  (table.parse trailing tokens).adapt fun error => .template (.parse error)

/-- The value of a member of the data file: a string as it is, anything else in compact form. -/
def fieldText (json : JsonLibrary Value) (value : Value) : String :=
  match json.shape value with
  | .text content => content
  | _ => json.compact value

def readFields (json : JsonLibrary Value) (files : Files) (path : String) :
    Except Failure (NameMap String) := do
  let bytes ← readFile files path
  let value ← (json.parse bytes).mapError (.unreadable path)
  match json.shape value with
  | .object members => .ok (members.map (fieldText json))
  | _ => .error (.notAnObject path)

/-- The values for rendering. A value set on the command line wins over the data file, and over
values set before it. -/
def readValues (json : JsonLibrary Value) (files : Files) (invocation : Invocation) :
    Except Failure (NameMap String) := do
  let fields ← match invocation.data with
    | none => .ok .empty
    | some path => readFields json files path
  .ok (fields.insertAll invocation.assignments)

/-! ## Commands

A command works on the output stream. What it tells when it succeeds comes last. -/

def put (sink : Sink σ) (texts : List String) : Work σ WriteError Unit :=
  ExceptT.mk fun state =>
    let (outcome, state) := sink.writePortions state 0 texts
    pure (outcome.map fun _ => (), state)

def printLine (sink : Sink σ) (text : String) : Work σ Failure Unit :=
  (put sink [text, "\n"]).adapt .unprinted

def check (files : Files) (path : String) (options : Template.Options) : Work σ Failure String := do
  let template ← Work.ofAttempt (readTemplate files path options)
  report (.listed template.unresolved)
  return "OK: " ++ path ++ "\n"

def tokenLine (token : Token) : String :=
  toString token.span.line ++ ":" ++ toString token.span.column ++ "\t" ++
    token.kind.grammarName ++ "\t" ++ Text.quoteText (token.text?.getD "")

def tokens (files : Files) (sink : Sink σ) (path : String) : Work σ Failure String := do
  let bytes ← MonadExcept.ofExcept (readFile files path)
  let tokens ← Work.ofAttempt
    ((Source.tokenizeBytes bytes).adapt fun error => .template (.lex error))
  (put sink (tokens.flatMap fun token => [tokenLine token, "\n"])).adapt fun _ => .closed
  return ""

def tree (files : Files) (sink : Sink σ) (path : String) (options : Template.Options) :
    Work σ Failure String := do
  let tree ← Work.ofAttempt (readTree files path options.trailing)
  printLine sink (outline tree)
  return ""

def pieces (files : Files) (sink : Sink σ) (path : String) (options : Template.Options) :
    Work σ Failure String := do
  let template ← Work.ofAttempt (readTemplate files path options)
  printLine sink (outline template.tree)
  return ""

/-- Renders a template. The template is read before the data. -/
def render (json : JsonLibrary Value) (files : Files) (sink : Sink σ) (invocation : Invocation)
    (options : Template.Options) : Work σ Failure String := do
  let template ← Work.ofAttempt (readTemplate files invocation.path options)
  let values ← MonadExcept.ofExcept (readValues json files invocation)
  let execution ← template.execute sink (← get) (.ofMap values.entries)
  set execution.state
  MonadExcept.ofExcept (execution.outcome.mapError .template)
  return ""

namespace Invocation

def templateOptions (invocation : Invocation) : Template.Options where
  trailing := if invocation.strictTrailing then .refuse else .warn
  unresolved := if invocation.command = .render ∧ invocation.strict then .refuse else .keep

def perform (json : JsonLibrary Value) (files : Files) (sink : Sink σ) (invocation : Invocation) :
    Work σ Failure String :=
  match invocation.command with
  | .check => check files invocation.path invocation.templateOptions
  | .tokens => tokens files sink invocation.path
  | .tree =>
    if invocation.ast then pieces files sink invocation.path invocation.templateOptions
    else tree files sink invocation.path invocation.templateOptions
  | .render => render json files sink invocation invocation.templateOptions

def paths (invocation : Invocation) : List String :=
  invocation.path :: invocation.data.toList

end Invocation

def threshold (verbosity : Nat) : Level :=
  match verbosity with
  | 0 => .warn
  | 1 => .debug
  | _ => .trace

def reportLine (event : Event) : String :=
  "[" ++ event.level.name ++ "] " ++ event.message.replace "\n" "\n    " ++ "\n"

def Invocation.run (json : JsonLibrary Value) (files : Files) (sink : Sink σ) (state : σ)
    (invocation : Invocation) : Outcome σ :=
  let ⟨(outcome, state), events⟩ := (invocation.perform json files sink).run.run state
  let reports :=
    String.join ((Event.shownAt events (threshold invocation.verbosity)).map reportLine)
  match outcome with
  | .ok remark => ⟨0, state, reports ++ remark⟩
  | .error failure => ⟨failure.code, state, reports ++ failure.message⟩

def run (reader : ArgumentReader) (json : JsonLibrary Value) (files : Files) (sink : Sink σ)
    (state : σ) (arguments : List String) : Outcome σ :=
  match reader.read readAssignment arguments with
  | .error ended => ⟨ended.code, (sink.writePortions state 0 [ended.output]).2, ended.reports⟩
  | .ok invocation => invocation.run json files sink state

end Stencil.Command
