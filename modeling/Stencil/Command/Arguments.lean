import Stencil.Command.Invocation

/-!
# Taking arguments apart

Arguments are taken one after the other. The value of an option is examined at once if it stands
behind an equals sign. If it is an argument of its own it is examined when the next option or file
comes, so an argument that nobody knows is reported first. The texts of help and version are not part
of this.
-/

namespace Stencil.Command

def Name.ofText? : String → Option Name
  | "check" => some .check
  | "tokens" => some .tokens
  | "tree" => some .tree
  | "render" => some .render
  | _ => none

def Flag.shown : Flag → String
  | verbose => "--verbose..."
  | strictTrailing => "--strict-trailing"
  | ast => "--ast"
  | strict => "--strict"

def Setting.shown : Setting → String
  | data => "--data <DATA>"
  | set => "--set <NAME=VALUE>"

def Flag.ofText? (command : Option Name) (name : String) : Option Flag :=
  (command.elim generalFlags Name.flags).find? fun flag => flag.spelling = name

def Setting.ofText? (command : Option Name) (name : String) : Option Setting :=
  (command.elim [] Name.settings).find? fun setting => setting.spelling = name

inductive UsageError where
  | asksHelp
  | asksVersion
  | nothing
  | missingCommand
  | unknownCommand (name : String)
  | unexpectedArgument (argument : String)
  | unexpectedValue (flag : Flag) (value : String)
  | missingValue (setting : Setting)
  | repeatedFlag (flag : Flag)
  | repeatedSetting (setting : Setting)
  | badAssignment (value reason : String)
  | missingFile
deriving DecidableEq

def UsageError.message : UsageError → String
  | asksHelp | asksVersion => ""
  | nothing => "brace: render \x7b\x7b .Name \x7d\x7d placeholder templates"
  | missingCommand => "error: 'brace' requires a subcommand but one was not provided"
  | unknownCommand name => "error: unrecognized subcommand '" ++ name ++ "'"
  | unexpectedArgument argument => "error: unexpected argument '" ++ argument ++ "' found"
  | unexpectedValue flag value =>
    "error: unexpected value '" ++ value ++ "' for '" ++ flag.shown ++
      "' found; no more were expected"
  | missingValue setting =>
    "error: a value is required for '" ++ setting.shown ++ "' but none was supplied"
  | repeatedFlag flag =>
    "error: the argument '" ++ flag.shown ++ "' cannot be used multiple times"
  | repeatedSetting setting =>
    "error: the argument '" ++ setting.shown ++ "' cannot be used multiple times"
  | badAssignment value reason =>
    "error: invalid value '" ++ value ++ "' for '" ++ Setting.set.shown ++ "': " ++ reason
  | missingFile => "error: the following required arguments were not provided:"

def UsageError.ended : UsageError → Ended
  | asksHelp | asksVersion => ⟨0, "", ""⟩
  | error => ⟨2, "", error.message ++ "\n"⟩

structure Collected extends Options where
  path : Option String := none
  /-- The option read last, with its value if that has come, unless it has been examined. -/
  pending : Option (Setting × Option String) := none
deriving DecidableEq

variable (assign : String → Except String (String × String))

namespace Collected

def settle (collected : Collected) : Except UsageError Collected :=
  match collected.pending with
  | none => .ok collected
  | some (setting, none) => .error (.missingValue setting)
  | some (.data, some path) =>
    if collected.data.isSome then .error (.repeatedSetting .data)
    else .ok { collected with data := some path, pending := none }
  | some (.set, some text) =>
    match assign text with
    | .ok assignment =>
      .ok { collected with assignments := collected.assignments ++ [assignment], pending := none }
    | .error reason => .error (.badAssignment text reason)

def raise (collected : Collected) (flag : Flag) : Except UsageError Collected := do
  let collected ← collected.settle assign
  match flag with
  | .verbose => .ok { collected with verbosity := collected.verbosity + 1 }
  | .strictTrailing =>
    if collected.strictTrailing then .error (.repeatedFlag flag)
    else .ok { collected with strictTrailing := true }
  | .ast =>
    if collected.ast then .error (.repeatedFlag flag) else .ok { collected with ast := true }
  | .strict =>
    if collected.strict then .error (.repeatedFlag flag) else .ok { collected with strict := true }

def refuse (collected : Collected) (error : UsageError) : Except UsageError Collected := do
  let _ ← collected.settle assign
  .error error

def long (collected : Collected) (command : Option Name) (name : String) (value : Option String) :
    Except UsageError Collected :=
  match Flag.ofText? command name, Setting.ofText? command name with
  | some flag, _ =>
    match value with
    | none => collected.raise assign flag
    | some value => .error (.unexpectedValue flag value)
  | none, some setting => do
    let collected := { ← collected.settle assign with pending := some (setting, value) }
    if value.isSome then collected.settle assign else .ok collected
  | none, none =>
    if name = "help" ∧ value = none then collected.refuse assign .asksHelp
    else if name = "version" ∧ value = none ∧ command = none then
      collected.refuse assign .asksVersion
    else .error (.unexpectedArgument ("--" ++ name))

def short (collected : Collected) (command : Option Name) : List Char → Except UsageError Collected
  | [] => .ok collected
  | letter :: later => do
    if letter = 'v' then short (← collected.raise assign .verbose) command later
    else if letter = 'h' then collected.refuse assign .asksHelp
    else if letter = 'V' ∧ command = none then collected.refuse assign .asksVersion
    else .error (.unexpectedArgument ("-" ++ String.singleton letter))

def file (collected : Collected) (path : String) : Except UsageError Collected :=
  if collected.path.isSome then .error (.unexpectedArgument path)
  else do
    let collected ← collected.settle assign
    .ok { collected with path := some path }

end Collected

inductive Argument where
  | separator
  | long (name : String) (value : Option String)
  | short (letters : List Char)
  | plain (text : String)

def Argument.ofText (text : String) : Argument :=
  match text.toList with
  | ['-', '-'] => separator
  | '-' :: '-' :: rest =>
    let name := String.ofList (rest.takeWhile (· ≠ '='))
    match rest.dropWhile (· ≠ '=') with
    | [] => long name none
    | _ :: value => long name (some (String.ofList value))
  | '-' :: letter :: letters => short (letter :: letters)
  | _ => plain text

/-- Collects the arguments behind a command. Behind a separator everything is a file. -/
def collect (command : Name) (separated : Bool) (collected : Collected) :
    List String → Except UsageError Collected
  | [] => collected.settle assign
  | argument :: later => do
    if separated then collect command true (← collected.file assign argument) later
    else match Argument.ofText argument with
      | .separator => collect command true collected later
      | .long name value =>
        collect command false (← collected.long assign (some command) name value) later
      | .short letters =>
        collect command false (← collected.short assign (some command) letters) later
      | .plain text =>
        match collected.pending with
        | some (setting, none) =>
          collect command false { collected with pending := some (setting, some text) } later
        | _ => collect command false (← collected.file assign text) later

/-- The invocation that was collected in front of a command and behind it. What was said behind the
command about verbosity counts more than what was said in front of it. -/
def Invocation.ofCollected (command : Name) (general own : Collected) :
    Except UsageError Invocation :=
  match own.path with
  | none => .error .missingFile
  | some path =>
    .ok { own with
          command, path
          verbosity := if own.verbosity = 0 then general.verbosity else own.verbosity
          strictTrailing := general.strictTrailing || own.strictTrailing }

/-- What is wrong when the arguments end without a command. With no option in front of it the program
introduces itself; two dashes are no option. -/
def UsageError.withoutCommand (general : Options) : UsageError :=
  if general = {} then .nothing else .missingCommand

def UsageError.ofSeparated (argument : String) : UsageError :=
  if (Name.ofText? argument).isSome || argument = "help" then .unexpectedArgument argument
  else .unknownCommand argument

def UsageError.ofHelp : List String → UsageError
  | [] => .asksHelp
  | name :: _ =>
    if (Name.ofText? name).isSome || name = "help" then .asksHelp else .unknownCommand name

def Invocation.ofGeneral (general : Collected) : List String → Except UsageError Invocation
  | [] => .error (.withoutCommand general.toOptions)
  | argument :: later =>
    match Argument.ofText argument with
    | .separator =>
      match later with
      | [] => .error (.withoutCommand general.toOptions)
      | separated :: _ => .error (.ofSeparated separated)
    | .long name value => do ofGeneral (← general.long assign none name value) later
    | .short letters => do ofGeneral (← general.short assign none letters) later
    | .plain text =>
      match Name.ofText? text with
      | some command => do ofCollected command general (← collect assign command false {} later)
      | none => .error (if text = "help" then .ofHelp later else .unknownCommand text)

def Invocation.ofArguments (arguments : List String) : Except UsageError Invocation :=
  ofGeneral assign {} arguments

def argumentReader : ArgumentReader where
  read assign arguments := (Invocation.ofArguments assign arguments).mapError UsageError.ended

end Stencil.Command
