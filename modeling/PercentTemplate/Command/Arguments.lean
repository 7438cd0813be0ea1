import PercentTemplate.Text.Quoted

/-!
# Command-line arguments

An argument list names a command, its template and its options. Options may stand before and after
the template; their value is the next argument or follows an equals sign. Two dashes end the
options, and a single dash is no option. Of an option given several times the last counts, but all
assignments do.

## Main definitions

- `Command` — what the program can do
- `Invocation` — a command with its template and options
- `Invocation.parse` — the invocation that an argument list makes
-/

namespace PercentTemplate

/-- What the program can do. -/
inductive Command
  | render
  /-- Print the lengths of that text and of the values in it. -/
  | measure
  | keys
  | check
  deriving DecidableEq, Repr, Inhabited

namespace Command

def name : Command → String
  | render => "render"
  | measure => "measure"
  | keys => "keys"
  | check => "check"

def ofName? (s : String) : Option Command :=
  [render, measure, keys, check].find? fun c => c.name == s

/-- Whether a command has an option, and if so whether the option takes a value. -/
def option? (c : Command) (name : String) : Option Bool :=
  match c with
  | keys => if name == "--unique" then some false else if name == "--out" then some true else none
  | render | measure | check =>
    if ["--values", "--set", "--out"].contains name then some true else none

end Command

/-- A command with its template and options. -/
structure Invocation where
  logLevel : Option String
  command : Command
  /-- The path of the template; a single dash means the standard input. -/
  template : String
  values : Option String
  assignments : List String
  unique : Bool
  out : Option String
  deriving DecidableEq, Repr

namespace Invocation

/-- Why an argument list makes no invocation. -/
inductive Fault
  /-- A command, an option or an argument is missing or unknown. -/
  | usage
  | needsValue (option : String)
  | takesNoValue (option : String)
  deriving DecidableEq, Repr

/-- The wording of a fault that is not one of usage as a whole. -/
def Fault.message : Fault → String
  | usage => ""
  | needsValue o => "Error: Option " ++ Text.quoted o ++ " requires an argument."
  | takesNoValue o => "Error: Option " ++ Text.quoted o ++ " does not take a value."

/-- The name of an option and the value after an equals sign, if there is one. -/
def splitOption (arg : String) : String × Option String :=
  let name := arg.toList.takeWhile (· != '=')
  match arg.toList.dropWhile (· != '=') with
  | _ :: value => (String.ofList name, some (String.ofList value))
  | [] => (arg, none)

/-- Whether an argument has the form of an option. -/
def isOption (arg : String) : Bool :=
  match arg.toList with
  | '-' :: _ :: _ => true
  | _ => false

/-- What argument lists come to: the options with their values and the other arguments. -/
abbrev Sorted := List (String × String) × List String

def addOption (name value : String) : Except Fault Sorted → Except Fault Sorted
  | .ok (options, others) => .ok ((name, value) :: options, others)
  | .error f => .error f

/-- Sort arguments into options and others. `takes` says which options there are and whether they
take a value; `mixed` whether options may follow other arguments. -/
def sortArguments (takes : String → Option Bool) (mixed : Bool) :
    List String → Except Fault Sorted
  | [] => .ok ([], [])
  | arg :: rest =>
    if arg == "--" then .ok ([], rest)
    else if isOption arg then
      let (name, given) := splitOption arg
      match takes name, given, rest with
      | none, _, _ => .error .usage
      | some true, some value, rest => addOption name value (sortArguments takes mixed rest)
      | some true, none, value :: rest => addOption name value (sortArguments takes mixed rest)
      | some true, none, [] => .error (.needsValue name)
      | some false, some _, _ => .error (.takesNoValue name)
      | some false, none, rest => addOption name "" (sortArguments takes mixed rest)
    else if mixed then
      match sortArguments takes mixed rest with
      | .ok (options, others) => .ok (options, arg :: others)
      | .error f => .error f
    else .ok ([], arg :: rest)

def last? (name : String) (options : List (String × String)) : Option String :=
  ((options.filter fun o => o.1 == name).getLast?).map Prod.snd

/-- Whether an option belongs to the program as a whole, and whether it takes a value. -/
def commonOption? (name : String) : Option Bool :=
  if name == "--log-level" then some true else none

def ofCommand (logLevel : Option String) (command : Command) (args : List String) :
    Except Fault Invocation :=
  match sortArguments command.option? true args with
  | .error f => .error f
  | .ok (options, [template]) => .ok
    { logLevel := logLevel
      command := command
      template := template
      values := last? "--values" options
      assignments := (options.filter fun o => o.1 == "--set").map Prod.snd
      unique := (last? "--unique" options).isSome
      out := last? "--out" options }
  | .ok _ => .error .usage

def parse (args : List String) : Except Fault Invocation :=
  match sortArguments commonOption? false args with
  | .error f => .error f
  | .ok (_, []) => .error .usage
  | .ok (options, name :: rest) =>
    match Command.ofName? name with
    | none => .error .usage
    | some command => ofCommand (last? "--log-level" options) command rest

end Invocation

end PercentTemplate
