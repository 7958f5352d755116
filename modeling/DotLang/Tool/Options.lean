/-!
# Options of the formatter

The formatter takes flags, an output path and one input path. Short options can
be written together, the last of them with its value attached, and two hyphens
end the options.

* `Options.ofArgs`: the options of a list of arguments.
-/

namespace DotLang

/-- What the formatter is asked to do. -/
structure Options where
  /-- The path of the input; a hyphen stands for the standard input. -/
  input : String
  /-- The path of the output, if it is not the standard output. -/
  output : Option String := none
  /-- Whether to describe the graph in the log. -/
  summary : Bool := false
  /-- Whether to stop after parsing. -/
  checkOnly : Bool := false
  /-- Whether to log the steps of parsing. -/
  debug : Bool := false
  deriving DecidableEq, Repr

/-- Why arguments are no options. -/
inductive UsageError where
  | unknown (argument : String)
  | repeated (option : String)
  | missingValue
  | unwantedValue (option : String)
  | extraInput (argument : String)
  | missingInput
  deriving DecidableEq, Repr

/-- The wording of a usage error. -/
def UsageError.message : UsageError → String
  | unknown argument => s!"unexpected argument '{argument}'"
  | repeated option => s!"the option '--{option}' cannot be used more than once"
  | missingValue => "a value is required for '--output'"
  | unwantedValue option => s!"no value is allowed for '--{option}'"
  | extraInput argument => s!"unexpected argument '{argument}'"
  | missingInput => "the input is missing"

/-- What a list of arguments asks for. -/
inductive Request where
  | format (options : Options)
  | version
  deriving DecidableEq, Repr

/-- The options that take no value. -/
inductive Flag where
  | debug | summary | check
  deriving DecidableEq, Repr

/-- The name of a flag. -/
def Flag.name : Flag → String
  | debug => "debug"
  | summary => "summary"
  | check => "check"

/-- The flag of a long name. -/
def Flag.ofName? : String → Option Flag
  | "debug" => some debug
  | "summary" => some summary
  | "check" => some check
  | _ => none

/-- The flag of a short name. -/
def Flag.ofChar? : Char → Option Flag
  | 'd' => some debug
  | 's' => some summary
  | _ => none

/-- The options found in the arguments so far. -/
structure Found where
  flags : List Flag := []
  input : Option String := none
  output : Option String := none

namespace Found

/-- Adds a flag, which may be given once. -/
def addFlag (f : Found) (flag : Flag) : Except UsageError Found :=
  if f.flags.contains flag then .error (.repeated flag.name)
  else .ok { f with flags := flag :: f.flags }

/-- Adds the input, of which there is one. -/
def addInput (f : Found) (path : String) : Except UsageError Found :=
  if f.input.isSome then .error (.extraInput path) else .ok { f with input := some path }

/-- Adds the output, which may be given once. -/
def addOutput (f : Found) (path : String) : Except UsageError Found :=
  if f.output.isSome then .error (.repeated "output") else .ok { f with output := some path }

/-- The request when all arguments have been read. -/
def request (f : Found) : Except UsageError Request :=
  match f.input with
  | none => .error .missingInput
  | some input => .ok <| .format
    { input := input
      output := f.output
      summary := f.flags.contains .summary
      checkOnly := f.flags.contains .check
      debug := f.flags.contains .debug }

end Found

/-- What an argument turns out to be. -/
inductive Argument where
  /-- Options that take no value, or have it attached. -/
  | complete (found : Found)
  /-- The option for the output, whose value is the next argument. -/
  | wantsValue (found : Found)
  /-- The request for the version, which ends the reading of arguments. -/
  | version

/-- Reads short options that are written together. What follows the letter for
    the output is its value, if anything does. -/
def readShort (f : Found) : List Char → Except UsageError Argument
  | [] => .ok (.complete f)
  | 'V' :: _ => .ok .version
  | ['o'] => .ok (.wantsValue f)
  | 'o' :: '=' :: value => (f.addOutput (String.ofList value)).map .complete
  | 'o' :: value => (f.addOutput (String.ofList value)).map .complete
  | c :: cs =>
    match Flag.ofChar? c with
    | none => .error (.unknown (String.ofList ['-', c]))
    | some flag =>
      match f.addFlag flag with
      | .error e => .error e
      | .ok f => readShort f cs

/-- Reads a long option, whose value may be attached with an equals sign. -/
def readLong (f : Found) (name : String) (value : Option String) : Except UsageError Argument :=
  match name, value with
  | "output", none => .ok (.wantsValue f)
  | "output", some path => (f.addOutput path).map .complete
  | "version", none => .ok .version
  | "version", some _ => .error (.unwantedValue name)
  | name, value =>
    match Flag.ofName? name with
    | none => .error (.unknown name)
    | some flag =>
      if value.isSome then .error (.unwantedValue name) else (f.addFlag flag).map .complete

/-- Reads an argument before the options have ended. A hyphen alone is an
    input. -/
def readArgument (f : Found) (arg : String) : Except UsageError Argument :=
  match arg.toList with
  | '-' :: '-' :: cs =>
    let name := cs.takeWhile (· != '=')
    let value := if cs.contains '=' then some (String.ofList (cs.drop (name.length + 1))) else none
    readLong f (String.ofList name) value
  | '-' :: c :: cs => readShort f (c :: cs)
  | _ => (f.addInput arg).map .complete

/-- Whether an argument looks like an option, so that it is no value of one. -/
def looksLikeOption (arg : String) : Bool :=
  match arg.toList with
  | '-' :: _ :: _ => true
  | _ => false

/-- Reads arguments after the options have ended. -/
def readInputs (f : Found) : List String → Except UsageError Request
  | [] => f.request
  | arg :: args =>
    match f.addInput arg with
    | .error e => .error e
    | .ok f => readInputs f args

/-- Reads arguments. An error counts unless the version is asked for before it. -/
def readArguments (f : Found) : List String → Except UsageError Request
  | [] => f.request
  | arg :: args =>
    if arg = "--" then readInputs f args
    else
      match readArgument f arg with
      | .error e => .error e
      | .ok .version => .ok .version
      | .ok (.complete f) => readArguments f args
      | .ok (.wantsValue f) =>
        match args with
        | [] => .error .missingValue
        | value :: args =>
          if looksLikeOption value then .error .missingValue
          else
            match f.addOutput value with
            | .error e => .error e
            | .ok f => readArguments f args

/-- The options of a list of arguments. -/
def Options.ofArgs (args : List String) : Except UsageError Request := readArguments {} args

end DotLang
