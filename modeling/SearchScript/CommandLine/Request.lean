import SearchScript.Json.Reader

/-!
# What a command line asks for

The arguments name a command, its options and at most one operand. Options and the operand may stand
in any order, and everything behind `--` is an operand. An option that takes a value takes the next
argument or what is attached to it; no option but a binding may be given twice.

* `Request.ofArguments` — what arguments ask for, or why they ask for nothing
-/

namespace SearchScript.CommandLine

-- powers are those of the core library, whatever else is imported
attribute [local instance (high)] instPowNat

/-- The commands. -/
inductive CommandName where
  | tokens
  | parse
  | eval
  | suggest
  | filter
  | sort
deriving DecidableEq, Repr

/-- The options of the commands. -/
inductive OptionName where
  | expr
  | script
  | tolerant
  | tree
  | bind
  | files
  | offset
  | help
deriving DecidableEq, Repr

/-- Why a command line asks for nothing. -/
inductive UsageError where
  | missingCommand
  | unknownCommand (name : String)
  | unknownOption (argument : String)
  /-- A command or a flag was given a value. -/
  | unexpectedValue (argument : String)
  /-- An option stands without its value. -/
  | missingValue (option : OptionName)
  /-- An option that may stand once was repeated. -/
  | repeatedOption (option : OptionName)
  /-- There was an operand already. -/
  | extraOperand (argument : String)
  /-- The name of a file is empty. -/
  | emptyPath
  /-- A binding is not a name and a document with an equals sign between them. -/
  | invalidBinding (argument : String)
  | invalidOffset (argument : String)
  /-- The source is given both as a text and as a file. -/
  | conflictingSources
  | missingExpression
  | missingFiles
deriving DecidableEq, Repr

namespace OptionName

/-- The name of an option behind two dashes. -/
def long : OptionName → String
  | expr => "expr"
  | script => "script"
  | tolerant => "partial"
  | tree => "tree"
  | bind => "bind"
  | files => "files"
  | offset => "offset"
  | help => "help"

/-- The letter of an option behind one dash. -/
def letter? : OptionName → Option Char
  | expr => some 'e'
  | help => some 'h'
  | _ => none

/-- Whether an option takes a value. -/
def takesValue : OptionName → Bool
  | expr | bind | files | offset => true
  | script | tolerant | tree | help => false

end OptionName

namespace CommandName

/-- The commands in the order of the help. -/
def all : List CommandName := [tokens, parse, eval, suggest, filter, sort]

/-- The word for a command. -/
def name : CommandName → String
  | tokens => "tokens"
  | parse => "parse"
  | eval => "eval"
  | suggest => "suggest"
  | filter => "filter"
  | sort => "sort"

/-- The command of a word. -/
def ofName? (word : String) : Option CommandName := all.find? (·.name == word)

/-- The options of a command. -/
def options : CommandName → List OptionName
  | tokens => [.expr, .help]
  | parse => [.expr, .script, .tolerant, .tree, .help]
  | eval => [.expr, .script, .bind, .files, .help]
  | suggest => [.expr, .script, .bind, .files, .offset, .help]
  | filter | sort => [.files, .help]

/-- Whether the operand of a command is the name of its source file; otherwise it is an
expression. -/
def takesSourceFile : CommandName → Bool
  | filter | sort => false
  | _ => true

end CommandName

/-! ## Reading arguments -/

/-- What the arguments of a command have given. -/
structure Given where
  operand : Option String := none
  expr : Option String := none
  script : Bool := false
  tolerant : Bool := false
  tree : Bool := false
  bindings : List (String × Json) := []
  files : Option String := none
  offset : Option Nat := none

namespace Given

/-- Fills a place that may be filled once. -/
def fill {α : Type} (option : OptionName) (value : α) : Option α → Except UsageError (Option α)
  | none => .ok (some value)
  | some _ => .error (.repeatedOption option)

/-- Sets a flag that may be set once. -/
def raise (option : OptionName) : Bool → Except UsageError Bool
  | false => .ok true
  | true => .error (.repeatedOption option)

/-- The name of a file, which is not empty. -/
def path (text : String) : Except UsageError String :=
  if text.isEmpty then .error .emptyPath else .ok text

/-- The largest offset that can be given. -/
def maxOffset : Nat := 2 ^ (64 : Nat) - 1

/-- Reads an offset: decimal digits, with or without a plus sign. -/
def readOffset (text : String) : Except UsageError Nat :=
  let digits := match text.toList with
    | '+' :: cs => cs
    | cs => cs
  match digits, spanDigits 0 digits with
  | _ :: _, (value, []) =>
    if value ≤ maxOffset then .ok value else .error (.invalidOffset text)
  | _, _ => .error (.invalidOffset text)

/-- Reads a binding: a name up to the first equals sign and a document. -/
def readBinding (text : String) : Except UsageError (String × Json) :=
  let name := text.toList.takeWhile (· ≠ '=')
  match text.toList.drop name.length with
  | [] => .error (.invalidBinding text)
  | _ :: document =>
    match Json.parse (String.ofList document) with
    | .ok json => .ok (String.ofList name, json.canonical)
    | .error _ => .error (.invalidBinding text)

/-- Takes in an option with its value. -/
def addValue (given : Given) (option : OptionName) (value : String) : Except UsageError Given :=
  match option with
  | .expr => (fill option value given.expr).map fun x => { given with expr := x }
  | .files => do
    let path ← path value
    (fill option path given.files).map fun x => { given with files := x }
  | .offset => do
    let offset ← readOffset value
    (fill option offset given.offset).map fun x => { given with offset := x }
  | .bind =>
    (readBinding value).map fun x => { given with bindings := given.bindings ++ [x] }
  | .script | .tolerant | .tree | .help => .error (.unexpectedValue value)

/-- Takes in an option without a value. -/
def addFlag (given : Given) (option : OptionName) : Except UsageError Given :=
  match option with
  | .script => (raise option given.script).map fun x => { given with script := x }
  | .tolerant => (raise option given.tolerant).map fun x => { given with tolerant := x }
  | .tree => (raise option given.tree).map fun x => { given with tree := x }
  | .help => .ok given
  | .expr | .files | .offset | .bind => .error (.missingValue option)

/-- Takes in an operand. -/
def addOperand (command : CommandName) (given : Given) (argument : String) :
    Except UsageError Given :=
  match given.operand with
  | some _ => .error (.extraOperand argument)
  | none => do
    let operand ← if command.takesSourceFile then path argument else pure argument
    .ok { given with operand := some operand }

/-- Takes in operands. -/
def addOperands (command : CommandName) : Given → List String → Except UsageError Given
  | given, [] => .ok given
  | given, argument :: rest => do
    let given ← given.addOperand command argument
    addOperands command given rest

end Given

/-- How an argument is read. -/
inductive Argument where
  /-- Two dashes: all that follow are operands. -/
  | dashes
  /-- An option, with the value attached to it. -/
  | option (name : OptionName) (attached : Option String)
  /-- An option that the command does not have. -/
  | unknown
  | operand
deriving DecidableEq, Repr

namespace Argument

/-- Reads an argument behind two dashes: a name, with a value behind an equals sign. -/
def ofLong (options : List OptionName) (cs : List Char) : Argument :=
  let name := cs.takeWhile (· ≠ '=')
  match options.find? (·.long.toList == name) with
  | none => unknown
  | some found =>
    match cs.drop name.length with
    | [] => .option found none
    | _ :: value => .option found (some (String.ofList value))

/-- Reads an argument behind one dash: a letter, with what follows it as its value. -/
def ofShort (options : List OptionName) (letter : Char) (cs : List Char) : Argument :=
  match options.find? (·.letter? == some letter) with
  | none => unknown
  | some found =>
    if found.takesValue then
      match cs with
      | [] => .option found none
      | '=' :: value => .option found (some (String.ofList value))
      | value => .option found (some (String.ofList value))
    else .option found none

/-- Reads an argument. One dash alone is an operand. -/
def read (options : List OptionName) (argument : String) : Argument :=
  match argument.toList with
  | ['-', '-'] => dashes
  | '-' :: '-' :: cs => ofLong options cs
  | '-' :: letter :: cs => ofShort options letter cs
  | _ => operand

end Argument

/-- Reads the arguments of a command; there is no result if they ask for help. -/
def readArguments (command : CommandName) : Given → List String → Except UsageError (Option Given)
  | given, [] => .ok (some given)
  | given, argument :: rest =>
    match Argument.read command.options argument with
    | .dashes => (given.addOperands command rest).map some
    | .unknown => .error (.unknownOption argument)
    | .operand => do
      let given ← given.addOperand command argument
      readArguments command given rest
    | .option option attached =>
      match option.takesValue, attached with
      | false, some _ => .error (.unexpectedValue argument)
      | true, some value => do
        let given ← given.addValue option value
        readArguments command given rest
      | false, none =>
        if option = .help then .ok none
        else do
          let given ← given.addFlag option
          readArguments command given rest
      | true, none =>
        match rest with
        | [] => .error (.missingValue option)
        | value :: rest =>
          match Argument.read command.options value with
          | .operand => do
            let given ← given.addValue option value
            readArguments command given rest
          | _ => .error (.missingValue option)

/-! ## Commands -/

/-- Where the source of a command comes from. -/
inductive Source where
  /-- The text itself. -/
  | text (source : String)
  /-- The file of this name. -/
  | file (path : String)
  /-- The standard input. -/
  | input
deriving DecidableEq, Repr

/-- What a program is run against: the values of names, and the files that it can look up. -/
structure Surroundings where
  bindings : List (String × Json) := []
  files : Option String := none

/-- A command with its options. -/
inductive Command where
  /-- Lists the tokens of the source. -/
  | tokens (source : Source)
  /-- Reads the source and writes it again, or the outline of its tree. -/
  | parse (source : Source) (isScript tolerant asTree : Bool)
  /-- Evaluates the source. -/
  | eval (source : Source) (isScript : Bool) (surroundings : Surroundings)
  /-- Completes the source at an offset, or at its end. -/
  | suggest (source : Source) (isScript : Bool) (surroundings : Surroundings)
      (offset : Option Nat)
  /-- Keeps the files for which an expression is true. -/
  | filter (expression files : String)
  /-- Sorts files by an expression. -/
  | sort (expression files : String)

/-- What help can be asked for. -/
inductive HelpTopic where
  | program
  | command (name : CommandName)
  /-- The word that asks for help. -/
  | help
deriving DecidableEq, Repr

/-- What a command line asks for. -/
inductive Request where
  | help (topic : HelpTopic)
  | version
  | run (command : Command)

namespace Given

/-- The source that was given. -/
def source (given : Given) : Except UsageError Source :=
  match given.operand, given.expr with
  | some _, some _ => .error .conflictingSources
  | some path, none => .ok (.file path)
  | none, some text => .ok (.text text)
  | none, none => .ok .input

/-- The expression and the files that were given. -/
def query (given : Given) : Except UsageError (String × String) :=
  match given.operand, given.files with
  | none, _ => .error .missingExpression
  | some _, none => .error .missingFiles
  | some expression, some files => .ok (expression, files)

/-- The command that was given. -/
def command (given : Given) : CommandName → Except UsageError Command
  | .tokens => given.source.map .tokens
  | .parse => given.source.map fun source =>
    .parse source given.script given.tolerant given.tree
  | .eval => given.source.map fun source =>
    .eval source given.script ⟨given.bindings, given.files⟩
  | .suggest => given.source.map fun source =>
    .suggest source given.script ⟨given.bindings, given.files⟩ given.offset
  | .filter => given.query.map fun (expression, files) => .filter expression files
  | .sort => given.query.map fun (expression, files) => .sort expression files

end Given

namespace Request

/-- What the words behind `help` ask for. -/
def ofTopics : List String → Except UsageError Request
  | [] => .ok (.help .program)
  | [word] =>
    match CommandName.ofName? word with
    | some name => .ok (.help (.command name))
    | none => if word = "help" then .ok (.help .help) else .error (.unknownCommand word)
  | _ :: extra :: _ => .error (.unknownCommand extra)

/-- What arguments ask for. -/
def ofArguments : List String → Except UsageError Request
  | [] => .error .missingCommand
  | word :: rest =>
    match CommandName.ofName? word with
    | some name => do
      match ← readArguments name {} rest with
      | none => .ok (.help (.command name))
      | some given => (given.command name).map .run
    | none =>
      if word = "help" then ofTopics rest
      else
        match word.toList with
        | '-' :: 'h' :: _ => .ok (.help .program)
        | '-' :: 'V' :: _ => .ok .version
        | _ =>
          if word = "--help" then .ok (.help .program)
          else if word = "--version" then .ok .version
          else .error (.unknownCommand word)

end Request

end SearchScript.CommandLine
