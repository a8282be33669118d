import SearchScript.CommandLine.Request

/-!
# Help texts

What the program prints about itself, and about the arguments that it could not use.
-/

namespace SearchScript.CommandLine

/-- The name of the program. -/
def programName : String := "hydrui-script"

/-- The version of the program. -/
def programVersion : String := "0.1.0"

/-- What the program is. -/
def programDescription : String :=
  "Embedded expression and scripting language for Hydrui search predicates, with speculative " ++
    "completion"

/-- Lines with their left parts padded to one width, the largest that is needed. -/
def alignLines (rows : List (String × String)) : String :=
  let width := (rows.map fun row => row.1.length).foldl max 0
  String.join <| rows.map fun (left, right) =>
    "  " ++ left ++ String.ofList (List.replicate (width - left.length + 2) ' ') ++ right ++ "\n"

namespace OptionName

/-- How the help writes an option. -/
def usage (option : OptionName) : String :=
  let letter := match option.letter? with
    | some c => String.ofList ['-', c, ',', ' ']
    | none => "    "
  let value := match option with
    | expr => " <SOURCE>"
    | bind => " <NAME=JSON>"
    | files => " <FILE>"
    | offset => " <OFFSET>"
    | script | tolerant | tree | help => ""
  letter ++ "--" ++ option.long ++ value

/-- What an option is for. -/
def description (command : CommandName) : OptionName → String
  | expr => "Source text"
  | script => "Treat the source as a script rather than a single expression"
  | tolerant => "Tolerate incomplete input"
  | tree => "Print the syntax tree instead of the source"
  | bind => "Bind a global, e.g. `--bind 'tags=[\"a\",\"b\"]'`"
  | files =>
    if command.takesSourceFile then "JSON file with file metadata, used by `File(...)`"
    else "JSON file with file metadata"
  | offset => "Byte offset of the cursor (default: end of input)"
  | help => "Print help"

end OptionName

namespace CommandName

/-- What a command does. -/
def description : CommandName → String
  | tokens => "Print the tokens of the source"
  | parse => "Parse the source and print it back"
  | eval => "Evaluate the source and print the result as JSON"
  | suggest => "Print completions for a byte offset in the source"
  | filter => "Print the files for which an expression is true"
  | sort => "Print the files ordered by the key an expression computes"

/-- How the options and the operand of a command are given. -/
def usage (command : CommandName) : String :=
  if command.takesSourceFile then "[OPTIONS] [FILE]" else "--files <FILE> <EXPRESSION>"

/-- The operand of a command and what it is for. -/
def operand : CommandName → String × String
  | filter => ("<EXPRESSION>", "The filter expression; `file` is the file being tested")
  | sort => ("<EXPRESSION>", "The sort key expression; `file` is the file being keyed")
  | _ => ("[FILE]", "Source file")

/-- The help for a command. -/
def help (command : CommandName) : String :=
  command.description ++ "\n\nUsage: " ++ programName ++ " " ++ command.name ++ " " ++
    command.usage ++ "\n\nArguments:\n" ++ alignLines [command.operand] ++ "\nOptions:\n" ++
    alignLines (command.options.map fun option => (option.usage, option.description command))

end CommandName

/-- What the word that asks for help does. -/
def helpDescription : String := "Print this message or the help of the given subcommand(s)"

/-- The help for the whole program. -/
def programHelp : String :=
  programDescription ++ "\n\nUsage: " ++ programName ++ " <COMMAND>\n\nCommands:\n" ++
    alignLines (CommandName.all.map (fun command => (command.name, command.description)) ++
      [("help", helpDescription)]) ++
    "\nOptions:\n" ++
    alignLines [("-h, --help", "Print help"), ("-V, --version", "Print version")]

/-- The help for a topic. -/
def HelpTopic.text : HelpTopic → String
  | program => programHelp
  | command name => name.help
  | help =>
    helpDescription ++ "\n\nUsage: " ++ programName ++ " help [COMMAND]...\n\nArguments:\n" ++
      alignLines [("[COMMAND]...", "Print help for the subcommand(s)")]

/-- What is wrong with the arguments. -/
def UsageError.message : UsageError → String
  | missingCommand => "a command is required"
  | unknownCommand name => "unrecognized subcommand '" ++ name ++ "'"
  | unknownOption argument => "unexpected argument '" ++ argument ++ "' found"
  | unexpectedValue argument => "unexpected value in '" ++ argument ++ "'"
  | missingValue option => "a value is required for '--" ++ option.long ++ "'"
  | repeatedOption option =>
    "the argument '--" ++ option.long ++ "' cannot be used multiple times"
  | extraOperand argument => "unexpected argument '" ++ argument ++ "' found"
  | emptyPath => "the name of a file must not be empty"
  | invalidBinding argument => "expected NAME=JSON, got '" ++ argument ++ "'"
  | invalidOffset argument => "invalid offset '" ++ argument ++ "'"
  | conflictingSources => "the argument '[FILE]' cannot be used with '--expr <SOURCE>'"
  | missingExpression => "the argument <EXPRESSION> was not provided"
  | missingFiles => "the argument --files <FILE> was not provided"

/-- The text that the program prints about itself. -/
def Request.about? : Request → Option String
  | help topic => some topic.text
  | version => some (programName ++ " " ++ programVersion ++ "\n")
  | run _ => none

end SearchScript.CommandLine
