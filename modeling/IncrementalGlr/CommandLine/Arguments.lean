/-!
# Arguments of the command line

A call names one of three commands and its files.  Arguments are read from left to right, so the
first one that settles the matter decides: a wish for help or for the version, or a fault.
-/

namespace IncrementalGlr

/-- What the program is asked to do. -/
inductive Command
  /-- Compile a description of a grammar. -/
  | generate (grammar : String) (output : Option String)
  /-- Parse a file and print its tree. -/
  | parse (table path : String)
  /-- Print the captures of every match of a query in a file. -/
  | query (table query path : String)
  deriving DecidableEq, Inhabited

/-- What the arguments amount to. -/
inductive Invocation
  /-- A command is to be carried out. -/
  | run (command : Command)
  /-- A text is to be shown. -/
  | show (text : String)
  /-- The arguments make no sense. -/
  | refused
  deriving DecidableEq, Inhabited

namespace Help

/-- The version of the program. -/
def version : String := "sprig 0.1.0\n"

/-- Lines of text. -/
def lines (lines : List String) : String := "\n".intercalate lines ++ "\n"

/-- What the program does. -/
def overview : String := lines
  ["Incremental GLR parsing from grammar tables",
    "",
    "Usage: sprig <COMMAND>",
    "",
    "Commands:",
    "  generate  Compile a `grammar.json` into a parse table",
    "  parse     Parse a file and print its syntax tree",
    "  query     Print the captures of every query match in a file",
    "  help      Print this message or the help of the given subcommand(s)",
    "",
    "Options:",
    "  -h, --help     Print help",
    "  -V, --version  Print version"]

/-- What the command `generate` does. -/
def generate : String := lines
  ["Compile a `grammar.json` into a parse table",
    "",
    "Usage: sprig generate [OPTIONS] <GRAMMAR>",
    "",
    "Arguments:",
    "  <GRAMMAR>  ",
    "",
    "Options:",
    "  -o, --output <OUTPUT>  Defaults to the grammar path with a `.sprig` extension",
    "  -h, --help             Print help"]

/-- What the command `parse` does. -/
def parse : String := lines
  ["Parse a file and print its syntax tree",
    "",
    "Usage: sprig parse <TABLE> <PATH>",
    "",
    "Arguments:",
    "  <TABLE>  A compiled table or a `grammar.json`",
    "  <PATH>   ",
    "",
    "Options:",
    "  -h, --help  Print help"]

/-- What the command `query` does. -/
def query : String := lines
  ["Print the captures of every query match in a file",
    "",
    "Usage: sprig query <TABLE> <QUERY> <PATH>",
    "",
    "Arguments:",
    "  <TABLE>  ",
    "  <QUERY>  ",
    "  <PATH>   ",
    "",
    "Options:",
    "  -h, --help  Print help"]

/-- What the command `help` does. -/
def help : String := lines
  ["Print this message or the help of the given subcommand(s)",
    "",
    "Usage: sprig help [COMMAND]...",
    "",
    "Arguments:",
    "  [COMMAND]...  Print help for the subcommand(s)"]

end Help

/-- The shape of a command. -/
structure CommandShape where
  /-- Number of its files. -/
  files : Nat
  /-- Whether it takes a file for its output. -/
  takesOutput : Bool
  /-- What it does. -/
  help : String
  /-- The command for given files. -/
  make : List String → Option String → Option Command

namespace CommandShape

/-- The command `generate`. -/
def generate : CommandShape where
  files := 1
  takesOutput := true
  help := Help.generate
  make files output :=
    match files with
    | [grammar] => some (.generate grammar output)
    | _ => none

/-- The command `parse`. -/
def parse : CommandShape where
  files := 2
  takesOutput := false
  help := Help.parse
  make files _ :=
    match files with
    | [table, path] => some (.parse table path)
    | _ => none

/-- The command `query`. -/
def query : CommandShape where
  files := 3
  takesOutput := false
  help := Help.query
  make files _ :=
    match files with
    | [table, query, path] => some (.query table query path)
    | _ => none

/-- The command of a name. -/
def ofName? (name : String) : Option CommandShape :=
  match name with
  | "generate" => some generate
  | "parse" => some parse
  | "query" => some query
  | _ => none

end CommandShape

/-- The arguments of a command read so far. -/
structure GivenArguments where
  /-- The files. -/
  files : List String
  /-- The file for the output. -/
  output : Option String
  /-- Whether everything that follows is a file, however it looks. -/
  onlyFiles : Bool

namespace GivenArguments

/-- No arguments. -/
def none : GivenArguments := ⟨[], .none, false⟩

/-- One more file. -/
def addFile (given : GivenArguments) (file : String) : GivenArguments :=
  { given with files := given.files ++ [file] }

end GivenArguments

namespace Invocation

/-- Whether an argument looks like an option: it begins with a hyphen and is longer. -/
def looksLikeOption (argument : String) : Bool :=
  argument.startsWith "-" && argument ≠ "-"

/-- What an option that is no `--` means. -/
inductive OptionMeaning
  /-- Help is wanted. -/
  | help
  /-- The file for the output follows. -/
  | outputNext
  /-- The file for the output stands in the option itself. -/
  | output (file : String)
  /-- There is no such option. -/
  | unknown
  deriving DecidableEq, Inhabited

/-- What an option means to a command. -/
def optionMeaning (takesOutput : Bool) (option : String) : OptionMeaning :=
  match option.toList with
  | '-' :: '-' :: name =>
    let value := name.dropWhile (· ≠ '=')
    if name == "help".toList then .help
    else if takesOutput && name.takeWhile (· ≠ '=') == "output".toList then
      if value.isEmpty then .outputNext else .output (String.ofList value.tail)
    else .unknown
  | '-' :: 'h' :: _ => .help
  | '-' :: 'o' :: value =>
    if !takesOutput then .unknown
    else
      match value with
      | [] => .outputNext
      | '=' :: file => .output (String.ofList file)
      | file => .output (String.ofList file)
  | _ => .unknown

/-- What the arguments after the name of a command amount to. -/
def ofCommand (shape : CommandShape) (given : GivenArguments) : List String → Invocation
  | [] =>
    match shape.make given.files given.output with
    | some command => .run command
    | none => .refused
  | argument :: rest =>
    if given.onlyFiles || !looksLikeOption argument then
      if given.files.length < shape.files then ofCommand shape (given.addFile argument) rest
      else .refused
    else if argument == "--" then ofCommand shape { given with onlyFiles := true } rest
    else
      match optionMeaning shape.takesOutput argument with
      | .help => .show shape.help
      | .unknown => .refused
      | .output file =>
        if given.output.isSome then .refused
        else ofCommand shape { given with output := some file } rest
      | .outputNext =>
        match rest with
        | file :: rest =>
          if given.output.isSome || looksLikeOption file then .refused
          else ofCommand shape { given with output := some file } rest
        | [] => .refused

/-- What the arguments after `help` amount to. -/
def ofHelp : List String → Invocation
  | [] => .show Help.overview
  | [name] =>
    if name == "help" then .show Help.help
    else
      match CommandShape.ofName? name with
      | some shape => .show shape.help
      | none => .refused
  | _ => .refused

/-- What the arguments of the program amount to. -/
def ofArguments : List String → Invocation
  | [] => .refused
  | name :: rest =>
    if name == "help" then ofHelp rest
    else if name == "--version" || name.startsWith "-V" then .show Help.version
    else if name == "--help" || name.startsWith "-h" then .show Help.overview
    else
      match CommandShape.ofName? name with
      | some shape => ofCommand shape .none rest
      | none => .refused

end Invocation

end IncrementalGlr
