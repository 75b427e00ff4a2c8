import IncrementalGlr.CommandLine.Arguments
import IncrementalGlr.Description.Compiled
import IncrementalGlr.Parse.Parser
import IncrementalGlr.Query.Matching
import IncrementalGlr.Query.Reader

/-!
# The program behind the command line

What the program does with the names and the contents of files.
-/

namespace IncrementalGlr

/-! ## File names

The last component of a path is the name of a file; its extension is what follows the last dot that
is not its first character.
-/

namespace FilePath

/-- A path given by its characters from the last one on, without slashes and single dots at its
end. -/
def dropEmptyEnd : List Char → List Char
  | '/' :: rest => dropEmptyEnd rest
  | '.' :: '/' :: rest => dropEmptyEnd ('/' :: rest)
  | chars => chars

/-- The directory part of a path, its slash included, and the name of the file, or none if the path
names no file. -/
def split? (path : String) : Option (String × String) :=
  let chars := dropEmptyEnd path.toList.reverse
  let name := (chars.takeWhile (· ≠ '/')).reverse
  let directory := (chars.dropWhile (· ≠ '/')).reverse
  if name.isEmpty || name == ['.'] || name == ['.', '.'] then none
  else some (String.ofList directory, String.ofList name)

/-- The name of a file before its extension, and its extension if it has one. -/
def splitName (name : String) : String × Option String :=
  let chars := name.toList.reverse
  let extension := (chars.takeWhile (· ≠ '.')).reverse
  match chars.dropWhile (· ≠ '.') with
  | _ :: stem =>
    if stem.isEmpty then (name, none)
    else (String.ofList stem.reverse, some (String.ofList extension))
  | [] => (name, none)

/-- The extension of the file that a path names. -/
def extension? (path : String) : Option String := do
  let (_, name) ← split? path
  (splitName name).2

/-- The path with another extension; a path that names no file stays as it is. -/
def withExtension (path extension : String) : String :=
  match split? path with
  | some (directory, name) => directory ++ (splitName name).1 ++ "." ++ extension
  | none => path

end FilePath

/-! ## Runs of the program

The program reads and writes whole files and ends with an exit code and printed text.  What it does
with the files is said here; how files are reached is left to whoever carries it out.
-/

/-- How the program ends. -/
structure Outcome where
  /-- The exit code. -/
  code : UInt32
  /-- The text for standard output. -/
  output : String
  /-- The lines for standard error. -/
  messages : List String
  deriving DecidableEq, Inhabited

namespace Outcome

/-- A success that prints a text. -/
def success (output : String) : Outcome := ⟨0, output, []⟩

/-- A failure with a message. -/
def failure (message : String) : Outcome := ⟨1, "", ["Error: " ++ message]⟩

end Outcome

/-- A program that reads and writes whole files. -/
inductive Program
  /-- The program ends. -/
  | finish (outcome : Outcome)
  /-- The program goes on with the contents of a file, or with none if it cannot be read. -/
  | readFile (path : String) (next : Option ByteArray → Program)
  /-- The program goes on after writing a file, knowing whether that succeeded. -/
  | writeFile (path : String) (bytes : List UInt8) (next : Bool → Program)

namespace Program

/-- A path between backquotes. -/
def quoted (path : String) : String := "`" ++ path ++ "`"

/-- The program that ends with a failure. -/
def fail (message : String) : Program := .finish (.failure message)

/-- Goes on with a file that has to hold text. -/
def readText (path : String) (next : String → Program) : Program :=
  .readFile path fun bytes =>
    match bytes.bind String.fromUTF8? with
    | some text => next text
    | none => fail ("failed to read " ++ quoted path)

/-- Why a description could not be compiled. -/
def describeFailure : Description.Failure → String
  | .read .malformed => "the text is not JSON"
  | .read .mismatch => "the text does not describe a grammar"
  | .compile error => error.message

/-- Goes on with the grammar that a description in a file compiles to. -/
def readDescription (path : String) (next : Compiled → Program) : Program :=
  readText path fun text =>
    match Description.compileText text with
    | .ok compiled => next compiled
    | .error failure =>
      fail ("failed to generate " ++ quoted path ++ ": " ++ describeFailure failure)

/-- Goes on with the grammar in a file: a description if the file is named so, and a compiled
grammar otherwise. -/
def readGrammar (path : String) (next : Grammar → Program) : Program :=
  if FilePath.extension? path == some "json" then
    readDescription path fun compiled => next compiled.grammar
  else
    .readFile path fun bytes =>
      match bytes with
      | none => fail ("failed to read " ++ quoted path)
      | some bytes =>
        match Grammar.ofBytes bytes.toList with
        | .ok grammar => next grammar
        | .error error => fail ("failed to load " ++ quoted path ++ ": " ++ error.message)

/-- Compiles a description and writes the grammar to a file. -/
def generate (grammar : String) (output : Option String) : Program :=
  readDescription grammar fun compiled =>
    let path := output.getD (FilePath.withExtension grammar "sprig")
    .writeFile path compiled.bytes fun written =>
      if written then
        .finish ⟨0, "", compiled.unexpectedConflicts.map fun conflict =>
          "warning: unresolved conflict in " ++ conflict.describe⟩
      else fail ("failed to write " ++ quoted path)

/-- Parses a text with a new parser. -/
def parseText (grammar : Grammar) (text : Text) : ParseOutput :=
  ((Parser.ofGrammar grammar none .standard 0).parse text none []).1

/-- Parses a file and prints its tree. -/
def parse (table path : String) : Program :=
  readGrammar table fun grammar =>
    readText path fun source =>
      let text := Text.ofString source
      let output := parseText grammar text
      .finish
        ⟨if output.diagnostics.isEmpty then 0 else 1, output.tree.render ++ "\n",
          output.diagnostics.map fun diagnostic => diagnostic.render path text⟩

/-- The line about a captured node. -/
def captureLine (query : Query) (path : String) (text : Text) (pattern : Nat)
    (capture : QueryCapture) : String :=
  let place := text.pointAt capture.node.start
  path ++ ":" ++ toString (place.row + 1) ++ ":" ++ toString (place.column + 1) ++ ": pattern " ++
    toString pattern ++ " @" ++ (query.captureNames[capture.index]?).getD "" ++ " " ++
    Quoted.ofString (capture.node.text text).decode ++ "\n"

/-- The lines about all captured nodes of a tree. -/
def captureLines (query : Query) (tree : SyntaxTree) (path : String) (text : Text) : String :=
  let found := query.matchesIn tree.grammar tree.rootNode text none
  String.join (found.flatMap fun found =>
    found.captures.map (captureLine query path text found.pattern))

/-- Prints the captures of every match of a query in a file. -/
def query (table query path : String) : Program :=
  readGrammar table fun grammar =>
    readText query fun source =>
      match Query.compile grammar source with
      | .error error =>
        let diagnostic := Diagnostic.mk error.message ⟨error.offset, error.offset⟩ .error
        .finish ⟨1, "", [diagnostic.render query (.ofString source)]⟩
      | .ok compiled =>
        readText path fun source =>
          let text := Text.ofString source
          let output := parseText grammar text
          .finish (.success (captureLines compiled output.tree path text))

/-- The program for a command. -/
def ofCommand : Command → Program
  | .generate grammar output => generate grammar output
  | .parse table path => parse table path
  | .query table source path => query table source path

/-- The program for the arguments of the command line. -/
def ofArguments (arguments : List String) : Program :=
  match Invocation.ofArguments arguments with
  | .run command => ofCommand command
  | .show text => .finish (.success text)
  | .refused => .finish ⟨2, "", [Help.overview]⟩

end Program

end IncrementalGlr
