import IncrementalGlr.CommandLine.Program

/-!
# Files in memory

A program can be carried out with files that are held in memory.  They stand in a directory of
their own, and paths are relative to it.
-/

namespace IncrementalGlr

/-- Files by their names. -/
structure Files where
  /-- The files, the latest ones first. -/
  entries : List (String × ByteArray)

namespace Files

/-- A path without empty components and components that stand for the directory itself. -/
def plainPath (path : String) : String :=
  "/".intercalate ((path.splitOn "/").filter fun part => part ≠ "" && part ≠ ".")

/-- Whether a path may name a file: it is relative and does not end like a directory. -/
def canBeFile (path : String) : Bool :=
  !path.startsWith "/" && !path.endsWith "/" && !path.endsWith "/."

/-- Whether a plain path names a directory. -/
def isDirectory (files : Files) (path : String) : Bool :=
  path == "" || files.entries.any fun (name, _) => name.startsWith (path ++ "/")

/-- The contents of a file. -/
def read? (files : Files) (path : String) : Option ByteArray :=
  if canBeFile path then files.entries.lookup (plainPath path) else none

/-- The files after one has been written, if its directory exists and the path is none itself. -/
def write? (files : Files) (path : String) (bytes : ByteArray) : Option Files :=
  let plain := plainPath path
  let parent := "/".intercalate ((plain.splitOn "/").dropLast)
  if canBeFile path && !files.isDirectory plain && files.isDirectory parent then
    some ⟨(plain, bytes) :: files.entries.filter fun (name, _) => name ≠ plain⟩
  else none

end Files

namespace Program

/-- Carries out a program with files in memory. -/
def performWith (files : Files) : Program → Outcome × Files
  | finish outcome => (outcome, files)
  | readFile path next => (next (files.read? path)).performWith files
  | writeFile path bytes next =>
    match files.write? path ⟨bytes.toArray⟩ with
    | some files => (next true).performWith files
    | none => (next false).performWith files

end Program

end IncrementalGlr
