import IncrementalGlr.CommandLine.Program

/-!
# The command line

Carries out the program with the files of the system.
-/

namespace IncrementalGlr

/-- Does something with a file and says whether it succeeded. -/
def attempt {α : Type} (action : IO α) : IO (Option α) :=
  try
    return some (← action)
  catch _ => return none

namespace Program

/-- Carries out a program. -/
def perform : Program → IO UInt32
  | finish outcome => do
    for message in outcome.messages do
      IO.eprintln message
    IO.print outcome.output
    return outcome.code
  | readFile path next => do
    let bytes ← attempt (IO.FS.readBinFile path)
    (next bytes).perform
  | writeFile path bytes next => do
    let written ← attempt (IO.FS.writeBinFile path ⟨bytes.toArray⟩)
    (next written.isSome).perform

end Program

end IncrementalGlr

/-- Carries out the program that the arguments ask for. -/
def main (arguments : List String) : IO UInt32 :=
  (IncrementalGlr.Program.ofArguments arguments).perform
