import CallContracts.CommandLine.Run

/-!
The program: reads the document that the command line names, carries the command out and
shows its outcome.
-/

namespace CallContracts.CommandLine

/-- How the program is used. -/
def usage : String := "usage: sigil [--config FILE] parse SIGNATURE
       sigil [--config FILE] chain NAME
       sigil [--config FILE] check TYPE VALUE
       sigil [--config FILE] types"

/-- What is found under the name of a file. -/
def fetch (name : String) : IO Document.Content := do
  try
    return .ofText (← IO.FS.readFile name)
  catch e =>
    match e with
    | .inappropriateType .. => return .folder
    | _ => return .missing

/-- Shows an outcome. -/
def Outcome.print (o : Outcome) : IO UInt32 := do
  IO.print o.output
  IO.eprint o.errors
  return o.exitCode.toUInt32

end CallContracts.CommandLine

open CallContracts CallContracts.CommandLine in
/-- Carries out what the arguments ask for; the answer is the exit code. -/
def main (arguments : List String) : IO UInt32 := do
  let content ← match Invocation.read arguments with
    | .ok { config := some file, .. } => fetch (documentName file)
    | _ => pure .missing
  match (run (fun _ => content) arguments .empty).outcome with
  | .ok (.inr outcome) => outcome.print
  | .ok (.inl exitCode) =>
    if exitCode = helped then IO.println usage else IO.eprintln usage
    return exitCode.toUInt32
  | .error (.fault f) =>
    (errorOutcome (f.message?.getD "the computation failed")).print
  | .error .exhausted =>
    (errorOutcome "calls nest too deeply").print
