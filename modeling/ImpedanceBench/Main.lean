import ImpedanceBench.CommandLine

/-!
The command line: reads the bench file, asks the operator, and prints.
-/

namespace ImpedanceBench.CommandLine

def complain (fault : Fault) : IO UInt32 := do
  IO.eprintln ("Error: " ++ fault.headline)
  if let some failure := fault.cause? then
    IO.eprintln ("\nCaused by:\n    " ++ failure.message)
  return 1

def ask : IO String := do
  let out ← IO.getStdout
  out.putStr shownPrompt
  out.flush
  (← IO.getStdin).getLine

def readBench (path : String) : IO (Option String) :=
  try some <$> IO.FS.readFile path catch _ => return none

def serve (i : Invocation) : IO UInt32 := do
  let text ← match i.path with
    | some path => readBench path
    | none => pure none
  match i.benchFile (fun _ => text) >>= prepare .instant with
  | .error fault => complain fault
  | .ok p =>
    let answer ← if p.asks then ask else pure ""
    match p.measure fun _ => agreesIn answer with
    | .error fault => complain fault
    | .ok table =>
      if i.json then IO.println (jsonText table)
      else (tableLines table).forM fun line => IO.println line
      return 0

end ImpedanceBench.CommandLine

def main (args : List String) : IO UInt32 :=
  match ImpedanceBench.CommandLine.Invocation.parse args with
  | .error fault => ImpedanceBench.CommandLine.complain fault
  | .ok i => ImpedanceBench.CommandLine.serve i
