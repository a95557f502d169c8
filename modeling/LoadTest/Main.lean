import LoadTest.CommandLine.Report

/-!
The program: arguments in, a report out.
-/

namespace LoadTest
namespace CommandLine

def usage : String :=
  "Usage: loadblocks compile --file <FILE> [--env <ENV>] [--vars <KEY=VALUE>]..." ++
    " [--config <CONFIG>] [--out <OUT>]\n" ++
  "       loadblocks validate --file <FILE>\n" ++
  "       loadblocks ir --file <FILE>"

/-- The bytes of a file, if it can be read. -/
def readFile (path : String) : IO (Option ByteArray) := do
  try
    return some (← IO.FS.readBinFile path)
  catch _ => return none

def readFiles (paths : List String) : IO Files := do
  let read ← paths.mapM fun path => do return (path, ← readFile path)
  return fun path => (read.lookup path).join

def fail (message : String) : IO UInt32 := do
  IO.eprintln ("Error: " ++ message)
  return 1

def finish : Outcome → IO UInt32
  | .done => return 0
  | .print text => do
    IO.print text
    return 0
  | .write path text => do
    try
      IO.FS.writeFile path text
      IO.println (Report.written path).shown
      return 0
    catch _ => fail (Report.writeFailed path)
  | .failed message => fail message

end CommandLine
end LoadTest

open LoadTest CommandLine

def main (args : List String) : IO UInt32 := do
  match Command.ofArguments? args with
  | none =>
    IO.eprintln usage
    return 2
  | some command =>
    let report := command.run (← readFiles command.paths)
    for line in report.log do IO.println line.shown
    finish report.outcome
