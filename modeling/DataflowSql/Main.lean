import DataflowSql.CommandLine.Run

/-! The command line itself. -/
namespace DataflowSql.CommandLine

def readOnDisk (path : String) : IO (Option String) := do
  try
    return some (← IO.FS.readFile path)
  catch _ => return none

def writeOnDisk (path text : String) : IO Bool := do
  try
    IO.FS.writeFile path text
    return true
  catch _ => return false

def world : World IO where
  read := readOnDisk
  write := writeOnDisk
  warn := fun text => IO.eprintln ("warning: " ++ text)

end DataflowSql.CommandLine

def main (args : List String) : IO UInt32 := do
  let environment ← IO.getEnv DataflowSql.Config.dialectVariable
  let report ← DataflowSql.CommandLine.run DataflowSql.CommandLine.world environment args
  IO.print report.output
  if report.error ≠ "" then IO.eprintln report.error
  return UInt32.ofNat report.code
