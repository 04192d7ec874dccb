import Respell.CommandLine.Run

/-!
# The program

The command line on the files and streams of the machine.
-/

namespace Respell

/-- The fault that a failed operation on a file reports. -/
def FileFault.ofError : IO.Error → FileFault
  | .noFileOrDirectory .. => .missing
  | .inappropriateType _ code _ => if code = 21 then .isFolder else .notFolder
  | e => .other (toString e)

/-- The text of a file of the machine. -/
def readMachineText (path : String) : IO (Except FileFault String) := do
  try
    let bytes ← IO.FS.readBinFile path
    match String.fromUTF8? bytes with
    | some text => return .ok text
    | none => return .error .notText
  catch e => return .error (.ofError e)

/-- The names of the entries of a folder of the machine. -/
def listMachineFolder (path : String) : IO (Option (List String)) := do
  try
    let entries ← (System.mkFilePath [path]).readDir
    return some (entries.toList.map (·.fileName))
  catch _ => return none

/-- Writes a text to a file of the machine. -/
def writeMachineText (path text : String) : IO (Except FileFault Unit) := do
  try
    IO.FS.writeFile path text
    return .ok ()
  catch e => return .error (.ofError e)

/-- The text of the standard input of the program. -/
def readMachineInput : IO (Option String) := do
  return String.fromUTF8? (← (← IO.getStdin).readBinToEnd)

/-- The files and the standard input of the machine. -/
def machineHost : CommandLine.Host IO :=
  ⟨⟨readMachineText, listMachineFolder, writeMachineText⟩, readMachineInput⟩

end Respell

/-- Runs the command line and ends with its exit code. -/
def main (arguments : List String) : IO UInt32 := do
  let outcome ← Respell.CommandLine.run Respell.machineHost arguments
  IO.eprint outcome.log
  IO.print outcome.out
  return outcome.code.toUInt32
