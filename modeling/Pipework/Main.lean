import Pipework.CommandLine

set_option autoImplicit false

/-! # The program

Reads the file that a command needs, executes the command and prints its report. -/

namespace Pipework

/-- What keeps a file from being read. -/
def FileError.ofIOError (e : IO.Error) : FileError :=
  match e with
  | .noFileOrDirectory .. => .notFound
  | .inappropriateType _ 20 _ => .notDirectory
  | .inappropriateType _ 21 _ => .isDirectory
  | _ => .other (toString e)

/-- The text of a file. -/
def readText (path : String) : IO (Except FileError String) := do
  try
    let content ← IO.FS.readBinFile path
    return (Utf8.decode content.data.toList).mapError fun _ => .notUtf8
  catch e => return .error (.ofIOError e)

end Pipework

open Pipework in
/-- Executes the command that the arguments are. -/
def main (args : List String) : IO UInt32 := do
  let command := Command.ofArguments args
  let content ←
    match command.path? with
    | some path => readText path
    | none => pure (.error .notFound)
  let seed ← IO.getRandomBytes 32
  let start ← IO.monoNanosNow
  let report := command.execute (fun _ => content) (.ofSeed seed.data.toList)
  for line in report.output do
    IO.println line
  let stop ← IO.monoNanosNow
  for line in report.diagnostics (Duration.text ⟨stop - start⟩) do
    IO.eprintln line
  return UInt32.ofNat report.code
