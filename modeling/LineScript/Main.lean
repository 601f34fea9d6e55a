/-
Module: LineScript.Main
Purpose: The command line program.
Trusted boundary: this is the outer layer. It reads files and streams, supplies the bytes and the
  characters to the console, and shows what the console wrote; nothing is proved about it. Its fuel
  is a number that no run in practice uses up.
Main exports: main
-/
import LineScript.Console

/-!
The outer layer of the console: it reads the arguments, the script file and the standard input,
and writes what the console says. Input is read only if the console asks for any. What does not
come from a terminal is then read at once. At a terminal a line is read each time the console asks
for one: the console runs on the lines read so far and is interrupted behind them, and what it has
said by then is what the user must see first.
-/

namespace LineScript

/-- Fuel that no program uses up. -/
def ampleFuel : Nat := 1 <<< 62

/-- All that is left to read from a stream. -/
partial def readAll (stream : IO.FS.Stream) (begun : String) : IO String := do
  let line ← stream.getLine
  if line.isEmpty then
    return begun
  else
    readAll stream (begun ++ line)

/-- The bytes of a file, if there is one. -/
def readFile? (path : String) : IO (Option ByteArray) := do
  try
    return some (← IO.FS.readBinFile path)
  catch _ =>
    return none

/-- The part of a text behind its first characters. -/
def textBehind (count : Nat) (text : String) : String :=
  String.ofList (text.toList.drop count)

/-- Writes what the console says behind what was written before, and gives the new lengths. -/
def showBehind (shown : Nat × Nat) (output errors : String) : IO (Nat × Nat) := do
  IO.print (textBehind shown.1 output)
  IO.eprint (textBehind shown.2 errors)
  (← IO.getStdout).flush
  return (output.length, errors.length)

/-- What the console said before it asked for more input, if it came to the end of its input. -/
def outputBeforeAsking? (result : Console.Result) : Option String :=
  match result.ending with
  | .broken .interrupted => some result.output
  | .interrupted =>
    let length := result.output.length - Console.interruption.length
    some (String.ofList (result.output.toList.take length))
  | _ => none

/-- Runs the console at a terminal on what was read so far, and reads on when it asks for more. -/
partial def converse (console : Input → Console.Result) (stream : IO.FS.Stream) (read : String)
    (shown : Nat × Nat) : IO Console.Ending := do
  let result := console ⟨read.toList, true⟩
  match outputBeforeAsking? result with
  | none =>
    let _ ← showBehind shown result.output result.errors
    return result.ending
  | some output =>
    let shown ← showBehind shown output result.errors
    let line ← stream.getLine
    if line.isEmpty then
      let ended := console ⟨read.toList, false⟩
      let _ ← showBehind shown ended.output ended.errors
      return ended.ending
    else
      converse console stream (read ++ line) shown

/-- Runs the console on all of an input, which is read only if the console asks for any. -/
def runOnAll (console : Input → Console.Result) (stream : IO.FS.Stream) : IO Console.Ending := do
  let unfed := console ⟨[], true⟩
  let result ←
    if (outputBeforeAsking? unfed).isSome then
      pure (console ⟨(← readAll stream "").toList, false⟩)
    else
      pure unfed
  let _ ← showBehind (0, 0) result.output result.errors
  return result.ending

/-- What is said about an ending that has no exit status. -/
def complaint : Console.Ending → String
  | .status _ | .interrupted => ""
  | .missingScript => "No such script file\n"
  | .undecodableScript => "The script file is not valid UTF-8\n"
  | .broken cause => cause.message ++ "\n"
  | .outOfFuel => "The program did not end\n"

end LineScript

/-- Runs the console on the arguments of the command line. -/
def main (arguments : List String) : IO UInt32 := do
  let dump := (← IO.getEnv "LEXORDEBUG").any fun setting => !setting.isEmpty
  let file ←
    match arguments with
    | [path] => LineScript.readFile? path
    | _ => pure none
  let console (input : LineScript.Input) : LineScript.Console.Result :=
    LineScript.Console.run LineScript.ampleFuel dump input (fun _ => file) arguments
  let stream ← IO.getStdin
  let ending ←
    if ← stream.isTty then LineScript.converse console stream "" (0, 0)
    else LineScript.runOnAll console stream
  IO.eprint (LineScript.complaint ending)
  return (ending.exitStatus?.getD 1).toUInt32
