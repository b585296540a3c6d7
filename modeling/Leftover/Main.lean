/-
# The program

Runs a command line on the files and the clock of the machine.
-/
import Leftover.CommandLine

namespace Leftover

/-- What a path leads to on the machine. A path whose bytes are no characters is taken to lead nowhere. -/
def kindOnMachine (path : Text) : IO PathKind := do
  match path.toString? with
  | none | some "" => return .missing
  | some path =>
    let real ← IO.FS.realPath path
    if !(← real.pathExists) then return .missing
    return if ← real.isDir then .directory else .file

/-- Something done with a path whose bytes are characters. -/
def onMachine (path : Text) (act : String → IO Unit) : IO (Except Fault Unit) := do
  match path.toString? with
  | none => return .error .unwritable
  | some path =>
    act path
    return .ok ()

/-- The files, variables and clock of the machine. -/
def machine (environment : List (String × String)) : Host IO where
  kindOf := kindOnMachine
  read path := IO.FS.readFile path.escaped
  makeWay path := onMachine path fun path => IO.FS.createDirAll path
  write path text := onMachine path fun path => IO.FS.writeFile path text
  now := do
    return Float.ofNat (← IO.monoMsNow) / 1000.0
  environment := environment

/-- The value of a variable of the environment, if it is set. -/
def fromEnvironment (name : String) : IO (List (String × String)) := do
  match ← IO.getEnv name with
  | some value => return [(name, value)]
  | none => return []

end Leftover

open Leftover in
/-- Runs the command line that the words make up. -/
def main (words : List String) : IO UInt32 := do
  let path ← fromEnvironment (variablePrefix ++ "CONFIG_PATH")
  let level ← fromEnvironment (variablePrefix ++ "LOG_LEVEL")
  let environment := path ++ level
  let (outcome, fault) ← CommandLine.run (machine environment) (words.map Text.ofString)
  outcome.log.forM fun line => IO.eprintln line.escaped
  IO.print outcome.output
  if fault.isSome then IO.eprintln "The command broke off."
  return outcome.exitCode.toUInt32
