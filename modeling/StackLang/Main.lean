import StackLang.Cli.Run

/-!
# The command line

Reads the files that the arguments name, runs the command line on them, and writes what it changed.
-/

set_option autoImplicit false

namespace StackLang.Main

/-- The place of a path, from a working directory. -/
def placeOf (cwd : Location) (path : String) : Location :=
  let path := if Path.isAbsolute path then path else "/" ++ "/".intercalate (cwd ++ [path])
  (Path.parts (Path.clean path)).filter (· != "")

/-- The texts in an argument that may be paths: all of it, and what follows an equals sign. -/
def pathsIn (arg : String) : List String :=
  arg :: (match arg.splitOn "=" with
    | _ :: value :: rest => ["=".intercalate (value :: rest)]
    | _ => [])

/-- Add the directories above a place. -/
def addParents (files : Files) (place : Location) : Files :=
  (List.range place.length).foldl (fun files n =>
    let dir := place.take n
    if dir.isEmpty || (files.at? dir).isSome then files else files.put dir .dir) files

/-- Read what is at a path, if there is something. -/
def addPath (files : Files) (path : String) : IO Files := do
  let place := placeOf files.cwd path
  let real := (← IO.currentDir) / path
  if ← real.isDir then return (addParents files place).put place .dir
  else if ← real.pathExists then
    let octets ← IO.FS.readBinFile real
    return (addParents files place).put place (.file octets.toList true)
  else return files

/-- Write the files that differ. -/
def writeChanges (before after : Files) : IO Unit := do
  for (place, entry) in after.entries do
    if before.at? place != some entry then
      let path := "/" ++ "/".intercalate place
      match entry with
      | .dir => IO.FS.createDirAll path
      | .file content _ =>
        IO.FS.createDirAll ("/" ++ "/".intercalate place.dropLast)
        IO.FS.writeBinFile path ⟨content.toArray⟩

end StackLang.Main

open StackLang in
/-- Run the program. -/
def main (args : List String) : IO UInt32 := do
  let cwd := (Path.parts (toString (← IO.currentDir))).filter (· != "")
  let base := Main.addParents { cwd } cwd
  let base := { base with entries := base.entries ++ [(cwd, .dir)] }
  let mut files := base
  for path in args.flatMap Main.pathsIn do
    if path != "" then files ← Main.addPath files path
  let outcome := Cli.run { files } args
  Main.writeChanges files outcome.files
  IO.print outcome.out
  IO.eprint outcome.err
  return UInt32.ofNat outcome.exit
