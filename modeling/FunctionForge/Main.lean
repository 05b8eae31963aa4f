import FunctionForge.CommandLine.Execute

/-!
# The program

Reads the files below the working folder, does what the arguments ask for, and writes back what has
changed. Paths that lead out of the working folder are not followed.
-/

namespace FunctionForge

open CommandLine (Said)
open Files (FileData FileTree)

/-- The data of bytes. -/
def dataOfBytes (bytes : ByteArray) : FileData :=
  match String.fromUTF8? bytes with
  | some text => .text text
  | none => .bytes

/-- Adds the files and folders in a folder to a tree, `names` being the names that lead to it. -/
partial def addEntries (names : List String) (entries : Array IO.FS.DirEntry) (tree : FileTree) :
    IO FileTree :=
  entries.foldlM (fun tree entry => do
    let names := names ++ [entry.fileName]
    if ← entry.path.isDir then
      addEntries names (← entry.path.readDir) (tree.put names (.folder []))
    else
      let bytes ← IO.FS.readBinFile entry.path
      return tree.put names (.file (dataOfBytes bytes))) tree

/-- Writes a file, and creates its folder. -/
def save (names : List String) (content : String) : IO Unit := do
  let folder := Text.join "/" names.dropLast
  if !folder.isEmpty then IO.FS.createDirAll folder
  IO.FS.writeFile (Text.join "/" names) content

/-- Says something. Of the log, only errors are shown. -/
def say : Said → IO Unit
  | .line text => IO.eprintln text
  | .notice notice => if notice.severity = .error then IO.eprintln notice.message else pure ()

end FunctionForge

/-- Runs the program with its arguments. -/
def main (arguments : List String) : IO UInt32 := do
  let folder ← IO.currentDir
  let before ← FunctionForge.addEntries [] (← folder.readDir) FunctionForge.Files.FileTree.empty
  let outcome := FunctionForge.CommandLine.execute before arguments
  for (names, content) in before.changes outcome.files do
    FunctionForge.save names content
  IO.print outcome.output
  outcome.said.forM FunctionForge.say
  return UInt32.ofNat outcome.exitCode
