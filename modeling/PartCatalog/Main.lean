/-
# The program -- files in, text out

It takes a picture of the files that a command line names, runs the command on the
picture and prints the outcome. All decisions are in `CommandLine.run`.
-/
import PartCatalog.CommandLine.Run

set_option autoImplicit false

namespace PartCatalog.Program

/-- The entry of a file. -/
def fileEntry (path : String) : IO FileEntry := do
  let bytes ← IO.FS.readBinFile path
  match String.fromUTF8? bytes with
  | some content => return .text content
  | none => return .bytes

/-- Add what is at a path, and of a directory the entries to a depth. What cannot be
read is left out. -/
def addFiles (path : String) (depth : Nat) (tree : FileTree) : IO FileTree := do
  try
    let place ← IO.FS.realPath path
    if ← place.isDir then
      let tree := tree.add path .directory
      match depth with
      | 0 => return tree
      | depth + 1 =>
        let entries ← place.readDir
        entries.foldlM (fun tree entry =>
          addFiles (FileTree.join path entry.fileName) depth tree) tree
    else return tree.add path (← fileEntry path)
  catch _ => return tree

/-- Add every place on the way to a path. -/
def addBeginnings (path : String) (tree : FileTree) : IO FileTree :=
  let steps := FileTree.steps path
  let beginnings := (List.range (steps.length + 1)).map fun n => FileTree.ofSteps (steps.take n)
  (beginnings.filter (!·.isEmpty)).foldlM (fun tree p => addFiles p 0 tree) tree

/-- The files that an invocation needs. -/
def filesFor (invocation : CommandLine.Invocation) : IO FileTree := do
  let named := invocation.repo :: invocation.config.toList
  let tree ← named.foldlM (fun tree p => addBeginnings p tree) FileTree.empty
  let tree ← addFiles (FileTree.join invocation.repo "data") 1 tree
  addFiles (FileTree.join invocation.repo "openscad") 2 tree

end PartCatalog.Program

open PartCatalog in
/-- The entry point. -/
def main (args : List String) : IO UInt32 := do
  let tree ← match CommandLine.parse args with
    | .ok invocation => Program.filesFor invocation
    | .error _ => pure FileTree.empty
  let outcome := CommandLine.run tree args
  IO.print outcome.stdout
  for line in outcome.warnings.map ("warning: " ++ ·) ++ outcome.stderr do
    IO.eprintln line
  return outcome.code.toUInt32
