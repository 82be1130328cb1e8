import DeviceScript.Command.Dispatch

/-!
The program. Files are read into a tree, a command is performed on it, and what the command leaves
behind is written out. Nothing is decided here.
-/

namespace DeviceScript.Program

open Text

def ofBytes (b : ByteArray) : Text := b.toList

def toBytes (t : Text) : ByteArray := ⟨t.toArray⟩

/-- Adds an entry of a directory, and what stands in it so many levels deep. What cannot be read
is left out. -/
def addEntry : Nat → FileTree → IO.FS.DirEntry → IO FileTree
  | 0, tree, _ => return tree
  | depth + 1, tree, entry => do
      let path := ofString entry.path.toString
      try
        if ← entry.path.isDir then
          let tree := tree.makeDirectory (FileTree.components path)
          (← entry.path.readDir).toList.foldlM (addEntry depth) tree
        else return tree.write path (ofBytes (← IO.FS.readBinFile entry.path))
      catch _ => return tree

def addArgument (tree : FileTree) (arg : String) : IO FileTree := do
  if tree.isFile (ofString arg) then return tree
  try return tree.write (ofString arg) (ofBytes (← IO.FS.readBinFile arg))
  catch _ => return tree

def readTree (args : List String) : IO FileTree := do
  let here ← IO.currentDir
  let tree := FileTree.empty (ofString here.toString)
  let tree ← (← here.readDir).toList.foldlM (addEntry 8) tree
  args.foldlM addArgument tree

def writeChanges (before after : FileTree) : IO Unit :=
  (after.files.filter fun entry => !before.files.contains entry).forM fun (place, content) =>
    IO.FS.writeBinFile (Text.toString (FileTree.pathOf place)) (toBytes content)

end DeviceScript.Program

open DeviceScript in
def main (args : List String) : IO UInt32 := do
  let files ← Program.readTree args
  let seed ← IO.rand 0 0xFFFFFFFFFFFF
  let conclusion := Command.perform
    { files, network := [], buildDate := Text.ofString "unknown"
      runId := fun n => Text.hex 12 seed ++ Text.hex 4 n, patience := 4611686018427387904 }
    (args.map Text.ofString)
  let told ← IO.getStderr
  told.write (Program.toBytes (conclusion.notes.flatMap Note.render))
  IO.sleep (conclusion.paused / 1000000).toNat.toUInt32
  let output ← IO.getStdout
  output.write (Program.toBytes conclusion.output)
  Program.writeChanges files conclusion.files
  return conclusion.status.toUInt32
