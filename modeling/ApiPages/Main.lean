import ApiPages.CommandLine.Run

/-! # The command line program

Reads the files that a run needs, lets the library do its work and prints the result. -/

namespace ApiPages

/-- What reading a file of the disk gives. -/
def readDisk (path : Text) : IO (Except ReadFault Text) := do
  try
    let bytes ← IO.FS.readBinFile (String.ofList path)
    pure ((FileTree.textOfBytes? bytes).elim (.error .notText) .ok)
  catch
    | .inappropriateType .. => pure (.error .notDirectory)
    | .illegalOperation .. => pure (.error .isDirectory)
    | _ => pure (.error .missing)

/-- The tree that holds what reading some paths gives. -/
def diskTree (paths : List Text) : IO FileTree := do
  let entries ← paths.mapM fun path => do pure (path, ← readDisk path)
  pure ⟨fun path => (entries.lookup path).getD (.error .missing)⟩

/-- The directory for the configuration of the user. -/
def userConfigDirectory : IO Text := do
  match ← IO.getEnv "XDG_CONFIG_HOME" with
  | some dir =>
    if Path.isAbsolute dir.toList then pure dir.toList else fromHome
  | none => fromHome
where
  fromHome : IO Text := do
    pure (Settings.configDirectory ((← IO.getEnv "HOME").getD "").toList)

/-- The files of the sources of all classes of the documents. -/
def sourcePaths (i : Invocation) (files : FileTree) : List Text :=
  match Readers.program.loadIndex i files with
  | .ok ix => ix.classes.filterMap ClassDecl.file
  | .error _ => []

/-- Reads all files that an invocation may need. -/
def filesFor (i : Invocation) (configDirectory : Text) : IO FileTree := do
  let paths := i.settingsPath.toList ++ Settings.searchPaths configDirectory ++ i.documents
  let files ← diskTree paths
  diskTree (paths ++ sourcePaths i files)

end ApiPages

open ApiPages

def main (args : List String) : IO UInt32 := do
  let args := args.map String.toList
  let directory ← userConfigDirectory
  let files ← match Invocation.ofArgs? args with
    | some i => filesFor i directory
    | none => pure .empty
  let outcome := runArgs args files directory
  match outcome with
  | .printed text => IO.print (String.ofList text)
  | .failed e => IO.eprintln ("Error: " ++ String.ofList e.message)
  | .misused => IO.eprintln "Usage: phpdocs-md [OPTIONS] <DESCRIPTORS>..."
  pure (UInt32.ofNat outcome.exitCode)
