import ApiPages.Files.Path

/-! # Files to read

The library never touches a disk.  It reads from a `FileTree`, which says for every path what
reading it gives.  `FileTree.ofEntries` is the tree that holds just the given files: it follows the
components of a path through the directories that the files span. -/

namespace ApiPages

/-- Why a file cannot be read. -/
inductive ReadFault where
  | missing
  | isDirectory
  | notDirectory
  | notText
deriving DecidableEq, Repr

def ReadFault.message : ReadFault → Text
  | .missing => "No such file or directory (os error 2)"
  | .isDirectory => "Is a directory (os error 21)"
  | .notDirectory => "Not a directory (os error 20)"
  | .notText => "stream did not contain valid UTF-8"

/-- What reading gives for every path. -/
structure FileTree where
  read : Text → Except ReadFault Text

namespace FileTree

/-- Whether there is a file at the path, readable as text or not. -/
def isFile (tree : FileTree) (path : Text) : Bool :=
  match tree.read path with
  | .ok _ => true
  | .error fault => fault == .notText

/-- The text of a sequence of UTF-8 bytes. -/
def textOfBytes? (bytes : ByteArray) : Option Text :=
  (String.fromUTF8? bytes).map String.toList

/-- A file: the components of its path, and its text if it has one. -/
structure Entry where
  components : List Text
  content : Option Text

/-- The components of a path that name something. -/
def namesOf (path : Text) : List Text :=
  (path.splitOn '/').filter fun name => !name.isEmpty && name != ['.']

def Entry.ofPath (path : Text) (content : Option Text) : Entry :=
  ⟨namesOf path, content⟩

/-- The result of reading a file. -/
def Entry.read (e : Entry) : Except ReadFault Text :=
  e.content.elim (.error .notText) .ok

/-- Where a path has led so far: to a directory of the tree, or to one above it. -/
inductive Place where
  | inside (names : List Text)
  | above (levels : Nat)

/-- The directory above a place. -/
def Place.parent : Place → Place
  | .inside [] => .above 1
  | .inside names => .inside names.dropLast
  | .above levels => .above (levels + 1)

/-- Follows the components of a path. -/
def follow (entries : List Entry) : Place → List Text → Except ReadFault Text
  | _, [] => .error .isDirectory
  | place, name :: rest =>
    if name.isEmpty ∨ name = ['.'] then follow entries place rest
    else if name = ['.', '.'] then follow entries place.parent rest
    else
      match place with
      | .above _ => .error .missing
      | .inside names =>
        let here := names ++ [name]
        match entries.find? (·.components == here) with
        | some e => if rest.isEmpty then e.read else .error .notDirectory
        | none =>
          if entries.any (fun e => here.isPrefixOf e.components) then
            follow entries (.inside here) rest
          else .error .missing

/-- The tree that holds just the given files. -/
def ofEntries (entries : List Entry) : FileTree where
  read path :=
    if path.isEmpty then .error .missing
    else if Path.isAbsolute path then
      if (namesOf path).all (· == ['.', '.']) then .error .isDirectory else .error .missing
    else follow entries (.inside []) (path.splitOn '/')

def empty : FileTree :=
  ofEntries []

end FileTree

end ApiPages
