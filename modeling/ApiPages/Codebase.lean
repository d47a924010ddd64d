import ApiPages.ClassIndex.Load
import ApiPages.Import

/-! # The documented code

An index of classes together with the files that hold their sources. -/

namespace ApiPages

structure Codebase where
  index : ClassIndex
  files : FileTree

namespace Codebase

/-- The source text of a class: the text that its declaration holds, or that of its file if the file
can be read. -/
def sourceText (cb : Codebase) (c : ClassDecl) : Option Text :=
  c.source.or (c.file.bind fun path => (cb.files.read path).toOption)

/-- The imports of the source of a class. -/
def importsOf (cb : Codebase) (c : ClassDecl) : List Import :=
  (cb.sourceText c).elim [] Import.ofSource

end Codebase

end ApiPages
