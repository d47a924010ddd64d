import ApiPages.ClassIndex.Basic
import ApiPages.ClassIndex.Builtins
import ApiPages.ClassIndex.Hierarchy
import ApiPages.ClassIndex.Load
import ApiPages.ClassName
import ApiPages.ClassName.Queue
import ApiPages.Codebase
import ApiPages.CommandLine.Args
import ApiPages.CommandLine.Basic
import ApiPages.CommandLine.Run
import ApiPages.Comment.Basic
import ApiPages.Comment.Segment
import ApiPages.Decl.Basic
import ApiPages.Decl.Json
import ApiPages.Doc.Basic
import ApiPages.Doc.Json
import ApiPages.Doc.Title
import ApiPages.Documenter.Build
import ApiPages.Documenter.Member
import ApiPages.Documenter.Session
import ApiPages.Files.Basic
import ApiPages.Files.Path
import ApiPages.Import
import ApiPages.Json.Basic
import ApiPages.Json.Printer
import ApiPages.Json.Reader
import ApiPages.Main
import ApiPages.MemberFilter
import ApiPages.Number.Binary64
import ApiPages.Number.Shortest
import ApiPages.Page.Basic
import ApiPages.Page.Example
import ApiPages.Page.Table
import ApiPages.Pattern.Basic
import ApiPages.Pattern.CharSet
import ApiPages.Pattern.Expr
import ApiPages.Pattern.Token
import ApiPages.Proofs.Asking
import ApiPages.Proofs.BareComment
import ApiPages.Proofs.ByteOrder
import ApiPages.Proofs.Candidate
import ApiPages.Proofs.Cell
import ApiPages.Proofs.ClassName
import ApiPages.Proofs.Correspondence
import ApiPages.Proofs.Cycle
import ApiPages.Proofs.Decoration
import ApiPages.Proofs.Distinct
import ApiPages.Proofs.DocumentedRow
import ApiPages.Proofs.DocumentedType
import ApiPages.Proofs.Donor
import ApiPages.Proofs.ExampleHeading
import ApiPages.Proofs.Failure
import ApiPages.Proofs.Hierarchy
import ApiPages.Proofs.IgnoredClass
import ApiPages.Proofs.ImportPath
import ApiPages.Proofs.ImportScan
import ApiPages.Proofs.ImportSyntax
import ApiPages.Proofs.ImportedName
import ApiPages.Proofs.Indentation
import ApiPages.Proofs.IndexHistory
import ApiPages.Proofs.Irrelevance
import ApiPages.Proofs.LeftOut
import ApiPages.Proofs.Lines
import ApiPages.Proofs.MemberFilter
import ApiPages.Proofs.MemberList
import ApiPages.Proofs.Memory
import ApiPages.Proofs.Merge
import ApiPages.Proofs.MissingDonor
import ApiPages.Proofs.MissingType
import ApiPages.Proofs.NameForms
import ApiPages.Proofs.NormalForm
import ApiPages.Proofs.OwnTags
import ApiPages.Proofs.ParamTags
import ApiPages.Proofs.Provenance
import ApiPages.Proofs.Reach
import ApiPages.Proofs.Replacement
import ApiPages.Proofs.ReturnType
import ApiPages.Proofs.Search
import ApiPages.Proofs.Segment
import ApiPages.Proofs.SelfReference
import ApiPages.Proofs.Session
import ApiPages.Proofs.Spelling
import ApiPages.Proofs.TableHistory
import ApiPages.Proofs.TagOrder
import ApiPages.Proofs.TaggedType
import ApiPages.Proofs.Termination
import ApiPages.Proofs.Text
import ApiPages.Proofs.TypeUnion
import ApiPages.Settings
import ApiPages.Text.Basic
import ApiPages.Text.CaseFold
import ApiPages.Text.CaseTable
import ApiPages.Text.Digits
import ApiPages.Text.Lowercase
import ApiPages.Text.Scan
import ApiPages.Text.WordTable
import ApiPages.Toml.Basic
import ApiPages.Toml.Document
import ApiPages.Toml.Settings
import ApiPages.Toml.Table
import ApiPages.TypeUnion
import ApiPages.TypeUnion.Merge
import ApiPages.TypeUnion.Resolve
