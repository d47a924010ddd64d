import ApiPages.Toml.Table

/-! # TOML documents

A document is a list of statements: headers of tables, and pairs of a key and a value.  `parse?` reads
the statements and enters them one after another into a table.  A key that is defined twice, or a table
that is extended where that is not allowed, makes the document invalid. -/

namespace ApiPages

namespace Toml

/-! ### Keys and values -/

def isBareKeyChar (c : Char) : Bool :=
  c.isAlphanum || c == '_' || c == '-'

/-- Reads one part of a key. -/
def keyPart? (s : Text) : Option (Text × Text) :=
  match s with
  | '"' :: rest => basicString? rest
  | '\x27' :: rest => literalString? rest
  | _ =>
    let (name, rest) := Text.takeRun isBareKeyChar s
    if name.isEmpty then none else some (name, rest)

/-- Reads a dotted key with the blanks after it. -/
def key? (s : Text) : Option (List Text × Text) :=
  match keyPart? (dropBlanks s) with
  | none => none
  | some (part, rest) =>
    match dropBlanks rest with
    | '.' :: rest =>
      if rest.length < s.length then (key? rest).map fun (parts, rest) => (part :: parts, rest)
      else none
    | rest => some ([part], rest)
termination_by s.length

/-- Reads what stands between brackets: items with commas between them and perhaps after the last one,
with blanks, comments and line ends anywhere. -/
def items? (close : Char) (item : Text → Option (α × Text)) (s : Text) :
    Option (List α × Text) :=
  match dropIdle s with
  | [] => none
  | c :: rest =>
    if c = close then some ([], rest)
    else
      match item (c :: rest) with
      | none => none
      | some (v, rest) =>
        match dropIdle rest with
        | [] => none
        | c :: rest =>
          if c = close then some ([v], rest)
          else if c = ',' ∧ rest.length < s.length then
            (items? close item rest).map fun (vs, rest) => (v :: vs, rest)
          else none
termination_by s.length

/-- Reads a key and a value with an equals sign between them. -/
def pair? (value : Text → Option (α × Text)) (s : Text) : Option ((List Text × α) × Text) := do
  let (path, rest) ← key? s
  match rest with
  | '=' :: rest =>
    let (v, rest) ← value (dropBlanks rest)
    pure ((path, v), rest)
  | _ => none

/-- How deep arrays and tables may be nested. -/
def maxDepth : Nat := 80

/-- Reads a value in which arrays and tables are nested at most `depth` times. -/
def value? (depth : Nat) (s : Text) : Option (Value × Text) :=
  match depth, s with
  | depth + 1, '[' :: rest =>
    (items? ']' (value? depth) rest).map fun (vs, rest) => (.array vs, rest)
  | depth + 1, '{' :: rest => do
    let (entries, rest) ← items? '}' (pair? (value? depth)) rest
    let fields ← entries.foldlM (fun fields (path, v) => enter? path v fields) []
    pure (.table .inline fields, rest)
  | _, '"' :: _ => (string? s).map fun (t, rest) => (.string t, rest)
  | _, '\x27' :: _ => (string? s).map fun (t, rest) => (.string t, rest)
  | _, _ => scalar? s

/-! ### Statements -/

inductive Statement where
  /-- The header of a table. -/
  | table (path : List Text)
  /-- The header of the next table of an array. -/
  | tableItem (path : List Text)
  | pair (path : List Text) (v : Value)

/-- Reads a statement at the start of a line. -/
def statement? (s : Text) : Option (Statement × Text) :=
  match s with
  | '[' :: '[' :: rest => do
    let (path, rest) ← key? rest
    match rest with
    | ']' :: ']' :: rest => pure (.tableItem path, rest)
    | _ => none
  | '[' :: rest => do
    let (path, rest) ← key? rest
    match rest with
    | ']' :: rest => pure (.table path, rest)
    | _ => none
  | _ => do
    let ((path, v), rest) ← pair? (value? maxDepth) s
    pure (.pair path v, rest)

/-- Reads the next statement with the end of its line; none if only blanks and comments are left. -/
def line? (_ : Unit) (s : Text) : Option (Option Statement × Unit × Text) :=
  match dropIdle s with
  | [] => some (none, (), [])
  | s => do
    let (statement, rest) ← statement? s
    let rest ← endLine? rest
    pure (some statement, (), rest)

/-- The statements of a text, which may start with a byte order mark. -/
def statements? (s : Text) : Option (List Statement) :=
  let s := match s with
    | '\ufeff' :: rest => rest
    | _ => s
  (Text.scanAll line? () s).map fun (statements, _) => statements.filterMap id

/-! ### Entering statements -/

/-- The fields so far, and the table to which pairs belong. -/
structure Builder where
  root : Fields := []
  current : List Text := []

/-- Opens the value at a path by a header. -/
def Builder.open? (b : Builder) (path : List Text) (f : Option Value → Option Value) :
    Option Builder := do
  let key ← path.getLast?
  let root ← within? .implicit (update? key f) path.dropLast b.root
  pure ⟨root, path⟩

/-- Enters a statement. -/
def Builder.step? (b : Builder) : Statement → Option Builder
  | .table path => b.open? path openTable?
  | .tableItem path => b.open? path openItem?
  | .pair path v => do
    let root ← within? .implicit (enter? path v) b.current b.root
    pure { b with root := root }

/-- The fields of a document, if it is valid. -/
def parse? (s : Text) : Option Fields := do
  let statements ← statements? s
  let b ← statements.foldlM Builder.step? {}
  pure b.root

end Toml

end ApiPages
