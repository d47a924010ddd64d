import ApiPages.CommandLine.Basic
import ApiPages.Text.Scan

/-! # Arguments

`Invocation.ofArgs?` reads the arguments of the command line.  Options have long names and some of them
short ones; short options may be written together, and a value may be attached to its option.  Options
that only ask for help or for the version are not among them. -/

namespace ApiPages

/-- An option without a value. -/
inductive Switch where
  | see
  | noExamples
  | verbose
deriving DecidableEq, Repr

/-- An option with a value. -/
inductive Key where
  | className
  | visibility
  | methodPattern
  | format
  | settings
deriving DecidableEq, Repr

/-- What an option is called by. -/
inductive OptionName where
  | switch (s : Switch)
  | key (k : Key)
deriving DecidableEq, Repr

namespace OptionName

def long : List (String × OptionName) :=
  [("class", .key .className), ("visibility", .key .visibility),
    ("method-pattern", .key .methodPattern), ("format", .key .format), ("config", .key .settings),
    ("see", .switch .see), ("no-examples", .switch .noExamples), ("verbose", .switch .verbose)]

def short : List (Char × OptionName) :=
  [('c', .key .className), ('f', .key .format), ('v', .switch .verbose)]

def ofLong? (name : Text) : Option OptionName :=
  long.lookup (String.ofList name)

def ofShort? (c : Char) : Option OptionName :=
  short.lookup c

end OptionName

/-- A part of the arguments. -/
inductive Arg where
  | operand (s : Text)
  | switch (s : Switch)
  | option (k : Key) (value : Text)
deriving DecidableEq, Repr

namespace Arg

/-- Reads an option with a long name, given without its dashes.  A key without an attached value waits
for one, and is given back beside the parts. -/
def ofLong? (s : Text) : Option (List Arg × Option Key) :=
  let (name, attached) := Text.takeRun (· != '=') s
  match OptionName.ofLong? name, attached with
  | some (.switch w), [] => some ([.switch w], none)
  | some (.key k), [] => some ([], some k)
  | some (.key k), _ :: value => some ([.option k value], none)
  | _, _ => none

/-- Reads options with short names, given without their dash.  The rest after a key is its value. -/
def ofShort? : Text → Option (List Arg × Option Key)
  | [] => some ([], none)
  | c :: rest =>
    match OptionName.ofShort? c with
    | none => none
    | some (.switch w) =>
      (ofShort? rest).map fun (args, waiting) => (.switch w :: args, waiting)
    | some (.key k) =>
      match rest with
      | [] => some ([], some k)
      | '=' :: value => some ([.option k value], none)
      | value => some ([.option k value], none)

/-- Reads one argument. -/
def ofText? (s : Text) : Option (List Arg × Option Key) :=
  match s with
  | '-' :: '-' :: rest => ofLong? rest
  | '-' :: c :: rest => ofShort? (c :: rest)
  | _ => some ([.operand s], none)

/-- Whether an argument can be the value of the option before it. -/
def isValue (s : Text) : Bool :=
  s = ['-'] || !Text.startsWith s "-"

/-- Reads all arguments.  After two dashes all arguments are operands. -/
def ofTexts? : List Text → Option (List Arg)
  | [] => some []
  | s :: rest =>
    if s = ['-', '-'] then some (rest.map .operand)
    else
      match ofText? s with
      | none => none
      | some (args, none) => (ofTexts? rest).map (args ++ ·)
      | some (args, some k) =>
        match rest with
        | [] => none
        | value :: rest =>
          if isValue value then (ofTexts? rest).map (args ++ .option k value :: ·) else none

end Arg

namespace Invocation

/-- Adds a switch, which may be given once. -/
def addSwitch? (i : Invocation) : Switch → Option Invocation
  | .see => if i.see then none else some { i with see := true }
  | .noExamples => if i.noExamples then none else some { i with noExamples := true }
  | .verbose => if i.verbose then none else some { i with verbose := true }

/-- Adds an option with its value.  Classes and properties may be given many times, properties also
with commas between them. -/
def addOption? (i : Invocation) (k : Key) (value : Text) : Option Invocation :=
  match k with
  | .className => some { i with classes := i.classes ++ [value] }
  | .visibility => do
    let properties ← (value.splitOn ',').mapM fun name => (MethodProperty.ofText name).toOption
    pure { i with properties := i.properties ++ properties }
  | .methodPattern =>
    if i.methodPattern.isSome then none else some { i with methodPattern := some value }
  | .format => do
    let format ← Format.ofName? value
    if i.format.isSome then none else some { i with format := some format }
  | .settings =>
    if i.settingsPath.isSome ∨ value.isEmpty then none
    else some { i with settingsPath := some value }

/-- Adds a part of the arguments. -/
def add? (i : Invocation) : Arg → Option Invocation
  | .operand path => if path.isEmpty then none else some { i with documents := i.documents ++ [path] }
  | .switch s => i.addSwitch? s
  | .option k value => i.addOption? k value

/-- Reads the arguments; there must be a document among them. -/
def ofArgs? (args : List Text) : Option Invocation := do
  let parts ← Arg.ofTexts? args
  let i ← parts.foldlM add? {}
  if i.documents.isEmpty then none else some i

end Invocation

end ApiPages
