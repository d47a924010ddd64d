import ApiPages.MemberFilter
import ApiPages.Pattern.Token

/-! # Patterns as regular expressions

A pattern is written as a regular expression.  It is parsed by a run over its tokens with a stack of the
groups and classes that are still open.  The expressions have no character classes by Unicode property, no
mode with free spacing and none for ASCII alone. -/

namespace ApiPages

namespace Pattern

/-- The flags in force. -/
structure Flags where
  caseless : Bool := false
  multiLine : Bool := false
  dotAll : Bool := false

def Flags.set (value : Bool) (flags : Flags) : Flag → Flags
  | .caseless => { flags with caseless := value }
  | .multiLine => { flags with multiLine := value }
  | .dotAll => { flags with dotAll := value }
  | .idle _ => flags

def Flags.change (flags : Flags) (c : FlagChange) : Flags :=
  c.off.foldl (Flags.set false) (c.on.foldl (Flags.set true) flags)

/-- A group that is still open: its finished alternatives and the items of the current one, both in
reverse order. -/
structure Group where
  flags : Flags
  alternatives : List Expr := []
  items : List Expr := []
  /-- Whether a repetition may come next. -/
  repeatable : Bool := false

def Group.push (g : Group) (e : Expr) : Group :=
  { g with items := e :: g.items, repeatable := true }

/-- The current alternative. -/
def Group.current (g : Group) : Expr :=
  g.items.foldl (fun rest e => .seq e rest) .empty

def Group.bar (g : Group) : Group :=
  { g with alternatives := g.current :: g.alternatives, items := [], repeatable := false }

def Group.finish (g : Group) : Expr :=
  g.alternatives.foldl (fun rest e => .alt e rest) g.current

/-- Repeats the last item. -/
def Group.rep? (g : Group) (least : Nat) (most : Option Nat) : Option Group :=
  match g.repeatable, g.items with
  | true, e :: items => some { g with items := .rep e least most :: items }
  | _, _ => none

/-- A character class that is still open. -/
structure Class where
  negated : Bool
  caseless : Bool
  members : CharSet := .none
  /-- An operator with its left side. -/
  pending : Option (SetOp × CharSet) := none

def Class.add (c : Class) (s : CharSet) : Class :=
  { c with members := .union c.members s }

def SetOp.apply : SetOp → CharSet → CharSet → CharSet
  | .inter => .inter
  | .diff => .diff
  | .symmDiff => .symmDiff

/-- The members with the pending operator applied. -/
def Class.combined (c : Class) : CharSet :=
  c.pending.elim c.members fun (op, left) => op.apply left c.members

def Class.operator (c : Class) (op : SetOp) : Class :=
  { c with members := .none, pending := some (op, c.combined) }

def Class.finish (c : Class) : CharSet :=
  if c.negated then .compl c.combined else c.combined

/-- What is still open, innermost first, and the names of groups so far. -/
structure Parse where
  groups : List Group
  classes : List Class := []
  names : List Text := []

/-- The set of a range, up to case if the flag is on. -/
def rangeSet (caseless : Bool) (first last : Char) : CharSet :=
  if caseless then .caselessRange first last else .range first last

/-- The innermost group with an item added. -/
def Parse.push? (p : Parse) (item : Flags → Expr) : Option Parse :=
  match p.groups with
  | g :: groups => some { p with groups := g.push (item g.flags) :: groups }
  | [] => none

/-- The innermost class with members added. -/
def Parse.add? (p : Parse) (set : Bool → CharSet) : Option Parse :=
  match p.classes with
  | c :: classes => some { p with classes := c.add (set c.caseless) :: classes }
  | [] => none

/-- Opens a class. -/
def Parse.openClass (p : Parse) (negated : Bool) (literals : Text) : Parse :=
  let caseless := p.groups.head?.any (·.flags.caseless)
  let members := literals.foldl (fun s c => .union s (rangeSet caseless c c)) CharSet.none
  { p with classes := { negated, caseless, members } :: p.classes }

/-- Closes the innermost class. -/
def Parse.closeClass? (p : Parse) : Option Parse :=
  match p.classes with
  | [] => none
  | [c] => { p with classes := [] }.push? fun _ => .char c.finish
  | c :: outer :: classes => some { p with classes := outer.add c.finish :: classes }

/-- Opens a group; a name may be used once. -/
def Parse.openGroup? (p : Parse) (change : FlagChange) (name : Option Text) : Option Parse :=
  match p.groups with
  | [] => none
  | g :: groups =>
    if name.any p.names.contains then none
    else some { p with
      groups := { flags := g.flags.change change } :: g :: groups
      names := name.toList ++ p.names }

/-- Closes the innermost group. -/
def Parse.closeGroup? (p : Parse) : Option Parse :=
  match p.groups with
  | g :: outer :: groups => some { p with groups := outer.push g.finish :: groups }
  | _ => none

/-- Reads one token. -/
def Parse.step? (p : Parse) : Token → Option Parse
  | .literal c => p.push? fun f => .char (rangeSet f.caseless c c)
  | .set s => p.push? fun _ => .char s
  | .dot => p.push? fun f => .char (if f.dotAll then .all else .notNewline)
  | .caret => p.push? fun f => .look (if f.multiLine then .lineStart else .textStart)
  | .dollar => p.push? fun f => .look (if f.multiLine then .lineEnd else .textEnd)
  | .look l => p.push? fun _ => .look l
  | .openGroup change name => p.openGroup? change name
  | .flags change =>
    match p.groups with
    | g :: groups =>
      let g := { g with flags := g.flags.change change, repeatable := false }
      some { p with groups := g :: groups }
    | [] => none
  | .closeGroup => p.closeGroup?
  | .bar =>
    match p.groups with
    | g :: groups => some { p with groups := g.bar :: groups }
    | [] => none
  | .rep least most =>
    match p.groups with
    | g :: groups => (g.rep? least most).map fun g => { p with groups := g :: groups }
    | [] => none
  | .openClass negated literals => some (p.openClass negated literals)
  | .classRange first last => p.add? fun caseless => rangeSet caseless first last
  | .classSet s => p.add? fun caseless => if caseless then s.caseless else s
  | .classOp op =>
    match p.classes with
    | c :: classes => some { p with classes := c.operator op :: classes }
    | [] => none
  | .closeClass => p.closeClass?

/-- The expression written in a text, if it is well formed. -/
def parse? (s : Text) : Option Expr := do
  let tokens ← tokens? s
  let p ← tokens.foldlM Parse.step? ⟨[{ flags := {} }], [], []⟩
  match p.groups with
  | [g] => some g.finish
  | _ => none

/-- Reads a pattern, if it is well formed. -/
def ofText? (s : Text) : Option Pattern :=
  (parse? s).map fun e => ⟨s, e.occursIn⟩

end Pattern

end ApiPages
