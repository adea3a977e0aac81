import ScopeScript.Location
import ScopeScript.Value.Display

/-!
# Nodes of a scope tree

A script becomes a tree of **nodes**: scopes opened by its brackets and
keywords, and leaves that hold its words. The nodes of a tree stand in one list
and refer to each other by their position in it, their **index**.
-/

namespace ScopeScript

/-- What a node stands for. -/
inductive NodeKind where
  /-- The whole script. -/
  | global
  /-- A function declaration, or its header. -/
  | function
  /-- The parameter list of a function. -/
  | functionParams
  /-- A parameter of a function or an argument of a call. -/
  | functionParam
  /-- The body of a function. -/
  | functionImpl
  /-- A class declaration. -/
  | «class»
  /-- An enumeration. -/
  | enum
  /-- A method. -/
  | method
  /-- A call. -/
  | call
  /-- A block, or a word standing alone. -/
  | none
deriving DecidableEq, Repr

namespace NodeKind

/-- All kinds of node. -/
def all : List NodeKind :=
  [global, function, functionParams, functionParam, functionImpl, «class», enum, method, call, none]

/-- The name of a kind of node. -/
def text : NodeKind → String
  | global => "Global"
  | function => "Function"
  | functionParams => "FunctionParams"
  | functionParam => "FunctionParam"
  | functionImpl => "FunctionImpl"
  | «class» => "Class"
  | enum => "Enum"
  | method => "Method"
  | call => "Call"
  | none => "None"

/-- Whether the kind is that of a type declaration. -/
def isType : NodeKind → Bool
  | «class» | enum => true
  | _ => false

/-- Whether a node of this kind is a leaf when nothing is below it. -/
def isLeaf : NodeKind → Bool
  | none | functionParam => true
  | _ => false

end NodeKind

/-- A node of a scope tree. -/
structure Node where
  /-- What it stands for. -/
  kind : NodeKind
  /-- Where it begins. -/
  location : Location
  /-- Index of the node it belongs to; the root belongs to none. -/
  parent : Option Nat := Option.none
  /-- Indices of the nodes that belong to it, left to right. -/
  children : List Nat := []
  /-- Its name. -/
  name : Option String := Option.none
  /-- Its value. -/
  value : Option Value := Option.none
  /-- Whether its text was quoted in the script. -/
  quoted : Bool := false
deriving Repr

namespace Node

/-- Whether nothing is above the node. -/
def isRoot (n : Node) : Bool := n.parent.isNone

/-- A short description: kind, name and value. -/
def text (n : Node) : String :=
  n.kind.text ++ (n.name.map (" " ++ ·)).getD "" ++
    (n.value.map fun v => " -> " ++ v.display).getD ""

/-- The heading of the node in a listing. -/
def heading (n : Node) : String :=
  n.kind.text ++ (n.name.map (" " ++ ·)).getD "" ++
    (n.value.map fun v => " = " ++ v.literal).getD ""

/-- A full description of the node with a given index. -/
def summary (index : Nat) (n : Node) : String :=
  "<SyntaxNode #" ++ toString index ++ " " ++ n.kind.text ++
    (n.name.map fun s => " " ++ Text.quoted s).getD "" ++
    (n.value.map fun v => " -> " ++ v.constructor).getD "" ++ ">"

end Node

end ScopeScript
