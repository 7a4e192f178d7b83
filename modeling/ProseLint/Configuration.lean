import ProseLint.Text

/-!
# Rule configuration

A configuration is a tree of named nodes, each with attributes in the order in which their names
first came. The nodes are numbered in the order of their creation; the root has number 0, and its
children are the validators to build.
-/
namespace ProseLint

/-- Why a validator could not be set up. -/
inductive ConfigError where
  | missing (reason : Text)
  | unknownValidator (name : Text)
  | missingParameter (validator parameter : Text)
  | invalidParameter (validator parameter value : Text)
  | missingResource (validator resource : Text)
  deriving DecidableEq, Repr

namespace ConfigError

def message : ConfigError → Text
  | missing reason => "configuration is missing or malformed: ".toList ++ reason
  | unknownValidator name => "unknown validator '".toList ++ name ++ ['\'']
  | missingParameter validator parameter =>
    "validator '".toList ++ validator ++ "' requires the '".toList ++ parameter ++
      "' property".toList
  | invalidParameter validator parameter value =>
    "validator '".toList ++ validator ++ "': invalid value '".toList ++ value ++ "' for '".toList ++
      parameter ++ ['\'']
  | missingResource validator resource =>
    "validator '".toList ++ validator ++ "' requires the ".toList ++ resource

end ConfigError

/-- A mapping whose keys stand in the order of their first occurrence. -/
abbrev Attributes := List (Text × Text)

namespace Attributes

def get? (key : Text) (as : Attributes) : Option Text := as.lookup key

/-- A known key keeps its place and takes the new value. -/
def set (key value : Text) : Attributes → Attributes
  | [] => [(key, value)]
  | (k, v) :: rest => if k = key then (k, value) :: rest else (k, v) :: set key value rest

end Attributes

structure ConfigNode where
  name : Text
  attributes : Attributes := []
  parent : Option Nat := none
  children : List Nat := []
  deriving DecidableEq, Repr

/-- The greatest number that a numeric property may have. -/
def maxNumber : Nat := UInt64.size - 1

/-- A number in decimal digits, with an optional plus sign in front, up to `maxNumber`. -/
def parseNumber? (t : Text) : Option Nat :=
  let digits := match t with
    | '+' :: rest => rest
    | _ => t
  if digits.isEmpty || !digits.all Char.isDigit then none
  else
    let n := digits.foldl (fun n c => 10 * n + (c.toNat - '0'.toNat)) 0
    if n ≤ maxNumber then some n else none

namespace ConfigNode

def attribute? (key : Text) (node : ConfigNode) : Option Text := node.attributes.get? key

/-- An attribute that must be there. -/
def required (key : Text) (node : ConfigNode) : Except ConfigError Text :=
  match node.attribute? key with
  | some value => .ok value
  | none => .error (.missingParameter node.name key)

/-- A numeric attribute, blanks around it not counted, or the default when it is absent. -/
def numberOr (key : Text) (default : Nat) (node : ConfigNode) : Except ConfigError Nat :=
  match node.attribute? key with
  | none => .ok default
  | some value =>
    match parseNumber? (Text.trim value) with
    | some n => .ok n
    | none => .error (.invalidParameter node.name key value)

def textOr (key default : Text) (node : ConfigNode) : Text := (node.attribute? key).getD default

end ConfigNode

structure Configuration where
  nodes : List ConfigNode
  deriving DecidableEq, Repr

namespace Configuration

/-- A configuration of the root alone. -/
def ofRoot (name : Text) : Configuration := ⟨[{ name := name }]⟩

def node? (i : Nat) (c : Configuration) : Option ConfigNode := c.nodes[i]?

/-- The number of nodes, the root included. -/
def size (c : Configuration) : Nat := c.nodes.length

/-- A new node, the last child of `parent`. -/
def addChild (parent : Nat) (name : Text) (c : Configuration) : Configuration :=
  let linked := c.nodes.modify parent fun n => { n with children := n.children ++ [c.size] }
  ⟨linked ++ [{ name := name, parent := some parent }]⟩

def setAttribute (i : Nat) (key value : Text) (c : Configuration) : Configuration :=
  ⟨c.nodes.modify i fun n => { n with attributes := n.attributes.set key value }⟩

def childrenOf (i : Nat) (c : Configuration) : List ConfigNode :=
  match c.node? i with
  | some n => n.children.filterMap (c.node? ·)
  | none => []

/-- The nodes of the validators to build, in declaration order. -/
def validators (c : Configuration) : List ConfigNode := c.childrenOf 0

/-- No validator is configured. -/
def isEmpty (c : Configuration) : Bool := c.validators.isEmpty

end Configuration

end ProseLint
