import ColumnTrace.Levels
import ColumnTrace.Scalar

/-!
# SQL syntax trees

A statement is a tree of nodes. A node has a kind, such as `Select` or `Column`, and named arguments
in a fixed order; an argument is a node, a list, or a plain value. The facts that the reader of SQL
text attached to a node (its name, its alias, its text) stand beside the arguments. Searches go
through the nodes among the arguments, lists opened one level.
-/

set_option autoImplicit false

namespace ColumnTrace.Sql

/-- What is known of a node apart from its arguments: whether it is an aggregate function, whether
it is a whole number, its name and alias where it has them, and its text where it can be written.
-/
structure Facts where
  aggregate : Bool
  wholeNumber : Bool
  name : Option String
  aliasText : Option String
  sql : Option String
deriving DecidableEq, Inhabited

mutual

/-- A node of a syntax tree. -/
inductive Node where
  | mk (kind : String) (args : List (String × Value)) (facts : Facts)

/-- An argument of a node. -/
inductive Value where
  | scalar (value : Scalar)
  | typeName (value : String)
  | node (value : Node)
  | list (items : List Value)

end

instance : Inhabited Node := ⟨.mk "" [] default⟩

namespace Value

/-- The value that says nothing. -/
def null : Value := .scalar .null

/-- The node that the value is. -/
def node? : Value → Option Node
  | .node n => some n
  | _ => none

/-- The value is there, whatever it says. -/
def isThere : Value → Bool
  | .scalar .null => false
  | _ => true

/-- The value says something: it is a node, a type, a filled list or text, a number other than zero,
or true. -/
def isGiven : Value → Bool
  | .scalar value => value.isGiven
  | .typeName _ => true
  | .node _ => true
  | .list items => !items.isEmpty

/-- What a value that may be a list goes through: the items of a list, the characters of a text, and
nothing where the value says nothing. Other values cannot be gone through. -/
def items? : Value → Option (List Value)
  | .list items => some items
  | .scalar (.text text) => some (text.toList.map fun c => .scalar (.text (String.ofList [c])))
  | value => if value.isGiven then none else some []

end Value

namespace Node

/-- The kind of the node. -/
def kind : Node → String
  | .mk kind _ _ => kind

/-- The arguments of the node. -/
def args : Node → List (String × Value)
  | .mk _ args _ => args

/-- What is known of the node apart from its arguments. -/
def facts : Node → Facts
  | .mk _ _ facts => facts

/-- The node is of this kind. -/
def is (n : Node) (kind : String) : Bool := n.kind == kind

/-- The value of an argument; a missing argument is null. -/
def arg (n : Node) (name : String) : Value := (n.args.lookup name).getD .null

/-- The node that an argument is. -/
def child? (n : Node) (name : String) : Option Node := (n.arg name).node?

/-- The node's main argument, where it is a node. -/
def this? (n : Node) : Option Node := n.child? "this"

/-- The node's second argument, where it is a node. -/
def expression? (n : Node) : Option Node := n.child? "expression"

/-- The text that was read off the node, or its name. -/
def writtenOrNamed (n : Node) : String := n.facts.sql.getD (n.facts.name.getD "")

/-- The node's kind is one whose name is its main argument. -/
def isNamedByArgument (n : Node) : Bool := n.is "Identifier" || n.is "Literal" || n.is "Var"

end Node

mutual

/-- The text of a value; of a node the text that was read off it. -/
def Value.word : Value → String
  | .scalar value => value.word
  | .typeName name => "Type." ++ name
  | .node n => n.writtenOrNamed
  | .list items => "[" ++ ", ".intercalate (Value.itemWords items) ++ "]"

/-- The texts of the items of a list. -/
def Value.itemWords : List Value → List String
  | [] => []
  | .scalar value :: rest => value.shown :: Value.itemWords rest
  | item :: rest => item.word :: Value.itemWords rest

end

/-- The name that a value stands for. -/
def Value.label : Value → Label
  | .scalar value => value.label
  | value => some value.word

namespace Node

/-- The name of the node. A node that is named by its argument has none where the argument is null;
any other node without a name has an empty one. -/
def name (n : Node) : Label :=
  if n.isNamedByArgument then (n.arg "this").label else some (n.facts.name.getD "")

/-- The alias of the node; empty where it has none. -/
def aliasName (n : Node) : String := n.facts.aliasText.getD ""

/-- The text of an argument: a text itself, or the name of an identifier. -/
def textOf (n : Node) (name : String) : String :=
  match n.arg name with
  | .scalar (.text text) => text
  | .node child => if child.isNamedByArgument || child.is "Star" || child.is "Null" then
      child.name.getD "" else ""
  | _ => ""

/-- The nodes directly below, in the order of the arguments. -/
def children (n : Node) : List Node :=
  n.args.flatMap fun arg => match arg.2 with
    | .node child => [child]
    | .list items => items.filterMap Value.node?
    | _ => []

end Node

mutual

/-- How many nodes stand on the longest way down from a node, the node included. -/
def Node.height : Node → Nat
  | .mk _ args _ => Node.argsHeight args + 1

/-- The greatest height among arguments. -/
def Node.argsHeight : List (String × Value) → Nat
  | [] => 0
  | (_, value) :: rest => max value.height (Node.argsHeight rest)

/-- The greatest height among the nodes of a value. -/
def Value.height : Value → Nat
  | .node n => n.height
  | .list items => Value.itemsHeight items
  | _ => 0

/-- The greatest height among the nodes of values. -/
def Value.itemsHeight : List Value → Nat
  | [] => 0
  | value :: rest => max value.height (Value.itemsHeight rest)

end

mutual

/-- The node and all nodes below it, each before those below it, but none below a node at which the
search stops. -/
def Node.reachable (stop : Node → Bool) : Node → List Node
  | .mk kind args facts =>
    .mk kind args facts ::
      if stop (.mk kind args facts) then [] else Node.reachableArgs stop args

/-- The nodes that a search through arguments reaches. -/
def Node.reachableArgs (stop : Node → Bool) : List (String × Value) → List Node
  | [] => []
  | (_, .node n) :: rest => n.reachable stop ++ Node.reachableArgs stop rest
  | (_, .list items) :: rest => Node.reachableItems stop items ++ Node.reachableArgs stop rest
  | (_, .scalar _) :: rest => Node.reachableArgs stop rest
  | (_, .typeName _) :: rest => Node.reachableArgs stop rest

/-- The nodes that a search through the items of a list reaches. -/
def Node.reachableItems (stop : Node → Bool) : List Value → List Node
  | [] => []
  | .node n :: rest => n.reachable stop ++ Node.reachableItems stop rest
  | .list _ :: rest => Node.reachableItems stop rest
  | .scalar _ :: rest => Node.reachableItems stop rest
  | .typeName _ :: rest => Node.reachableItems stop rest

end

mutual

/-- The node and the nodes below it by levels. -/
def Node.levels : Node → List (List Node)
  | .mk kind args facts => [.mk kind args facts] :: Node.argsLevels args

/-- The nodes of arguments and the nodes below them by levels. -/
def Node.argsLevels : List (String × Value) → List (List Node)
  | [] => []
  | (_, .node n) :: rest => overlay n.levels (Node.argsLevels rest)
  | (_, .list items) :: rest => overlay (Node.itemsLevels items) (Node.argsLevels rest)
  | (_, .scalar _) :: rest => Node.argsLevels rest
  | (_, .typeName _) :: rest => Node.argsLevels rest

/-- The nodes of a list and the nodes below them by levels. -/
def Node.itemsLevels : List Value → List (List Node)
  | [] => []
  | .node n :: rest => overlay n.levels (Node.itemsLevels rest)
  | .list _ :: rest => Node.itemsLevels rest
  | .scalar _ :: rest => Node.itemsLevels rest
  | .typeName _ :: rest => Node.itemsLevels rest

end

namespace Node

/-- The node and all nodes below it, each before those below it. -/
def preorder (n : Node) : List Node := n.reachable fun _ => false

/-- The topmost, among those the leftmost, node of a sort; the node itself may be it. -/
def findTopmost? (sort : Node → Bool) (n : Node) : Option Node := n.levels.flatten.find? sort

end Node

end ColumnTrace.Sql
