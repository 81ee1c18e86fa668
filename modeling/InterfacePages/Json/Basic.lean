/-
JSON values as they are read: object keys keep the order in which they first appear, whole numbers are unbounded, and
a number written with a point or an exponent is a double.

`display` is how a value appears inside a message.
-/
import InterfacePages.Number.Shortest
import InterfacePages.Text.Quoted

namespace InterfacePages

inductive Json where
  | null
  | bool (b : Bool)
  | int (n : Int)
  | float (x : Float)
  | text (t : Text)
  | array (items : List Json)
  | object (fields : List (Text × Json))
  deriving Repr, Inhabited

namespace Json

mutual

/-- a value inside a message: names of constants, quoted text, brackets and braces -/
def display : Json → Text
  | .null => "None"
  | .bool b => if b then "True" else "False"
  | .int n => Number.integer n
  | .float x => Number.floatText x
  | .text t => Text.quoted t
  | .array items => "[" ++ displayItems items ++ "]"
  | .object fields => "\x7b" ++ displayFields fields ++ "\x7d"

/-- the items of an array inside a message -/
def displayItems : List Json → Text
  | [] => []
  | [x] => display x
  | x :: rest => display x ++ (", " ++ displayItems rest)

/-- the fields of an object inside a message -/
def displayFields : List (Text × Json) → Text
  | [] => []
  | [(k, x)] => Text.quoted k ++ (": " ++ display x)
  | (k, x) :: rest => Text.quoted k ++ (": " ++ (display x ++ (", " ++ displayFields rest)))

end

/-- the value of an object's field -/
def field? (name : Text) : Json → Option Json
  | .object fields => (fields.find? (·.1 == name)).map (·.2)
  | _ => none

end Json

end InterfacePages
