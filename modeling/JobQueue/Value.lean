import JobQueue.Binary64.Text
import JobQueue.Dict
import JobQueue.Text.Digits
import JobQueue.Text.Quoted

/-! # Values

Arguments and named variables of jobs are JSON-shaped data. Whole numbers of 64 bits and all other
numbers are kept apart, so `1` and `1.0` stay what they were, and an object keeps its keys in order.
-/

namespace JobQueue

/-- A JSON-shaped value. -/
inductive Value where
  | null
  | bool (flag : Bool)
  | int (number : Int64)
  | float (number : Binary64)
  | string (text : String)
  | array (items : List Value)
  | object (members : List (String × Value))
deriving Repr, Inhabited

namespace Value

/-- The name of the kind of a value. -/
def typeName : Value → String
  | null => "null"
  | bool _ => "boolean"
  | int _ => "integer"
  | float _ => "float"
  | string _ => "string"
  | array _ => "array"
  | object _ => "object"

def isNull : Value → Bool
  | null => true
  | _ => false

def asBool? : Value → Option Bool
  | bool flag => some flag
  | _ => none

def asInt? : Value → Option Int64
  | int number => some number
  | _ => none

/-- A number of either kind as a double. -/
def asFloat? : Value → Option Binary64
  | int number => some (Binary64.ofInt number.toInt)
  | float number => some number
  | _ => none

def asString? : Value → Option String
  | string text => some text
  | _ => none

def asArray? : Value → Option (List Value)
  | array items => some items
  | _ => none

def asObject? : Value → Option (Dict Value)
  | object members => some members
  | _ => none

mutual

/-- Equality of values: doubles compare as numbers, a whole number never equals a double, and the order
of an object's keys does not matter. -/
def same : Value → Value → Bool
  | null, null => true
  | bool a, bool b => a == b
  | int a, int b => a == b
  | float a, float b => a.same b
  | string a, string b => a == b
  | array a, array b => sameItems a b
  | object a, object b => a.length == b.length && sameMembers a b
  | _, _ => false

/-- Items are compared position by position. -/
def sameItems : List Value → List Value → Bool
  | [], [] => true
  | a :: rest, b :: others => same a b && sameItems rest others
  | _, _ => false

/-- Members are compared name by name. -/
def sameMembers : List (String × Value) → List (String × Value) → Bool
  | [], _ => true
  | (name, value) :: rest, others =>
    (match Dict.get? others name with
      | some found => same value found
      | none => false) && sameMembers rest others

end

mutual

/-- The text of a value for people. -/
def shown : Value → String
  | null => "null"
  | bool flag => if flag then "true" else "false"
  | int number => String.ofList (Text.integer number.toInt)
  | float number => NumberLayout.plain.write number
  | string text => Text.quoted text
  | array items => "[" ++ shownItems items ++ "]"
  | object members => "\x7b" ++ shownMembers members ++ "\x7d"

/-- Items separated by commas. -/
def shownItems : List Value → String
  | [] => ""
  | [item] => shown item
  | item :: rest => shown item ++ "," ++ shownItems rest

/-- Members separated by commas, each name quoted. -/
def shownMembers : List (String × Value) → String
  | [] => ""
  | [(name, value)] => Text.quoted name ++ ":" ++ shown value
  | (name, value) :: rest => Text.quoted name ++ ":" ++ shown value ++ "," ++ shownMembers rest

end

end Value

/-- Data that has a value: the forms in which arguments are handed to a job. -/
class ToValue (α : Type) where
  toValue : α → Value

export ToValue (toValue)

instance : ToValue Value := ⟨id⟩
instance : ToValue Bool := ⟨.bool⟩
instance : ToValue Int32 := ⟨fun number => .int number.toInt64⟩
instance : ToValue Int64 := ⟨.int⟩
instance : ToValue Binary64 := ⟨.float⟩
instance : ToValue String := ⟨.string⟩
instance {α : Type} [ToValue α] : ToValue (List α) := ⟨fun items => .array (items.map toValue)⟩
instance {α : Type} [ToValue α] : ToValue (Option α) := ⟨fun item? => (item?.map toValue).getD .null⟩

/-- An ordered dictionary is an object. -/
def Value.ofDict (dict : Dict Value) : Value := .object dict

end JobQueue
