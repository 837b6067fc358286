import JobQueue.Binary64.Read
import JobQueue.Binary64.Text
import JobQueue.Dict
import JobQueue.Text.Digits

/-! # Settings and their values

Settings make a tree of branches, whose settings have names, and rows, whose settings have places. A value
reads as a truth value or a number if it is written like one, and is turned into what the setting needs:
numbers into texts, words like `yes` into truth values, fractions into the nearest whole number.
-/

namespace JobQueue

/-- What a variable holds. -/
inductive Scalar where
  | flag (value : Bool)
  | whole (value : Int)
  | number (value : Binary64)
  | text (value : String)
deriving DecidableEq, Repr

namespace Scalar

def lower (text : String) : String := String.ofList (text.toList.map Char.toLower)

/-- A truth value, a whole number, a number or, failing these, a text. -/
def ofText (text : String) : Scalar :=
  if lower text = "true" then flag true
  else if lower text = "false" then flag false
  else match Text.int64? text.toList with
    | some value => whole value
    | none => match Binary64.ofText? text with
      | some value => number value
      | none => .text text

/-- Every value is a text. -/
def toText : Scalar → String
  | flag value => if value then "true" else "false"
  | whole value => String.ofList (Text.integer value)
  | number value => NumberLayout.plain.write value
  | text value => value

/-- A number is true unless it is zero, and a few words have a meaning. -/
def toFlag? : Scalar → Option Bool
  | flag value => some value
  | whole value => some (value != 0)
  | number value => some (!value.same (Binary64.zero false))
  | text value =>
    if lower value ∈ ["1", "true", "on", "yes"] then some true
    else if lower value ∈ ["0", "false", "off", "no"] then some false
    else none

/-- The nearest natural number of 64 bits; a half is rounded up. -/
def nearestNatural (x : Binary64) : Nat :=
  if x.isNaN || x.negative then 0
  else if x.isInfinite then UInt64.size - 1
  else min ((2 * Binary64.unitsOf x.magnitude + Binary64.one) / (2 * Binary64.one)) (UInt64.size - 1)

/-- A natural number: fractions are rounded, and a few words have a meaning. -/
def toNatural? : Scalar → Option Nat
  | flag value => some (if value then 1 else 0)
  | whole value => if 0 ≤ value then some value.toNat else none
  | number value => some (nearestNatural value)
  | text value =>
    if lower value ∈ ["true", "on", "yes"] then some 1
    else if lower value ∈ ["false", "off", "no"] then some 0
    else none

end Scalar

/-- A step on the way to a setting: a name, or a place in a row. -/
inductive SettingStep where
  | name (name : String)
  /-- An index counts from zero or, if it is negative, from behind the end. -/
  | place (index : Int)
deriving DecidableEq, Repr

/-- Settings by their paths. -/
inductive SettingTree where
  /-- A place in a row that nothing was put into. -/
  | gap
  | leaf (value : Scalar)
  | row (items : List SettingTree)
  | branch (entries : List (String × SettingTree))

namespace SettingTree

/-- The settings below a branch; there are none elsewhere. -/
def entries : SettingTree → Dict SettingTree
  | branch entries => entries
  | _ => []

/-- The settings in a row; there are none elsewhere. -/
def items : SettingTree → List SettingTree
  | row items => items
  | _ => []

/-- Changes the item at an index. A row that is too short is filled up with gaps, at its end or, for an
index from behind, at its beginning. -/
def modifyAt (items : List SettingTree) (index : Int) (change : SettingTree → SettingTree) :
    List SettingTree :=
  if 0 ≤ index then
    let items := items ++ List.replicate (index.toNat + 1 - items.length) gap
    items.modify index.toNat change
  else
    let items := List.replicate (index.natAbs - items.length) gap ++ items
    items.modify (items.length - index.natAbs) change

/-- Puts a value at the end of a path. What stood in its way is replaced. -/
def insert (tree : SettingTree) (value : Scalar) : List SettingStep → SettingTree
  | [] => leaf value
  | .name name :: path =>
    let below := (Dict.get? tree.entries name).getD gap
    branch (Dict.insert tree.entries name (below.insert value path))
  | .place index :: path => row (modifyAt tree.items index fun below => below.insert value path)

def text? : SettingTree → Option String
  | leaf value => some value.toText
  | _ => none

/-- A text, which a gap leaves out. -/
def optionalText? : SettingTree → Option (Option String)
  | gap => some none
  | tree => tree.text?.map some

def flag? : SettingTree → Option Bool
  | leaf value => value.toFlag?
  | _ => none

/-- A natural number below a limit. -/
def natural? (limit : Nat) : SettingTree → Option Nat
  | leaf value => value.toNatural?.filter (· < limit)
  | _ => none

/-- The settings of a group by name and place: those of a branch have names, those of a row places. -/
def group? : SettingTree → Option (String → Nat → Option SettingTree)
  | branch entries => some fun name _ => Dict.get? entries name
  | row items => some fun _ place => items[place]?
  | _ => none

end SettingTree

/-- Reads what was found for a setting; if nothing was, the default counts. -/
def readSetting {α : Type} (found : Option SettingTree) (read : SettingTree → Option α) (default : α) :
    Option α :=
  match found with
  | some found => read found
  | none => some default

end JobQueue
