import JobQueue.Binary64.Read
import JobQueue.Dict
import JobQueue.Store

/-! # What a key holds

A key holds a string, a list, a set, a sorted set or a hash. A write applies to its own type and to a
missing key, which it creates; a container that runs empty is no longer held.
-/

namespace JobQueue

/-- What a key holds. Sets are kept in order. -/
inductive Entry where
  | string (value : String)
  | list (items : List String)
  | set (members : List String)
  | sortedSet (scores : Dict Binary64)
  | hash (fields : Dict String)
deriving DecidableEq, Repr

namespace Entry

def type : Entry → KeyType
  | string _ => .string
  | list _ => .list
  | set _ => .set
  | sortedSet _ => .sortedSet
  | hash _ => .hash

def isEmpty : Entry → Bool
  | string _ => false
  | list items => items.isEmpty
  | set members => members.isEmpty
  | sortedSet scores => scores.isEmpty
  | hash fields => fields.isEmpty

end Entry

/-- Puts a member in its place in an ordered set. -/
def insertMember (member : String) : List String → List String
  | [] => [member]
  | head :: rest =>
    if member = head then head :: rest
    else if member < head then member :: head :: rest
    else head :: insertMember member rest

/-- What is held after a write, given what was held before; none if the write applies to another type. -/
def Write.apply? : Write → Option Entry → Option Entry
  | addMember _ member, none => some (.set [member])
  | addMember _ member, some (.set members) => some (.set (insertMember member members))
  | append _ value, none => some (.list [value])
  | append _ value, some (.list items) => some (.list (items ++ [value]))
  | prepend _ value, none => some (.list [value])
  | prepend _ value, some (.list items) => some (.list (value :: items))
  | schedule _ score member, none => some (.sortedSet [(member, score)])
  | schedule _ score member, some (.sortedSet scores) => some (.sortedSet (Dict.insert scores member score))
  | unschedule _ _, none => some (.sortedSet [])
  | unschedule _ member, some (.sortedSet scores) => some (.sortedSet (Dict.erase scores member))
  | setField _ field value, none => some (.hash [(field, value)])
  | setField _ field value, some (.hash fields) => some (.hash (Dict.insert fields field value))
  | dropField _ _, none => some (.hash [])
  | dropField _ field, some (.hash fields) => some (.hash (Dict.erase fields field))
  | _, some _ => none

namespace Schedule

/-- Lower scores come first, and members of one score in their own order. -/
def precedes (a b : String × Binary64) : Bool :=
  a.2.rank < b.2.rank || (a.2.rank == b.2.rank && decide (a.1 ≤ b.1))

/-- The members of a sorted set in order. -/
def inOrder (scores : Dict Binary64) : List (String × Binary64) := scores.mergeSort precedes

/-- The first of the members that are scored at most so high. -/
def firstUpTo (limit : Binary64) : Dict Binary64 → Option (String × Binary64)
  | [] => none
  | entry :: rest =>
    if entry.2.atMost limit then match firstUpTo limit rest with
      | some other => some (if precedes entry other then entry else other)
      | none => some entry
    else firstUpTo limit rest

/-- A score put off by a frequency. -/
def putOff (scores : Dict Binary64) (member : String) (frequency : Binary64) : Dict Binary64 :=
  match Dict.get? scores member with
  | some score => Dict.insert scores member (score.add frequency)
  | none => scores

end Schedule

end JobQueue
