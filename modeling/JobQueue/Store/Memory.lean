import JobQueue.Store.Entry

/-! # A store in memory

Time is a count of milliseconds that moves only when it is told to. A key whose time has come goes away
when a request looks at it, and not every request looks at every key it reads. Failures can be arranged:
an unreachable store refuses every request, and one transaction can be made to be discarded.
-/

namespace JobQueue

/-- What a key holds and the time at which it expires. -/
structure Slot where
  entry : Entry
  expiresAt : Option Nat := none
deriving DecidableEq, Repr

/-- Keys and what they hold. -/
abbrev Slots := Dict Slot

namespace Slots

def entry? (slots : Slots) (key : String) : Option Entry := (Dict.get? slots key).map Slot.entry

def hasExpired (slots : Slots) (now : Nat) (key : String) : Bool :=
  match (Dict.get? slots key).bind Slot.expiresAt with
  | some time => decide (time ≤ now)
  | none => false

/-- Drops a key whose time has come. -/
def purge (slots : Slots) (now : Nat) (key : String) : Slots :=
  if slots.hasExpired now key then Dict.erase slots key else slots

/-- Replaces what a key holds. The time at which it expires stays; an empty container goes. -/
def put (slots : Slots) (key : String) (entry : Entry) : Slots :=
  if entry.isEmpty then Dict.erase slots key
  else Dict.insert slots key ⟨entry, (Dict.get? slots key).bind Slot.expiresAt⟩

/-- Makes one write. -/
def write (slots : Slots) (now : Nat) (write : Write) : Except StoreError Slots :=
  let slots := slots.purge now write.key
  match write.apply? (slots.entry? write.key) with
  | some entry => .ok (slots.put write.key entry)
  | none => .error (.wrongType write.key)

/-- Makes writes one after the other, up to the first that fails. -/
def writeAll (slots : Slots) (now : Nat) : List Write → Except StoreError Slots
  | [] => .ok slots
  | write :: rest => match slots.write now write with
    | .ok slots => slots.writeAll now rest
    | .error error => .error error

/-- The frequency of a member, if its field spells a number. -/
def frequency? (slots : Slots) (key member : String) : Option Binary64 :=
  match slots.entry? key with
  | some (.hash fields) => (Dict.get? fields member).bind Binary64.ofText?
  | _ => none

/-- Takes the job that comes next at a time from a queue. -/
def takeReady (slots : Slots) (route : Route) (now : Int) : Option String × Slots :=
  match slots.entry? route.queue with
  | some (.sortedSet scores) => match Schedule.firstUpTo (Binary64.ofInt now) scores with
    | none => (none, slots)
    | some (member, _) =>
      let left := match slots.frequency? route.recurring member with
        | some frequency => Schedule.putOff scores member frequency
        | none => Dict.erase scores member
      (some member, slots.put route.queue (.sortedSet left))
  | some (.list (head :: rest)) => (some head, slots.put route.queue (.list rest))
  | _ => (none, slots)

/-- Takes the head of a list; anything else has none. -/
def takeHead (slots : Slots) (key : String) : Option String × Slots :=
  match slots.entry? key with
  | some (.list (head :: rest)) => (some head, slots.put key (.list rest))
  | _ => (none, slots)

/-- Whether a member has a frequency, be it a number or not. -/
def isRecurring (slots : Slots) (key member : String) : Bool :=
  match slots.entry? key with
  | some (.hash fields) => (Dict.get? fields member).isSome
  | _ => false

/-- The write that brings a job back to its queue. -/
def returnWrite (slots : Slots) (key payload : String) (now : Int) : Write :=
  match slots.entry? key with
  | some (.sortedSet _) => .schedule key (Binary64.ofInt now) payload
  | _ => .prepend key payload

end Slots

/-- A store in memory. -/
structure Memory where
  slots : Slots := []
  /-- Milliseconds since the start. -/
  clock : Nat := 0
  /-- The messages that were sent, with their channels. -/
  published : List (String × String) := []
  /-- How many listen on a channel. -/
  subscribers : Dict Nat := []
  discardNext : Bool := false
  unavailable : Bool := false
  /-- The number of transactions that were made. -/
  transactions : Nat := 0
deriving Repr

namespace Memory

/-- Whether no key is held, expired ones included. -/
def isEmpty (memory : Memory) : Bool := memory.slots.isEmpty

def purge (memory : Memory) (key : String) : Memory :=
  { memory with slots := memory.slots.purge memory.clock key }

def entry? (memory : Memory) (key : String) : Option Entry := memory.slots.entry? key

/-- The type of a key, looked at whether or not the store can be reached. -/
def typeOf (memory : Memory) (key : String) : KeyType × Memory :=
  let memory := memory.purge key
  (((memory.entry? key).map Entry.type).getD .absent, memory)

/-- Writes a string that does not expire, whatever the key held. -/
def setString (memory : Memory) (key value : String) : Memory :=
  { memory with slots := Dict.insert memory.slots key ⟨.string value, none⟩ }

/-- A field of a hash, expired or not. -/
def field? (memory : Memory) (key field : String) : Option String :=
  match memory.entry? key with
  | some (.hash fields) => Dict.get? fields field
  | _ => none

def advance (memory : Memory) (millis : Nat) : Memory := { memory with clock := memory.clock + millis }

def setSubscribers (memory : Memory) (channel : String) (count : Nat) : Memory :=
  { memory with subscribers := Dict.insert memory.subscribers channel count }

def get (memory : Memory) (key : String) : Except StoreError (Option String) × Memory :=
  let memory := memory.purge key
  match memory.entry? key with
  | none => (.ok none, memory)
  | some (.string value) => (.ok (some value), memory)
  | some _ => (.error (.wrongType key), memory)

def setIfAbsent (memory : Memory) (key value : String) : Bool × Memory :=
  let memory := memory.purge key
  if (memory.entry? key).isSome then (false, memory) else (true, memory.setString key value)

def expire (memory : Memory) (key : String) (seconds : Nat) : Bool × Memory :=
  let memory := memory.purge key
  match memory.entry? key with
  | none => (false, memory)
  | some entry =>
    let slot : Slot := ⟨entry, some (memory.clock + seconds * 1000)⟩
    (true, { memory with slots := Dict.insert memory.slots key slot })

/-- The seconds left are rounded up. -/
def timeToLive (memory : Memory) (key : String) : TimeToLive × Memory :=
  let memory := memory.purge key
  let answer := match Dict.get? memory.slots key with
    | none => .missing
    | some ⟨_, none⟩ => .persistent
    | some ⟨_, some time⟩ => .expires ((time - memory.clock + 999) / 1000)
  (answer, memory)

def delete (memory : Memory) (key : String) : Bool × Memory :=
  let memory := memory.purge key
  ((memory.entry? key).isSome, { memory with slots := Dict.erase memory.slots key })

def compareAndDelete (memory : Memory) (key expected : String) : Bool × Memory :=
  let memory := memory.purge key
  if memory.entry? key = some (.string expected) then
    (true, { memory with slots := Dict.erase memory.slots key })
  else (false, memory)

/-- Makes all of some writes, or none; a discarded transaction clears the order to discard it. -/
def transaction (memory : Memory) (writes : List Write) : Except StoreError Unit × Memory :=
  if memory.discardNext then (.error .discarded, { memory with discardNext := false })
  else match memory.slots.writeAll memory.clock writes with
    | .ok slots => (.ok (), { memory with slots, transactions := memory.transactions + 1 })
    | .error error => (.error error, memory)

/-- What is taken stays taken if the jobs in flight are not a list. -/
def popToInflight (memory : Memory) (route : Route) (now : Int) :
    Except StoreError (Option String) × Memory :=
  let memory := (memory.purge route.queue).purge route.recurring
  match memory.slots.takeReady route now with
  | (none, slots) => (.ok none, { memory with slots })
  | (some payload, slots) => match slots.write memory.clock (.prepend route.inflight payload) with
    | .ok slots => (.ok (some payload), { memory with slots })
    | .error error => (.error error, { memory with slots })

def popInflight (memory : Memory) (key : String) : Except StoreError (Option String) × Memory :=
  let memory := memory.purge key
  match memory.entry? key with
  | none | some (.list _) =>
    let (payload?, slots) := memory.slots.takeHead key
    (.ok payload?, { memory with slots })
  | some _ => (.error (.wrongType key), memory)

/-- Whether the frequencies have expired does not matter here. -/
def restoreInflight (memory : Memory) (route : Route) (now : Int) :
    Except StoreError (Option String) × Memory :=
  let memory := memory.purge route.inflight
  match memory.slots.takeHead route.inflight with
  | (none, slots) => (.ok none, { memory with slots })
  | (some payload, slots) =>
    if slots.isRecurring route.recurring payload then (.ok (some payload), { memory with slots })
    else
      let slots := slots.purge memory.clock route.queue
      match slots.write memory.clock (slots.returnWrite route.queue payload now) with
      | .ok slots => (.ok (some payload), { memory with slots })
      | .error error => (.error error, { memory with slots })

def publish (memory : Memory) (channel message : String) : Nat × Memory :=
  ((Dict.get? memory.subscribers channel).getD 0,
    { memory with published := memory.published ++ [(channel, message)] })

/-- Answers a request that always succeeds. -/
def answering {α : Type} (outcome : α × Memory) : Except StoreError α × Memory := (.ok outcome.1, outcome.2)

/-- Answers a request, if the store can be reached. -/
def perform (memory : Memory) (request : Request) : Except StoreError request.Reply × Memory :=
  if memory.unavailable then (.error .refused, memory)
  else match request with
    | .ping => (.ok (), memory)
    | .keyType key => answering (memory.typeOf key)
    | .get key => memory.get key
    | .setIfAbsent key value => answering (memory.setIfAbsent key value)
    | .expire key seconds => answering (memory.expire key seconds)
    | .timeToLive key => answering (memory.timeToLive key)
    | .delete key => answering (memory.delete key)
    | .compareAndDelete key expected => answering (memory.compareAndDelete key expected)
    | .transaction writes => memory.transaction writes
    | .popToInflight route now => memory.popToInflight route now
    | .popInflight key => memory.popInflight key
    | .restoreInflight route now => memory.restoreInflight route now
    | .publish channel message => answering (memory.publish channel message)

end Memory

end JobQueue
