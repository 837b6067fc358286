import JobQueue.Proofs.Store.Contents
import JobQueue.Task.Run

/-! # The requests of a program as the store sees them

Among others a program finds the store as the others have left it just before each of its requests. An
arrival is a request with the store that it finds. What the program itself does to the store is what lies
between that store and the one behind the request; everything else is the doing of the others.
-/

namespace JobQueue

/-- A request and the store that it finds. -/
structure Arrival where
  memory : Memory
  request : Request

namespace Arrival

variable (arrival : Arrival)

def answer : Except StoreError arrival.request.Reply := (arrival.memory.perform arrival.request).1

/-- The store behind a request. -/
def after : Memory := (arrival.memory.perform arrival.request).2

/-- A request that leaves every key as others see it, and the time that it has to live. -/
def Untouched : Prop := arrival.after.held = arrival.memory.held

/-- A transaction that is made at once, and whose effect on the contents of the store is as told. -/
structure Commits (effect? : Contents → Option Contents) : Prop where
  transacts : ∃ writes, arrival.request = .transaction writes
  succeeds : ∃ reply, arrival.answer = .ok reply
  effective : effect? arrival.memory.contents = some arrival.after.contents

end Arrival

/-- The next request of a program among others, as it arrives. -/
abbrev Observed.arrival (seen : Observed) (others : Interference) (request : Request) : Arrival :=
  ⟨others (request :: seen.requests) seen.memory, request⟩

/-- What is observed with one more request. -/
def Observed.behind (seen : Observed) (arrival : Arrival) : Observed :=
  ⟨arrival.after, arrival.request :: seen.requests⟩

/-- The requests of a program that runs among others, in order, with the stores that they find. -/
def Task.arrivals {ε α : Type} (others : Interference) : Task ε α → Observed → List Arrival
  | done _, _ | fail _, _ => []
  | call request next, seen =>
    let arrival := seen.arrival others request
    arrival :: (next arrival.answer).arrivals others (seen.behind arrival)
  | sleep millis next, seen => next.arrivals others { seen with memory := seen.memory.advance millis }

theorem Task.runAmong_call {ε α : Type} (others : Interference) (request : Request)
    (next : Except StoreError request.Reply → Task ε α) (seen : Observed) :
    (call request next).runAmong others seen =
      (next (seen.arrival others request).answer).runAmong others
        (seen.behind (seen.arrival others request)) := rfl

/-! ## What requests leave alone -/

namespace Memory

variable (memory : Memory)

/-- A look at a type changes no key. -/
theorem held_perform_keyType (key : String) : (memory.perform (.keyType key)).2.held = memory.held := by
  unfold perform
  split
  · rfl
  · exact memory.held_look key

theorem held_perform_ping : (memory.perform .ping).2.held = memory.held := by
  unfold perform
  split <;> rfl

/-- A transaction that is not made changes no key, however many of its writes would have applied. -/
theorem held_perform_transaction {writes : List Write} {cause : StoreError}
    (failed : (memory.perform (.transaction writes)).1 = .error cause) :
    (memory.perform (.transaction writes)).2.held = memory.held := by
  unfold perform at failed ⊢
  split
  · rfl
  · next available =>
    rw [if_neg available] at failed
    simp only [transaction] at failed ⊢
    split
    · rfl
    · next undisturbed =>
      rw [if_neg undisturbed] at failed
      split
      · next made =>
        rw [made] at failed
        contradiction
      · rfl

/-- A transaction that is made has the effect of its writes, one after the other. -/
theorem contents_perform_transaction {writes : List Write} {reply : Unit}
    (made : (memory.perform (.transaction writes)).1 = .ok reply) :
    memory.contents.writeAll? writes = some (memory.perform (.transaction writes)).2.contents := by
  unfold perform at made ⊢
  split
  · next unavailable =>
    rw [if_pos unavailable] at made
    contradiction
  · next available =>
    rw [if_neg available] at made
    simp only [transaction] at made ⊢
    split
    · next discards =>
      rw [if_pos discards] at made
      contradiction
    · next undisturbed =>
      rw [if_neg undisturbed] at made
      split
      · next slots written => exact Slots.contents_writeAll written
      · next cause written =>
        rw [written] at made
        contradiction

/-- A transaction is made if its writes apply, one after the other. -/
theorem perform_transaction_of_contents {memory : Memory} (available : memory.unavailable = false)
    (undisturbed : memory.discardNext = false) {writes : List Write} {after : Contents}
    (applies : memory.contents.writeAll? writes = some after) :
    (memory.perform (.transaction writes)).1 = .ok () ∧
      (memory.perform (.transaction writes)).2.contents = after := by
  obtain ⟨slots, written, left⟩ := Slots.writeAll_of_contents applies
  have made : memory.perform (.transaction writes) =
      (.ok (), { memory with slots, transactions := memory.transactions + 1 }) := by
    simp [perform, available, transaction, undisturbed, written]
  rw [made]
  exact ⟨rfl, left⟩

end Memory

end JobQueue
