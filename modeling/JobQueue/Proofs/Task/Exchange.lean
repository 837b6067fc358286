import JobQueue.Task

/-! # Programs among unknown others

What others do to a store shows a program nothing but replies. So a program is run here against any replies
at all, each of which may depend on everything that happened before it. What happens is recorded.
-/

namespace JobQueue

/-- What happens to a program: a request is replied to, or it waits. -/
inductive Event where
  | asked (request : Request) (reply : Except StoreError request.Reply)
  | waited (millis : Nat)

/-- A reply to every request, given what happened before it, the latest first. -/
abbrev Replies := List Event → (request : Request) → Except StoreError request.Reply

/-- The request of an event, if it is one. -/
def Event.request? : Event → Option Request
  | asked request _ => some request
  | waited _ => none

/-- The requests of some events. -/
def requests (events : List Event) : List Request := events.filterMap Event.request?

/-- Everything that happens to a program, the latest first, behind what happened before; and how it ends. -/
def Task.against {ε α : Type} (replies : Replies) : Task ε α → List Event → List Event × Except ε α
  | done a, past => (past, .ok a)
  | fail error, past => (past, .error error)
  | call request next, past =>
    (next (replies past request)).against replies (.asked request (replies past request) :: past)
  | sleep millis next, past => next.against replies (.waited millis :: past)

theorem mem_requests {events : List Event} {request : Request} :
    request ∈ requests events ↔ ∃ reply, Event.asked request reply ∈ events := by
  rw [requests, List.mem_filterMap]
  constructor
  · rintro ⟨event, member, same⟩
    cases event with
    | asked other reply =>
      cases same
      exact ⟨reply, member⟩
    | waited millis => contradiction
  · rintro ⟨reply, member⟩
    exact ⟨_, member, rfl⟩

end JobQueue
