import JobQueue.Store

/-! # Programs of requests

What is done with a store is a program: it asks one request at a time, goes on with the answer, may wait,
and ends with a result or an error. Between two requests other programs may run, so a program says
exactly where it can be interrupted and nothing about which store it talks to.
-/

namespace JobQueue

/-- A program that ends with an `α` or fails with an `ε`. -/
inductive Task (ε α : Type) where
  | done (a : α)
  | fail (error : ε)
  /-- Asks a request and goes on with its answer. -/
  | call (request : Request) (next : Except StoreError request.Reply → Task ε α)
  /-- Waits for some milliseconds. -/
  | sleep (millis : Nat) (next : Task ε α)

namespace Task

variable {ε δ α β : Type}

/-- Goes on with the result. -/
def bind : Task ε α → (α → Task ε β) → Task ε β
  | done a, next => next a
  | fail error, _ => fail error
  | call request rest, next => call request fun answer => (rest answer).bind next
  | sleep millis rest, next => sleep millis (rest.bind next)

instance : Monad (Task ε) where
  pure := done
  bind := bind

/-- Changes the error. -/
def mapError (f : ε → δ) : Task ε α → Task δ α
  | done a => done a
  | fail error => fail (f error)
  | call request rest => call request fun answer => (rest answer).mapError f
  | sleep millis rest => sleep millis (rest.mapError f)

/-- What is known without asking. -/
def ofExcept : Except ε α → Task ε α
  | .ok a => done a
  | .error error => fail error

/-- Asks one request, and ends with its answer. -/
def ask (request : Request) : Task StoreError request.Reply := call request ofExcept

/-- Waits. -/
def wait (millis : Nat) : Task ε Unit := sleep millis (done ())

@[simp] theorem pure_eq (a : α) : (pure a : Task ε α) = done a := rfl

@[simp] theorem bind_eq (task : Task ε α) (next : α → Task ε β) : task >>= next = task.bind next := rfl

@[simp] theorem bind_done (a : α) (next : α → Task ε β) : (done a).bind next = next a := rfl

@[simp] theorem bind_fail (error : ε) (next : α → Task ε β) : (fail error).bind next = fail error := rfl

@[simp] theorem bind_call (request : Request) (rest : Except StoreError request.Reply → Task ε α)
    (next : α → Task ε β) :
    (call request rest).bind next = call request fun answer => (rest answer).bind next := rfl

@[simp] theorem bind_sleep (millis : Nat) (rest : Task ε α) (next : α → Task ε β) :
    (sleep millis rest).bind next = sleep millis (rest.bind next) := rfl

@[simp] theorem mapError_done (f : ε → δ) (a : α) : (done a : Task ε α).mapError f = done a := rfl

@[simp] theorem mapError_fail (f : ε → δ) (error : ε) :
    (fail error : Task ε α).mapError f = fail (f error) := rfl

@[simp] theorem mapError_call (f : ε → δ) (request : Request)
    (rest : Except StoreError request.Reply → Task ε α) :
    (call request rest).mapError f = call request fun answer => (rest answer).mapError f := rfl

@[simp] theorem mapError_sleep (f : ε → δ) (millis : Nat) (rest : Task ε α) :
    (sleep millis rest).mapError f = sleep millis (rest.mapError f) := rfl

@[simp] theorem ask_eq (request : Request) : ask request = call request ofExcept := rfl

@[simp] theorem wait_eq (millis : Nat) : (wait millis : Task ε Unit) = sleep millis (done ()) := rfl

@[simp] theorem ofExcept_ok (a : α) : (ofExcept (.ok a) : Task ε α) = done a := rfl

@[simp] theorem ofExcept_error (error : ε) : (ofExcept (.error error) : Task ε α) = fail error := rfl

/-- Ending with the result changes nothing. -/
theorem bind_done_right (task : Task ε α) : task.bind done = task := by
  induction task with
  | done a => rfl
  | fail error => rfl
  | call request rest ih => exact congrArg (call request) (funext ih)
  | sleep millis rest ih => exact congrArg (sleep millis) ih

theorem bind_assoc {γ : Type} (task : Task ε α) (f : α → Task ε β) (g : β → Task ε γ) :
    (task.bind f).bind g = task.bind fun a => (f a).bind g := by
  induction task with
  | done a => rfl
  | fail error => rfl
  | call request rest ih => exact congrArg (call request) (funext ih)
  | sleep millis rest ih => exact congrArg (sleep millis) ih

instance : LawfulMonad (Task ε) :=
  LawfulMonad.mk' (Task ε) bind_done_right (fun _ _ => rfl) fun task f g => bind_assoc task f g

end Task

end JobQueue
