import Mathlib
/-!
# Statuses and results

`Status` carries a code and a message.  A C++ function that returns `Status`
returns `Result Unit` here, and one that returns `Result<T>` returns
`Result T`: the status `Ok` is the `ok` case, and every other status is the
`error` case.
-/

namespace DanDB.Core

/-- The codes of a status other than `Ok`. -/
inductive StatusCode where
  | invalidArgument
  | ioError
  | corruption
  | notFound
  | alreadyExists
  | constraintViolation
  | transactionError
  | parseError
  | incompleteInput
  | internalError
deriving DecidableEq, Repr

/-- A status that is not `Ok`. -/
structure Status where
  /-- Which kind of failure. -/
  code : StatusCode
  /-- The text shown to the user. -/
  message : String
deriving DecidableEq, Repr

/-- The outcome of a call. -/
abbrev Result (α : Type) := Except Status α

namespace Status

def InvalidArgument (message : String) : Status := ⟨.invalidArgument, message⟩
def IoError (message : String) : Status := ⟨.ioError, message⟩
def Corruption (message : String) : Status := ⟨.corruption, message⟩
def NotFound (message : String) : Status := ⟨.notFound, message⟩
def AlreadyExists (message : String) : Status := ⟨.alreadyExists, message⟩
def ConstraintViolation (message : String) : Status := ⟨.constraintViolation, message⟩
def TransactionError (message : String) : Status := ⟨.transactionError, message⟩
def ParseError (message : String) : Status := ⟨.parseError, message⟩
def IncompleteInput (message : String) : Status := ⟨.incompleteInput, message⟩
def InternalError (message : String) : Status := ⟨.internalError, message⟩

end Status

/-! ## Early returns -/

/-- `if(condition) return status;` -/
def failIf (condition : Prop) [Decidable condition] (status : Status) : Result Unit :=
  if condition then .error status else .ok ()

@[simp] theorem failIf_eq_ok {condition : Prop} [Decidable condition] {status : Status} {u : Unit} :
    failIf condition status = .ok u ↔ ¬condition := by
  unfold failIf
  split <;> simp_all

theorem failIf_of_not {condition : Prop} [Decidable condition] {status : Status}
    (h : ¬condition) : failIf condition status = .ok () := if_neg h

theorem failIf_of {condition : Prop} [Decidable condition] {status : Status}
    (h : condition) : failIf condition status = .error status := if_pos h

theorem bind_eq_ok {ε α β : Type} {x : Except ε α} {f : α → Except ε β} {b : β} :
    (x >>= f) = .ok b ↔ ∃ a, x = .ok a ∧ f a = .ok b := by
  cases x <;> simp [bind, Except.bind]

theorem map_eq_ok {ε α β : Type} {f : α → β} {x : Except ε α} {b : β} :
    f <$> x = .ok b ↔ ∃ a, x = .ok a ∧ f a = b := by
  cases x <;> simp [Functor.map, Except.map]

@[simp] theorem ok_bind {α β : Type} (a : α) (f : α → Result β) :
    ((.ok a : Result α) >>= f) = f a := rfl

@[simp] theorem error_bind {α β : Type} (s : Status) (f : α → Result β) :
    ((.error s : Result α) >>= f) = .error s := rfl

theorem map_bind {α β γ : Type} (x : Result α) (f : α → Result β) (g : β → γ) :
    (x >>= f).map g = x >>= fun a => (f a).map g := by
  cases x <;> rfl

@[simp] theorem pure_eq_ok {α : Type} (a : α) : (pure a : Result α) = .ok a := rfl

end DanDB.Core
