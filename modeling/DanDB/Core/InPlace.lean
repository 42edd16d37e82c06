import DanDB.Core.Bytes

/-!
# Changes in place

A function that changes an array through a pointer has changed it up to the point
where it returns, also when it returns an error, and it may leave the bounds of the
array.  `InPlace` is the type of such functions.  `Does` says that one of them is as
good as a function that gives the new array or an error and changes nothing itself.
-/

namespace DanDB.Core

/-- How a function on an array ends early. -/
inductive Stop where
  | returned (status : Status)
  | outOfBounds
deriving DecidableEq, Repr

abbrev InPlace (size : Nat) (α : Type) := EStateM Stop (Bytes size) α

namespace InPlace

variable {size : Nat} {α : Type}

/-- A step that only reads the array. -/
def returns (result : Result α) : InPlace size α := fun array =>
  match result with
  | .ok a => .ok a array
  | .error status => .error (.returned status) array

/-- `std::memcpy` into the array. -/
def memcpy (offset : Nat) (data : List Byte) : InPlace size Unit := fun array =>
  if offset + data.length ≤ size then .ok () (array.put offset data)
  else .error .outOfBounds array

/-- `std::memmove` inside the array. -/
def memmove (target source len : Nat) : InPlace size Unit := fun array =>
  if source + len ≤ size then memcpy target (array.slice source len) array
  else .error .outOfBounds array

/-- The write loop of one width, behind its bounds check. -/
def writeLe (width : Nat) (message : String) (offset value : Nat) : InPlace size Unit :=
  fun array =>
    if offset ≥ size ∨ width > size - offset then
      .error (.returned (.InvalidArgument message)) array
    else .ok () (array.put offset (leBytes width value))

/-- The function ends as the result says, with the array of the result or with the one
it began with. -/
def Does (m : InPlace size Unit) (array : Bytes size) (result : Result (Bytes size)) : Prop :=
  m array = match result with
    | .ok array' => .ok () array'
    | .error status => .error (.returned status) array

variable {array array' : Bytes size} {m : InPlace size Unit} {result : Result (Bytes size)}

/-- A procedure that does what succeeds changes the array so. -/
theorem Does.ok (h : Does m array result) (hok : result = .ok array') :
    m array = .ok () array' := by
  subst hok
  exact h

/-- One that does what fails leaves the array as it was. -/
theorem Does.error {status : Status} (h : Does m array result) (herror : result = .error status) :
    m array = .error (.returned status) array := by
  subst herror
  exact h

theorem does_of_ok (h : m array = .ok () array') (hok : result = .ok array') :
    Does m array result := by
  subst hok
  exact h

theorem does_get {f : Bytes size → InPlace size Unit} (h : Does (f array) array result) :
    Does (get >>= f) array result := h

/-- A read that fails ends the procedure before it writes. -/
theorem does_returns {read : Result α} {f : α → InPlace size Unit}
    {g : α → Result (Bytes size)} (h : ∀ a, read = .ok a → Does (f a) array (g a)) :
    Does (returns read >>= f) array (read >>= g) := by
  cases read with
  | ok a => exact h a rfl
  | error status => rfl

section Writes

variable {f : Unit → InPlace size Unit}

/-- A copy into the array, -/
theorem memcpy_run {offset : Nat} {data : List Byte} (h : offset + data.length ≤ size) :
    memcpy offset data array = .ok () (array.put offset data) := if_pos h

theorem memcpy_bind {offset : Nat} {data : List Byte} (h : offset + data.length ≤ size) :
    (memcpy offset data >>= f) array = f () (array.put offset data) := by
  show EStateM.bind _ _ _ = _
  rw [EStateM.bind, memcpy_run h]

/-- and one within it, which may overlap. -/
theorem memmove_bind {target source len : Nat} (hsource : source + len ≤ size)
    (htarget : target + len ≤ size) : (memmove target source len >>= f) array =
      f () (array.put target (array.slice source len)) := by
  show EStateM.bind _ _ _ = _
  rw [EStateM.bind, memmove, if_pos hsource, memcpy_run (by rwa [array.length_slice hsource])]

theorem writeLe_run {width : Nat} {message : String} {offset value : Nat} (hwidth : 0 < width)
    (h : offset + width ≤ size) : writeLe width message offset value array =
      .ok () (array.put offset (leBytes width value)) := if_neg (by omega)

end Writes

end InPlace

end DanDB.Core
