/-!
# Faults

Wherever the C code would follow a pointer to nothing, leave a block or fail an
assertion, the model stops with a fault instead of a value.  Nothing is assumed
about what the program does after that.
-/

namespace Blts

/-- What stops the C program. -/
inductive Fault where
  /-- a null pointer, or a reference to no symbol, is followed -/
  | nullDeref
  /-- a member of a union is read that is not the one in use -/
  | wrongMember
  /-- a block is read or written past its end -/
  | outOfBounds
  /-- the symbol table is written through a null pointer or past its end -/
  | tableWrite
  /-- an `assert` fails -/
  | assertFailed
  /-- a recursion does not end -/
  | stackOverflow
  deriving DecidableEq

theorem ok_bind {ε α β : Type} (a : α) (f : α → Except ε β) : (Except.ok a >>= f) = f a := rfl

/-- A computation in two parts comes to an end if both parts do. -/
theorem exists_of_bind_eq_ok {α β : Type} {x : Except Fault α} {f : α → Except Fault β}
    {b : β} (h : (x >>= f) = .ok b) : ∃ a, x = .ok a ∧ f a = .ok b := by
  cases x with
  | error e => cases h
  | ok a => exact ⟨a, rfl, h⟩

end Blts
