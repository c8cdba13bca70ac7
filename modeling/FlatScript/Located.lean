/-
# Things that stand on a line

Everything that the language reads or complains about stands on a line of its
source: tokens, faults, items of a scan.  `Located α` is a value of `α` with
that line.  Lines count from 1; line 0 stands for "no line known yet", the line
of an error at the end of a token list that has not been placed in a program.
-/

namespace FlatScript

/-- A value together with the line of the source that it stands on. -/
structure Located (α : Type) where
  val : α
  line : Nat
deriving DecidableEq

namespace Located

variable {α β : Type}

/-- The same line with the value changed by `f`. -/
def map (f : α → β) (x : Located α) : Located β :=
  ⟨f x.val, x.line⟩

@[simp] theorem val_map (f : α → β) (x : Located α) : (x.map f).val = f x.val := rfl

@[simp] theorem line_map (f : α → β) (x : Located α) : (x.map f).line = x.line := rfl

/-- The same value `k` lines further down. -/
def shift (k : Nat) (x : Located α) : Located α :=
  ⟨x.val, x.line + k⟩

@[simp] theorem val_shift (k : Nat) (x : Located α) : (x.shift k).val = x.val := rfl

@[simp] theorem line_shift (k : Nat) (x : Located α) : (x.shift k).line = x.line + k := rfl

end Located
end FlatScript
