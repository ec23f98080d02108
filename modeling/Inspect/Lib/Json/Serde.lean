import Inspect.Lib.Json.Numbers

/-!
# `Lib.Json.Serde` — printing and parsing JSON

Printing and parsing are a parameter of everything that reads or writes JSON: `SerdeJson` has the functions,
`SerdeJson.Laws` what is relied on. What is printed is read back as it was but for its numbers, which may not be read
exactly (`reread`), and as long as it is not nested too deep. Parsed objects have unique keys; the compact layout is
one line.
-/

namespace Inspect

/-- A JSON printer and parser. -/
structure SerdeJson (N : Type) where
  toString : Json N → Str
  toStringPretty : Json N → Str
  fromStr : Str → Option (Json N)

namespace SerdeJson

variable {N : Type} (serde : SerdeJson N)

/-- What a JSON printer and parser promise, however deep a value is nested. -/
structure Laws [BEq N] : Prop where
  fromStr_wellFormed : ∀ {text : Str} {value : Json N}, serde.fromStr text = some value → value.WellFormed
  toString_null : serde.toString .null = "null".toList
  toString_bool : ∀ b, serde.toString (.bool b) = if b then "true".toList else "false".toList
  toString_newline : ∀ value, '\n' ∉ serde.toString value
  number_refl : ∀ n : N, (n == n) = true

/-- What a number is when it was printed and read so many times over. -/
def reread : Nat → N → Option N
  | 0, n => some n
  | times + 1, n =>
      (reread times n).bind fun n =>
        match serde.fromStr (serde.toString (.number n)) with
        | some (.number m) => some m
        | _ => none

/-- Printed and read so many times over, a number is not what another one is. -/
def Drifts [BEq N] (times : Nat) (n m : N) : Prop := (serde.reread times n).any (· == m) = false

/-- Values nested no deeper than a limit are read back as they were printed, each number as it is read alone. -/
structure ReadsBack (limit : Nat) : Prop where
  fromStr_toString : ∀ {value : Json N}, value.WellFormed → value.depth ≤ limit →
    serde.fromStr (serde.toString value) = value.mapNumbers (serde.reread 1)
  fromStr_toStringPretty : ∀ {value : Json N}, value.WellFormed → value.depth ≤ limit →
    serde.fromStr (serde.toStringPretty value) = value.mapNumbers (serde.reread 1)

/-- Every value is read back as it was printed. -/
structure Faithful : Prop where
  fromStr_toString : ∀ {value : Json N}, value.WellFormed → serde.fromStr (serde.toString value) = some value
  fromStr_toStringPretty : ∀ {value : Json N}, value.WellFormed →
    serde.fromStr (serde.toStringPretty value) = some value

/-- A parser with a recursion limit: what is nested deeper is not read. -/
structure RecursionLimit (limit : Nat) : Prop extends ReadsBack serde limit where
  fromStr_depth : ∀ {text : Str} {value : Json N}, serde.fromStr text = some value → value.depth ≤ limit
  fromStr_toString_deep : ∀ {value : Json N}, value.WellFormed → limit < value.depth →
    serde.fromStr (serde.toString value) = none
  fromStr_toStringPretty_deep : ∀ {value : Json N}, value.WellFormed → limit < value.depth →
    serde.fromStr (serde.toStringPretty value) = none

variable {serde}

/-- A value without numbers is read back as it was printed. -/
theorem ReadsBack.toString_of_numbers {limit : Nat} (h : serde.ReadsBack limit) {value : Json N}
    (hwf : value.WellFormed) (hdepth : value.depth ≤ limit) (hnumbers : value.numbers = []) :
    serde.fromStr (serde.toString value) = some value := by
  rw [h.fromStr_toString hwf hdepth]
  exact Json.mapNumbers_eq_self (by simp [hnumbers])

/-- Reading once more. -/
theorem reread_succ (times : Nat) (n : N) : serde.reread (times + 1) n = (serde.reread times n).bind (serde.reread 1) := by
  rw [reread]
  cases serde.reread times n <;> rfl

/-- A value that was read is printed and read once more. -/
theorem mapNumbers_reread_succ (times : Nat) (value : Json N) :
    (value.mapNumbers (serde.reread times)).bind (Json.mapNumbers (serde.reread 1))
      = value.mapNumbers (serde.reread (times + 1)) := by
  rw [Json.mapNumbers_bind]
  exact congrArg (value.mapNumbers ·) (funext fun n => (reread_succ times n).symm)

/-- Where everything is read back, numbers are. -/
theorem Faithful.reread_one (h : serde.Faithful) (n : N) : serde.reread 1 n = some n := by
  rw [reread, reread, Option.bind_some, h.fromStr_toString (.number n)]

theorem Faithful.readsBack (h : serde.Faithful) (limit : Nat) : serde.ReadsBack limit where
  fromStr_toString hwf _ :=
    (h.fromStr_toString hwf).trans (Json.mapNumbers_eq_self fun n _ => h.reread_one n).symm
  fromStr_toStringPretty hwf _ :=
    (h.fromStr_toStringPretty hwf).trans (Json.mapNumbers_eq_self fun n _ => h.reread_one n).symm

end SerdeJson

end Inspect
