import Mathlib.Data.Rat.Defs
import Mathlib.Algebra.Order.Ring.Unbundled.Rat
import Mathlib.Data.List.Basic

/-!
# Sqlite/Value — result codes, values and constraints of the host

The parts of SQLite's interface that the module's callbacks exchange: the result codes they return,
the dynamically typed values that constraints and arguments carry, and SQLite's own verdict on a
constraint.
-/

namespace Vps

/-- The result codes of SQLite that the module's callbacks return. -/
inductive SqliteResult
  | ok | error | busy | abort | readonly | misuse | nomem | constraint | toobig
  deriving DecidableEq, Repr

/-- A value of SQLite, by storage class. -/
inductive SqliteValue
  | null
  | integer (value : Int64)
  | real (value : ℚ)
  | text (bytes : List UInt8)
  | blob (bytes : List UInt8)
  deriving DecidableEq

/-- `memcmp`, the shorter string first. -/
def compareBytes (a b : List UInt8) : Ordering :=
  a.compareLex (fun x y => compare x.toNat y.toNat) b

namespace SqliteValue

/-- The storage classes in sorting order. -/
def rank : SqliteValue → ℕ
  | .null => 0
  | .integer _ | .real _ => 1
  | .text _ => 2
  | .blob _ => 3

/-- **Comparison of two values** under the BINARY collation, unknown if one of them is NULL. -/
def compare? : SqliteValue → SqliteValue → Option Ordering
  | .null, _ | _, .null => none
  | .integer a, .integer b => some (compare a.toInt b.toInt)
  | .integer a, .real b => some (compare (a.toInt : ℚ) b)
  | .real a, .integer b => some (compare a (b.toInt : ℚ))
  | .real a, .real b => some (compare a b)
  | .text a, .text b => some (compareBytes a b)
  | .blob a, .blob b => some (compareBytes a b)
  | a, b => some (compare a.rank b.rank)

end SqliteValue

/-- The right-hand side of a constraint, as `xFilter` receives it: one value, or the list of an IN
that is processed all at once. -/
inductive ConstraintOperand
  | value (v : SqliteValue)
  | items (list : List SqliteValue)
  deriving DecidableEq

/-- **SQLite's verdict on a constraint** (`SQLITE_INDEX_CONSTRAINT_*`): whether it is true of a
column value.  Unknown is not true. -/
def constraintHolds (op : UInt8) (operand : ConstraintOperand) (v : SqliteValue) : Bool :=
  match op with
  | 71 => v == .null
  | 70 => v != .null
  | _ =>
    match operand with
    | .items list => list.any fun item => v.compare? item == some .eq
    | .value constant =>
      match op with
      | 2 => v.compare? constant == some .eq
      | 68 => (v.compare? constant).any (· != .eq)
      | 16 => v.compare? constant == some .lt
      | 8 => (v.compare? constant).any (· != .gt)
      | 4 => v.compare? constant == some .gt
      | 32 => (v.compare? constant).any (· != .lt)
      | 72 => (v == .null && constant == .null) || v.compare? constant == some .eq
      | _ => false

end Vps
