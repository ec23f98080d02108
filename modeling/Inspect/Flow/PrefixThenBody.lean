import Inspect.Flow.ResponseBody

/-!
# `Flow.PrefixThenBody` — a body that was read in part

The body that `dispatch_response` hands on after a probe that found too much data: what was buffered, as one frame, and
the rest of the body behind it. `prefixThenBody` of `Flow.ResponseBody` is the list of its polls.

A size hint comes from the `http-body` crate. Its setters assert that the bounds stay in order, so an ordered pair is
all that a `SizeHint` can be; a setter that panics is `none`.
-/

namespace Inspect.Flow

open Http

structure PrefixThenBody where
  start : Option Bytes
  rest : Body
deriving DecidableEq

/-- `poll_frame` of `PrefixThenBody`. -/
def PrefixThenBody.poll (self : PrefixThenBody) : Polled × PrefixThenBody :=
  match self.start with
  | some start => (.frame (.data start), { self with start := none })
  | none =>
      let (result, rest) := self.rest.poll
      (result, { self with rest })

/-! ## Size hints -/

/-- `u64::MAX`. -/
def u64Max : UInt64 := 0xffffffffffffffff

/-- `u64::saturating_add`. -/
def saturatingAdd (a b : UInt64) : UInt64 := if a.toNat + b.toNat < 2 ^ 64 then a + b else u64Max

structure SizeHint where
  lower : UInt64
  upper : Option UInt64
  ordered : lower ≤ upper.getD u64Max
deriving DecidableEq

namespace SizeHint

/-- `exact`. -/
def exact (hint : SizeHint) : Option UInt64 := if hint.upper = some hint.lower then hint.upper else none

/-- `set_exact`. -/
def setExact (value : UInt64) : SizeHint := ⟨value, some value, UInt64.le_refl value⟩

/-- `set_lower`, which asserts that the value is not above the upper bound. -/
def setLower (hint : SizeHint) (value : UInt64) : Option SizeHint :=
  if h : value ≤ hint.upper.getD u64Max then some ⟨value, hint.upper, h⟩ else none

/-- `set_upper`, which asserts that the value is not below the lower bound. -/
def setUpper (hint : SizeHint) (value : UInt64) : Option SizeHint :=
  if h : hint.lower ≤ value then some ⟨hint.lower, some value, h⟩ else none

end SizeHint

/-- `size_hint` of `PrefixThenBody`, given that of the rest. -/
def PrefixThenBody.sizeHint (self : PrefixThenBody) (hint : SizeHint) : Option SizeHint :=
  match self.start with
  | none => some hint
  | some start =>
      let len := UInt64.ofNat start.length
      match hint.exact with
      | some exact => some (.setExact (saturatingAdd exact len))
      | none => do
          let hint ← hint.setLower (saturatingAdd hint.lower len)
          match hint.upper with
          | some upper => hint.setUpper (saturatingAdd upper len)
          | none => some hint

end Inspect.Flow
