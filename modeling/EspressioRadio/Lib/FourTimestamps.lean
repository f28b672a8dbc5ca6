/-
Four-timestamp clock comparison.

One clock is read when a question leaves (`t1`) and when its answer is
back (`t4`), another when the question arrives (`t2`) and when the answer
leaves (`t3`). If the second clock is `offset` ahead of the first, then
`forward` and `back` are what the two ways seem to have taken. An estimate
that knows none of this takes half of `twiceOffset`: it is off by half the
difference of the two ways, so by no more than half the `roundTrip` as
long as neither way seems to have taken less than no time.
-/
import Mathlib.Algebra.Order.Group.Abs
import Mathlib.Algebra.Order.Ring.Int

structure FourTimestamps where
  t1 : Int
  t2 : Int
  t3 : Int
  t4 : Int

namespace FourTimestamps

variable (x : FourTimestamps) (offset slack : Int)

/-- Twice the offset the readings suggest: how far ahead the other clock
seems on the way out, less how far behind it seems on the way back. -/
def twiceOffset : Int := (x.t2 - x.t1) + (x.t3 - x.t4)

/-- The time both ways took together: the whole exchange, less what the
other side spent on its reply. -/
def roundTrip : Int := (x.t4 - x.t1) - (x.t3 - x.t2)

def forward : Int := x.t2 - x.t1 - offset

def back : Int := x.t4 - x.t3 + offset

/-- Neither way took less than no time if the other clock is `offset` ahead,
up to the slack granted for how the clocks are read. -/
structure Causal : Prop where
  forward : 0 ≤ x.forward offset + slack
  back : 0 ≤ x.back offset + slack

theorem forward_add_back : x.forward offset + x.back offset = x.roundTrip := by
  unfold FourTimestamps.forward FourTimestamps.back roundTrip
  omega

theorem forward_sub_back :
    x.forward offset - x.back offset = x.twiceOffset - 2 * offset := by
  unfold FourTimestamps.forward FourTimestamps.back twiceOffset
  omega

/-- The readings are causal for exactly those offsets that are no further
from the suggested one than half the round trip, and the slack. -/
theorem causal_iff :
    x.Causal offset slack
      ↔ |x.twiceOffset - 2 * offset| ≤ x.roundTrip + 2 * slack := by
  have hsum := x.forward_add_back offset
  have hdifference := x.forward_sub_back offset
  rw [← hdifference, ← hsum, abs_le]
  constructor
  · intro h
    have hforward := h.forward
    have hback := h.back
    constructor
    · omega
    · omega
  · intro h
    exact ⟨by omega, by omega⟩

end FourTimestamps
