import ScriptHost.Number.Double

/-!
# Delays and handles

The two ways in which a script number becomes a number of the timer world: as a delay in
milliseconds, and as the handle of a timer.

## Main definitions

* `Time`, `Span`: moments and lengths of time in whole milliseconds.
* `TimerId`, `TickId`: names of timers and of posted events.
* `delayOf`: the delay that a number asks for.
* `TimerId.ofHandle?`: the timer that a number names.
-/

namespace ScriptHost

/-- A moment, in milliseconds since the start. -/
abbrev Time := Nat

/-- A length of time in milliseconds. -/
abbrev Span := Nat

/-- The name of a timer. -/
structure TimerId where
  /-- Its number; timers are numbered from one on. -/
  val : Nat
deriving DecidableEq

/-- The name of a posted event. -/
structure TickId where
  /-- Its number; the events of a scheduler are numbered from one on. -/
  val : Nat
deriving DecidableEq

/-- The largest delay that is taken as it is. -/
def maxDelay : Nat := 2147483647

/-- The delay that a number asks for, fractions dropped. A number that is not between one and
`maxDelay` asks for one millisecond, so no callback runs at once. -/
def delayOf (x : Double) : Span :=
  if x.isNaN || x.exceeds maxDelay || !x.isFinite then 1
  else if x.integerPart < 1 then 1
  else x.integerPart.toNat

/-- The largest number of a timer. -/
def maxTimerNumber : Nat := Nat.pow 2 64 - 1

/-- The timer that a number names: a whole number from one to `2 ^ 64`, which itself stands for the
largest number of a timer. -/
def TimerId.ofHandle? (x : Double) : Option TimerId :=
  if x.isFinite && x.atLeast 1 && x.isIntegral && !x.exceeds (Nat.pow 2 64) then
    some ⟨min x.integerPart.toNat maxTimerNumber⟩
  else none

end ScriptHost
