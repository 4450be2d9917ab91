import StackLang.Decimal.Notation
import StackLang.Log.Record

/-!
# Times and clocks

A simulation only compares times, and asks clocks for their ticks; what times are is left open.
`Seconds` are the times in use: the ticks of a clock are the multiples of its period, and a time is
first rounded to a tenth of a period, so that the inexact sum of many periods still counts as the
tick it stands for.
-/

set_option autoImplicit false

namespace StackLang

/-- What a simulation needs to know about times. -/
class Timeline (τ : Type) where
  /-- The time at which a simulation starts. -/
  start : τ
  /-- A time before all ticks. -/
  before : τ
  /-- Whether one time is earlier than another. -/
  earlier : τ → τ → Bool
  /-- Whether one time is at or after another. -/
  reached : τ → τ → Bool
  /-- Whether a value is a time at all. -/
  isTime : τ → Bool
  /-- A time in a log. -/
  logged : τ → Log.Value
  /-- A time in a message. -/
  shown : τ → String

/-- A clock: the first tick at or after a time, and the first tick after it. -/
structure Clock (τ : Type) where
  thisTick : τ → τ
  nextTick : τ → τ

/-- Times in seconds. -/
abbrev Seconds := Float

namespace Seconds

/-- A time in nanoseconds. -/
def nanoseconds (t : Seconds) : Float := t * 1000000000.0

/-- The bits of a time.  What is no time at all has the quiet form with its sign set, as a division
of zero by zero leaves it. -/
def bits (t : Seconds) : UInt64 := if t.isNaN then 0xFFF8000000000000 else t.toBits

end Seconds

instance : Timeline Seconds where
  start := 0.0
  before := -1.0
  earlier a b := a < b
  reached a b := a ≥ b
  isTime t := !t.isNaN
  logged t := .float (Seconds.nanoseconds t)
  shown t := Decimal.fixed 10 t

namespace Clock

/-- One gigahertz. -/
def gigahertz : Float := 1000000000.0

/-- A time in tenths of a period, rounded. -/
def tenths (freq : Float) (now : Seconds) : Float := (now * 10.0 * freq).round

/-- The clock with a frequency in hertz. -/
def ofFrequency (freq : Float) : Clock Seconds where
  thisTick now := (tenths freq now / 10.0).ceil / freq
  nextTick now := ((tenths freq now / 10.0).floor + 1.0) / freq

end Clock

end StackLang
