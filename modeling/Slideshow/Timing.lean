import Slideshow.Decimal.Reading
import Slideshow.Error
import Slideshow.Text.Basic

/-
  This file defines the time range of a shot and how it is
  read from a pair of clock values.

  Key definitions include:
    * `TimeRange`
    * `TimeRange.duration`
    * `Clock.read`
    * `TimeRange.read`
-/

namespace Slideshow

/- The time from `start` up to `stop`, in seconds. -/
structure TimeRange where
  start : Float
  stop : Float
deriving Repr

namespace TimeRange

/- The length of a range; it may be zero or negative. -/
def duration (range : TimeRange) : Float :=
  range.stop - range.start

end TimeRange

------------------------------------------------------------
-- Clock Values
------------------------------------------------------------

namespace Clock

/- Read one field of a clock value. -/
def readField
    (clock field : String) :
    Except FormatFault Float :=
  match Decimal.read? (Text.trim field).toList with
  | none => .error (.clockField field clock)
  | some x =>
      if x.isFinite then .ok x
      else .error (.infiniteField field clock)

/-
  Read hours, minutes and seconds, each a decimal number,
  into seconds.
-/
def read (s : String) : Except FormatFault Float :=
  match Text.split ':' (Text.trim s) with
  | [hours, minutes, seconds] => do
      let h ← readField s hours
      let m ← readField s minutes
      let sec ← readField s seconds
      return h * 3600.0 + m * 60.0 + sec
  | _ => .error (.clock s)

end Clock

------------------------------------------------------------
-- Ranges
------------------------------------------------------------

namespace TimeRange

/- What stands between the two clock values. -/
def separator : String :=
  " - "

/- Read two clock values. -/
def read (s : String) : Except FormatFault TimeRange :=
  match Text.splitText separator s with
  | [start, stop] => do
      let start ← Clock.read start
      let stop ← Clock.read stop
      return ⟨start, stop⟩
  | _ => .error (.interval s)

end TimeRange

end Slideshow
