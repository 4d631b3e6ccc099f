import Throttle.Duration

/-!
Units of time as people write them.

A month is a twelfth of a year of 365.25 days, rounded to 30.44 days. Units below a second are
counted in nanoseconds and the others in seconds; a fraction of a unit is counted in nanoseconds up
to the minute, and in whole seconds above.
-/

namespace Throttle

inductive TimeUnit where
  | nanosecond
  | microsecond
  | millisecond
  | second
  | minute
  | hour
  | day
  | week
  | month
  | year
  deriving DecidableEq, Repr

namespace TimeUnit

/-- A size in one of the two parts of a duration. -/
inductive Size where
  | nanos (n : Nat)
  | secs (n : Nat)
  deriving DecidableEq, Repr

def size : TimeUnit → Size
  | .nanosecond => .nanos 1
  | .microsecond => .nanos 1000
  | .millisecond => .nanos 1000000
  | .second => .secs 1
  | .minute => .secs 60
  | .hour => .secs 3600
  | .day => .secs 86400
  | .week => .secs 604800
  | .month => .secs 2630016
  | .year => .secs 31557600

/-- What a fraction of the unit is taken of; nothing is smaller than a nanosecond. -/
def fractionSize? : TimeUnit → Option Size
  | .nanosecond => none
  | .second => some (.nanos 1000000000)
  | .minute => some (.nanos 60000000000)
  | unit => some unit.size

def ofName? (name : List Char) : Option TimeUnit :=
  match String.ofList name with
  | "nanos" | "nsec" | "ns" => some .nanosecond
  | "usec" | "us" | "µs" => some .microsecond
  | "millis" | "msec" | "ms" => some .millisecond
  | "seconds" | "second" | "secs" | "sec" | "s" => some .second
  | "minutes" | "minute" | "min" | "mins" | "m" => some .minute
  | "hours" | "hour" | "hrs" | "hr" | "h" => some .hour
  | "days" | "day" | "d" => some .day
  | "weeks" | "week" | "wks" | "wk" | "w" => some .week
  | "months" | "month" | "M" => some .month
  | "years" | "year" | "yrs" | "yr" | "y" => some .year
  | _ => none

end TimeUnit

end Throttle
