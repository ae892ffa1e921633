/-
# SpecEngine.Report.Duration -- durations as the summary prints them

Below a second a duration is printed in milliseconds, below a minute in seconds with three places,
and from there on in minutes, two digits of seconds and three places. Every form shows the exact
count of milliseconds.
-/

import SpecEngine.Text.Decimal

namespace SpecEngine.Report

open Text.Decimal (text padded)

/-- The text of a number of milliseconds. -/
def durationText (ms : Nat) : String :=
  let seconds := ms / 1000
  if seconds = 0 then text ms ++ "ms"
  else if seconds < 60 then text seconds ++ "." ++ padded 3 (ms % 1000) ++ "s"
  else text (seconds / 60) ++ "m" ++ padded 2 (seconds % 60) ++ "." ++ padded 3 (ms % 1000) ++ "s"

end SpecEngine.Report
