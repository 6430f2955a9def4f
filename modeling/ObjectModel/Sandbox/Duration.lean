import ObjectModel.Decimal.Layout

/-!
Written form of durations.

A duration in milliseconds is shown in the largest unit of which it has at least one, with as many decimals
as it needs and no unit but the nanosecond for nothing at all.
-/

namespace ObjectModel.Sandbox

/-- Decimals of a number of thousandths, without trailing zeros. -/
def thousandths (n : Nat) : String :=
  if n % 1000 = 0 then ""
  else
    let digits := Nat.toDigits 10 (1000 + n % 1000) |>.drop 1
    "." ++ String.ofList (digits.reverse.dropWhile (· = '0')).reverse

def durationText (ms : Nat) : String :=
  if ms = 0 then "0ns"
  else if ms < 1000 then NumberLayout.natText ms ++ "ms"
  else NumberLayout.natText (ms / 1000) ++ thousandths ms ++ "s"

end ObjectModel.Sandbox
