/-!
# Time

Instants and durations of the node's monotonic clock, both counted in whole nanoseconds.

## Main definitions

* `Instant`, `Instant.latest` — nanoseconds since the clock started, and the last of them
* `Duration` — a bounded length of time; `Duration.scale` multiplies and stops at the bound
* `Duration.pauseNanos` — how long a pause of that length lasts
* `Duration.text` — the short decimal text of a duration, in its largest fitting unit

## Design notes

A duration holds at most `2 ^ 64 - 1` seconds and 999 999 999 nanoseconds. The bound is part of the
type, so arithmetic that would pass it has to say what it does instead. A pause has a bound of its
own, `Duration.longestPause`; a time limit has not, so a limit of a hundred years is kept.

Nor is there a bound on the sum of an instant and a duration. The clock itself counts seconds in 63
bits and can tell no instant after `Instant.latest`: whoever sets a time limit that is over later
breaks down on the spot. That breakdown is not modelled. What is said of the end of a time limit is
said of limits that are over by `Instant.latest`.
-/

namespace ShardKeeper

/-- Nanoseconds since the node's clock started. -/
abbrev Instant := Nat

/-- The latest instant that the clock can tell. -/
def Instant.latest : Instant := (Nat.pow 2 63 - 1) * 1000000000 + 999999999

namespace Duration

/-- The longest duration, in nanoseconds. -/
def maxNanos : Nat := (Nat.pow 2 64 - 1) * 1000000000 + 999999999

end Duration

/-- A length of time in nanoseconds, no longer than `Duration.maxNanos`. -/
structure Duration where
  nanos : Nat
  nanos_le : nanos ≤ Duration.maxNanos
deriving DecidableEq

namespace Duration

/-- The duration of `n` nanoseconds, or the longest one if that is shorter. -/
def ofNanos (n : Nat) : Duration := ⟨min n maxNanos, Nat.min_le_right ..⟩

/-- The duration of `n` milliseconds. -/
def ofMillis (n : Nat) : Duration := ofNanos (n * 1000000)

/-- The duration of `n` seconds. -/
def ofSeconds (n : Nat) : Duration := ofNanos (n * 1000000000)

/-- The longest duration. -/
def longest : Duration := ⟨maxNanos, Nat.le_refl _⟩

instance : Inhabited Duration := ⟨ofNanos 0⟩

/-- Whole milliseconds, rounded down. -/
def millis (d : Duration) : Nat := d.nanos / 1000000

/-- The longest pause that anybody makes: thirty years of 365 days. -/
def longestPause : Duration := ofSeconds (30 * 365 * 86400)

/-- The nanoseconds that a pause of a length really lasts. -/
def pauseNanos (d : Duration) : Nat := min d.nanos longestPause.nanos

/-- Whether no time passes. -/
def isZero (d : Duration) : Bool := d.nanos == 0

/-- The shorter of two durations. -/
def shorter (a b : Duration) : Duration := if a.nanos ≤ b.nanos then a else b

/-- `d` taken `factor` times, or the longest duration if that is shorter. -/
def scale (d : Duration) (factor : Nat) : Duration := ofNanos (d.nanos * factor)

@[simp] theorem nanos_ofNanos (n : Nat) : (ofNanos n).nanos = min n maxNanos := rfl

@[simp] theorem nanos_shorter (a b : Duration) : (a.shorter b).nanos = min a.nanos b.nanos := by
  unfold shorter
  split <;> simp [Nat.min_def, *]

@[simp] theorem nanos_scale (d : Duration) (k : Nat) :
    (d.scale k).nanos = min (d.nanos * k) maxNanos := rfl

/-! ### Text -/

/-- The decimal digits of `n`, padded with zeros on the left to `width` places. -/
def paddedDigits (width n : Nat) : List Char :=
  let digits := (toString n).toList
  List.replicate (width - digits.length) '0' ++ digits

/-- `whole` followed by the digits of `part` in `places` decimal places, trailing zeros dropped. -/
def decimalText (whole part places : Nat) : String :=
  let digits := ((paddedDigits places part).reverse.dropWhile (· = '0')).reverse
  if digits.isEmpty then toString whole else toString whole ++ "." ++ String.ofList digits

/-- The text of a length of `n` nanoseconds, in the largest of the units `s`, `ms`, `µs` and `ns`
that it fills at least once. -/
def nanosText (n : Nat) : String :=
  if 1000000000 ≤ n then decimalText (n / 1000000000) (n % 1000000000) 9 ++ "s"
  else if 1000000 ≤ n then decimalText (n / 1000000) (n % 1000000) 6 ++ "ms"
  else if 1000 ≤ n then decimalText (n / 1000) (n % 1000) 3 ++ "µs"
  else toString n ++ "ns"

/-- The short decimal text of a duration. -/
def text (d : Duration) : String := nanosText d.nanos

end Duration

end ShardKeeper
