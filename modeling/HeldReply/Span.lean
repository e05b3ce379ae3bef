import HeldReply.Number.Digits

/-!
# Spans of time

A span is a number of nanoseconds.  The greatest one has as many whole seconds as 64 bits can
count, and all the nanoseconds of a second beside them.

* `Span`, `Span.greatest` — the type and its upper end;
* `Span.ofMillis`, `Span.ofParts` — a span from milliseconds, or from seconds and nanoseconds;
* `Span.twice` — the double of a span, or the greatest span if that is shorter;
* `Span.ticks` — the milliseconds of a span: a begun millisecond counts;
* `Span.restUntil`, `Span.waitUntil` — when a rest ends that begins at a time, and when a wait for
  something else is given up: in the first millisecond by which the span has passed
  (`Span.waitUntil_le_iff`);
* `Span.toText` — the shown form, in the largest unit of which the span holds at least one.
-/

namespace HeldReply

/-- A **span** of time in nanoseconds. -/
structure Span where
  nanos : Nat
  deriving DecidableEq, Repr, Inhabited

namespace Span

/-- The greatest span, in nanoseconds. -/
def greatest : Nat := 0xFFFFFFFFFFFFFFFF * 1000000000 + 999999999

/-- A span of whole milliseconds. -/
def ofMillis (ms : Nat) : Span := ⟨ms * 1000000⟩

/-- A span of seconds and nanoseconds. -/
def ofParts (secs nanos : Nat) : Span := ⟨secs * 1000000000 + nanos⟩

/-- Whether a span is empty. -/
def isZero (d : Span) : Bool := d.nanos == 0

/-- The double of a span, cut at the greatest span. -/
def twice (d : Span) : Span := ⟨min (2 * d.nanos) greatest⟩

/-- The milliseconds of a span; a begun millisecond counts. -/
def ticks (d : Span) : Nat := (d.nanos + 999999) / 1000000

/-- Thirty years of 365 days, in milliseconds. -/
def thirtyYears : Nat := 30 * 365 * 24 * 60 * 60 * 1000

/-- **When a rest ends** that begins at a time.  Nobody rests for more than thirty years. -/
def restUntil (d : Span) (now : Nat) : Nat := now + min d.ticks thirtyYears

/-- **When a wait is given up** that begins at a time. -/
def waitUntil (d : Span) (now : Nat) : Nat := now + d.ticks

/-- Whether a span **has passed** at a time since another. -/
def HasPassed (d : Span) (since now : Nat) : Prop :=
  since * 1000000 + d.nanos ≤ now * 1000000

/-- A wait is given up in the **first millisecond** by which the whole span has passed. -/
theorem waitUntil_le_iff (d : Span) (since now : Nat) :
    d.waitUntil since ≤ now ↔ d.HasPassed since now := by
  unfold waitUntil ticks HasPassed
  omega

/-- No wait is given up before it begins. -/
theorem le_waitUntil (d : Span) (now : Nat) : now ≤ d.waitUntil now :=
  Nat.le_add_right now d.ticks

/-- Of two waits of one length, the one that begins first is **given up first**. -/
theorem waitUntil_mono (d : Span) {t now : Nat} (h : t ≤ now) : d.waitUntil t ≤ d.waitUntil now :=
  Nat.add_le_add_right h d.ticks

/-- A span of whole milliseconds has just as many. -/
theorem ticks_ofMillis (ms : Nat) : (ofMillis ms).ticks = ms := by
  show (ms * 1000000 + 999999) / 1000000 = ms
  omega

/-- The `width` decimal digits of `n` below the point, without trailing zeros. -/
def fraction (width n : Nat) : List Char :=
  let ds := Number.digits n
  let padded := List.replicate (width - ds.length) '0' ++ ds
  (padded.reverse.dropWhile (· == '0')).reverse

/-- A number of units with `rest` of `10 ^ width` parts of one more, and the unit's name. -/
def inUnit (whole width rest : Nat) (unit : String) : String :=
  let point := if rest = 0 then [] else '.' :: fraction width rest
  Number.decimal whole ++ String.ofList point ++ unit

/-- The **shown form** of a span. -/
def toText (d : Span) : String :=
  let n := d.nanos
  if 1000000000 ≤ n then inUnit (n / 1000000000) 9 (n % 1000000000) "s"
  else if 1000000 ≤ n then inUnit (n / 1000000) 6 (n % 1000000) "ms"
  else if 1000 ≤ n then inUnit (n / 1000) 3 (n % 1000) "µs"
  else inUnit n 0 0 "ns"

end Span

end HeldReply
