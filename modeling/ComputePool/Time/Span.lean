import ComputePool.Text.Digits

/-!
# Spans of time

A `Span` is a length of time with nanosecond resolution and 64 bits of whole seconds. Products
of spans are checked: a span that does not fit is `none`, never a wrapped one.

An `offset` is the form of a span that can be added to an instant. It is bounded more tightly, by
2^63 - 1 milliseconds, and is a plain number of nanoseconds.
-/

namespace ComputePool

/-- A length of time: whole seconds, and nanoseconds below one second. -/
structure Span where
  seconds : UInt64
  nanos : Fin 1000000000
deriving DecidableEq, Repr, Inhabited

namespace Span

/-- The whole length in nanoseconds. -/
def toNanos (d : Span) : Nat := d.seconds.toNat * 1000000000 + d.nanos.val

/-- The span of that many nanoseconds, if its seconds fit 64 bits. -/
def ofNanos? (n : Nat) : Option Span :=
  if n / 1000000000 < UInt64.size then
    some ⟨UInt64.ofNat (n / 1000000000), Fin.ofNat 1000000000 n⟩
  else none

/-- A span of whole seconds. -/
def ofSeconds (s : UInt64) : Span := ⟨s, 0⟩

/-- A span of whole milliseconds. -/
def ofMillis (ms : UInt64) : Span :=
  ⟨ms / 1000, Fin.ofNat 1000000000 (ms.toNat % 1000 * 1000000)⟩

/-- The product with a small factor, if it is a span. -/
def scale? (k : Nat) (d : Span) : Option Span := ofNanos? (d.toNanos * k)

/-- The longest offset: 2^63 - 1 milliseconds, in nanoseconds. -/
def maxOffset : Nat := 9223372036854775807 * 1000000

/-- The span as an offset, if it is short enough to be one. -/
def toOffset? (d : Span) : Option Nat := if d.toNanos ≤ maxOffset then some d.toNanos else none

/-- The product of an offset with a small factor, if its seconds fit 63 bits. -/
def scaleOffset? (k : Nat) (offset : Nat) : Option Nat :=
  if offset * k / 1000000000 < 9223372036854775807 then some (offset * k) else none

/-- A number with a fraction of `width` places, without trailing zeros. -/
def decimal (whole fraction width : Nat) : List Char :=
  let places := (Digits.fixed width fraction).reverse.dropWhile (· == '0') |>.reverse
  Nat.toDigits 10 whole ++ if places.isEmpty then [] else '.' :: places

/-- A span is written in the largest of `s`, `ms`, `µs` and `ns` in which its integer part is not
zero; the zero span is `0ns`. -/
def text (d : Span) : String :=
  let n := d.nanos.val
  String.ofList <|
    if d.seconds ≠ 0 then decimal d.seconds.toNat n 9 ++ ['s']
    else if 1000000 ≤ n then decimal (n / 1000000) (n % 1000000) 6 ++ ['m', 's']
    else if 1000 ≤ n then decimal (n / 1000) (n % 1000) 3 ++ ['µ', 's']
    else decimal n 0 0 ++ ['n', 's']

end Span

end ComputePool
