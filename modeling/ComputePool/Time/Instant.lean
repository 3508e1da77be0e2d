import ComputePool.Time.Span

/-!
# Instants

An `Instant` is a point of the UTC time line: a second counted from 1970-01-01T00:00:00Z and the
nanoseconds into it. The last second of a minute may run on for a second billion of nanoseconds,
which is a leap second. Instants are ordered by second, then by nanosecond.

Every instant lies between `firstSecond` and `lastSecond`, the years -262143 to 262142, so moving
an instant may fail and is `none` then.
-/

namespace ComputePool

namespace Instant

/-- The first second of the year -262143. -/
def firstSecond : Int := -8334601228800

/-- The last second of the year 262142. -/
def lastSecond : Int := 8210266876799

/-- The second is in range, and only the last second of a minute is longer than the others. -/
def Valid (second : Int) (nano : Nat) : Prop :=
  firstSecond ≤ second ∧ second ≤ lastSecond ∧
    (nano < 1000000000 ∨ nano < 2000000000 ∧ second % 60 = 59)

instance (second : Int) (nano : Nat) : Decidable (Valid second nano) :=
  inferInstanceAs (Decidable (_ ∧ _))

end Instant

/-- A point in time. -/
structure Instant where
  second : Int
  nano : Nat
  valid : Instant.Valid second nano
deriving DecidableEq

namespace Instant

/-- The beginning of 1970. -/
def epoch : Instant := ⟨0, 0, by decide⟩

instance : Inhabited Instant := ⟨epoch⟩

/-- The instant of a second and its nanoseconds, if there is one. -/
def ofUnix? (second : Int) (nano : Nat) : Option Instant :=
  if h : Valid second nano then some ⟨second, nano, h⟩ else none

/-- Nanoseconds since the epoch. -/
def toNanos (i : Instant) : Int := i.second * 1000000000 + i.nano

/-- The instant that many nanoseconds after the epoch, if it is in range. -/
def ofNanos? (n : Int) : Option Instant := ofUnix? (n / 1000000000) (n % 1000000000).toNat

/-- Earlier, or the same instant. -/
protected def le (a b : Instant) : Prop :=
  a.second < b.second ∨ a.second = b.second ∧ a.nano ≤ b.nano

/-- Strictly earlier. -/
protected def lt (a b : Instant) : Prop :=
  a.second < b.second ∨ a.second = b.second ∧ a.nano < b.nano

instance : LE Instant := ⟨Instant.le⟩

instance : LT Instant := ⟨Instant.lt⟩

instance (a b : Instant) : Decidable (a ≤ b) := inferInstanceAs (Decidable (_ ∨ _))

instance (a b : Instant) : Decidable (a < b) := inferInstanceAs (Decidable (_ ∨ _))

instance : Ord Instant :=
  ⟨fun a b => (compare a.second b.second).then (compare a.nano b.nano)⟩

/-- The instant moved by a number of nanoseconds, if it stays in range. -/
def shift? (i : Instant) (nanos : Int) : Option Instant := ofNanos? (i.toNanos + nanos)

/-- The instant moved forward by an offset, if it stays in range. -/
def add? (i : Instant) (offset : Nat) : Option Instant := i.shift? offset

/-- The instant moved by milliseconds, which stops at the ends of the time line. -/
def plusMillis (i : Instant) (ms : Int) : Instant :=
  (i.shift? (ms * 1000000)).getD
    (if ms < 0 then ⟨firstSecond, 0, by decide⟩ else ⟨lastSecond, 999999999, by decide⟩)

/-- The nanoseconds from `start` to the instant. -/
def nanosSince (i start : Instant) : Int := i.toNanos - start.toNanos

/-- At least `d` has passed since `start`. -/
def hasElapsed (i start : Instant) (d : Span) : Bool := (d.toNanos : Int) ≤ i.nanosSince start

end Instant

end ComputePool
