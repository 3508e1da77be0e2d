import ComputePool.Time.Timestamp
import Mathlib.Algebra.Order.Ring.Int

/-!
# Exact times

Every operation on spans and instants is told by the whole numbers of nanoseconds behind them
(`Span.toNanos`, `Instant.toNanos`): a product or a sum is what it is among the numbers, and there
is none exactly if that number is out of range. Nothing wraps, and no carry from the nanoseconds to
the seconds is lost.
-/

namespace ComputePool

namespace Span

variable {d e : Span} {k n offset : Nat}

/-- No span is longer than its seconds can be counted in 64 bits. -/
theorem toNanos_lt (d : Span) : d.toNanos < 2 ^ 64 * 1000000000 := by
  have hseconds := d.seconds.toNat_lt
  have hnanos := d.nanos.isLt
  unfold toNanos
  omega

/-- A span is known by its length. -/
theorem toNanos_inj : d.toNanos = e.toNanos ↔ d = e := by
  refine ⟨fun h => ?_, congrArg toNanos⟩
  obtain ⟨seconds, nanos⟩ := d
  obtain ⟨seconds', nanos'⟩ := e
  have hnanos := nanos.isLt
  have hnanos' := nanos'.isLt
  simp only [toNanos] at h
  have hseconds : seconds.toNat = seconds'.toNat := by omega
  have hrest : nanos.val = nanos'.val := by omega
  rw [UInt64.toNat_inj.1 hseconds, Fin.ext hrest]

/-- Seconds that fit are so many thousand million nanoseconds. -/
theorem toNanos_ofSeconds (h : n < 2 ^ 64) :
    (ofSeconds (UInt64.ofNat n)).toNanos = n * 1000000000 := by
  unfold ofSeconds toNanos
  rw [UInt64.toNat_ofNat_of_lt' h, Fin.val_zero, Nat.add_zero]

/-- Milliseconds that fit are so many million nanoseconds. -/
theorem toNanos_ofMillis (h : n < 2 ^ 64) :
    (ofMillis (UInt64.ofNat n)).toNanos = n * 1000000 := by
  have hmillis : (UInt64.ofNat n).toNat = n := UInt64.toNat_ofNat_of_lt' h
  have hseconds : (UInt64.ofNat n / 1000).toNat = n / 1000 := by
    rw [UInt64.toNat_div, hmillis]
    rfl
  have hnanos : (Fin.ofNat 1000000000 (n % 1000 * 1000000)).val = n % 1000 * 1000000 := by
    exact Nat.mod_eq_of_lt (by omega)
  unfold ofMillis toNanos
  rw [hmillis, hseconds, hnanos]
  omega

/-- A length in nanoseconds is that of one span at most. -/
theorem ofNanos?_eq_some_iff : ofNanos? n = some d ↔ d.toNanos = n := by
  unfold ofNanos?
  by_cases h : n / 1000000000 < UInt64.size
  · have hexact :
        (Span.mk (UInt64.ofNat (n / 1000000000)) (Fin.ofNat 1000000000 n)).toNanos = n := by
      unfold toNanos
      rw [UInt64.toNat_ofNat_of_lt' h]
      exact Nat.div_add_mod' n 1000000000
    rw [if_pos h, Option.some.injEq, ← toNanos_inj, hexact]
    exact eq_comm
  · rw [if_neg h]
    refine iff_of_false (by simp) fun hd => h ?_
    have hlt := toNanos_lt d
    rw [hd, Nat.mul_comm] at hlt
    exact Nat.div_lt_of_lt_mul hlt

/-- A product is the span of the exact length. -/
theorem scale?_eq_some_iff : d.scale? k = some e ↔ e.toNanos = d.toNanos * k :=
  ofNanos?_eq_some_iff

/-- A product is out of range only if its length is. -/
theorem exists_scale?_iff :
    (∃ e, d.scale? k = some e) ↔ d.toNanos * k < 2 ^ 64 * 1000000000 := by
  constructor
  · rintro ⟨e, he⟩
    rw [← scale?_eq_some_iff.1 he]
    exact toNanos_lt e
  · intro h
    rw [Nat.mul_comm (2 ^ 64)] at h
    exact ⟨_, if_pos (Nat.div_lt_of_lt_mul h)⟩

/-- A span is an offset of the same length if it is not too long for one. -/
theorem toOffset?_eq_some_iff :
    d.toOffset? = some offset ↔ d.toNanos = offset ∧ offset ≤ maxOffset := by
  unfold toOffset?
  by_cases h : d.toNanos ≤ maxOffset
  · rw [if_pos h, Option.some.injEq]
    exact ⟨fun heq => ⟨heq, heq ▸ h⟩, And.left⟩
  · rw [if_neg h]
    exact iff_of_false (by simp) fun heq => h (heq.1 ▸ heq.2)

/-- A product of offsets is exact as long as its seconds fit. -/
theorem scaleOffset?_eq_some_iff : scaleOffset? k offset = some n ↔
    offset * k = n ∧ n < (2 ^ 63 - 1) * 1000000000 := by
  unfold scaleOffset?
  by_cases h : offset * k / 1000000000 < 9223372036854775807
  · rw [if_pos h, Option.some.injEq]
    exact ⟨fun heq => ⟨heq, by omega⟩, And.left⟩
  · rw [if_neg h]
    exact iff_of_false (by simp) fun heq => h (by omega)

end Span

namespace Instant

variable {i j : Instant} {offset : Nat}

/-- The last second of the calendar has a last nanosecond. -/
theorem valid_latest : Valid lastSecond 999999999 := by decide

/-- The last instant that is no leap second. -/
def latest : Instant := ⟨lastSecond, 999999999, valid_latest⟩

example : latest.text = "+262142-12-31T23:59:59.999999999Z" := by decide

/-- The instant is that many nanoseconds after the epoch, to the nanosecond. -/
def IsAt (i : Instant) (n : Int) : Prop := i.toNanos = n ∧ i.nano < 1000000000

/-- So many nanoseconds after the epoch there is one instant at most, leap seconds apart. -/
theorem ofNanos?_eq_some_iff {n : Int} : ofNanos? n = some i ↔ i.IsAt n := by
  obtain ⟨second, nano, hvalid⟩ := i
  have hparts : (second = n / 1000000000 ∧ nano = (n % 1000000000).toNat) ↔
      second * 1000000000 + nano = n ∧ nano < 1000000000 := by omega
  refine Iff.trans ?_ hparts
  unfold ofNanos? ofUnix?
  by_cases h : Valid (n / 1000000000) (n % 1000000000).toNat
  · rw [dif_pos h, Option.some.injEq, Instant.mk.injEq]
    exact and_congr eq_comm eq_comm
  · rw [dif_neg h]
    refine iff_of_false (by simp) ?_
    rintro ⟨rfl, rfl⟩
    exact h hvalid

/-- Instants are ordered like the nanoseconds behind them. -/
theorem IsAt.le_iff {m n : Int} (hi : i.IsAt m) (hj : j.IsAt n) : i ≤ j ↔ m ≤ n := by
  obtain ⟨rfl, hi⟩ := hi
  obtain ⟨rfl, hj⟩ := hj
  show (_ < _ ∨ _ = _ ∧ _ ≤ _) ↔ _ * _ + _ ≤ _ * _ + _
  omega

/-- A sum is the instant of the exact number of nanoseconds. -/
theorem add?_eq_some_iff : i.add? offset = some j ↔ j.IsAt (i.toNanos + offset) :=
  ofNanos?_eq_some_iff

/-- No instant comes after the last one. -/
theorem IsAt.le_latest {n : Int} (h : i.IsAt n) : n ≤ latest.toNanos := by
  obtain ⟨rfl, hnano⟩ := h
  have hlast := i.valid.2.1
  show i.second * 1000000000 + i.nano ≤ lastSecond * 1000000000 + (999999999 : Nat)
  omega

/-- A later instant is out of range only if it would come after the last one. -/
theorem exists_add?_iff :
    (∃ j, i.add? offset = some j) ↔ i.toNanos + offset ≤ latest.toNanos := by
  constructor
  · rintro ⟨j, hj⟩
    exact (add?_eq_some_iff.1 hj).le_latest
  · intro h
    have hfirst := i.valid.1
    have hvalid : Valid ((i.toNanos + offset) / 1000000000)
        ((i.toNanos + offset) % 1000000000).toNat := by
      have hlatest : latest.toNanos = lastSecond * 1000000000 + 999999999 := rfl
      have hi : i.toNanos = i.second * 1000000000 + i.nano := rfl
      exact ⟨by omega, by omega, .inl (by omega)⟩
    exact ⟨_, dif_pos hvalid⟩

end Instant

end ComputePool
