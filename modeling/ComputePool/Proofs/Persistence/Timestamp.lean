import ComputePool.Proofs.Persistence.Calendar

/-!
# Every instant is read back from its text

The text of an instant is read field by field. A field is a run of digits that ends at the sign
behind it, so that it is read as the number that was written (`Digits.read?_append`); the fraction
of a second is read as the nanoseconds, in whichever number of places it was written. What is put
together from the fields is the instant again, since the calendar is consistent
(`Instant.ofText?_text`). A leap second is written as second 60, and is the only one that is read
from it.
-/

namespace ComputePool

/-! ## Digits -/

namespace Digits

/-- A digit stands for the number modulo ten. -/
theorem digit_spec (d : Nat) : (digit d).isDigit = true ∧ digitValue (digit d) = d % 10 := by
  have hall : ∀ k < 10, (Char.ofNat (48 + k)).isDigit = true ∧
      digitValue (Char.ofNat (48 + k)) = k := by decide
  exact hall (d % 10) (Nat.mod_lt d (by decide))

theorem length_fixed (width n : Nat) : (fixed width n).length = width := by
  induction width generalizing n with
  | zero => rfl
  | succ width ih =>
    unfold fixed
    rw [List.length_append, ih]
    rfl

theorem isDigit_of_mem_fixed {width n : Nat} {c : Char} (h : c ∈ fixed width n) :
    c.isDigit = true := by
  induction width generalizing n with
  | zero => exact absurd h List.not_mem_nil
  | succ width ih =>
    unfold fixed at h
    rcases List.mem_append.1 h with h | h
    · exact ih h
    · rw [List.mem_singleton.1 h]
      exact (digit_spec n).1

/-- A further digit shifts the others by one place. -/
theorem value_append_singleton (ds : List Char) (c : Char) :
    value (ds ++ [c]) = 10 * value ds + digitValue c := by
  unfold value
  rw [List.foldl_append]
  rfl

/-- A number of few enough digits is read back. -/
theorem value_fixed (width n : Nat) : value (fixed width n) = n % 10 ^ width := by
  induction width generalizing n with
  | zero =>
    rw [Nat.pow_zero, Nat.mod_one]
    rfl
  | succ width ih =>
    unfold fixed
    rw [value_append_singleton, ih, (digit_spec n).2, Nat.pow_succ', Nat.mod_mul, Nat.add_comm]

/-- Leading zeros add nothing to the value. -/
theorem value_replicate_append (k : Nat) (ds : List Char) :
    value (List.replicate k '0' ++ ds) = value ds := by
  unfold value
  rw [List.foldl_append]
  congr 1
  induction k with
  | zero => rfl
  | succ k ih => exact ih

/-- The decimal digits of a number have it as their value. -/
theorem value_toDigits (n : Nat) : value (Nat.toDigits 10 n) = n :=
  Nat.ofDigitChars_toDigits (b := 10) (by decide) (by decide)

theorem value_padded (width n : Nat) : value (padded width n) = n :=
  (value_replicate_append _ _).trans (value_toDigits n)

theorem isDigit_of_mem_padded {width n : Nat} {c : Char} (h : c ∈ padded width n) :
    c.isDigit = true := by
  rcases List.mem_append.1 h with h | h
  · rw [List.eq_of_mem_replicate h]
    decide
  · exact Nat.isDigit_of_mem_toDigits (by decide) (by decide) h

theorem length_padded (width n : Nat) : width ≤ (padded width n).length := by
  unfold padded
  rw [List.length_append, List.length_replicate]
  omega

/-- A run of digits is read up to its end, if no more of them may be taken than there are. -/
theorem read?_append (most : Option Nat) {ds rest : List Char} (hds : ∀ c ∈ ds, c.isDigit = true)
    (hne : 0 < ds.length) (hmost : ∀ k, most = some k → ds.length ≤ k)
    (hrest : rest.takeWhile Char.isDigit = []) :
    read? most (ds ++ rest) = some (value ds, rest) := by
  have hrun : (ds ++ rest).takeWhile Char.isDigit = ds := by
    rw [List.takeWhile_append_of_pos hds, hrest, List.append_nil]
  have hempty : ds.isEmpty = false := List.isEmpty_eq_false_iff.2 (List.ne_nil_of_length_pos hne)
  unfold read?
  rw [hrun]
  cases most with
  | none =>
    dsimp only
    rw [hempty, List.drop_left]
    rfl
  | some k =>
    dsimp only
    rw [List.take_of_length_le (hmost k rfl), hempty, List.drop_left]
    rfl

/-- A number in a fixed number of digits is read as the number that was written. -/
theorem read?_fixed {places n : Nat} (hplaces : 0 < places) (hn : n < 10 ^ places)
    {rest : List Char} (hrest : rest.takeWhile Char.isDigit = []) :
    read? (some places) (fixed places n ++ rest) = some (n, rest) := by
  have hlength := length_fixed places n
  rw [read?_append _ (fun _ hc => isDigit_of_mem_fixed hc) (by omega)
      (fun k hk => by rw [← Option.some.inj hk]; omega) hrest,
    value_fixed, Nat.mod_eq_of_lt hn]

/-- Zeros at the end shift the value by their places. -/
theorem value_append_zeros (ds : List Char) (k : Nat) :
    value (ds ++ List.replicate k '0') = value ds * 10 ^ k := by
  induction k with
  | zero => rw [List.replicate_zero, List.append_nil, Nat.pow_zero, Nat.mul_one]
  | succ k ih =>
    rw [List.replicate_succ', ← List.append_assoc, value_append_singleton, ih, Nat.pow_succ',
      Nat.mul_left_comm]
    rfl

end Digits

namespace Text

theorem isBlank_of_isDigit {c : Char} (h : c.isDigit = true) : isBlank c = false := by
  have hrange : 48 ≤ c.toNat ∧ c.toNat ≤ 57 := by
    simpa [Char.isDigit, UInt32.le_iff_toNat_le] using h
  unfold isBlank
  simp
  omega

theorem skipBlanks_cons {c : Char} (h : isBlank c = false) (cs : List Char) :
    skipBlanks (c :: cs) = c :: cs := List.dropWhile_cons_of_neg (by simp [h])

/-- No blank stands before a run of digits. -/
theorem skipBlanks_digits {ds rest : List Char} (hds : ∀ c ∈ ds, c.isDigit = true)
    (hne : 0 < ds.length) : skipBlanks (ds ++ rest) = ds ++ rest := by
  cases ds with
  | nil => exact absurd hne (Nat.lt_irrefl 0)
  | cons c cs => exact skipBlanks_cons (isBlank_of_isDigit (hds c List.mem_cons_self)) _

end Text

namespace Instant

open Text Digits

/-! ## The fields of a timestamp -/

/-- A sign that is no blank is read as it stands. -/
theorem literal?_skipBlanks {c : Char} (h : isBlank c = false) (cs : List Char) :
    literal? c (skipBlanks (c :: cs)) = some cs := by
  rw [skipBlanks_cons h]
  exact if_pos rfl

/-- A field of two digits is read as the number that was written. -/
theorem readField?_fixed {n : Nat} (hn : n < 100) {rest : List Char}
    (hrest : rest.takeWhile Char.isDigit = []) :
    readField? (fixed 2 n ++ rest) = some (n, rest) := by
  unfold readField?
  rw [skipBlanks_digits (fun _ hc => isDigit_of_mem_fixed hc) (by rw [length_fixed]; decide)]
  exact read?_fixed (by decide) hn hrest

/-- No digit is a sign of a year. -/
theorem not_sign_of_isDigit {c : Char} (h : c.isDigit = true) : c ≠ '-' ∧ c ≠ '+' := by
  constructor
  · rintro rfl
    exact absurd h (by decide)
  · rintro rfl
    exact absurd h (by decide)

/-- A year without a sign begins with a digit, which is none. -/
theorem readYear?_digits {ds : List Char} (hds : ∀ c ∈ ds, c.isDigit = true) (hne : 0 < ds.length)
    (rest : List Char) :
    readYear? (ds ++ rest) =
      (read? (some 4) (ds ++ rest)).map fun (n, rest) => ((n : Int), rest) := by
  cases ds with
  | nil => exact absurd hne (Nat.lt_irrefl 0)
  | cons c cs =>
    obtain ⟨hminus, hplus⟩ := not_sign_of_isDigit (hds c List.mem_cons_self)
    rw [List.cons_append]
    unfold readYear?
    split
    · next heq => exact absurd (List.cons.inj heq).1 hminus
    · next heq => exact absurd (List.cons.inj heq).1 hplus
    · rfl

/-- A year is read as it was written, with or without a sign. -/
theorem readYear?_yearText (year : Int) (rest : List Char)
    (hrest : rest.takeWhile Char.isDigit = []) :
    skipBlanks (yearText year ++ rest) = yearText year ++ rest ∧
      readYear? (yearText year ++ rest) = some (year, rest) := by
  unfold yearText
  split
  · next hyear =>
    have hds : ∀ c ∈ fixed 4 year.toNat, c.isDigit = true := fun _ hc => isDigit_of_mem_fixed hc
    have hlength := length_fixed 4 year.toNat
    refine ⟨skipBlanks_digits hds (by omega), ?_⟩
    rw [readYear?_digits hds (by omega), read?_fixed (by decide) (by omega) hrest,
      Option.map_some]
    dsimp only
    rw [Int.toNat_of_nonneg hyear.1]
  · next hyear =>
    have hlength := length_padded 4 year.natAbs
    have hds : ∀ c ∈ padded 4 year.natAbs, c.isDigit = true :=
      fun _ hc => isDigit_of_mem_padded hc
    have hread := read?_append none hds (by omega) nofun hrest
    rw [value_padded] at hread
    refine ⟨skipBlanks_cons (by split <;> decide) _, ?_⟩
    split
    · show (read? none (padded 4 year.natAbs ++ rest)).map _ = _
      rw [hread, Option.map_some]
      dsimp only
      rw [show -(year.natAbs : Int) = year by omega]
    · show (read? none (padded 4 year.natAbs ++ rest)).map _ = _
      rw [hread, Option.map_some]
      dsimp only
      rw [show (year.natAbs : Int) = year by omega]

/-- The places that are left out are zeros. -/
theorem nanosOfPlaces_fixed {places nanos : Nat} (hplaces : places ≤ 9)
    (hnanos : nanos < 10 ^ places) :
    nanosOfPlaces (fixed places nanos) = nanos * 10 ^ (9 - places) := by
  have hkept : (fixed places nanos).take 9 = fixed places nanos :=
    List.take_of_length_le (by rw [length_fixed]; exact hplaces)
  unfold nanosOfPlaces
  dsimp only
  rw [hkept, length_fixed, value_append_zeros, value_fixed, Nat.mod_eq_of_lt hnanos]

/-- A fraction is read as so many nanoseconds. -/
theorem readFraction?_fixed {places n : Nat} (hpos : 0 < places) (hle : places ≤ 9)
    (hn : n < 10 ^ places) :
    readFraction? ('.' :: fixed places n ++ ['Z']) = some (n * 10 ^ (9 - places), ['Z']) := by
  have hds : ∀ c ∈ fixed places n, c.isDigit = true := fun _ hc => isDigit_of_mem_fixed hc
  have hempty : (fixed places n).isEmpty = false :=
    List.isEmpty_eq_false_iff.2 (List.ne_nil_of_length_pos (by rw [length_fixed]; exact hpos))
  show (if ((fixed places n ++ ['Z']).takeWhile Char.isDigit).isEmpty then none
    else some (nanosOfPlaces ((fixed places n ++ ['Z']).takeWhile Char.isDigit),
      (fixed places n ++ ['Z']).dropWhile Char.isDigit)) = _
  rw [List.takeWhile_append_of_pos hds, List.dropWhile_append_of_pos hds]
  show (if (fixed places n ++ []).isEmpty then none
    else some (nanosOfPlaces (fixed places n ++ []), ['Z'])) = _
  rw [List.append_nil, hempty, nanosOfPlaces_fixed hle hn]
  rfl

/-- The fraction of a second is read as it was written, in three, six or nine places, or in none. -/
theorem readFraction?_fractionText {nanos : Nat} (hnanos : nanos < 1000000000) :
    readFraction? (fractionText nanos ++ ['Z']) = some (nanos, ['Z']) := by
  unfold fractionText
  split
  · next hzero =>
    rw [hzero]
    rfl
  · split
    · next hmillis =>
      rw [readFraction?_fixed (by decide) (by decide) (by omega)]
      rw [show nanos / 1000000 * 10 ^ (9 - 3) = nanos by omega]
    · split
      · next hmicros =>
        rw [readFraction?_fixed (by decide) (by decide) (by omega)]
        rw [show nanos / 1000 * 10 ^ (9 - 6) = nanos by omega]
      · rw [readFraction?_fixed (by decide) (by decide) (by omega)]
        rw [show nanos * 10 ^ (9 - 9) = nanos by omega]

/-- The fraction begins with its point and not with a digit, so the seconds end before it. -/
theorem takeWhile_fractionText (nanos : Nat) :
    (fractionText nanos ++ ['Z']).takeWhile Char.isDigit = [] := by
  unfold fractionText
  split
  · rfl
  · split
    · rfl
    · split
      · rfl
      · rfl

/-! ## The whole timestamp -/

/-- A timestamp in UTC, field by field. -/
def written (date : Date) (hour minute second nanos : Nat) : List Char :=
  yearText date.year ++ '-' :: (fixed 2 date.month ++ '-' :: (fixed 2 date.day ++
    'T' :: (fixed 2 hour ++ ':' :: (fixed 2 minute ++ ':' :: (fixed 2 second ++
      (fractionText nanos ++ ['Z']))))))

/-- A first part that gives a value hands it on. -/
theorem bind_of_some {α β : Type} {x : Option α} {a : α} (h : x = some a) (f : α → Option β) :
    (x >>= f) = f a := by
  rw [h]
  rfl

/-- A timestamp is read field by field, as it was written. -/
theorem ofChars?_written {date : Date} {hour minute second nanos : Nat} (hmonth : date.month < 100)
    (hday : date.day < 100) (hhour : hour < 100) (hminute : minute < 100) (hsecond : second < 100)
    (hnanos : nanos < 1000000000) :
    ofChars? (written date hour minute second nanos) =
      ofLocal? date hour minute second nanos 0 := by
  obtain ⟨hskip, hyear⟩ := readYear?_yearText date.year ('-' :: (fixed 2 date.month ++
    '-' :: (fixed 2 date.day ++ 'T' :: (fixed 2 hour ++ ':' :: (fixed 2 minute ++ ':' ::
      (fixed 2 second ++ (fractionText nanos ++ ['Z']))))))) rfl
  have hdash : isBlank '-' = false := by decide
  have hcolon : isBlank ':' = false := by decide
  have hseparator : ∀ cs, readSeparator? ('T' :: cs) = some cs := fun _ => rfl
  have hoffset : readOffset? ['Z'] = some (0, []) := rfl
  unfold ofChars? written
  rw [hskip, bind_of_some hyear]
  dsimp only
  rw [bind_of_some (literal?_skipBlanks hdash _), bind_of_some (readField?_fixed hmonth rfl)]
  dsimp only
  rw [bind_of_some (literal?_skipBlanks hdash _), bind_of_some (readField?_fixed hday rfl)]
  dsimp only
  rw [bind_of_some (hseparator _), bind_of_some (readField?_fixed hhour rfl)]
  dsimp only
  rw [bind_of_some (literal?_skipBlanks hcolon _), bind_of_some (readField?_fixed hminute rfl)]
  dsimp only
  rw [bind_of_some (literal?_skipBlanks hcolon _),
    bind_of_some (readField?_fixed hsecond (takeWhile_fractionText nanos))]
  dsimp only
  rw [bind_of_some (readFraction?_fractionText hnanos), skipBlanks_cons (by decide),
    bind_of_some hoffset]
  exact if_pos rfl

/-- The date and the time of day of an instant make up the instant. -/
theorem ofLocal?_parts (i : Instant) (inDay : Nat) (hinDay : (inDay : Int) = i.second % 86400) :
    ofLocal? (Date.ofDays (i.second / 86400)) (inDay / 3600) (inDay / 60 % 60)
      (inDay % 60 + i.nano / 1000000000) (i.nano % 1000000000) 0 = some i := by
  obtain ⟨second, nano, hvalid⟩ := i
  obtain ⟨hfirst, hlast, hnano⟩ := id hvalid
  dsimp only at *
  have hyear := Date.year_ofDays (n := second / 86400)
    (Int.ediv_le_ediv (by decide) hfirst) (Int.ediv_le_ediv (by decide) hlast)
  have hexists := Date.exists?_ofDays (second / 86400)
  have hlt : inDay < 86400 := by omega
  -- only the last second of a minute may be a leap second
  have hleap : nano / 1000000000 = 0 ∨ nano / 1000000000 = 1 ∧ inDay % 60 = 59 := by omega
  have hsecond : inDay / 3600 * 3600 + inDay / 60 % 60 * 60 +
      min (inDay % 60 + nano / 1000000000) 59 = inDay := by omega
  have hnanos : (if inDay % 60 + nano / 1000000000 = 60 then nano % 1000000000 + 1000000000
      else nano % 1000000000) = nano := by
    split
    · omega
    · omega
  unfold ofLocal?
  rw [if_pos ⟨hyear.1, hyear.2, hexists, by omega, by omega, by omega, by decide⟩,
    Date.toDays_ofDays]
  dsimp only
  rw [hnanos, hsecond, show second / 86400 * 86400 + (inDay : Int) - 0 = second by omega]
  exact dif_pos hvalid

/-- What is written for an instant is its date and its time of the day, part by part. -/
theorem chars_eq_written (i : Instant) : i.chars =
    written (Date.ofDays (i.second / 86400)) ((i.second % 86400).toNat / 3600)
      ((i.second % 86400).toNat / 60 % 60)
      ((i.second % 86400).toNat % 60 + i.nano / 1000000000) (i.nano % 1000000000) := by
  unfold chars written
  simp only [List.append_assoc, List.cons_append]

/-- Every instant is read back from its text. -/
theorem ofText?_text (i : Instant) : ofText? i.text = some i := by
  obtain ⟨hmonth, hday⟩ := Date.month_ofDays (i.second / 86400)
  obtain ⟨-, -, hnano⟩ := i.valid
  have hparts := i.ofLocal?_parts (i.second % 86400).toNat (by omega)
  unfold ofText? text
  rw [String.toList_ofList, chars_eq_written,
    ofChars?_written hmonth hday (by omega) (by omega) (by omega) (by omega), hparts]

/-- The text of an instant is in UTC. -/
theorem getLast?_text (i : Instant) : i.text.toList.getLast? = some 'Z' := by
  unfold text chars
  rw [String.toList_ofList]
  exact List.getLast?_concat

end Instant

end ComputePool
