/-!
# Decimal digits

Numbers as runs of ASCII digits: written with a fixed width, and read from the front of a text.
`read?` is greedy and takes at most a given number of digits.
-/

namespace ComputePool.Digits

/-- The character of one decimal digit. -/
def digit (d : Nat) : Char := Char.ofNat (48 + d % 10)

/-- The value of a digit character. -/
def digitValue (c : Char) : Nat := c.toNat - 48

/-- The lowest `width` digits of `n`, zeros in front. -/
def fixed : (width : Nat) → (n : Nat) → List Char
  | 0, _ => []
  | width + 1, n => fixed width (n / 10) ++ [digit n]

/-- `n` in at least `width` digits. -/
def padded (width n : Nat) : List Char :=
  let ds := Nat.toDigits 10 n
  List.replicate (width - ds.length) '0' ++ ds

/-- The number that a run of digits denotes. -/
def value (ds : List Char) : Nat := ds.foldl (fun n c => 10 * n + digitValue c) 0

/-- Reads a number of at least one digit from the front: the longest run of digits, or its
first `most` ones where a limit is given. -/
def read? (most : Option Nat) (cs : List Char) : Option (Nat × List Char) :=
  let run := cs.takeWhile Char.isDigit
  let ds := match most with
    | some k => run.take k
    | none => run
  if ds.isEmpty then none else some (value ds, cs.drop ds.length)

end ComputePool.Digits
