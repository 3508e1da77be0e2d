/-!
# Hexadecimal digits

Half bytes and bytes as hexadecimal text. Digits are written in lower case and read in either.
-/

namespace ComputePool.Hex

/-- The lower-case character of a half byte. -/
def digit (d : Fin 16) : Char :=
  if d.val < 10 then Char.ofNat (48 + d.val) else Char.ofNat (87 + d.val)

/-- The half byte that a hexadecimal character denotes, in either case. -/
def value? (c : Char) : Option (Fin 16) :=
  let n := c.toNat
  if 48 ≤ n ∧ n ≤ 57 then some (Fin.ofNat 16 (n - 48))
  else if 97 ≤ n ∧ n ≤ 102 then some (Fin.ofNat 16 (n - 87))
  else if 65 ≤ n ∧ n ≤ 70 then some (Fin.ofNat 16 (n - 55))
  else none

/-- A half byte is read back from its character. -/
theorem value?_digit (d : Fin 16) : value? (digit d) = some d := by
  revert d; decide

/-- The two digits of a byte, the high half first. -/
def byte (b : UInt8) : List Char :=
  [digit (Fin.ofNat 16 (b.toNat / 16)), digit (Fin.ofNat 16 (b.toNat % 16))]

/-- The text of a sequence of bytes. -/
def text (bs : List UInt8) : List Char := bs.flatMap byte

/-- The bytes that a text of digit pairs denotes. -/
def bytes? : List Char → Option (List UInt8)
  | [] => some []
  | [_] => none
  | h :: l :: rest => do
    let h ← value? h
    let l ← value? l
    let rest ← bytes? rest
    return UInt8.ofNat (16 * h.val + l.val) :: rest

/-- Bytes are read back from their text. -/
theorem bytes?_text (bs : List UInt8) : bytes? (text bs) = some bs := by
  induction bs with
  | nil => rfl
  | cons b bs ih =>
    have hb := b.toNat_lt
    have hhigh : b.toNat / 16 % 16 = b.toNat / 16 := Nat.mod_eq_of_lt (by omega)
    have hbyte : 16 * (b.toNat / 16) + b.toNat % 16 = b.toNat := Nat.div_add_mod _ _
    show bytes? (_ :: _ :: text bs) = _
    simp only [bytes?, value?_digit, ih, Option.bind_eq_bind, Option.bind_some]
    simp [hhigh, hbyte]

theorem text_inj {bs cs : List UInt8} : text bs = text cs ↔ bs = cs := by
  refine ⟨fun h => Option.some.inj ?_, congrArg text⟩
  rw [← bytes?_text bs, h, bytes?_text]

/-- A number in hexadecimal without leading zeros. -/
def number (n : Nat) : List Char := Nat.toDigits 16 n

end ComputePool.Hex
