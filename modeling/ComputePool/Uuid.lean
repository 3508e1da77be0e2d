import ComputePool.Json.Persistent
import ComputePool.Text.Hex

/-!
# Universally unique identifiers

An identifier of 128 bits, written as 32 hexadecimal digits in groups of 8, 4, 4, 4 and 12 with
hyphens between them. It is also read without hyphens, in braces, and after `urn:uuid:`, in upper or
lower case.
-/

namespace ComputePool

/-- An identifier of 32 half bytes. -/
structure Uuid where
  digits : List (Fin 16)
  length_eq : digits.length = 32
deriving DecidableEq

namespace Uuid

/-- The identifier whose digits are all zero. -/
def nil : Uuid := ⟨List.replicate 32 ⟨0, by decide⟩, by decide⟩

instance : Inhabited Uuid := ⟨nil⟩

/-- The identifier of these digits, if there are 32. -/
def ofDigits? (ds : List (Fin 16)) : Option Uuid :=
  if h : ds.length = 32 then some ⟨ds, h⟩ else none

/-- The digits in their groups. -/
def chars (u : Uuid) : List Char :=
  let cs := u.digits.map Hex.digit
  cs.take 8 ++ '-' :: (cs.drop 8).take 4 ++ '-' :: (cs.drop 12).take 4 ++
    '-' :: (cs.drop 16).take 4 ++ '-' :: cs.drop 20

/-- The text of an identifier. -/
def text (u : Uuid) : String := String.ofList u.chars

/-- Reads digits without hyphens. -/
def ofPlain? (cs : List Char) : Option Uuid := do ofDigits? (← cs.mapM Hex.value?)

/-- Reads the five groups, hyphens between them. -/
def ofGroups? (cs : List Char) : Option Uuid :=
  if cs.length = 36 ∧ cs[8]? = some '-' ∧ cs[13]? = some '-' ∧ cs[18]? = some '-' ∧
      cs[23]? = some '-' then
    ofPlain? (cs.take 8 ++ (cs.drop 9).take 4 ++ (cs.drop 14).take 4 ++ (cs.drop 19).take 4 ++
      cs.drop 24)
  else none

/-- The word that introduces an identifier in a uniform resource name. -/
def urn : List Char := "urn:uuid:".toList

/-- Reads an identifier in any of its four forms. -/
def ofChars? (cs : List Char) : Option Uuid :=
  if cs.length = 32 then ofPlain? cs
  else if cs.length = 36 then ofGroups? cs
  else if cs.length = 38 ∧ cs.head? = some '\x7b' ∧ cs.getLast? = some '\x7d' then
    ofGroups? (cs.drop 1).dropLast
  else if cs.length = 45 ∧ (cs.take 9).map Char.toLower = urn then ofGroups? (cs.drop 9)
  else none

instance : Persistent Uuid where
  encode u := .str u.text
  decode?
    | .str s => ofChars? s.toList
    | _ => none

end Uuid

end ComputePool
