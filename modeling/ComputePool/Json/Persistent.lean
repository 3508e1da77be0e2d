import ComputePool.Json.Basic
import ComputePool.Time.Timestamp

/-!
# Persisted values

How a value is encoded as JSON and decoded again. Decoding is `none` for every JSON value that
does not have the type's form: an integer out of range, a number that is not written as an
integer, a name that is none of an enumeration's.

A record is encoded as an object. It is decoded from an object, in which unknown fields are
passed over, and also from the array of its field values in order. An optional field that is
`none` is left out; a missing field and a `null` both read as `none`.
-/

namespace ComputePool

/-- Values with a JSON form. -/
class Persistent (α : Type) where
  encode : α → Json
  decode? : Json → Option α

export Persistent (encode decode?)

instance : Persistent Bool where
  encode := .bool
  decode?
    | .bool b => some b
    | _ => none

instance : Persistent String where
  encode := .str
  decode?
    | .str s => some s
    | _ => none

/-- Counters are written as integers below 2^64. -/
instance : Persistent Nat where
  encode n := .int n
  decode?
    | .int n => if 0 ≤ n ∧ n < UInt64.size then some n.toNat else none
    | _ => none

instance : Persistent UInt64 where
  encode n := .int n.toNat
  decode?
    | .int n => if 0 ≤ n ∧ n < UInt64.size then some (UInt64.ofNat n.toNat) else none
    | _ => none

instance : Persistent UInt32 where
  encode n := .int n.toNat
  decode?
    | .int n => if 0 ≤ n ∧ n < UInt32.size then some (UInt32.ofNat n.toNat) else none
    | _ => none

instance : Persistent Int32 where
  encode n := .int n.toInt
  decode?
    | .int n => if -2147483648 ≤ n ∧ n ≤ 2147483647 then some (Int32.ofInt n) else none
    | _ => none

/-- Only the whole seconds of a span are kept. -/
instance : Persistent Span where
  encode d := encode d.seconds
  decode? v := (decode? v).map Span.ofSeconds

instance : Persistent Instant where
  encode i := .str i.text
  decode?
    | .str s => Instant.ofText? s
    | _ => none

instance {α : Type} [Persistent α] : Persistent (List α) where
  encode xs := .arr (xs.map encode)
  decode?
    | .arr vs => vs.mapM decode?
    | _ => none

/-! ## Enumerations -/

/-- A type of finitely many values, each with a name. -/
class Named (α : Type) where
  all : List α
  name : α → String

/-- The value of a name. -/
def Named.ofName? {α : Type} [Named α] (s : String) : Option α :=
  (Named.all : List α).find? fun a => Named.name a == s

/-- A named value is its name, or an object whose single field is the name and is `null`. -/
instance {α : Type} [Named α] : Persistent α where
  encode a := .str (Named.name a)
  decode?
    | .str s => Named.ofName? s
    | .obj [(s, .null)] => Named.ofName? s
    | _ => none

/-! ## Records -/

namespace Json

/-- The fields of a record. -/
abbrev Fields := List (String × Json)

/-- The fields of a record with these field names, given by name or in order. -/
def fields? (names : List String) : Json → Option Fields
  | .obj fields => some fields
  | .arr values => if values.length ≤ names.length then some (names.zip values) else none
  | _ => none

/-- The value of a field that must be there. -/
def required? {α : Type} [Persistent α] (fields : Fields) (name : String) : Option α :=
  (fields.lookup name).bind decode?

/-- The value of a field that may be missing or `null`; the outer option tells a value of the
wrong form. -/
def optional? {α : Type} [Persistent α] (fields : Fields) (name : String) : Option (Option α) :=
  match fields.lookup name with
  | none | some .null => some none
  | some v => (decode? v).map some

/-- One field. -/
def field {α : Type} [Persistent α] (name : String) (a : α) : Fields := [(name, encode a)]

/-- One field, or none at all. -/
def optionalField {α : Type} [Persistent α] (name : String) : Option α → Fields
  | none => []
  | some a => field name a

end Json

end ComputePool
