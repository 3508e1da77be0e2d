import ComputePool.Json.Persistent
import ComputePool.Proofs.Persistence.Timestamp
import ComputePool.Uuid

/-!
# Values that come back

A type is faithful if every value of it is read back from its JSON form (`Faithful`), and plain if
this form has no `null` in it (`Plain`). Numbers of a fixed width, texts, instants, identifiers and
names with distinct texts are both, and so are lists of what is. Counters and spans are plain: a
counter comes back if it is below 2^64, of a span the whole seconds come back.

A record comes back with its fields. A field is found under its name wherever it stands, and an
optional field that was left out is found to be missing, since no field is written as `null`
(`Json.optional?_optionalField`).
-/

namespace ComputePool

/-- There is no `null` in the value. -/
inductive Json.NullFree : Json → Prop where
  | bool (b : Bool) : NullFree (.bool b)
  | int (n : Int) : NullFree (.int n)
  | decimal (literal : String) : NullFree (.decimal literal)
  | str (s : String) : NullFree (.str s)
  | arr {items : List Json} (h : ∀ v ∈ items, v.NullFree) : NullFree (.arr items)
  | obj {fields : List (String × Json)} (h : ∀ f ∈ fields, f.2.NullFree) : NullFree (.obj fields)

/-- There is no `null` in the form of a value. -/
class Plain (α : Type) [Persistent α] : Prop where
  nullFree (a : α) : (encode a).NullFree

/-- Every value is read back from its form. -/
class Faithful (α : Type) [Persistent α] : Prop extends Plain α where
  restored (a : α) : decode? (encode a) = some a

export Plain (nullFree)

export Faithful (restored)

attribute [simp] restored nullFree

/-! ## Plain values -/

instance : Faithful Bool where
  restored _ := rfl
  nullFree b := .bool b

instance : Faithful String where
  restored _ := rfl
  nullFree s := .str s

instance : Plain Nat := ⟨fun n => .int n⟩

instance : Plain Span := ⟨fun d => .int d.seconds.toNat⟩

instance : Faithful UInt64 where
  restored n := by
    have hlt := n.toNat_lt_size
    show (if 0 ≤ (n.toNat : Int) ∧ (n.toNat : Int) < UInt64.size then _ else none) = _
    rw [if_pos ⟨by omega, by exact_mod_cast hlt⟩, Int.toNat_natCast, UInt64.ofNat_toNat]
  nullFree n := .int _

instance : Faithful UInt32 where
  restored n := by
    have hlt := n.toNat_lt_size
    show (if 0 ≤ (n.toNat : Int) ∧ (n.toNat : Int) < UInt32.size then _ else none) = _
    rw [if_pos ⟨by omega, by exact_mod_cast hlt⟩, Int.toNat_natCast, UInt32.ofNat_toNat]
  nullFree n := .int _

instance : Faithful Int32 where
  restored n := by
    have hlow := n.le_toInt
    have hhigh := n.toInt_lt
    show (if -2147483648 ≤ n.toInt ∧ n.toInt ≤ 2147483647 then _ else none) = _
    rw [if_pos ⟨by omega, by omega⟩, Int32.ofInt_toInt]
  nullFree n := .int _

instance : Faithful Instant where
  restored i := i.ofText?_text
  nullFree _ := .str _

instance {α : Type} [Persistent α] [Plain α] : Plain (List α) where
  nullFree xs := .arr fun v hv => by
    obtain ⟨x, -, rfl⟩ := List.mem_map.1 hv
    exact nullFree x

instance {α : Type} [Persistent α] [Faithful α] : Faithful (List α) where
  restored xs := by
    show (xs.map encode).mapM decode? = some xs
    induction xs with
    | nil => rfl
    | cons x xs ih =>
      rw [List.map_cons, List.mapM_cons, restored, ih]
      rfl

/-- A counter below 2^64 is read back. -/
theorem restored_nat {n : Nat} (h : n < UInt64.size) : decode? (encode n) = some n := by
  show (if 0 ≤ (n : Int) ∧ (n : Int) < UInt64.size then some (n : Int).toNat else none) = _
  rw [if_pos ⟨by omega, by exact_mod_cast h⟩, Int.toNat_natCast]

/-- Only counters below 2^64 are read. -/
theorem lt_of_decode?_nat {v : Json} {n : Nat} (h : decode? v = some n) : n < UInt64.size := by
  cases v with
  | int k =>
    have h : (if 0 ≤ k ∧ k < UInt64.size then some k.toNat else none) = some n := h
    split at h
    · next hk =>
      rw [← Option.some.inj h]
      omega
    · exact absurd h (by simp)
  | _ => exact absurd h (by simp [decode?])

/-- The whole seconds of a span are read back. -/
theorem restored_span (d : Span) : decode? (encode d) = some (Span.ofSeconds d.seconds) := by
  show (decode? (encode d.seconds)).map Span.ofSeconds = _
  rw [restored]
  rfl

/-- Only whole seconds are read. -/
theorem eq_of_decode?_span {v : Json} {d : Span} (h : decode? v = some d) :
    d = Span.ofSeconds d.seconds := by
  obtain ⟨seconds, -, rfl⟩ := Option.map_eq_some_iff.1 h
  rfl

/-! ## Names -/

/-- No two values have the same name. -/
class Distinct (α : Type) [Named α] : Prop where
  ofName?_name (a : α) : Named.ofName? (Named.name a) = some a

instance {α : Type} [Named α] [Distinct α] : Faithful α where
  restored a := Distinct.ofName?_name a
  nullFree _ := .str _

/-! ## Identifiers -/

namespace Uuid

/-- Hexadecimal digits are read back as what they stand for. -/
theorem mapM_value?_digit (ds : List (Fin 16)) : (ds.map Hex.digit).mapM Hex.value? = some ds := by
  induction ds with
  | nil => rfl
  | cons d ds ih => rw [List.map_cons, List.mapM_cons, Hex.value?_digit, ih]; rfl

/-- The groups are read without the hyphens between them. -/
theorem ofGroups?_hyphens {a b c d e : List Char} (ha : a.length = 8) (hb : b.length = 4)
    (hc : c.length = 4) (hd : d.length = 4) (he : e.length = 12) :
    ofGroups? (a ++ '-' :: b ++ '-' :: c ++ '-' :: d ++ '-' :: e) =
      ofPlain? (a ++ b ++ c ++ d ++ e) := by
  unfold ofGroups?
  rw [if_pos (by simp [ha, hb, hc, hd, he])]
  congr 1
  simp (disch := omega) [List.drop_append, List.drop_eq_nil_of_le, ha, hb, hc, hd]

/-- The groups make up the digits. -/
theorem groups_append (cs : List Char) :
    cs.take 8 ++ (cs.drop 8).take 4 ++ (cs.drop 12).take 4 ++ (cs.drop 16).take 4 ++ cs.drop 20 =
      cs := by
  have hgroup : ∀ k n, (cs.drop k).take n ++ cs.drop (k + n) = cs.drop k := by
    intro k n
    rw [← List.drop_drop]
    exact List.take_append_drop n (cs.drop k)
  rw [List.append_assoc, hgroup 16 4, List.append_assoc, hgroup 12 4, List.append_assoc, hgroup 8 4]
  exact List.take_append_drop 8 cs

theorem length_digits (u : Uuid) : (u.digits.map Hex.digit).length = 32 := by
  rw [List.length_map]
  exact u.length_eq

/-- The groups of an identifier, without the hyphens, are all of its digits. -/
theorem ofGroups?_chars (u : Uuid) : ofGroups? u.chars = ofPlain? (u.digits.map Hex.digit) := by
  have hlength := u.length_digits
  have hgroups := groups_append (u.digits.map Hex.digit)
  unfold chars
  generalize u.digits.map Hex.digit = cs at hlength hgroups ⊢
  have hhyphens := ofGroups?_hyphens (a := cs.take 8) (b := (cs.drop 8).take 4)
    (c := (cs.drop 12).take 4) (d := (cs.drop 16).take 4) (e := cs.drop 20) (by simp [hlength])
    (by simp [hlength]) (by simp [hlength]) (by simp [hlength]) (by simp [hlength])
  rw [hgroups] at hhyphens
  exact hhyphens

/-- An identifier is read back from its characters. -/
theorem ofChars?_chars (u : Uuid) : ofChars? u.chars = some u := by
  have hlength : u.chars.length = 36 := by
    unfold chars
    simp [u.length_digits]
  unfold ofChars?
  rw [if_neg (by omega), if_pos hlength, u.ofGroups?_chars]
  unfold ofPlain?
  rw [mapM_value?_digit]
  exact dif_pos u.length_eq

instance : Faithful Uuid where
  restored u := by
    show ofChars? (String.ofList u.chars).toList = some u
    rw [String.toList_ofList]
    exact u.ofChars?_chars
  nullFree u := .str _

end Uuid

/-! ## Fields -/

namespace Json

/-- A field is taken from what was read; `Option.bind_some` says so by computation, in which a bound
such as 2^64 would be counted down. -/
theorem some_bind {α β : Type} (a : α) (f : α → Option β) : (some a >>= f) = f a :=
  Instant.bind_of_some rfl f

variable {α : Type} [Persistent α] {fields : Fields} {name : String}

@[simp] theorem fields?_obj (names : List String) (fields : Fields) :
    fields? names (.obj fields) = some fields := rfl

/-- A field is found under its own name only. -/
@[simp] theorem lookup_field (name other : String) (a : α) :
    (field name a).lookup other = if other = name then some (encode a) else none := by
  show (match other == name with
    | true => some (encode a)
    | false => none) = _
  by_cases h : other = name
  · rw [if_pos h, beq_iff_eq.2 h]
  · rw [if_neg h, beq_eq_false_iff_ne.2 h]

/-- A field that may be missing is found under its name if it has a value. -/
@[simp] theorem lookup_optionalField (name other : String) (a : Option α) :
    (optionalField name a).lookup other = if other = name then a.map encode else none := by
  cases a with
  | none => exact (ite_self none).symm
  | some a => exact lookup_field name other a

/-- A field that is not among the first ones is looked for behind them. -/
theorem lookup_append_of_none {fields : Fields} {name : String} (h : fields.lookup name = none)
    (fields' : Fields) : (fields ++ fields').lookup name = fields'.lookup name := by
  rw [List.lookup_append, h, Option.none_or]

/-- A field is looked for further on where the first fields do not have it. -/
@[simp] theorem required?_append (h : fields.lookup name = none) (fields' : Fields) :
    (required? (fields ++ fields') name : Option α) = required? fields' name := by
  unfold required?
  rw [lookup_append_of_none h]

/-- A field that comes first is read as its value was written. -/
@[simp] theorem required?_field_append (name : String) (a : α) (fields : Fields) :
    (required? (field name a ++ fields) name : Option α) = decode? (encode a) := by
  unfold required?
  rw [List.lookup_append, lookup_field, if_pos rfl, Option.some_or, Option.bind_some]

@[simp] theorem required?_field (name : String) (a : α) :
    (required? (field name a) name : Option α) = decode? (encode a) := by
  unfold required?
  rw [lookup_field, if_pos rfl, Option.bind_some]

/-- A field that may be missing is looked for further on as well. -/
@[simp] theorem optional?_append (h : fields.lookup name = none) (fields' : Fields) :
    (optional? (fields ++ fields') name : Option (Option α)) = optional? fields' name := by
  unfold optional?
  rw [lookup_append_of_none h]

/-- An optional field is read as it was written, or left out. -/
@[simp] theorem optional?_optionalField_append [Faithful α] (h : fields.lookup name = none)
    (a : Option α) : optional? (optionalField name a ++ fields) name = some a := by
  unfold optional?
  rw [List.lookup_append, lookup_optionalField, if_pos rfl, h, Option.or_none]
  cases a with
  | none => rfl
  | some a =>
    have hfree := nullFree a
    have hrestored := restored a
    rw [Option.map_some]
    generalize encode a = v at hfree hrestored ⊢
    cases hfree with
    | _ => exact congrArg (Option.map some) hrestored

/-- A missing field is read as missing, and a present one as its value. -/
@[simp] theorem optional?_optionalField [Faithful α] (name : String) (a : Option α) :
    optional? (optionalField name a) name = some a := by
  rw [← List.append_nil (optionalField name a)]
  exact optional?_optionalField_append rfl a

/-- No field is `null`. -/
def Fields.NullFree (fields : Fields) : Prop := ∀ f ∈ fields, f.2.NullFree

theorem nullFree_obj {fields : Fields} (h : fields.NullFree) : (Json.obj fields).NullFree := .obj h

@[simp] theorem nullFree_append {fields fields' : Fields} :
    Fields.NullFree (fields ++ fields') ↔ fields.NullFree ∧ fields'.NullFree :=
  List.forall_mem_append

/-- A field of a plain value holds no null. -/
@[simp] theorem nullFree_field [Plain α] (name : String) (a : α) : (field name a).NullFree := by
  intro f hf
  rw [List.mem_singleton.1 hf]
  exact nullFree a

/-- A value that is missing is left out and not written as null. -/
@[simp] theorem nullFree_optionalField [Plain α] (name : String) (a : Option α) :
    (optionalField name a).NullFree := by
  cases a with
  | none => exact fun f hf => absurd hf List.not_mem_nil
  | some a => exact nullFree_field name a

end Json

end ComputePool
