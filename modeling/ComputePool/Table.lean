/-!
# Tables

A finite map that keeps its entries in the order in which their keys first came in. Inserting
under a known key replaces the value in place, so a key occurs once. `find?` is the view through
which the operations are described.
-/

namespace ComputePool

/-- Values by key, in order of first insertion. -/
structure Table (κ α : Type) where
  entries : List (κ × α)
deriving Repr, DecidableEq

namespace Table

variable {κ α : Type} [DecidableEq κ]

/-- The table without entries. -/
def empty : Table κ α := ⟨[]⟩

instance : Inhabited (Table κ α) := ⟨empty⟩

/-- The value of a key in a list of entries. -/
def findIn (k : κ) : List (κ × α) → Option α
  | [] => none
  | e :: rest => if e.1 = k then some e.2 else findIn k rest

/-- The entries with the value of a key replaced, or with a new last entry. -/
def insertIn (k : κ) (a : α) : List (κ × α) → List (κ × α)
  | [] => [(k, a)]
  | e :: rest => if e.1 = k then (k, a) :: rest else e :: insertIn k a rest

/-- The value of a key. -/
def find? (k : κ) (t : Table κ α) : Option α := findIn k t.entries

/-- The key has a value. -/
def contains (k : κ) (t : Table κ α) : Bool := (t.find? k).isSome

/-- Sets the value of a key. -/
def insert (k : κ) (a : α) (t : Table κ α) : Table κ α := ⟨insertIn k a t.entries⟩

/-- Removes a key. -/
def erase (k : κ) (t : Table κ α) : Table κ α := ⟨t.entries.filter fun e => e.1 ≠ k⟩

/-- The keys in order. -/
def keys (t : Table κ α) : List κ := t.entries.map (·.1)

/-- The values in the order of their keys. -/
def values (t : Table κ α) : List α := t.entries.map (·.2)

/-- Keeps the entries that satisfy `p`. -/
def filter (p : κ → α → Bool) (t : Table κ α) : Table κ α :=
  ⟨t.entries.filter fun e => p e.1 e.2⟩

/-- The number of entries. -/
def size (t : Table κ α) : Nat := t.entries.length

/-! ## Lookup after an operation -/

omit [DecidableEq κ] in
@[simp] theorem find?_empty [DecidableEq κ] (k : κ) : (empty : Table κ α).find? k = none := rfl

/-- An insertion is found under its own key, and under every other key what was there before. -/
theorem findIn_insertIn (k k' : κ) (a : α) (es : List (κ × α)) :
    findIn k' (insertIn k a es) = if k = k' then some a else findIn k' es := by
  induction es with
  | nil => simp [insertIn, findIn]
  | cons e rest ih => grind [insertIn, findIn]

/-- The table with an entry inserted: its own key has it, every other key has what it had. -/
@[simp] theorem find?_insert (k k' : κ) (a : α) (t : Table κ α) :
    (t.insert k a).find? k' = if k = k' then some a else t.find? k' :=
  findIn_insertIn k k' a t.entries

/-- The table with a key erased: that key has nothing, every other key has what it had. -/
@[simp] theorem find?_erase (k k' : κ) (t : Table κ α) :
    (t.erase k).find? k' = if k = k' then none else t.find? k' := by
  obtain ⟨es⟩ := t
  simp only [erase, find?]
  induction es with
  | nil => simp [findIn]
  | cons e rest ih => grind [findIn]

end Table

end ComputePool
