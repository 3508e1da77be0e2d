import ComputePool.Authorization
import Mathlib.Algebra.Order.Ring.Int

/-!
# What a signature binds

The message behind a signature is four parts, each after its length in eight bytes. It is read back
from the front: the first eight bytes say where the first part ends, and there the next length
stands (`splitParts_flatMap`). So a message has one reading only, and none begins another one
(`SignedParts.message_prefix_iff`). Two authorizations that differ, or have different signers, share
a signature if and only if their messages collide (`signatures_unambiguous`).
-/

namespace ComputePool

/-! ## Lengths -/

namespace Digest

/-- The number that bytes denote, the highest byte first. -/
def number (bytes : List UInt8) : Nat := bytes.foldl (fun n byte => 256 * n + byte.toNat) 0

/-- A further byte shifts the number by eight bits. -/
theorem number_concat (bytes : List UInt8) (byte : UInt8) :
    number (bytes ++ [byte]) = 256 * number bytes + byte.toNat := by
  rw [number, List.foldl_append]
  rfl

theorem length_bigEndian (count n : Nat) : (bigEndian count n).length = count := by
  induction count generalizing n with
  | zero => rfl
  | succ count ih => rw [bigEndian, List.length_append, ih, List.length_singleton]

/-- A number is read back as far as its bytes go. -/
theorem number_bigEndian (count n : Nat) : number (bigEndian count n) = n % 256 ^ count := by
  induction count generalizing n with
  | zero => exact (Nat.mod_one n).symm
  | succ count ih =>
    have hbyte : (UInt8.ofNat n).toNat = n % 256 := UInt8.toNat_ofNat'
    calc number (bigEndian (count + 1) n)
        = 256 * (n / 256 % 256 ^ count) + n % 256 := by rw [bigEndian, number_concat, ih, hbyte]
      _ = n % (256 * 256 ^ count) := by rw [Nat.mod_mul, Nat.add_comm]
      _ = n % 256 ^ (count + 1) := by rw [Nat.pow_succ']

/-- Two messages are different and have one digest. -/
def Collide (message message' : List UInt8) : Prop :=
  message ≠ message' ∧ sha256 message = sha256 message'

end Digest

/-! ## Reading a message -/

/-- The first part of a message, and what stands behind it. -/
def splitPart (message : List UInt8) : List UInt8 × List UInt8 :=
  (message.drop 8).splitAt (Digest.number (message.take 8))

/-- The first parts of a message, and what stands behind them. -/
def splitParts : (count : Nat) → List UInt8 → List (List UInt8) × List UInt8
  | 0, message => ([], message)
  | count + 1, message =>
    let first := splitPart message
    let others := splitParts count first.2
    (first.1 :: others.1, others.2)

/-- A part is read back from behind its length, whatever follows it. The length must fit into its
eight bytes. -/
theorem splitPart_messagePart {part : List UInt8} (h : part.length < 2 ^ 64) (rest : List UInt8) :
    splitPart (messagePart part ++ rest) = (part, rest) := by
  have hlength : (Digest.bigEndian 8 part.length).length = 8 := Digest.length_bigEndian 8 _
  have hnumber : Digest.number (Digest.bigEndian 8 part.length) = part.length :=
    (Digest.number_bigEndian 8 _).trans (Nat.mod_eq_of_lt h)
  rw [messagePart, List.append_assoc, splitPart, List.take_left' hlength, List.drop_left' hlength,
    hnumber, List.splitAt_eq, List.take_left, List.drop_left]

/-- Any number of parts is read back, whatever follows the last one. -/
theorem splitParts_flatMap {parts : List (List UInt8)} (h : ∀ part ∈ parts, part.length < 2 ^ 64)
    (rest : List UInt8) :
    splitParts parts.length (parts.flatMap messagePart ++ rest) = (parts, rest) := by
  induction parts with
  | nil => rfl
  | cons part parts ih =>
    obtain ⟨hpart, hparts⟩ := List.forall_mem_cons.1 h
    simp only [List.flatMap_cons, List.append_assoc, List.length_cons, splitParts,
      splitPart_messagePart hpart, ih hparts]

/-- Messages of as many parts are the same as soon as one begins the other: what is read from the
longer one are the parts of both. -/
theorem eq_of_isPrefix_flatMap {parts parts' : List (List UInt8)}
    (hcount : parts.length = parts'.length) (h : ∀ part ∈ parts, part.length < 2 ^ 64)
    (h' : ∀ part ∈ parts', part.length < 2 ^ 64)
    (hbegins : parts.flatMap messagePart <+: parts'.flatMap messagePart) : parts = parts' := by
  obtain ⟨rest, hrest⟩ := hbegins
  have hread := splitParts_flatMap h rest
  have hread' := splitParts_flatMap h' []
  rw [List.append_nil, ← hrest, ← hcount, hread] at hread'
  exact congrArg Prod.fst hread'

/-! ## Texts as bytes -/

/-- The bytes that are read one by one are those that are stored. -/
theorem toList_loop (bytes : ByteArray) (i : Nat) (read : List UInt8) :
    ByteArray.toList.loop bytes i read = read.reverse ++ bytes.data.toList.drop i := by
  induction i, read using ByteArray.toList.loop.induct bytes with
  | case1 i read hi ih =>
    have hbyte : bytes.get! i = bytes.data.toList[i] := getElem!_pos bytes.data i hi
    rw [ByteArray.toList.loop, if_pos hi, ih, List.reverse_cons, List.append_assoc, hbyte,
      List.singleton_append, ← List.drop_eq_getElem_cons]
  | case2 i read hi =>
    have hend : bytes.data.toList.length ≤ i := Nat.le_of_not_lt hi
    rw [ByteArray.toList.loop, if_neg hi, List.drop_eq_nil_of_le hend, List.append_nil]

theorem utf8_eq (s : String) : utf8 s = s.toByteArray.data.toList := toList_loop _ 0 []

theorem length_utf8 (s : String) : (utf8 s).length = s.utf8ByteSize := by
  rw [utf8_eq]
  exact String.size_toByteArray

theorem utf8_inj {s t : String} : utf8 s = utf8 t ↔ s = t := by
  rw [utf8_eq, utf8_eq, Array.toList_inj, ← String.toByteArray_inj, ByteArray.ext_iff]

/-! ## Signed parts -/

/-- What a signature is made from. -/
structure SignedParts where
  key : List UInt8
  wallet : List UInt8
  chainTaskId : List UInt8
  enclaveChallenge : List UInt8
deriving DecidableEq

namespace SignedParts

variable {p q : SignedParts}

/-- The parts in the order in which they are signed. -/
def toList (p : SignedParts) : List (List UInt8) :=
  [p.key, p.wallet, p.chainTaskId, p.enclaveChallenge]

/-- The message whose digest is the signature. -/
def message (p : SignedParts) : List UInt8 :=
  signedMessage p.key p.wallet p.chainTaskId p.enclaveChallenge

/-- The length of every part fits into eight bytes. -/
def IsShort (p : SignedParts) : Prop := ∀ part ∈ p.toList, part.length < 2 ^ 64

theorem message_eq_flatMap (p : SignedParts) : p.message = p.toList.flatMap messagePart := by
  simp [message, signedMessage, toList]

theorem toList_inj : p.toList = q.toList ↔ p = q := by
  cases p
  cases q
  simp [toList]

/-- No message begins another one. -/
theorem message_prefix_iff (hp : p.IsShort) (hq : q.IsShort) :
    p.message <+: q.message ↔ p = q := by
  rw [message_eq_flatMap, message_eq_flatMap, ← toList_inj]
  exact ⟨eq_of_isPrefix_flatMap rfl hp hq, fun h => h ▸ List.prefix_rfl⟩

/-- Of short parts each message is made in one way. -/
theorem message_inj (hp : p.IsShort) (hq : q.IsShort) : p.message = q.message ↔ p = q :=
  ⟨fun h => (message_prefix_iff hp hq).1 (h ▸ List.prefix_rfl), congrArg message⟩

end SignedParts

/-! ## Signatures -/

namespace Signer

variable {s s' : Signer} {wallet wallet' task task' challenge challenge' : String}

/-- What the signature of an authorization is made from. -/
def parts (s : Signer) (wallet chainTaskId enclaveChallenge : String) : SignedParts :=
  ⟨s.key, utf8 wallet, utf8 chainTaskId, utf8 enclaveChallenge⟩

theorem parts_inj : s.parts wallet task challenge = s'.parts wallet' task' challenge' ↔
    s = s' ∧ wallet = wallet' ∧ task = task' ∧ challenge = challenge' := by
  rw [parts, parts, SignedParts.mk.injEq, utf8_inj, utf8_inj, utf8_inj, ← Signer.mk.injEq]

/-- The parts are short if each of the four has fewer bytes than eight bytes can count. -/
theorem isShort_parts : (s.parts wallet task challenge).IsShort ↔
    s.key.length < 2 ^ 64 ∧ wallet.utf8ByteSize < 2 ^ 64 ∧ task.utf8ByteSize < 2 ^ 64 ∧
      challenge.utf8ByteSize < 2 ^ 64 := by
  simp [SignedParts.IsShort, SignedParts.toList, parts, length_utf8]

/-- The text of a signature tells the digest, and nothing but the digest. -/
theorem signature_eq_iff : (s.authorize wallet task challenge).signature =
      (s'.authorize wallet' task' challenge').signature ↔
    Digest.sha256 (s.parts wallet task challenge).message =
      Digest.sha256 (s'.parts wallet' task' challenge').message := by
  unfold authorize
  rw [String.append_right_inj, String.ofList_inj, Hex.text_inj]
  rfl

end Signer

/-- Two messages are equal only if they are made from the same parts, and neither begins the other
one otherwise. So two authorizations, of one signer or of two, have one signature if and only if
they are the same or their messages collide. -/
theorem signatures_unambiguous (p q : SignedParts) (hp : p.IsShort) (hq : q.IsShort) :
    (p.message = q.message ↔ p = q) ∧
    (p.message <+: q.message → p.message = q.message) ∧
    (q.message <+: p.message → q.message = p.message) ∧
    ∀ (s s' : Signer) (wallet task challenge wallet' task' challenge' : String),
      s.parts wallet task challenge = p → s'.parts wallet' task' challenge' = q →
      ((s.authorize wallet task challenge).signature =
          (s'.authorize wallet' task' challenge').signature ↔
        (s = s' ∧ wallet = wallet' ∧ task = task' ∧ challenge = challenge') ∨
          Digest.Collide p.message q.message) := by
  refine ⟨SignedParts.message_inj hp hq, fun h => ?_, fun h => ?_, ?_⟩
  · rw [(SignedParts.message_prefix_iff hp hq).1 h]
  · rw [(SignedParts.message_prefix_iff hq hp).1 h]
  · rintro s s' wallet task challenge wallet' task' challenge' rfl rfl
    rw [Signer.signature_eq_iff, ← Signer.parts_inj, ← SignedParts.message_inj hp hq]
    constructor
    · intro hdigest
      by_cases hsame : (s.parts wallet task challenge).message =
          (s'.parts wallet' task' challenge').message
      · exact .inl hsame
      · exact .inr ⟨hsame, hdigest⟩
    · rintro (hsame | ⟨-, hdigest⟩)
      · rw [hsame]
      · exact hdigest

/-- The last sign of a wallet that moves to the front of the task makes another message, and
another signature unless the two messages collide. -/
theorem signatures_unambiguous_shifted :
    let s : Signer := ⟨utf8 "key"⟩
    let p := s.parts "0xab" "c" "0xchallenge"
    let q := s.parts "0xa" "bc" "0xchallenge"
    p.IsShort ∧ q.IsShort ∧ p.message ≠ q.message ∧ ¬ p.message <+: q.message ∧
      ¬ q.message <+: p.message ∧
      ((s.authorize "0xab" "c" "0xchallenge").signature =
          (s.authorize "0xa" "bc" "0xchallenge").signature ↔
        Digest.Collide p.message q.message) := by
  intro s p q
  have hkey : s.key.length < 2 ^ 64 := by
    rw [length_utf8]
    decide
  have hp : p.IsShort := Signer.isShort_parts.2 ⟨hkey, by decide, by decide, by decide⟩
  have hq : q.IsShort := Signer.isShort_parts.2 ⟨hkey, by decide, by decide, by decide⟩
  obtain ⟨hmessage, hbegins, hbegins', hsignature⟩ := signatures_unambiguous p q hp hq
  have hdiffers : ¬ (s = s ∧ "0xab" = "0xa" ∧ "c" = "bc" ∧ "0xchallenge" = "0xchallenge") :=
    fun h => absurd h.2.1 (by decide)
  have hne : p.message ≠ q.message := fun h => hdiffers (Signer.parts_inj.1 (hmessage.1 h))
  refine ⟨hp, hq, hne, fun h => hne (hbegins h), fun h => hne (hbegins' h).symm, ?_⟩
  exact (hsignature s s _ _ _ _ _ _ rfl rfl).trans (or_iff_right hdiffers)

end ComputePool
