import ComputePool.Proofs.Persistence.Timestamp
import ComputePool.Settings
import Mathlib.Data.List.TakeWhile

/-!
# Numbers in settings

The language of the numbers that settings may have, stated without the reader: blanks around it put
aside (`Text.Trims`), a text denotes a number if it is a run of digits, with a plus sign in front or
without (`Denotes`). The reader takes exactly the texts that denote a number below its bound
(`readNumber_eq_ok_iff`), and its complaint about any other text says what is wrong with it
(`readNumber_eq_error_iff`).

The reader compares with the bound after each digit, and stops there. That makes no difference to
what it takes, since the number only grows with each digit (`Digits.le_valueFrom`).
-/

namespace ComputePool

/-! ## Blanks at the ends -/

namespace Text

/-- What is left of a text without the blanks at its ends. -/
structure Trims (cs mid : List Char) : Prop where
  around : ∃ before after, cs = before ++ mid ++ after ∧ (∀ c ∈ before, isBlank c = true) ∧
    ∀ c ∈ after, isBlank c = true
  first : ∀ c, mid.head? = some c → isBlank c = false
  last : ∀ c, mid.getLast? = some c → isBlank c = false

theorem skipBlanks_eq_append (cs : List Char) :
    ∃ before, cs = before ++ skipBlanks cs ∧ (∀ c ∈ before, isBlank c = true) ∧
      ∀ c, (skipBlanks cs).head? = some c → isBlank c = false := by
  refine ⟨cs.takeWhile isBlank, (List.takeWhile_append_dropWhile).symm,
    fun c hc => List.mem_takeWhile_imp hc, fun c hc => ?_⟩
  have hhead := List.head?_dropWhile_not isBlank cs
  unfold skipBlanks at hc
  rw [hc] at hhead
  exact hhead

/-- No blank is skipped where there is none. -/
theorem skipBlanks_append {before mid : List Char} (hbefore : ∀ c ∈ before, isBlank c = true)
    (hmid : ∀ c, mid.head? = some c → isBlank c = false) : skipBlanks (before ++ mid) = mid := by
  unfold skipBlanks
  rw [List.dropWhile_append_of_pos hbefore]
  cases mid with
  | nil => rfl
  | cons c rest => exact skipBlanks_cons (hmid c rfl) rest

/-- Trimming takes away the blanks at the ends, and nothing else. -/
theorem trim_eq_iff {cs mid : List Char} : trim cs = mid ↔ Trims cs mid := by
  constructor
  · rintro rfl
    obtain ⟨before, hbefore, hblank, hfirst⟩ := skipBlanks_eq_append cs
    obtain ⟨after, hafter, hblank', hlast⟩ := skipBlanks_eq_append (skipBlanks cs).reverse
    have hmid : skipBlanks cs = trim cs ++ after.reverse := by
      rw [← List.reverse_reverse (skipBlanks cs), hafter, List.reverse_append]
      rfl
    refine ⟨⟨before, after.reverse, ?_, hblank, fun c hc => hblank' c (List.mem_reverse.1 hc)⟩,
      fun c hc => hfirst c ?_, fun c hc => hlast c ?_⟩
    · rw [List.append_assoc, ← hmid]
      exact hbefore
    · rw [hmid, List.head?_append, hc]
      rfl
    · rw [← hc]
      exact List.getLast?_reverse.symm
  · rintro ⟨⟨before, after, rfl, hbefore, hafter⟩, hfirst, hlast⟩
    have hskip : skipBlanks (before ++ mid ++ after) = skipBlanks (mid ++ after) := by
      rw [List.append_assoc]
      exact List.dropWhile_append_of_pos hbefore
    unfold trim
    rw [hskip]
    cases mid with
    | nil =>
      have hnone : skipBlanks after = [] := List.dropWhile_eq_nil_iff.2 hafter
      rw [List.nil_append, hnone]
      rfl
    | cons c rest =>
      have hkept : skipBlanks (c :: rest ++ after) = c :: rest ++ after :=
        skipBlanks_cons (hfirst c rfl) _
      rw [hkept, List.reverse_append,
        skipBlanks_append (fun d hd => hafter d (List.mem_reverse.1 hd)) fun d hd => ?_,
        List.reverse_reverse]
      exact hlast d (List.head?_reverse.symm.trans hd)

end Text

/-! ## Digits -/

namespace Digits

/-- The number that digits denote behind a number. -/
def valueFrom (n : Nat) (ds : List Char) : Nat := ds.foldl (fun n c => 10 * n + digitValue c) n

/-- A number only grows with its digits. -/
theorem le_valueFrom (n : Nat) (ds : List Char) : n ≤ valueFrom n ds := by
  induction ds generalizing n with
  | nil => exact Nat.le_refl n
  | cons c rest ih =>
    have hstep : n ≤ 10 * n + digitValue c := by omega
    exact hstep.trans (ih _)

end Digits

open Digits

variable {bound n m : Nat} {cs : List Char} {fault : NumberFault}

/-- Digits are read if there is nothing else and the whole number is below the bound. -/
theorem readDigits_eq_ok_iff (hn : n < bound) :
    readDigits bound n cs = .ok m ↔
      (∀ c ∈ cs, c.isDigit = true) ∧ valueFrom n cs = m ∧ m < bound := by
  induction cs generalizing n with
  | nil =>
    show Except.ok n = .ok m ↔ _
    rw [Except.ok.injEq]
    exact ⟨fun h => ⟨fun c hc => absurd hc List.not_mem_nil, h, h ▸ hn⟩, fun h => h.2.1⟩
  | cons c rest ih =>
    unfold readDigits
    rw [List.forall_mem_cons]
    by_cases hc : c.isDigit = true
    · rw [if_pos hc]
      by_cases hlt : 10 * n + digitValue c < bound
      · exact (if_pos hlt).congr_left.trans ((ih hlt).trans (and_congr_left' (by simp [hc])))
      · -- the number is too large with this digit, and so it is with the others
        refine (if_neg hlt).congr_left.trans (iff_of_false (by simp) ?_)
        rintro ⟨-, hm, hbelow⟩
        have hgrows : 10 * n + digitValue c ≤ m := hm ▸ le_valueFrom _ rest
        omega
    · rw [if_neg hc]
      exact iff_of_false (by simp) fun h => hc h.1.1

/-- Digits are too large a number if the first of them are. -/
theorem readDigits_eq_tooLarge_iff (hn : n < bound) :
    readDigits bound n cs = .error .tooLarge ↔
      ∃ ds rest, cs = ds ++ rest ∧ (∀ c ∈ ds, c.isDigit = true) ∧ bound ≤ valueFrom n ds := by
  induction cs generalizing n with
  | nil =>
    refine iff_of_false (by simp [readDigits]) ?_
    rintro ⟨ds, rest, heq, -, hlarge⟩
    rw [(List.append_eq_nil_iff.1 heq.symm).1] at hlarge
    exact absurd hn (Nat.not_lt.2 hlarge)
  | cons c rest ih =>
    have hnext : (∃ ds rest', c :: rest = ds ++ rest' ∧ (∀ d ∈ ds, d.isDigit = true) ∧
        bound ≤ valueFrom n ds) ↔ c.isDigit = true ∧ ∃ ds rest', rest = ds ++ rest' ∧
          (∀ d ∈ ds, d.isDigit = true) ∧ bound ≤ valueFrom (10 * n + digitValue c) ds := by
      constructor
      · rintro ⟨ds, rest', heq, hds, hlarge⟩
        cases ds with
        | nil => exact absurd hn (Nat.not_lt.2 hlarge)
        | cons d ds =>
          obtain ⟨rfl, rfl⟩ := List.cons.inj heq
          obtain ⟨hd, hds⟩ := List.forall_mem_cons.1 hds
          exact ⟨hd, ds, rest', rfl, hds, hlarge⟩
      · rintro ⟨hc, ds, rest', rfl, hds, hlarge⟩
        exact ⟨c :: ds, rest', rfl, List.forall_mem_cons.2 ⟨hc, hds⟩, hlarge⟩
    rw [hnext]
    unfold readDigits
    by_cases hc : c.isDigit = true
    · rw [if_pos hc]
      by_cases hlt : 10 * n + digitValue c < bound
      · exact (if_pos hlt).congr_left.trans ((ih hlt).trans (by simp [hc]))
      · refine (if_neg hlt).congr_left.trans (iff_of_true rfl ⟨hc, [], rest, rfl, ?_, ?_⟩)
        · exact fun d hd => absurd hd List.not_mem_nil
        · exact Nat.not_lt.1 hlt
    · rw [if_neg hc]
      exact iff_of_false (by simp) fun h => hc h.1

/-- Who reads digits has no complaint about an empty text. -/
theorem readDigits_ne_empty (bound n : Nat) (cs : List Char) :
    readDigits bound n cs ≠ .error .empty := by
  induction cs generalizing n with
  | nil => simp [readDigits]
  | cons c rest ih =>
    unfold readDigits
    by_cases hc : c.isDigit = true
    · rw [if_pos hc]
      by_cases hlt : 10 * n + digitValue c < bound
      · exact (if_pos hlt).trans_ne (ih _)
      · exact (if_neg hlt).trans_ne (by simp)
    · rw [if_neg hc]
      simp

/-! ## Numerals -/

/-- The text is a run of digits, with a plus sign in front or without, and denotes the number. -/
def Denotes (cs : List Char) (n : Nat) : Prop :=
  ∃ sign ds, (sign = [] ∨ sign = ['+']) ∧ cs = sign ++ ds ∧ ds ≠ [] ∧
    (∀ c ∈ ds, c.isDigit = true) ∧ value ds = n

/-- The text begins like a number that is not below the bound, whatever comes after it. -/
def Exceeds (bound : Nat) (cs : List Char) : Prop :=
  ∃ sign ds rest, (sign = [] ∨ sign = ['+']) ∧ cs = sign ++ (ds ++ rest) ∧
    (∀ c ∈ ds, c.isDigit = true) ∧ bound ≤ value ds

/-- What is wrong with a text that is no number below the bound. -/
def Faulty (bound : Nat) (cs : List Char) : NumberFault → Prop
  | .empty => cs = []
  | .tooLarge => Exceeds bound cs
  | .invalidDigit => cs ≠ [] ∧ ¬ Exceeds bound cs ∧ ∀ n, ¬ Denotes cs n

/-- The text behind its plus sign. -/
def unsigned : List Char → List Char
  | '+' :: rest => rest
  | cs => cs

theorem unsigned_of_ne {c : Char} (h : c ≠ '+') (rest : List Char) :
    unsigned (c :: rest) = c :: rest := by
  unfold unsigned
  split
  · next heq => exact absurd (List.cons.inj heq).1 h
  · rfl

/-- There is one way to put the sign aside, if a digit is to follow. -/
theorem unsigned_append {sign ds : List Char} (hsign : sign = [] ∨ sign = ['+']) (hne : ds ≠ [])
    (hds : ∀ c ∈ ds, c.isDigit = true) (rest : List Char) :
    unsigned (sign ++ (ds ++ rest)) = ds ++ rest := by
  rcases hsign with rfl | rfl
  · cases ds with
    | nil => exact absurd rfl hne
    | cons c ds =>
      refine unsigned_of_ne ?_ _
      exact (Instant.not_sign_of_isDigit (hds c List.mem_cons_self)).2
  · rfl

/-- A text is its sign, if it has one, and the rest. -/
theorem eq_sign_append (cs : List Char) :
    ∃ sign, (sign = [] ∨ sign = ['+']) ∧ cs = sign ++ unsigned cs := by
  unfold unsigned
  split
  · exact ⟨['+'], .inr rfl, rfl⟩
  · exact ⟨[], .inl rfl, rfl⟩

/-- What a text denotes is told by its digits behind the sign. -/
theorem denotes_iff : Denotes cs n ↔
    unsigned cs ≠ [] ∧ (∀ c ∈ unsigned cs, c.isDigit = true) ∧ value (unsigned cs) = n := by
  constructor
  · rintro ⟨sign, ds, hsign, rfl, hne, hds, hvalue⟩
    have hrest := unsigned_append hsign hne hds []
    rw [List.append_nil] at hrest
    rw [hrest]
    exact ⟨hne, hds, hvalue⟩
  · rintro ⟨hne, hds, hvalue⟩
    obtain ⟨sign, hsign, heq⟩ := eq_sign_append cs
    exact ⟨sign, unsigned cs, hsign, heq, hne, hds, hvalue⟩

theorem exceeds_iff (hbound : 0 < bound) : Exceeds bound cs ↔
    ∃ ds rest, unsigned cs = ds ++ rest ∧ (∀ c ∈ ds, c.isDigit = true) ∧ bound ≤ value ds := by
  constructor
  · rintro ⟨sign, ds, rest, hsign, rfl, hds, hlarge⟩
    have hne : ds ≠ [] := by
      rintro rfl
      exact absurd hbound (Nat.not_lt.2 hlarge)
    exact ⟨ds, rest, unsigned_append hsign hne hds rest, hds, hlarge⟩
  · rintro ⟨ds, rest, heq, hds, hlarge⟩
    obtain ⟨sign, hsign, hcs⟩ := eq_sign_append cs
    exact ⟨sign, ds, rest, hsign, heq ▸ hcs, hds, hlarge⟩

/-- A text that is not empty is read behind its sign, where something must follow. -/
theorem readNumber_eq (h : cs ≠ []) :
    readNumber bound cs =
      if unsigned cs = [] then .error .invalidDigit else readDigits bound 0 (unsigned cs) := by
  unfold readNumber
  split
  · exact absurd rfl h
  · rfl
  · next rest hrest => exact (if_neg hrest).symm
  · next hne hplus hsigned =>
    have hsame : unsigned cs = cs := by
      unfold unsigned
      split
      · exact absurd rfl (hsigned _)
      · rfl
    rw [hsame, if_neg h]

/-- The numbers that are read are those that the text denotes, below the bound. -/
theorem readNumber_eq_ok_iff (hbound : 0 < bound) :
    readNumber bound cs = .ok n ↔ Denotes cs n ∧ n < bound := by
  rw [denotes_iff]
  by_cases hempty : cs = []
  · subst hempty
    exact iff_of_false (by simp [readNumber]) fun h => h.1.1 rfl
  · rw [readNumber_eq hempty]
    by_cases hrest : unsigned cs = []
    · rw [if_pos hrest]
      exact iff_of_false (by simp) fun h => h.1.1 hrest
    · rw [if_neg hrest, readDigits_eq_ok_iff hbound, and_iff_right hrest, and_assoc]
      rfl

/-- Only the empty text is reported as empty. -/
theorem readNumber_eq_empty_iff : readNumber bound cs = .error .empty ↔ cs = [] := by
  refine ⟨fun h => not_not.1 fun hne => ?_, fun h => h ▸ rfl⟩
  rw [readNumber_eq hne] at h
  split at h
  · exact absurd h (by simp)
  · exact readDigits_ne_empty _ _ _ h

theorem not_exceeds (hbound : 0 < bound) (h : unsigned cs = []) : ¬ Exceeds bound cs := by
  rw [exceeds_iff hbound, h]
  rintro ⟨ds, rest, heq, -, hlarge⟩
  rw [(List.append_eq_nil_iff.1 heq.symm).1] at hlarge
  exact absurd hbound (Nat.not_lt.2 hlarge)

/-- A number is reported as too large as soon as its digits come to the bound, whatever follows. -/
theorem readNumber_eq_tooLarge_iff (hbound : 0 < bound) :
    readNumber bound cs = .error .tooLarge ↔ Exceeds bound cs := by
  by_cases hempty : cs = []
  · subst hempty
    exact iff_of_false (by simp [readNumber]) (not_exceeds hbound rfl)
  · rw [readNumber_eq hempty]
    by_cases hrest : unsigned cs = []
    · rw [if_pos hrest]
      exact iff_of_false (by simp) (not_exceeds hbound hrest)
    · rw [if_neg hrest, exceeds_iff hbound]
      exact readDigits_eq_tooLarge_iff hbound

/-- A number that is not below the bound is too large. -/
theorem Denotes.exceeds (h : Denotes cs n) (hn : bound ≤ n) : Exceeds bound cs := by
  obtain ⟨sign, ds, hsign, rfl, -, hds, rfl⟩ := h
  exact ⟨sign, ds, [], hsign, by rw [List.append_nil], hds, hn⟩

/-- The complaint about a text says what is wrong with it. -/
theorem readNumber_eq_error_iff (hbound : 0 < bound) :
    readNumber bound cs = .error fault ↔ Faulty bound cs fault := by
  cases fault with
  | empty => exact readNumber_eq_empty_iff
  | tooLarge => exact readNumber_eq_tooLarge_iff hbound
  | invalidDigit =>
    have hempty : readNumber bound cs = .error .empty ↔ cs = [] := readNumber_eq_empty_iff
    unfold Faulty
    rw [← readNumber_eq_tooLarge_iff hbound, ne_eq, ← hempty]
    -- what is read is a number or one of the three faults
    rcases hread : readNumber bound cs with (_ | _ | _) | m
    · exact iff_of_false (by simp) fun h => h.1 rfl
    · refine iff_of_true rfl ⟨by simp, by simp, fun k hk => ?_⟩
      rcases Nat.lt_or_ge k bound with hlt | hge
      · rw [(readNumber_eq_ok_iff hbound).2 ⟨hk, hlt⟩] at hread
        exact absurd hread (by simp)
      · rw [(readNumber_eq_tooLarge_iff hbound).2 (hk.exceeds hge)] at hread
        exact absurd hread (by simp)
    · exact iff_of_false (by simp) fun h => h.2.1 rfl
    · exact iff_of_false (by simp) fun h => h.2.2 m ((readNumber_eq_ok_iff hbound).1 hread).1

end ComputePool
