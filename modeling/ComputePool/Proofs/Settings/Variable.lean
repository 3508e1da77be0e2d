import ComputePool.Proofs.Settings.Numeral

/-!
# The variables of the settings

What an environment says with each variable, told by the bytes of the variable and not by the
reader. A variable is unset (`Variable.IsUnset`), or it gives a number (`Variable.Gives`), or it is
refused for its text (`Variable.RefusedFor`), and the reader tells the three apart. What it stops
with (`Variable.stop?`) is the report on the text, or the overflow of a number that is multiplied
into smaller units (`Variable.stop?_eq_some_iff`).
-/

namespace ComputePool

/-! ## Texts -/

/-- Bytes are the text of which they are the encoding. -/
theorem fromUTF8?_eq_some_iff {bytes : ByteArray} {raw : String} :
    String.fromUTF8? bytes = some raw ↔ bytes = raw.toUTF8 := by
  unfold String.fromUTF8?
  constructor
  · intro h
    split at h
    · rw [← Option.some.inj h]
      rfl
    · exact absurd h (by simp)
  · rintro rfl
    exact dif_pos raw.isValidUTF8

/-- A variable has a text if its bytes are those of the text; other bytes count as none. -/
theorem texts_eq_some_iff {env : RawEnvironment} {key raw : String} :
    env.texts key = some raw ↔ env key = some raw.toUTF8 := by
  unfold RawEnvironment.texts
  rw [Option.bind_eq_some_iff]
  simp only [fromUTF8?_eq_some_iff, exists_eq_right]

/-! ## Variables -/

/-- A variable of the settings. Its number stays below the bound, and so must the number of smaller
units that it is multiplied into. -/
structure Variable where
  key : String
  bound : Nat
  factor : Nat
  bound_pos : 0 < bound

namespace Variable

/-- The number of routines. -/
def poolSize : Variable := ⟨"WORKERPOOL_UPDATE_POOL_SIZE", 2 ^ 64, 1, by decide⟩

/-- The milliseconds between two top-ups. -/
def consumeInterval : Variable := ⟨"WORKERPOOL_CONSUME_INTERVAL_MS", 2 ^ 64, 1, by decide⟩

/-- The hours of the longest task; each is 3600 seconds. -/
def timeout : Variable := ⟨"WORKERPOOL_LONGEST_TASK_TIMEOUT_HOURS", 2 ^ 64, 3600, by decide⟩

/-- The seconds between two sweeps. -/
def sweepInterval : Variable := ⟨"WORKERPOOL_LOCK_SWEEP_INTERVAL_SECS", 2 ^ 64, 1, by decide⟩

/-- The attempts at an admission. -/
def attempts : Variable := ⟨"WORKERPOOL_ADMISSION_MAX_ATTEMPTS", 2 ^ 32, 1, by decide⟩

/-- The seconds between two detections. -/
def detectorInterval : Variable := ⟨"WORKERPOOL_DETECTOR_INTERVAL_SECS", 2 ^ 64, 1, by decide⟩

/-- The variables in the order in which they are read. -/
def all : List Variable :=
  [poolSize, consumeInterval, timeout, sweepInterval, attempts, detectorInterval]

variable (env : RawEnvironment) (v : Variable)

/-- The variable is set to a text. -/
def Holds (raw : String) : Prop := env v.key = some raw.toUTF8

/-- The variable is not set, or set to bytes that are no text. -/
def IsUnset : Prop := ∀ raw, ¬ v.Holds env raw

/-- Without the blanks around it, the text of the variable denotes a number below the bound. -/
def Gives (n : Nat) : Prop :=
  ∃ raw mid, v.Holds env raw ∧ Text.Trims raw.toList mid ∧ Denotes mid n ∧ n < v.bound

/-- Nothing is wrong with the variable. -/
def Acceptable : Prop := v.IsUnset env ∨ ∃ n, v.Gives env n

/-- The report on the variable names it, quotes its text, and says what is wrong with it. -/
def RefusedFor (e : EnvironmentFault) : Prop :=
  ∃ raw mid fault, v.Holds env raw ∧ Text.Trims raw.toList mid ∧ Faulty v.bound mid fault ∧
    e = .refused (.invalidValue v.key (Text.quote raw ++ ": " ++ fault.message))

/-- The value is the number of the variable in its unit, or the default where it is unset. -/
def Sets (unit default value : Nat) : Prop :=
  (v.IsUnset env ∧ value = default) ∨ ∃ n, v.Gives env n ∧ value = n * unit

/-- The number of the variable can be multiplied into its smaller units. -/
def Fits : Prop := ∀ n, v.Gives env n → n * v.factor < v.bound

/-- What the reader makes of the variable. -/
def read : Except EnvironmentFault (Option Nat) := readVariable env.texts v.key v.bound

/-- The number of the variable, if it is read. -/
def number : Option Nat := (v.read env).toOption.join

/-- What the reader stops with at the variable, if it does. -/
def stop? : Option EnvironmentFault :=
  match v.read env with
  | .error e => some e
  | .ok (some n) => if n * v.factor < v.bound then none else some .overflow
  | .ok none => none

end Variable

/-- The environment that sets one variable to a text. -/
def RawEnvironment.only (v : Variable) (raw : String) : RawEnvironment := fun key =>
  if key = v.key then some raw.toUTF8 else none

/-! ## Reading one variable -/

namespace Variable

variable {env : RawEnvironment} {v : Variable} {n : Nat} {raw : String} {e : EnvironmentFault}

/-- What a variable is set to is what the reader finds. -/
theorem holds_iff : v.Holds env raw ↔ env.texts v.key = some raw := texts_eq_some_iff.symm

/-- An unset variable is read as nothing, and that is no fault. -/
theorem read_of_isUnset (h : v.IsUnset env) : v.read env = .ok none := by
  have htext : env.texts v.key = none :=
    Option.eq_none_iff_forall_ne_some.2 fun raw hraw => h raw (holds_iff.2 hraw)
  unfold read readVariable
  rw [htext]

/-- A variable that is set is read without the blanks around it, and a fault is reported with the
text as it was. -/
theorem read_of_holds {mid : List Char} (hraw : v.Holds env raw)
    (hmid : Text.Trims raw.toList mid) :
    v.read env = match readNumber v.bound mid with
      | .ok n => .ok (some n)
      | .error fault =>
        .error (.refused (.invalidValue v.key (Text.quote raw ++ ": " ++ fault.message))) := by
  obtain rfl := Text.trim_eq_iff.2 hmid
  have htext := holds_iff.1 hraw
  unfold read readVariable
  generalize env.texts v.key = text at htext
  subst htext
  rfl

theorem read_of_gives (h : v.Gives env n) : v.read env = .ok (some n) := by
  obtain ⟨raw, mid, hraw, hmid, hnumber⟩ := h
  rw [read_of_holds hraw hmid, (readNumber_eq_ok_iff v.bound_pos).2 hnumber]

theorem read_of_refusedFor (h : v.RefusedFor env e) : v.read env = .error e := by
  obtain ⟨raw, mid, fault, hraw, hmid, hfault, rfl⟩ := h
  rw [read_of_holds hraw hmid, (readNumber_eq_error_iff v.bound_pos).2 hfault]

/-- A variable is unset, or gives a number, or is refused. -/
theorem cases (env : RawEnvironment) (v : Variable) :
    v.IsUnset env ∨ (∃ n, v.Gives env n) ∨ ∃ e, v.RefusedFor env e := by
  by_cases hset : ∃ raw, v.Holds env raw
  · obtain ⟨raw, hraw⟩ := hset
    have hmid : Text.Trims raw.toList (Text.trim raw.toList) := Text.trim_eq_iff.1 rfl
    right
    rcases hread : readNumber v.bound (Text.trim raw.toList) with fault | n
    · exact .inr ⟨_, raw, _, fault, hraw, hmid, (readNumber_eq_error_iff v.bound_pos).1 hread, rfl⟩
    · exact .inl ⟨n, raw, _, hraw, hmid, (readNumber_eq_ok_iff v.bound_pos).1 hread⟩
  · exact .inl (not_exists.1 hset)

/-- The reader tells the three apart. -/
theorem read_eq_none_iff : v.read env = .ok none ↔ v.IsUnset env := by
  refine ⟨fun h => ?_, read_of_isUnset⟩
  obtain hunset | ⟨n, hn⟩ | ⟨e, he⟩ := cases env v
  · exact hunset
  · exact absurd ((read_of_gives hn).symm.trans h) (by simp)
  · exact absurd ((read_of_refusedFor he).symm.trans h) (by simp)

/-- A number is read just where the variable gives it. -/
theorem read_eq_some_iff : v.read env = .ok (some n) ↔ v.Gives env n := by
  refine ⟨fun h => ?_, read_of_gives⟩
  obtain hunset | ⟨m, hm⟩ | ⟨e, he⟩ := cases env v
  · exact absurd ((read_of_isUnset hunset).symm.trans h) (by simp)
  · obtain rfl : m = n := by simpa using (read_of_gives hm).symm.trans h
    exact hm
  · exact absurd ((read_of_refusedFor he).symm.trans h) (by simp)

/-- A fault is reported just where the variable is to be refused for it. -/
theorem read_eq_error_iff : v.read env = .error e ↔ v.RefusedFor env e := by
  refine ⟨fun h => ?_, read_of_refusedFor⟩
  obtain hunset | ⟨n, hn⟩ | ⟨e', he⟩ := cases env v
  · exact absurd ((read_of_isUnset hunset).symm.trans h) (by simp)
  · exact absurd ((read_of_gives hn).symm.trans h) (by simp)
  · obtain rfl : e' = e := by simpa using (read_of_refusedFor he).symm.trans h
    exact he

theorem holds_only (v : Variable) (raw : String) : v.Holds (.only v raw) raw := if_pos rfl

theorem isUnset_only {u : Variable} (h : v.key ≠ u.key) : v.IsUnset (.only u raw) := by
  unfold IsUnset Holds RawEnvironment.only
  simp [h]

theorem not_gives_only {u : Variable} (h : v.key ≠ u.key) : ¬ v.Gives (.only u raw) n := by
  rintro ⟨text, mid, htext, -, -, -⟩
  exact isUnset_only h text htext

/-- A variable that is set alone is read from its text. -/
theorem read_only {mid : List Char} (hmid : Text.trim raw.toList = mid) :
    v.read (.only v raw) = match readNumber v.bound mid with
      | .ok n => .ok (some n)
      | .error fault =>
        .error (.refused (.invalidValue v.key (Text.quote raw ++ ": " ++ fault.message))) :=
  read_of_holds (holds_only v raw) (Text.trim_eq_iff.1 hmid)

/-- Of an acceptable variable no number is read just where it is unset. -/
theorem number_eq_none_iff (h : v.Acceptable env) : v.number env = none ↔ v.IsUnset env := by
  unfold number
  rw [← read_eq_none_iff]
  obtain hunset | ⟨n, hn⟩ := h
  · rw [read_of_isUnset hunset]
    exact iff_of_true rfl rfl
  · rw [read_of_gives hn]
    exact iff_of_false (by simp [Except.toOption]) (by simp)

/-- A number is read of it just where it gives that number. -/
theorem number_eq_some_iff : v.number env = some n ↔ v.Gives env n := by
  unfold number
  rw [← read_eq_some_iff]
  rcases v.read env with e | _ | m
  · exact iff_of_false (by simp [Except.toOption]) (by simp)
  · exact iff_of_false (by simp [Except.toOption]) (by simp)
  · simp [Except.toOption]

/-- A variable is acceptable if its reading does not fail. -/
theorem acceptable_iff : v.Acceptable env ↔ ∃ r, v.read env = .ok r := by
  constructor
  · rintro (hunset | ⟨n, hn⟩)
    · exact ⟨none, read_of_isUnset hunset⟩
    · exact ⟨some n, read_of_gives hn⟩
  · rintro ⟨_ | n, hr⟩
    · exact .inl (read_eq_none_iff.1 hr)
    · exact .inr ⟨n, read_eq_some_iff.1 hr⟩

/-- A variable that is refused is the one that is not acceptable. -/
theorem RefusedFor.not_acceptable (h : v.RefusedFor env e) : ¬ v.Acceptable env := by
  rw [acceptable_iff, read_of_refusedFor h]
  simp

/-- The value that a variable sets is made from its number, if it has one. -/
theorem sets_iff {unit default value : Nat} : v.Sets env unit default value ↔
    v.Acceptable env ∧ value = (v.number env).elim default (· * unit) := by
  constructor
  · rintro (⟨hunset, rfl⟩ | ⟨n, hn, rfl⟩)
    · refine ⟨.inl hunset, ?_⟩
      rw [(number_eq_none_iff (.inl hunset)).2 hunset]
      rfl
    · refine ⟨.inr ⟨n, hn⟩, ?_⟩
      rw [number_eq_some_iff.2 hn]
      rfl
  · rintro ⟨hacceptable, rfl⟩
    rcases hnumber : v.number env with _ | n
    · exact .inl ⟨(number_eq_none_iff hacceptable).1 hnumber, rfl⟩
    · exact .inr ⟨n, number_eq_some_iff.1 hnumber, rfl⟩

/-- A number that is given stays below the bound. -/
theorem Gives.lt_bound (h : v.Gives env n) : n < v.bound := by
  obtain ⟨-, -, -, -, -, hn⟩ := h
  exact hn

/-- A variable sets one value. -/
theorem Sets.unique {unit default a b : Nat} (ha : v.Sets env unit default a)
    (hb : v.Sets env unit default b) : a = b :=
  (sets_iff.1 ha).2.trans (sets_iff.1 hb).2.symm

/-- A variable that gives a number sets its value by it, and the default does not matter. -/
theorem Sets.eq_of_gives {unit default value : Nat} (h : v.Sets env unit default value)
    (hn : v.Gives env n) : value = n * unit := by
  rw [(sets_iff.1 h).2, number_eq_some_iff.2 hn, Option.elim_some]

/-- A default that is not zero leaves one way to set zero. -/
theorem Sets.eq_zero_iff {unit default value : Nat} (h : v.Sets env unit default value)
    (hunit : 0 < unit) (hdefault : 0 < default) : value = 0 ↔ v.Gives env 0 := by
  constructor
  · rintro rfl
    rcases h with ⟨-, hzero⟩ | ⟨n, hn, hzero⟩
    · exact absurd hzero hdefault.ne
    · obtain rfl : n = 0 := (Nat.mul_eq_zero.1 hzero.symm).resolve_right hunit.ne'
      exact hn
  · intro hn
    rw [h.eq_of_gives hn, Nat.zero_mul]

/-- A number that is given stops the reader only if its smaller units are too many. -/
theorem stop?_of_gives (h : v.Gives env n) :
    v.stop? env = if n * v.factor < v.bound then none else some .overflow := by
  unfold stop?
  rw [read_of_gives h]

/-- The reader stops at a variable that is refused, and at one whose units are too many. -/
theorem stop?_eq_some_iff : v.stop? env = some e ↔
    v.RefusedFor env e ∨ e = .overflow ∧ ∃ n, v.Gives env n ∧ v.bound ≤ n * v.factor := by
  constructor
  · intro h
    unfold stop? at h
    split at h
    · next hread =>
      obtain rfl := Option.some.inj h
      exact .inl (read_eq_error_iff.1 hread)
    · next n hread =>
      split at h
      · exact absurd h (by simp)
      · next hlarge => exact .inr ⟨(Option.some.inj h).symm, n, read_eq_some_iff.1 hread, by omega⟩
    · exact absurd h (by simp)
  · rintro (hrefused | ⟨rfl, n, hn, hlarge⟩)
    · unfold stop?
      rw [read_of_refusedFor hrefused]
    · rw [stop?_of_gives hn, if_neg (Nat.not_lt.2 hlarge)]

/-- The reader goes on past a variable that is acceptable and fits. -/
theorem stop?_eq_none_iff : v.stop? env = none ↔ v.Acceptable env ∧ v.Fits env := by
  constructor
  · intro h
    have hnever : ∀ e, v.stop? env ≠ some e := by simp [h]
    refine ⟨?_, fun n hn => not_le.1 fun hlarge => ?_⟩
    · obtain hunset | hgives | ⟨e, he⟩ := cases env v
      · exact .inl hunset
      · exact .inr hgives
      · exact absurd (stop?_eq_some_iff.2 (.inl he)) (hnever e)
    · exact hnever _ (stop?_eq_some_iff.2 (.inr ⟨rfl, n, hn, hlarge⟩))
  · rintro ⟨hunset | ⟨n, hn⟩, hfits⟩
    · unfold stop?
      rw [read_of_isUnset hunset]
    · rw [stop?_of_gives hn, if_pos (hfits n hn)]

/-- Where nothing is multiplied, there is nothing to overflow. -/
theorem fits_of_factor_eq_one (h : v.factor = 1) : v.Fits env := by
  intro n hn
  rw [h, Nat.mul_one]
  exact hn.lt_bound

/-- The hours fit if their seconds are fewer than 2 to the power of 64. -/
theorem fits_timeout_iff :
    timeout.Fits env ↔ ∀ n, timeout.Gives env n → n * 3600 < 2 ^ 64 := Iff.rfl

/-- Of an acceptable variable the number is read, or nothing. -/
theorem read_of_acceptable (h : v.Acceptable env) : v.read env = .ok (v.number env) := by
  obtain ⟨r, hr⟩ := acceptable_iff.1 h
  unfold number
  rw [hr]
  rfl

end Variable

end ComputePool
