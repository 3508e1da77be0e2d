import ComputePool.Proofs.Settings.Reading

/-!
# Environments that give a runnable pool

What a pool needs of its settings (`Settings.Runnable`): somebody who serves requests, an attempt at
least at every admission, and clocks that tick, since an interval of no length cannot be waited for.
One would expect of every environment that it is refused or gives such settings. Two things stand
in the way (`Settings.refusedOrRunnable_iff`): hours whose seconds do not fit 64 bits are multiplied
unchecked (`Settings.Overflows`), and of the numbers that must not be zero only the sizes are
looked at (`Settings.NeverTicks`).
-/

namespace ComputePool.Settings

variable {processors : Nat} {env : RawEnvironment} {s : Settings}

/-- A pool can run with the settings: its sizes are not zero, its intervals have a length, and its
timeout is that of the environment if there is one. -/
structure Runnable (env : RawEnvironment) (s : Settings) : Prop where
  poolSize : 1 ≤ s.poolSize
  admissionAttempts : 1 ≤ s.admissionAttempts
  consumeInterval : 0 < s.consumeInterval.toNanos
  sweepInterval : 0 < s.sweepInterval.toNanos
  detectorInterval : 0 < s.detectorInterval.toNanos
  longestTaskTimeout : ∀ n, Variable.timeout.Gives env n →
    s.longestTaskTimeout.toNanos = n * 3600 * 1000000000

/-- The environment is refused with a report on a variable, or gives settings with which a pool can
run. -/
def RefusedOrRunnable (processors : Nat) (env : RawEnvironment) : Prop :=
  (∃ key reason, ofEnvironment processors env.texts =
    .error (.refused (.invalidValue key reason))) ∨
  ∃ s, ofEnvironment processors env.texts = .ok s ∧ s.Runnable env

/-- The hours have too many seconds, and the variables before them are acceptable. -/
def Overflows (env : RawEnvironment) : Prop :=
  Variable.poolSize.Acceptable env ∧ Variable.consumeInterval.Acceptable env ∧
    ∃ n, Variable.timeout.Gives env n ∧ 2 ^ 64 ≤ n * 3600

/-- Nothing is wrong with the environment, except that an interval is zero. -/
def NeverTicks (env : RawEnvironment) : Prop :=
  (∀ v ∈ Variable.all, v.Acceptable env) ∧
  (∀ n, Variable.timeout.Gives env n → n * 3600 < 2 ^ 64) ∧
  ¬ Variable.poolSize.Gives env 0 ∧ ¬ Variable.attempts.Gives env 0 ∧
  (Variable.consumeInterval.Gives env 0 ∨ Variable.sweepInterval.Gives env 0 ∨
    Variable.detectorInterval.Gives env 0)

/-! ## Too many hours -/

/-- The reader overflows at a variable that gives a number with too many smaller units. -/
theorem stop?_eq_overflow_iff {v : Variable} : v.stop? env = some .overflow ↔
    ∃ n, v.Gives env n ∧ v.bound ≤ n * v.factor := by
  rw [Variable.stop?_eq_some_iff, or_iff_right]
  · exact and_iff_right rfl
  · rintro ⟨raw, mid, fault, -, -, -, heq⟩
    exact absurd heq (by simp)

/-- The hours are the third variable, and the only one at which the reader overflows. -/
theorem ofEnvironment_eq_overflow_iff :
    ofEnvironment processors env.texts = .error .overflow ↔ Overflows env := by
  rw [ofEnvironment_eq_error_iff, or_iff_left (by simp [ZeroSize])]
  constructor
  · rintro ⟨before, v, after, hall, hstop, hbefore⟩
    obtain ⟨n, hn, hlarge⟩ := stop?_eq_overflow_iff.1 hstop
    have hmultiplied : v.factor ≠ 1 := fun hone =>
      Nat.not_lt.2 hlarge (Variable.fits_of_factor_eq_one hone n hn)
    obtain rfl : v = .timeout :=
      (eq_timeout_or_factor_eq_one (by simp [hall])).resolve_right hmultiplied
    have hacceptable : ∀ u ∈ before, u.Acceptable env := fun u hu =>
      (Variable.stop?_eq_none_iff.1 (hbefore u hu)).1
    -- two variables come before the hours
    obtain ⟨rest, rfl⟩ : ∃ rest, before = .poolSize :: .consumeInterval :: rest := by
      rcases before with _ | ⟨first, _ | ⟨second, rest⟩⟩
      · exact absurd (congrArg Variable.factor (List.cons.inj hall).1) (by decide)
      · exact absurd (congrArg Variable.factor (List.cons.inj (List.cons.inj hall).2).1) (by decide)
      · obtain ⟨rfl, hrest⟩ := List.cons.inj hall
        obtain ⟨rfl, -⟩ := List.cons.inj hrest
        exact ⟨rest, rfl⟩
    simp only [List.forall_mem_cons] at hacceptable
    exact ⟨hacceptable.1, hacceptable.2.1, n, hn, hlarge⟩
  · rintro ⟨hpool, hconsume, hhours⟩
    refine ⟨[.poolSize, .consumeInterval], .timeout, _, rfl, stop?_eq_overflow_iff.2 hhours, ?_⟩
    simp only [List.forall_mem_cons, Variable.stop?_eq_none_iff]
    exact ⟨⟨hpool, Variable.fits_of_factor_eq_one rfl⟩,
      ⟨hconsume, Variable.fits_of_factor_eq_one rfl⟩, fun v hv => absurd hv List.not_mem_nil⟩

/-! ## Intervals without length -/

/-- Whether a pool can run with the accepted settings is a matter of the intervals only. -/
theorem Configured.runnable_iff (h : Configured processors env s) (hpool : s.poolSize ≠ 0)
    (hattempts : s.admissionAttempts ≠ 0) : s.Runnable env ↔
      ¬ (Variable.consumeInterval.Gives env 0 ∨ Variable.sweepInterval.Gives env 0 ∨
        Variable.detectorInterval.Gives env 0) := by
  rw [← h.consumeInterval.eq_zero_iff (by decide) (by decide),
    ← h.sweepInterval.eq_zero_iff (by decide) (by decide),
    ← h.detectorInterval.eq_zero_iff (by decide) (by decide)]
  constructor
  · rintro ⟨-, -, hconsume, hsweep, hdetector, -⟩
    omega
  · intro hpositive
    refine ⟨by omega, by omega, by omega, by omega, by omega, fun n hn => ?_⟩
    rw [h.longestTaskTimeout.eq_of_gives hn, Nat.mul_assoc]

/-- Settings with which no pool can run are accepted if nothing is wrong but a zero interval. -/
theorem exists_not_runnable_iff (hprocessors : 0 < processors) :
    (∃ s, ofEnvironment processors env.texts = .ok s ∧ ¬ s.Runnable env) ↔ NeverTicks env := by
  have hdefault : 0 < 2 * processors := by omega
  constructor
  · rintro ⟨s, hs, hstuck⟩
    obtain ⟨hconfigured, hpool, hattempts⟩ := ofEnvironment_eq_ok_iff.1 hs
    rw [hconfigured.runnable_iff hpool hattempts, not_not] at hstuck
    rw [ne_eq, hconfigured.poolSize.eq_zero_iff (by decide) hdefault] at hpool
    rw [ne_eq, hconfigured.admissionAttempts.eq_zero_iff (by decide) (by decide)] at hattempts
    exact ⟨hconfigured.acceptable, hconfigured.fits, hpool, hattempts, hstuck⟩
  · rintro ⟨hacceptable, hfits, hpool, hattempts, hstuck⟩
    have hconfigured : Configured processors env (assembled processors env) :=
      configured_assembled hacceptable hfits
    rw [← hconfigured.poolSize.eq_zero_iff (by decide) hdefault] at hpool
    rw [← hconfigured.admissionAttempts.eq_zero_iff (by decide) (by decide)] at hattempts
    refine ⟨_, ofEnvironment_eq_ok_iff.2 ⟨hconfigured, hpool, hattempts⟩, ?_⟩
    rw [hconfigured.runnable_iff hpool hattempts, not_not]
    exact hstuck

/-! ## The exact condition -/

/-- There are two ways to be neither refused nor runnable. -/
theorem refusedOrRunnable_iff_not : RefusedOrRunnable processors env ↔
    ¬ ofEnvironment processors env.texts = .error .overflow ∧
      ¬ ∃ s, ofEnvironment processors env.texts = .ok s ∧ ¬ s.Runnable env := by
  unfold RefusedOrRunnable
  rcases ofEnvironment processors env.texts with (⟨⟨key, reason⟩⟩ | _) | s <;> simp

/-- Every environment is refused or gives settings with which a pool can run, except in two cases:
the hours overflow, or the only thing wrong is an interval of zero. -/
theorem refusedOrRunnable_iff (processors : Nat) (env : RawEnvironment) (h : 0 < processors) :
    (RefusedOrRunnable processors env ↔ ¬ Overflows env ∧ ¬ NeverTicks env) ∧
    (ofEnvironment processors env.texts = .error .overflow ↔ Overflows env) ∧
    ((∃ s, ofEnvironment processors env.texts = .ok s ∧ ¬ s.Runnable env) ↔ NeverTicks env) := by
  refine ⟨?_, ofEnvironment_eq_overflow_iff, exists_not_runnable_iff h⟩
  rw [refusedOrRunnable_iff_not, ofEnvironment_eq_overflow_iff, exists_not_runnable_iff h]

/-- With seven hours set and nothing else a pool can run. -/
theorem refusedOrRunnable_hourly : 0 < 4 ∧ RefusedOrRunnable 4 hourly := by
  refine ⟨by decide, (refusedOrRunnable_iff 4 hourly (by decide)).1.2 ⟨?_, ?_⟩⟩
  · rintro ⟨-, -, n, hn, hlarge⟩
    rw [hourly_gives_iff.1 hn] at hlarge
    exact absurd hlarge (by decide)
  · rintro ⟨-, -, -, -, hzero | hzero | hzero⟩
    · exact Variable.not_gives_only (by decide) hzero
    · exact Variable.not_gives_only (by decide) hzero
    · exact Variable.not_gives_only (by decide) hzero

/-- An environment with more hours than 64 bits have seconds. -/
def endless : RawEnvironment := .only Variable.timeout "5124095576030432"

/-- An environment in which the routines are topped up without a pause. -/
def restless : RawEnvironment := .only Variable.consumeInterval "0"

/-- Neither too many hours nor an interval of zero is refused, and no pool can run with them. -/
theorem not_refusedOrRunnable :
    ¬ RefusedOrRunnable 1 endless ∧ ¬ RefusedOrRunnable 1 restless := by
  constructor
  · have hhours : Variable.timeout.Gives endless 5124095576030432 :=
      Variable.read_eq_some_iff.1 (Variable.read_only rfl)
    have hoverflow : Overflows endless :=
      ⟨.inl (Variable.isUnset_only (by decide)), .inl (Variable.isUnset_only (by decide)),
        _, hhours, by decide⟩
    exact fun h => (refusedOrRunnable_iff_not.1 h).1 (ofEnvironment_eq_overflow_iff.2 hoverflow)
  · have hzero : Variable.consumeInterval.Gives restless 0 :=
      Variable.read_eq_some_iff.1 (Variable.read_only rfl)
    have hticks : NeverTicks restless := by
      refine ⟨?_, fun n hn => absurd hn (Variable.not_gives_only (by decide)),
        Variable.not_gives_only (by decide), Variable.not_gives_only (by decide), .inl hzero⟩
      simp only [Variable.all, List.mem_cons, List.not_mem_nil, or_false]
      rintro v (rfl | rfl | rfl | rfl | rfl | rfl)
      case inr.inl => exact .inr ⟨0, hzero⟩
      all_goals exact .inl (Variable.isUnset_only (by decide))
    exact fun h => (refusedOrRunnable_iff_not.1 h).2
      ((exists_not_runnable_iff (by decide)).2 hticks)

end ComputePool.Settings
