import ComputePool.Proofs.Settings.Variable
import ComputePool.Proofs.Time

/-!
# What an environment says

The settings that an environment describes (`Settings.Configured`) have the numbers of the variables
in their units, and the defaults for the rest. The reader goes through the variables in order. It is
one search for the first of them that stops it (`Settings.ofEnvironment_eq`), and from that search
both its results are read off: settings are accepted exactly if they are the described ones and
their sizes are not zero, and otherwise the first unacceptable variable is reported, before any size
(`Settings.ofEnvironment_exact`).
-/

namespace ComputePool

/-! ## Reading one after the other -/

namespace Settings

variable {env : RawEnvironment} {s : Settings} {e : EnvironmentFault}

section ReadThrough

variable {α : Type} {result : Except EnvironmentFault α} {vs : List Variable}
  {v : Variable} {a : α}

/-- The result that follows the reading of the variables, unless one of them stops the reader. -/
def readThrough (env : RawEnvironment) (vs : List Variable) (result : Except EnvironmentFault α) :
    Except EnvironmentFault α :=
  (vs.findSome? (Variable.stop? env)).elim result .error

/-- The reader ends with the first variable at which it stops. -/
theorem readThrough_cons_of_some (h : v.stop? env = some e) :
    readThrough env (v :: vs) result = .error e := by
  unfold readThrough
  rw [List.findSome?_cons_of_isSome (by rw [h]; rfl), h]
  rfl

/-- It goes on past a variable with which nothing is wrong. -/
theorem readThrough_cons_of_none (h : v.stop? env = none) :
    readThrough env (v :: vs) result = readThrough env vs result := by
  unfold readThrough
  rw [List.findSome?_cons_of_isNone (by rw [h]; rfl)]

/-- One variable is read, and the others after it. -/
theorem bind_eq_readThrough {f : Option Nat → Except EnvironmentFault α} (hv : v.factor = 1)
    (h : f (v.number env) = readThrough env vs result) :
    (v.read env >>= f) = readThrough env (v :: vs) result := by
  rcases hstop : v.stop? env with _ | e
  · rw [readThrough_cons_of_none hstop, ← h,
      Variable.read_of_acceptable (Variable.stop?_eq_none_iff.1 hstop).1]
    rfl
  · rw [readThrough_cons_of_some hstop]
    obtain hrefused | ⟨-, n, hn, hlarge⟩ := Variable.stop?_eq_some_iff.1 hstop
    · rw [Variable.read_of_refusedFor hrefused]
      rfl
    · exact absurd (Variable.fits_of_factor_eq_one hv n hn) (Nat.not_lt.2 hlarge)

/-- The hours are read and turned into seconds, and the others are read after them. -/
theorem timeout_bind_eq_readThrough {f : Span → Except EnvironmentFault α} {d : Span}
    (h : f ((Variable.timeout.number env).elim d fun n => .ofSeconds (UInt64.ofNat (n * 3600))) =
      readThrough env vs result) :
    (Variable.timeout.read env >>= fun hours => hours.elim (.ok d) spanOfHours >>= f) =
      readThrough env (Variable.timeout :: vs) result := by
  rcases hstop : Variable.timeout.stop? env with _ | e
  · obtain ⟨hacceptable, hfits⟩ := Variable.stop?_eq_none_iff.1 hstop
    rw [readThrough_cons_of_none hstop, ← h, Variable.read_of_acceptable hacceptable]
    rcases hnumber : Variable.timeout.number env with _ | n
    · rfl
    · have hspan : spanOfHours n = .ok (.ofSeconds (UInt64.ofNat (n * 3600))) :=
        if_pos (hfits n (Variable.number_eq_some_iff.1 hnumber))
      show (spanOfHours n >>= f) = _
      rw [hspan]
      rfl
  · rw [readThrough_cons_of_some hstop]
    obtain hrefused | ⟨rfl, n, hn, hlarge⟩ := Variable.stop?_eq_some_iff.1 hstop
    · rw [Variable.read_of_refusedFor hrefused]
      rfl
    · have hspan : spanOfHours n = .error .overflow := if_neg (Nat.not_lt.2 hlarge)
      rw [Variable.read_of_gives hn]
      show (spanOfHours n >>= f) = _
      rw [hspan]
      rfl

/-- Settings are read if the reader stops nowhere. -/
theorem readThrough_eq_ok_iff :
    readThrough env vs result = .ok a ↔ (∀ v ∈ vs, v.stop? env = none) ∧ result = .ok a := by
  unfold readThrough
  rw [← List.findSome?_eq_none_iff]
  rcases vs.findSome? (Variable.stop? env) with _ | e <;> simp

/-- A fault is that of the first variable at which the reader stops, with nothing wrong before it.
-/
theorem readThrough_eq_error_iff : readThrough env vs result = .error e ↔
    (∃ before v after, vs = before ++ v :: after ∧ v.stop? env = some e ∧
      ∀ u ∈ before, u.stop? env = none) ∨
    (∀ v ∈ vs, v.stop? env = none) ∧ result = .error e := by
  unfold readThrough
  rw [← List.findSome?_eq_none_iff, ← List.findSome?_eq_some_iff]
  rcases vs.findSome? (Variable.stop? env) with _ | e' <;> simp

end ReadThrough

/-- The settings that are made from the numbers of the variables. -/
def assembled (processors : Nat) (env : RawEnvironment) : Settings where
  poolSize := (Variable.poolSize.number env).getD (2 * processors)
  consumeInterval := (Variable.consumeInterval.number env).elim (.ofSeconds 1) fun n =>
    .ofMillis (UInt64.ofNat n)
  longestTaskTimeout := (Variable.timeout.number env).elim (.ofSeconds 360000) fun n =>
    .ofSeconds (UInt64.ofNat (n * 3600))
  sweepInterval := (Variable.sweepInterval.number env).elim (.ofSeconds 60) fun n =>
    .ofSeconds (UInt64.ofNat n)
  admissionAttempts := (Variable.attempts.number env).getD 5
  detectorInterval := (Variable.detectorInterval.number env).elim (.ofSeconds 30) fun n =>
    .ofSeconds (UInt64.ofNat n)

/-- The variables are read in order, and then the sizes are checked. -/
theorem ofEnvironment_eq (processors : Nat) (env : RawEnvironment) :
    ofEnvironment processors env.texts =
      readThrough env Variable.all (validate (assembled processors env)) := by
  refine bind_eq_readThrough (rfl : Variable.poolSize.factor = 1) ?_
  refine bind_eq_readThrough (rfl : Variable.consumeInterval.factor = 1) ?_
  refine timeout_bind_eq_readThrough ?_
  refine bind_eq_readThrough (rfl : Variable.sweepInterval.factor = 1) ?_
  refine bind_eq_readThrough (rfl : Variable.attempts.factor = 1) ?_
  exact bind_eq_readThrough (rfl : Variable.detectorInterval.factor = 1) rfl

/-! ## The settings that an environment describes -/

/-- The settings have the numbers of the variables in their units, and the defaults for the rest.
Spans are compared in nanoseconds. -/
structure Configured (processors : Nat) (env : RawEnvironment) (s : Settings) : Prop where
  poolSize : Variable.poolSize.Sets env 1 (2 * processors) s.poolSize
  consumeInterval : Variable.consumeInterval.Sets env 1000000 1000000000 s.consumeInterval.toNanos
  longestTaskTimeout : Variable.timeout.Sets env (3600 * 1000000000) (360000 * 1000000000)
    s.longestTaskTimeout.toNanos
  sweepInterval : Variable.sweepInterval.Sets env 1000000000 (60 * 1000000000)
    s.sweepInterval.toNanos
  admissionAttempts : Variable.attempts.Sets env 1 5 s.admissionAttempts
  detectorInterval : Variable.detectorInterval.Sets env 1000000000 (30 * 1000000000)
    s.detectorInterval.toNanos

variable {processors : Nat} {s s' : Settings}

/-- An environment describes one configuration at most. -/
theorem Configured.unique (h : Configured processors env s) (h' : Configured processors env s') :
    s = s' := by
  have hpool := h.poolSize.unique h'.poolSize
  have hconsume := Span.toNanos_inj.1 (h.consumeInterval.unique h'.consumeInterval)
  have htimeout := Span.toNanos_inj.1 (h.longestTaskTimeout.unique h'.longestTaskTimeout)
  have hsweep := Span.toNanos_inj.1 (h.sweepInterval.unique h'.sweepInterval)
  have hattempts := h.admissionAttempts.unique h'.admissionAttempts
  have hdetector := Span.toNanos_inj.1 (h.detectorInterval.unique h'.detectorInterval)
  obtain ⟨⟩ := s
  obtain ⟨⟩ := s'
  simp only at hpool hconsume htimeout hsweep hattempts hdetector
  rw [hpool, hconsume, htimeout, hsweep, hattempts, hdetector]

/-- The number that is read, or the default, is the value that the variable sets. -/
theorem sets_number {v : Variable} {default : Nat} (h : v.Acceptable env) :
    v.Sets env 1 default ((v.number env).getD default) := by
  refine Variable.sets_iff.2 ⟨h, ?_⟩
  rcases v.number env with _ | n
  · rfl
  · exact (Nat.mul_one n).symm

/-- A span that is read, or the default, is the value that the variable sets, in nanoseconds. -/
theorem sets_span {v : Variable} {unit default : Nat} {d : Span} {f : Nat → Span}
    (h : v.Acceptable env) (hd : d.toNanos = default)
    (hf : ∀ n, v.Gives env n → (f n).toNanos = n * unit) :
    v.Sets env unit default ((v.number env).elim d f).toNanos := by
  refine Variable.sets_iff.2 ⟨h, ?_⟩
  rcases hnumber : v.number env with _ | n
  · rw [Option.elim_none, Option.elim_none]
    exact hd
  · rw [Option.elim_some, Option.elim_some]
    exact hf n (Variable.number_eq_some_iff.1 hnumber)

/-- Only the hours are multiplied. -/
theorem eq_timeout_or_factor_eq_one {v : Variable} (hv : v ∈ Variable.all) :
    v = .timeout ∨ v.factor = 1 := by
  simp only [Variable.all, List.mem_cons, List.not_mem_nil, or_false] at hv
  rcases hv with rfl | rfl | rfl | rfl | rfl | rfl
  case inr.inr.inl => exact .inl rfl
  all_goals exact .inr rfl

/-- Only the hours can be too many for their unit. -/
theorem fits_of_mem_all {v : Variable} (h : Variable.timeout.Fits env) (hv : v ∈ Variable.all) :
    v.Fits env := by
  obtain rfl | hone := eq_timeout_or_factor_eq_one hv
  · exact h
  · exact Variable.fits_of_factor_eq_one hone

/-- Nothing stops the reader exactly if every variable is acceptable and the hours fit in
seconds. -/
theorem stop?_eq_none_forall_iff : (∀ v ∈ Variable.all, v.stop? env = none) ↔
    (∀ v ∈ Variable.all, v.Acceptable env) ∧ Variable.timeout.Fits env := by
  simp only [Variable.stop?_eq_none_iff, forall_and]
  exact and_congr_right' ⟨fun h => h _ (by simp [Variable.all]), fun h v => fits_of_mem_all h⟩

/-- What is assembled from acceptable variables is what they configure. -/
theorem configured_assembled (h : ∀ v ∈ Variable.all, v.Acceptable env)
    (hfits : Variable.timeout.Fits env) : Configured processors env (assembled processors env) := by
  simp only [Variable.all, List.forall_mem_cons] at h
  obtain ⟨hpool, hconsume, htimeout, hsweep, hattempts, hdetector, -⟩ := h
  refine ⟨sets_number hpool, sets_span hconsume (by decide) fun n hn => ?_,
    sets_span htimeout (by decide) fun n hn => ?_, sets_span hsweep (by decide) fun n hn => ?_,
    sets_number hattempts, sets_span hdetector (by decide) fun n hn => ?_⟩
  · exact Span.toNanos_ofMillis hn.lt_bound
  · rw [Span.toNanos_ofSeconds (Variable.fits_timeout_iff.1 hfits n hn), Nat.mul_assoc]
  · exact Span.toNanos_ofSeconds hn.lt_bound
  · exact Span.toNanos_ofSeconds hn.lt_bound

/-- Settings are configured by acceptable variables only. -/
theorem Configured.acceptable (h : Configured processors env s) :
    ∀ v ∈ Variable.all, v.Acceptable env := by
  simp only [Variable.all, List.forall_mem_cons]
  exact ⟨(Variable.sets_iff.1 h.poolSize).1, (Variable.sets_iff.1 h.consumeInterval).1,
    (Variable.sets_iff.1 h.longestTaskTimeout).1, (Variable.sets_iff.1 h.sweepInterval).1,
    (Variable.sets_iff.1 h.admissionAttempts).1, (Variable.sets_iff.1 h.detectorInterval).1,
    fun v hv => absurd hv List.not_mem_nil⟩

/-- The seconds of a described timeout fit a span. -/
theorem Configured.fits (h : Configured processors env s) : Variable.timeout.Fits env := by
  refine Variable.fits_timeout_iff.2 fun n hn => ?_
  have hlt := s.longestTaskTimeout.toNanos_lt
  rw [h.longestTaskTimeout.eq_of_gives hn, ← Nat.mul_assoc] at hlt
  exact Nat.lt_of_mul_lt_mul_right hlt

/-- The assembled settings are those that the environment describes, if nothing stops the
reader. -/
theorem configured_iff : Configured processors env s ↔
    (∀ v ∈ Variable.all, v.stop? env = none) ∧ assembled processors env = s := by
  rw [stop?_eq_none_forall_iff]
  constructor
  · intro h
    exact ⟨⟨h.acceptable, h.fits⟩, (configured_assembled h.acceptable h.fits).unique h⟩
  · rintro ⟨⟨hacceptable, hfits⟩, rfl⟩
    exact configured_assembled hacceptable hfits

/-! ## Both results of the reader -/

/-- Settings pass if there are routines and attempts. -/
theorem validate_eq_ok_iff :
    validate s = .ok s' ↔ s = s' ∧ s.poolSize ≠ 0 ∧ s.admissionAttempts ≠ 0 := by
  unfold validate
  split
  · next h => simp [h]
  · next h =>
    split
    · next h' => simp [h']
    · next h' => simp [h, h']

/-- The size that the settings may not have, and the report on it. -/
def ZeroSize (s : Settings) (e : EnvironmentFault) : Prop :=
  s.poolSize = 0 ∧ e = .refused (.invalidValue Variable.poolSize.key "must be at least 1") ∨
    s.poolSize ≠ 0 ∧ s.admissionAttempts = 0 ∧
      e = .refused (.invalidValue Variable.attempts.key "must be at least 1")

/-- Settings that do not pass are refused for their zero, the number of routines first. -/
theorem validate_eq_error_iff : validate s = .error e ↔ s.ZeroSize e := by
  unfold validate ZeroSize
  split
  · next h => simp [h, eq_comm, poolSizeKey, Variable.poolSize]
  · next h =>
    split
    · next h' => simp [h, h', eq_comm, attemptsKey, Variable.attempts]
    · next h' => simp [h, h']

/-- The settings that an environment gives are those that it describes, with sizes that are not
zero. -/
theorem ofEnvironment_eq_ok_iff : ofEnvironment processors env.texts = .ok s ↔
    Configured processors env s ∧ s.poolSize ≠ 0 ∧ s.admissionAttempts ≠ 0 := by
  rw [ofEnvironment_eq, readThrough_eq_ok_iff, validate_eq_ok_iff, configured_iff, and_assoc]
  refine and_congr_right fun _ => and_congr_right fun heq => ?_
  rw [heq]

/-- The first variable that stops the reader is reported, and a size of zero only if none does. -/
theorem ofEnvironment_eq_error_iff : ofEnvironment processors env.texts = .error e ↔
    (∃ before v after, Variable.all = before ++ v :: after ∧ v.stop? env = some e ∧
      ∀ u ∈ before, u.stop? env = none) ∨
    ∃ s, Configured processors env s ∧ s.ZeroSize e := by
  rw [ofEnvironment_eq, readThrough_eq_error_iff, validate_eq_error_iff]
  simp only [configured_iff, and_assoc, exists_and_left, exists_eq_left']

/-- Hours whose seconds fit 64 bits leave no reason to stop but a refused variable. -/
theorem first_stop_iff (h : Variable.timeout.Fits env) :
    (∃ before v after, Variable.all = before ++ v :: after ∧ v.stop? env = some e ∧
      ∀ u ∈ before, u.stop? env = none) ↔
    ∃ before v after, Variable.all = before ++ v :: after ∧ v.RefusedFor env e ∧
      ∀ u ∈ before, u.Acceptable env := by
  refine exists_congr fun before => exists_congr fun v => exists_congr fun after =>
    and_congr_right fun hall => and_congr ?_ ?_
  · have hv : v.Fits env := fits_of_mem_all h (by simp [hall])
    rw [Variable.stop?_eq_some_iff, or_iff_left]
    rintro ⟨-, n, hn, hlarge⟩
    exact Nat.not_lt.2 hlarge (hv n hn)
  · refine forall₂_congr fun u hu => ?_
    have hfits : u.Fits env := fits_of_mem_all h (by simp [hall, hu])
    rw [Variable.stop?_eq_none_iff, and_iff_left hfits]

/-- An environment whose hours fit in seconds is read exactly. It is accepted if and only if it
describes settings with sizes that are not zero, and those are the result; it describes settings if
and only if all its variables are acceptable. It is refused for the first variable that is not, or,
if there is none, for the first size of zero. -/
theorem ofEnvironment_exact (processors : Nat) (env : RawEnvironment)
    (hhours : ∀ n, Variable.timeout.Gives env n → n ≤ (2 ^ 64 - 1) / 3600) :
    (∀ s, ofEnvironment processors env.texts = .ok s ↔
      Configured processors env s ∧ s.poolSize ≠ 0 ∧ s.admissionAttempts ≠ 0) ∧
    (∀ e, ofEnvironment processors env.texts = .error e ↔
      (∃ before v after, Variable.all = before ++ v :: after ∧ v.RefusedFor env e ∧
        ∀ u ∈ before, u.Acceptable env) ∨
      ∃ s, Configured processors env s ∧ s.ZeroSize e) ∧
    ((∃ s, Configured processors env s) ↔ ∀ v ∈ Variable.all, v.Acceptable env) ∧
    ∀ v : Variable, (∃ e, v.RefusedFor env e) ↔ ¬ v.Acceptable env := by
  have hfits : Variable.timeout.Fits env := Variable.fits_timeout_iff.2 fun n hn => by
    have hbound := hhours n hn
    omega
  refine ⟨fun s => ofEnvironment_eq_ok_iff, fun e => ?_, ?_, fun v => ?_⟩
  · rw [ofEnvironment_eq_error_iff, first_stop_iff hfits]
  · exact ⟨fun ⟨s, hs⟩ => hs.acceptable, fun h => ⟨_, configured_assembled h hfits⟩⟩
  · refine ⟨fun ⟨e, he⟩ => he.not_acceptable, fun h => ?_⟩
    obtain hunset | hgives | hrefused := v.cases env
    · exact absurd (.inl hunset) h
    · exact absurd (.inr hgives) h
    · exact hrefused

/-- An environment that sets nothing but the hours, with a sign, zeros and blanks. -/
def hourly : RawEnvironment := .only Variable.timeout " +007\t"

/-- The variable gives seven hours and nothing else. -/
theorem hourly_gives_iff {n : Nat} : Variable.timeout.Gives hourly n ↔ n = 7 := by
  have hread : Variable.timeout.read hourly = .ok (some 7) :=
    Variable.read_only (by decide : _ = ['+', '0', '0', '7'])
  rw [← Variable.read_eq_some_iff, hread]
  simp [eq_comm]

/-- Seven hours in the environment and nothing else: the other settings have their defaults. -/
theorem ofEnvironment_exact_hourly :
    (∀ n, Variable.timeout.Gives hourly n → n ≤ (2 ^ 64 - 1) / 3600) ∧
    ofEnvironment 4 hourly.texts = .ok
      { poolSize := 8, consumeInterval := .ofSeconds 1, longestTaskTimeout := .ofSeconds 25200,
        sweepInterval := .ofSeconds 60, admissionAttempts := 5,
        detectorInterval := .ofSeconds 30 } := by
  have hhours : ∀ n, Variable.timeout.Gives hourly n → n ≤ (2 ^ 64 - 1) / 3600 := fun n hn => by
    rw [hourly_gives_iff.1 hn]
    decide
  refine ⟨hhours, ((ofEnvironment_exact 4 hourly hhours).1 _).2 ⟨?_, by decide, by decide⟩⟩
  exact ⟨.inl ⟨Variable.isUnset_only (by decide), by decide⟩,
    .inl ⟨Variable.isUnset_only (by decide), by decide⟩,
    .inr ⟨7, hourly_gives_iff.2 rfl, by decide⟩,
    .inl ⟨Variable.isUnset_only (by decide), by decide⟩,
    .inl ⟨Variable.isUnset_only (by decide), by decide⟩,
    .inl ⟨Variable.isUnset_only (by decide), by decide⟩⟩

end Settings

end ComputePool
