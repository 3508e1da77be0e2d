import ComputePool.Replicate.Summary
import Mathlib.Data.List.Induction

/-!
# What a history reports

A report may be in any updates of a history, and the first one that is there for the second time
(`Reports.RepeatedAt`) ends the reading. Both reports are read side by side, so what the reading of
a history comes to (`Reports.Outcome`) is told by which of the two is repeated at the earlier place.
One more update keeps this true (`Reports.Outcome.concat`): an error stays, as the new place comes
after those before it, and a history without repetitions goes on or ends at the new update. A
summary is therefore made if and only if nothing is repeated (`Replicate.summary_exact`).
-/

namespace ComputePool

namespace StatusUpdate

/-- The exit code that the update carries. -/
def exitCode? (u : StatusUpdate) : Option Int32 := u.details.bind (·.exitCode)

/-- The enclave session error that the update carries. -/
def teeError? (u : StatusUpdate) : Option String := u.details.bind (·.teeError)

end StatusUpdate

namespace Reports

/-! ## Repetitions -/

section Repetitions

variable {α : Type} {report? : StatusUpdate → Option α} {history : List StatusUpdate}
  {u : StatusUpdate} {n : Nat} {a : α} {field : String}

/-- The number of updates that carry the report. -/
def occurrences (report? : StatusUpdate → Option α) (history : List StatusUpdate) : Nat :=
  history.countP fun u => (report? u).isSome

/-- After the history, the update is the second one that carries the report. -/
def Repeats (report? : StatusUpdate → Option α) (history : List StatusUpdate)
    (u : StatusUpdate) : Prop :=
  occurrences report? history = 1 ∧ (report? u).isSome

/-- The update at the place of the history is the second one that carries the report. -/
def RepeatedAt (report? : StatusUpdate → Option α) (history : List StatusUpdate)
    (n : Nat) : Prop :=
  ∃ u, history[n]? = some u ∧ Repeats report? (history.take n) u

/-- A repetition has its place in the history. -/
theorem RepeatedAt.lt_length (h : RepeatedAt report? history n) : n < history.length := by
  obtain ⟨u, hu, -⟩ := h
  exact (List.getElem?_eq_some_iff.1 hu).1

/-- A further entry is counted if it carries the report. -/
theorem occurrences_concat : occurrences report? (history ++ [u]) =
    occurrences report? history + if (report? u).isSome then 1 else 0 := by
  rw [occurrences, List.countP_append, List.countP_singleton]
  rfl

/-- One more update is one more place, and leaves the others as they are. -/
theorem repeatedAt_concat_iff : RepeatedAt report? (history ++ [u]) n ↔
    RepeatedAt report? history n ∨ n = history.length ∧ Repeats report? history u := by
  obtain hlt | rfl | hgt := Nat.lt_trichotomy n history.length
  · rw [or_iff_left fun h => Nat.ne_of_lt hlt h.1, RepeatedAt, List.getElem?_append_left hlt,
      List.take_append_of_le_length (Nat.le_of_lt hlt)]
    rfl
  · simp [RepeatedAt]
  · refine iff_of_false (fun h => ?_) ?_
    · have hle := h.lt_length
      rw [List.length_append, List.length_singleton] at hle
      omega
    · rintro (h | ⟨rfl, -⟩)
      · exact Nat.lt_asymm hgt h.lt_length
      · exact Nat.lt_irrefl _ hgt

theorem repeatedAt_concat_iff_of_none (h : ∀ n, ¬ RepeatedAt report? history n) :
    RepeatedAt report? (history ++ [u]) n ↔ n = history.length ∧ Repeats report? history u :=
  repeatedAt_concat_iff.trans (or_iff_right (h n))

/-- Something is repeated if there are two occurrences or more. -/
theorem exists_repeatedAt_iff :
    (∃ n, RepeatedAt report? history n) ↔ 1 < occurrences report? history := by
  induction history using List.reverseRecOn with
  | nil => simp [occurrences, RepeatedAt]
  | append_singleton history u ih =>
    simp only [repeatedAt_concat_iff, exists_or, ih, exists_eq_left, Repeats, occurrences_concat]
    cases hu : (report? u).isSome with
    | false => simp
    | true => simp; omega

/-- Nothing is repeated if and only if there is one occurrence at most. -/
theorem not_repeatedAt_iff :
    (∀ n, ¬ RepeatedAt report? history n) ↔ occurrences report? history ≤ 1 := by
  rw [← not_exists, exists_repeatedAt_iff, Nat.not_lt]

/-! ## What is kept -/

/-- A report is found if there is an occurrence. -/
theorem isSome_findSome?_iff :
    (history.findSome? report?).isSome ↔ 0 < occurrences report? history := by
  rw [List.findSome?_isSome_iff, occurrences, List.countP_pos_iff]

/-- The first occurrence is the only one. -/
theorem findSome?_eq_some_iff (h : occurrences report? history ≤ 1) :
    history.findSome? report? = some a ↔ ∃ u ∈ history, report? u = some a := by
  induction history with
  | nil => simp
  | cons u history ih =>
    rw [occurrences, List.countP_cons] at h
    cases hu : report? u with
    | none =>
      rw [List.findSome?_cons, hu, ih (Nat.le_of_add_right_le h)]
      simp [hu]
    | some b =>
      have hothers : ∀ v ∈ history, report? v = .none := by
        simpa [hu, List.countP_eq_zero] using h
      rw [List.findSome?_cons, hu]
      simp +contextual [hu, hothers]

/-- The second occurrence is an error of its field. -/
theorem once_of_repeats (h : Repeats report? history u) :
    once field (history.findSome? report?) (report? u) = .error (.multipleOccurrences field) := by
  obtain ⟨hcount, hu⟩ := h
  have hkept : (history.findSome? report?).isSome := isSome_findSome?_iff.2 (by omega)
  obtain ⟨a, ha⟩ := Option.isSome_iff_exists.1 hkept
  obtain ⟨b, hb⟩ := Option.isSome_iff_exists.1 hu
  rw [ha, hb]
  rfl

/-- Without a repetition the one occurrence is kept. -/
theorem once_of_not_repeats (hcount : occurrences report? history ≤ 1)
    (h : ¬ Repeats report? history u) : once field (history.findSome? report?) (report? u) =
      .ok ((history ++ [u]).findSome? report?) := by
  rw [List.findSome?_append, List.findSome?_singleton]
  cases hu : report? u with
  | none =>
    rw [Option.or_none]
    rfl
  | some a =>
    -- with one occurrence behind it, the update would repeat the report
    have hnone : ¬ 0 < occurrences report? history := fun hpos => h ⟨by omega, by rw [hu]; rfl⟩
    rw [← isSome_findSome?_iff, Option.not_isSome_iff_eq_none] at hnone
    rw [hnone]
    rfl

end Repetitions

/-! ## Reading a history -/

open StatusUpdate

/-- What the reading of a history comes to. -/
inductive Outcome (history : List StatusUpdate) : Except ReplicateError Reports → Prop
  /-- Nothing is repeated, and what occurs is kept. -/
  | read (hexit : ∀ n, ¬ RepeatedAt exitCode? history n)
      (htee : ∀ n, ¬ RepeatedAt teeError? history n) :
      Outcome history (.ok ⟨history.findSome? exitCode?, history.findSome? teeError?⟩)
  /-- The exit code is repeated before the session error, or in the same update. -/
  | exitCode (n : Nat) (hexit : RepeatedAt exitCode? history n)
      (hfirst : ∀ m, RepeatedAt teeError? history m → n ≤ m) :
      Outcome history (.error (.multipleOccurrences "exitCode"))
  /-- The session error is repeated before the exit code. -/
  | teeError (n : Nat) (htee : RepeatedAt teeError? history n)
      (hfirst : ∀ m, RepeatedAt exitCode? history m → n < m) :
      Outcome history (.error (.multipleOccurrences "teeSessionGenerationError"))

/-- The last update is added to what the others report; one without details adds nothing. -/
theorem ofHistory_concat (history : List StatusUpdate) (u : StatusUpdate) :
    ofHistory (history ++ [u]) = ofHistory history >>= (·.add (u.details.getD .none)) := by
  unfold ofHistory
  rw [List.filterMap_append, List.foldlM_append]
  congr 1
  funext reports
  cases hu : u.details with
  | none =>
    rw [List.filterMap_cons_none hu]
    rfl
  | some d =>
    rw [List.filterMap_cons_some hu, List.filterMap_nil, List.foldlM_cons]
    exact bind_pure _

/-- Of each entry the exit code is looked at before the error of the enclave. -/
theorem add_details (reports : Reports) (u : StatusUpdate) :
    reports.add (u.details.getD .none) =
      (once "exitCode" reports.exitCode u.exitCode? >>= fun exitCode =>
        once "teeSessionGenerationError" reports.teeError u.teeError? >>= fun teeError =>
          .ok ⟨exitCode, teeError⟩) := by
  unfold exitCode? teeError?
  cases u.details <;> rfl

/-- What one more update makes of the outcome. -/
theorem Outcome.concat {history : List StatusUpdate} {result : Except ReplicateError Reports}
    (h : Outcome history result) (u : StatusUpdate) :
    Outcome (history ++ [u]) (result >>= (·.add (u.details.getD .none))) := by
  cases h with
  | read hexit htee =>
    show Outcome _ (add _ _)
    rw [add_details]
    by_cases hagain : Repeats exitCode? history u
    · -- the exit code is looked at first, so a second error in the same update does not matter
      rw [once_of_repeats hagain]
      refine .exitCode history.length
        ((repeatedAt_concat_iff_of_none hexit).2 ⟨rfl, hagain⟩) fun m hm => ?_
      exact Nat.le_of_eq ((repeatedAt_concat_iff_of_none htee).1 hm).1.symm
    · rw [once_of_not_repeats (not_repeatedAt_iff.1 hexit) hagain]
      have hexit' : ∀ n, ¬ RepeatedAt exitCode? (history ++ [u]) n := fun n hn =>
        hagain ((repeatedAt_concat_iff_of_none hexit).1 hn).2
      show Outcome _ (once _ _ _ >>= _)
      by_cases hagain' : Repeats teeError? history u
      · rw [once_of_repeats hagain']
        exact .teeError history.length ((repeatedAt_concat_iff_of_none htee).2 ⟨rfl, hagain'⟩)
          fun m hm => absurd hm (hexit' m)
      · rw [once_of_not_repeats (not_repeatedAt_iff.1 htee) hagain']
        exact .read hexit' fun n hn => hagain' ((repeatedAt_concat_iff_of_none htee).1 hn).2
  | exitCode n hexit hfirst =>
    refine .exitCode n (repeatedAt_concat_iff.2 (.inl hexit)) fun m hm => ?_
    obtain hm | ⟨rfl, -⟩ := repeatedAt_concat_iff.1 hm
    · exact hfirst m hm
    · exact Nat.le_of_lt hexit.lt_length
  | teeError n htee hfirst =>
    refine .teeError n (repeatedAt_concat_iff.2 (.inl htee)) fun m hm => ?_
    obtain hm | ⟨rfl, -⟩ := repeatedAt_concat_iff.1 hm
    · exact hfirst m hm
    · exact htee.lt_length

/-- Every history comes to one of these ends, by induction from its last entry on. -/
theorem ofHistory_outcome (history : List StatusUpdate) :
    Outcome history (ofHistory history) := by
  induction history using List.reverseRecOn with
  | nil =>
    exact .read (fun n h => Nat.not_lt_zero n h.lt_length) fun n h => Nat.not_lt_zero n h.lt_length
  | append_singleton history u ih =>
    rw [ofHistory_concat]
    exact ih.concat u

example : let u := StatusUpdate.byWorker .epoch .failed <|
      some ⟨.none, .some 1, .some "NO_SESSION", .none⟩
    ofHistory [u, u] = .error (.multipleOccurrences "exitCode") := rfl

end Reports

/-! ## Summaries -/

namespace Replicate

open Reports StatusUpdate

theorem summary_of_ok {r : Replicate} {reports : Reports}
    (h : ofHistory r.history = .ok reports) : r.summary = .ok ⟨r, reports⟩ := by
  rw [summary, h]
  rfl

theorem summary_of_error {r : Replicate} {e : ReplicateError}
    (h : ofHistory r.history = .error e) : r.summary = .error e := by
  rw [summary, h]
  rfl

/-- A replicate is summarized if and only if one update of its history at most carries an exit
code, and one at most a session error. The summary keeps the replicate as it is, and what these
updates carry. Otherwise the error names the report that is repeated first, the exit code if both
are repeated by the same update. -/
theorem summary_exact (r : Replicate) :
    ((∃ s, r.summary = .ok s) ↔
      occurrences exitCode? r.history ≤ 1 ∧ occurrences teeError? r.history ≤ 1) ∧
    (∀ s, r.summary = .ok s → s.replicate = r ∧
      (∀ code, s.reports.exitCode = some code ↔ ∃ u ∈ r.history, u.exitCode? = some code) ∧
      ∀ error, s.reports.teeError = some error ↔ ∃ u ∈ r.history, u.teeError? = some error) ∧
    ∀ e, r.summary = .error e ↔
      (∃ n, RepeatedAt exitCode? r.history n ∧ (∀ m, RepeatedAt teeError? r.history m → n ≤ m) ∧
        e = .multipleOccurrences "exitCode") ∨
      ∃ n, RepeatedAt teeError? r.history n ∧ (∀ m, RepeatedAt exitCode? r.history m → n < m) ∧
        e = .multipleOccurrences "teeSessionGenerationError" := by
  have houtcome := ofHistory_outcome r.history
  generalize hread : ofHistory r.history = result at houtcome
  cases houtcome with
  | read hexit htee =>
    have hcodes := not_repeatedAt_iff.1 hexit
    have herrors := not_repeatedAt_iff.1 htee
    rw [summary_of_ok hread]
    refine ⟨iff_of_true ⟨_, rfl⟩ ⟨hcodes, herrors⟩, ?_, fun e => iff_of_false (by simp) ?_⟩
    · rintro s ⟨⟩
      exact ⟨rfl, fun _ => findSome?_eq_some_iff hcodes, fun _ => findSome?_eq_some_iff herrors⟩
    · rintro (⟨n, hn, -⟩ | ⟨n, hn, -⟩)
      · exact hexit n hn
      · exact htee n hn
  | exitCode n hexit hfirst =>
    have htwice : ¬ occurrences exitCode? r.history ≤ 1 := fun h => not_repeatedAt_iff.2 h n hexit
    rw [summary_of_error hread]
    refine ⟨iff_of_false (by simp) fun h => htwice h.1, by simp, fun e => ?_⟩
    constructor
    · rintro ⟨⟩
      exact .inl ⟨n, hexit, hfirst, rfl⟩
    · rintro (⟨-, -, -, rfl⟩ | ⟨m, htee, hfirst', -⟩)
      · rfl
      · exact absurd (hfirst' n hexit) (Nat.not_lt.2 (hfirst m htee))
  | teeError n htee hfirst =>
    have htwice : ¬ occurrences teeError? r.history ≤ 1 := fun h => not_repeatedAt_iff.2 h n htee
    rw [summary_of_error hread]
    refine ⟨iff_of_false (by simp) fun h => htwice h.2, by simp, fun e => ?_⟩
    constructor
    · rintro ⟨⟩
      exact .inr ⟨n, htee, hfirst, rfl⟩
    · rintro (⟨m, hexit, hfirst', -⟩ | ⟨-, -, -, rfl⟩)
      · exact absurd (hfirst m hexit) (Nat.not_lt.2 (hfirst' n htee))
      · rfl

end Replicate

end ComputePool
