import ComputePool.Proofs.Lifecycle
import ComputePool.Proofs.Time

/-!
# The deadlines of a task

Four operations make the deadlines of a task that is received: ten execution times as a span, that
span as an offset, the instant so far ahead, and the instant five times as far ahead. Each has a
range of its own, and yet together they refuse a task for one reason only: its final deadline would
come after the last instant (`fresh_deadlines`). The ranges before the last one are so wide that no
task whose final deadline is an instant meets their ends (`steps_of_inRange`).
-/

namespace ComputePool.Task

variable {now contribution final : Instant} {d : Span}

/-- The final deadline of a task received at `now` is an instant. -/
def InRange (now : Instant) (d : Span) : Prop :=
  now.toNanos + 50 * d.toNanos ≤ Instant.latest.toNanos

/-- Whatever the clock shows, the final deadline is an instant only if its offset is less than the
whole time line. -/
theorem InRange.offset_le (h : InRange now d) :
    (50 * d.toNanos : Int) < (Instant.lastSecond - Instant.firstSecond + 1) * 1000000000 := by
  have hfirst := now.valid.1
  have hnow : now.toNanos = now.second * 1000000000 + now.nano := rfl
  have hlatest : Instant.latest.toNanos = Instant.lastSecond * 1000000000 + 999999999 := rfl
  unfold InRange at h
  omega

/-- No range but the last one is an obstacle. -/
theorem steps_of_inRange (h : InRange now d) :
    ∃ lifetime, d.scale? 10 = some lifetime ∧ lifetime.toOffset? = some (10 * d.toNanos) ∧
      Span.scaleOffset? 5 (10 * d.toNanos) = some (50 * d.toNanos) := by
  have hshort := h.offset_le
  simp only [Instant.lastSecond, Instant.firstSecond] at hshort
  obtain ⟨lifetime, hlifetime⟩ : ∃ lifetime, d.scale? 10 = some lifetime :=
    Span.exists_scale?_iff.2 (by omega)
  have hexact := Span.scale?_eq_some_iff.1 hlifetime
  refine ⟨lifetime, hlifetime, Span.toOffset?_eq_some_iff.2 ⟨by omega, ?_⟩,
    Span.scaleOffset?_eq_some_iff.2 ⟨by omega, by omega⟩⟩
  unfold Span.maxOffset
  omega

/-- What the steps give one after the other is exact, whatever their ranges are. -/
theorem isAt_of_deadlines? (h : deadlines? now d = some (contribution, final)) :
    contribution.IsAt (now.toNanos + 10 * d.toNanos) ∧
      final.IsAt (now.toNanos + 50 * d.toNanos) := by
  obtain ⟨lifetime, hlifetime, h⟩ := Option.bind_eq_some_iff.1 h
  obtain ⟨offset, hoffset, h⟩ := Option.bind_eq_some_iff.1 h
  obtain ⟨first, hfirst, h⟩ := Option.bind_eq_some_iff.1 h
  obtain ⟨longer, hlonger, h⟩ := Option.bind_eq_some_iff.1 h
  obtain ⟨last, hlast, h⟩ := Option.bind_eq_some_iff.1 h
  obtain ⟨rfl, rfl⟩ := Prod.mk.inj (Option.some.inj h)
  have hten : lifetime.toNanos = d.toNanos * 10 := Span.scale?_eq_some_iff.1 hlifetime
  obtain ⟨hsame, -⟩ := Span.toOffset?_eq_some_iff.1 hoffset
  obtain ⟨hfive, -⟩ := Span.scaleOffset?_eq_some_iff.1 hlonger
  obtain ⟨hfirst, hnano⟩ := Instant.add?_eq_some_iff.1 hfirst
  obtain ⟨hlast, hnano'⟩ := Instant.add?_eq_some_iff.1 hlast
  exact ⟨⟨by omega, hnano⟩, ⟨by omega, hnano'⟩⟩

/-- A task has deadlines if and only if the later one is an instant. -/
theorem exists_deadlines?_iff : (∃ p, deadlines? now d = some p) ↔ InRange now d := by
  constructor
  · rintro ⟨⟨contribution, final⟩, h⟩
    exact (isAt_of_deadlines? h).2.le_latest
  · intro h
    obtain ⟨lifetime, hlifetime, hoffset, hlonger⟩ := steps_of_inRange h
    unfold InRange at h
    obtain ⟨contribution, hcontribution⟩ : ∃ i, now.add? (10 * d.toNanos) = some i :=
      Instant.exists_add?_iff.2 (by omega)
    obtain ⟨final, hfinal⟩ : ∃ i, now.add? (50 * d.toNanos) = some i :=
      Instant.exists_add?_iff.2 (by omega)
    refine ⟨(contribution, final), Option.bind_eq_some_iff.2 ⟨lifetime, hlifetime, ?_⟩⟩
    refine Option.bind_eq_some_iff.2 ⟨_, hoffset, ?_⟩
    refine Option.bind_eq_some_iff.2 ⟨_, hcontribution, ?_⟩
    refine Option.bind_eq_some_iff.2 ⟨_, hlonger, ?_⟩
    exact Option.bind_eq_some_iff.2 ⟨_, hfinal, rfl⟩

/-- A task is received if and only if its final deadline is an instant, and its deadlines are ten
and fifty execution times away to the nanosecond. It is refused otherwise, with its identifier and
its execution time, and for no other reason. -/
theorem fresh_deadlines (id : Uuid) (now : Instant) (dealId : String) (index : UInt32)
    (chainTaskId : String) (trust : UInt32) (d : Span) :
    ((∃ t, fresh id now dealId index chainTaskId trust d = .ok t) ↔
      now.toNanos + 50 * d.toNanos ≤ Instant.latest.toNanos) ∧
    (∀ t, fresh id now dealId index chainTaskId trust d = .ok t →
      t.contributionDeadline.IsAt (now.toNanos + 10 * d.toNanos) ∧
      t.finalDeadline.IsAt (now.toNanos + 50 * d.toNanos) ∧
      t.contributionDeadline ≤ t.finalDeadline) ∧
    (∀ e, fresh id now dealId index chainTaskId trust d = .error e ↔
      Instant.latest.toNanos < now.toNanos + 50 * d.toNanos ∧
        e = .deadlineOutOfRange chainTaskId d) ∧
    (now.toNanos + 50 * d.toNanos ≤ Instant.latest.toNanos →
      ∃ lifetime, d.scale? 10 = some lifetime ∧ lifetime.toOffset? = some (10 * d.toNanos) ∧
        Span.scaleOffset? 5 (10 * d.toNanos) = some (50 * d.toNanos)) := by
  have hrange : (∃ p, deadlines? now d = some p) ↔
      now.toNanos + 50 * d.toNanos ≤ Instant.latest.toNanos := exists_deadlines?_iff
  obtain ⟨hdeadlines, hfresh⟩ | ⟨contribution, final, hdeadlines, hfresh⟩ :=
    @fresh_cases id now dealId index chainTaskId trust d
  · have hout : ¬ now.toNanos + 50 * d.toNanos ≤ Instant.latest.toNanos := by
      rw [← hrange, hdeadlines]
      simp
    rw [hfresh]
    refine ⟨iff_of_false (by simp) hout, by simp, fun e => ?_, fun h => absurd h hout⟩
    rw [Except.error.injEq, and_iff_right (Int.not_le.1 hout)]
    exact eq_comm
  · have hin := hrange.1 ⟨_, hdeadlines⟩
    obtain ⟨hcontribution, hfinal⟩ := isAt_of_deadlines? hdeadlines
    rw [hfresh]
    refine ⟨iff_of_true ⟨_, rfl⟩ hin, ?_, fun e => ?_, steps_of_inRange⟩
    · rintro t ⟨⟩
      exact ⟨hcontribution, hfinal, (hcontribution.le_iff hfinal).2 (by omega)⟩
    · exact iff_of_false (by simp) fun h => absurd h.1 (Int.not_lt.2 hin)

end ComputePool.Task
