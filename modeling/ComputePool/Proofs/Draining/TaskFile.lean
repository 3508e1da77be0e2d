import ComputePool.Proofs.Transition.Update
import Mathlib.Dynamics.FixedPoints.Basic
import Mathlib.Logic.Function.Iterate

/-!
# One task on its own

All that an update of a task reads besides the clock and the chain, and all that it writes, is kept
in the task's own `TaskFile`: the task, its replicate list, and whose slots for it were freed. While
clock and chain stand still, `TaskFile.advance` moves it on as a function of itself, so

* the files that one task can go through are a single sequence, `advance` iterated;
* once no move is due the file stays the same, so at most one file of the sequence is settled
  (`settled_unique`).

Chance enters where an uploader is chosen among several candidates. With one candidate at most it
does not matter (`Outlook.moved_fixed`), and the file takes the first.
-/

namespace ComputePool

namespace Outlook

variable (o : Outlook) {t : Task}

/-- The outlook in which the first candidate is chosen. -/
def fixed : Outlook := { o with roll := 0 }

/-- The move of the task takes a draw. -/
def Chooses (t : Task) : Prop :=
  o.next t = some .resultUploadRequested ∧ (o.listOf t).requestedUploader? = none

/-- Chance does not decide to which status a task moves. -/
theorem next_fixed (t : Task) : o.fixed.next t = o.next t := by
  have huploader : (o.fixed.uploader? t).isSome = (o.uploader? t).isSome := by
    rw [isSome_uploader?, isSome_uploader?]
    rfl
  unfold next
  rw [huploader]
  rfl

/-- The task need not choose, or there is one candidate at most. -/
def Forced (t : Task) : Prop := o.Chooses t → (o.listOf t).uploadCandidates.length ≤ 1

/-- Among one candidate at most there is no choice. -/
theorem candidate?_fixed (h : (o.listOf t).uploadCandidates.length ≤ 1) :
    o.fixed.candidate? t = o.candidate? t := by
  show (o.listOf t).uploadCandidates[0 % (o.listOf t).uploadCandidates.length]? =
    (o.listOf t).uploadCandidates[o.roll % (o.listOf t).uploadCandidates.length]?
  rcases Nat.le_one_iff_eq_zero_or_eq_one.1 h with hzero | hone
  · rw [List.eq_nil_of_length_eq_zero hzero]
    rfl
  · rw [hone, Nat.mod_one, Nat.mod_one]

theorem asked?_fixed
    (h : (o.listOf t).requestedUploader? = none → (o.listOf t).uploadCandidates.length ≤ 1) :
    o.fixed.asked? t = o.asked? t := by
  unfold asked?
  cases hr : (o.listOf t).requestedUploader? with
  | some r =>
    have hr' : (o.fixed.listOf t).requestedUploader? = some r := hr
    rw [hr']
    rfl
  | none =>
    have hr' : (o.fixed.listOf t).requestedUploader? = none := hr
    rw [hr', o.candidate?_fixed (h hr)]

/-- What becomes of the task does not depend on chance, if there is no choice. -/
theorem moved_fixed {s : TaskStatus} (hs : o.next t = some s) (hforced : o.Forced t) :
    o.fixed.moved s t = o.moved s t ∧ o.fixed.listAfter s t = o.listAfter s t := by
  by_cases hrequest : s = .resultUploadRequested
  · subst hrequest
    have hasked : o.fixed.asked? t = o.asked? t := o.asked?_fixed fun hr => hforced ⟨hs, hr⟩
    refine ⟨?_, ?_⟩
    · unfold moved amended uploader?
      dsimp only
      rw [hasked]
      rfl
    · unfold listAfter
      dsimp only
      rw [hasked]
      rfl
  · -- no other move asks anybody
    unfold moved amended listAfter
    cases s with
    | resultUploadRequested => exact absurd rfl hrequest
    | _ => exact ⟨rfl, rfl⟩

end Outlook

/-- What updates read and write of one task. -/
structure TaskFile where
  task : Option Task
  list : Option ReplicateList
  /-- The wallets whose slots for the task were freed, since the file was opened. -/
  freed : List String

namespace TaskFile

/-- The outlook of the task of a file. -/
def outlook (now : Instant) (c : Option ChainTask) (f : TaskFile) : Outlook := ⟨now, c, f.list, 0⟩

/-- The file after one update. -/
def advance (now : Instant) (c : Option ChainTask) (f : TaskFile) : TaskFile :=
  match f.task with
  | none => f
  | some t =>
    match (f.outlook now c).next t with
    | none => f
    | some s => {
        task := some ((f.outlook now c).moved s t).saved
        list := (f.outlook now c).listAfter s t
        freed :=
          if s.freesWorkers then f.freed ++ (f.list.map (·.wallets)).getD [] else f.freed }

/-- No move is due. -/
def Settled (now : Instant) (c : Option ChainTask) (f : TaskFile) : Prop :=
  ∀ t, f.task = some t → (f.outlook now c).next t = none

variable {now : Instant} {c : Option ChainTask} {f : TaskFile}

/-- The file of a task that moves. -/
theorem advance_of_next {t : Task} {s : TaskStatus} (ht : f.task = some t)
    (hs : (f.outlook now c).next t = some s) :
    f.advance now c = {
      task := some ((f.outlook now c).moved s t).saved
      list := (f.outlook now c).listAfter s t
      freed :=
        if s.freesWorkers then f.freed ++ (f.list.map (·.wallets)).getD [] else f.freed } := by
  unfold advance
  rw [ht]
  dsimp only
  rw [hs]

/-- A settled file stays the same. -/
theorem Settled.isFixedPt (h : f.Settled now c) : Function.IsFixedPt (advance now c) f := by
  unfold Function.IsFixedPt advance
  cases ht : f.task with
  | none => rfl
  | some t =>
    dsimp only
    rw [h t ht]

/-- A task settles in one way. -/
theorem settled_unique {m n : Nat} (hm : ((advance now c)^[m] f).Settled now c)
    (hn : ((advance now c)^[n] f).Settled now c) :
    (advance now c)^[m] f = (advance now c)^[n] f := by
  -- the one that settles first stays until the other does
  have hstay : ∀ {m n : Nat}, m ≤ n → ((advance now c)^[m] f).Settled now c →
      (advance now c)^[m] f = (advance now c)^[n] f := by
    intro m n hle h
    obtain ⟨k, rfl⟩ := Nat.exists_eq_add_of_le' hle
    rw [Function.iterate_add_apply]
    exact (h.isFixedPt.iterate k).symm
  rcases Nat.le_total m n with hle | hle
  · exact hstay hle hm
  · exact (hstay hle hn).symm

end TaskFile

end ComputePool
