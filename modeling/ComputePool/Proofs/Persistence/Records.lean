import ComputePool.Chain
import ComputePool.Notification
import ComputePool.Proofs.Persistence.Values
import ComputePool.Replicate.List
import ComputePool.Task.Basic
import ComputePool.Worker.Basic

/-!
# Records that come back

What was read once is read again from what is written for it, and it is the same (`RoundTrips`).
Most records are faithful: every value of them comes back, whether it was read or not. A list of
replicates, a task and a worker count something, and come back if the count is below 2^64, as every
count is that was read. A task that was made in memory comes back with the whole seconds of its
execution time, and is written the same way again.
-/

namespace ComputePool

open Json

/-! ## Names -/

instance : Distinct Modifier := ⟨fun a => by cases a <;> rfl⟩

instance : Distinct ReplicateStatus := ⟨fun a => by cases a <;> rfl⟩

instance : Distinct TaskStatus := ⟨fun a => by cases a <;> rfl⟩

instance : Distinct ChainTaskStatus := ⟨fun a => by cases a <;> rfl⟩

instance : Distinct ContributionStatus := ⟨fun a => by cases a <;> rfl⟩

instance : Distinct Instruction := ⟨fun a => by cases a <;> rfl⟩

instance : Distinct AbortCause := ⟨fun a => by cases a <;> rfl⟩

/-! ## Faithful records -/

instance : Faithful StatusChange where
  restored c := by
    show (fields? _ (.obj _) >>= _) = _
    simp
  nullFree c := nullFree_obj (by simp)

instance : Faithful Details where
  restored d := by
    show (fields? _ (.obj _) >>= _) = _
    simp [List.lookup_append]
  nullFree d := nullFree_obj (by simp)

instance : Faithful StatusUpdate where
  restored u := by
    show (fields? _ (.obj _) >>= _) = _
    simp
  nullFree u := nullFree_obj (by simp)

instance : Faithful Replicate where
  restored r := by
    show (fields? _ (.obj _) >>= _) = _
    simp
  nullFree r := nullFree_obj (by simp)

instance : Faithful ChainTask where
  restored t := by
    show (fields? _ (.obj _) >>= _) = _
    simp
  nullFree t := nullFree_obj (by simp)

instance : Faithful Contribution where
  restored c := by
    show (fields? _ (.obj _) >>= _) = _
    simp
  nullFree c := nullFree_obj (by simp)

instance : Faithful Authorization where
  restored a := by
    show (fields? _ (.obj _) >>= _) = _
    simp
  nullFree a := nullFree_obj (by simp)

instance : Faithful Extra where
  restored e := by
    show (fields? _ (.obj _) >>= _) = _
    simp [List.lookup_append]
  nullFree e := nullFree_obj (by simp)

instance : Faithful Notification where
  restored n := by
    show (fields? _ (.obj _) >>= _) = _
    simp
  nullFree n := nullFree_obj (by simp)

/-! ## Records that count -/

instance : Plain ReplicateList := ⟨fun l => nullFree_obj (by simp)⟩

instance : Plain Worker := ⟨fun w => nullFree_obj (by simp)⟩

instance : Plain Task := ⟨fun t => nullFree_obj (by simp)⟩

theorem ReplicateList.restored {l : ReplicateList} (h : l.version < UInt64.size) :
    decode? (encode l) = some l := by
  have hversion := restored_nat h
  show (fields? _ (.obj _) >>= _) = _
  simp [-Option.bind_eq_bind, some_bind, hversion]

/-- Only versions below 2^64 are read. -/
theorem ReplicateList.version_lt {v : Json} {l : ReplicateList} (h : decode? v = some l) :
    l.version < UInt64.size := by
  change (fields? _ v >>= _) = _ at h
  -- the fields are read in order; of those around the version nothing is needed
  iterate 2 obtain ⟨_, -, h⟩ := Option.bind_eq_some_iff.1 h
  obtain ⟨version, hversion, h⟩ := Option.bind_eq_some_iff.1 h
  obtain ⟨replicates, -, h⟩ := Option.bind_eq_some_iff.1 h
  obtain ⟨n, -, hn⟩ := Option.bind_eq_some_iff.1 hversion
  rw [← Option.some.inj h]
  exact lt_of_decode?_nat hn

theorem Worker.restored {w : Worker} (h : w.maxTasks < UInt64.size) :
    decode? (encode w) = some w := by
  have hmaxTasks := restored_nat h
  show (fields? _ (.obj _) >>= _) = _
  simp [-Option.bind_eq_bind, some_bind, hmaxTasks]

/-- Only a number of tasks below 2^64 is read. -/
theorem Worker.maxTasks_lt {v : Json} {w : Worker} (h : decode? v = some w) :
    w.maxTasks < UInt64.size := by
  change (fields? _ v >>= _) = _ at h
  iterate 3 obtain ⟨_, -, h⟩ := Option.bind_eq_some_iff.1 h
  obtain ⟨maxTasks, hmaxTasks, h⟩ := Option.bind_eq_some_iff.1 h
  iterate 5 obtain ⟨_, -, h⟩ := Option.bind_eq_some_iff.1 h
  obtain ⟨n, -, hn⟩ := Option.bind_eq_some_iff.1 hmaxTasks
  rw [← Option.some.inj h]
  exact lt_of_decode?_nat hn

namespace Task

/-- The task with the whole seconds of its execution time. -/
def wholeSeconds (t : Task) : Task :=
  { t with maxExecutionTime := Span.ofSeconds t.maxExecutionTime.seconds }

/-- A task that was made in memory comes back with the whole seconds of its execution time. -/
theorem restored {t : Task} (h : t.version < UInt64.size) :
    decode? (encode t) = some t.wholeSeconds := by
  have hversion := restored_nat h
  show (fields? _ (.obj _) >>= _) = _
  simp [-Option.bind_eq_bind, some_bind, List.lookup_append, hversion, restored_span, wholeSeconds]

/-- The fraction of a second is not written. -/
theorem encode_wholeSeconds (t : Task) : encode t.wholeSeconds = encode t := rfl

/-- Only versions below 2^64 and execution times of whole seconds are read. -/
theorem read_bounds {v : Json} {t : Task} (h : decode? v = some t) :
    t.version < UInt64.size ∧ t.wholeSeconds = t := by
  change (fields? _ v >>= _) = _ at h
  iterate 2 obtain ⟨_, -, h⟩ := Option.bind_eq_some_iff.1 h
  obtain ⟨version, hversion, h⟩ := Option.bind_eq_some_iff.1 h
  iterate 6 obtain ⟨_, -, h⟩ := Option.bind_eq_some_iff.1 h
  obtain ⟨maxExecutionTime, htime, h⟩ := Option.bind_eq_some_iff.1 h
  iterate 8 obtain ⟨_, -, h⟩ := Option.bind_eq_some_iff.1 h
  obtain ⟨n, -, hn⟩ := Option.bind_eq_some_iff.1 hversion
  obtain ⟨d, -, hd⟩ := Option.bind_eq_some_iff.1 htime
  rw [← Option.some.inj h]
  refine ⟨lt_of_decode?_nat hn, ?_⟩
  unfold wholeSeconds
  rw [← eq_of_decode?_span hd]

end Task

/-! ## Round trips -/

/-- What was read is read again from what is written for it, and nothing that is left out is written
as `null`. -/
def RoundTrips (α : Type) [Persistent α] : Prop :=
  ∀ (v : Json) (a : α), decode? v = some a → decode? (encode a) = some a ∧ (encode a).NullFree

theorem RoundTrips.of_faithful (α : Type) [Persistent α] [Faithful α] : RoundTrips α :=
  fun _ a _ => ⟨restored a, nullFree a⟩

theorem Task.roundTrips : RoundTrips Task := by
  intro v t h
  obtain ⟨hversion, hwhole⟩ := read_bounds h
  have hrestored := restored hversion
  rw [hwhole] at hrestored
  exact ⟨hrestored, nullFree t⟩

/-- Every record that was read comes back from what is written for it. A task that was made in
memory comes back with the whole seconds of its execution time and is then written as before, for a
version of 64 bits. Every instant comes back from its timestamp, a fraction of a second included,
which is one of UTC. -/
theorem persistence_round_trips :
    (RoundTrips Task ∧ RoundTrips Replicate ∧ RoundTrips ReplicateList ∧ RoundTrips StatusUpdate ∧
      RoundTrips Details ∧ RoundTrips ChainTask ∧ RoundTrips Contribution ∧
      RoundTrips Authorization ∧ RoundTrips Notification ∧ RoundTrips Worker) ∧
    (∀ t : Task, t.version < UInt64.size → ∃ t' : Task, decode? (encode t) = some t' ∧
      t' = { t with maxExecutionTime := Span.ofSeconds t.maxExecutionTime.seconds } ∧
      encode t' = encode t) ∧
    ∀ i : Instant, Instant.ofText? i.text = some i ∧ i.text.toList.getLast? = some 'Z' := by
  have hlist : RoundTrips ReplicateList := fun v l h =>
    ⟨ReplicateList.restored (ReplicateList.version_lt h), nullFree l⟩
  have hworker : RoundTrips Worker := fun v w h =>
    ⟨Worker.restored (Worker.maxTasks_lt h), nullFree w⟩
  refine ⟨⟨Task.roundTrips, .of_faithful _, hlist, .of_faithful _, .of_faithful _, .of_faithful _,
    .of_faithful _, .of_faithful _, .of_faithful _, hworker⟩, ?_, ?_⟩
  · intro t h
    exact ⟨t.wholeSeconds, Task.restored h, rfl, t.encode_wholeSeconds⟩
  · intro i
    exact ⟨i.ofText?_text, i.getLast?_text⟩

/-- An update dated with an offset from UTC, with an empty text and a field that is `null`. -/
def offsetUpdate : Json := .obj [
  ("status", .str "CONTRIBUTED"), ("modifier", .str "WORKER"),
  ("date", .str "2024-02-29T23:30:00.5+01:30"),
  ("details", .obj [("exit_code", .int (-1)), ("tee_session_generation_error", .str ""),
    ("result_hash", .null)])]

/-- The update that is read from it, of ten o'clock in UTC. -/
def readUpdate : StatusUpdate where
  status := .contributed
  modifier := .worker
  date := ⟨1709244000, 500000000, by decide⟩
  details := some ⟨none, some (-1), some "", none⟩

/-- A task that takes at most half a second. -/
def briefTask : Task :=
  { (default : Task) with version := 3, maxExecutionTime := Span.ofMillis 500 }

/-- The date is written in UTC from then on, the empty text stays, and the brief task comes back
with no time at all. -/
theorem persistence_round_trips_offset :
    decode? offsetUpdate = some readUpdate ∧
      (decode? (encode readUpdate) = some readUpdate ∧ (encode readUpdate).NullFree) ∧
      briefTask.version < UInt64.size ∧
      ∃ t : Task, decode? (encode briefTask) = some t ∧
        t = { briefTask with maxExecutionTime := Span.ofSeconds 0 } ∧
        encode t = encode briefTask := by
  have hread : decode? offsetUpdate = some readUpdate := by decide +kernel
  have hversion : briefTask.version < UInt64.size := by decide
  obtain ⟨⟨-, -, -, hupdate, -⟩, htask, -⟩ := persistence_round_trips
  exact ⟨hread, hupdate _ _ hread, hversion, htask briefTask hversion⟩

end ComputePool
