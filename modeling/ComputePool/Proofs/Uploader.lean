import ComputePool.Proofs.Bookkeeping

/-!
# Who is asked to upload

A task that waits for an uploader asks one of the replicates that revealed, and is saved after that.
If the save fails, the next attempt meets a replicate that was asked already and is to go on with
it, also when its worker has acted on the request by then.

The attempt looks for a replicate that still stands at the request. A worker that is uploading, or
has uploaded, is passed over, and another one is asked for the same result as soon as one can be
chosen. `Pool.asks_once_iff` says exactly when the attempt stays with those that were asked.
-/

namespace ComputePool

/-- The replicate was asked to upload the result. It may have acted on that. -/
def Replicate.wasAsked (r : Replicate) : Bool :=
  r.lastRelevant?.any
    [.resultUploadRequested, .resultUploading, .resultUploaded].contains

/-- A replicate whose current status is relevant stands there. -/
theorem Replicate.Recorded.lastRelevant?_eq {id : String} {r : Replicate} (h : r.Recorded id)
    (hs : r.status.isRelevant = true) : r.lastRelevant? = some r.status := by
  obtain ⟨u, hu, hstatus⟩ := Option.map_eq_some_iff.1 h.current
  have hlast : r.history.reverse.head? = some u := by rw [List.head?_reverse, hu]
  obtain ⟨rest, hrest⟩ := List.head?_eq_some_iff.1 hlast
  unfold lastRelevant?
  rw [hrest, List.map_cons, hstatus]
  exact List.find?_cons_of_pos hs

/-- Somebody was asked before if some replicate stands at the request. -/
theorem ReplicateList.isSome_requestedUploader? {l : ReplicateList} :
    l.requestedUploader?.isSome = true ↔
      ∃ r ∈ l.replicates, r.lastRelevant? = some .resultUploadRequested := by
  unfold requestedUploader?
  rw [List.find?_isSome]
  simp only [beq_iff_eq]

namespace Pool

variable {p : Pool} {id : String} {t : Task} {l : ReplicateList}

/-- An update of the task asks none of its replicates to upload that was not asked before, and if it
finds the uploader it records one that was asked before. -/
structure AsksOnce (id : String) (l : ReplicateList) (p : Pool) : Prop where
  others : ∀ r ∈ l.replicates, r.wasAsked = false →
    (p.update id).store.replicate? id r.wallet = some r
  recorded : p.nextStatus? id = some .resultUploadRequested → ∃ r ∈ l.replicates,
    r.wasAsked = true ∧ ((p.update id).store.task? id).bind (·.uploader) = some r.wallet

/-- An update of the task asks a replicate that was not asked before, and records it as the
uploader. -/
structure AsksAgain (id : String) (l : ReplicateList) (r : Replicate) (p : Pool) : Prop where
  mem : r ∈ l.replicates
  revealed : r.status = .revealed
  unasked : r.wasAsked = false
  moves : p.nextStatus? id = some .resultUploadRequested
  asked : (p.update id).store.replicate? id r.wallet =
    some (r.updateStatus (.byPool p.now .resultUploadRequested none))
  recorded : ((p.update id).store.task? id).bind (·.uploader) = some r.wallet

/-- Where another one is asked the first one was not the only one. -/
theorem AsksAgain.not_asksOnce {r : Replicate} (h : p.AsksAgain id l r) : ¬ p.AsksOnce id l := by
  intro honce
  have hsame := Option.some.inj ((honce.others r h.mem h.unasked).symm.trans h.asked)
  -- a replicate that is asked has a longer history
  have hlength := congrArg (·.history.length) hsame
  rw [Replicate.updateStatus, List.length_append] at hlength
  exact absurd hlength (Nat.ne_of_lt (Nat.lt_succ_self _))

section Revealing

variable (hp : p.Reachable) (ht : p.store.task? id = some t) (hs : t.status = .revealing)
  (hd : t.finalDeadlineReached p.now = false) (hl : p.store.list? id = some l)

include hl

/-- The list that the update reads is the stored one. -/
theorem listOf_of_list? : (p.outlook id).listOf t = l := by
  unfold Outlook.listOf outlook
  rw [hl]
  rfl

omit hl in
include hs hd in
/-- A task in time that waits for an uploader moves once there is one. -/
theorem next_of_revealing (id : String) : (p.outlook id).next t =
    if ((p.outlook id).uploader? t).isSome then some .resultUploadRequested else none := by
  have hoverdue : (p.outlook id).isOverdue t = false := by
    unfold Outlook.isOverdue
    rw [show (p.outlook id).now = p.now from rfl, hd, Bool.and_false]
  unfold Outlook.next
  rw [hoverdue, if_neg Bool.false_ne_true, hs]

include hp ht hs hd

/-- What an update does that found an uploader. -/
theorem update_of_uploader {wallet : String} (hw : (p.outlook id).uploader? t = some wallet) :
    p.nextStatus? id = some .resultUploadRequested ∧
      ((p.update id).store.task? id).bind (·.uploader) = some wallet ∧
      (p.update id).store.list? id = some (((p.outlook id).asked? t).elim l
        (l.report · (.byPool p.now .resultUploadRequested none))) := by
  have hk : p.store.Keyed := hp.wellKept.keyed
  obtain rfl : t.chainTaskId = id := hk.task ht
  have hnext := next_of_revealing hs hd t.chainTaskId
  rw [hw, Option.isSome_some, if_pos rfl] at hnext
  have hdue := due?_eq_some.2 ⟨ht, hnext⟩
  rw [nextStatus?_eq hk ht, hnext, update_of_due hk hdue, task?_advanced _ ht, if_pos rfl,
    list?_advanced _ ht, if_pos rfl]
  refine ⟨rfl, hw, ?_⟩
  unfold Outlook.listAfter
  cases (p.outlook t.chainTaskId).asked? t with
  | none => exact hl
  | some asked =>
    show (p.store.list? t.chainTaskId).map _ = _
    rw [hl]
    rfl

/-- An attempt goes on with a replicate that stands at the request. -/
theorem asksOnce_of_requested (hrequested : l.requestedUploader?.isSome = true) :
    p.AsksOnce id l := by
  obtain ⟨r, hr⟩ := Option.isSome_iff_exists.1 hrequested
  have hmem : r ∈ l.replicates := List.mem_of_find?_eq_some hr
  have hlast : r.lastRelevant? = some .resultUploadRequested := by simpa using List.find?_some hr
  have hasked : (p.outlook id).asked? t = none := by
    unfold Outlook.asked?
    rw [listOf_of_list? hl, if_pos hrequested]
  have huploader : (p.outlook id).uploader? t = some r.wallet := by
    unfold Outlook.uploader?
    rw [listOf_of_list? hl, hr, Option.map_some, Option.some_or]
  obtain ⟨-, hrecorded, hlist⟩ := update_of_uploader hp ht hs hd hl huploader
  rw [hasked, Option.elim_none] at hlist
  refine ⟨fun r' hr' _ => ?_, fun _ => ⟨r, hmem, ?_, hrecorded⟩⟩
  · unfold Store.replicate?
    rw [hlist, Option.bind_some]
    exact ReplicateList.find?_of_mem (hp.distinct id l hl) hr'
  · unfold Replicate.wasAsked
    rw [hlast]
    rfl

/-- Where nobody stands at the request and nobody revealed, an attempt does nothing. -/
theorem asksOnce_of_no_candidate (hrequested : l.requestedUploader?.isSome = false)
    (hnobody : ∀ r ∈ l.replicates, r.status ≠ .revealed) : p.AsksOnce id l := by
  have hk : p.store.Keyed := hp.wellKept.keyed
  have hempty : l.uploadCandidates.isEmpty = true := by
    rw [ReplicateList.isEmpty_uploadCandidates, Bool.not_eq_true', List.any_eq_false]
    exact fun r hr => by simpa using hnobody r hr
  have hnext := next_of_revealing hs hd id
  rw [Outlook.isSome_uploader?, listOf_of_list? hl, hrequested, hempty] at hnext
  have hnext : (p.outlook id).next t = none := hnext
  have hdue : p.due? id = none := by
    unfold due?
    rw [ht, Option.bind_some, hnext]
    rfl
  refine ⟨fun r hr _ => ?_, fun hmoves => ?_⟩
  · rw [update_of_not_due hk hdue]
    unfold Store.replicate?
    rw [hl, Option.bind_some]
    exact ReplicateList.find?_of_mem (hp.distinct id l hl) hr
  · rw [nextStatus?_eq hk ht, hnext] at hmoves
    exact absurd hmoves (by simp)

omit hp ht hs hd in
/-- Where nobody stands at the request and somebody revealed, one of those is chosen and asked. -/
theorem exists_chosen (t : Task) (hrequested : l.requestedUploader?.isSome = false)
    (hcandidate : ∃ r ∈ l.replicates, r.status = .revealed) :
    ∃ r ∈ l.replicates, r.status = .revealed ∧ (p.outlook id).asked? t = some r.wallet ∧
      (p.outlook id).uploader? t = some r.wallet := by
  have hsome : ((p.outlook id).candidate? t).isSome = true := by
    rw [Outlook.isSome_candidate?, listOf_of_list? hl, ReplicateList.isEmpty_uploadCandidates,
      Bool.not_not, List.any_eq_true]
    obtain ⟨r, hr, hrevealed⟩ := hcandidate
    exact ⟨r, hr, beq_iff_eq.2 hrevealed⟩
  obtain ⟨r, hr⟩ := Option.isSome_iff_exists.1 hsome
  have hmem : r ∈ l.uploadCandidates := by
    unfold Outlook.candidate? at hr
    rw [listOf_of_list? hl] at hr
    exact List.mem_of_getElem? hr
  obtain ⟨hmem, hrevealed⟩ := List.mem_filter.1 hmem
  have hnone := Option.isNone_iff_eq_none.1 (Option.isSome_eq_false_iff.1 hrequested)
  have hasked : (p.outlook id).asked? t = some r.wallet := by
    unfold Outlook.asked?
    rw [listOf_of_list? hl, hrequested, if_neg Bool.false_ne_true, hr, Option.map_some]
  refine ⟨r, hmem, beq_iff_eq.1 hrevealed, hasked, ?_⟩
  unfold Outlook.uploader?
  rw [hasked, listOf_of_list? hl, hnone]
  rfl

/-- Where nobody stands at the request and somebody revealed, an attempt asks one of those. -/
theorem exists_asksAgain (hrequested : l.requestedUploader?.isSome = false)
    (hcandidate : ∃ r ∈ l.replicates, r.status = .revealed) :
    ∃ r, p.AsksAgain id l r := by
  obtain ⟨r, hmem, hrevealed, hasked, huploader⟩ := exists_chosen hl t hrequested hcandidate
  have hlast := (hp.recorded id l hl r hmem).lastRelevant?_eq (by rw [hrevealed]; rfl)
  obtain ⟨hmoves, hrecorded, hlist⟩ := update_of_uploader hp ht hs hd hl huploader
  rw [hasked, Option.elim_some] at hlist
  refine ⟨r, hmem, hrevealed, ?_, hmoves, ?_, hrecorded⟩
  · unfold Replicate.wasAsked
    rw [hlast, hrevealed]
    rfl
  · unfold Store.replicate?
    rw [hlist, Option.bind_some, ReplicateList.find?_report _
      (ReplicateList.find?_of_mem (hp.distinct id l hl) hmem), if_pos rfl]

end Revealing

/-- When an attempt to find the uploader of a task stays with those that were asked before, whether
they acted on it or not. If one of them still stands at the request, or no replicate can be chosen,
nobody else is asked and nobody else is recorded. Otherwise a replicate that revealed is asked as
well, and recorded. -/
theorem asks_once_iff (hp : p.Reachable) (ht : p.store.task? id = some t)
    (hs : t.status = .revealing) (hd : t.finalDeadlineReached p.now = false)
    (hl : p.store.list? id = some l) :
    (p.AsksOnce id l ↔
      (∃ r ∈ l.replicates, r.lastRelevant? = some .resultUploadRequested) ∨
        ∀ r ∈ l.replicates, r.status ≠ .revealed) ∧
      (¬ p.AsksOnce id l → ∃ r, p.AsksAgain id l r) := by
  cases hrequested : l.requestedUploader?.isSome with
  | true =>
    have honce := asksOnce_of_requested hp ht hs hd hl hrequested
    exact ⟨iff_of_true honce (.inl (ReplicateList.isSome_requestedUploader?.1 hrequested)),
      fun hnot => absurd honce hnot⟩
  | false =>
    have hnone : ¬ ∃ r ∈ l.replicates, r.lastRelevant? = some .resultUploadRequested := by
      rw [← ReplicateList.isSome_requestedUploader?, hrequested]
      exact Bool.false_ne_true
    rw [or_iff_right hnone]
    by_cases hcandidate : ∃ r ∈ l.replicates, r.status = .revealed
    · obtain ⟨r, hagain⟩ := exists_asksAgain hp ht hs hd hl hrequested hcandidate
      refine ⟨iff_of_false hagain.not_asksOnce ?_, fun _ => ⟨r, hagain⟩⟩
      obtain ⟨r', hr', hrevealed⟩ := hcandidate
      exact fun hnobody => hnobody r' hr' hrevealed
    · have hnobody : ∀ r ∈ l.replicates, r.status ≠ .revealed :=
        fun r hr hrevealed => hcandidate ⟨r, hr, hrevealed⟩
      have honce := asksOnce_of_no_candidate hp ht hs hd hl hrequested hnobody
      exact ⟨iff_of_true honce hnobody, fun hnot => absurd honce hnot⟩

/-! ## An attempt that failed -/

/-- A replicate was asked to upload, but the task was changed before it could be saved. Another
replicate has revealed since. -/
def resumed : Pool := revealing.after [
  .addReplicate ⟨"0x1", 2, []⟩ "0xb",
  .updateReplicate "0x1" "0xa" (.byPool .epoch .resultUploadRequested none),
  .saveTask ((Task.plain "0x1").changeStatus .epoch .revealing),
  .updateReplicate "0x1" "0xb" (.byWorker .epoch .revealed none)]

theorem reachable_resumed : resumed.Reachable := reachable_revealing.after _

/-- The one that was asked before is asked, although another one has revealed. -/
theorem asks_once_iff_resumed : ∃ l, resumed.store.list? "0x1" = some l ∧
    (∃ r ∈ l.replicates, r.wasAsked = true) ∧ (∃ r ∈ l.replicates, r.status = .revealed) ∧
    resumed.AsksOnce "0x1" l := by
  have h := asks_once_iff reachable_resumed (show resumed.store.task? "0x1" = some _ from rfl)
    (by decide) (by decide) (show resumed.store.list? "0x1" = some _ from rfl)
  exact ⟨_, rfl, by decide, by decide, h.1.2 (.inl (by decide))⟩

/-- Once its worker is uploading, the other one is asked for the same result. -/
theorem asks_again_while_uploading :
    let p := resumed.after [.updateReplicate "0x1" "0xa" (.byWorker .epoch .resultUploading none)]
    p.Reachable ∧
      ((p.store.replicate? "0x1" "0xa").bind (·.lastRelevant?)) = some .resultUploading ∧
      (p.store.task? "0x1").map (fun t => (t.status, t.finalDeadlineReached p.now)) =
        some (.revealing, false) ∧
      ((p.update "0x1").store.task? "0x1").map (fun t => (t.status, t.uploader)) =
        some (.resultUploadRequested, some "0xb") ∧
      ((p.update "0x1").store.replicate? "0x1" "0xb").map (fun r => r.history.map (·.status)) =
        some [.created, .revealed, .resultUploadRequested] :=
  ⟨reachable_resumed.after _, by decide, by decide, by decide, by decide⟩

end Pool

end ComputePool
