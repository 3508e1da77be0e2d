import ComputePool.Proofs.Transition.Update
import ComputePool.Proofs.WellKept
import ComputePool.Recovery

/-!
# The mark of recovery

Each time recovery tells a worker what to do, it leaves a mark in the history of the replicate. The
mark is not to say where the replicate stands, and whatever is read from the history looks past it:
the last relevant status, the statuses that were reached, the contribution.

But the mark is also the current status, until the next report, and three questions are asked of
the current status: who can be chosen as uploader, who uploaded the result, and whether the uploader
is uploading. A marked replicate drops out of all three. `Pool.mark_harmless_iff` says for which
tasks and replicates this changes nothing: there must be another replicate to take its place. A
replicate that recovery has just repaired is marked right away, so the repair can be lost on the
task.
-/

namespace ComputePool

namespace Replicate

variable (now : Instant) (r : Replicate)

/-- The replicate with the mark of recovery. -/
def marked : Replicate := r.updateStatus (.byPool now .recovering none)

/-! ## What looks past the mark -/

/-- The mark is no status in which a replicate stands. -/
@[simp] theorem marked_lastRelevant? : (r.marked now).lastRelevant? = r.lastRelevant? := by
  unfold lastRelevant?
  have hhistory : (r.marked now).history.reverse =
      .byPool now .recovering none :: r.history.reverse :=
    List.reverse_append
  rw [hhistory]
  rfl

@[simp] theorem marked_contributionHash :
    (r.marked now).contributionHash = r.contributionHash :=
  Option.or_none

/-- The mark reaches no status but its own. -/
theorem marked_reached {s : ReplicateStatus} (hs : s ≠ .recovering) :
    (r.marked now).reached s = r.reached s := by
  unfold reached
  show (r.history ++ [_]).any _ = _
  have hmark : (ReplicateStatus.recovering == s) = false := beq_eq_false_iff_ne.2 hs.symm
  rw [List.any_append, List.any_cons, List.any_nil]
  show (_ || (ReplicateStatus.recovering == s || false)) = _
  rw [hmark, Bool.or_self, Bool.or_false]

/-! ## What does not -/

/-- With the mark on top a replicate does not count as having uploaded. -/
theorem marked_hasUploaded : (r.marked now).hasUploaded = false := by
  have hhistory : (r.marked now).history.reverse =
      .byPool now .recovering none :: r.history.reverse :=
    List.reverse_append
  have hlost : (r.marked now).isLostAfter .resultUploaded = false := by
    unfold isLostAfter
    rw [hhistory]
    cases r.history.reverse with
    | nil => rfl
    | cons u rest => rfl
  unfold hasUploaded
  rw [hlost]
  rfl

end Replicate

namespace ReplicateList

/-- The replicates other than the one that is found for a wallet. -/
def others (wallet : String) (l : ReplicateList) : List Replicate :=
  l.replicates.eraseP (·.wallet == wallet)

/-- The wallets that can be chosen to upload the result. -/
def uploaders (l : ReplicateList) : List String := l.uploadCandidates.map (·.wallet)

/-- There is a candidate if the current status of some replicate is the revealed one. -/
theorem isEmpty_uploadCandidates (l : ReplicateList) :
    l.uploadCandidates.isEmpty = !l.replicates.any (·.status == .revealed) := by
  rw [Bool.eq_iff_iff, List.isEmpty_iff, uploadCandidates, List.filter_eq_nil_iff,
    Bool.not_eq_true', List.any_eq_false]

/-- Who can be chosen is told by the current status, which a mark covers. -/
theorem mem_uploaders {w : String} {l : ReplicateList} :
    w ∈ l.uploaders ↔ l.replicates.any fun r => r.status == .revealed && r.wallet == w := by
  unfold uploaders uploadCandidates
  simp [and_assoc]

/-! ## A list in which one replicate reports -/

section Report

variable {l : ReplicateList} {wallet : String} {r : Replicate}

/-- A report changes the replicate that is found for the wallet, and none of the others. -/
theorem report_eq_append (h : l.find? wallet = some r) :
    r.wallet = wallet ∧ ∃ before after, (∀ b ∈ before, b.wallet ≠ wallet) ∧
      l.replicates = before ++ r :: after ∧ l.others wallet = before ++ after ∧
      ∀ u, (l.report wallet u).replicates = before ++ r.updateStatus u :: after := by
  obtain ⟨hr, before, after, hl, hbefore⟩ := List.find?_eq_some_iff_append.1 h
  have hne : ∀ b ∈ before, b.wallet ≠ wallet := fun b hb => by simpa using hbefore b hb
  have hknown : l.hasWorker wallet = true := by
    unfold hasWorker
    rw [h]
    rfl
  refine ⟨beq_iff_eq.1 hr, before, after, hne, hl, ?_, fun u => ?_⟩
  · unfold others
    rw [hl, List.eraseP_append_right _ fun b hb => by simpa using hne b hb]
    exact congrArg (before ++ ·) (List.eraseP_cons_of_pos hr)
  · unfold report
    rw [if_pos hknown]
    show modifyFirst _ _ l.replicates = _
    rw [hl]
    clear hl hbefore
    induction before with
    | nil => exact if_pos hr
    | cons b rest ih =>
      have hb : ¬ (b.wallet == wallet) = true := by simpa using hne b List.mem_cons_self
      rw [List.cons_append, modifyFirst, if_neg hb,
        ih fun b' hb' => hne b' (List.mem_cons_of_mem b hb')]
      rfl

variable (u : StatusUpdate) (h : l.find? wallet = some r)

include h

/-- Somebody passes a test: the replicate itself, or one of the others. -/
theorem any_eq (q : Replicate → Bool) : l.replicates.any q = (q r || (l.others wallet).any q) := by
  obtain ⟨-, before, after, -, hl, hothers, -⟩ := report_eq_append h
  rw [hl, hothers, List.any_append, List.any_cons, List.any_append, Bool.or_left_comm]

/-- Whether some replicate passes a test is told by the one that reports and the others. -/
theorem any_report (q : Replicate → Bool) :
    (l.report wallet u).replicates.any q = (q (r.updateStatus u) || (l.others wallet).any q) := by
  obtain ⟨-, before, after, -, -, hothers, hreport⟩ := report_eq_append h
  rw [hreport u, hothers, List.any_append, List.any_cons, List.any_append, Bool.or_left_comm]

/-- A test that does not see the report is passed by the same wallets. -/
theorem wallets_filter_report {q : Replicate → Bool} (hq : q (r.updateStatus u) = q r) :
    ((l.report wallet u).replicates.filter q).map (·.wallet) =
      (l.replicates.filter q).map (·.wallet) := by
  obtain ⟨-, before, after, -, hl, -, hreport⟩ := report_eq_append h
  rw [hl, hreport u, List.filter_append, List.filter_append, List.filter_cons, List.filter_cons, hq]
  split
  · rw [List.map_append, List.map_append, List.map_cons, List.map_cons]
    rfl
  · rfl

/-- A report on which the test does not depend leaves the count as it is. -/
theorem countP_report {q : Replicate → Bool} (hq : q (r.updateStatus u) = q r) :
    (l.report wallet u).replicates.countP q = l.replicates.countP q := by
  have hlength := congrArg List.length (wallets_filter_report u h hq)
  rw [List.length_map, List.length_map] at hlength
  rw [List.countP_eq_length_filter, List.countP_eq_length_filter, hlength]

/-- The replicate of the wallet is found with its report, and the others as before. -/
theorem find?_report (w : String) :
    (l.report wallet u).find? w = if w = wallet then some (r.updateStatus u) else l.find? w := by
  obtain ⟨hwallet, before, after, hne, hl, -, hreport⟩ := report_eq_append h
  unfold find?
  rw [hreport u, hl, List.find?_append, List.find?_append]
  split
  · next hw =>
    subst hw
    have hnone : before.find? (·.wallet == w) = none :=
      List.find?_eq_none.2 fun b hb => by simpa using hne b hb
    rw [hnone, Option.none_or]
    exact List.find?_cons_of_pos (beq_iff_eq.2 hwallet)
  · next hw =>
    have hr : ¬ (r.wallet == w) = true := fun heq => hw ((beq_iff_eq.1 heq).symm.trans hwallet)
    have hskip : ∀ r' : Replicate, r'.wallet = r.wallet →
        (r' :: after).find? (·.wallet == w) = after.find? (·.wallet == w) := by
      intro r' hr'
      exact List.find?_cons_of_neg (by rw [hr']; exact hr)
    rw [hskip r rfl, hskip (r.updateStatus u) rfl]

end Report

/-! ## A list in which one replicate is marked -/

section Mark

variable {l : ReplicateList} {wallet : String} {r : Replicate} (now : Instant)

/-- The list with the mark of recovery on the replicate of a wallet. -/
def marked (now : Instant) (wallet : String) (l : ReplicateList) : ReplicateList :=
  l.report wallet (.byPool now .recovering none)

variable (h : l.find? wallet = some r)

include h

/-- Consensus looks past the mark. -/
theorem agreesWith_marked (c : ChainTask) :
    (l.marked now wallet).agreesWith c = l.agreesWith c := by
  have hcount : (l.marked now wallet).winnerCount c.consensusValue =
      l.winnerCount c.consensusValue := by
    refine countP_report _ h ?_
    show ((r.marked now).lastRelevant? == _ && (r.marked now).contributionHash == _) = _
    rw [r.marked_lastRelevant?, r.marked_contributionHash]
  unfold agreesWith
  rw [hcount]

theorem isStarted_marked : (l.marked now wallet).isStarted = l.isStarted := by
  have hr := r.marked_lastRelevant? now
  unfold isStarted marked
  rw [any_report _ h, any_eq h]
  show ((r.marked now).lastRelevant?.any _ || _) = _
  rw [hr]

/-- Who has revealed counts as before. -/
theorem reachedCount_marked : (l.marked now wallet).reachedCount [.revealed] =
    l.reachedCount [.revealed] := by
  have hr : [ReplicateStatus.revealed].any (r.marked now).reached =
      [ReplicateStatus.revealed].any r.reached := by
    rw [List.any_cons, List.any_cons, r.marked_reached now (by decide)]
    rfl
  unfold reachedCount marked
  rw [wallets_filter_report _ h hr]

/-- Who was asked for the upload is found by where it stands, so the mark does not matter. -/
theorem requestedUploader?_marked : ((l.marked now wallet).requestedUploader?).isSome =
    (l.requestedUploader?).isSome := by
  have hr := r.marked_lastRelevant? now
  unfold requestedUploader? marked
  rw [List.isSome_find?, List.isSome_find?, any_report _ h, any_eq h]
  show ((r.marked now).lastRelevant? == _ || _) = _
  rw [hr]

/-- A marked replicate is no candidate: if there is a candidate, it is another one. -/
theorem isEmpty_uploadCandidates_marked : (l.marked now wallet).uploadCandidates.isEmpty =
    !(l.others wallet).any (·.status == .revealed) := by
  unfold marked
  rw [isEmpty_uploadCandidates, any_report _ h]
  rfl

/-- The mark takes a wallet off the candidates, unless another replicate of it stays. -/
theorem uploaders_marked_iff : (∀ w, w ∈ (l.marked now wallet).uploaders ↔ w ∈ l.uploaders) ↔
    (r.status = .revealed →
      ∃ r' ∈ l.others wallet, r'.status = .revealed ∧ r'.wallet = wallet) := by
  have hwallet : r.wallet = wallet := (report_eq_append h).1
  have hmarked : ∀ w, w ∈ (l.marked now wallet).uploaders ↔
      ∃ r' ∈ l.others wallet, r'.status = .revealed ∧ r'.wallet = w := by
    intro w
    unfold marked
    rw [mem_uploaders, any_report _ h]
    show (false || _) = true ↔ _
    simp
  have hbefore : ∀ w, w ∈ l.uploaders ↔ (r.status = .revealed ∧ wallet = w) ∨
      ∃ r' ∈ l.others wallet, r'.status = .revealed ∧ r'.wallet = w := by
    intro w
    rw [mem_uploaders, any_eq h, hwallet]
    simp
  constructor
  · -- the wallet itself is the one that may drop out
    intro hsame hrevealed
    exact (hmarked wallet).1 ((hsame wallet).2 ((hbefore wallet).2 (.inl ⟨hrevealed, rfl⟩)))
  · intro hother w
    rw [hmarked, hbefore]
    refine ⟨.inr, fun hw => hw.elim ?_ id⟩
    rintro ⟨hrevealed, rfl⟩
    exact hother hrevealed

/-- Somebody uploaded if the one replicate did or one of the others. -/
theorem isSome_uploaded? : (l.uploaded?).isSome =
    (r.hasUploaded || (l.others wallet).any Replicate.hasUploaded) := by
  unfold uploaded?
  rw [List.isSome_find?, any_eq h]

/-- A marked replicate has not uploaded. -/
theorem uploaded?_marked : ((l.marked now wallet).uploaded?).isSome =
    (l.others wallet).any Replicate.hasUploaded := by
  have hr := r.marked_hasUploaded now
  unfold uploaded? marked
  rw [List.isSome_find?, any_report _ h]
  show ((r.marked now).hasUploaded || _) = _
  rw [hr, Bool.false_or]

/-- Where the uploader is the marked worker, the current status tells whether it uploads. -/
theorem isUploading_eq {t : Task} (huploader : t.uploader = some wallet) :
    isUploading t l = (r.status == .resultUploading) := by
  unfold isUploading
  rw [huploader, Option.bind_some, h, Option.any_some]

/-- The uploader is seen to upload, unless it is the marked one. -/
theorem isUploading_marked (t : Task) : isUploading t (l.marked now wallet) =
    (isUploading t l && t.uploader != some wallet) := by
  unfold isUploading marked
  cases t.uploader with
  | none => rfl
  | some w =>
    rw [Option.bind_some, Option.bind_some, find?_report _ h]
    by_cases hw : w = wallet
    · subst hw
      rw [if_pos rfl, bne_self_eq_false, Bool.and_false]
      rfl
    · rw [if_neg hw, bne_iff_ne.2 fun heq => hw (Option.some.inj heq), Bool.and_true]

end Mark

/-- What the task waits for does not depend on the current status of the replicate of a wallet:
there is another replicate to take its place. -/
def CanSpare (t : Task) (wallet : String) (r : Replicate) (l : ReplicateList) : Prop :=
  match t.status with
  | .revealing => r.status = .revealed →
      (l.requestedUploader?).isSome ∨ ∃ r' ∈ l.others wallet, r'.status = .revealed
  | .resultUploadRequested =>
      r.hasUploaded ∨ r.status = .resultUploading ∧ t.uploader = some wallet →
        ∃ r' ∈ l.others wallet, r'.hasUploaded
  | .resultUploading => r.hasUploaded → ∃ r' ∈ l.others wallet, r'.hasUploaded
  | _ => True

end ReplicateList

namespace Outlook

/-- The outlook once the replicate of a wallet is marked. -/
def marked (now : Instant) (wallet : String) (o : Outlook) : Outlook :=
  { o with list := o.list.map (·.marked now wallet) }

/-- The list that an update reads is the marked one. -/
theorem listOf_marked {o : Outlook} {l : ReplicateList} (now : Instant) (wallet : String)
    (hl : o.list = some l) (t : Task) :
    o.listOf t = l ∧ (o.marked now wallet).listOf t = l.marked now wallet := by
  unfold listOf marked
  rw [hl]
  exact ⟨rfl, rfl⟩

variable {o : Outlook} {l : ReplicateList} {wallet : String} {r : Replicate} (now : Instant)
  (hl : o.list = some l) (h : l.find? wallet = some r)

include hl h

/-- The consensus counts standings, so it looks past the mark. -/
theorem hasConsensus_marked (t : Task) :
    (o.marked now wallet).hasConsensus t = o.hasConsensus t := by
  obtain ⟨hlist, hlist'⟩ := listOf_marked now wallet hl t
  unfold hasConsensus
  rw [hlist, hlist']
  show o.chainTask.any _ = _
  congr 1
  funext c
  exact ReplicateList.agreesWith_marked now h c

/-- With the mark, an uploader is one that was asked before or one of the others that revealed. -/
theorem isSome_uploader?_marked (t : Task) : ((o.marked now wallet).uploader? t).isSome =
    ((l.requestedUploader?).isSome || (l.others wallet).any (·.status == .revealed)) := by
  obtain ⟨-, hlist'⟩ := listOf_marked now wallet hl t
  rw [isSome_uploader?, hlist', ReplicateList.requestedUploader?_marked now h,
    ReplicateList.isEmpty_uploadCandidates_marked now h, Bool.not_not]

/-- A mark leaves the next move as it is exactly where the task is past its final deadline anyway,
or can spare the marked replicate. -/
theorem next_marked_iff (t : Task) : (o.marked now wallet).next t = o.next t ↔
    o.isOverdue t ∨ l.CanSpare t wallet r := by
  obtain ⟨hlist, hlist'⟩ := listOf_marked now wallet hl t
  have hconsensus := hasConsensus_marked now hl h t
  have hchain : (o.marked now wallet).isKnown = o.isKnown ∧
      (o.marked now wallet).isCompleted = o.isCompleted ∧
      (o.marked now wallet).isOverdue t = o.isOverdue t := ⟨rfl, rfl, rfl⟩
  by_cases hover : o.isOverdue t = true
  · -- an overdue task fails, whoever is marked
    have hfails : ∀ o' : Outlook, o'.isOverdue t = true → o'.next t = some .failed := by
      intro o' ho'
      unfold next
      rw [if_pos ho']
    have hover' : (o.marked now wallet).isOverdue t = true := hover
    rw [hfails o hover, hfails _ hover']
    exact iff_of_true rfl (.inl hover)
  · rw [or_iff_right hover]
    unfold next ReplicateList.CanSpare
    rw [if_neg hover, hchain.2.2, if_neg hover, hlist, hlist', hchain.1, hchain.2.1, hconsensus]
    -- three statuses ask for the current status of a replicate
    cases t.status with
    | revealing =>
      have hothers : (l.others wallet).any (·.status == .revealed) = true ↔
          ∃ r' ∈ l.others wallet, r'.status = .revealed := by simp
      dsimp only
      rw [isSome_uploader?_marked now hl h, isSome_uploader?, hlist,
        ReplicateList.isEmpty_uploadCandidates, ReplicateList.any_eq h, Bool.not_not, ← hothers,
        ← beq_iff_eq (a := r.status)]
      cases (l.requestedUploader?).isSome <;> cases r.status == .revealed <;>
        cases (l.others wallet).any (·.status == .revealed) <;> decide
    | resultUploadRequested =>
      dsimp only
      rw [ReplicateList.uploaded?_marked now h, ReplicateList.isSome_uploaded? h,
        ReplicateList.isUploading_marked now h, ← List.any_eq_true]
      by_cases huploader : t.uploader = some wallet
      · -- the uploader is the marked replicate, and is not seen to upload any more
        rw [ReplicateList.isUploading_eq h huploader, bne_eq_false_iff_eq.2 huploader,
          and_iff_left huploader, ← beq_iff_eq (a := r.status)]
        cases r.hasUploaded <;> cases r.status == .resultUploading <;>
          cases (l.others wallet).any Replicate.hasUploaded <;> decide
      · rw [bne_iff_ne.2 huploader, Bool.and_true, or_iff_left fun hr => huploader hr.2]
        cases r.hasUploaded <;> cases isUploading t l <;>
          cases (l.others wallet).any Replicate.hasUploaded <;> decide
    | resultUploading =>
      dsimp only
      rw [ReplicateList.uploaded?_marked now h, ReplicateList.isSome_uploaded? h,
        ← List.any_eq_true]
      cases r.hasUploaded <;> cases (l.others wallet).any Replicate.hasUploaded <;> decide
    | consensusReached =>
      dsimp only
      rw [ReplicateList.reachedCount_marked now h]
      exact iff_of_true rfl trivial
    | initialized =>
      dsimp only
      rw [ReplicateList.isStarted_marked now h]
      exact iff_of_true rfl trivial
    | _ => exact iff_of_true rfl trivial

end Outlook

namespace Pool

/-- The wallets that can be chosen to upload the result of a task. -/
def uploaders (id : String) (p : Pool) : List String :=
  ((p.store.list? id).map (·.uploaders)).getD []

/-- The pool once recovery marked the replicate of a wallet. -/
def marked (id wallet : String) (p : Pool) : Pool := (p.attempt (mark id wallet .recovering none)).2

variable {p : Pool} {id wallet : String} {t : Task} {l : ReplicateList} {r : Replicate}

/-- The mark is appended to one list, and the tasks stay as they are. -/
theorem store_marked (wallet : String) (hl : p.store.list? id = some l) :
    (p.marked id wallet).store.tasks = p.store.tasks ∧
      (p.marked id wallet).store.list? id = some (l.marked p.now wallet) := by
  refine ⟨p.store.tasks_updateReplicate id wallet _, ?_⟩
  have hlist := p.store.list?_updateReplicate id wallet (.byPool p.now .recovering none) id
  rw [if_pos rfl, hl, Option.map_some] at hlist
  exact hlist

/-- Exactly when the mark of recovery on a replicate has no influence on its task. The wallets that
can be chosen as uploader stay the same unless the replicate was revealed, and the only one of its
wallet that was; and the next update moves the task as without the mark if the task is overdue or
can spare the replicate. -/
theorem mark_harmless_iff (hk : p.store.Keyed) (ht : p.store.task? id = some t)
    (hl : p.store.list? id = some l) (hr : l.find? wallet = some r) :
    ((∀ w, w ∈ (p.marked id wallet).uploaders id ↔ w ∈ p.uploaders id) ↔
      (r.status = .revealed →
        ∃ r' ∈ l.others wallet, r'.status = .revealed ∧ r'.wallet = wallet)) ∧
    ((p.marked id wallet).nextStatus? id = p.nextStatus? id ↔
      t.status.isTerminal = false ∧ t.finalDeadlineReached p.now ∨ l.CanSpare t wallet r) := by
  obtain ⟨htasks, hl'⟩ := store_marked wallet hl
  refine ⟨?_, ?_⟩
  · unfold uploaders
    rw [hl, hl']
    exact ReplicateList.uploaders_marked_iff p.now hr
  · have hk' : (p.marked id wallet).store.Keyed := hk.step (.updateReplicate id wallet _)
    have ht' : (p.marked id wallet).store.task? id = some t := by
      unfold Store.task?
      rw [htasks]
      exact ht
    have houtlook : (p.marked id wallet).outlook id = (p.outlook id).marked p.now wallet := by
      unfold outlook Outlook.marked
      rw [hl, hl']
      rfl
    rw [nextStatus?_eq hk ht, nextStatus?_eq hk' ht', houtlook,
      Outlook.next_marked_iff p.now hl hr t]
    unfold Outlook.isOverdue
    rw [Bool.and_eq_true, Bool.not_eq_true']
    rfl

/-- A second replicate that only joined may be marked: the first one is still the candidate, and the
same move is due. -/
theorem mark_harmless_created :
    let p := revealing.after [.addReplicate ⟨"0x1", 2, []⟩ "0xb"]
    (∀ w, w ∈ (p.marked "0x1" "0xb").uploaders "0x1" ↔ w ∈ p.uploaders "0x1") ∧
      (p.marked "0x1" "0xb").nextStatus? "0x1" = p.nextStatus? "0x1" ∧
      p.nextStatus? "0x1" = some .resultUploadRequested := by
  intro p
  have hp : p.Reachable := reachable_revealing.after _
  obtain ⟨huploaders, hnext⟩ := mark_harmless_iff (p := p) hp.wellKept.keyed
    (show p.store.task? "0x1" = some _ from rfl) (show p.store.list? "0x1" = some _ from rfl)
    (show ReplicateList.find? "0xb" _ = some _ from rfl)
  refine ⟨huploaders.2 fun hr => ?_, hnext.2 (.inr fun hr => ?_), by decide⟩
  · exact absurd hr (by decide)
  · exact absurd hr (by decide)

/-- A task that waits for an uploader stays where it is once its only revealed replicate is
marked. -/
theorem mark_hides_revealed : revealing.Reachable ∧
    (revealing.store.replicate? "0x1" "0xa").any (fun r => !r.history.isEmpty) ∧
    revealing.nextStatus? "0x1" = some .resultUploadRequested ∧
    (revealing.marked "0x1" "0xa").nextStatus? "0x1" = none ∧
    revealing.uploaders "0x1" = ["0xa"] ∧ (revealing.marked "0x1" "0xa").uploaders "0x1" = [] :=
  ⟨reachable_revealing, by decide, by decide, by decide, by decide, by decide⟩

end Pool

end ComputePool
