import ComputePool.Proofs.Honest.Stages

/-!
# How a task stands at a stage

What a stage of an honest run says of its task (`Venture.Stands`) reads nothing but the task and its
outlook; what it says of the workers (`Venture.Works`) reads the list alone. While the stage lasts,
every move of the task that is due is the next one of the stage (`Stands.next_eq`), and the stage
goes on after it (`Stands.moved`), as it does after a report (`Stands.report`) and when somebody
joins (`Stands.plus`). Where no move is due the stage is over, unless something outside is waited
for (`Stands.settled`).
-/

namespace ComputePool

/-! ## What a stage says -/

namespace Venture

variable (k : Venture)

/-- What the chain says of the task. While it reveals, it has the consensus of the venture, and
counts all of the crew. -/
structure OnChain (s : Stage) (c : ChainTask) : Prop where
  status : c.status = s.chainStatus
  winners : c.status = .revealing → c.winnerCounter.toNat = k.crew.length
  value : c.status = .revealing → c.consensusValue = k.hash
  block : c.status = .revealing → c.revealingBlock = k.block

/-- The task has the consensus of the venture. -/
def Agreed (t : Task) : Prop := t.consensus = some k.hash ∧ t.consensusBlock = k.block

/-- The wallet, and nobody else, was asked to upload the result of the task. -/
structure Asked (t : Task) (l : ReplicateList) (wallet : String) : Prop where
  uploader : t.uploader = some wallet
  member : ∃ r ∈ l.replicates, r.wallet = wallet
  iff : ∀ r ∈ l.replicates, .resultUploadRequested ≤ r.status ↔ r.wallet = wallet

/-- How far the workers of a task are at a stage. -/
structure Works (s : Stage) (t : Task) (l : ReplicateList) : Prop where
  asked : .resultUploadRequested ≤ t.status → ∃ wallet, Asked t l wallet
  unasked : t.status < .resultUploadRequested →
    ∀ r ∈ l.replicates, r.status < .resultUploadRequested
  honest : ∀ r ∈ l.replicates, k.Honest r
  standing : ∀ r ∈ l.replicates, r.status ∈ s.standings
  full : s.isFull = true → l.replicates.length = k.crew.length
  someone : s = .revealed → ∃ r ∈ l.replicates, .revealed ≤ r.status

/-- How a task stands at a stage. -/
structure Stands (s : Stage) (o : Outlook) (t : Task) : Prop extends
    Works k s t (o.listOf t) where
  chain : ∃ c, o.chainTask = some c ∧ k.OnChain s c
  early : t.finalDeadlineReached o.now = false
  open_early : s.isOpen = true → t.contributionDeadlineReached o.now = false
  status : t.status ∈ s.statuses
  plain : t.tee = false
  ready : .initialized ≤ t.status → o.list.isSome = true ∧ t.hasEnclaveChallenge = true
  agreed : .consensusReached ≤ t.status → k.Agreed t

variable {k} {s : Stage} {o : Outlook} {t : Task}

/-! ### The workers -/

namespace Works

variable {l : ReplicateList}

/-- The stage changes, and the workers do not. -/
theorem become (h : k.Works s t l) {s' : Stage}
    (hstanding : ∀ r ∈ l.replicates, r.status ∈ s'.standings)
    (hfull : s'.isFull = true → l.replicates.length = k.crew.length)
    (hsomeone : s' ≠ .revealed) : k.Works s' t l :=
  ⟨h.asked, h.unasked, h.honest, hstanding, hfull, fun hs => absurd hs hsomeone⟩

/-- The task moves, and nobody is newly asked for the result. -/
theorem moved (h : k.Works s t l) {t' : Task} (huploader : t'.uploader = t.uploader)
    (hlt : t.status < t'.status)
    (hrequested : .resultUploadRequested ≤ t'.status → .resultUploadRequested ≤ t.status) :
    k.Works s t' l := by
  refine ⟨?_, ?_, h.honest, h.standing, h.full, h.someone⟩
  · intro hle
    obtain ⟨wallet, hasked⟩ := h.asked (hrequested hle)
    exact ⟨wallet, huploader.trans hasked.uploader, hasked.member, hasked.iff⟩
  · intro hlt'
    exact h.unasked (Nat.lt_trans hlt hlt')

/-- Somebody who revealed is asked for the result. -/
theorem requested (h : k.Works .revealed t l) (hnodup : l.wallets.Nodup)
    (ht : t.status < .resultUploadRequested) {r : Replicate} (hr : r ∈ l.replicates)
    (hrevealed : r.status = .revealed) {t' : Task} (huploader : t'.uploader = some r.wallet)
    (ht' : t'.status = .resultUploadRequested) {u : StatusUpdate}
    (hu : u.status = .resultUploadRequested) : k.Works .revealed t' (l.report r.wallet u) := by
  have hunasked := h.unasked ht
  have hfind := ReplicateList.find?_of_mem hnodup hr
  have hmem := ReplicateList.mem_report_of_find? hnodup hfind u
  have hall : ∀ {P : Replicate → Prop}, P (r.updateStatus u) →
      (∀ r' ∈ l.replicates, r'.wallet ≠ r.wallet → P r') →
      ∀ r' ∈ (l.report r.wallet u).replicates, P r' := fun hself hothers =>
    ReplicateList.forall_report hnodup hfind hself hothers
  refine ⟨fun _ => ⟨r.wallet, huploader, ⟨_, hmem, rfl⟩, ?_⟩, ?_, ?_, ?_, fun _ => ?_, fun _ => ?_⟩
  · refine hall (iff_of_true (Nat.le_of_eq (congrArg _ hu.symm)) rfl) ?_
    intro r' hr' hother
    exact iff_of_false (Nat.not_le.2 (hunasked r' hr')) hother
  · intro hlt
    rw [ht'] at hlt
    exact absurd hlt (Nat.lt_irrefl _)
  · refine hall ((h.honest r hr).updateStatus ?_ ?_ ?_ ?_) fun r' hr' _ => h.honest r' hr'
    · rw [hu]
      exact hunasked r hr
    · rw [hu]
      decide
    · exact fun _ => .inr (Nat.le_of_eq (congrArg _ hrevealed.symm))
    · rw [hu]
      exact fun hle => absurd hle (by decide)
  · refine hall ?_ fun r' hr' _ => h.standing r' hr'
    show u.status ∈ _
    rw [hu]
    decide
  · rw [ReplicateList.replicates_report hnodup, List.length_map]
    exact h.full rfl
  · refine ⟨_, hmem, ?_⟩
    show .revealed ≤ u.status
    rw [hu]
    decide

/-- A worker makes a report of the stage, which may be the one that ends it. -/
theorem report (h : k.Works s t l) (hnodup : l.wallets.Nodup) {wallet : String} {r : Replicate}
    {u : StatusUpdate} (hfind : l.find? wallet = some r)
    (hreport : (r.status, u.status) ∈ s.reports)
    (hhash : s = .contributing →
      u.resultHash? = if u.status = .contributed then some k.hash else none) :
    k.Works (s.afterReport u.status) t (l.report wallet u) := by
  obtain ⟨hlt, hactive, honward, hearly, hasked, hstanding, hothers, hrevealed⟩ :=
    Stage.of_mem_reports hreport
  obtain ⟨-, -, hfull, -⟩ := Stage.afterReport_eq (s := s) (b := u.status)
  have hr : r ∈ l.replicates := List.mem_of_find?_eq_some hfind
  have hwallet : r.wallet = wallet := by simpa using List.find?_some hfind
  have hmem := ReplicateList.mem_report_of_find? hnodup hfind u
  have hall : ∀ {P : Replicate → Prop}, P (r.updateStatus u) →
      (∀ r' ∈ l.replicates, r'.wallet ≠ wallet → P r') →
      ∀ r' ∈ (l.report wallet u).replicates, P r' := fun hself hothers =>
    ReplicateList.forall_report hnodup hfind hself hothers
  refine ⟨fun hle => ?_, fun hlt' => ?_, ?_, ?_, fun hs => ?_, fun hs => ?_⟩
  · obtain ⟨uploader, huploader⟩ := h.asked hle
    refine ⟨uploader, huploader.uploader, ?_, ?_⟩
    · obtain ⟨r₀, hr₀, hsame⟩ := huploader.member
      refine ⟨_, (ReplicateList.mem_report hnodup).2 ⟨r₀, hr₀, rfl⟩, ?_⟩
      split <;> exact hsame
    · exact hall (hasked.symm.trans (huploader.iff r hr)) fun r' hr' _ => huploader.iff r' hr'
  · refine hall ?_ fun r' hr' _ => h.unasked hlt' r' hr'
    exact Nat.not_le.1 fun hle => Nat.not_le.2 (h.unasked hlt' r hr) (hasked.2 hle)
  · exact hall ((h.honest r hr).updateStatus hlt hactive honward fun hle => hhash (hearly hle))
      fun r' hr' _ => h.honest r' hr'
  · refine hall hstanding ?_
    intro r' hr' hother
    rcases hothers r'.status (h.standing r' hr') with hstays | ⟨hle', hle⟩
    · exact hstays
    · -- only one is asked for the result, and it is the one that reports
      have hle := hasked.2 hle
      have ht : .resultUploadRequested ≤ t.status :=
        Nat.not_lt.1 fun hlt' => Nat.not_le.2 (h.unasked hlt' r hr) hle
      obtain ⟨uploader, huploader⟩ := h.asked ht
      have hsame := ((huploader.iff r' hr').1 hle').trans ((huploader.iff r hr).1 hle).symm
      exact absurd (hsame.trans hwallet) hother
  · rw [ReplicateList.replicates_report hnodup, List.length_map]
    exact h.full (hfull ▸ hs)
  · rcases hrevealed hs with hs | hle
    · obtain ⟨r₀, hr₀, hle⟩ := h.someone hs
      by_cases hsame : r₀.wallet = wallet
      · have hfind₀ := ReplicateList.find?_of_mem hnodup hr₀
        rw [hsame, hfind] at hfind₀
        obtain rfl := Option.some.inj hfind₀
        exact ⟨_, hmem, Nat.le_trans hle (Nat.le_of_lt hlt)⟩
      · exact ⟨r₀, (ReplicateList.mem_report hnodup).2 ⟨r₀, hr₀, if_neg hsame⟩, hle⟩
    · exact ⟨_, hmem, hle⟩

/-- A newcomer has not begun. -/
theorem plus (h : k.Works .contributing t l) (ht : t.status < .resultUploadRequested)
    (now : Instant) (wallet id : String) : k.Works .contributing t (l.plus now wallet id) := by
  have hall : ∀ {P : Replicate → Prop}, (∀ r ∈ l.replicates, P r) → P (.fresh now wallet id) →
      ∀ r ∈ (l.plus now wallet id).replicates, P r := by
    intro P hold hnew r hr
    rcases List.mem_append.1 hr with hr | hr
    · exact hold r hr
    · exact List.mem_singleton.1 hr ▸ hnew
  refine ⟨fun hle => absurd hle (Nat.not_le.2 ht), fun _ => hall (h.unasked ht) ?_,
    hall h.honest (.fresh k now wallet id), hall h.standing ?_, ?_, ?_⟩
  · exact (by decide : ReplicateStatus.created < .resultUploadRequested)
  · exact (by decide : ReplicateStatus.created ∈ Stage.contributing.standings)
  · exact fun hfull => absurd hfull (by decide)
  · exact fun hs => absurd hs (by decide)

end Works

/-! ### The moves that are due -/

namespace Stands

/-- In an honest run the final deadline is still to come. -/
theorem not_isOverdue (h : k.Stands s o t) : o.isOverdue t = false := by
  unfold Outlook.isOverdue
  rw [h.early, Bool.and_false]

theorem isKnown (h : k.Stands s o t) : o.isKnown = true := by
  obtain ⟨c, hc, hchain⟩ := h.chain
  unfold Outlook.isKnown
  rw [hc, Option.any_some, hchain.status]
  cases s <;> rfl

theorem isCompleted (h : k.Stands s o t) : o.isCompleted = (s.chainStatus == .completed) := by
  obtain ⟨c, hc, hchain⟩ := h.chain
  unfold Outlook.isCompleted
  rw [hc, Option.any_some, hchain.status]

/-- The pool sees a consensus once the chain does and all of the crew contributed. -/
theorem hasConsensus (h : k.Stands s o t) (hopen : s.isOpen = true) :
    o.hasConsensus t = (s == .agreed) := by
  obtain ⟨c, hc, hchain⟩ := h.chain
  unfold Outlook.hasConsensus ReplicateList.agreesWith
  rw [hc, Option.any_some]
  cases s with
  | opening => rw [hchain.status]; rfl
  | contributing => rw [hchain.status]; rfl
  | agreed =>
    have hall : ∀ r ∈ (o.listOf t).replicates, k.Honest r ∧ r.status = .contributed :=
      fun r hr => ⟨h.honest r hr, List.mem_singleton.1 (h.standing r hr)⟩
    rw [hchain.winners hchain.status, hchain.value hchain.status, hchain.status,
      ReplicateList.winnerCount_eq_length hall, h.full rfl, decide_eq_true (Nat.le_refl _)]
    rfl
  | _ => exact absurd hopen (by decide)

/-- Nobody has revealed. -/
theorem reachedCount_eq_zero (h : k.Stands s o t) (hs : ∀ a ∈ s.standings, a < .revealed) :
    (o.listOf t).reachedCount [.revealed] = 0 :=
  ReplicateList.reachedCount_eq_zero fun r hr =>
    (h.honest r hr).not_reached (hs r.status (h.standing r hr))

/-- Somebody revealed, and was not asked for more yet. -/
theorem exists_revealed (h : k.Stands .revealed o t) (ht : t.status < .resultUploadRequested) :
    ∃ r ∈ (o.listOf t).replicates, r.status = .revealed := by
  obtain ⟨r, hr, hle⟩ := h.someone rfl
  have hlt := h.unasked ht r hr
  refine ⟨r, hr, ?_⟩
  revert hle hlt
  cases r.status <;> decide

/-- The replicate of who was asked for the upload. -/
theorem exists_uploader (h : k.Stands s o t) (ht : .resultUploadRequested ≤ t.status) :
    ∃ wallet r, t.uploader = some wallet ∧ (o.listOf t).find? wallet = some r ∧
      r ∈ (o.listOf t).replicates ∧ .resultUploadRequested ≤ r.status := by
  obtain ⟨wallet, hasked⟩ := h.asked ht
  obtain ⟨r₀, hr₀, hwallet⟩ := hasked.member
  obtain ⟨r, hr⟩ := Option.isSome_iff_exists.1
    (ReplicateList.hasWorker_iff.2 (List.mem_map.2 ⟨r₀, hr₀, hwallet⟩))
  have hmem := List.mem_of_find?_eq_some hr
  have hr' : r.wallet = wallet := by simpa using List.find?_some hr
  exact ⟨wallet, r, hasked.uploader, hr, hmem, (hasked.iff r hmem).2 hr'⟩

/-- Somebody uploaded just from the stage on at which replicates may have. -/
theorem isSome_uploaded? (h : k.Stands s o t) (ht : .resultUploadRequested ≤ t.status) :
    (o.listOf t).uploaded?.isSome = s.standings.contains .resultUploaded := by
  cases hs : s.standings.contains .resultUploaded with
  | true =>
    obtain ⟨wallet, r, -, -, hr, hle⟩ := h.exists_uploader ht
    refine ReplicateList.isSome_uploaded?_of_mem hr ?_
    have hstanding := h.standing r hr
    revert hle hstanding
    cases s with
    | delivered | uploaded | paid | closed => cases r.status <;> decide
    | _ => exact absurd hs (by decide)
  | false =>
    rw [ReplicateList.uploaded?_eq_none fun r hr => ⟨h.honest r hr, fun hstatus => ?_⟩]
    · rfl
    · have hstanding := List.contains_iff_mem.2 (h.standing r hr)
      rw [hstatus, hs] at hstanding
      exact absurd hstanding Bool.false_ne_true

/-- Who was asked only now does not upload yet. -/
theorem not_isUploading (h : k.Stands .revealed o t) (ht : .resultUploadRequested ≤ t.status) :
    isUploading t (o.listOf t) = false := by
  obtain ⟨wallet, r, huploader, hfind, hr, hle⟩ := h.exists_uploader ht
  have hstanding := h.standing r hr
  unfold isUploading
  rw [huploader, Option.bind_some, hfind, Option.any_some]
  revert hle hstanding
  cases r.status <;> decide

/-- Every move that is due is the next one of the stage; and at most somebody outside is waited
for. -/
theorem next_eq (h : k.Stands s o t) :
    o.next t = s.moves.lookup t.status ∨ s.isWaiting = true ∧ o.next t = none := by
  have hstatus := h.status
  have hcompleted := h.isCompleted
  unfold Outlook.next
  rw [h.not_isOverdue, if_neg Bool.false_ne_true]
  cases ht : t.status <;> rw [ht] at hstatus <;> dsimp only
  case received =>
    rw [if_pos h.isKnown]
    cases s with
    | opening => exact .inl rfl
    | _ => exact absurd hstatus (by decide)
  case initializing =>
    rw [if_pos h.isKnown]
    cases s with
    | opening => exact .inl rfl
    | _ => exact absurd hstatus (by decide)
  case initialized =>
    cases s with
    | opening =>
      have hempty : (o.listOf t).isStarted = false :=
        List.any_eq_false.2 fun r hr => absurd (h.standing r hr) List.not_mem_nil
      rw [h.hasConsensus rfl, h.open_early rfl, hempty]
      exact .inl rfl
    | contributing =>
      rw [h.hasConsensus rfl, h.open_early rfl]
      -- the task waits for the first to begin
      cases (o.listOf t).isStarted with
      | true => exact .inl rfl
      | false => exact .inr ⟨rfl, rfl⟩
    | agreed => rw [h.hasConsensus rfl]; exact .inl rfl
    | _ => exact absurd hstatus (by decide)
  case running =>
    cases s with
    | contributing => rw [h.hasConsensus rfl, h.open_early rfl]; exact .inl rfl
    | agreed => rw [h.hasConsensus rfl]; exact .inl rfl
    | _ => exact absurd hstatus (by decide)
  case consensusReached =>
    cases s with
    | agreed => rw [h.reachedCount_eq_zero (by decide)]; exact .inl rfl
    | revealing => rw [h.reachedCount_eq_zero (by decide)]; exact .inl rfl
    | revealed =>
      obtain ⟨r, hr, hrevealed⟩ := h.exists_revealed (ht ▸ by decide)
      have hreached := (h.honest r hr).reached
      rw [hrevealed] at hreached
      rw [if_neg (ReplicateList.reachedCount_ne_zero hr hreached)]
      exact .inl rfl
    | _ => exact absurd hstatus (by decide)
  case revealing =>
    cases s with
    | revealed =>
      obtain ⟨r, hr, hrevealed⟩ := h.exists_revealed (ht ▸ by decide)
      have hcandidate : (o.listOf t).uploadCandidates.isEmpty = false :=
        List.isEmpty_eq_false_iff.2
          (List.ne_nil_of_mem (List.mem_filter.2 ⟨hr, beq_iff_eq.2 hrevealed⟩))
      rw [o.isSome_uploader?, hcandidate, Bool.not_false, Bool.or_true]
      exact .inl rfl
    | _ => exact absurd hstatus (by decide)
  case resultUploadRequested =>
    have hle : TaskStatus.resultUploadRequested ≤ t.status := by rw [ht]; decide
    rw [h.isSome_uploaded? hle]
    cases s with
    | revealed => rw [h.not_isUploading hle]; exact .inl rfl
    | uploading =>
      -- the task waits for the worker to begin the upload
      cases isUploading t (o.listOf t) with
      | true => exact .inl rfl
      | false => exact .inr ⟨rfl, rfl⟩
    | delivered => exact .inl rfl
    | _ => exact absurd hstatus (by decide)
  case resultUploading =>
    rw [h.isSome_uploaded? (ht ▸ by decide)]
    cases s with
    | uploading | delivered => exact .inl rfl
    | _ => exact absurd hstatus (by decide)
  case resultUploaded =>
    rw [hcompleted]
    cases s with
    | delivered | uploaded | paid => exact .inl rfl
    | _ => exact absurd hstatus (by decide)
  case finalizing =>
    rw [hcompleted]
    cases s with
    | paid => exact .inl rfl
    | _ => exact absurd hstatus (by decide)
  case finalized =>
    rw [hcompleted]
    cases s with
    | paid => exact .inl rfl
    | _ => exact absurd hstatus (by decide)
  case completed => cases s <;> exact .inl rfl
  case contributionTimeout => cases s <;> exact absurd hstatus (by decide)
  case failed => cases s <;> exact absurd hstatus (by decide)

/-- Time passes, and no deadline that matters. -/
theorem waits (h : k.Stands s o t) {now : Instant} (hearly : t.finalDeadlineReached now = false)
    (hopen : s.isOpen = true → t.contributionDeadlineReached now = false) :
    k.Stands s { o with now } t := { h with early := hearly, open_early := hopen }

/-- A stage that waits for nobody is over once no move is due. -/
theorem settled (h : k.Stands s o t) (hdue : o.next t = none) :
    t.status ∈ s.afterRound.statuses := by
  have hstatus := h.status
  have honward : s.isWaiting = true ∨ s.moves.lookup t.status = none :=
    h.next_eq.elim (fun heq => .inr (heq.symm.trans hdue)) fun hwaits => .inl hwaits.1
  revert hstatus honward
  cases s <;> cases t.status <;> decide

/-- The stage changes with the chain, or because it is over. -/
theorem become (h : k.Stands s o t) {s' : Stage} {o' : Outlook} (hnow : o'.now = o.now)
    (hlist : o'.list = o.list) (hchain : ∃ c, o'.chainTask = some c ∧ k.OnChain s' c)
    (hopen : s'.isOpen = true → s.isOpen = true) (hstatus : t.status ∈ s'.statuses)
    (hworks : k.Works s' t (o.listOf t)) : k.Stands s' o' t := by
  have hlistOf : o'.listOf t = o.listOf t := by
    unfold Outlook.listOf
    rw [hlist]
  refine ⟨hlistOf ▸ hworks, hchain, hnow ▸ h.early, ?_, hstatus, h.plain, ?_, h.agreed⟩
  · intro hs
    rw [hnow]
    exact h.open_early (hopen hs)
  · rw [hlist]
    exact h.ready

/-- After a round the next stage begins. -/
theorem afterRound (h : k.Stands s o t) (hdue : o.next t = none) :
    k.Stands s.afterRound o t := by
  obtain ⟨c, hc, hchain⟩ := h.chain
  by_cases hsame : s.afterRound = s
  · rw [hsame]
    exact h
  have hchain' : s.afterRound.chainStatus = s.chainStatus := by
    cases s <;> rfl
  refine h.become rfl rfl ⟨c, hc, hchain.status.trans hchain'.symm, hchain.winners, hchain.value,
    hchain.block⟩ ?_ (h.settled hdue) (h.toWorks.become ?_ (fun hfull => h.full ?_) ?_)
  · cases s <;> decide
  · intro r hr
    have hstanding := h.standing r hr
    revert hstanding
    cases s <;> cases r.status <;> decide
  · revert hfull hsame
    cases s <;> decide
  · cases s with
    | opening | agreed | revealed | delivered | paid => decide
    -- the other stages go on only with what is done outside
    | contributing | revealing | uploading | uploaded | closed => exact absurd rfl hsame

/-- A move that is due is one of the stage. -/
theorem mem_moves (h : k.Stands s o t) {status : TaskStatus} (hdue : o.next t = some status) :
    (t.status, status) ∈ s.moves := by
  rcases h.next_eq with heq | ⟨-, hnone⟩
  · obtain ⟨before, after, hmoves, -⟩ := List.lookup_eq_some_iff.1 (heq.symm.trans hdue)
    rw [hmoves]
    exact List.mem_append_right _ List.mem_cons_self
  · exact absurd (hnone.symm.trans hdue) (by simp)

/-! ### Moves -/

/-- The deadlines of a task stay the same. -/
theorem deadlines_moved (o : Outlook) (status : TaskStatus) (t : Task) (now : Instant) :
    (o.moved status t).saved.finalDeadlineReached now = t.finalDeadlineReached now ∧
      (o.moved status t).saved.contributionDeadlineReached now =
        t.contributionDeadlineReached now := by
  obtain ⟨-, -, hcontribution, hfinal⟩ := o.moved_terms status t
  refine ⟨?_, ?_⟩
  · show decide ((o.moved status t).finalDeadline ≤ now) = _
    rw [hfinal]
    rfl
  · show decide ((o.moved status t).contributionDeadline ≤ now) = _
    rw [hcontribution]
    rfl

/-- A move of the stage, apart from the request for the upload, leaves the list as it is. -/
theorem listOf_moved {status : TaskStatus} (hrequest : status ≠ .resultUploadRequested)
    {o' : Outlook} (hlist : o'.list = o.listAfter status t) :
    o'.listOf (o.moved status t).saved = o.listOf t := by
  have hid : (o.moved status t).saved.chainTaskId = t.chainTaskId := o.moved_chainTaskId status t
  unfold Outlook.listOf
  rw [hlist, hid]
  unfold Outlook.listAfter
  cases status with
  | initialized => rfl
  | resultUploadRequested => exact absurd rfl hrequest
  | _ => rfl

/-- The request for the upload goes to somebody who revealed. -/
theorem exists_requested (h : k.Stands s o t)
    (hdue : o.next t = some .resultUploadRequested) :
    s = .revealed ∧ t.status = .revealing ∧
      ∃ r ∈ (o.listOf t).replicates, r.status = .revealed ∧
      (o.moved .resultUploadRequested t).uploader = some r.wallet ∧
      o.listAfter .resultUploadRequested t = some ((o.listOf t).report r.wallet o.request) := by
  have hmem := h.mem_moves hdue
  obtain rfl : s = .revealed := by
    revert hmem
    cases s <;> cases t.status <;> decide
  have ht : t.status = .revealing := by
    revert hmem
    cases t.status <;> decide
  have hunasked := h.unasked (ht ▸ by decide)
  have hrequested : (o.listOf t).requestedUploader? = none :=
    ReplicateList.requestedUploader?_eq_none fun r hr =>
      ⟨h.honest r hr, fun heq => Nat.lt_irrefl _ (heq ▸ hunasked r hr)⟩
  obtain ⟨r₀, hr₀, hrevealed⟩ := h.exists_revealed (ht ▸ by decide)
  have hcandidates : r₀ ∈ (o.listOf t).uploadCandidates :=
    List.mem_filter.2 ⟨hr₀, beq_iff_eq.2 hrevealed⟩
  have hsome := o.isSome_candidate? t
  rw [List.isEmpty_eq_false_iff.2 (List.ne_nil_of_mem hcandidates)] at hsome
  obtain ⟨r, hr⟩ := Option.isSome_iff_exists.1 hsome
  obtain ⟨hmem, hstatus⟩ := List.mem_filter.1 (List.mem_of_getElem? hr)
  have hasked : o.asked? t = some r.wallet := by
    unfold Outlook.asked?
    rw [hrequested, hr]
    rfl
  obtain ⟨l, hl⟩ := Option.isSome_iff_exists.1 (h.ready (ht ▸ by decide)).1
  refine ⟨rfl, ht, r, hmem, beq_iff_eq.1 hstatus, ?_, ?_⟩
  · show o.uploader? t = some r.wallet
    unfold Outlook.uploader?
    rw [hrequested, hasked]
    rfl
  · unfold Outlook.listAfter Outlook.listOf
    dsimp only
    rw [hasked, hl]
    rfl

/-- What a move keeps in any case. -/
theorem moved_of_works (h : k.Stands s o t) {status : TaskStatus} (hdue : o.next t = some status)
    {o' : Outlook} (hnow : o'.now = o.now) (hchain : o'.chainTask = o.chainTask)
    (hlist : o'.list = o.listAfter status t)
    (hworks : k.Works s (o.moved status t).saved (o'.listOf (o.moved status t).saved)) :
    k.Stands s o' (o.moved status t).saved := by
  obtain ⟨hstatus, hlt, hinitialized, hconsensus, -⟩ := Stage.of_mem_moves (h.mem_moves hdue)
  obtain ⟨-, htee, -, -⟩ := o.moved_terms status t
  obtain ⟨hfinal, hcontribution⟩ := deadlines_moved o status t o.now
  refine ⟨hworks, ?_, ?_, ?_, hstatus, htee.trans h.plain, ?_, ?_⟩
  · rw [hchain]
    exact h.chain
  · rw [hnow, hfinal]
    exact h.early
  · rw [hnow, hcontribution]
    exact h.open_early
  · intro hle
    rw [hlist]
    rcases hinitialized hle with hle | rfl
    · obtain ⟨hsome, hchallenge⟩ := h.ready hle
      exact ⟨o.isSome_listAfter (.inl hsome), o.hasEnclaveChallenge_moved (.inl hchallenge)⟩
    · exact ⟨o.isSome_listAfter (.inr rfl), o.hasEnclaveChallenge_moved (.inr ⟨h.plain, rfl⟩)⟩
  · intro hle
    rcases hconsensus hle with hle' | ⟨rfl, rfl⟩
    · have hne : status ≠ .consensusReached := by
        rintro rfl
        exact absurd hlt (Nat.not_lt.2 hle')
      obtain ⟨hsame, hblock⟩ := o.moved_consensus hne t
      exact ⟨hsame.trans (h.agreed hle').1, hblock.trans (h.agreed hle').2⟩
    · -- the task takes the consensus from the chain
      obtain ⟨c, hc, hon⟩ := h.chain
      have hvalue := hon.value hon.status
      have hblock := hon.block hon.status
      show k.Agreed (withConsensus o.chainTask t)
      rw [hc]
      exact ⟨congrArg some hvalue, hblock⟩

/-- The stage goes on after a move. -/
theorem moved (h : k.Stands s o t) (hnodup : (o.listOf t).wallets.Nodup) {status : TaskStatus}
    (hdue : o.next t = some status) {o' : Outlook} (hnow : o'.now = o.now)
    (hchain : o'.chainTask = o.chainTask) (hlist : o'.list = o.listAfter status t) :
    k.Stands s o' (o.moved status t).saved := by
  refine h.moved_of_works hdue hnow hchain hlist ?_
  by_cases hrequest : status = .resultUploadRequested
  · subst hrequest
    obtain ⟨rfl, ht, r, hr, hrevealed, huploader, hafter⟩ := h.exists_requested hdue
    have hlistOf : o'.listOf (o.moved .resultUploadRequested t).saved =
        (o.listOf t).report r.wallet o.request := by
      unfold Outlook.listOf
      rw [hlist, hafter]
      rfl
    have hrequest : o.request.status = .resultUploadRequested := rfl
    rw [hlistOf]
    refine h.toWorks.requested hnodup (ht ▸ by decide) hr hrevealed ?_ rfl hrequest
    exact huploader
  · obtain ⟨-, hlt, -, -, hrequested⟩ := Stage.of_mem_moves (h.mem_moves hdue)
    rw [listOf_moved hrequest hlist]
    refine h.toWorks.moved (o.moved_uploader hrequest t) hlt ?_
    exact fun hle => (hrequested hle).resolve_right hrequest

/-! ### Reports and newcomers -/

/-- The stage goes on after a report, or the next one begins. -/
theorem report (h : k.Stands s o t) (hnodup : (o.listOf t).wallets.Nodup) {wallet : String}
    {r : Replicate} {u : StatusUpdate} (hfind : (o.listOf t).find? wallet = some r)
    (hreport : (r.status, u.status) ∈ s.reports)
    (hhash : s = .contributing →
      u.resultHash? = if u.status = .contributed then some k.hash else none)
    {o' : Outlook} (hnow : o'.now = o.now) (hchain : o'.chainTask = o.chainTask)
    (hlist : o'.list = some ((o.listOf t).report wallet u)) :
    k.Stands (s.afterReport u.status) o' t := by
  obtain ⟨hchainStatus, hopen, -, hstatuses⟩ := Stage.afterReport_eq (s := s) (b := u.status)
  have hlistOf : o'.listOf t = (o.listOf t).report wallet u := by
    rw [Outlook.listOf, hlist, Option.getD_some]
  obtain ⟨c, hc, hon⟩ := h.chain
  refine ⟨?_, ⟨c, hchain.trans hc, hon.status.trans hchainStatus.symm, hon.winners, hon.value,
    hon.block⟩, hnow ▸ h.early, fun hs => hnow ▸ h.open_early (hopen ▸ hs), hstatuses h.status,
    h.plain, fun hle => ⟨by rw [hlist]; rfl, (h.ready hle).2⟩, h.agreed⟩
  rw [hlistOf]
  exact h.toWorks.report hnodup hfind hreport hhash

/-- The stage goes on when somebody joins. -/
theorem plus (h : k.Stands .contributing o t) {now : Instant} {wallet id : String} {o' : Outlook}
    (hnow : o'.now = o.now) (hchain : o'.chainTask = o.chainTask)
    (hlist : o'.list = some ((o.listOf t).plus now wallet id)) :
    k.Stands .contributing o' t := by
  have hlow : ∀ a ∈ Stage.contributing.statuses, a < .resultUploadRequested := by decide
  have hlistOf : o'.listOf t = (o.listOf t).plus now wallet id := by
    rw [Outlook.listOf, hlist, Option.getD_some]
  refine ⟨?_, hchain ▸ h.chain, hnow ▸ h.early, fun hs => hnow ▸ h.open_early hs, h.status, h.plain,
    fun hle => ⟨by rw [hlist]; rfl, (h.ready hle).2⟩, h.agreed⟩
  rw [hlistOf]
  exact h.toWorks.plus (hlow t.status h.status) now wallet id

end Stands

end Venture

end ComputePool
