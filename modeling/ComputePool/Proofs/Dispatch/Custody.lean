import ComputePool.Proofs.Dispatch.Lines
import Mathlib.Logic.Function.Basic

/-!
# Who has which lock

Somebody who is named by a number has a lock, or stands in line for one: that is its stake. Other
locks are held from outside, and all that is known of their holders is the ticket. `Locks.Secured`
says that the locks agree with this: a lock has one holder or none, and it is held if it has one;
its line is made up of those who wait for it.

A lock is taken (`Secured.take`), waited for (`Secured.lineUp`), given out of the house
(`Secured.handOut`) and given back from outside (`Secured.giveBack`, `Secured.passOn`). Whoever
gives back a lock of its own first hands it out.
-/

namespace ComputePool

/-- What somebody has to do with a lock. -/
inductive Stake where
  | waits (t : Ticket)
  | has (t : Ticket)

/-- The ticket for the lock. -/
def Stake.ticket : Stake → Ticket
  | .waits t => t
  | .has t => t

/-- Who has a lock. -/
inductive Holder where
  | outside
  | inside (who : Nat)

namespace Locks

open Function (update update_self update_of_ne)

/-- The locks agree with who has them and who waits for them. -/
structure Secured (ls : Locks) (guards : List Ticket) (stake : Nat → Option Stake)
    (holder : String → Option Holder) : Prop where
  sound : ls.Sound
  named : ∀ {who x}, stake who = some x → ls.Has x.ticket
  guarded : ∀ t ∈ guards, ls.Has t
  isHeld : ∀ id, ls.isHeld id = (holder id).isSome
  single : ∀ id, (ls.line id).Nodup
  line : ∀ id who, who ∈ ls.line id ↔ ∃ t, stake who = some (.waits t) ∧ t.id = id
  apart : (guards.map (·.id)).Nodup
  outside : ∀ id, id ∈ guards.map (·.id) ↔ holder id = some .outside
  inside : ∀ id who, holder id = some (.inside who) ↔ ∃ t, stake who = some (.has t) ∧ t.id = id

theorem secured_empty (ttl : Span) : (empty ttl).Secured [] (fun _ => none) fun _ => none where
  sound := sound_empty ttl
  named := nofun
  guarded := nofun
  isHeld _ := rfl
  single _ := List.nodup_nil
  line := by simp [Locks.line, empty]
  apart := List.nodup_nil
  outside := by simp
  inside := by simp

variable {ls ls' : Locks} {guards : List Ticket} {stake : Nat → Option Stake}
  {holder : String → Option Holder} {t : Ticket} {who : Nat} {x : Stake} {id : String}
  {held : Bool} {line : List Nat}

/-- Two tickets for one lock are the same. -/
theorem Has.eq {t t' : Ticket} (h : ls.Has t) (h' : ls.Has t') (hid : t.id = t'.id) : t = t' := by
  unfold Has at h h'
  rw [hid, h'] at h
  obtain ⟨id, serial⟩ := t
  obtain ⟨id', serial'⟩ := t'
  simp_all

namespace Secured

variable (h : ls.Secured guards stake holder)

include h

/-! ## What is known of holders -/

theorem holder_of_guard (ht : t ∈ guards) : holder t.id = some .outside :=
  (h.outside t.id).1 (List.mem_map_of_mem ht)

theorem holder_of_stake (hwho : stake who = some (.has t)) : holder t.id = some (.inside who) :=
  (h.inside t.id who).2 ⟨t, hwho, rfl⟩

theorem isHeld_of_holder {y : Holder} (hy : holder id = some y) : ls.isHeld id = true := by
  rw [h.isHeld, hy]
  rfl

theorem holder_of_free (hfree : ls.isHeld id = false) : holder id = none := by
  rw [h.isHeld] at hfree
  exact Option.isNone_iff_eq_none.1 (by simpa using hfree)

/-- Nobody waits for a free lock. -/
theorem isHeld_of_stake (hwho : stake who = some x) : ls.isHeld x.ticket.id = true := by
  cases x with
  | waits t =>
    have hmem : who ∈ ls.line t.id := (h.line t.id who).2 ⟨t, hwho, rfl⟩
    by_contra hfree
    have hfree : ls.isHeld t.id = false := Bool.eq_false_iff.2 hfree
    rw [h.sound.line_of_free hfree] at hmem
    exact absurd hmem List.not_mem_nil
  | has t => exact h.isHeld_of_holder (h.holder_of_stake hwho)

/-- All tickets stay good. -/
theorem named_turns (hturns : ls.Turns ls' id held line) (hwho : stake who = some x) :
    ls'.Has x.ticket :=
  hturns.has _ (h.named hwho) (h.isHeld_of_stake hwho)

/-- So they do when somebody comes to have to do with another lock. -/
theorem named_update (hturns : ls.Turns ls' id held line) (hx : ls'.Has x.ticket) {w : Nat}
    {y : Stake} (hw : update stake who (some x) w = some y) : ls'.Has y.ticket := by
  by_cases hwwho : w = who
  · rw [hwwho, update_self] at hw
    obtain rfl := Option.some.inj hw
    exact hx
  · rw [update_of_ne hwwho] at hw
    exact h.named_turns hturns hw

theorem guarded_turns (hturns : ls.Turns ls' id held line) : ∀ t ∈ guards, ls'.Has t :=
  fun t ht => hturns.has t (h.guarded t ht) (h.isHeld_of_holder (h.holder_of_guard ht))

/-! ## What happens to locks -/

/-- If nothing changes that is seen, nothing changes. -/
theorem same (hturns : ls.Turns ls' id (ls.isHeld id) (ls.line id)) :
    ls'.Secured guards stake holder where
  sound := hturns.sound
  named := h.named_turns hturns
  guarded := h.guarded_turns hturns
  isHeld i := by
    rw [hturns.held, ← h.isHeld i]
    split
    · next hi => rw [hi]
    · rfl
  single i := by
    rw [hturns.line]
    split
    · exact h.single id
    · exact h.single i
  line i who := by
    rw [hturns.line, ← h.line i who]
    split
    · next hi => rw [hi]
    · rfl
  apart := h.apart
  outside := h.outside
  inside := h.inside

/-- A free lock is taken. -/
theorem take (hwho : stake who = none) (hfree : ls.isHeld t.id = false) (ht : ls'.Has t)
    (hturns : ls.Turns ls' t.id true []) :
    ls'.Secured guards (update stake who (some (.has t)))
      (update holder t.id (some (.inside who))) where
  sound := hturns.sound
  named := h.named_update (x := .has t) hturns ht
  guarded := h.guarded_turns hturns
  isHeld i := by
    rw [hturns.held, Function.update_apply]
    split
    · rfl
    · exact h.isHeld i
  single i := by
    rw [hturns.line]
    split
    · exact List.nodup_nil
    · exact h.single i
  line i w := by
    have hnobody : ∀ w, w ∉ ls.line t.id := by
      rw [h.sound.line_of_free hfree]
      exact fun _ => List.not_mem_nil
    have hline : w ∈ ls'.line i ↔ w ∈ ls.line i := by
      rw [hturns.line]
      split
      · next hi => exact iff_of_false List.not_mem_nil (hi ▸ hnobody w)
      · rfl
    rw [hline, h.line, Function.update_apply]
    split
    · next hw => simp [hw, hwho]
    · rfl
  apart := h.apart
  outside i := by
    rw [h.outside, Function.update_apply]
    split
    · next hi => simp [hi, h.holder_of_free hfree]
    · rfl
  inside i w := by
    rw [Function.update_apply, Function.update_apply]
    have hold := h.inside i w
    have hnone := h.holder_of_free hfree
    grind

/-- Somebody joins the line of a lock that is held. -/
theorem lineUp (hwho : stake who = none) (hheld : ls.isHeld t.id = true) (ht : ls'.Has t)
    (hturns : ls.Turns ls' t.id true (ls.line t.id ++ [who])) :
    ls'.Secured guards (update stake who (some (.waits t))) holder where
  sound := hturns.sound
  named := h.named_update (x := .waits t) hturns ht
  guarded := h.guarded_turns hturns
  isHeld i := by
    rw [hturns.held, ← h.isHeld]
    split
    · next hi => rw [hi, hheld]
    · rfl
  single i := by
    rw [hturns.line]
    split
    · -- who has no stake stands in no line
      have hnot : who ∉ ls.line t.id := by
        rw [h.line, hwho]
        simp
      exact (List.perm_append_singleton who _).nodup_iff.2 (List.nodup_cons.2 ⟨hnot, h.single _⟩)
    · exact h.single i
  line i w := by
    have hold := h.line i w
    rw [hturns.line, Function.update_apply]
    grind
  apart := h.apart
  outside := h.outside
  inside i w := by
    rw [h.inside, Function.update_apply]
    split
    · next hw => simp [hw, hwho]
    · rfl

/-- Somebody's lock is held from outside from now on. -/
theorem handOut (hwho : stake who = some (.has t)) :
    ls.Secured (guards ++ [t]) (update stake who none) (update holder t.id (some .outside)) where
  sound := h.sound
  named {w x} hw := by
    by_cases hwwho : w = who
    · rw [hwwho, update_self] at hw
      exact absurd hw (by simp)
    · rw [update_of_ne hwwho] at hw
      exact h.named hw
  guarded g hg := by
    rcases List.mem_append.1 hg with hg | hg
    · exact h.guarded g hg
    · exact List.mem_singleton.1 hg ▸ h.named hwho
  isHeld i := by
    rw [Function.update_apply, h.isHeld]
    split
    · next hi =>
      rw [hi, h.holder_of_stake hwho]
      rfl
    · rfl
  single := h.single
  line i w := by
    rw [h.line, Function.update_apply]
    split
    · next hw => simp [hw, hwho]
    · rfl
  apart := by
    have hnot : t.id ∉ guards.map (·.id) := by
      rw [h.outside, h.holder_of_stake hwho]
      simp
    rw [List.map_append]
    exact (List.perm_append_singleton t.id _).nodup_iff.2 (List.nodup_cons.2 ⟨hnot, h.apart⟩)
  outside i := by
    have hold := h.outside i
    rw [List.map_append, Function.update_apply]
    grind
  inside i w := by
    have hold := h.inside i w
    have hhas := h.holder_of_stake hwho
    rw [Function.update_apply, Function.update_apply]
    grind

/-- The guards that are left when one is given back. -/
theorem mem_erase_guards (ht : t ∈ guards) (i : String) :
    i ∈ (guards.erase t).map (·.id) ↔ i ≠ t.id ∧ i ∈ guards.map (·.id) := by
  have hperm : (guards.map (·.id)).Perm (t.id :: (guards.erase t).map (·.id)) :=
    (List.perm_cons_erase ht).map _
  have hnot : t.id ∉ (guards.erase t).map (·.id) :=
    (List.nodup_cons.1 (hperm.nodup_iff.1 h.apart)).1
  rw [hperm.mem_iff, List.mem_cons]
  grind

/-- A lock that nobody waits for is given back. -/
theorem giveBack (ht : t ∈ guards) (hturns : ls.Turns ls' t.id false [])
    (hline : ls.line t.id = []) :
    ls'.Secured (guards.erase t) stake (update holder t.id none) where
  sound := hturns.sound
  named := h.named_turns hturns
  guarded g hg := h.guarded_turns hturns g (List.mem_of_mem_erase hg)
  isHeld i := by
    rw [hturns.held, Function.update_apply]
    split
    · rfl
    · exact h.isHeld i
  single i := by
    rw [hturns.line]
    split
    · exact List.nodup_nil
    · exact h.single i
  line i w := by
    rw [← h.line, hturns.line]
    split
    · next hi => rw [hi, hline]
    · rfl
  apart := h.apart.sublist (List.erase_sublist.map _)
  outside i := by
    rw [h.mem_erase_guards ht, h.outside, Function.update_apply]
    grind
  inside i w := by
    have hold := h.inside i w
    have houtside := h.holder_of_guard ht
    rw [Function.update_apply]
    grind

/-- A lock that is given back passes to the first in its line. -/
theorem passOn {rest : List Nat} (ht : t ∈ guards) (hline : ls.line t.id = who :: rest)
    (hturns : ls.Turns ls' t.id true rest) :
    stake who = some (.waits t) ∧
      ls'.Secured (guards.erase t) (update stake who (some (.has t)))
        (update holder t.id (some (.inside who))) := by
  obtain ⟨t', hwaits, hid⟩ := (h.line t.id who).1 (hline ▸ List.mem_cons_self)
  obtain rfl : t' = t := (h.named hwaits).eq (h.guarded t ht) hid
  have hsingle := h.single t'.id
  rw [hline] at hsingle
  obtain ⟨hnot, hrest⟩ := List.nodup_cons.1 hsingle
  have hticket : ls'.Has t' := h.named_turns hturns hwaits
  refine ⟨hwaits, hturns.sound, h.named_update (x := .has t') hturns hticket,
    fun g hg => h.guarded_turns hturns g (List.mem_of_mem_erase hg), fun i => ?_, fun i => ?_,
    fun i w => ?_, h.apart.sublist (List.erase_sublist.map _), fun i => ?_, fun i w => ?_⟩
  · rw [hturns.held, Function.update_apply]
    split
    · rfl
    · exact h.isHeld i
  · rw [hturns.line]
    split
    · exact hrest
    · exact h.single i
  · have hold := h.line i w
    rw [hturns.line, Function.update_apply]
    grind
  · rw [h.mem_erase_guards ht, h.outside, Function.update_apply]
    grind
  · have hold := h.inside i w
    have houtside := h.holder_of_guard ht
    rw [Function.update_apply, Function.update_apply]
    grind

end Secured

end Locks

end ComputePool
