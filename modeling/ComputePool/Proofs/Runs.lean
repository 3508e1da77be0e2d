import ComputePool.Proofs.Effects
import ComputePool.Proofs.Transition.Update
import ComputePool.Proofs.WellKept

/-!
# Runs

What happens to a pool is a sequence of events: a single step from outside, or one of the services
from its first call to its last. `start.Runs allowed p` says that events, each allowed where it
happens, lead from `start` to `p`; `Pool.Runs.keeps` is the induction over them.

A service only strings single steps together (`Event.leads`), so a run never leaves what holds of
every pool: `Event.keyed`.
-/

namespace ComputePool

/-- What may happen to a pool. -/
inductive Event where
  | step (s : Step)
  /-- A task is updated. -/
  | update (id : String)
  /-- A request is served: the task is updated, and published again if it moved. -/
  | serve (id : String)
  /-- A worker asks for work. -/
  | find (lastBlock : UInt64) (wallet : String)
  /-- A worker that comes back asks what it missed. -/
  | recover (block : UInt64) (wallet : String)
  | detect (d : Detector)

namespace Event

/-- The pool after an event. -/
def apply (p : Pool) : Event → Pool
  | .step s => s.apply p
  | .update id => p.update id
  | .serve id => (p.perform (serveRequest id)).2
  | .find lastBlock wallet => (p.attempt (findAuthorization lastBlock wallet)).2
  | .recover block wallet => (p.attempt (missedNotifications block wallet)).2
  | .detect d => (p.attempt (ComputePool.detect d)).2

/-- The steps of which an event consists. -/
def steps : Event → Step → Prop
  | .step s => (· = s)
  | .update _ => Step.Updates
  | .serve _ => fun s => s.Updates ∨ s.Publishes
  | .find _ _ => Step.Admits
  | .recover _ _ => Step.Recovers
  | .detect _ => Step.Publishes

/-- Every event is a sequence of its steps. -/
theorem leads (e : Event) (p : Pool) : p.Leads e.steps (e.apply p) := by
  cases e with
  | step s => exact .single (S := (· = s)) rfl p
  | update id => exact updateTask_updates id p
  | serve id =>
    have hpublish : ∀ id : String, Performs (steps (.serve id))
        (Publisher.publish (m := StateM Pool) id) :=
      fun id => .of_step (s := .publish id) (.inr trivial) fun _ => rfl
    refine Performs.bind (.mono (fun _ hs => .inl hs) (.run (updateTask_updates id))) ?_ p
    intro r
    match r with
    | .ok (some _) => exact .bind (hpublish id) fun _ => .pure _
    | .ok none => exact .pure _
    | .error e => exact .ite (.bind (hpublish id) fun _ => .pure _) (.pure _)
  | find lastBlock wallet => exact findAuthorization_admits lastBlock wallet p
  | recover block wallet => exact missedNotifications_recovers block wallet p
  | detect d => exact detect_publishes d p

theorem keyed (e : Event) {p : Pool} (h : p.store.Keyed) : (e.apply p).store.Keyed :=
  h.leads (e.leads p)

theorem wellKept (e : Event) {p : Pool} (h : p.WellKept) : (e.apply p).WellKept :=
  h.leads (e.leads p)

end Event

/-- Events, each allowed where it happens, lead from one pool to another. -/
def Pool.Runs (allowed : Pool → Event → Prop) : Pool → Pool → Prop :=
  Relation.ReflTransGen fun p q => ∃ e, allowed p e ∧ e.apply p = q

namespace Pool.Runs

variable {allowed : Pool → Event → Prop} {start p q : Pool}

/-- What every allowed event keeps is kept by the run. -/
theorem keeps {P : Pool → Prop} (hkeep : ∀ p e, allowed p e → P p → P (e.apply p))
    (h : start.Runs allowed p) (hstart : P start) : P p := by
  induction h with
  | refl => exact hstart
  | tail _ hstep ih =>
    obtain ⟨e, he, rfl⟩ := hstep
    exact hkeep _ e he ih

theorem keyed (h : start.Runs allowed p) (hk : start.store.Keyed) : p.store.Keyed :=
  h.keeps (P := fun q => q.store.Keyed) (fun _ e _ hq => e.keyed hq) hk

theorem reachable (h : start.Runs allowed p) (hstart : start.Reachable) : p.Reachable :=
  h.keeps (P := Pool.Reachable) (fun q e _ hq => hq.leads (e.leads q)) hstart

/-- What every allowed event keeps where records are keyed is kept by a run that begins so. -/
theorem keeps_keyed {P : Pool → Prop}
    (hkeep : ∀ p e, p.store.Keyed → allowed p e → P p → P (e.apply p))
    (h : start.Runs allowed p) (hk : start.store.Keyed) (hstart : P start) : P p := by
  have hboth : p.store.Keyed ∧ P p := by
    refine h.keeps (P := fun q => q.store.Keyed ∧ P q) ?_ ⟨hk, hstart⟩
    intro q e he ⟨hkeyed, hq⟩
    exact ⟨e.keyed hkeyed, hkeep q e hkeyed he hq⟩
  exact hboth.2

theorem mono {allowed' : Pool → Event → Prop} (himp : ∀ p e, allowed p e → allowed' p e)
    (h : start.Runs allowed p) : start.Runs allowed' p :=
  Relation.ReflTransGen.mono (fun _ _ ⟨e, he, heq⟩ => ⟨e, himp _ e he, heq⟩) start p h

/-- One more event. -/
theorem snoc (h : start.Runs allowed p) (e : Event) (he : allowed p e) :
    start.Runs allowed (e.apply p) := .tail h ⟨e, he, rfl⟩

theorem trans (h : start.Runs allowed p) (h' : p.Runs allowed q) : start.Runs allowed q :=
  Relation.ReflTransGen.trans h h'

/-- Events that are allowed wherever they happen, one after the other. -/
theorem of_events {allowed : Event → Prop} {events : List Event} (h : ∀ e ∈ events, allowed e)
    (p : Pool) : p.Runs (fun _ e => allowed e) (events.foldl Event.apply p) := by
  induction events generalizing p with
  | nil => exact .refl
  | cons e rest ih =>
    obtain ⟨he, hrest⟩ := List.forall_mem_cons.1 h
    exact .head ⟨e, he, rfl⟩ (ih hrest (e.apply p))

/-- Events that are allowed where they happen, one after the other. -/
theorem of_cons {e : Event} {events : List Event} (he : allowed p e)
    (h : (e.apply p).Runs allowed (events.foldl Event.apply (e.apply p))) :
    p.Runs allowed ((e :: events).foldl Event.apply p) := .head ⟨e, he, rfl⟩ h

end Pool.Runs

end ComputePool
