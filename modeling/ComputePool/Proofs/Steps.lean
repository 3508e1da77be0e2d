import ComputePool.Proofs.Execution
import ComputePool.Proofs.Queue.Coherence
import Mathlib.Logic.Relation

/-!
# Single steps

`Step` lists the single steps by which a pool changes: every write to the records and to the
registry, what the world outside does, and what the queue, the locks and the routines do. A
service only strings such steps together, so what it may change is said by naming the steps it
takes:

* `p.Leads S q`: steps of `S`, one after the other, lead from `p` to `q`.
* `Performs S x`, `Attempts S x`: whatever the pool, `x` takes only steps of `S`.

A property that every step of `S` keeps is then kept by every service that stays within `S`
(`Pool.Leads.keeps`), and the services are looked into once for their steps and not once for each
property.
-/

namespace ComputePool

/-- A step of the dispatcher other than offers and locks. -/
inductive Dispatcher.Move where
  /-- A request is taken out of the queue, from whatever place. -/
  | take (r : Request)
  | touch (id : String)
  | setConsumer
  | topUp
  | sweep
  | shutdown
  /-- The routines go on until one gets to an update. -/
  | next
  /-- The first routine goes on. -/
  | turn
  | finish (who : Nat) (t : Ticket)

/-- The dispatcher after a step. -/
def Dispatcher.move (now : Instant) (d : Dispatcher) : Move → Dispatcher
  | .take r => { d with queue := d.queue.remove r }
  | .touch id => d.touch now id
  | .setConsumer => d.setConsumer.2
  | .topUp => d.topUp
  | .sweep => d.sweep now
  | .shutdown => d.shutdown
  | .next => (d.next now).2
  | .turn => (d.step now).2
  | .finish who t => d.finish who t

/-- A single step of a pool. -/
inductive Step where
  -- records
  | insertTask (t : Task)
  | saveTask (t : Task)
  | createList (id : String)
  | addReplicate (read : ReplicateList) (wallet : String)
  | updateReplicate (id wallet : String) (u : StatusUpdate)
  | removeReplicate (id wallet : String)
  -- workers
  | addWorker (w : Worker)
  | removeWorker (wallet : String)
  | addWork (wallet id : String)
  | endWork (wallet id : String)
  -- the world outside
  | changeChain (f : Chain → Chain)
  | setClock (now : Instant)
  | draw (n : Nat)
  -- requests, locks and routines
  | publish (id : String)
  | tryLock (id : String)
  | unlock (t : Ticket)
  | dispatch (m : Dispatcher.Move)

/-- The pool after a step. A step that the records refuse changes nothing. -/
def Step.apply (p : Pool) : Step → Pool
  | .insertTask t => (p.insertTask t).2
  | .saveTask t => (p.saveTask t).2
  | .createList id => (p.createList id).2
  | .addReplicate read wallet => (p.addReplicate read wallet).2
  | .updateReplicate id wallet u => (p.updateReplicate id wallet u).2
  | .removeReplicate id wallet => (p.removeReplicate id wallet).2
  | .addWorker w => p.addWorker w
  | .removeWorker wallet => (p.removeWorker wallet).2
  | .addWork wallet id => (p.addWork wallet id).2
  | .endWork wallet id => (p.endWork wallet id).2
  | .changeChain f => p.changeChain f
  | .setClock now => { p with now }
  | .draw n => (p.draw n).2
  | .publish id => (p.perform (publishRequest id)).2
  | .tryLock id => (p.tryLock id).2
  | .unlock t => p.unlock t
  | .dispatch m => p.changeDispatcher fun d => d.move p.now m

/-! ## What a step leaves alone -/

/-- A part of a pool that steps change. -/
inductive Part where
  | store
  | registry
  | chain
  | clock
  | chance
  | dispatcher
deriving DecidableEq

/-- The part of the pool that a step may change. -/
def Step.part : Step → Part
  | .insertTask _ | .saveTask _ | .createList _ | .addReplicate .. | .updateReplicate ..
  | .removeReplicate .. => .store
  | .addWorker _ | .removeWorker _ | .addWork .. | .endWork .. => .registry
  | .changeChain _ => .chain
  | .setClock _ => .clock
  | .draw _ => .chance
  | .publish _ | .tryLock _ | .unlock _ | .dispatch _ => .dispatcher

/-- A write to the records changes nothing else. -/
theorem Pool.writeStore_snd {α : Type} (f : Store → Except StoreError (α × Store)) (p : Pool) :
    (p.writeStore f).2 = { p with store := (p.writeStore f).2.store } := by
  unfold Pool.writeStore
  cases f p.store with
  | error e => rfl
  | ok r => rfl

/-- A write to the registry changes nothing else. -/
theorem Pool.writeRegistry_snd (f : Registry → Except StoreError Registry) (p : Pool) :
    (p.writeRegistry f).2 = { p with registry := (p.writeRegistry f).2.registry } := by
  unfold Pool.writeRegistry
  cases f p.registry with
  | error e => rfl
  | ok r => rfl

/-- A request that is published changes nothing but the dispatcher. -/
theorem Pool.publishRequest_snd (id : String) (p : Pool) :
    (p.perform (publishRequest id)).2 =
      { p with dispatcher := (p.perform (publishRequest id)).2.dispatcher } := by
  rw [Pool.perform_publishRequest]
  split
  · rfl
  · split
    · rfl
    · split
      · rfl
      · rfl

namespace Step

/-- A step changes one part of the pool and leaves the others alone. -/
theorem apply_eq (s : Step) (p : Pool) :
    s.apply p =
      match s.part with
      | .store => { p with store := (s.apply p).store }
      | .registry => { p with registry := (s.apply p).registry }
      | .chain => { p with chain := (s.apply p).chain }
      | .clock => { p with now := (s.apply p).now }
      | .chance => { p with rolls := (s.apply p).rolls }
      | .dispatcher => { p with dispatcher := (s.apply p).dispatcher } := by
  cases s with
  | insertTask t => exact Pool.writeStore_snd _ p
  | saveTask t => exact Pool.writeStore_snd _ p
  | createList id => exact Pool.writeStore_snd _ p
  | addReplicate read wallet => exact Pool.writeStore_snd _ p
  | addWork wallet id => exact Pool.writeRegistry_snd _ p
  | endWork wallet id => exact Pool.writeRegistry_snd _ p
  | publish id => exact Pool.publishRequest_snd id p
  | _ => rfl

variable {s : Step} (p : Pool)

/-- A step of another part leaves the records alone. -/
theorem store_apply (h : s.part ≠ .store) : (s.apply p).store = p.store := by
  rw [apply_eq]
  cases hs : s.part with
  | store => exact absurd hs h
  | _ => rfl

/-- A step of another part leaves the registry alone. -/
theorem registry_apply (h : s.part ≠ .registry) : (s.apply p).registry = p.registry := by
  rw [apply_eq]
  cases hs : s.part with
  | registry => exact absurd hs h
  | _ => rfl

/-- A step of another part leaves the queue, the locks and the routines alone. -/
theorem dispatcher_apply (h : s.part ≠ .dispatcher) :
    (s.apply p).dispatcher = p.dispatcher := by
  rw [apply_eq]
  cases hs : s.part with
  | dispatcher => exact absurd hs h
  | _ => rfl

/-- No step changes the settings. -/
theorem maxAttempts_apply (s : Step) : (s.apply p).maxAttempts = p.maxAttempts := by
  rw [apply_eq]
  cases s.part <;> rfl

theorem signer_apply (s : Step) : (s.apply p).signer = p.signer := by
  rw [apply_eq]
  cases s.part <;> rfl

end Step

/-! ## Steps in sequence -/

/-- Steps of `S`, one after the other, lead from one pool to another. -/
def Pool.Leads (S : Step → Prop) : Pool → Pool → Prop :=
  Relation.ReflTransGen fun p q => ∃ s, S s ∧ s.apply p = q

namespace Pool.Leads

variable {S T : Step → Prop} {p q r : Pool}

theorem refl (p : Pool) : p.Leads S p := Relation.ReflTransGen.refl

theorem trans (h : p.Leads S q) (h' : q.Leads S r) : p.Leads S r := Relation.ReflTransGen.trans h h'

theorem single {s : Step} (hs : S s) (p : Pool) : p.Leads S (s.apply p) :=
  Relation.ReflTransGen.single ⟨s, hs, rfl⟩

theorem mono (hST : ∀ s, S s → T s) (h : p.Leads S q) : p.Leads T q :=
  Relation.ReflTransGen.mono (fun _ _ ⟨s, hs, he⟩ => ⟨s, hST s hs, he⟩) p q h

/-- What every step of `S` keeps is kept all the way. -/
theorem keeps {P : Pool → Prop} (hS : ∀ s, S s → ∀ p, P p → P (s.apply p))
    (h : p.Leads S q) (hp : P p) : P q := by
  induction h with
  | refl => exact hp
  | tail _ hstep ih =>
    obtain ⟨s, hs, rfl⟩ := hstep
    exact hS s hs _ ih

/-- What no step of `S` changes is the same in the end. -/
theorem unchanged {α : Type} {f : Pool → α} (hS : ∀ s, S s → ∀ p, f (s.apply p) = f p)
    (h : p.Leads S q) : f q = f p :=
  h.keeps (P := fun r => f r = f p) (fun s hs r hr => (hS s hs r).trans hr) rfl

end Pool.Leads

/-! ## Computations within a set of steps -/

/-- The computation takes only steps of `S`. -/
def Performs {α : Type} (S : Step → Prop) (x : StateM Pool α) : Prop :=
  ∀ p : Pool, p.Leads S (p.perform x).2

/-- The sequence of calls takes only steps of `S`. -/
def Attempts {α : Type} (S : Step → Prop) (x : Fallible (StateM Pool) α) : Prop :=
  ∀ p : Pool, p.Leads S (p.attempt x).2

variable {α β : Type} {S T : Step → Prop}

namespace Performs

/-- A computation that leaves every pool as it is. -/
theorem of_read {x : StateM Pool α} (h : ∀ p : Pool, (p.perform x).2 = p) : Performs S x := by
  intro p
  rw [h p]
  exact .refl p

/-- A computation that takes one step. -/
theorem of_step {x : StateM Pool α} {s : Step} (hs : S s)
    (h : ∀ p : Pool, (p.perform x).2 = s.apply p) : Performs S x := by
  intro p
  rw [h p]
  exact .single hs p

theorem pure (a : α) : Performs S (Pure.pure a) := of_read fun _ => rfl

/-- One computation after another stays within the steps of both. -/
theorem bind {x : StateM Pool α} {f : α → StateM Pool β} (hx : Performs S x)
    (hf : ∀ a, Performs S (f a)) : Performs S (x >>= f) := by
  intro p
  rw [Pool.perform_bind]
  exact (hx p).trans (hf _ _)

/-- A choice stays within the steps of both alternatives. -/
theorem ite {c : Prop} [Decidable c] {x y : StateM Pool α} (hx : Performs S x)
    (hy : Performs S y) : Performs S (if c then x else y) := by
  by_cases h : c
  · rw [if_pos h]
    exact hx
  · rw [if_neg h]
    exact hy

theorem mono (hST : ∀ s, S s → T s) {x : StateM Pool α} (hx : Performs S x) : Performs T x :=
  fun p => (hx p).mono hST

theorem run {x : Fallible (StateM Pool) α} (hx : Attempts S x) : Performs S x.run := hx

end Performs

namespace Attempts

theorem pure (a : α) : Attempts S (Pure.pure a) := fun p => .refl p

theorem throw (e : PoolError) : Attempts S (MonadExcept.throw e : Fallible (StateM Pool) α) :=
  fun p => .refl p

/-- A sequence goes on only where the first part succeeds; its steps are those of both parts. -/
theorem bind {x : Fallible (StateM Pool) α} {f : α → Fallible (StateM Pool) β}
    (hx : Attempts S x) (hf : ∀ a, Attempts S (f a)) : Attempts S (x >>= f) := by
  intro p
  have hfirst := hx p
  rcases h : p.attempt x with ⟨e | a, q⟩
  · rw [Pool.attempt_bind_error h]
    rw [h] at hfirst
    exact hfirst
  · rw [Pool.attempt_bind_ok h]
    rw [h] at hfirst
    exact hfirst.trans (hf a q)

/-- A choice between sequences stays within the steps of both. -/
theorem ite {c : Prop} [Decidable c] {x y : Fallible (StateM Pool) α} (hx : Attempts S x)
    (hy : Attempts S y) : Attempts S (if c then x else y) := by
  by_cases h : c
  · rw [if_pos h]
    exact hx
  · rw [if_neg h]
    exact hy

theorem mk {x : StateM Pool (Except PoolError α)} (hx : Performs S x) :
    Attempts S (ExceptT.mk x) := hx

/-- A call within a sequence takes the steps of the call. -/
theorem certain {x : StateM Pool α} (hx : Performs S x) : Attempts S (certain x) := hx

/-- A call on the records takes the same steps whether it fails or not. -/
theorem stored {x : StateM Pool (Except StoreError α)} (hx : Performs S x) :
    Attempts S (stored x) := hx

theorem onChain {x : StateM Pool (Except ChainError α)} (hx : Performs S x) :
    Attempts S (onChain x) := hx

end Attempts

end ComputePool
