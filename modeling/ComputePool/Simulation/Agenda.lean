import ComputePool.Detection

/-!
# Agendas

Duties that come up again and again. The timers of a watch are looked at together: as soon as one
of them goes off, the watch does the duties of all that have gone off, in the order in which it
lists them. Of several watches the one goes first whose first timer goes off before those of the
others, that is, at an earlier moment, or at the same moment but set earlier.

A timer goes off once for each period that has passed, however late it is looked at, and is set
again when its duty is done.
-/

namespace ComputePool

/-- What comes up again and again. -/
inductive Duty where
  | topUp
  | sweep
  | detect (d : Detector)
deriving DecidableEq

/-- A timer for a duty. -/
structure Timer where
  duty : Duty
  period : Span
  /-- When it goes off next, in nanoseconds. -/
  due : Int
  /-- The number of settings before this one, of this timer and of all others. -/
  serial : Nat
deriving DecidableEq

namespace Timer

/-- The timer goes off up to a moment. -/
def isDue (now : Int) (t : Timer) : Bool := t.due ≤ now

/-- A timer goes off before another. -/
def precedes (t u : Timer) : Bool := t.due < u.due || (t.due == u.due && t.serial < u.serial)

/-- How often a timer goes off up to a moment. -/
def strokes (now : Int) (t : Timer) : Nat :=
  if t.isDue now then (now - t.due).toNat / t.period.toNanos + 1 else 0

/-- The timer after a moment. If it went off, it is set again, and that is counted. -/
def pass (now : Int) (t : Timer) : StateM Nat Timer := do
  if t.isDue now then
    modifyGet fun settings =>
      ({ t with due := t.due + t.strokes now * t.period.toNanos, serial := settings }, settings + 1)
  else return t

end Timer

/-- Timers that are looked at together, in the order in which their duties are done. -/
abbrev Watch := List Timer

namespace Watch

/-- The first timer of a watch goes off before all timers of another. -/
def precedes (v w : Watch) : Bool := v.any fun t => w.all t.precedes

/-- The duties that come up to a moment. -/
def duties (now : Int) (w : Watch) : List Duty :=
  w.flatMap fun t => List.replicate (t.strokes now) t.duty

/-- The watch after a moment. -/
def pass (now : Int) (w : Watch) : StateM Nat Watch := w.mapM (Timer.pass now)

/-- Inserts a watch among watches in the order in which they go. -/
def insert (w : Watch) : List Watch → List Watch
  | [] => [w]
  | v :: rest => if w.precedes v then w :: v :: rest else v :: insert w rest

/-- Watches in the order in which they go. -/
def inOrder : List Watch → List Watch
  | [] => []
  | w :: rest => insert w (inOrder rest)

end Watch

/-- The watches that are kept. -/
structure Agenda where
  watches : List Watch
  /-- The number of settings of timers so far. -/
  settings : Nat

namespace Agenda

/-- An agenda without duties. -/
def empty : Agenda := ⟨[], 0⟩

/-- A watch begins. Its duties come up for the first time when their periods have passed. -/
def watch (now : Int) (duties : List (Duty × Span)) (a : Agenda) : Agenda where
  watches := a.watches ++ [(duties.zipIdx a.settings).map fun ((duty, period), serial) =>
    ⟨duty, period, now + period.toNanos, serial⟩]
  settings := a.settings + duties.length

/-- Time has passed up to a moment: the duties that have come up, in order. -/
def pass (now : Int) (a : Agenda) : List Duty × Agenda :=
  let inOrder := Watch.inOrder a.watches
  let (watches, settings) := (inOrder.mapM (Watch.pass now)).run a.settings
  (inOrder.flatMap (Watch.duties now), ⟨watches, settings⟩)

end Agenda

end ComputePool
