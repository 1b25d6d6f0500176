import Mathlib.Logic.Function.Basic
import Vanta.Library.Vec

/-! The timer wheel: four levels of slots and an overflow list. -/

namespace Vanta.Timer
open Library Function

inductive TimerKind where
  | sleep (tid : Nat)
  | itimerReal (pid intervalTicks : Nat)
  deriving DecidableEq

structure TimerEntry where
  id : Nat
  targetTick : Nat
  kind : TimerKind
  deriving DecidableEq

def lvl0Size : Nat := 256
def lvl1Size : Nat := 64
def lvl2Size : Nat := 64
def lvl3Size : Nat := 64

def lvl1Shift : Nat := 8
def lvl2Shift : Nat := 14
def lvl3Shift : Nat := 20

def lvl0Span : Nat := 2^lvl1Shift
def lvl1Span : Nat := 2^lvl2Shift
def lvl2Span : Nat := 2^lvl3Shift
def lvl3Span : Nat := 2^(lvl3Shift+6)

abbrev Slots := Nat → List TimerEntry

structure TimerWheel where
  currentTick : Nat
  level0 : Slots
  level1 : Slots
  level2 : Slots
  level3 : Slots
  overflow : List TimerEntry
  nextTimerId : Nat

def TimerWheel.new : TimerWheel where
  currentTick := 0
  level0 := fun _ => []
  level1 := fun _ => []
  level2 := fun _ => []
  level3 := fun _ => []
  overflow := []
  nextTimerId := 1

def Slots.push (l : Slots) (slot : Nat) (e : TimerEntry) : Slots :=
  update l slot (l slot++[e])

variable (w : TimerWheel)

def TimerWheel.reinsert (e : TimerEntry) : TimerWheel :=
  let delta := e.targetTick-w.currentTick
  if delta < lvl0Span then
    {w with level0 := w.level0.push (e.targetTick%lvl0Size) e}
  else if delta < lvl1Span then
    {w with level1 := w.level1.push (e.targetTick / 2^lvl1Shift%lvl1Size) e}
  else if delta < lvl2Span then
    {w with level2 := w.level2.push (e.targetTick / 2^lvl2Shift%lvl2Size) e}
  else if delta < lvl3Span then
    {w with level3 := w.level3.push (e.targetTick / 2^lvl3Shift%lvl3Size) e}
  else
    {w with overflow := w.overflow++[e]}

def TimerWheel.addTimer (targetTick : Nat) (kind : TimerKind) : Nat × TimerWheel :=
  let id := w.nextTimerId
  let w := {w with nextTimerId := (w.nextTimerId+1)%2^64}
  (id, w.reinsert ⟨id,targetTick,kind⟩)

/-- `for entry in entries {self.reinsert(entry)}` -/
def TimerWheel.reinsertAll (es : List TimerEntry) : TimerWheel := es.foldl TimerWheel.reinsert w

def TimerWheel.cascade1 : TimerWheel :=
  let slot := w.currentTick / 2^lvl1Shift%lvl1Size
  {w with level1 := update w.level1 slot []}.reinsertAll (w.level1 slot)

def TimerWheel.cascade2 : TimerWheel :=
  let slot := w.currentTick / 2^lvl2Shift%lvl2Size
  {w with level2 := update w.level2 slot []}.reinsertAll (w.level2 slot)

def TimerWheel.cascade3 : TimerWheel :=
  let slot := w.currentTick / 2^lvl3Shift%lvl3Size
  {w with level3 := update w.level3 slot []}.reinsertAll (w.level3 slot)

/-- The loop over the overflow list: a turn shortens the list or moves the index on, so `overflow.length ≤ i+fuel` is
enough. -/
def TimerWheel.promote (w : TimerWheel) (i : Nat) : Nat → TimerWheel
  | 0 => w
  | fuel+1 =>
    match w.overflow[i]? with
    | none => w
    | some e =>
      if e.targetTick-w.currentTick < lvl3Span then
        promote ({w with overflow := swapRemove w.overflow i}.reinsert e) i fuel
      else promote w (i+1) fuel

def TimerWheel.cascade : TimerWheel :=
  let tick := w.currentTick
  let w := if tick%2^lvl1Shift = 0 then w.cascade1 else w
  let w := if tick%2^lvl2Shift = 0 then w.cascade2 else w
  if tick%2^lvl3Shift = 0 then
    let w := w.cascade3
    w.promote 0 w.overflow.length
  else w

def TimerWheel.expire : List TimerEntry × TimerWheel :=
  let slot0 := w.currentTick%lvl0Size
  let due := fun e : TimerEntry => decide (e.targetTick ≤ w.currentTick)
  let expired := (w.level0 slot0).filter due
  let remaining := (w.level0 slot0).filter (fun e => !due e)
  (expired, {w with level0 := update w.level0 slot0 remaining})

def TimerWheel.advanceTick : List TimerEntry × TimerWheel :=
  ({w with currentTick := (w.currentTick+1)%2^64}).cascade.expire

def Slots.removeFirst (p : TimerEntry → Bool) (n : Nat) (l : Slots) : Option (TimerEntry × Slots) := do
  let s ← (List.range n).find? (fun s => (l s).any p)
  let e ← (l s).find? p
  pure (e, update l s ((l s).eraseP p))

def TimerWheel.cancelFirst (p : TimerEntry → Bool) : Option (TimerEntry × TimerWheel) :=
  match w.level0.removeFirst p lvl0Size with
  | some (e,l) => some (e, {w with level0 := l})
  | none => match w.level1.removeFirst p lvl1Size with
    | some (e,l) => some (e, {w with level1 := l})
    | none => match w.level2.removeFirst p lvl2Size with
      | some (e,l) => some (e, {w with level2 := l})
      | none => match w.level3.removeFirst p lvl3Size with
        | some (e,l) => some (e, {w with level3 := l})
        | none => match w.overflow.find? p with
          | some e => some (e, {w with overflow := w.overflow.eraseP p})
          | none => none

def TimerEntry.isSleep (targetTid : Nat) (e : TimerEntry) : Bool :=
  match e.kind with
  | .sleep tid => tid == targetTid
  | _ => false

def TimerEntry.isItimer (targetPid : Nat) (e : TimerEntry) : Bool :=
  match e.kind with
  | .itimerReal pid _ => pid == targetPid
  | _ => false

def TimerKind.interval : TimerKind → Nat
  | .itimerReal _ intervalTicks => intervalTicks
  | .sleep _ => 0

def TimerWheel.cancelSleepTimer (targetTid : Nat) : Option Nat × TimerWheel :=
  match w.cancelFirst (TimerEntry.isSleep targetTid) with
  | some (e,w) => (some e.targetTick, w)
  | none => (none, w)

def TimerWheel.cancelItimer (targetPid : Nat) : Option (Nat × Nat) × TimerWheel :=
  match w.cancelFirst (TimerEntry.isItimer targetPid) with
  | some (e,w') => (some (e.kind.interval, e.targetTick-w.currentTick), w')
  | none => (none, w)

end Vanta.Timer
