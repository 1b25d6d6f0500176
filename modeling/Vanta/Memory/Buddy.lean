import Mathlib.Logic.Function.Basic
import Mathlib.Data.Nat.Bitwise

/-! The physical frame allocator. `pfn` is an address divided by the page size. -/

namespace Vanta.Memory
open Function

def pageSize : Nat := 4096
def maxOrder : Nat := 11
def maxSupportedFrames : Nat := 16777216
/-- The `u32` that stands for no frame in the list pointers. -/
def none32 : Nat := 2^32-1

def flagAllocated : BitVec 8 := 1 <<< 4
def flagFree : BitVec 8 := 1 <<< 5
def flagReserved : BitVec 8 := 1 <<< 6
def orderMask : BitVec 8 := 0x0F

/-- The allocator. The arrays of the source have length `maxPfn` and every access below is to a frame
under it. -/
structure BuddyAllocator where
  freeLists : Nat → Option Nat
  nextFree : Nat → Nat
  prevFree : Nat → Nat
  flags : Nat → BitVec 8
  refcounts : Nat → Nat
  totalUsableFrames : Nat
  freeFrames : Nat
  maxPfn : Nat

namespace BuddyAllocator

def empty (rawMaxPfn : Nat) : BuddyAllocator where
  freeLists _ := none
  nextFree _ := none32
  prevFree _ := none32
  flags _ := 0
  refcounts _ := 0
  totalUsableFrames := 0
  freeFrames := 0
  maxPfn := min rawMaxPfn maxSupportedFrames

variable (b : BuddyAllocator)
variable (pfn : Nat)

def order : Nat := (b.flags pfn &&& orderMask).toNat

def isFree : Bool := b.flags pfn &&& flagFree != 0
def isAllocated : Bool := b.flags pfn &&& flagAllocated != 0
def isReserved : Bool := b.flags pfn &&& flagReserved != 0

def listPush (order pfn : Nat) : BuddyAllocator :=
  if pfn ≥ b.maxPfn then b
  else
    let head := b.freeLists order
    let prev := update b.prevFree pfn none32
    {b with
      nextFree := update b.nextFree pfn (match head with | none => none32 | some h => h%2^32)
      prevFree := match head with
        | some h => if h < b.maxPfn then update prev h (pfn%2^32) else prev
        | none => prev
      freeLists := update b.freeLists order (some pfn)
      flags := update b.flags pfn ((BitVec.ofNat 8 order &&& orderMask) ||| flagFree)}

/-- The list pointer `p` leads to a frame. -/
def isLink (p : Nat) : Bool := p != none32 && decide (p < b.maxPfn)

def listRemove (order pfn : Nat) : BuddyAllocator :=
  if pfn ≥ b.maxPfn then b
  else
    let prev := b.prevFree pfn
    let next := b.nextFree pfn
    let nextFree := if b.isLink prev then update b.nextFree prev next else b.nextFree
    let freeLists :=
      if b.isLink prev then b.freeLists
      else if b.freeLists order = some pfn then
        update b.freeLists order (if b.isLink next then some next else none)
      else b.freeLists
    let prevFree := if b.isLink next then update b.prevFree next prev else b.prevFree
    {b with
      freeLists := freeLists
      prevFree := update prevFree pfn none32
      nextFree := update nextFree pfn none32
      flags := update b.flags pfn (b.flags pfn &&& ~~~flagFree)}

def listPop (order : Nat) : BuddyAllocator × Option Nat :=
  match b.freeLists order with
  | none => (b,none)
  | some head => (b.listRemove order head,some head)

end BuddyAllocator

def alignDown (address : Nat) : Nat := address / pageSize*pageSize

def alignUp (address : Nat) : Nat := alignDown (min (address+(pageSize-1)) (2^64-1))

/-- The inner loop of `add_range`: the largest order, from `order` down, whose block at `start` is
aligned and ends by `stop`. -/
def fitOrder (start stop : Nat) : Nat → Nat
  | 0 => 0
  | order+1 =>
    if start+2^(order+1) ≤ stop ∧ start%2^(order+1) = 0 then order+1
    else fitOrder start stop order

namespace BuddyAllocator

/-- The outer loop of `add_range`. Each turn moves `start` on by at least one frame. -/
def addBlocks (b : BuddyAllocator) (stop : Nat) : Nat → Nat → BuddyAllocator
  | 0, _ => b
  | fuel+1, start =>
    if start < stop then
      let order := fitOrder start stop (maxOrder-1)
      (b.listPush order start).addBlocks stop fuel (start+2^order)
    else b

variable (b : BuddyAllocator)

/-- The frames `add_range` takes from a byte range: from the first to before the second. -/
def frameRange (base length : Nat) : Nat × Nat :=
  if base+length < 2^64 then
    let first := max (alignUp base) pageSize
    let last := alignDown (base+length)
    if first ≥ last then (0,0) else (first / pageSize,min (last / pageSize) b.maxPfn)
  else (0,0)

def addRange (base length : Nat) : BuddyAllocator × Nat :=
  let (start,stop) := b.frameRange base length
  if start ≥ stop then (b,0)
  else
    let added := stop - start
    let b := {b with
      totalUsableFrames := b.totalUsableFrames+added
      freeFrames := b.freeFrames+added}
    (b.addBlocks stop added start,added)

/-- The search loop of `alloc_order`: the first order from `cur` on with a non-empty list. -/
def firstOrder (b : BuddyAllocator) : Nat → Nat → Nat
  | 0, cur => cur
  | fuel+1, cur =>
    if cur < maxOrder ∧ (b.freeLists cur).isNone then b.firstOrder fuel (cur+1) else cur

/-- The splitting loop of `alloc_order`: from `order + n` down to `order`, the upper halves go back
on their lists. -/
def splitDown (b : BuddyAllocator) (pfn order : Nat) : Nat → BuddyAllocator
  | 0 => b
  | n+1 => (b.listPush (order+n) (pfn+2^(order+n))).splitDown pfn order n

def allocOrder (order : Nat) : BuddyAllocator × Option Nat :=
  if order ≥ maxOrder then (b,none)
  else
    let cur := b.firstOrder (maxOrder-order) order
    if cur ≥ maxOrder then (b,none)
    else
      match b.listPop cur with
      | (b,none) => (b,none)
      | (b,some pfn) =>
        let b := b.splitDown pfn order (cur-order)
        ({b with
            flags := update b.flags pfn ((BitVec.ofNat 8 order &&& orderMask) ||| flagAllocated)
            refcounts := update b.refcounts pfn 1
            freeFrames := b.freeFrames - 2^order},some pfn)

/-- The merging loop of `free_order`, at most `fuel` orders up; it ends by pushing the block. -/
def mergeUp (b : BuddyAllocator) : Nat → Nat → Nat → BuddyAllocator
  | 0, pfn, order => b.listPush order pfn
  | fuel+1, pfn, order =>
    if order < maxOrder-1 then
      let buddy := pfn ^^^ 2^order
      if buddy ≥ b.maxPfn then b.listPush order pfn
      else if b.isFree buddy ∧ b.order buddy = order then
        (b.listRemove order buddy).mergeUp fuel (min pfn buddy) (order+1)
      else b.listPush order pfn
    else b.listPush order pfn

def freeOrder (pfn order : Nat) : BuddyAllocator :=
  let b := {b with
    freeFrames := b.freeFrames+2^order
    flags := update b.flags pfn (b.flags pfn &&& ~~~flagAllocated)}
  b.mergeUp (maxOrder-1-order) pfn order

def alloc : BuddyAllocator × Option Nat :=
  let (b,pfn) := b.allocOrder 0
  (b,pfn.map (·*pageSize))

def free (addr : Nat) : BuddyAllocator × Bool :=
  if addr = 0 ∨ addr%pageSize ≠ 0 then (b,false)
  else
    let pfn := addr / pageSize
    if pfn ≥ b.maxPfn then (b,false)
    else if b.refcounts pfn > 1 then
      ({b with refcounts := update b.refcounts pfn (b.refcounts pfn - 1)},true)
    else if b.refcounts pfn = 1 then
      let b := {b with refcounts := update b.refcounts pfn 0}
      (b.freeOrder pfn (b.order pfn),true)
    else (b,false)

/-- The loop of `reserve` that splits the block at `head` of order `n` down to the frame `pfn`; the
halves without `pfn` go back on their lists. -/
def splitTo (b : BuddyAllocator) (pfn : Nat) : Nat → Nat → BuddyAllocator
  | 0, _ => b
  | n+1, head =>
    let upper := head+2^n
    if pfn < upper then (b.listPush n upper).splitTo pfn n head
    else (b.listPush n head).splitTo pfn n upper

/-- The search of `reserve` over the orders in `orders`. -/
def reserveIn (b : BuddyAllocator) (pfn : Nat) : List Nat → BuddyAllocator
  | [] => {b with flags := update b.flags pfn (b.flags pfn ||| flagReserved)}
  | order::orders =>
    let head := pfn - pfn%2^order
    if b.isFree head ∧ b.order head = order then
      let b := (b.listRemove order head).splitTo pfn order head
      {b with
        flags := update b.flags pfn (flagReserved ||| flagAllocated)
        refcounts := update b.refcounts pfn 1
        freeFrames := b.freeFrames - 1}
    else b.reserveIn pfn orders

def reserve (addr : Nat) : BuddyAllocator × Bool :=
  if addr = 0 ∨ addr%pageSize ≠ 0 then (b,false)
  else
    let pfn := addr / pageSize
    if pfn ≥ b.maxPfn then (b,false)
    else if b.isAllocated pfn ∨ b.isReserved pfn then (b,true)
    else (b.reserveIn pfn (List.range maxOrder),true)

variable (pfn : Nat)

def refcount : Nat := if pfn < b.maxPfn then b.refcounts pfn else 0

def refInc : BuddyAllocator :=
  if pfn < b.maxPfn then
    {b with refcounts := update b.refcounts pfn (min (b.refcounts pfn+1) 65535)}
  else b

def refDec : BuddyAllocator × Nat :=
  if pfn < b.maxPfn then
    let newRef := b.refcounts pfn - 1
    ({b with refcounts := update b.refcounts pfn newRef},newRef)
  else (b,0)

def frameRefInc (frame : Nat) : BuddyAllocator := b.refInc (frame/pageSize)

def frameRefDec (frame : Nat) : BuddyAllocator × Nat := b.refDec (frame/pageSize)

end BuddyAllocator
end Vanta.Memory
