import Mathlib.Data.List.Sort
import Mathlib.Data.Prod.Lex
import Vanta.Library.ByteFile
import Vanta.Mm.Entry
import Vanta.Mm.Vma

/-! The memory of the kernel. The direct map covers every frame, and disk transfers succeed. -/

namespace Vanta.Mm
open Library Memory

inductive MapError where
  | noHhdm
  | outOfMemory
  | unalignedAddress
  | alreadyMapped
  | hugePageConflict
  | activeAddressSpace
  | mappingsRemain
  | frameReleaseFailed
  deriving DecidableEq

structure PageKey where
  mountId : Nat
  ino : Nat
  pageIndex : Nat
  deriving DecidableEq

/-- Keys are ordered by mount, inode and page. -/
instance : LinearOrder PageKey :=
  LinearOrder.lift' (fun k => toLex (k.mountId,toLex (k.ino,k.pageIndex))) (by
    intro a b h
    cases a
    cases b
    simp_all)

structure PageEntry where
  frame : Nat
  dirty : Bool
  validBytes : Nat
  lruSeq : Nat

structure PageCache where
  entries : OrdMap PageKey PageEntry
  fileSizes : Nat × Nat → Option Nat
  nextSeq : Nat
  hits : Nat
  misses : Nat

def PageCache.new : PageCache := ⟨.empty,fun _ => none,1,0,0⟩

def maxSwapSlots : Nat := 16384
def maxTrackedPages : Nat := 512

/-- A page of an address space, which is named by the frame of its top table. -/
structure TrackedUserPage where
  space : Nat
  vaddr : Nat
  deriving DecidableEq

/-- The slots in use as a function of the slot number; the arrays have the lengths above. -/
structure SwapManager where
  bitmap : Nat → Bool
  usedSlots : Nat
  clockHand : Nat
  trackedPages : Nat → Option TrackedUserPage
  trackedCount : Nat

/-- The first of the `fuel` indices from `i` on that meets `p`. -/
def firstIndex (p : Nat → Bool) : Nat → Nat → Option Nat
  | 0, _ => none
  | fuel+1, i => if p i then some i else firstIndex p fuel (i+1)

namespace SwapManager

def new : SwapManager := ⟨fun _ => false,0,0,fun _ => none,0⟩

variable (m : SwapManager)

def allocSlot : SwapManager × Option Nat :=
  match firstIndex (fun i => !m.bitmap i) maxSwapSlots 0 with
  | none => (m,none)
  | some slot => ({m with bitmap := Function.update m.bitmap slot true, usedSlots := m.usedSlots+1},some slot)

def freeSlot (slot : Nat) : SwapManager :=
  if slot ≥ maxSwapSlots then m
  else if m.bitmap slot then
    {m with bitmap := Function.update m.bitmap slot false, usedSlots := m.usedSlots-1}
  else m

def trackPage (space vaddr : Nat) : SwapManager :=
  let page : TrackedUserPage := ⟨space,alignDown vaddr⟩
  match firstIndex (fun i => m.trackedPages i == some page) maxTrackedPages 0 with
  | some _ => m
  | none =>
    match firstIndex (fun i => (m.trackedPages i).isNone) maxTrackedPages 0 with
    | none => m
    | some i =>
      {m with trackedPages := Function.update m.trackedPages i (some page), trackedCount := m.trackedCount+1}

def dropTracked (i : Nat) : SwapManager :=
  {m with trackedPages := Function.update m.trackedPages i none, trackedCount := m.trackedCount-1}

def untrackPage (space vaddr : Nat) : SwapManager :=
  let page : TrackedUserPage := ⟨space,alignDown vaddr⟩
  match firstIndex (fun i => m.trackedPages i == some page) maxTrackedPages 0 with
  | some i => m.dropTracked i
  | none => m

end SwapManager

/-- A process without its descriptors; `registered` is for demand paging. -/
structure Process where
  brkStart : Nat
  brkCurrent : Nat
  mmapNext : Nat
  mappings : List Nat
  memoryMap : ProcessMemoryMap
  registered : Bool

structure Kernel where
  frames : BuddyAllocator
  /-- The bytes of a frame. -/
  mem : Nat → Nat → UInt8
  /-- The entries of a frame that is a page table. -/
  tables : Nat → Nat → Entry
  cr3 : Nat
  lowWatermark : Nat
  cache : PageCache
  /-- The files by mount and inode. -/
  files : Nat × Nat → ByteFile
  swap : SwapManager
  swapInitialized : Bool
  /-- The pages on the swap device, by slot. -/
  swapDisk : Nat → Nat → UInt8
  /-- The processes, by the top table of their address space. -/
  procs : Nat → Option Process

def userAddressLimit : Nat := 2^47

def upperIndices (va : Nat) : List Nat := [va/2^39%512,va/2^30%512,va/2^21%512]

def indexPt (va : Nat) : Nat := va/2^12%512

namespace Kernel
variable (k : Kernel)

def writeEntry (table index : Nat) (e : Entry) : Kernel :=
  {k with tables := Function.update k.tables table (Function.update (k.tables table) index e)}

def freeFrame (frame : Nat) : Kernel × Bool :=
  let (frames,freed) := k.frames.free (frame*pageSize)
  ({k with frames := frames},freed)

def walk (tables : Nat → Nat → Entry) : Nat → List Nat → Except MapError (Option Nat)
  | table, [] => .ok (some table)
  | table, index::rest =>
    let e := tables table index
    if !hasFlag e flagPresent then .ok none
    else if hasFlag e flagHugePage then .error .hugePageConflict
    else walk tables (frameOf e) rest

variable (space va : Nat)

def pteLocation : Except MapError (Option Nat) := walk k.tables space (upperIndices va)

def swapPageOut (space va slot : Nat) : Kernel × Except MapError Nat :=
  let page := alignDown va
  match k.pteLocation space page with
  | .error e => (k,.error e)
  | .ok none => (k,.error .noHhdm)
  | .ok (some table) =>
    let e := k.tables table (indexPt page)
    if !hasFlag e flagPresent then (k,.error .noHhdm)
    else
      let frame := frameOf e
      let k := {k with swapDisk := Function.update k.swapDisk slot (k.mem frame)}
      let perms := e &&& (mapWritable ||| mapUser ||| mapNoExecute)
      let k := k.writeEntry table (indexPt page) (slotBits slot ||| perms ||| mapSwapped)
      ((k.freeFrame frame).1,.ok frame)

def checkAndClearAccessed : Kernel × Except MapError (Option Bool) :=
  let page := alignDown va
  match k.pteLocation space page with
  | .error e => (k,.error e)
  | .ok none => (k,.ok none)
  | .ok (some table) =>
    let e := k.tables table (indexPt page)
    if !hasFlag e flagPresent then (k,.ok none)
    else if hasFlag e mapCow then (k,.ok (some true))
    else if hasFlag e flagAccessed then
      (k.writeEntry table (indexPt page) (e &&& ~~~flagAccessed),.ok (some true))
    else (k,.ok (some false))

/-- The scan of `evict_page_clock`, at most `fuel` turns of the clock hand, with `slot` taken. -/
def clockScan (slot : Nat) : Nat → Kernel → Kernel × Option Nat
  | 0, k => ({k with swap := k.swap.freeSlot slot},none)
  | fuel+1, k =>
    let index := k.swap.clockHand%maxTrackedPages
    let k := {k with swap := {k.swap with clockHand := (k.swap.clockHand+1)%maxTrackedPages}}
    match k.swap.trackedPages index with
    | none => clockScan slot fuel k
    | some target =>
      match k.checkAndClearAccessed target.space target.vaddr with
      | (k,.ok (some true)) => clockScan slot fuel k
      | (k,.ok (some false)) =>
        let k := {k with swap := k.swap.dropTracked index}
        match k.swapPageOut target.space target.vaddr slot with
        | (k,.ok _) => (k,some slot)
        | (k,.error _) => ({k with swap := k.swap.freeSlot slot},none)
      | (k,.ok none) => clockScan slot fuel {k with swap := k.swap.dropTracked index}
      | (k,.error _) => clockScan slot fuel {k with swap := k.swap.dropTracked index}

def evictPageClock : Kernel × Option Nat :=
  if !k.swapInitialized then (k,none)
  else if k.swap.trackedCount = 0 then (k,none)
  else
    match k.swap.allocSlot with
    | (_,none) => (k,none)
    | (swap,some slot) => clockScan slot (maxTrackedPages*2) {k with swap := swap}

def pageOut : Kernel × Option Nat :=
  match k.swap.allocSlot with
  | (_,none) => (k,none)
  | (swap,some slot) =>
    match {k with swap := swap}.swapPageOut space va slot with
    | (k,.ok _) => (k,some slot)
    | (k,.error _) => ({k with swap := k.swap.freeSlot slot},none)

def evictEntry (key : PageKey) : Kernel :=
  match k.cache.entries.get key with
  | none => k
  | some entry =>
    if entry.dirty then k
    else ({k with cache := {k.cache with entries := k.cache.entries.erase key}}.freeFrame entry.frame).1

def cleanKeys : List PageKey :=
  ((k.cache.entries.entries.filter (fun e => !e.2.dirty)).insertionSort
    (fun a b => a.2.lruSeq ≤ b.2.lruSeq)).map (·.1)

def evictCleanPages (maxCount : Nat) : Kernel := (k.cleanKeys.take maxCount).foldl evictEntry k

def reclaim : Kernel := (k.evictCleanPages 32).evictPageClock.1

def takeFrame : Kernel × Option Nat :=
  let (frames,addr) := k.frames.alloc
  ({k with frames := frames},addr.map (· / pageSize))

def allocFrame : Kernel × Option Nat :=
  let k := if k.lowWatermark > 0 ∧ k.frames.freeFrames ≤ k.lowWatermark then k.reclaim else k
  match k.takeFrame with
  | (k,some frame) => (k,some frame)
  | (k,none) => if k.lowWatermark > 0 then k.reclaim.takeFrame else (k,none)

end Kernel
end Vanta.Mm
