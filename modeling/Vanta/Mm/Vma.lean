import Vanta.Library.OrdMap
import Vanta.Memory.Buddy

namespace Vanta.Mm
open Library Memory

abbrev VmaFlags := BitVec 32

def vmaRead : VmaFlags := 1#32 <<< 0
def vmaWrite : VmaFlags := 1#32 <<< 1
def vmaExec : VmaFlags := 1#32 <<< 2
def vmaShared : VmaFlags := 1#32 <<< 3
def vmaAnonymous : VmaFlags := 1#32 <<< 4
def vmaGrowsdown : VmaFlags := 1#32 <<< 5
def vmaStack : VmaFlags := 1#32 <<< 6

def grants (flags other : VmaFlags) : Bool := flags &&& other == other

inductive VmaBacking where
  | anonymous
  | fileBacked (mountId inode offset fileSize : Nat) (shared : Bool)
  | deviceMmio (physAddr : Nat)
  deriving DecidableEq

structure Vma where
  start : Nat
  /-- Exclusive. -/
  stop : Nat
  flags : VmaFlags
  backing : VmaBacking

def Vma.contains (v : Vma) (addr : Nat) : Bool := decide (v.start ≤ addr) && decide (addr < v.stop)

structure ProcessMemoryMap where
  /-- Keyed by start address. -/
  vmas : OrdMap Nat Vma
  stackBottom : Nat
  stackTop : Nat
  dynamicMappings : List Nat

/-- The backing of what is left of an area after `skipped` bytes. -/
def VmaBacking.advance (skipped : Nat) : VmaBacking → VmaBacking
  | .anonymous => .anonymous
  | .fileBacked mountId inode offset fileSize shared =>
    .fileBacked mountId inode ((offset+skipped)%2^64) fileSize shared
  | .deviceMmio physAddr => .deviceMmio ((physAddr+skipped)%2^64)

namespace ProcessMemoryMap

def new (stackTop stackBottom : Nat) : ProcessMemoryMap := ⟨.empty,stackBottom,stackTop,[]⟩

variable (m : ProcessMemoryMap)
variable (addr : Nat)

def findVma : Option Vma :=
  match m.vmas.floor addr with
  | none => none
  | some (_,vma) => if vma.contains addr then some vma else none

variable (start stop : Nat)

/-- An area that starts below `stop` and ends above `start`, the last one that does start there. -/
def overlapsBelow : Bool :=
  match m.vmas.below stop with
  | none => false
  | some (_,prev) => decide (prev.stop > start)

def insertVma (flags : VmaFlags) (backing : VmaBacking) : Option ProcessMemoryMap :=
  if start ≥ stop ∨ start%pageSize ≠ 0 ∨ stop%pageSize ≠ 0 then none
  else if m.overlapsBelow start stop then none
  else some {m with vmas := m.vmas.insert start ⟨start,stop,flags,backing⟩}

def affected : List Vma :=
  (m.vmas.entries.filter (fun e => decide (e.1 < stop) && decide (e.2.stop > start))).map (·.2)

/-- The map with the areas of the range taken out and the `pieces` of each put back. -/
def rebuild (pieces : Vma → List Vma) : ProcessMemoryMap :=
  let keys := (m.vmas.entries.filter (fun e => decide (e.1 < stop) && decide (e.2.stop > start))).map (·.1)
  let vmas := keys.foldl OrdMap.erase m.vmas
  {m with vmas := ((m.affected start stop).flatMap pieces).foldl (fun m v => m.insert v.start v) vmas}

def removePieces (v : Vma) : List Vma :=
  (if v.start < start then [⟨v.start,start,v.flags,v.backing⟩] else []) ++
    (if v.stop > stop then [⟨stop,v.stop,v.flags,v.backing.advance (stop-v.start)⟩] else [])

def removeVmaRange : ProcessMemoryMap := m.rebuild start stop (removePieces start stop)

def protectFlags (old new : VmaFlags) : VmaFlags :=
  (old &&& ~~~(vmaRead ||| vmaWrite ||| vmaExec)) ||| new

def protectPieces (flags : VmaFlags) (v : Vma) : List Vma :=
  (if v.start < start then [⟨v.start,start,v.flags,v.backing⟩] else [])++(if max v.start start < min v.stop stop then
      [⟨max v.start start,min v.stop stop,protectFlags v.flags flags,v.backing⟩] else []) ++
    (if v.stop > stop then [⟨stop,v.stop,v.flags,v.backing⟩] else [])

def protectVmaRange (flags : VmaFlags) : ProcessMemoryMap := m.rebuild start stop (protectPieces start stop flags)

def findStackVma : Option (Nat × Vma) := m.vmas.entries.find? (fun e => grants e.2.flags vmaStack)

def canGrowStack : Bool :=
  if addr ≥ m.stackTop ∨ addr < m.stackBottom then false
  else
    match m.findStackVma with
    | none => false
    | some (_,stack) =>
      if addr < stack.start ∧ addr ≥ m.stackBottom then
        match m.vmas.below stack.start with
        | none => true
        | some (_,prev) => !decide (addr < prev.stop)
      else false

def growStackTo : Option ProcessMemoryMap :=
  let newStart := alignDown addr
  if newStart < m.stackBottom then none
  else
    match m.findStackVma with
    | none => none
    | some (key,stack) =>
      if newStart ≥ stack.start then some m
      else
        let rest := m.vmas.erase key
        match rest.below stack.start with
        | none => some {m with vmas := rest.insert newStart {stack with start := newStart}}
        | some (_,prev) =>
          if newStart < prev.stop then none
          else some {m with vmas := rest.insert newStart {stack with start := newStart}}

end ProcessMemoryMap
end Vanta.Mm
