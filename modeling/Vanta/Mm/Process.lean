import Vanta.Mm.PageCache
import Vanta.Mm.Paging

/-! Processes, named by their address space. -/

namespace Vanta.Mm
open Library Memory

def userStackTop : Nat := 0x00007ffffffff000
def userStackPages : Nat := 16
def userStackStart : Nat := userStackTop-userStackPages*pageSize

def pteFlags (writable executable : Bool) : Entry :=
  mapUser ||| (if writable then mapWritable else 0) ||| (if executable then 0 else mapNoExecute)

/-- The rights of an area from the low bits of `prot`. -/
def protFlags (prot : Nat) : VmaFlags :=
  (if prot.testBit 0 then vmaRead else 0) ||| (if prot.testBit 1 then vmaWrite else 0) |||
    (if prot.testBit 2 then vmaExec else 0)

namespace Kernel

def memoryMap (k : Kernel) (space : Nat) : Option ProcessMemoryMap :=
  match k.procs space with
  | some p => if p.registered then some p.memoryMap else none
  | none => none

variable (k : Kernel)
variable (space : Nat)

def modifyProc (f : Process → Process) : Kernel :=
  {k with procs := Function.update k.procs space ((k.procs space).map f)}

def setMemoryMap (m : ProcessMemoryMap) : Kernel := k.modifyProc space (fun p => {p with memoryMap := m})

variable (space page : Nat)

def pushDynamic : Kernel :=
  k.modifyProc space (fun p => {p with
    memoryMap := {p.memoryMap with dynamicMappings := p.memoryMap.dynamicMappings++[page]}})

def demandZero (flags : Entry) : Kernel × Except Unit Bool :=
  match k.allocFrame with
  | (k,none) => (k,.error ())
  | (k,some frame) =>
    match (k.fillFrame frame []).map space page frame flags with
    | (k,.ok _) =>
      let k := k.pushDynamic space page
      ({k with swap := k.swap.trackPage space page},.ok true)
    | (k,.error _) => ((k.freeFrame frame).1,.error ())

def demandMap (space page frame : Nat) (flags : Entry) : Kernel × Except Unit Bool :=
  match k.map space page frame flags with
  | (k,.ok _) => (k.pushDynamic space page,.ok true)
  | (k,.error _) => (k,.error ())

def demandFile (vma : Vma) (mountId inode offset fileSize : Nat)
    (shared isWrite : Bool) : Kernel × Except Unit Bool :=
  let relOffset := page-vma.start+offset
  if relOffset ≥ 2^64 then (k,.error ())
  else
    let pageIndex := relOffset/pageSize
    match k.getOrFetchFrame mountId inode fileSize pageIndex with
    | (k,none) => (k,.error ())
    | (k,some pageFrame) =>
      if shared then
        let k := if isWrite then k.markDirty mountId inode pageIndex else k
        k.demandMap space page pageFrame (pteFlags (grants vma.flags vmaWrite) (grants vma.flags vmaExec))
      else if isWrite then
        match k.allocFrame with
        | (k,none) => (k,.error ())
        | (k,some cowFrame) =>
          (k.copyFrame pageFrame cowFrame).demandMap space page cowFrame
            (pteFlags (grants vma.flags vmaWrite) (grants vma.flags vmaExec))
      else k.demandMap space page pageFrame (pteFlags false (grants vma.flags vmaExec))

variable (space address : Nat)

def demandVma (m : ProcessMemoryMap) (isWrite : Bool) : Kernel × Except Unit Bool :=
  match m.findVma address with
  | none => (k,.ok false)
  | some vma =>
    if isWrite && !grants vma.flags vmaWrite then (k,.ok false)
    else
      match vma.backing with
      | .anonymous => k.demandZero space (alignDown address)
          (pteFlags (grants vma.flags vmaWrite) (grants vma.flags vmaExec))
      | .fileBacked mountId inode offset fileSize shared =>
        k.demandFile space (alignDown address) vma mountId inode offset fileSize shared isWrite
      | .deviceMmio _ => (k,.ok false)

def resolveDemandPage (isWrite : Bool) : Kernel × Except Unit Bool :=
  if address ≥ userAddressLimit then (k,.ok false)
  else
    match k.memoryMap space with
    | none => (k,.ok false)
    | some m =>
      match (if m.canGrowStack address then m.growStackTo address else none) with
      | some grown => (k.setMemoryMap space grown).demandZero space (alignDown address) (pteFlags true false)
      | none => k.demandVma space address m isWrite

def unmapPages (space : Nat) : Nat → Kernel → Nat → Kernel
  | 0, k, _ => k
  | pages+1, k, page =>
    let k := match k.unmap space page with
      | (k,.ok (some frame)) =>
        (k.freeFrame frame).1.modifyProc space (fun p => {p with mappings := p.mappings.erase page})
      | (k,_) => k
    unmapPages space pages k (page+pageSize)

def alignLength (length : Nat) : Option Nat :=
  if length+(pageSize-1) < 2^64 then some (alignDown (length+(pageSize-1))) else none

def removeRange (space start stop : Nat) : Kernel :=
  k.modifyProc space (fun p => {p with memoryMap := p.memoryMap.removeVmaRange start stop})

def munmap (space addr length : Nat) : Kernel × Except Unit Unit :=
  if addr%pageSize ≠ 0 ∨ length = 0 then (k,.error ())
  else
    match alignLength length with
    | none => (k,.error ())
    | some aligned =>
      let stop := (addr+aligned)%2^64
      ((unmapPages space ((stop-addr)/pageSize) k addr).removeRange space addr stop,.ok ())

/-- The search for a free region above `base`; every turn passes one area. -/
def findBase (m : ProcessMemoryMap) (aligned : Nat) : Nat → Nat → Option Nat
  | 0, _ => none
  | fuel+1, base =>
    let stop := base+aligned
    if stop ≥ 2^64 ∨ stop ≥ userStackStart then none
    else
      match m.vmas.below stop with
      | none => some base
      | some (_,prev) =>
        if prev.stop > base then findBase m aligned fuel (alignDown (prev.stop+(pageSize-1))) else some base

variable (m : ProcessMemoryMap)

def hintOk (addr aligned : Nat) : Bool :=
  decide (addr ≠ 0 ∧ addr%pageSize = 0 ∧ addr+aligned < 2^64 ∧ addr+aligned ≤ userStackStart) &&
    !m.overlapsBelow addr (addr+aligned)

/-- The base address that `mmap_backing` chooses, with what it unmaps on the way. -/
def mmapBase (p : Process) (addr aligned : Nat) (fixed : Bool) : Kernel × Except Unit Nat :=
  if fixed then
    if addr = 0 ∨ addr%pageSize ≠ 0 ∨ addr+aligned ≥ 2^64 ∨ addr+aligned ≥ userStackStart then (k,.error ())
    else
      ((unmapPages space (aligned/pageSize) k addr).removeRange space addr (addr+aligned),.ok addr)
  else if hintOk p.memoryMap addr aligned then (k,.ok addr)
  else
    match findBase p.memoryMap aligned (p.memoryMap.vmas.entries.length+1) p.mmapNext with
    | none => (k,.error ())
    | some base => (k.modifyProc space (fun p => {p with mmapNext := base+aligned}),.ok base)

def backingFlags : VmaBacking → VmaFlags
  | .anonymous => vmaAnonymous
  | .fileBacked _ _ _ _ shared => if shared then vmaShared else 0
  | .deviceMmio _ => 0

def mmapBacking (space addr length prot flags : Nat) (backing : VmaBacking) : Kernel × Except Unit Nat :=
  match k.procs space with
  | none => (k,.error ())
  | some p =>
    if length = 0 then (k,.error ())
    else
      match alignLength length with
      | none => (k,.error ())
      | some aligned =>
        match k.mmapBase space p addr aligned (flags.testBit 4) with
        | (k,.error _) => (k,.error ())
        | (k,.ok base) =>
          match k.procs space with
          | none => (k,.error ())
          | some p =>
            match p.memoryMap.insertVma base (base+aligned) (protFlags prot ||| backingFlags backing) backing with
            | none => (k,.error ())
            | some m => (k.setMemoryMap space m,.ok base)

def mprotect (space addr length prot : Nat) : Kernel × Bool :=
  if addr%pageSize ≠ 0 then (k,false)
  else if length = 0 then (k,true)
  else
    match alignLength length with
    | none => (k,false)
    | some aligned =>
      if addr+aligned ≥ 2^64 ∨ addr+aligned ≥ userAddressLimit then (k,false)
      else
        let k := match k.memoryMap space with
          | none => k
          | some m => k.setMemoryMap space (m.protectVmaRange addr (addr+aligned) (protFlags prot))
        match k.protect space addr (aligned/pageSize) (pteFlags (prot.testBit 1) (prot.testBit 2)) with
        | (k,.ok _) => (k,true)
        | (k,.error _) => (k,false)

structure PagePlan where
  virtualAddress : Nat
  writable : Bool
  executable : Bool

def loadPage (space va : Nat) (flags : Entry) : Kernel × Bool :=
  match k.allocFrame with
  | (k,none) => (k,false)
  | (k,some frame) =>
    match (k.fillFrame frame []).map space va frame flags with
    | (k,.error _) => ((k.freeFrame frame).1,false)
    | (k,.ok _) => (k.modifyProc space (fun p => {p with mappings := p.mappings++[va]}),true)

def brkLimit : Nat := 0x0000700000000000

/-- The loop of `brk` over `pages` pages from `page` on. -/
def growHeap (space : Nat) : Nat → Kernel → Nat → Kernel × Bool
  | 0, k, _ => (k,true)
  | pages+1, k, page =>
    match k.loadPage space page (pteFlags true false) with
    | (k,false) => (k,false)
    | (k,true) => growHeap space pages k (page+pageSize)

def brk (space newBrk : Nat) : Kernel × Nat :=
  match k.procs space with
  | none => (k,0)
  | some p =>
    if newBrk = 0 ∨ newBrk < p.brkStart ∨ newBrk ≥ brkLimit then (k,p.brkCurrent)
    else
      let currentPage := alignUp p.brkCurrent
      match growHeap space ((alignUp newBrk-currentPage)/pageSize) k currentPage with
      | (k,false) => (k,p.brkCurrent)
      | (k,true) => (k.modifyProc space (fun p => {p with brkCurrent := newBrk}),newBrk)

def addVma (start stop : Nat) (flags : VmaFlags) : ProcessMemoryMap :=
  (m.insertVma start stop flags .anonymous).getD m

variable (plans : List PagePlan)

def planVmas (m : ProcessMemoryMap) : ProcessMemoryMap :=
  plans.foldl (fun m plan => addVma m plan.virtualAddress (plan.virtualAddress+pageSize)
    (vmaRead ||| (if plan.writable then vmaWrite else 0) ||| (if plan.executable then vmaExec else 0))) m

end Kernel

inductive AccessKind where
  | read
  | write
  | execute
  deriving DecidableEq

def permits (kind : AccessKind) (e : Entry) : Bool :=
  hasFlag e mapUser && (match kind with
    | .read => true
    | .write => hasFlag e mapWritable
    | .execute => !hasFlag e mapNoExecute)

inductive FaultOutcome where
  | resolved
  | segv
  | panic
  deriving DecidableEq

inductive AccessResult where
  | done (byte : UInt8)
  | segv
  | panic
  | stuck
  deriving DecidableEq

namespace Kernel

def pathEntries (tables : Nat → Nat → Entry) : Nat → List Nat → Option (List Entry)
  | _, [] => some []
  | table, index::rest =>
    let e := tables table index
    if hasFlag e flagPresent then (pathEntries tables (frameOf e) rest).map (e::·) else none

variable (k : Kernel)

/-- `vanta_page_fault_dispatch` for a user access; `present` is the protection-violation bit. -/
def pageFault (space va : Nat) (isWrite present : Bool) : Kernel × FaultOutcome :=
  match (if isWrite then k.resolveCowPage space va else (k,.ok false)) with
  | (k,.ok true) => (k,.resolved)
  | (k,.error _) => (k,.panic)
  | (k,.ok false) =>
    if present then (k,.segv)
    else
      match k.resolveSwappedPage space va with
      | (k,.ok true) => (k,.resolved)
      | (k,_) =>
        if va < userAddressLimit then
          match k.resolveDemandPage space va isWrite with
          | (k,.ok true) => (k,.resolved)
          | (k,_) => (k,.segv)
        else (k,.segv)

/-- The access itself, once the processor lets it pass: it marks the leaf entry `e` in `table`. -/
def perform (table va : Nat) (kind : AccessKind) (value : UInt8) : Kernel × UInt8 :=
  let e := k.tables table (indexPt va)
  let frame := frameOf e
  match kind with
  | .write =>
    let k := k.writeEntry table (indexPt va) (e ||| flagAccessed ||| flagDirty)
    ({k with mem := Function.update k.mem frame (Function.update (k.mem frame) (va%pageSize) value)},value)
  | _ => (k.writeEntry table (indexPt va) (e ||| flagAccessed),k.mem frame (va%pageSize))

/-- A user access of one byte, retried after each fault that was resolved, at most `fuel` times. -/
def accessLoop (space va : Nat) (kind : AccessKind) (value : UInt8) : Nat → Kernel → Kernel × AccessResult
  | 0, k => (k,.stuck)
  | fuel+1, k =>
    let entries := pathEntries k.tables space (upperIndices va++[indexPt va])
    match entries,k.pteLocation space va with
    | some path,.ok (some table) =>
      if path.all (permits kind) then
        let (k,byte) := k.perform table va kind value
        (k,.done byte)
      else
        match k.pageFault space va (kind == .write) true with
        | (k,.resolved) => accessLoop space va kind value fuel k
        | (k,.segv) => (k,.segv)
        | (k,.panic) => (k,.panic)
    | _,_ =>
      match k.pageFault space va (kind == .write) false with
      | (k,.resolved) => accessLoop space va kind value fuel k
      | (k,.segv) => (k,.segv)
      | (k,.panic) => (k,.panic)

def access (space va : Nat) (kind : AccessKind) (value : UInt8) : Kernel × AccessResult :=
  accessLoop space va kind value 4 k

end Kernel
end Vanta.Mm
