import Vanta.Mm.Kernel

namespace Vanta.Mm
open Library Memory List
namespace Kernel
variable (k : Kernel)

def allocateTable : Kernel × Except MapError Nat :=
  match k.allocFrame with
  | (k,none) => (k,.error .outOfMemory)
  | (k,some frame) => ({k with tables := Function.update k.tables frame (fun _ => 0)},.ok frame)

def tableEntry (frame : Nat) (user : Bool) : Entry :=
  frameBits frame ||| (if user then flagPresent ||| mapWritable ||| mapUser else flagPresent ||| mapWritable)

/-- `pte_location` with `create`, from `table` on. -/
def makePath (user : Bool) : List Nat → Kernel → Nat → Kernel × Except MapError Nat
  | [], k, table => (k,.ok table)
  | index::rest, k, table =>
    let e := k.tables table index
    if !hasFlag e flagPresent then
      match k.allocateTable with
      | (k,.error e) => (k,.error e)
      | (k,.ok new) => makePath user rest (k.writeEntry table index (tableEntry new user)) new
    else if hasFlag e flagHugePage then (k,.error .hugePageConflict)
    else makePath user rest k (frameOf e)

def map (space va frame : Nat) (flags : Entry) : Kernel × Except MapError Unit :=
  if va%pageSize ≠ 0 then (k,.error .unalignedAddress)
  else
    match makePath (hasFlag flags mapUser) (upperIndices va) k space with
    | (k,.error e) => (k,.error e)
    | (k,.ok table) =>
      if hasFlag (k.tables table (indexPt va)) flagPresent then (k,.error .alreadyMapped)
      else (k.writeEntry table (indexPt va) (frameBits frame ||| flags ||| flagPresent),.ok ())

variable (space va : Nat)

def unmap : Kernel × Except MapError (Option Nat) :=
  if va%pageSize ≠ 0 then (k,.error .unalignedAddress)
  else
    match k.pteLocation space va with
    | .error e => (k,.error e)
    | .ok none => (k,.ok none)
    | .ok (some table) =>
      let e := k.tables table (indexPt va)
      if !hasFlag e flagPresent then
        if hasFlag e mapSwapped then
          ({k with swap := k.swap.freeSlot (slotOf e)}.writeEntry table (indexPt va) 0,.ok none)
        else (k,.ok none)
      else (k.writeEntry table (indexPt va) 0,.ok (some (frameOf e)))

def protectPage (flags : Entry) : Kernel × Except MapError Unit :=
  match k.pteLocation space va with
  | .error e => (k,.error e)
  | .ok none => (k,.ok ())
  | .ok (some table) =>
    let e := k.tables table (indexPt va)
    if !hasFlag e flagPresent then (k,.ok ())
    else (k.writeEntry table (indexPt va) ((e &&& addressMask) ||| flags ||| flagPresent),.ok ())

/-- The loop of `protect`, over `pages` pages from `va` on. -/
def protectPages (space : Nat) (flags : Entry) : Nat → Kernel → Nat → Kernel × Except MapError Unit
  | 0, k, _ => (k,.ok ())
  | pages+1, k, va =>
    if va ≥ 2^64 then (k,.error .unalignedAddress)
    else
      match k.protectPage space va flags with
      | (k,.error e) => (k,.error e)
      | (k,.ok _) => protectPages space flags pages k (va+pageSize)

def protect (space va pages : Nat) (flags : Entry) : Kernel × Except MapError Unit :=
  if va%pageSize ≠ 0 then (k,.error .unalignedAddress) else protectPages space flags pages k va

def copyFrame (src dst : Nat) : Kernel := {k with mem := Function.update k.mem dst (k.mem src)}

def resolveCowPage : Kernel × Except MapError Bool :=
  let page := alignDown va
  match k.pteLocation space page with
  | .error e => (k,.error e)
  | .ok none => (k,.ok false)
  | .ok (some table) =>
    let e := k.tables table (indexPt page)
    if !hasFlag e flagPresent || !hasFlag e mapCow then (k,.ok false)
    else
      let old := frameOf e
      let flags := (flagsOf e &&& ~~~mapCow) ||| mapWritable
      if k.frames.refcount old ≤ 1 then
        (k.writeEntry table (indexPt page) ((e &&& addressMask) ||| flags),.ok true)
      else
        match k.allocFrame with
        | (k,none) => (k,.error .outOfMemory)
        | (k,some new) =>
          let k := k.copyFrame old new
          let k := (k.freeFrame old).1
          (k.writeEntry table (indexPt page) (frameBits new ||| flags),.ok true)

def resolveSwappedPage : Kernel × Except MapError Bool :=
  let page := alignDown va
  match k.pteLocation space page with
  | .error e => (k,.error e)
  | .ok none => (k,.ok false)
  | .ok (some table) =>
    let e := k.tables table (indexPt page)
    if hasFlag e flagPresent || !hasFlag e mapSwapped then (k,.ok false)
    else
      match k.allocFrame with
      | (k,none) => (k,.error .outOfMemory)
      | (k,some frame) =>
        let k := {k with mem := Function.update k.mem frame (k.swapDisk (slotOf e))}
        let flags := e &&& (mapWritable ||| mapUser ||| mapNoExecute)
        let k := k.writeEntry table (indexPt page) (frameBits frame ||| flags ||| flagPresent)
        ({k with swap := (k.swap.freeSlot (slotOf e)).trackPage space page},.ok true)

def createAddressSpace : Kernel × Except MapError Nat :=
  match k.allocateTable with
  | (k,.error e) => (k,.error e)
  | (k,.ok pml4) =>
    let half := fun i => if 256 ≤ i ∧ i < 512 then k.tables k.cr3 i else k.tables pml4 i
    ({k with tables := Function.update k.tables pml4 half},.ok pml4)

end Kernel
end Vanta.Mm
