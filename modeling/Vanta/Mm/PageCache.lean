import Vanta.Fs.Vfs
import Vanta.Mm.Kernel

/-! The page cache. A file is a zero-extended byte array. -/

namespace Vanta.Mm
open Library Memory Fs Function
namespace Kernel
variable (k : Kernel)

def setFileSize (mountId ino size : Nat) : Kernel :=
  {k with cache := {k.cache with fileSizes := update k.cache.fileSizes (mountId,ino) (some size)}}

def currentSize (mountId ino : Nat) : Nat :=
  match k.cache.fileSizes (mountId,ino) with
  | some size => size
  | none => (k.files (mountId,ino)).size

def countHit : Kernel := {k with cache := {k.cache with hits := k.cache.hits+1}}
def countMiss : Kernel := {k with cache := {k.cache with misses := k.cache.misses+1}}

def modifyEntry (key : PageKey) (f : PageEntry → PageEntry) : Kernel :=
  {k with cache := {k.cache with entries := k.cache.entries.modify key f}}

def insertPage (key : PageKey) (frame : Nat) (dirty : Bool) (validBytes : Nat) : Kernel :=
  {k with cache := {k.cache with
      nextSeq := k.cache.nextSeq+1
      entries := k.cache.entries.insert key ⟨frame,dirty,validBytes,k.cache.nextSeq+1⟩}}

def fillFrame (frame : Nat) (bytes : List UInt8) : Kernel :=
  {k with mem := update k.mem frame (overlay (fun _ => 0) 0 bytes)}

def maxReadahead : Nat := 16

/-- The readahead loop of `read`: how many pages from `pageIndex` on to fetch, `n` of them so far. -/
def readaheadPages (k : Kernel) (mountId ino pageIndex total : Nat) : Nat → Nat → Nat
  | 0, n => n
  | fuel+1, n =>
    if n < maxReadahead ∧ pageIndex+n < total ∧ (k.cache.entries.get ⟨mountId,ino,pageIndex+n⟩).isNone then
      k.readaheadPages mountId ino pageIndex total fuel (n+1)
    else n

def allocBatch : Nat → Kernel → List Nat → Kernel × List Nat
  | 0, k, batch => (k,batch)
  | n+1, k, batch =>
    match k.allocFrame with
    | (k,none) => (k,batch)
    | (k,some frame) => allocBatch n k (batch++[frame])

/-- Distribute the bytes read from disk over the batch and insert its pages, from the `i`-th on. -/
def storeBatch (mountId ino pageIndex : Nat) (disk : List UInt8) : List Nat → Nat → Kernel → Kernel
  | [], _, k => k
  | frame::rest, i, k =>
    let bytes := (disk.drop (i*pageSize)).take pageSize
    storeBatch mountId ino pageIndex disk rest (i+1)
      ((k.fillFrame frame bytes).insertPage ⟨mountId,ino,pageIndex+i⟩ frame false bytes.length)

/-- The frame of a page that `read` needs, fetched with its readahead if it is not cached. -/
def readFrame (mountId ino size pageIndex : Nat) : Kernel × Except VfsError Nat :=
  let key : PageKey := ⟨mountId,ino,pageIndex⟩
  match k.cache.entries.get key with
  | some entry => ((k.modifyEntry key (fun e => {e with lruSeq := e.lruSeq+1})).countHit,.ok entry.frame)
  | none =>
    let k := k.countMiss
    let total := (size+(pageSize-1))%2^64 / pageSize
    let pages := k.readaheadPages mountId ino pageIndex total (maxReadahead-1) 1
    match allocBatch pages k [] with
    | (k,[]) => (k,.error .noSpace)
    | (k,frame::rest) =>
      let diskOffset := pageIndex*pageSize
      let count := min ((rest.length+1)*pageSize) (size-diskOffset)
      let disk := (k.files (mountId,ino)).read diskOffset count
      (storeBatch mountId ino pageIndex disk (frame::rest) 0 k,.ok frame)

/-- The loop of `read`; `out` is what has been copied. Each turn copies at least one byte. -/
def readLoop (mountId ino offset size toRead : Nat) : Nat → Kernel → List UInt8 → Kernel × Except VfsError (List UInt8)
  | 0, k, out => (k,.ok out)
  | fuel+1, k, out =>
    if out.length < toRead then
      let current := offset+out.length
      let pageOffset := current%pageSize
      let chunk := min (min (pageSize-pageOffset) (toRead-out.length)) (size-current)
      if chunk = 0 then (k,.ok out)
      else
        match k.readFrame mountId ino size (current/pageSize) with
        | (k,.error e) => (k,.error e)
        | (k,.ok frame) =>
          readLoop mountId ino offset size toRead fuel k (out++window (k.mem frame) pageOffset chunk)
    else (k,.ok out)

def cacheRead (mountId ino offset len : Nat) : Kernel × Except VfsError (List UInt8) :=
  if len = 0 then (k,.ok [])
  else
    let size := k.currentSize mountId ino
    let k := k.setFileSize mountId ino size
    if offset ≥ size then (k,.ok [])
    else
      let toRead := min len (size-offset)
      readLoop mountId ino offset size toRead toRead k []

/-- The frame of a page that `write` is going to store `chunk` bytes into at `pageOffset`. -/
def writeFrame (mountId ino initialSize pageIndex pageOffset chunk : Nat) : Kernel × Except VfsError Nat :=
  let key : PageKey := ⟨mountId,ino,pageIndex⟩
  match k.cache.entries.get key with
  | some entry =>
    ((k.modifyEntry key (fun e => {e with
        dirty := true
        validBytes := max e.validBytes (pageOffset+chunk)
        lruSeq := e.lruSeq+1})).countHit,.ok entry.frame)
  | none =>
    match k.countMiss.allocFrame with
    | (k,none) => (k,.error .noSpace)
    | (k,some frame) =>
      let isPartial := pageOffset > 0 ∨ chunk < pageSize
      let old := (k.files (mountId,ino)).read (pageIndex*pageSize) pageSize
      if isPartial ∧ pageIndex*pageSize < initialSize then
        ((k.fillFrame frame old).insertPage key frame true (max old.length (pageOffset+chunk)),.ok frame)
      else if isPartial then
        ((k.fillFrame frame []).insertPage key frame true (pageOffset+chunk),.ok frame)
      else (k.insertPage key frame true (pageOffset+chunk),.ok frame)

/-- The loop of `write`, with `written` bytes stored. Each turn stores at least one byte. -/
def writeLoop (mountId ino initialSize offset : Nat) (buf : List UInt8) :
    Nat → Kernel → Nat → Kernel × Except VfsError Nat
  | 0, k, written => (k,.ok written)
  | fuel+1, k, written =>
    if written < buf.length then
      let current := (offset+written)%2^64
      let pageOffset := current%pageSize
      let chunk := min (pageSize-pageOffset) (buf.length-written)
      match k.writeFrame mountId ino initialSize (current/pageSize) pageOffset chunk with
      | (k,.error e) => (k,.error e)
      | (k,.ok frame) =>
        let bytes := (buf.drop written).take chunk
        let k := {k with mem := update k.mem frame (overlay (k.mem frame) pageOffset bytes)}
        writeLoop mountId ino initialSize offset buf fuel k (written+chunk)
    else (k,.ok written)

def cacheWrite (mountId ino offset : Nat) (buf : List UInt8) : Kernel × Except VfsError Nat :=
  if buf = [] then (k,.ok 0)
  else
    let initialSize := k.currentSize mountId ino
    let newSize := max initialSize ((offset+buf.length)%2^64)
    match writeLoop mountId ino initialSize offset buf buf.length k 0 with
    | (k,.error e) => (k,.error e)
    | (k,.ok written) => (k.setFileSize mountId ino newSize,.ok written)

def getOrFetchFrame (mountId ino fileSize pageIndex : Nat) : Kernel × Option Nat :=
  let key : PageKey := ⟨mountId,ino,pageIndex⟩
  match k.cache.entries.get key with
  | some entry => ((k.modifyEntry key (fun e => {e with lruSeq := e.lruSeq+1})).countHit,some entry.frame)
  | none =>
    match k.countMiss.allocFrame with
    | (k,none) => (k,none)
    | (k,some frame) =>
      let diskOffset := pageIndex*pageSize
      let bytes := if diskOffset < fileSize then (k.files (mountId,ino)).read diskOffset pageSize else []
      ((k.fillFrame frame bytes).insertPage key frame false bytes.length,some frame)

def markDirty (mountId ino pageIndex : Nat) : Kernel :=
  k.modifyEntry ⟨mountId,ino,pageIndex⟩ (fun e => {e with dirty := true})

def batchPages : Nat := 16

/-- The number of pages in the run that starts at `start`, `n` of them so far. -/
def runLength (start : Nat) : List (Nat × Nat) → Nat → Nat
  | [], n => n
  | (page,_)::rest, n => if n < batchPages ∧ page = start+n then runLength start rest (n+1) else n

def markClean (k : Kernel) (mountId ino start : Nat) : Nat → Kernel
  | 0 => k
  | count+1 =>
    (k.markClean mountId ino start count).modifyEntry ⟨mountId,ino,start+count⟩ (fun e => {e with dirty := false})

def flushBatches (mountId ino : Nat) : Nat → List (Nat × Nat) → Kernel → Kernel
  | 0, _, k => k
  | _, [], k => k
  | fuel+1, (start,frame)::rest, k =>
    let count := runLength start ((start,frame)::rest) 0
    let batch := ((start,frame)::rest).take count
    let data := batch.flatMap (fun page => window (k.mem page.2) 0 pageSize)
    let file := (k.files (mountId,ino)).write (start*pageSize) data
    let k := {k with files := update k.files (mountId,ino) file}
    flushBatches mountId ino fuel (((start,frame)::rest).drop count) (k.markClean mountId ino start count)

def dirtyPages (mountId ino : Nat) : List (Nat × Nat) :=
  (k.cache.entries.entries.filter (fun e =>
    decide (e.1.mountId = mountId) && decide (e.1.ino = ino) && e.2.dirty)).map
      (fun e => (e.1.pageIndex,e.2.frame))

def truncateFile (mountId ino size : Nat) : Kernel :=
  {k with files := update k.files (mountId,ino) ((k.files (mountId,ino)).truncate size)}

def flushInode (mountId ino : Nat) : Kernel :=
  let k := match k.cache.fileSizes (mountId,ino) with
    | some size => k.truncateFile mountId ino size
    | none => k
  flushBatches mountId ino (k.dirtyPages mountId ino).length (k.dirtyPages mountId ino) k

def cachedInodes : List (Nat × Nat) :=
  k.cache.entries.entries.foldl (fun set e =>
    if (e.1.mountId,e.1.ino) ∈ set then set else set++[(e.1.mountId,e.1.ino)]) []

def flushAll : Kernel := k.cachedInodes.foldl (fun k inode => k.flushInode inode.1 inode.2) k

def removePage (key : PageKey) : Kernel :=
  match k.cache.entries.get key with
  | none => k
  | some entry =>
    ({k with cache := {k.cache with entries := k.cache.entries.erase key}}.freeFrame entry.frame).1

def keysFrom (mountId ino first : Nat) : List PageKey :=
  (k.cache.entries.entries.filter (fun e =>
    decide (e.1.mountId = mountId) && decide (e.1.ino = ino) && decide (first ≤ e.1.pageIndex))).map (·.1)

def zeroBoundary (mountId ino newSize : Nat) : Kernel :=
  let offset := newSize%pageSize
  let key : PageKey := ⟨mountId,ino,newSize/pageSize⟩
  if offset > 0 then
    match k.cache.entries.get key with
    | none => k
    | some entry =>
      let bytes := fun i => if offset ≤ i then 0 else k.mem entry.frame i
      {k with mem := update k.mem entry.frame bytes}.modifyEntry key
        (fun e => {e with validBytes := offset, dirty := true})
  else k

def cacheTruncate (mountId ino newSize : Nat) : Kernel :=
  let k := k.setFileSize mountId ino newSize
  let first := (newSize+(pageSize-1))%2^64 / pageSize
  let k := (k.keysFrom mountId ino first).foldl removePage k
  k.zeroBoundary mountId ino newSize

def truncateBoth (mountId ino newSize : Nat) : Kernel :=
  (k.cacheTruncate mountId ino newSize).truncateFile mountId ino newSize

end Kernel
end Vanta.Mm
