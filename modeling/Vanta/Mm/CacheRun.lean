import Vanta.Mm.Boot
import Vanta.Mm.CacheFlush

namespace Vanta.Mm
open Library Memory Fs

inductive CacheOp where
  | read (mountId ino offset len : Nat)
  | write (mountId ino offset : Nat) (buf : List UInt8)
  | truncate (mountId ino size : Nat)
  | flushInode (mountId ino : Nat)
  | flushAll
  | evictCleanPages (maxCount : Nat)

inductive CacheResult where
  | bytes (r : Except VfsError (List UInt8))
  | count (r : Except VfsError Nat)
  | done
  deriving DecidableEq

namespace Kernel

def cacheStep (k : Kernel) : CacheOp → Kernel × CacheResult
  | .read mountId ino offset len =>
    let (k,r) := k.cacheRead mountId ino offset len
    (k,.bytes r)
  | .write mountId ino offset buf =>
    let (k,r) := k.cacheWrite mountId ino offset buf
    (k,.count r)
  | .truncate mountId ino size => (k.truncateBoth mountId ino size,.done)
  | .flushInode mountId ino => (k.flushInode mountId ino,.done)
  | .flushAll => (k.flushAll,.done)
  | .evictCleanPages maxCount => (k.evictCleanPages maxCount,.done)

def cacheRun (k : Kernel) : List CacheOp → List CacheResult
  | [] => []
  | op::ops => (k.cacheStep op).2::(k.cacheStep op).1.cacheRun ops

end Kernel

def fileStep (a : Nat × Nat → ByteFile) : CacheOp → (Nat × Nat → ByteFile) × CacheResult
  | .read mountId ino offset len => (a,.bytes (.ok ((a (mountId,ino)).read offset len)))
  | .write mountId ino offset buf =>
    (Kernel.setFile a (mountId,ino) ((a (mountId,ino)).write offset buf),.count (.ok buf.length))
  | .truncate mountId ino size => (Kernel.setFile a (mountId,ino) ((a (mountId,ino)).truncate size),.done)
  | .flushInode _ _ => (a,.done)
  | .flushAll => (a,.done)
  | .evictCleanPages _ => (a,.done)

def fileRun (a : Nat × Nat → ByteFile) : List CacheOp → List CacheResult
  | [] => []
  | op::ops => (fileStep a op).2::fileRun (fileStep a op).1 ops

def CacheOp.Fits : CacheOp → Prop
  | .write _ _ offset buf => offset+buf.length < 2^64
  | .truncate _ _ size => size+(pageSize-1) < 2^64
  | _ => True

def CacheOp.Supplied (k : Kernel) : CacheOp → Prop
  | .read _ _ offset len => Kernel.maxReadahead*Kernel.pagesSpanned offset len ≤ k.frames.freeFrames
  | .write _ _ offset buf => Kernel.pagesSpanned offset buf.length ≤ k.frames.freeFrames
  | _ => True

instance : (op : CacheOp) → Decidable op.Fits
  | .write _ _ offset buf => inferInstanceAs (Decidable (offset+buf.length < 2^64))
  | .truncate _ _ size => inferInstanceAs (Decidable (size+(pageSize-1) < 2^64))
  | .read _ _ _ _ | .flushInode _ _ | .flushAll | .evictCleanPages _ => inferInstanceAs (Decidable True)

instance (k : Kernel) : (op : CacheOp) → Decidable (op.Supplied k)
  | .read _ _ offset len =>
    inferInstanceAs (Decidable (Kernel.maxReadahead*Kernel.pagesSpanned offset len ≤ k.frames.freeFrames))
  | .write _ _ offset buf => inferInstanceAs (Decidable (Kernel.pagesSpanned offset buf.length ≤ k.frames.freeFrames))
  | .truncate _ _ _ | .flushInode _ _ | .flushAll | .evictCleanPages _ => inferInstanceAs (Decidable True)

namespace Kernel

def SuppliedRun (k : Kernel) : List CacheOp → Prop
  | [] => True
  | op::ops => op.Supplied k ∧ (k.cacheStep op).1.SuppliedRun ops

instance SuppliedRun.decidable (k : Kernel) : (ops : List CacheOp) → Decidable (k.SuppliedRun ops)
  | [] => inferInstanceAs (Decidable True)
  | op::ops =>
    have := SuppliedRun.decidable (k.cacheStep op).1 ops
    inferInstanceAs (Decidable (op.Supplied k ∧ (k.cacheStep op).1.SuppliedRun ops))

section
variable {c : Scope} {k : Kernel} {hand : List Nat} {a : Nat × Nat → ByteFile}

lemma cacheStep_owned (h : Owned c k hand) (op : CacheOp) : Owned c (k.cacheStep op).1 hand := by
  cases op with
  | read mountId ino offset len =>
    exact (cacheRead_spec (a := fun _ => .empty) h (rfl : k.cacheRead mountId ino offset len = _)).1
  | write mountId ino offset buf =>
    exact (cacheWrite_spec (a := fun _ => .empty) h (rfl : k.cacheWrite mountId ino offset buf = _)).1
  | truncate mountId ino size =>
    exact (truncateBoth_spec (a := fun _ => .empty) mountId ino size h).1
  | flushInode mountId ino =>
    exact (flushInode_spec (a := fun _ => .empty) mountId ino h).1
  | flushAll =>
    exact (flushAll_spec (a := fun _ => .empty) h).1
  | evictCleanPages maxCount => exact (evictCleanPages_spec h maxCount).1

lemma cacheStep_refines (h : Owned c k hand) (ha : Coherent k a) {op : CacheOp} (hfi : op.Fits)
    (hs : op.Supplied k) : (k.cacheStep op).2 = (fileStep a op).2 ∧ Coherent (k.cacheStep op).1 (fileStep a op).1 := by
  cases op with
  | read mountId ino offset len =>
    obtain ⟨-,hre⟩ := cacheRead_spec h (rfl : k.cacheRead mountId ino offset len = _)
    obtain ⟨hc,hr⟩ := hre ha
    exact ⟨congrArg CacheResult.bytes (hr hs),hc⟩
  | write mountId ino offset buf =>
    obtain ⟨-,hw⟩ := cacheWrite_spec h (rfl : k.cacheWrite mountId ino offset buf = _)
    obtain ⟨hr,hc⟩ := hw ha hfi hs
    exact ⟨congrArg CacheResult.count hr,hc⟩
  | truncate mountId ino size =>
    obtain ⟨-,ht⟩ := truncateBoth_spec mountId ino size h
    exact ⟨rfl,ht ha hfi⟩
  | flushInode mountId ino =>
    obtain ⟨-,hf⟩ := flushInode_spec mountId ino h
    exact ⟨rfl,hf ha⟩
  | flushAll =>
    obtain ⟨-,hf⟩ := flushAll_spec h
    exact ⟨rfl,hf ha⟩
  | evictCleanPages maxCount =>
    obtain ⟨-,hq⟩ := evictCleanPages_spec h maxCount
    exact ⟨rfl,ha.quiet hq⟩

lemma cacheRun_refines (ops : List CacheOp) (h : Owned c k hand) (ha : Coherent k a) (hf : ∀ op ∈ ops, op.Fits)
    (hs : k.SuppliedRun ops) : k.cacheRun ops = fileRun a ops := by
  induction ops generalizing k a with
  | nil => rfl
  | cons op ops ih =>
    obtain ⟨hr,ha'⟩ := cacheStep_refines h ha (hf op (by simp)) hs.1
    rw [cacheRun,fileRun,hr,ih (cacheStep_owned h op) ha' (fun op' ho => hf op' (List.mem_cons_of_mem op ho))
      hs.2]

lemma coherent_new (hc : k.cache = .new) : Coherent k k.files := by
  have hn : ∀ key, k.cache.entries.get key = none := fun key => by
    rw [hc]
    rfl
  refine ⟨⟨fun key e he => ?_,fun key _ i _ => rfl,fun key e he => ?_⟩,fun inode size hs => ?_,fun inode _ => rfl,
    fun key hd => ?_⟩
  · rw [hn key] at he
    cases he
  · rw [hn key] at he
    cases he
  · rw [hc] at hs
    cases hs
  obtain ⟨e,he,-⟩ := hd
  rw [hn key] at he
  cases he

end

/-- From an empty cache, a run without overflow returns, with frames available, what it returns on the files as byte
arrays. -/
theorem page_cache_refines_files (c : Scope) (k : Kernel) (howned : Owned c k []) (hcache : k.cache = .new)
    (ops : List CacheOp) (hsupply : k.SuppliedRun ops) (hfit : ∀ op ∈ ops, op.Fits) :
    k.cacheRun ops = fileRun k.files ops :=
  cacheRun_refines ops howned (coherent_new hcache) hfit hsupply

theorem page_cache_refines_files_at_boundary : (boot 64 [(4096,200704)] 0 0 (fun _ => .empty) false).cacheRun
        [.write 0 2 4094 [1,2,3,4],.flushInode 0 2,.evictCleanPages 1,.read 0 2 4093 9,.truncate 0 2 4097,
          .write 0 2 4098 [5],.flushAll,.evictCleanPages 9,.read 0 2 4094 9] =
      fileRun (fun _ => .empty) [.write 0 2 4094 [1,2,3,4],.flushInode 0 2,.evictCleanPages 1,.read 0 2 4093 9,
        .truncate 0 2 4097,.write 0 2 4098 [5],.flushAll,.evictCleanPages 9,.read 0 2 4094 9] :=
  page_cache_refines_files ⟨fun _ => False,fun _ _ => False⟩ _
    ((boot_booted 64 (by decide) 0 0 _ false).owned (fun _ => id)) rfl _ (by decide +kernel) (by decide +kernel)

/-- A truncation to almost `2^64` bytes drops the dirty page of a file, and a write past `2^64` lands at its
start. -/
theorem page_cache_overflow_changes_bytes : (boot 64 [(4096,200704)] 0 0 (fun _ => .empty) false).SuppliedRun
        [.write 0 2 0 [7],.truncate 0 2 (2^64-1),.read 0 2 0 1] ∧
      (boot 64 [(4096,200704)] 0 0 (fun _ => .empty) false).cacheRun
        [.write 0 2 0 [7],.truncate 0 2 (2^64-1),.read 0 2 0 1] ≠
      fileRun (fun _ => .empty) [.write 0 2 0 [7],.truncate 0 2 (2^64-1),.read 0 2 0 1] ∧
      (boot 64 [(4096,200704)] 0 0 (fun _ => .empty) false).SuppliedRun [.write 0 2 (2^64-1) [7,8],.read 0 2 0 1] ∧
      (boot 64 [(4096,200704)] 0 0 (fun _ => .empty) false).cacheRun [.write 0 2 (2^64-1) [7,8],.read 0 2 0 1] ≠
      fileRun (fun _ => .empty) [.write 0 2 (2^64-1) [7,8],.read 0 2 0 1] := by
  decide +kernel

end Kernel
end Vanta.Mm
