import Vanta.Mm.FlushFidelity

namespace Vanta.Mm
open Library Memory Fs List

/-- `cache` stands for the calls that use the page cache: the `_at` calls, descriptors, truncations and flushes. -/
inductive FileCall where
  | cache (op : CacheOp)
  | readRoot (mountId ino : Nat)
  | writeRoot (mountId ino : Nat) (data : List UInt8)
  | linuxTruncate (mountId ino length : Nat)
  | statCurrent (mountId ino : Nat)
  | inodeSize (mountId ino : Nat)
  | openAppend (mountId ino : Nat)

inductive FileAnswer where
  | cache (r : CacheResult)
  | data (bytes : List UInt8)
  | size (n : Nat)
  | done
  deriving DecidableEq

namespace Kernel
variable (k : Kernel)
variable (mountId ino : Nat)

def readRoot : List UInt8 := (k.files (mountId,ino)).read 0 (k.files (mountId,ino)).size

def writeRoot (data : List UInt8) : Kernel :=
  {k with files := Function.update k.files (mountId,ino) (((k.files (mountId,ino)).truncate 0).write 0 data)}

def resize (contents : List UInt8) (length : Nat) : List UInt8 :=
  contents.take length++List.replicate (length-contents.length) 0

def linuxTruncate (mountId ino length : Nat) : Kernel :=
  k.writeRoot mountId ino (resize (k.readRoot mountId ino) length)

def statCurrent : Nat :=
  max ((k.cache.fileSizes (mountId,ino)).getD (k.files (mountId,ino)).size) (k.files (mountId,ino)).size

/-- The size that `seek_current` takes for the end of the file, and that `file_info_path` gives. -/
def inodeSize : Nat := (k.files (mountId,ino)).size

/-- The offset at which `open_path` starts to append. -/
def openAppend : Nat := (k.cache.fileSizes (mountId,ino)).getD (k.files (mountId,ino)).size

def fileCall : FileCall → Kernel × FileAnswer
  | .cache op => ((k.cacheStep op).1,.cache (k.cacheStep op).2)
  | .readRoot mountId ino => (k,.data (k.readRoot mountId ino))
  | .writeRoot mountId ino data => (k.writeRoot mountId ino data,.done)
  | .linuxTruncate mountId ino length => (k.linuxTruncate mountId ino length,.done)
  | .statCurrent mountId ino => (k,.size (k.statCurrent mountId ino))
  | .inodeSize mountId ino => (k,.size (k.inodeSize mountId ino))
  | .openAppend mountId ino => (k,.size (k.openAppend mountId ino))

def fileCalls (k : Kernel) : List FileCall → List FileAnswer
  | [] => []
  | call::calls => (k.fileCall call).2::(k.fileCall call).1.fileCalls calls

end Kernel

def arrayCall (a : Nat × Nat → ByteFile) : FileCall → (Nat × Nat → ByteFile) × FileAnswer
  | .cache op => ((fileStep a op).1,.cache (fileStep a op).2)
  | .readRoot mountId ino => (a,.data ((a (mountId,ino)).read 0 (a (mountId,ino)).size))
  | .writeRoot mountId ino data =>
    (Kernel.setFile a (mountId,ino) (((a (mountId,ino)).truncate 0).write 0 data),.done)
  | .linuxTruncate mountId ino length => (Kernel.setFile a (mountId,ino) ((a (mountId,ino)).truncate length),.done)
  | .statCurrent mountId ino | .inodeSize mountId ino | .openAppend mountId ino =>
    (a,.size (a (mountId,ino)).size)

def arrayCalls (a : Nat × Nat → ByteFile) : List FileCall → List FileAnswer
  | [] => []
  | call::calls => (arrayCall a call).2::arrayCalls (arrayCall a call).1 calls

namespace Kernel
variable (k : Kernel)

def SizeOnDisk (mountId ino : Nat) : Prop := k.currentSize mountId ino = (k.files (mountId,ino)).size

/-- The cache has nothing of the file, except possibly the size that it is about to get. -/
def Uncached (mountId ino size : Nat) : Prop :=
  k.keysFrom mountId ino 0 = [] ∧ (k.cache.fileSizes (mountId,ino)).getD size = size

def Direct : FileCall → Prop
  | .cache op => op.Fits ∧ op.Supplied k
  | .readRoot mountId ino => k.dirtyPages mountId ino = [] ∧ k.SizeOnDisk mountId ino
  | .writeRoot mountId ino data => k.Uncached mountId ino data.length
  | .linuxTruncate mountId ino length => k.SizeOnDisk mountId ino ∧ k.Uncached mountId ino length
  | .statCurrent mountId ino => (k.files (mountId,ino)).size ≤ k.currentSize mountId ino
  | .inodeSize mountId ino => k.SizeOnDisk mountId ino
  | .openAppend _ _ => True

instance (k : Kernel) : (call : FileCall) → Decidable (k.Direct call)
  | .cache op => inferInstanceAs (Decidable (op.Fits ∧ op.Supplied k))
  | .readRoot mountId ino => inferInstanceAs (Decidable (k.dirtyPages mountId ino = [] ∧
      k.currentSize mountId ino = (k.files (mountId,ino)).size))
  | .writeRoot mountId ino data => inferInstanceAs (Decidable (k.keysFrom mountId ino 0 = [] ∧
      (k.cache.fileSizes (mountId,ino)).getD data.length = data.length))
  | .linuxTruncate mountId ino length => inferInstanceAs (Decidable (
      k.currentSize mountId ino = (k.files (mountId,ino)).size ∧ k.keysFrom mountId ino 0 = [] ∧
      (k.cache.fileSizes (mountId,ino)).getD length = length))
  | .statCurrent mountId ino =>
    inferInstanceAs (Decidable ((k.files (mountId,ino)).size ≤ k.currentSize mountId ino))
  | .inodeSize mountId ino =>
    inferInstanceAs (Decidable (k.currentSize mountId ino = (k.files (mountId,ino)).size))
  | .openAppend _ _ => inferInstanceAs (Decidable True)

def DirectRun (k : Kernel) : List FileCall → Prop
  | [] => True
  | call::calls => k.Direct call ∧ (k.fileCall call).1.DirectRun calls

instance DirectRun.decidable (k : Kernel) : (calls : List FileCall) → Decidable (k.DirectRun calls)
  | [] => inferInstanceAs (Decidable True)
  | call::calls =>
    have := DirectRun.decidable (k.fileCall call).1 calls
    inferInstanceAs (Decidable (k.Direct call ∧ (k.fileCall call).1.DirectRun calls))

section
variable {c : Scope} {k : Kernel} {hand : List Nat} {a : Nat × Nat → ByteFile} {mountId ino : Nat}

lemma files_eq (ha : Coherent k a) (hc : k.dirtyPages mountId ino = []) (hs : k.SizeOnDisk mountId ino) :
    k.files (mountId,ino) = a (mountId,ino) := by
  refine ByteFile.ext ?_ (funext fun i => ?_)
  · rw [← hs,currentSize_eq ha]
  have hp := ha.contents.clean ⟨mountId,ino,i/pageSize⟩ (fun e he => by
    by_contra hd
    obtain ⟨frame,hm⟩ := dirtyPages_of_dirty ⟨e,he,by simpa using hd⟩
    simp [hc] at hm) (i%pageSize) (Nat.mod_lt _ (by decide))
  simpa [PageKey.inode,PageKey.offset,Nat.div_add_mod'] using hp

lemma dirtyPages_of_uncached {size : Nat} (h : k.Uncached mountId ino size) : k.dirtyPages mountId ino = [] := by
  refine eq_nil_iff_forall_not_mem.2 fun page hp => ?_
  obtain ⟨e,he,-⟩ := (mem_dirtyPages hp).2
  have hk : (⟨mountId,ino,page.1⟩ : PageKey) ∈ k.keysFrom mountId ino 0 :=
    mem_keysFrom.2 ⟨rfl,Nat.zero_le _,by simp [he]⟩
  simp [h.1] at hk

lemma writeRoot_owned (h : Owned c k hand) (data : List UInt8) : Owned c (k.writeRoot mountId ino data) hand :=
  h.congr rfl rfl (fun _ => rfl) h.tracked

lemma writeRoot_coherent (ha : Coherent k a) {data : List UInt8} (hu : k.Uncached mountId ino data.length) :
    Coherent (k.writeRoot mountId ino data) (setFile a (mountId,ino) (((a (mountId,ino)).truncate 0).write 0 data)) := by
  simp only [writeRoot,setFile,ByteFile.truncate_zero]
  have ho {key : PageKey} {e : PageEntry} (he : k.cache.entries.get key = some e) : key.inode ≠ (mountId,ino) := by
    intro hin
    have hke : key ∈ k.keysFrom mountId ino 0 := mem_keysFrom.2 ⟨hin,Nat.zero_le _,by simp [he]⟩
    simp [hu.1] at hke
  refine ⟨⟨fun key e he i hi => ?_,fun key hc i hi => ?_,ha.contents.alone⟩,fun inode size hs => ?_,
    fun inode hs => ?_,ha.dirty⟩
  · simpa [ho he] using ha.contents.cached key e he i hi
  · by_cases hin : key.inode = (mountId,ino)
    · simp [hin]
    · simpa [hin] using ha.contents.clean key hc i hi
  · by_cases hin : inode = (mountId,ino)
    · subst hin
      have hk : k.cache.fileSizes (mountId,ino) = some size := hs
      have hsi : size = data.length := by simpa [hk] using hu.2
      simpa using hsi
    · simpa [hin] using ha.known inode size hs
  · by_cases hin : inode = (mountId,ino)
    · simp [hin]
    · simpa [hin] using ha.unknown inode hs

@[simp] lemma resize_length (contents : List UInt8) (length : Nat) : (resize contents length).length = length := by
  simp only [resize,length_append,length_take,length_replicate]
  omega

lemma write_resize (file : ByteFile) (length : Nat) :
    ByteFile.empty.write 0 (resize (file.read 0 file.size) length) = file.truncate length := by
  refine ByteFile.ext (by simp [ByteFile.truncate]) (funext fun i => ?_)
  rw [ByteFile.write_empty_byte]
  by_cases hi : i < length
  · have hg : (resize (file.read 0 file.size) length).getD i 0 = (file.read 0 file.size).getD i 0 := by
      simp only [resize,getD_eq_getElem?_getD,List.getElem?_append,List.getElem?_take,length_take,
        List.getElem?_replicate]
      split_ifs <;> simp_all
    rw [hg,ByteFile.getD_read]
    by_cases hs : i < file.size
    · simp [ByteFile.truncate,hi,hs]
    · simp [ByteFile.truncate,hi,hs,file.zero i (by omega)]
  · simp [ByteFile.truncate,hi,getD_eq_getElem?_getD]

lemma linuxTruncate_coherent (ha : Coherent k a) {length : Nat} (hs : k.SizeOnDisk mountId ino)
    (hu : k.Uncached mountId ino length) : Coherent (k.linuxTruncate mountId ino length)
      (setFile a (mountId,ino) ((a (mountId,ino)).truncate length)) := by
  have hf := files_eq ha (dirtyPages_of_uncached hu) hs
  have hw := @writeRoot_coherent k a mountId ino ha (resize (k.readRoot mountId ino) length) (by simpa using hu)
  have hr : ByteFile.empty.write 0 (resize (k.readRoot mountId ino) length) = (a (mountId,ino)).truncate length := by
    rw [readRoot,hf,write_resize]
  rwa [ByteFile.truncate_zero,hr] at hw

lemma fileCall_refines (h : Owned c k hand) (ha : Coherent k a) {call : FileCall} (hca : k.Direct call) :
    (k.fileCall call).2 = (arrayCall a call).2 ∧ Owned c (k.fileCall call).1 hand ∧
      Coherent (k.fileCall call).1 (arrayCall a call).1 := by
  cases call with
  | cache op =>
    obtain ⟨hr,hc⟩ := cacheStep_refines h ha hca.1 hca.2
    exact ⟨congrArg FileAnswer.cache hr,cacheStep_owned h op,hc⟩
  | readRoot mountId ino =>
    exact ⟨by simp [fileCall,arrayCall,readRoot,files_eq ha hca.1 hca.2],h,ha⟩
  | writeRoot mountId ino data => exact ⟨rfl,writeRoot_owned h data,writeRoot_coherent ha hca⟩
  | linuxTruncate mountId ino length =>
    exact ⟨rfl,writeRoot_owned h _,linuxTruncate_coherent ha hca.1 hca.2⟩
  | statCurrent mountId ino =>
    refine ⟨?_,h,ha⟩
    have hm : k.statCurrent mountId ino = k.currentSize mountId ino := by
      simp only [Direct] at hca
      unfold statCurrent currentSize at *
      cases hs : k.cache.fileSizes (mountId,ino) with
      | none => simp
      | some size => simpa [hs] using hca
    simp [fileCall,arrayCall,hm,currentSize_eq ha]
  | inodeSize mountId ino =>
    refine ⟨?_,h,ha⟩
    have hsi : k.currentSize mountId ino = k.inodeSize mountId ino := hca
    simp [fileCall,arrayCall,← hsi,currentSize_eq ha]
  | openAppend mountId ino =>
    refine ⟨?_,h,ha⟩
    have hsi : k.openAppend mountId ino = k.currentSize mountId ino := by
      unfold openAppend currentSize
      cases k.cache.fileSizes (mountId,ino) <;> rfl
    simp [fileCall,arrayCall,hsi,currentSize_eq ha]

lemma fileCalls_refine (calls : List FileCall) (h : Owned c k hand) (ha : Coherent k a) (hru : k.DirectRun calls) :
    k.fileCalls calls = arrayCalls a calls := by
  induction calls generalizing k a with
  | nil => rfl
  | cons call calls ih =>
    obtain ⟨hr,h',ha'⟩ := fileCall_refines h ha hru.1
    rw [fileCalls,arrayCalls,hr,ih h' ha' hru.2]

end

/-- Every read and size query answers what the byte arrays answer if calls past the cache are made only when it has
nothing newer. -/
theorem file_access_coherent (c : Scope) (k : Kernel) (howned : Owned c k []) (hcache : k.cache = .new)
    (calls : List FileCall) (hrun : k.DirectRun calls) : k.fileCalls calls = arrayCalls k.files calls :=
  fileCalls_refine calls howned (coherent_new hcache) hrun

theorem file_access_coherent_mixed : (boot 64 [(4096,200704)] 0 0 (fun _ => .empty) false).fileCalls
        [.writeRoot 0 2 [1,2,3],.linuxTruncate 0 2 2,.statCurrent 0 2,.cache (.read 0 2 0 9),.readRoot 0 2,
          .cache (.write 0 2 1 [7]),.openAppend 0 2,.statCurrent 0 2] = arrayCalls (fun _ => .empty)
        [.writeRoot 0 2 [1,2,3],.linuxTruncate 0 2 2,.statCurrent 0 2,.cache (.read 0 2 0 9),.readRoot 0 2,
          .cache (.write 0 2 1 [7]),.openAppend 0 2,.statCurrent 0 2] :=
  file_access_coherent ⟨fun _ => False,fun _ _ => False⟩ _
    ((boot_booted 64 (by decide) 0 0 _ false).owned (fun _ => id)) rfl _ (by decide +kernel)

/-- A whole read misses a cached write, a cached read a whole write and a truncation; the inode's size is old, then that
of whole pages. -/
theorem file_access_incoherent : ((boot 64 [(4096,200704)] 0 0 (fun _ => .empty) false).fileCalls
        [.cache (.write 0 2 0 [7]),.readRoot 0 2] = [.cache (.count (.ok 1)),.data []] ∧ arrayCalls (fun _ => .empty)
        [.cache (.write 0 2 0 [7]),.readRoot 0 2] = [.cache (.count (.ok 1)),.data [7]]) ∧
    ((boot 64 [(4096,200704)] 0 0 (fun _ => .empty) false).fileCalls
        [.writeRoot 0 2 [1],.cache (.read 0 2 0 9),.writeRoot 0 2 [5,6],.cache (.read 0 2 0 9)] =
        [.done,.cache (.bytes (.ok [1])),.done,.cache (.bytes (.ok [1]))] ∧ arrayCalls (fun _ => .empty)
        [.writeRoot 0 2 [1],.cache (.read 0 2 0 9),.writeRoot 0 2 [5,6],.cache (.read 0 2 0 9)] =
        [.done,.cache (.bytes (.ok [1])),.done,.cache (.bytes (.ok [5,6]))]) ∧
    ((boot 64 [(4096,200704)] 0 0 (fun _ => .empty) false).fileCalls
        [.cache (.write 0 2 0 [7,8]),.linuxTruncate 0 2 1,.cache (.read 0 2 0 9)] =
        [.cache (.count (.ok 2)),.done,.cache (.bytes (.ok [7,8]))] ∧ arrayCalls (fun _ => .empty)
        [.cache (.write 0 2 0 [7,8]),.linuxTruncate 0 2 1,.cache (.read 0 2 0 9)] =
        [.cache (.count (.ok 2)),.done,.cache (.bytes (.ok [7]))]) ∧
    ((boot 64 [(4096,200704)] 0 0 (fun _ => .empty) false).fileCalls
        [.cache (.write 0 2 0 [7]),.inodeSize 0 2,.cache (.flushInode 0 2),.statCurrent 0 2] =
        [.cache (.count (.ok 1)),.size 0,.cache .done,.size 4096] ∧ arrayCalls (fun _ => .empty)
        [.cache (.write 0 2 0 [7]),.inodeSize 0 2,.cache (.flushInode 0 2),.statCurrent 0 2] =
        [.cache (.count (.ok 1)),.size 1,.cache .done,.size 1]) := by
  refine ⟨?_,?_,?_,?_⟩ <;> decide +kernel

end Kernel
end Vanta.Mm
