import Vanta.Mm.CacheRun

namespace Vanta.Mm
open Library Memory Fs List
namespace Kernel

/-- The loop of `flush_inode` over a filesystem whose writes may fail: `fails j`
is the error of the `j`-th of the writes to come. -/
def flushBatchesTry (mountId ino : Nat) : (Nat → Option VfsError) → Nat → List (Nat × Nat) → Kernel →
    Kernel × Except VfsError Unit
  | _, 0, _, k => (k,.ok ())
  | _, _, [], k => (k,.ok ())
  | fails, fuel+1, (start,frame)::rest, k =>
    let count := runLength start ((start,frame)::rest) 0
    let batch := ((start,frame)::rest).take count
    let data := batch.flatMap (fun page => window (k.mem page.2) 0 pageSize)
    match fails 0 with
    | some e => (k,.error e)
    | none =>
      let file := (k.files (mountId,ino)).write (start*pageSize) data
      let k := {k with files := Function.update k.files (mountId,ino) file}
      flushBatchesTry mountId ino (fun j => fails (j+1)) fuel (((start,frame)::rest).drop count)
        (k.markClean mountId ino start count)

def flushStart (k : Kernel) (mountId ino : Nat) : Kernel :=
  match k.cache.fileSizes (mountId,ino) with
  | some size => k.truncateFile mountId ino size
  | none => k

def flushInodeTry (k : Kernel) (mountId ino : Nat) (fails : Nat → Option VfsError) (sync : Except VfsError Unit) :
    Kernel × Except VfsError Unit :=
  let k := k.flushStart mountId ino
  match flushBatchesTry mountId ino fails (k.dirtyPages mountId ino).length (k.dirtyPages mountId ino) k with
  | (k,.error e) => (k,.error e)
  | (k,.ok ()) => (k,sync)

section
variable {c : Scope} {k k' : Kernel} {hand : List Nat} {b : Nat × Nat → Nat → UInt8}
  {a : Nat × Nat → ByteFile} {mountId ino : Nat}

lemma flushBatchesTry_fuel (mountId ino : Nat) (fails : Nat → Option VfsError) (fuel : Nat) (pages : List (Nat × Nat)) (k : Kernel) :
    ∃ n, (flushBatchesTry mountId ino fails fuel pages k).1 = flushBatches mountId ino n pages k ∧
      ((flushBatchesTry mountId ino fails fuel pages k).2 = .ok () → n = fuel) := by
  induction fuel generalizing fails pages k with
  | zero => exact ⟨0,rfl,fun _ => rfl⟩
  | succ fuel ih =>
    cases pages with
    | nil => exact ⟨fuel+1,rfl,fun _ => rfl⟩
    | cons page rest =>
      obtain ⟨start,frame⟩ := page
      rw [flushBatchesTry]
      cases fails 0 with
      | some e => exact ⟨0,rfl,fun h => by cases h⟩
      | none =>
        obtain ⟨n,hr,ho⟩ := ih (fun j => fails (j+1)) _ _
        exact ⟨n+1,hr,fun h => congrArg Nat.succ (ho h)⟩

lemma markClean_files (k : Kernel) (mountId ino start count : Nat) :
    (k.markClean mountId ino start count).files = k.files := by
  induction count with
  | zero => rfl
  | succ count ih => exact ih

lemma markClean_get (k : Kernel) (mountId ino start count : Nat) (key : PageKey) :
    (k.markClean mountId ino start count).cache.entries.get key =
      if key.inode = (mountId,ino) ∧ start ≤ key.pageIndex ∧ key.pageIndex < start+count then
        (k.cache.entries.get key).map (fun e => {e with dirty := false})
      else k.cache.entries.get key := by
  induction count with
  | zero =>
    rw [if_neg (by omega)]
    rfl
  | succ count ih =>
    simp only [markClean,modifyEntry,OrdMap.get_modify]
    by_cases hk : key = ⟨mountId,ino,start+count⟩
    · subst hk
      rw [if_pos rfl,ih,if_neg (by simp),if_pos ⟨rfl,by simp,by simp⟩]
    rw [if_neg hk,ih]
    have hp : key.inode = (mountId,ino) → key.pageIndex ≠ start+count := by
      intro hi hin
      obtain ⟨mountId',ino',pageIndex⟩ := key
      simp_all [PageKey.inode]
    congr 1
    simp only [eq_iff_iff]
    constructor
    · rintro ⟨hi,hl,hlt⟩
      exact ⟨hi,hl,by omega⟩
    rintro ⟨hi,hl,hlt⟩
    have hn := hp hi
    exact ⟨hi,hl,by omega⟩

variable {key : PageKey} {fails : Nat → Option VfsError} {sync : Except VfsError Unit}

lemma markClean_dirty {start count : Nat} (h : (k.markClean mountId ino start count).Dirty key) :
    k.Dirty key ∧ ¬(key.inode = (mountId,ino) ∧ start ≤ key.pageIndex ∧ key.pageIndex < start+count) := by
  obtain ⟨e,he,hd⟩ := h
  rw [markClean_get] at he
  split_ifs at he with hi
  · obtain ⟨e',-,rfl⟩ := Option.map_eq_some_iff.1 he
    simp at hd
  · exact ⟨⟨e,he,hd⟩,hi⟩

lemma flushBatches_dirty (fuel : Nat) (pages : List (Nat × Nat))
    (h : (flushBatches mountId ino fuel pages k).Dirty key) : k.Dirty key := by
  induction fuel generalizing k pages with
  | zero => exact h
  | succ fuel ih =>
    cases pages with
    | nil => exact h
    | cons page rest => exact (markClean_dirty (ih _ h)).1

lemma runLength_pos (start frame : Nat) (rest : List (Nat × Nat)) : 0 < runLength start ((start,frame)::rest) 0 := by
  have hf : runLength start ((start,frame)::rest) 0 = runLength start rest 1 := by
    simp [runLength,batchPages]
  rw [hf]
  exact (runLength_spec start rest 1).1

lemma flushBatches_clean (fuel : Nat) (pages : List (Nat × Nat)) (hl : pages.length ≤ fuel) :
    ∀ page ∈ pages, ¬(flushBatches mountId ino fuel pages k).Dirty ⟨mountId,ino,page.1⟩ := by
  induction fuel generalizing k pages with
  | zero =>
    intro page hm
    rw [length_eq_zero_iff.1 (Nat.le_zero.1 hl)] at hm
    cases hm
  | succ fuel ih =>
    cases pages with
    | nil =>
      intro page hm
      cases hm
    | cons first rest =>
      obtain ⟨start,frame⟩ := first
      intro page hm hd
      have hpo := runLength_pos start frame rest
      obtain ⟨-,-,hr⟩ := runLength_spec start ((start,frame)::rest) 0
      rw [← take_append_drop (runLength start ((start,frame)::rest) 0) ((start,frame)::rest)] at hm
      rcases mem_append.1 hm with ht | hdr
      · obtain ⟨j,hj,rfl⟩ := mem_take_iff_getElem.1 ht
        obtain ⟨page,hp,hi⟩ := hr j (by omega)
        rw [List.getElem?_eq_getElem (by omega),Option.some.injEq] at hp
        refine (markClean_dirty (flushBatches_dirty _ _ hd)).2 ⟨rfl,?_,?_⟩
        · simp only [hp,hi]
          omega
        · simp only [hp,hi]
          omega
      · refine ih _ ?_ page hdr hd
        rw [length_drop]
        omega

lemma flushBatches_size (fuel : Nat) (pages : List (Nat × Nat))
    (hi : ∀ page ∈ pages, (page.1+1)*pageSize ≤ (k.files (mountId,ino)).size) :
    ((flushBatches mountId ino fuel pages k).files (mountId,ino)).size = (k.files (mountId,ino)).size := by
  induction fuel generalizing k pages with
  | zero => rfl
  | succ fuel ih =>
    cases pages with
    | nil => rfl
    | cons first rest =>
      obtain ⟨start,frame⟩ := first
      rw [flushBatches]
      set count := runLength start ((start,frame)::rest) 0 with hc
      obtain ⟨-,hle,hr⟩ := runLength_spec start ((start,frame)::rest) 0
      have hp : 0 < count := runLength_pos start frame rest
      obtain ⟨last,hl,hin⟩ := hr (count-1) (by omega)
      have he := hi last (mem_of_getElem? hl)
      have hst : start*pageSize+count*pageSize ≤ (k.files (mountId,ino)).size := by
        rw [← Nat.add_mul]
        rw [hin] at he
        have : start+(0+(count-1))+1 = start+count := by omega
        rwa [this] at he
      have hs : ((k.files (mountId,ino)).write (start*pageSize) ((((start,frame)::rest).take count).flatMap
          (fun page => window (k.mem page.2) 0 pageSize))).size = (k.files (mountId,ino)).size := by
        simp only [ByteFile.write,length_flatMap_window (fun page : Nat × Nat => k.mem page.2)]
        split
        · rfl
        have ht := length_take_le count ((start,frame)::rest)
        have := Nat.mul_le_mul_right pageSize ht
        omega
      rw [ih]
      · simp [markClean_files,hs]
      · intro page hm
        simpa [markClean_files,hs] using hi page (mem_of_mem_drop hm)

lemma dirtyPages_of_dirty {pageIndex : Nat} (h : k.Dirty ⟨mountId,ino,pageIndex⟩) :
    ∃ frame, (pageIndex,frame) ∈ k.dirtyPages mountId ino := by
  obtain ⟨e,he,hd⟩ := h
  refine ⟨e.frame,?_⟩
  simp only [dirtyPages,mem_map,mem_filter]
  exact ⟨(⟨mountId,ino,pageIndex⟩,e),⟨OrdMap.get_eq_some.1 he,by simp [hd]⟩,rfl⟩

lemma flushStart_cache (k : Kernel) (mountId ino : Nat) : (k.flushStart mountId ino).cache = k.cache := by
  unfold flushStart
  split <;> rfl

lemma flushStart_spec (h : Owned c k hand) (ha : Coherent k a) (mountId ino : Nat) :
    Owned c (k.flushStart mountId ino) hand ∧ Contents (k.flushStart mountId ino) (fun inode => (a inode).byte) ∧
      ((k.flushStart mountId ino).files (mountId,ino)).size = (a (mountId,ino)).size := by
  unfold flushStart
  split
  · next size hs =>
    obtain rfl := ha.known _ _ hs
    refine ⟨h.congr rfl rfl (fun _ => rfl) h.tracked,ha.contents.refile (fun i => ?_),by simp [truncateFile,ByteFile.truncate]⟩
    simp only [ByteFile.truncate]
    split_ifs with hi
    · exact .inl rfl
    · exact .inr ((a (mountId,ino)).zero i (by omega)).symm
  · next hs => exact ⟨h,ha.contents,ha.unknown _ hs⟩

lemma byte_of_clean (hb : Contents k b) (hc : ∀ pageIndex, ¬k.Dirty ⟨mountId,ino,pageIndex⟩) (i : Nat) :
    (k.files (mountId,ino)).byte i = b (mountId,ino) i := by
  have hp := hb.clean ⟨mountId,ino,i/pageSize⟩ (fun e he => by
    cases hd : e.dirty with
    | false => rfl
    | true => exact absurd ⟨e,he,hd⟩ (hc (i/pageSize))) (i%pageSize) (Nat.mod_lt i (by decide))
  simpa only [PageKey.offset,PageKey.inode,Nat.div_add_mod'] using hp

lemma byte_of_page_clean (hb : Contents k b) (hc : ¬k.Dirty key) {i : Nat} (hi : i < pageSize) :
    (k.files key.inode).byte (key.offset i) = b key.inode (key.offset i) := by
  refine hb.clean key (fun e he => ?_) i hi
  cases hd : e.dirty with
  | false => rfl
  | true => exact absurd ⟨e,he,hd⟩ hc

lemma flushInodeTry_contents (h : Owned c k hand) (ha : Coherent k a) (fails : Nat → Option VfsError)
    (sync : Except VfsError Unit) :
    Contents (k.flushInodeTry mountId ino fails sync).1 (fun inode => (a inode).byte) := by
  obtain ⟨h0,hb0,-⟩ := flushStart_spec h ha mountId ino
  obtain ⟨n,hr,-⟩ := flushBatchesTry_fuel mountId ino fails
    ((k.flushStart mountId ino).dirtyPages mountId ino).length ((k.flushStart mountId ino).dirtyPages mountId ino)
    (k.flushStart mountId ino)
  obtain ⟨-,-,-,-,hc⟩ := flushBatches_spec (b := fun inode => (a inode).byte) n h0
    (fun page hp => (mem_dirtyPages hp).1) hr.symm
  rw [flushInodeTry]
  split
  · next hl =>
    rw [hl] at hc
    exact hc hb0
  · next hl =>
    rw [hl] at hc
    exact hc hb0

section
variable (ho : (k.flushInodeTry mountId ino fails sync).2 = .ok ())
include ho

lemma flushInodeTry_ok : (k.flushInodeTry mountId ino fails sync).1 =
      flushBatches mountId ino ((k.flushStart mountId ino).dirtyPages mountId ino).length
        ((k.flushStart mountId ino).dirtyPages mountId ino) (k.flushStart mountId ino) := by
  obtain ⟨n,hr,hf⟩ := flushBatchesTry_fuel mountId ino fails
    ((k.flushStart mountId ino).dirtyPages mountId ino).length ((k.flushStart mountId ino).dirtyPages mountId ino)
    (k.flushStart mountId ino)
  rw [flushInodeTry] at ho ⊢
  split at ho
  · cases ho
  next hl =>
  rw [hl] at hr hf
  obtain rfl := hf rfl
  exact hr

lemma flushInodeTry_clean (pageIndex : Nat) :
    ¬(k.flushInodeTry mountId ino fails sync).1.Dirty ⟨mountId,ino,pageIndex⟩ := by
  rw [flushInodeTry_ok ho]
  intro hd
  obtain ⟨frame,hm⟩ := dirtyPages_of_dirty (flushBatches_dirty _ _ hd)
  exact flushBatches_clean _ _ (Nat.le_refl _) _ hm hd

end

def DirtyInside (k : Kernel) (mountId ino : Nat) : Prop :=
  ∀ page ∈ k.dirtyPages mountId ino, (page.1+1)*pageSize ≤ k.currentSize mountId ino

instance (k : Kernel) (mountId ino : Nat) : Decidable (k.DirtyInside mountId ino) :=
  inferInstanceAs (Decidable (∀ page ∈ k.dirtyPages mountId ino, (page.1+1)*pageSize ≤ k.currentSize mountId ino))

lemma flushInodeTry_file (h : Owned c k hand) (ha : Coherent k a) (hi : k.DirtyInside mountId ino)
    (ho : (k.flushInodeTry mountId ino fails sync).2 = .ok ()) :
    (k.flushInodeTry mountId ino fails sync).1.files (mountId,ino) = a (mountId,ino) := by
  obtain ⟨-,-,hs⟩ := flushStart_spec h ha mountId ino
  have hp : ∀ page ∈ (k.flushStart mountId ino).dirtyPages mountId ino,
      (page.1+1)*pageSize ≤ ((k.flushStart mountId ino).files (mountId,ino)).size := by
    intro page hm
    rw [hs,← currentSize_eq ha]
    rw [dirtyPages,flushStart_cache] at hm
    exact hi page hm
  refine ByteFile.ext ?_ (funext fun i => ?_)
  · rw [flushInodeTry_ok ho,flushBatches_size _ _ hp,hs]
  · exact byte_of_clean (flushInodeTry_contents h ha fails sync) (flushInodeTry_clean ho) i

def cacheAfter (k : Kernel) : List CacheOp → Kernel
  | [] => k
  | op::ops => (k.cacheStep op).1.cacheAfter ops

def filesAfter (a : Nat × Nat → ByteFile) : List CacheOp → Nat × Nat → ByteFile
  | [] => a
  | op::ops => filesAfter (fileStep a op).1 ops

lemma cacheAfter_coherent (ops : List CacheOp) (h : Owned c k hand) (ha : Coherent k a)
    (hf : ∀ op ∈ ops, op.Fits) (hs : k.SuppliedRun ops) :
    Owned c (k.cacheAfter ops) hand ∧ Coherent (k.cacheAfter ops) (filesAfter a ops) := by
  induction ops generalizing k a with
  | nil => exact ⟨h,ha⟩
  | cons op ops ih =>
    obtain ⟨-,ha'⟩ := cacheStep_refines h ha (hf op (by simp)) hs.1
    exact ih (cacheStep_owned h op) ha' (fun op' ho => hf op' (mem_cons_of_mem op ho)) hs.2

end

/-- A flush of an inode whose dirty pages end inside its size leaves the cache's bytes on disk; if it fails, what is
clean is on disk. -/
theorem flush_fidelity (c : Scope) (k : Kernel) (howned : Owned c k []) (hcache : k.cache = .new)
    (ops : List CacheOp) (hsupply : k.SuppliedRun ops) (hfit : ∀ op ∈ ops, op.Fits) (mountId ino : Nat)
    (hinside : (k.cacheAfter ops).DirtyInside mountId ino) (fails : Nat → Option VfsError)
    (sync : Except VfsError Unit) :
    let flushed := (k.cacheAfter ops).flushInodeTry mountId ino fails sync
    (flushed.2 = .ok () → (flushed.1.files (mountId,ino)).size = (k.cacheAfter ops).currentSize mountId ino ∧
      flushed.1.files (mountId,ino) = filesAfter k.files ops (mountId,ino) ∧
      (∀ key e, key.inode = (mountId,ino) → flushed.1.cache.entries.get key = some e → e.dirty = false ∧
        ∀ i, i < pageSize → flushed.1.mem e.frame i = (flushed.1.files (mountId,ino)).byte (key.offset i))) ∧
    ∀ error, flushed.2 = .error error → ∀ key, (k.cacheAfter ops).Dirty key → flushed.1.Dirty key ∨ ∀ i, i < pageSize →
        (flushed.1.files key.inode).byte (key.offset i) = (filesAfter k.files ops key.inode).byte (key.offset i) := by
  intro flushed
  obtain ⟨h,ha⟩ := cacheAfter_coherent ops howned (coherent_new hcache) hfit hsupply
  have hc : Contents flushed.1 _ := flushInodeTry_contents h ha fails sync
  refine ⟨fun ho => ?_,fun error _ key _ => ?_⟩
  · have hf : flushed.1.files (mountId,ino) = filesAfter k.files ops (mountId,ino) :=
      flushInodeTry_file h ha hinside ho
    refine ⟨by rw [hf,currentSize_eq ha],hf,fun key e hin he => ⟨?_,fun i hi => ?_⟩⟩
    · cases hd : e.dirty with
      | false => rfl
      | true =>
        obtain ⟨mountId',ino',pageIndex⟩ := key
        cases hin
        exact absurd ⟨e,he,hd⟩ (flushInodeTry_clean ho pageIndex)
    · rw [hf,← hin]
      exact hc.cached key e he i hi
  · by_cases hd : flushed.1.Dirty key
    · exact .inl hd
    · exact .inr fun i hi => byte_of_page_clean hc hd hi

/-- Three bytes in a file that is then grown to a full page. -/
theorem flush_fidelity_full_page : ((((boot 64 [(4096,200704)] 0 0 (fun _ => .empty) false).cacheAfter
        [.write 0 2 0 [1,2,3],.truncate 0 2 4096]).flushInodeTry 0 2 (fun _ => none) (.ok ())).1.files (0,2)).size =
      ((boot 64 [(4096,200704)] 0 0 (fun _ => .empty) false).cacheAfter
        [.write 0 2 0 [1,2,3],.truncate 0 2 4096]).currentSize 0 2 :=
  ((flush_fidelity ⟨fun _ => False,fun _ _ => False⟩ _ ((boot_booted 64 (by decide) 0 0 _ false).owned (fun _ => id)) rfl
    [.write 0 2 0 [1,2,3],.truncate 0 2 4096] (by decide +kernel) (by decide +kernel) 0 2 (by decide +kernel)
    (fun _ => none) (.ok ())).1 (by decide +kernel)).1

/-- One byte is written to an empty file: its flush succeeds and leaves a whole page on disk. -/
theorem flush_rounds_size_up :
    let k := (boot 64 [(4096,200704)] 0 0 (fun _ => .empty) false).cacheAfter [.write 0 2 0 [7]]
    k.currentSize 0 2 = 1 ∧ (k.flushInodeTry 0 2 (fun _ => none) (.ok ())).2 = .ok () ∧
      ((k.flushInodeTry 0 2 (fun _ => none) (.ok ())).1.files (0,2)).size = 4096 := by
  decide +kernel

end Kernel
end Vanta.Mm
