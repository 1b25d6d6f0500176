import Vanta.Mm.CacheContents

namespace Vanta.Mm
open Library Memory Fs Function List
namespace Kernel
section
variable {c : Scope} {k k' : Kernel} {hand : List Nat} {b : Nat × Nat → Nat → UInt8} {mountId ino size page : Nat}

lemma batchBytes_eq (disk : List UInt8) (i : Nat) {o : Nat} (ho : o < pageSize) :
    batchBytes disk i o = disk.getD (i*pageSize+o) 0 := by
  rw [batchBytes,overlay_zero,getD_eq_getElem?_getD,List.getElem?_take_of_lt ho,List.getElem?_drop,
    ← getD_eq_getElem?_getD]

lemma batchBytes_read {n j o : Nat} (hs : ∀ i, size ≤ i → b (mountId,ino) i = 0) (hj : j < n) (ho : o < pageSize)
    (hd : (k.files (mountId,ino)).byte ((page+j)*pageSize+o) = b (mountId,ino) ((page+j)*pageSize+o)) :
    batchBytes ((k.files (mountId,ino)).read (page*pageSize) (min (n*pageSize) (size-page*pageSize))) j o =
      b (mountId,ino) ((page+j)*pageSize+o) := by
  have hp : page*pageSize+(j*pageSize+o) = (page+j)*pageSize+o := by rw [Nat.add_mul,Nat.add_assoc]
  have hb : j*pageSize+o < n*pageSize := by
    have := Nat.mul_le_mul_right pageSize hj
    rw [Nat.succ_mul] at this
    omega
  rw [batchBytes_eq _ _ ho,ByteFile.getD_read,hp]
  split_ifs with hl
  · exact hd
  · exact (hs _ (by omega)).symm

lemma readFrame_spec (h : Owned c k hand) {r : Except VfsError Nat} (hr : k.readFrame mountId ino size page = (k',r)) :
    Owned c k' hand ∧ k.frames.freeFrames ≤ k'.frames.freeFrames+maxReadahead ∧ k'.files = k.files ∧
      k'.cache.fileSizes = k.cache.fileSizes ∧
      (∀ key, k'.Dirty key → k.Dirty key) ∧ (∀ e, r = .error e → k.frames.freeFrames = 0) ∧
      (Contents k b → (∀ i, size ≤ i → b (mountId,ino) i = 0) → Contents k' b ∧
        ∀ f, r = .ok f → ∀ i, i < pageSize → k'.mem f i = b (mountId,ino) (page*pageSize+i)) := by
  rw [readFrame] at hr
  cases hk : k.cache.entries.get ⟨mountId,ino,page⟩ with
  | some entry =>
    simp only [hk] at hr
    cases hr
    refine ⟨h.hit _ (fun _ => rfl),Nat.le_add_right _ _,rfl,rfl,
      fun _ hd => modifyEntry_dirty (k := k) hd (fun _ hd => hd),fun e he => (by cases he),fun hb _ => ?_⟩
    refine ⟨hb.hit _ (fun _ => rfl) (fun _ hd => hd),fun f hf i hi => ?_⟩
    cases hf
    exact hb.cached ⟨mountId,ino,page⟩ entry hk i hi
  | none =>
    simp only [hk] at hr
    have h0 : Owned c k.countMiss ([]++hand) := h.congr rfl rfl (fun _ => rfl) h.tracked
    set total := (size+(pageSize-1))%2^64 / pageSize
    obtain ⟨hle,hl,hn⟩ := readaheadPages_spec k.countMiss mountId ino page total (maxReadahead-1) 1
    set pages := k.countMiss.readaheadPages mountId ino page total (maxReadahead-1) 1
    have hpa : pages ≤ maxReadahead := by simpa [maxReadahead] using hl
    rcases hba : allocBatch pages k.countMiss [] with ⟨k1,batch⟩
    obtain ⟨hq,h1,hon,-,hco,hem⟩ := allocBatch_spec h0 (by simp) hba
    have hs : k.frames.freeFrames ≤ k1.frames.freeFrames+maxReadahead := le_trans hq.free (by omega)
    have hqu : Contents k b → Contents k1 b := fun hb =>
      have hm : Contents k.countMiss b := hb.congr rfl rfl rfl rfl
      hm.quiet hq
    simp only [hba] at hr
    cases batch with
    | nil =>
      cases hr
      exact ⟨h1,hs,hq.files,hq.sizes,fun _ hd => hq.dirty_of hd,fun _ _ => hem (by omega) rfl,fun hb _ =>
        ⟨hqu hb,fun f hf => (by cases hf)⟩⟩
    | cons frame rest =>
      simp only [Prod.mk.injEq] at hr
      obtain ⟨hst,rfl⟩ := hr
      have hne : ∀ j, j < (frame::rest).length → k1.cache.entries.get ⟨mountId,ino,page+(0+j)⟩ = none := by
        intro j hj
        cases he : k1.cache.entries.get ⟨mountId,ino,page+(0+j)⟩ with
        | none => rfl
        | some e =>
          have hol := hq.cached _ _ he
          rw [Nat.zero_add] at hol
          rcases Nat.eq_zero_or_pos j with rfl | hpo
          · rw [Nat.add_zero] at hol
            exact absurd (hol.symm.trans hk) (by simp)
          · simp only [length_nil,Nat.zero_add] at hco
            exact absurd (hol.symm.trans (hn j hpo (by omega))) (by simp)
      obtain ⟨h2,hs2,hfi,hsi,-,hh,hdi,hc⟩ := storeBatch_spec (b := b) h1 hon hne hst
      refine ⟨h2,hs2 ▸ hs,hfi.trans hq.files,hsi.trans hq.sizes,
        fun key hd => hq.dirty_of (hdi key hd),fun e he => (by cases he),fun hb hsiz => ?_⟩
      have hb1 := hqu hb
      have hb2 : Contents k' b := hc hb1 (fun j hj o ho => by
        have hn := hne j hj
        rw [Nat.zero_add] at hn ⊢
        exact batchBytes_read hsiz hj ho
          (hb1.clean ⟨mountId,ino,page+j⟩ (fun e he => by simp [hn] at he) o ho))
      refine ⟨hb2,fun f hf i hi => ?_⟩
      cases hf
      obtain ⟨e,he,rfl⟩ := hh frame rfl
      exact hb2.cached _ e he i hi

/-- The pages that `len` bytes from `offset` on lie in. -/
def pagesSpanned (offset len : Nat) : Nat :=
  if len = 0 then 0 else (offset+len-1)/pageSize-offset/pageSize+1

lemma pagesSpanned_turn (offset : Nat) {len : Nat} (hl : 0 < len) :
    pagesSpanned (offset+min (pageSize-offset%pageSize) len) (len-min (pageSize-offset%pageSize) len)+1 ≤
      pagesSpanned offset len := by
  have hm : min (pageSize-offset%pageSize) len = pageSize-offset%pageSize ∨
      min (pageSize-offset%pageSize) len = len := by omega
  have hs : pagesSpanned offset len = (offset+len-1)/pageSize-offset/pageSize+1 := if_neg (by omega)
  rcases hm with hm | hm <;> rw [hm,pagesSpanned] <;> split_ifs <;> simp only [pageSize] at*<;> omega

lemma readLoop_spec {offset toRead : Nat} (fuel : Nat) {out : List UInt8} (h : Owned c k hand)
    {r : Except VfsError (List UInt8)} (hru : readLoop mountId ino offset size toRead fuel k out = (k',r)) :
    Owned c k' hand ∧ k'.files = k.files ∧ k'.cache.fileSizes = k.cache.fileSizes ∧
      (∀ key, k'.Dirty key → k.Dirty key) ∧ (Contents k b → (∀ i, size ≤ i → b (mountId,ino) i = 0) → Contents k' b ∧
        (offset+toRead ≤ size → toRead-out.length ≤ fuel → out.length ≤ toRead →
          out = window (b (mountId,ino)) offset out.length →
          maxReadahead*pagesSpanned (offset+out.length) (toRead-out.length) ≤ k.frames.freeFrames →
          r = .ok (window (b (mountId,ino)) offset toRead))) := by
  induction fuel generalizing k out with
  | zero =>
    cases hru
    refine ⟨h,rfl,rfl,fun _ hd => hd,fun hb _ => ⟨hb,fun _ hfu hle ho _ => ?_⟩⟩
    obtain hl : out.length = toRead := by omega
    rw [← hl,← ho]
  | succ fuel ih =>
    rw [readLoop] at hru
    by_cases hm : out.length < toRead
    · rw [if_pos hm] at hru
      simp only at hru
      set chunk := min (min (pageSize-(offset+out.length)%pageSize) (toRead-out.length)) (size-(offset+out.length))
        with hc
      have hp : (offset+out.length)%pageSize < pageSize := Nat.mod_lt _ (by decide)
      split_ifs at hru with hz
      · cases hru
        exact ⟨h,rfl,rfl,fun _ hd => hd,fun hb _ => ⟨hb,fun hs => absurd hz (by omega)⟩⟩
      rcases hf : k.readFrame mountId ino size ((offset+out.length)/pageSize) with ⟨k1,r1⟩
      obtain ⟨h1,hs1,hf1,hsi1,hd1,he,hc1⟩ := readFrame_spec (b := b) h hf
      simp only [hf] at hru
      cases r1 with
      | error e =>
        cases hru
        refine ⟨h1,hf1,hsi1,hd1,fun hb hs =>
          ⟨(hc1 hb hs).1,fun hre _ _ _ hfr => ?_⟩⟩
        have ht := pagesSpanned_turn (offset+out.length) (show 0 < toRead-out.length by omega)
        rw [he e rfl] at hfr
        simp only [maxReadahead] at hfr
        omega
      | ok f =>
        obtain ⟨h2,hf2,hsi2,hd2,hc2⟩ := ih h1 hru
        refine ⟨h2,hf2.trans hf1,hsi2.trans hsi1,
          fun key hd => hd1 key (hd2 key hd),fun hb hs => ?_⟩
        obtain ⟨hb1,hby⟩ := hc1 hb hs
        obtain ⟨hb2,hr⟩ := hc2 hb1 hs
        refine ⟨hb2,fun hre hfu hle ho hfr => ?_⟩
        have hmi : chunk = min (pageSize-(offset+out.length)%pageSize) (toRead-out.length) := by omega
        have hl : (out++window (k1.mem f) ((offset+out.length)%pageSize) chunk).length = out.length+chunk := by
          simp
        have ht := pagesSpanned_turn (offset+out.length) (show 0 < toRead-out.length by omega)
        rw [← hmi] at ht
        refine hr hre (by omega) (by omega) ?_ ?_
        · rw [hl,window_add,← ho]
          congr 1
          refine window_congr (fun i hi => ?_)
          rw [hby f rfl _ (by omega),← Nat.add_assoc,Nat.div_add_mod']
        · rw [hl,← Nat.add_assoc,← Nat.sub_sub]
          simp only [maxReadahead] at *
          omega
    · rw [if_neg hm] at hru
      cases hru
      refine ⟨h,rfl,rfl,fun _ hd => hd,fun hb _ => ⟨hb,fun _ hfu hle ho _ => ?_⟩⟩
      obtain hl : out.length = toRead := by omega
      rw [← hl,← ho]

end
end Kernel

/-- The cache and the disk together hold the files `a`. -/
structure Coherent (k : Kernel) (a : Nat × Nat → ByteFile) : Prop where
  contents : Contents k (fun inode => (a inode).byte)
  known : ∀ inode size, k.cache.fileSizes inode = some size → size = (a inode).size
  unknown : ∀ inode, k.cache.fileSizes inode = none → (k.files inode).size = (a inode).size
  dirty : ∀ key, k.Dirty key → k.cache.fileSizes key.inode ≠ none

namespace Kernel
section
variable {c : Scope} {k k' : Kernel} {hand : List Nat} {a : Nat × Nat → ByteFile} {mountId ino : Nat}

lemma currentSize_eq (ha : Coherent k a) : k.currentSize mountId ino = (a (mountId,ino)).size := by
  unfold currentSize
  cases hs : k.cache.fileSizes (mountId,ino) with
  | none => exact ha.unknown _ hs
  | some size => exact ha.known _ _ hs

lemma pagesSpanned_mono (offset : Nat) {m n : Nat} (h : m ≤ n) : pagesSpanned offset m ≤ pagesSpanned offset n := by
  unfold pagesSpanned
  split_ifs
  · exact le_refl _
  · exact Nat.zero_le _
  · omega
  · have := Nat.div_le_div_right (c := pageSize) (show offset+m-1 ≤ offset+n-1 by omega)
    omega

lemma setFileSize_coherent (hb : Contents k (fun inode => (a inode).byte))
    (hk : ∀ inode size, inode ≠ (mountId,ino) → k.cache.fileSizes inode = some size → size = (a inode).size)
    (hu : ∀ inode, inode ≠ (mountId,ino) → k.cache.fileSizes inode = none → (k.files inode).size = (a inode).size)
    (hdi : ∀ key : PageKey, key.inode ≠ (mountId,ino) → k.Dirty key → k.cache.fileSizes key.inode ≠ none) :
    Coherent (k.setFileSize mountId ino (a (mountId,ino)).size) a where
  contents := hb.congr rfl rfl rfl rfl
  known := fun inode size hs => by
    simp only [setFileSize,update_apply] at hs
    split_ifs at hs with he
    · rw [he,← Option.some.inj hs]
    · exact hk inode size he hs
  unknown := fun inode hs => by
    simp only [setFileSize,update_apply] at hs
    split_ifs at hs with he
    exact hu inode he hs
  dirty := fun key hd => by
    simp only [setFileSize,update_apply]
    split_ifs with he
    · simp
    · exact hdi key he hd

variable {offset : Nat} {b : Nat × Nat → Nat → UInt8} {buf : List UInt8} {r : Except VfsError Nat}

lemma cacheRead_spec {len : Nat} (h : Owned c k hand) {r : Except VfsError (List UInt8)}
    (hru : k.cacheRead mountId ino offset len = (k',r)) : Owned c k' hand ∧ (Coherent k a → Coherent k' a ∧
      (maxReadahead*pagesSpanned offset len ≤ k.frames.freeFrames → r = .ok ((a (mountId,ino)).read offset len))) := by
  rw [cacheRead] at hru
  split_ifs at hru with hl
  · cases hru
    exact ⟨h,fun ha => ⟨ha,fun _ => by simp [hl,ByteFile.read]⟩⟩
  simp only at hru
  set k0 := k.setFileSize mountId ino (k.currentSize mountId ino) with hk0
  have h0 : Owned c k0 hand := h.congr rfl rfl (fun _ => rfl) h.tracked
  have ha0 : Coherent k a → Coherent k0 a := fun ha => by
    rw [hk0,currentSize_eq ha]
    exact setFileSize_coherent ha.contents (fun inode size _ => ha.known inode size) (fun inode _ => ha.unknown inode)
      (fun key _ => ha.dirty key)
  split_ifs at hru with ho
  · obtain ⟨rfl,rfl⟩ := Prod.mk.inj hru
    refine ⟨h0,fun ha => ⟨ha0 ha,fun _ => ?_⟩⟩
    rw [currentSize_eq ha] at ho
    rw [ByteFile.read,Nat.sub_eq_zero_of_le ho,Nat.min_zero,window_zero]
  obtain ⟨h1,hf,hs,hdi,hc⟩ := readLoop_spec (b := fun inode => (a inode).byte) _ h0 hru
  refine ⟨h1,fun ha => ?_⟩
  rw [currentSize_eq ha] at *
  obtain ⟨hb,hr⟩ := hc (ha0 ha).contents (fun i hi => (a (mountId,ino)).zero i hi)
  refine ⟨⟨hb,?_,?_,?_⟩,fun hfr => ?_⟩
  · rw [hs]
    exact (ha0 ha).known
  · rw [hs,hf]
    exact (ha0 ha).unknown
  · rw [hs]
    exact fun key hd => (ha0 ha).dirty key (hdi key hd)
  · refine hr (by omega) (by simp) (by simp) rfl (le_trans (Nat.mul_le_mul_left _ ?_) hfr)
    exact pagesSpanned_mono offset (by simp only [length_nil]; omega)

/-- The bytes of a file with `buf` written at `offset`. -/
def putBytes (b : Nat × Nat → Nat → UInt8) (inode : Nat × Nat) (offset : Nat) (buf : List UInt8) :
    Nat × Nat → Nat → UInt8 :=
  update b inode (overlay (b inode) offset buf)

lemma sameElsewhere_put (hb : offset%pageSize+buf.length ≤ pageSize) :
    SameElsewhere ⟨mountId,ino,offset/pageSize⟩ b (putBytes b (mountId,ino) offset buf) := by
  intro key' i hn hi
  by_cases hin : key'.inode = (mountId,ino)
  · have hp : key'.pageIndex ≠ offset/pageSize := by
      intro hp
      refine hn (PageKey.eq_of_offset hi hi hin ?_)
      simp [PageKey.offset,hp]
    rw [putBytes,hin,update_self,overlay,if_neg]
    simp only [PageKey.offset,pageSize] at *
    omega
  · rw [putBytes,update_of_ne hin]

lemma putBytes_page {g : Nat → UInt8} {i : Nat} (hg : ¬(offset%pageSize ≤ i ∧ i < offset%pageSize+buf.length) →
      g i = b (mountId,ino) (offset/pageSize*pageSize+i)) : overlay g (offset%pageSize) buf i =
      putBytes b (mountId,ino) offset buf (mountId,ino) (offset/pageSize*pageSize+i) := by
  rw [putBytes,update_self,overlay_shift hg,Nat.div_add_mod']

lemma writeFrame_spec {initialSize : Nat} (hbu : offset%pageSize+buf.length ≤ pageSize) (h : Owned c k hand)
    (hru : k.writeFrame mountId ino initialSize (offset/pageSize) (offset%pageSize) buf.length = (k',r)) :
    k.frames.freeFrames ≤ k'.frames.freeFrames+1 ∧ k'.files = k.files ∧ k'.cache.fileSizes = k.cache.fileSizes ∧
      (∀ key, k'.Dirty key → key.inode = (mountId,ino) ∨ k.Dirty key) ∧
      (∀ e, r = .error e → k.frames.freeFrames = 0 ∧ Owned c k' hand) ∧
      ∀ f, r = .ok f → Owned c k' hand ∧ (Contents k b →
        (∀ i, initialSize ≤ i → offset/pageSize*pageSize ≤ i → b (mountId,ino) i = 0) →
        Contents {k' with mem := update k'.mem f (overlay (k'.mem f) (offset%pageSize) buf)}
          (putBytes b (mountId,ino) offset buf)) := by
  set key : PageKey := ⟨mountId,ino,offset/pageSize⟩ with hk
  rw [writeFrame] at hru
  simp only [← hk] at hru
  cases hke : k.cache.entries.get key with
  | some entry =>
    simp only [hke] at hru
    cases hru
    refine ⟨Nat.le_succ _,rfl,rfl,fun key' hd => ?_,fun e he => (by cases he),fun f hf => ?_⟩
    · obtain ⟨e,he,hd⟩ := hd
      simp only [countHit,modifyEntry,OrdMap.get_modify] at he
      split_ifs at he with heq
      · exact .inl (by rw [heq]; rfl)
      · exact .inr ⟨e,he,hd⟩
    cases hf
    have ho := h.hit key (g := fun e => {e with
      dirty := true
      validBytes := max e.validBytes (offset%pageSize+buf.length)
      lruSeq := e.lruSeq+1}) (fun _ => rfl)
    refine ⟨ho,fun hb _ => ?_⟩
    have hb' := hb.hit key (g := fun e => {e with
      dirty := true
      validBytes := max e.validBytes (offset%pageSize+buf.length)
      lruSeq := e.lruSeq+1}) (fun _ => rfl) (fun _ _ => rfl)
    have hge : (k.modifyEntry key (fun e => {e with
        dirty := true
        validBytes := max e.validBytes (offset%pageSize+buf.length)
        lruSeq := e.lruSeq+1})).countHit.cache.entries.get key = some {entry with
          dirty := true
          validBytes := max entry.validBytes (offset%pageSize+buf.length)
          lruSeq := entry.lruSeq+1} := by
      simp [countHit,modifyEntry,OrdMap.get_modify,hke]
    exact hb'.store ho hge rfl (fun i hi => putBytes_page (fun _ => hb.cached key entry hke i hi))
      (sameElsewhere_put hbu)
  | none =>
    simp only [hke] at hru
    have h0 : Owned c k.countMiss hand := h.congr rfl rfl (fun _ => rfl) h.tracked
    rcases ha : k.countMiss.allocFrame with ⟨k1,r1⟩
    obtain ⟨hq,hr⟩ := allocFrame_spec h0 ha
    simp only [ha] at hru
    cases r1 with
    | none =>
      cases hru
      exact ⟨hq.free,hq.files,hq.sizes,fun key' hd => .inr (hq.dirty_of hd),fun _ _ => ⟨hr.2,hr.1⟩,
        fun f hf => (by cases hf)⟩
    | some frame =>
      obtain ⟨h1,hon⟩ := hr
      have hn : k1.cache.entries.get key = none := by
        cases he : k1.cache.entries.get key with
        | none => rfl
        | some e => exact absurd ((hq.cached key e he).symm.trans hke) (by simp)
      -- The three ways to prepare the frame differ in what it holds outside of `buf`.
      have hp : ∃ g valid, k' = ({k1 with mem := update k1.mem frame g} : Kernel).insertPage key frame
          true valid ∧ r = .ok frame ∧ (Contents k1 b →
            (∀ i, initialSize ≤ i → offset/pageSize*pageSize ≤ i → b (mountId,ino) i = 0) →
            ∀ i, i < pageSize → ¬(offset%pageSize ≤ i ∧ i < offset%pageSize+buf.length) →
              g i = b (mountId,ino) (offset/pageSize*pageSize+i)) := by
        split_ifs at hru with hpa hp' <;> cases hru
        · refine ⟨_,_,rfl,rfl,fun hb _ i hi _ => ?_⟩
          rw [overlay_zero,ByteFile.getD_read,if_pos hi]
          exact hb.clean key (fun e he => by simp [hn] at he) i hi
        · refine ⟨_,_,rfl,rfl,fun hb hz i hi _ => ?_⟩
          exact (hz _ (by omega) (by omega)).symm
        · refine ⟨k1.mem frame,_,by rw [update_eq_self],rfl,fun hb hz i hi hou => ?_⟩
          omega
      obtain ⟨g,valid,rfl,rfl,hg⟩ := hp
      refine ⟨hq.free,hq.files,hq.sizes,fun key' hd => ?_,fun e he => (by cases he),fun f hf => ?_⟩
      · obtain ⟨e,he,hd⟩ := hd
        simp only [insertPage,OrdMap.get_insert] at he
        split_ifs at he with heq
        · exact .inl (by rw [heq]; rfl)
        · exact .inr (hq.dirty_of ⟨e,he,hd⟩)
      · cases hf
        refine ⟨(h1.setMem (update k1.mem frame g)).insertPage key true valid,fun hb hz => ?_⟩
        have hb0 : Contents k.countMiss b := hb.congr rfl rfl rfl rfl
        have hb1 := (hb0.quiet hq).insert h1 hon hn (g := overlay g (offset%pageSize) buf)
          (fun i hi => putBytes_page (hg (hb0.quiet hq) hz i hi)) (sameElsewhere_put hbu) true
          (fun hfa => by cases hfa) valid
        simpa [insertPage] using hb1

lemma putBytes_append (b : Nat × Nat → Nat → UInt8) (inode : Nat × Nat) (offset : Nat) (u v : List UInt8) :
    putBytes (putBytes b inode offset u) inode (offset+u.length) v = putBytes b inode offset (u++v) := by
  simp only [putBytes,update_self,update_idem,overlay_append]

lemma writeLoop_spec {initialSize : Nat} (fuel : Nat) {written : Nat} (h : Owned c k hand)
    (hru : writeLoop mountId ino initialSize offset buf fuel k written = (k',r)) :
    Owned c k' hand ∧ k'.files = k.files ∧ k'.cache.fileSizes = k.cache.fileSizes ∧
      (∀ key, k'.Dirty key → key.inode = (mountId,ino) ∨ k.Dirty key) ∧
      (Contents k b → offset+buf.length < 2^64 → written ≤ buf.length → buf.length-written ≤ fuel →
        pagesSpanned (offset+written) (buf.length-written) ≤ k.frames.freeFrames →
        (written < buf.length → ∀ i, initialSize ≤ i → (offset+written)/pageSize*pageSize ≤ i → b (mountId,ino) i = 0) →
        r = .ok buf.length ∧ Contents k' (putBytes b (mountId,ino) (offset+written) (buf.drop written))) := by
  induction fuel generalizing k b written with
  | zero =>
    cases hru
    refine ⟨h,rfl,rfl,fun _ hd => .inr hd,fun hb _ hle hfu _ _ => ?_⟩
    obtain rfl : written = buf.length := by omega
    simpa [putBytes] using hb
  | succ fuel ih =>
    rw [writeLoop] at hru
    by_cases hm : written < buf.length
    · rw [if_pos hm] at hru
      simp only at hru
      set current := (offset+written)%2^64
      set chunk := min (pageSize-current%pageSize) (buf.length-written) with hc
      set bytes := (buf.drop written).take chunk with hby
      have hp : current%pageSize < pageSize := Nat.mod_lt _ (by decide)
      have hl : bytes.length = chunk := by
        rw [hby,length_take,length_drop]
        omega
      rw [← hl] at hru
      rcases hf : k.writeFrame mountId ino initialSize (current/pageSize) (current%pageSize) bytes.length with ⟨k1,r1⟩
      obtain ⟨hs1,hf1,hsi1,hd1,he,hok⟩ := writeFrame_spec (b := b) (by omega) h hf
      simp only [hf] at hru
      cases r1 with
      | error e =>
        cases hru
        obtain ⟨hz,h1⟩ := he e rfl
        refine ⟨h1,hf1,hsi1,hd1,
          fun _ _ _ _ hfr _ => ?_⟩
        have ht := pagesSpanned_turn (offset+written) (show 0 < buf.length-written by omega)
        omega
      | ok f =>
        obtain ⟨h1,hc1⟩ := hok f rfl
        obtain ⟨h2,hf2,hsi2,hd2,hc2⟩ :=
          ih (b := putBytes b (mountId,ino) current bytes) (h1.setMem _) hru
        refine ⟨h2,hf2.trans hf1,hsi2.trans hsi1,fun key hd => (hd2 key hd).elim .inl (hd1 key),
          fun hb hfi hle hfu hfr hz => ?_⟩
        have hn : current = offset+written := Nat.mod_eq_of_lt (by omega)
        have ht := pagesSpanned_turn (offset+written) (show 0 < buf.length-written by omega)
        rw [← hn,← hc] at ht
        have hre : buf.drop written = bytes++buf.drop (written+chunk) := by
          rw [hby,← drop_drop,take_append_drop]
        have hb1 := hc1 hb (fun i hi hpo => hz hm i hi (hn ▸ hpo))
        rw [hl,← Nat.add_assoc] at hc2
        have hz1 : written+chunk < buf.length → ∀ i, initialSize ≤ i → (offset+written+chunk)/pageSize*pageSize ≤ i →
            putBytes b (mountId,ino) current bytes (mountId,ino) i = 0 := by
          intro hm' i hi hpo
          have ho : current+bytes.length ≤ i := by
            simp only [pageSize] at *
            omega
          rw [putBytes,update_self,overlay_of_ge ho]
          exact hz hm i hi (le_trans (Nat.div_mul_le_self _ _) (by omega))
        obtain ⟨hr,hb2⟩ := hc2 hb1 hfi (by omega) (by omega) (by
          rw [← hn] at hfr ⊢
          rw [← Nat.sub_sub]
          simp only
          omega) hz1
        refine ⟨hr,?_⟩
        rw [hre,← hn,← putBytes_append,hl]
        rw [← hn] at hb2
        exact hb2
    · rw [if_neg hm] at hru
      cases hru
      refine ⟨h,rfl,rfl,fun _ hd => .inr hd,fun hb _ hle hfu _ _ => ?_⟩
      obtain rfl : written = buf.length := by omega
      simpa [putBytes] using hb

def setFile (a : Nat × Nat → ByteFile) (inode : Nat × Nat) (file : ByteFile) : Nat × Nat → ByteFile :=
  update a inode file

lemma putBytes_setFile (offset : Nat) (buf : List UInt8) :
    (fun inode => (setFile a (mountId,ino) ((a (mountId,ino)).write offset buf) inode).byte) =
      putBytes (fun inode => (a inode).byte) (mountId,ino) offset buf := by
  funext inode
  by_cases hi : inode = (mountId,ino) <;> simp [setFile,putBytes,hi]

lemma cacheWrite_spec (h : Owned c k hand) (hru : k.cacheWrite mountId ino offset buf = (k',r)) :
    Owned c k' hand ∧ (Coherent k a → offset+buf.length < 2^64 →
      pagesSpanned offset buf.length ≤ k.frames.freeFrames → r = .ok buf.length ∧
        Coherent k' (setFile a (mountId,ino) ((a (mountId,ino)).write offset buf))) := by
  rw [cacheWrite] at hru
  split_ifs at hru with hbu
  · cases hru
    subst hbu
    exact ⟨h,fun ha _ _ => ⟨rfl,by simpa [setFile] using ha⟩⟩
  rcases hl : writeLoop mountId ino (k.currentSize mountId ino) offset buf buf.length k 0 with ⟨k1,r1⟩
  obtain ⟨h1,hf,hsi,hdi,hc⟩ :=
    writeLoop_spec (b := fun inode => (a inode).byte) buf.length h hl
  simp only [hl] at hru
  cases r1 with
  | error e =>
    cases hru
    refine ⟨h1,fun ha hfi hfr => ?_⟩
    obtain ⟨hr,-⟩ := hc ha.contents hfi (by simp) (by simp) hfr (fun _ i hi _ => by
      rw [currentSize_eq ha] at hi
      exact (a (mountId,ino)).zero i hi)
    cases hr
  | ok written =>
    cases hru
    refine ⟨h1.congr rfl rfl (fun _ => rfl) h1.tracked,fun ha hfi hfr => ?_⟩
    obtain ⟨hr,hb⟩ := hc ha.contents hfi (by simp) (by simp) hfr (fun _ i hi _ => by
      rw [currentSize_eq ha] at hi
      exact (a (mountId,ino)).zero i hi)
    refine ⟨hr,?_⟩
    have hsiz : max (k.currentSize mountId ino) ((offset+buf.length)%2^64) =
        (setFile a (mountId,ino) ((a (mountId,ino)).write offset buf) (mountId,ino)).size := by
      rw [currentSize_eq ha,Nat.mod_eq_of_lt hfi,setFile,update_self,ByteFile.write]
      exact (if_neg hbu).symm
    have ho : ∀ inode, inode ≠ (mountId,ino) →
        setFile a (mountId,ino) ((a (mountId,ino)).write offset buf) inode = a inode :=
      fun inode hn => update_of_ne hn _ _
    rw [hsiz]
    refine setFileSize_coherent ?_ (fun inode size hn hs => ?_) (fun inode hn hs => ?_) (fun key hn hd => ?_)
    · rw [putBytes_setFile]
      exact hb
    · rw [ho inode hn]
      exact ha.known inode size (hsi ▸ hs)
    · rw [ho inode hn,hf]
      exact ha.unknown inode (hsi ▸ hs)
    · rw [hsi]
      exact ha.dirty key ((hdi key hd).resolve_left hn)

end
end Kernel
end Vanta.Mm
