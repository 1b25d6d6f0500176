import Vanta.Mm.CacheSpec

namespace Vanta.Mm
open Library Memory Fs Function List OrdMap
section
variable {c : Scope} {p : Prop} {n : Nat} {k k' : Kernel} {hand : List Nat} {b : Nat × Nat → Nat → UInt8}
  {a : Nat × Nat → ByteFile}

lemma Coherent.quiet (ha : Coherent k a) (hq : Quiet c p n k k') : Coherent k' a where
  contents := ha.contents.quiet hq
  known := by
    rw [hq.sizes]
    exact ha.known
  unknown := by
    rw [hq.sizes,hq.files]
    exact ha.unknown
  dirty := by
    rw [hq.sizes]
    exact fun key hd => ha.dirty key (hq.dirty_of hd)

lemma Contents.refile (hb : Contents k b) {inode : Nat × Nat} {file : ByteFile}
    (hf : ∀ i, file.byte i = (k.files inode).byte i ∨ file.byte i = b inode i) :
    Contents {k with files := update k.files inode file} b where
  cached := hb.cached
  clean := fun key hc i hi => by
    have ho := hb.clean key hc i hi
    by_cases hin : key.inode = inode
    · subst hin
      simp only [update_self]
      rcases hf (key.offset i) with he | he
      · rw [he,ho]
      · exact he
    · simpa [hin] using ho
  alone := hb.alone

end
namespace Kernel
section
variable {c : Scope} {p : Prop} {k k' : Kernel} {hand : List Nat} {b : Nat × Nat → Nat → UInt8}
  {a : Nat × Nat → ByteFile} {mountId ino : Nat}

lemma runLength_spec (start : Nat) (pages : List (Nat × Nat)) (n : Nat) :
    n ≤ runLength start pages n ∧ runLength start pages n ≤ n+pages.length ∧
      ∀ j, n+j < runLength start pages n → ∃ page, pages[j]? = some page ∧ page.1 = start+(n+j) := by
  induction pages generalizing n with
  | nil => exact ⟨le_refl _,le_refl _,fun j hj => absurd hj (by simp [runLength])⟩
  | cons page pages ih =>
    rw [runLength]
    split_ifs with hr
    · obtain ⟨hle,hl,hp⟩ := ih (n+1)
      refine ⟨by omega,by simp only [length_cons]; omega,fun j hj => ?_⟩
      cases j with
      | zero => exact ⟨page,rfl,hr.2⟩
      | succ j =>
        obtain ⟨q,hq,hs⟩ := hp j (by omega)
        exact ⟨q,by simpa using hq,by omega⟩
    · exact ⟨le_refl _,by omega,fun j hj => absurd hj (by omega)⟩

lemma markClean_spec (mountId ino start : Nat) (h : Owned c k hand) (count : Nat) :
    Owned c (k.markClean mountId ino start count) hand ∧ (k.markClean mountId ino start count).files = k.files ∧
      (k.markClean mountId ino start count).cache.fileSizes = k.cache.fileSizes ∧
      (∀ key, (k.markClean mountId ino start count).Dirty key → k.Dirty key) ∧
      (∀ key, ((k.markClean mountId ino start count).cache.entries.get key).map PageEntry.frame =
        (k.cache.entries.get key).map PageEntry.frame) ∧ (Contents k b → (∀ j, j < count → ∀ i, i < pageSize →
        (k.files (mountId,ino)).byte ((start+j)*pageSize+i) = b (mountId,ino) ((start+j)*pageSize+i)) →
        Contents (k.markClean mountId ino start count) b) := by
  induction count with
  | zero => exact ⟨h,rfl,rfl,fun _ hd => hd,fun _ => rfl,fun hb _ => hb⟩
  | succ count ih =>
    obtain ⟨ho,hf,hsi,hdi,hfr,hc⟩ := ih
    set k1 := k.markClean mountId ino start count with hk1
    refine ⟨ho.modifyEntry _ (fun _ => rfl),hf,hsi,fun key hd => ?_,fun key => ?_,fun hb hdis => ?_⟩
    · exact hdi key (modifyEntry_dirty (k := k1) hd (fun _ hfa => by cases hfa))
    · rw [← hfr key]
      simp only [markClean,← hk1,modifyEntry,get_modify]
      split_ifs with hk
      · rw [hk,Option.map_map]
        rfl
      · rfl
    · refine (hc hb (fun j hj => hdis j (by omega))).modify (fun _ => rfl) (fun e _ _ _ i hi => ?_)
      rw [hf]
      exact hdis count (by omega) i hi

def frameAt (k : Kernel) (key : PageKey) : Option Nat := (k.cache.entries.get key).map PageEntry.frame

lemma flushBatches_spec (fuel : Nat) {pages : List (Nat × Nat)} (h : Owned c k hand)
    (hp : ∀ page ∈ pages, k.frameAt ⟨mountId,ino,page.1⟩ = some page.2)
    (hru : flushBatches mountId ino fuel pages k = k') : Owned c k' hand ∧ k'.cache.fileSizes = k.cache.fileSizes ∧
      (∀ inode, inode ≠ (mountId,ino) → k'.files inode = k.files inode) ∧
      (∀ key, k'.Dirty key → k.Dirty key) ∧ (Contents k b → Contents k' b) := by
  induction fuel generalizing k pages with
  | zero =>
    obtain rfl := hru
    exact ⟨h,rfl,fun _ _ => rfl,fun _ hd => hd,id⟩
  | succ fuel ih =>
    cases pages with
    | nil =>
      obtain rfl := hru
      exact ⟨h,rfl,fun _ _ => rfl,fun _ hd => hd,id⟩
    | cons page rest =>
      obtain ⟨start,frame⟩ := page
      set count := runLength start ((start,frame)::rest) 0 with hc
      obtain ⟨-,hle,hr⟩ := runLength_spec start ((start,frame)::rest) 0
      set batch := ((start,frame)::rest).take count with hba
      set data := batch.flatMap (fun page => window (k.mem page.2) 0 pageSize) with hda
      set file := (k.files (mountId,ino)).write (start*pageSize) data with hfi
      set k1 : Kernel := {k with files := update k.files (mountId,ino) file} with hk1
      have h1 : Owned c k1 hand := h.congr rfl rfl (fun _ => rfl) h.tracked
      obtain ⟨h2,hfi2,hsi2,hd2,hf2,hc2⟩ := markClean_spec (b := b) mountId ino start h1 count
      obtain ⟨h3,hsi3,hf3,hd3,hc3⟩ := ih h2 (fun page hpa => by
        have := hp page (mem_of_mem_drop hpa)
        rw [← this]
        exact hf2 _) hru
      refine ⟨h3,hsi3.trans hsi2,fun inode hn => ?_,fun key hd => hd2 key (hd3 key hd),fun hb => ?_⟩
      · rw [hf3 inode hn,hfi2,hk1]
        simp [hn]
      -- The batch holds the bytes of the pages from `start` on.
      have hby : ∀ j, j < count → ∀ o, o < pageSize →
          data.getD (j*pageSize+o) 0 = b (mountId,ino) ((start+j)*pageSize+o) := by
        intro j hj o ho
        obtain ⟨page,hpa,hs⟩ := hr j (by omega)
        have ht : batch[j]? = some page := by rw [hba,List.getElem?_take_of_lt hj,hpa]
        rw [hda,getD_flatMap_window (fun page : Nat × Nat => k.mem page.2) pageSize batch ht ho]
        obtain ⟨e,he,hf⟩ := Option.map_eq_some_iff.1 (hp page (mem_of_getElem? hpa))
        have := hb.cached _ e he o ho
        rw [hf] at this
        rw [this,PageKey.offset,hs,Nat.zero_add]
        rfl
      have hl : data.length = count*pageSize := by
        rw [hda,length_flatMap_window (fun page : Nat × Nat => k.mem page.2),hba,length_take]
        congr 1
        omega
      have hin : ∀ i, i < data.length → file.byte (start*pageSize+i) = b (mountId,ino) (start*pageSize+i) := by
        intro i hi
        have hm := Nat.mod_lt i (show 0 < pageSize by decide)
        have hdi : i/pageSize < count := Nat.div_lt_of_lt_mul (by rw [Nat.mul_comm,← hl]; exact hi)
        have := hby (i/pageSize) hdi (i%pageSize) hm
        rw [Nat.div_add_mod',Nat.add_mul,Nat.add_assoc,Nat.div_add_mod'] at this
        rw [hfi,ByteFile.write_byte,overlay,if_pos (by omega),Nat.add_sub_cancel_left]
        exact this
      refine hc3 (hc2 (hb.refile (fun i => ?_)) (fun j hj o ho => ?_))
      · by_cases hi : start*pageSize ≤ i ∧ i < start*pageSize+data.length
        · have := hin (i-start*pageSize) (by omega)
          rw [Nat.add_sub_cancel' hi.1] at this
          exact .inr this
        · exact .inl (by rw [hfi,ByteFile.write_byte,overlay,if_neg hi])
      · have hlt : j*pageSize+o < data.length := by
          have := Nat.mul_le_mul_right pageSize hj
          rw [Nat.succ_mul] at this
          omega
        have := hin (j*pageSize+o) hlt
        rw [← Nat.add_assoc,← Nat.add_mul] at this
        simpa [hk1] using this

lemma mem_dirtyPages {page : Nat × Nat} (h : page ∈ k.dirtyPages mountId ino) :
    k.frameAt ⟨mountId,ino,page.1⟩ = some page.2 ∧ k.Dirty ⟨mountId,ino,page.1⟩ := by
  simp only [dirtyPages,mem_map,mem_filter,Bool.and_eq_true,decide_eq_true_eq] at h
  obtain ⟨⟨key,e⟩,⟨hme,⟨hm,hi⟩,hd⟩,rfl⟩ := h
  have hk : key = ⟨mountId,ino,key.pageIndex⟩ := by
    cases key
    simp_all
  have hg := get_eq_some.2 hme
  rw [hk] at hg
  exact ⟨by simp [frameAt,hg],e,hg,hd⟩

lemma flushInode_spec (mountId ino : Nat) (h : Owned c k hand) :
    Owned c (k.flushInode mountId ino) hand ∧ (Coherent k a → Coherent (k.flushInode mountId ino) a) := by
  rw [flushInode]
  cases hsi : k.cache.fileSizes (mountId,ino) with
  | none =>
    obtain ⟨h1,-⟩ := flushBatches_spec (b := fun inode => (a inode).byte) _ h
      (fun page hp => (mem_dirtyPages hp).1) rfl
    refine ⟨h1,fun ha => ?_⟩
    have hni : k.dirtyPages mountId ino = [] := by
      refine eq_nil_iff_forall_not_mem.2 (fun page hp => ?_)
      exact ha.dirty _ (mem_dirtyPages hp).2 hsi
    rw [hni]
    exact ha
  | some size =>
    have h0 : Owned c (k.truncateFile mountId ino size) hand := h.congr rfl rfl (fun _ => rfl) h.tracked
    obtain ⟨h1,hs,hf,hdi,hc⟩ := flushBatches_spec (b := fun inode => (a inode).byte) _ h0 (fun page hp => (mem_dirtyPages hp).1) rfl
    refine ⟨h1,fun ha => ⟨hc (ha.contents.refile (fun i => ?_)),?_,?_,?_⟩⟩
    · obtain rfl := ha.known _ _ hsi
      simp only [ByteFile.truncate]
      split_ifs with hi
      · exact .inl rfl
      · exact .inr ((a (mountId,ino)).zero i (by omega)).symm
    · rw [hs]
      exact ha.known
    · rw [hs]
      intro inode hn
      have hne : inode ≠ (mountId,ino) := by
        rintro rfl
        have : k.cache.fileSizes (mountId,ino) = none := hn
        rw [hsi] at this
        cases this
      rw [hf inode hne]
      simpa [truncateFile,hne] using ha.unknown inode hn
    · rw [hs]
      exact fun key hd => ha.dirty key (hdi key hd)

lemma flushAll_spec (h : Owned c k hand) : Owned c k.flushAll hand ∧ (Coherent k a → Coherent k.flushAll a) := by
  unfold flushAll
  induction k.cachedInodes generalizing k with
  | nil => exact ⟨h,id⟩
  | cons inode inodes ih =>
    obtain ⟨h1,ha1⟩ := flushInode_spec (a := a) inode.1 inode.2 h
    obtain ⟨h2,ha2⟩ := ih h1
    exact ⟨h2,fun ha => ha2 (ha1 ha)⟩

/-- Pages leave the cache, and nothing else changes but the counts of their frames. -/
structure Removes (keys : List PageKey) (c : Scope) (p : Prop) (k k' : Kernel) : Prop extends Still c p 0 k k' where
  mem : k'.mem = k.mem
  files : k'.files = k.files
  sizes : k'.cache.fileSizes = k.cache.fileSizes
  entries : ∀ key, k'.cache.entries.get key = if key ∈ keys then none else k.cache.entries.get key

lemma removePage_spec (key : PageKey) (h : Owned c k hand) :
    Owned c (k.removePage key) hand ∧ Removes [key] c p k (k.removePage key) := by
  unfold removePage
  cases hk : k.cache.entries.get key with
  | none =>
    refine ⟨h,.refl _ _ _,rfl,rfl,rfl,fun key' => ?_⟩
    by_cases he : key' = key
    · simp [he,hk]
    · simp [he]
  | some entry =>
    simp only
    obtain ⟨frames,hf,ho,hl,hc⟩ := h.dropCached hk
    rw [hf]
    refine ⟨ho,.of_tables rfl rfl rfl rfl rfl (fun f => le_trans (hc f) (le_max_right _ _)) hl
      (fun _ _ hi => hi),rfl,rfl,rfl,fun key' => ?_⟩
    simp only [get_erase,mem_singleton]
    split_ifs <;> rfl

lemma removePages_spec (keys : List PageKey) (h : Owned c k hand) :
    Owned c (keys.foldl removePage k) hand ∧ Removes keys c p k (keys.foldl removePage k) := by
  induction keys generalizing k with
  | nil => exact ⟨h,.refl _ _ _,rfl,rfl,rfl,fun _ => by simp⟩
  | cons key keys ih =>
    obtain ⟨h1,hf⟩ := removePage_spec (p := p) key h
    obtain ⟨h2,hr⟩ := ih h1
    refine ⟨h2,hf.toStill.trans hr.toStill id id,hr.mem.trans hf.mem,hr.files.trans hf.files,
      hr.sizes.trans hf.sizes,fun key' => ?_⟩
    rw [foldl_cons,hr.entries,hf.entries]
    by_cases hm : key' ∈ keys <;> by_cases he : key' = key <;> simp [hm,he]

variable {first newSize : Nat}

lemma mem_keysFrom {key : PageKey} : key ∈ k.keysFrom mountId ino first ↔
    key.inode = (mountId,ino) ∧ first ≤ key.pageIndex ∧ k.cache.entries.get key ≠ none := by
  simp only [keysFrom,mem_map,mem_filter,Bool.and_eq_true,decide_eq_true_eq,PageKey.inode,Prod.mk.injEq]
  constructor
  · rintro ⟨⟨key',e⟩,⟨hm,hi,hf⟩,rfl⟩
    refine ⟨hi,hf,?_⟩
    rw [get_eq_some.2 hm]
    simp
  · rintro ⟨hi,hf,hs⟩
    obtain ⟨e,he⟩ := Option.ne_none_iff_exists'.1 hs
    exact ⟨(key,e),⟨get_eq_some.1 he,hi,hf⟩,rfl⟩

lemma removeFrom_entries (h : Removes (k.keysFrom mountId ino first) c p k k') (key : PageKey) :
    k'.cache.entries.get key =
      if key.inode = (mountId,ino) ∧ first ≤ key.pageIndex then none else k.cache.entries.get key := by
  rw [h.entries]
  by_cases hk : key ∈ k.keysFrom mountId ino first
  · obtain ⟨hi,hf,-⟩ := mem_keysFrom.1 hk
    rw [if_pos hk,if_pos ⟨hi,hf⟩]
  split_ifs with hr
  · by_contra hs
    exact hk (mem_keysFrom.2 ⟨hr.1,hr.2,hs⟩)
  · rfl

lemma zeroBoundary_spec (h : Owned c k hand) (hr : k.zeroBoundary mountId ino newSize = k') :
    Owned c k' hand ∧ k'.files = k.files ∧ k'.cache.fileSizes = k.cache.fileSizes ∧
      k'.frames = k.frames ∧ (k' = k ∧ (newSize%pageSize = 0 ∨
        k.cache.entries.get ⟨mountId,ino,newSize/pageSize⟩ = none) ∨
      ∃ e, 0 < newSize%pageSize ∧ k.cache.entries.get ⟨mountId,ino,newSize/pageSize⟩ = some e ∧
        k'.mem = update k.mem e.frame (fun i => if newSize%pageSize ≤ i then 0 else k.mem e.frame i) ∧
        ∀ key, k'.cache.entries.get key = if key = ⟨mountId,ino,newSize/pageSize⟩ then
          some {e with validBytes := newSize%pageSize, dirty := true} else k.cache.entries.get key) := by
  rw [zeroBoundary] at hr
  split_ifs at hr with hp
  · cases hk : k.cache.entries.get ⟨mountId,ino,newSize/pageSize⟩ with
    | none =>
      simp only [hk] at hr
      obtain rfl := hr
      exact ⟨h,rfl,rfl,rfl,.inl ⟨rfl,.inr rfl⟩⟩
    | some e =>
      simp only [hk] at hr
      subst hr
      refine ⟨(h.setMem _).modifyEntry _ (fun _ => rfl),rfl,rfl,rfl,.inr ⟨e,hp,rfl,rfl,fun key => ?_⟩⟩
      simp only [modifyEntry,get_modify,hk,Option.map_some]
  · obtain rfl := hr
    exact ⟨h,rfl,rfl,rfl,.inl ⟨rfl,.inl (by omega)⟩⟩

lemma cacheTruncate_spec (mountId ino newSize : Nat) (h : Owned c k hand) :
    Owned c (k.cacheTruncate mountId ino newSize) hand ∧
      (k.cacheTruncate mountId ino newSize).files = k.files ∧ (k.cacheTruncate mountId ino newSize).cache.fileSizes =
        update k.cache.fileSizes (mountId,ino) (some newSize) ∧
      ∀ key, (k.cacheTruncate mountId ino newSize).Dirty key → key.inode = (mountId,ino) ∨ k.Dirty key := by
  set k0 := k.setFileSize mountId ino newSize
  have h0 : Owned c k0 hand := h.congr rfl rfl (fun _ => rfl) h.tracked
  obtain ⟨h1,hr⟩ := removePages_spec (p := True)
    (k0.keysFrom mountId ino ((newSize+(pageSize-1))%2^64 / pageSize)) h0
  set k1 := (k0.keysFrom mountId ino ((newSize+(pageSize-1))%2^64 / pageSize)).foldl removePage k0
  obtain ⟨h2,hf,hs,-,hz⟩ := zeroBoundary_spec h1 (rfl : k1.zeroBoundary mountId ino newSize = _)
  refine ⟨h2,hf.trans hr.files,hs.trans hr.sizes,fun key hd => ?_⟩
  have hd1 : ∀ key, k1.Dirty key → k.Dirty key := by
    rintro key ⟨e,he,hd⟩
    rw [hr.entries] at he
    split_ifs at he
    exact ⟨e,he,hd⟩
  have hd' : (k1.zeroBoundary mountId ino newSize).Dirty key := hd
  rcases hz with ⟨heq,-⟩ | ⟨e0,-,-,-,hg⟩
  · rw [heq] at hd'
    exact .inr (hd1 key hd')
  obtain ⟨e,he,hd⟩ := hd'
  rw [hg] at he
  split_ifs at he with hsa
  · exact .inl (by rw [hsa]; rfl)
  · exact .inr (hd1 key ⟨e,he,hd⟩)

lemma truncate_page (page : Nat) {i : Nat} (hf : first = (newSize+(pageSize-1))/pageSize)
    (hi : i < pageSize) : (page*pageSize+i < newSize → page < first) ∧
      (page < first → page ≠ newSize/pageSize ∨ newSize%pageSize = 0 → page*pageSize+i < newSize) := by
  simp only [pageSize] at *
  omega

lemma truncate_byte (a : Nat × Nat → ByteFile) (inode : Nat × Nat) (newSize : Nat) (inode' : Nat × Nat) (x : Nat) :
    (setFile a inode ((a inode).truncate newSize) inode').byte x =
      if inode' = inode ∧ newSize ≤ x then 0 else (a inode').byte x := by
  by_cases hi : inode' = inode
  · subst hi
    simp only [setFile,update_self,ByteFile.truncate,true_and]
    split_ifs with hl hg <;> first | rfl | omega
  · simp [setFile,hi]

lemma truncateBoth_contents (hb : Contents k (fun inode => (a inode).byte)) (h : Owned c k hand)
    (hfit : newSize+(pageSize-1) < 2^64) : Contents (k.truncateBoth mountId ino newSize)
      (fun inode => (setFile a (mountId,ino) ((a (mountId,ino)).truncate newSize) inode).byte) := by
  set first := (newSize+(pageSize-1))%2^64 / pageSize with hmo
  have hfi : first = (newSize+(pageSize-1))/pageSize := by rw [hmo,Nat.mod_eq_of_lt hfit]
  set k0 := k.setFileSize mountId ino newSize
  have h0 : Owned c k0 hand := h.congr rfl rfl (fun _ => rfl) h.tracked
  obtain ⟨h1,hr⟩ := removePages_spec (p := True) (k0.keysFrom mountId ino first) h0
  set k1 := (k0.keysFrom mountId ino first).foldl removePage k0
  have hen : ∀ key, k1.cache.entries.get key =
      if key.inode = (mountId,ino) ∧ first ≤ key.pageIndex then none else k.cache.entries.get key :=
    removeFrom_entries (k := k0) hr
  have hk : ∀ key e, k1.cache.entries.get key = some e →
      (key.inode = (mountId,ino) → key.pageIndex < first) ∧ k.cache.entries.get key = some e := by
    intro key e he
    rw [hen] at he
    split_ifs at he with ho
    exact ⟨fun hin => by_contra (fun hge => ho ⟨hin,by omega⟩),he⟩
  obtain ⟨-,hfil,-,hfr,hz⟩ := zeroBoundary_spec h1 (rfl : k1.zeroBoundary mountId ino newSize = _)
  set k2 := k1.zeroBoundary mountId ino newSize
  set key0 : PageKey := ⟨mountId,ino,newSize/pageSize⟩ with hk0
  have hke : ∀ key : PageKey, key.inode = (mountId,ino) → key.pageIndex = newSize/pageSize → key = key0 := by
    rintro ⟨m,i,page⟩ hin rfl
    simp only [PageKey.inode,Prod.mk.injEq] at hin
    rw [hk0,hin.1,hin.2]
  -- A cached page other than the one that is cut lies below the new size.
  have hbe : ∀ key e, k1.cache.entries.get key = some e → key ≠ key0 ∨ newSize%pageSize = 0 → ∀ i, i < pageSize →
      k1.mem e.frame i =
        (setFile a (mountId,ino) ((a (mountId,ino)).truncate newSize) key.inode).byte (key.offset i) := by
    intro key e he hne i hi
    obtain ⟨hl,he'⟩ := hk key e he
    rw [truncate_byte,if_neg,hr.mem]
    · exact hb.cached key e he' i hi
    rintro ⟨hin,hge⟩
    have := (truncate_page key.pageIndex hfi hi).2 (hl hin)
      (hne.imp (fun hne hp => hne (hke key hin hp)) id)
    simp only [PageKey.offset] at hge
    omega
  refine ⟨fun key e he i hi => ?_,fun key hc i hi => ?_,fun key e he => ?_⟩
  · rcases hz with ⟨heq,hn⟩ | ⟨e0,hpo,he0,hm,hg⟩
    · have he1 : k1.cache.entries.get key = some e := by rw [← heq]; exact he
      have : key ≠ key0 ∨ newSize%pageSize = 0 := by
        refine hn.symm.imp (fun hn hk0 => ?_) id
        rw [hk0,hn] at he1
        cases he1
      have hm : (k.truncateBoth mountId ino newSize).mem = k2.mem := rfl
      rw [hm,heq]
      exact hbe key e he1 this i hi
    have hm' : (k.truncateBoth mountId ino newSize).mem = k2.mem := rfl
    have he1 := (hg key).symm.trans he
    rw [hm',hm]
    split_ifs at he1 with hs
    · cases he1
      subst hs
      simp only [update_self,truncate_byte]
      have hcu : newSize ≤ key0.offset i ↔ newSize%pageSize ≤ i := by
        simp only [hk0,PageKey.offset,pageSize]
        omega
      by_cases hge : newSize%pageSize ≤ i
      · rw [if_pos hge,if_pos ⟨rfl,hcu.2 hge⟩]
      · rw [if_neg hge,if_neg (fun ho => hge (hcu.1 ho.2)),hr.mem]
        exact hb.cached key0 e0 (hk _ _ he0).2 i hi
    · have hne : e.frame ≠ e0.frame := fun hf => hs (hb.frame_inj h (hk _ _ he0).2 (hk _ _ he1).2 hf)
      rw [update_of_ne hne]
      exact hbe key e he1 (.inl hs) i hi
  · -- A clean page that the new size reaches was clean before.
    have hol : (key.inode = (mountId,ino) → key.pageIndex < first) → ∀ e, k.cache.entries.get key = some e →
        e.dirty = false := by
      intro hl e he
      have he1 : k1.cache.entries.get key = some e := by
        rw [hen,if_neg (fun ho => by have := hl ho.1; omega)]
        exact he
      rcases hz with ⟨heq,-⟩ | ⟨e0,-,-,-,hg⟩
      · refine hc e (Eq.trans ?_ he1)
        rw [← heq]
        rfl
      have hg' := hg key
      split_ifs at hg' with hs
      · have := hc _ hg'
        cases this
      · exact hc e (hg'.trans he1)
    have hfile : (k.truncateBoth mountId ino newSize).files =
        update k2.files (mountId,ino) ((k2.files (mountId,ino)).truncate newSize) := rfl
    rw [hfile,hfil,hr.files,truncate_byte]
    by_cases hin : key.inode = (mountId,ino)
    · by_cases hge : newSize ≤ key.offset i
      · rw [if_pos ⟨hin,hge⟩,hin]
        simp only [update_self,ByteFile.truncate]
        rw [if_neg (by omega)]
      rw [if_neg (fun ho => hge ho.2)]
      have hl := (truncate_page key.pageIndex hfi hi).1 (by simp only [PageKey.offset] at hge; omega)
      rw [← hb.clean key (hol (fun _ => hl)) i hi,hin]
      simp only [update_self,ByteFile.truncate]
      rw [if_pos (by omega)]
      rfl
    · rw [if_neg (fun ho => hin ho.1),update_of_ne hin]
      exact hb.clean key (hol (fun ho => absurd ho hin)) i hi
  · have hk' : ∃ e', k1.cache.entries.get key = some e' ∧ e'.frame = e.frame := by
      rcases hz with ⟨heq,-⟩ | ⟨e0,-,he0,-,hg⟩
      · exact ⟨e,by rw [← heq]; exact he,rfl⟩
      have he' := (hg key).symm.trans he
      split_ifs at he' with hs
      · exact ⟨e0,hs ▸ he0,by rw [← Option.some.inj he']⟩
      · exact ⟨e,he',rfl⟩
    obtain ⟨e',he',hfra⟩ := hk'
    have hco := hr.count e'.frame
    have ha := hb.alone key e' (hk key e' he').2
    have hs : (k.truncateBoth mountId ino newSize).frames = k1.frames := hfr
    have hf0 : k0.frames = k.frames := rfl
    rw [hs,← hfra]
    rw [hf0] at hco
    omega

lemma truncateBoth_spec (mountId ino newSize : Nat) (h : Owned c k hand) :
    Owned c (k.truncateBoth mountId ino newSize) hand ∧
      (Coherent k a → newSize+(pageSize-1) < 2^64 → Coherent (k.truncateBoth mountId ino newSize)
        (setFile a (mountId,ino) ((a (mountId,ino)).truncate newSize))) := by
  obtain ⟨ho,hf,hs,hdi⟩ := cacheTruncate_spec mountId ino newSize h
  refine ⟨ho.congr rfl rfl (fun _ => rfl) ho.tracked,fun ha hfi =>
    ⟨truncateBoth_contents ha.contents h hfi,fun inode size hsi => ?_,fun inode hsi => ?_,fun key hd => ?_⟩⟩
  · have hs' := (congrFun hs inode).symm.trans hsi
    by_cases hi : inode = (mountId,ino)
    · subst hi
      simp only [update_self,Option.some.injEq] at hs'
      simp [setFile,ByteFile.truncate,hs']
    · rw [update_of_ne hi] at hs'
      rw [setFile,update_of_ne hi]
      exact ha.known inode size hs'
  · have hs' := (congrFun hs inode).symm.trans hsi
    have hi : inode ≠ (mountId,ino) := by
      rintro rfl
      simp at hs'
    rw [update_of_ne hi] at hs'
    rw [setFile,update_of_ne hi,truncateBoth,truncateFile]
    simp only [update_of_ne hi,hf]
    exact ha.unknown inode hs'
  · have hsi : (k.truncateBoth mountId ino newSize).cache.fileSizes key.inode =
        update k.cache.fileSizes (mountId,ino) (some newSize) key.inode := congrFun hs key.inode
    rw [hsi,update_apply]
    split_ifs with hi
    · simp
    · exact ha.dirty key ((hdi key hd).resolve_left hi)

end
end Kernel
end Vanta.Mm
