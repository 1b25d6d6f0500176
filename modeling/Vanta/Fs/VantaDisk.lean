import Vanta.Fs.VantaFs

namespace Vanta.Fs
open Library List
namespace FileRecord

def Active (r : FileRecord) : Prop := r.nameLength ≠ 0

def key (r : FileRecord) : List UInt8 := r.name.take r.nameLength

/-- A record in use that a directory entry can hold. -/
structure Stored (r : FileRecord) (sectorCount : Nat) : Prop where
  name : r.name.length = maxPathLength
  active : r.Active
  nameLength : r.nameLength ≤ maxPathLength
  start_lt : r.startSector < 2^32
  count_lt : r.sectorCount < 2^32
  length_lt : r.length < 2^32
  extent : r.sectorCount ≠ 0 → firstDataSector ≤ r.startSector ∧ r.startSector+r.sectorCount ≤ sectorCount
  fits : r.length ≤ r.sectorCount*sectorSize
  directory : r.kind = .directory → r.length = 0 ∧ r.sectorCount = 0 ∧ r.startSector = 0

end FileRecord
namespace VantaFs
variable {s : Sector} {r : FileRecord} {sc i j : Nat}

lemma encodeRecord_length (h : r.Stored sc) : (encodeRecord r).length = 62 := by
  simp [encodeRecord,h.name,maxPathLength]

lemma encodeRecord_drop (h : r.Stored sc) :
    (encodeRecord r).drop 2 = r.name++leBytes 4 r.startSector++leBytes 4 r.sectorCount++leBytes 4 r.length ∧
      (encodeRecord r).drop 50 = leBytes 4 r.startSector++leBytes 4 r.sectorCount++leBytes 4 r.length ∧
      (encodeRecord r).drop 54 = leBytes 4 r.sectorCount++leBytes 4 r.length ∧
      (encodeRecord r).drop 58 = leBytes 4 r.length := by
  have hn := h.name
  simp only [maxPathLength] at hn
  have h2 : (encodeRecord r).drop 2 = r.name++(leBytes 4 r.startSector++(leBytes 4 r.sectorCount ++
      leBytes 4 r.length)) := by
    simp [encodeRecord]
  have h5 : (encodeRecord r).drop 50 = leBytes 4 r.startSector++(leBytes 4 r.sectorCount++leBytes 4 r.length) := by
    rw [show 50 = 2+48 from rfl,← drop_drop,h2,← hn,drop_left]
  have h54 : (encodeRecord r).drop 54 = leBytes 4 r.sectorCount++leBytes 4 r.length := by
    rw [show 54 = 50+4 from rfl,← drop_drop,h5]
    simp
  have h58 : (encodeRecord r).drop 58 = leBytes 4 r.length := by
    rw [show 58 = 54+4 from rfl,← drop_drop,h54]
    simp
  simp only [append_assoc]
  exact ⟨h2,h5,h54,h58⟩

lemma getLe_overlay {buf rest : List UInt8} {a w v : Nat} (off : Nat)
    (h : buf.drop a = leBytes w v++rest) (ha : a ≤ buf.length) (hv : v < 256^w) :
    getLe (overlay s off buf) (off+a) w = v := by
  have hl := congrArg length h
  simp only [length_drop,length_append,leBytes_length] at hl
  have ht : (leBytes w v++rest).take w = leBytes w v := by
    rw [take_append_of_le_length (by simp),take_of_length_le (by simp)]
  rw [getLe,window_overlay (by omega),h,ht,ofLe_leBytes_of_lt hv]

lemma fields_store (h : r.Stored sc) (off : Nat) : let s' := overlay s off (encodeRecord r)
    s' off = r.kind.byte ∧ (s' (off+1)).toNat = r.nameLength ∧
      window s' (off+2) maxPathLength = r.name ∧ getLe s' (off+50) 4 = r.startSector ∧
      getLe s' (off+54) 4 = r.sectorCount ∧ getLe s' (off+58) 4 = r.length := by
  have hl := encodeRecord_length h
  have hn := h.name
  have hnl := h.nameLength
  simp only [maxPathLength] at hn hnl
  obtain ⟨h2,h5,h54,h58⟩ := encodeRecord_drop h
  have hk := overlay_getElem? s off (show 0 < (encodeRecord r).length by omega)
  have hnlb := overlay_getElem? s off (show 1 < (encodeRecord r).length by omega)
  simp only [encodeRecord,cons_append,nil_append,getElem?_cons_zero,
    getElem?_cons_succ,Option.some.injEq,Nat.add_zero] at hk hnlb
  refine ⟨hk,?_,?_,?_,?_,?_⟩
  · rw [show overlay s off (encodeRecord r) (off+1) = _ from hnlb,UInt8.toNat_ofNat']
    omega
  · rw [window_overlay (by rw [hl]; simp [maxPathLength]),h2,maxPathLength,append_assoc,
      append_assoc,← hn,take_left]
  · exact getLe_overlay off (by rw [h5,append_assoc]) (by omega) h.start_lt
  · exact getLe_overlay off h54 (by omega) h.count_lt
  · exact getLe_overlay off (by rw [h58,append_nil]) (by omega) h.length_lt

lemma decodeEntry_store (h : r.Stored sc) (i : Nat) :
    decodeEntry (overlay s (i*directoryEntrySize) (encodeRecord r)) sc i = .ok r := by
  obtain ⟨hk,hnl,hn,hs,hc,hl⟩ := fields_store (s := s) h (i*directoryEntrySize)
  have hki : (if r.kind.byte = 1 then EntryKind.file else .directory) = r.kind := by
    cases r.kind <;> rfl
  have hr : rawRecord (overlay s (i*directoryEntrySize) (encodeRecord r)) (i*directoryEntrySize) = r := by
    simp only [rawRecord,hk,hnl,hn,hs,hc,hl,hki]
  have hb : r.kind.byte ≠ 0 ∧ ¬(r.kind.byte ≠ 1 ∧ r.kind.byte ≠ 2) := by
    cases r.kind <;> decide
  have hp : r.nameLength ≠ 0 := h.active
  have hn' := h.nameLength
  have he := h.extent
  have hf := h.fits
  rw [decodeEntry,hr,hk,checkRecord,if_neg hb.1,if_neg hb.2,if_neg (by omega),if_neg (by omega),
    if_neg (by omega),if_neg]
  rintro ⟨hd,hne⟩
  have := h.directory hd
  omega

lemma decodeEntry_congr {s' : Sector} (h : ∀ a, j*directoryEntrySize ≤ a → a < j*directoryEntrySize+62 → s' a = s a) :
    decodeEntry s' sc j = decodeEntry s sc j := by
  have hw : ∀ a n, j*directoryEntrySize ≤ a → a+n ≤ j*directoryEntrySize+62 → window s' a n = window s a n :=
    fun a n ha hn => window_eq_iff.2 (fun b hb hl => h b (by omega) (by omega))
  have h0 := h (j*directoryEntrySize) (by omega) (by omega)
  have h1 := h (j*directoryEntrySize+1) (by omega) (by omega)
  have h2 := hw (j*directoryEntrySize+2) maxPathLength (by omega) (by simp [maxPathLength])
  have h5 := hw (j*directoryEntrySize+50) 4 (by omega) (by omega)
  have h54 := hw (j*directoryEntrySize+54) 4 (by omega) (by omega)
  have h58 := hw (j*directoryEntrySize+58) 4 (by omega) (by omega)
  have hr : rawRecord s' (j*directoryEntrySize) = rawRecord s (j*directoryEntrySize) := by
    simp only [rawRecord,getLe,h0,h1,h2,h5,h54,h58]
  rw [decodeEntry,decodeEntry,hr,h0]

lemma decodeEntry_overlay_of_ne {buf : List UInt8} (hi : j ≠ i) (hb : buf.length ≤ directoryEntrySize) :
    decodeEntry (overlay s (i*directoryEntrySize) buf) sc j = decodeEntry s sc j := by
  refine decodeEntry_congr (fun a ha hl => ?_)
  simp only [directoryEntrySize] at *
  rcases Nat.lt_or_gt_of_ne hi with hl' | hg
  · exact overlay_of_lt (by omega)
  · exact overlay_of_ge (by omega)

lemma decodeEntry_clear (i : Nat) :
    decodeEntry (overlay s (i*directoryEntrySize) (replicate directoryEntrySize 0)) sc i = .ok .empty := by
  have h0 := overlay_getElem? s (i*directoryEntrySize)
    (show 0 < (replicate directoryEntrySize (0 : UInt8)).length by simp [directoryEntrySize])
  simp only [directoryEntrySize,replicate_succ,getElem?_cons_zero,Option.some.injEq,Nat.add_zero] at h0
  rw [decodeEntry,checkRecord,if_pos]
  simpa only [directoryEntrySize,replicate_succ] using h0

lemma decodeEntry_sound (h : decodeEntry s sc i = .ok r) : r = .empty ∨ r.Stored sc := by
  unfold decodeEntry checkRecord at h
  dsimp only at h
  split_ifs at h with h0 hk hn hx hl hd
  · exact .inl (Except.ok.inj h).symm
  right
  have hlt : ∀ a, getLe s a 4 < 2^32 := by
    intro a
    have := ofLe_lt (window s a 4)
    rw [window_length] at this
    exact this
  cases h
  simp only [not_or,not_and,Nat.not_lt,not_not] at hn hx hl hd
  refine ⟨by simp [rawRecord],hn.1,by omega,hlt _,hlt _,hlt _,fun hne => ?_,by omega,fun hdi => ?_⟩
  · have := hx hne
    omega
  · exact hd hdi

lemma decodeEntries_ok {f : Nat → FileRecord} {l : List Nat}
    (h : ∀ i ∈ l, decodeEntry s sc i = .ok (f i)) : decodeEntries s sc l = .ok (l.map f) := by
  induction l with
  | nil => rfl
  | cons i l ih => simp [decodeEntries,h i (by simp),ih (fun j hj => h j (by simp [hj]))]

/-- Byte `i` of the extent that starts at sector `start`. -/
def diskByte (d : BlockDevice) (start i : Nat) : UInt8 := d.sectors (start+i/sectorSize) (i%sectorSize)

lemma window_diskByte_succ (d : BlockDevice) (start n : Nat) :
    window (diskByte d (start+1)) 0 n = window (diskByte d start) sectorSize n := by
  refine map_congr_left (fun i _ => ?_)
  have hd : (sectorSize+i)/sectorSize = i/sectorSize+1 := by
    simp only [sectorSize]
    omega
  have hm : (sectorSize+i)%sectorSize = i%sectorSize := by
    simp only [sectorSize]
    omega
  simp only [diskByte,Nat.zero_add,hd,hm]
  congr 1
  omega

lemma window_sector (d : BlockDevice) (start : Nat) {n : Nat} (h : n ≤ sectorSize) :
    window (d.sectors start) 0 n = window (diskByte d start) 0 n := by
  refine window_eq_iff.2 (fun i _ hi => ?_)
  have hi : i < sectorSize := by omega
  rw [diskByte,Nat.div_eq_of_lt hi,Nat.mod_eq_of_lt hi,Nat.add_zero]

lemma readSectors_eq (d : BlockDevice) (n start left : Nat) (h : left ≤ n*sectorSize) :
    readSectors d n start left = window (diskByte d start) 0 left := by
  induction n generalizing start left with
  | zero =>
    have : left = 0 := by omega
    simp [readSectors,this]
  | succ n ih =>
    rw [readSectors]
    by_cases hl : left ≤ sectorSize
    · rw [Nat.min_eq_left hl,Nat.sub_self,if_pos rfl,append_nil,window_sector d start hl]
    rw [Nat.min_eq_right (by omega),if_neg (by omega),window_sector d start (le_refl _),
      ih (start+1) (left-sectorSize) (by rw [Nat.add_mul] at h; omega),window_diskByte_succ]
    have hs : window (diskByte d start) 0 (sectorSize+(left-sectorSize)) = _ := window_add sectorSize
    rw [Nat.zero_add,Nat.add_sub_cancel' (by omega)] at hs
    exact hs.symm

lemma writeSector_sectors (d : BlockDevice) (k s : Nat) (bytes : Sector) :
    (d.writeSector k bytes).sectors s = if s = k then bytes else d.sectors s := rfl

section
variable (d : BlockDevice) (start : Nat) (data : List UInt8)
include d start data

lemma writeSectors_sectors (n offset s : Nat) : (writeSectors d start data n offset).sectors s =
      if start+offset ≤ s ∧ s < start+offset+n then dataSector data (s-start) else d.sectors s := by
  induction n generalizing d offset with
  | zero => rw [writeSectors,if_neg (by omega)]
  | succ n ih =>
    rw [writeSectors,ih]
    by_cases h : start+(offset+1) ≤ s ∧ s < start+(offset+1)+n
    · rw [if_pos h,if_pos (by omega)]
    rw [if_neg h,writeSector_sectors]
    by_cases hs : s = start+offset
    · subst hs
      rw [if_pos rfl,if_pos (by omega),Nat.add_sub_cancel_left]
    · rw [if_neg hs,if_neg (by omega)]

lemma writeSectors_sectorCount (n offset : Nat) : (writeSectors d start data n offset).sectorCount = d.sectorCount := by
  induction n generalizing d offset with
  | zero => rfl
  | succ n ih => rw [writeSectors,ih]; rfl

lemma diskByte_writeSectors {n i : Nat} (hi : i < n*sectorSize) :
    diskByte (writeSectors d start data n 0) start i = data.getD i 0 := by
  have hd : i/sectorSize < n := Nat.div_lt_of_lt_mul (by rw [Nat.mul_comm]; exact hi)
  have hm : i%sectorSize < sectorSize := Nat.mod_lt i (by decide)
  have hs : i/sectorSize*sectorSize+i%sectorSize = i := Nat.div_add_mod' i sectorSize
  rw [diskByte,writeSectors_sectors,if_pos ⟨Nat.le_add_right _ _,Nat.add_lt_add_left hd _⟩,
    Nat.add_sub_cancel_left,dataSector,overlay]
  by_cases h : i < data.length
  · rw [if_pos]
    · rw [getD_eq_getElem?_getD,getD_eq_getElem?_getD,Nat.sub_zero,
        getElem?_take_of_lt hm,getElem?_drop,hs]
    · rw [length_take,length_drop]
      omega
  · rw [if_neg,getD_eq_default _ _ (by omega)]
    rw [length_take,length_drop]
    omega

lemma window_writeSectors {n m : Nat} (hm : m ≤ data.length) (h : m ≤ n*sectorSize) :
    window (diskByte (writeSectors d start data n 0) start) 0 m = data.take m := by
  apply ext_getElem?
  intro i
  by_cases hi : i < m
  · rw [window_getElem? _ _ hi,Nat.zero_add,diskByte_writeSectors d start data (by omega),
      getElem?_take_of_lt hi,getElem?_eq_getElem (by omega),
      getD_eq_getElem _ _ (by omega)]
  · rw [getElem?_eq_none (by rw [window_length]; omega),getElem?_eq_none (by rw [length_take]; omega)]

end

lemma window_diskByte_congr {d d' : BlockDevice} {start n m : Nat} (h : m ≤ n*sectorSize)
    (hs : ∀ s, start ≤ s → s < start+n → d'.sectors s = d.sectors s) :
    window (diskByte d' start) 0 m = window (diskByte d start) 0 m := by
  refine window_eq_iff.2 (fun i _ hi => ?_)
  have hd : i/sectorSize < n := Nat.div_lt_of_lt_mul (by rw [Nat.mul_comm]; omega)
  rw [diskByte,diskByte,hs _ (Nat.le_add_right _ _) (Nat.add_lt_add_left hd _)]

end VantaFs
end Vanta.Fs
