import Mathlib.Logic.Function.Basic
import Vanta.Fs.VantaDisk

namespace Vanta.Fs
open Library Function List

inductive Entry where
  | file (bytes : List UInt8)
  | directory

/-- The abstract filesystem: what each path names. -/
abbrev Entries := List UInt8 → Option Entry

/-- Some entry lies below the directory `p`. -/
def Entries.HasChild (m : Entries) (p : List UInt8) : Prop := ∃ q e, m q = some e ∧ p++[slash] <+: q

def Entry.kind : Entry → EntryKind
  | .file _ => .file
  | .directory => .directory

def Entries.listed (m : Entries) (p : List UInt8) : List UInt8 :=
  VantaFs.listedPath p (match m p with
    | none => .file
    | some e => e.kind)

namespace VantaFs

def entryAt (d : BlockDevice) (r : FileRecord) : Entry :=
  match r.kind with
  | .file => .file (window (diskByte d r.startSector) 0 r.length)
  | .directory => .directory

def extentsApart (r r' : FileRecord) : Prop :=
  r.startSector+r.sectorCount ≤ r'.startSector ∨ r'.startSector+r'.sectorCount ≤ r.startSector

/-- The device of `fs` holds the records `dir`, with distinct paths and disjoint extents, and they make
up the map `m`. -/
structure Represents (fs : VantaFs) (dir : Nat → FileRecord) (m : Entries) : Prop where
  count : fs.sectorCount = fs.device.sectorCount
  formatted : isFormatted fs.device = true
  decoded : ∀ i < maxDirectoryEntries,decodeEntry (fs.device.sectors directorySector) fs.sectorCount i = .ok (dir i)
  unique : ∀ i < maxDirectoryEntries, ∀ j < maxDirectoryEntries, (dir i).Active → (dir j).Active →
    (dir i).key = (dir j).key → i = j
  apart : ∀ i < maxDirectoryEntries, ∀ j < maxDirectoryEntries, i ≠ j → (dir i).Active → (dir j).Active →
    extentsApart (dir i) (dir j)
  utf8 : ∀ i < maxDirectoryEntries, (dir i).Active → validUtf8 (dir i).key = true
  maps : ∀ p e, m p = some e ↔
    ∃ i < maxDirectoryEntries, (dir i).Active ∧ (dir i).key = p ∧ entryAt fs.device (dir i) = e

variable {fs : VantaFs} {dir : Nat → FileRecord} {m : Entries} {p : List UInt8} {i : Nat}
  {r : FileRecord}

lemma empty_not_active : ¬FileRecord.empty.Active := by simp [FileRecord.Active,FileRecord.empty]

lemma key_length {sc : Nat} (h : r.Stored sc) : r.key.length = r.nameLength := by
  have := h.nameLength
  have := h.name
  simp only [FileRecord.key,length_take]
  omega

lemma entryAt_congr {d d' : BlockDevice} {sc : Nat} (h : r.Stored sc)
    (hs : ∀ s, r.startSector ≤ s → s < r.startSector+r.sectorCount → d'.sectors s = d.sectors s) :
    entryAt d' r = entryAt d r := by
  unfold entryAt
  cases r.kind with
  | file => simp only [window_diskByte_congr h.fits hs]
  | directory => rfl

lemma kind_of_entryAt {d : BlockDevice} (h : entryAt d r = .directory) : r.kind = .directory := by
  unfold entryAt at h
  cases hk : r.kind with
  | file => simp [hk] at h
  | directory => rfl

lemma findIn_some (hf : findIn ((range maxDirectoryEntries).map dir) p = some (i,r)) :
    i < maxDirectoryEntries ∧ r = dir i ∧ (dir i).Active ∧ (dir i).key = p := by
  unfold findIn at hf
  split at hf
  · simp at hf
  next index hi =>
  obtain ⟨hl,hp,-⟩ := findIdx?_eq_some_iff_getElem.1 hi
  simp only [length_map,length_range] at hl
  have hg : ((range maxDirectoryEntries).map dir)[index]? = some (dir index) := by
    simp [hl]
  rw [hg] at hf
  cases hf
  simp only [getElem_map,getElem_range,Bool.and_eq_true,bne_iff_ne,ne_eq,FileRecord.matchesPath,beq_iff_eq] at hp
  exact ⟨hl,rfl,hp.1,hp.2.2⟩

namespace Represents
section
variable (h : Represents fs dir m)
include h

lemma stored (hi : i < maxDirectoryEntries) (ha : (dir i).Active) : (dir i).Stored fs.sectorCount := by
  rcases decodeEntry_sound (h.decoded i hi) with he | hs
  · rw [he] at ha
    exact absurd ha empty_not_active
  · exact hs

lemma records_eq : fs.records = .ok ((range maxDirectoryEntries).map dir) :=
  decodeEntries_ok (fun i hi => h.decoded i (mem_range.1 hi))

lemma entry_of_active (hi : i < maxDirectoryEntries)
    (ha : (dir i).Active) : m (dir i).key = some (entryAt fs.device (dir i)) :=
  (h.maps _ _).2 ⟨i,hi,ha,rfl,rfl⟩

lemma key_ne_of_none (hi : i < maxDirectoryEntries) (ha : (dir i).Active) (hp : m p = none) : (dir i).key ≠ p := by
  rintro rfl
  rw [h.entry_of_active hi ha] at hp
  cases hp

lemma findIn_none (hf : findIn ((range maxDirectoryEntries).map dir) p = none) : m p = none := by
  cases hm : m p with
  | none => rfl
  | some e =>
    obtain ⟨i,hi,ha,hk,-⟩ := (h.maps p e).1 hm
    unfold findIn at hf
    split at hf
    · next hn =>
      have := findIdx?_eq_none_iff.1 hn (dir i) (by simpa using ⟨i,hi,rfl⟩)
      have hl := key_length (h.stored hi ha)
      rw [hk] at hl
      have hp : (dir i).nameLength ≠ 0 := ha
      simp only [FileRecord.key] at hk
      simp [FileRecord.matchesPath,hp,hl,hk] at this
    · next index hid =>
      obtain ⟨hlt,-,-⟩ := findIdx?_eq_some_iff_getElem.1 hid
      simp only [length_map,length_range] at hlt
      simp [hlt] at hf

lemma findIn_isSome (hf : findIn ((range maxDirectoryEntries).map dir) p = some (i,r)) :
    m p = some (entryAt fs.device r) := by
  obtain ⟨hi,rfl,ha,rfl⟩ := VantaFs.findIn_some hf
  exact h.entry_of_active hi ha

lemma childIn_iff : childIn ((range maxDirectoryEntries).map dir) p = true ↔ m.HasChild p := by
  have hc : childIn ((range maxDirectoryEntries).map dir) p = true ↔
      ∃ i < maxDirectoryEntries, (dir i).Active ∧ p++[slash] <+: (dir i).key := by
    simp only [childIn,any_map,any_eq_true,mem_range,comp_apply,
      Bool.and_eq_true,decide_eq_true_eq,beq_iff_eq, isPrefixOf_iff_prefix]
    constructor
    · rintro ⟨i,hi,⟨hl,hp⟩,hsl⟩
      have ha : (dir i).Active := by
        simp only [FileRecord.Active]
        omega
      have hs := h.stored hi ha
      refine ⟨i,hi,ha,?_⟩
      obtain ⟨rest,hr⟩ := hp
      have hk := key_length hs
      cases rest with
      | nil =>
        rw [append_nil] at hr
        have := congrArg length hr
        simp only [FileRecord.key] at hk
        omega
      | cons b rest =>
        have hg : (dir i).name[p.length]? = some b := by
          have : ((dir i).name.take (dir i).nameLength)[p.length]? = some b := by
            rw [← hr]
            simp
          rwa [getElem?_take_of_lt hl] at this
        rw [getD_eq_getElem?_getD,hg,Option.getD_some] at hsl
        subst hsl
        exact ⟨rest,by rw [FileRecord.key,← hr]; simp⟩
    · rintro ⟨i,hi,ha,rest,hr⟩
      have hk := key_length (h.stored hi ha)
      have hl : p.length < (dir i).nameLength := by
        rw [← hk,← hr]
        simp
      refine ⟨i,hi,⟨hl,⟨slash::rest,by rw [← FileRecord.key,← hr]; simp⟩⟩,?_⟩
      have hg : (dir i).name[p.length]? = some slash := by
        have : (dir i).key[p.length]? = some slash := by
          rw [← hr]
          simp
        rwa [FileRecord.key,getElem?_take_of_lt hl] at this
      rw [getD_eq_getElem?_getD,hg,Option.getD_some]
  rw [hc]
  constructor
  · rintro ⟨i,hi,ha,hp⟩
    exact ⟨_,_,h.entry_of_active hi ha,hp⟩
  rintro ⟨q,e,hm,hp⟩
  obtain ⟨i,hi,ha,rfl,-⟩ := (h.maps q e).1 hm
  exact ⟨i,hi,ha,hp⟩

end

/-- The map after a record `old` became `new`: its old path is gone, its new path is there. -/
def restore (m : Entries) (d : BlockDevice) (old new : FileRecord) : Entries := fun q =>
  if new.nameLength ≠ 0 ∧ q = new.key then some (entryAt d new)
  else if old.nameLength ≠ 0 ∧ q = old.key then none
  else m q

lemma pairwise_update {R : FileRecord → FileRecord → Prop} {dir : Nat → FileRecord} {n i : Nat} {r : FileRecord}
    (hs : ∀ {x y}, R x y → R y x) (h : ∀ j < n, ∀ k < n, j ≠ k → R (dir j) (dir k))
    (hn : ∀ j < n, j ≠ i → R (dir j) r) : ∀ j < n, ∀ k < n, j ≠ k → R (update dir i r j) (update dir i r k) := by
  intro j hj k hk hjk
  by_cases hji : j = i
  · subst hji
    rw [update_self,update_of_ne (Ne.symm hjk)]
    exact hs (hn k hk (Ne.symm hjk))
  rw [update_of_ne hji]
  by_cases hki : k = i
  · subst hki
    rw [update_self]
    exact hn j hj hji
  · rw [update_of_ne hki]
    exact h j hj k hk hjk

section
variable (h : Represents fs dir m)
include h
variable {d : BlockDevice}

/-- A new directory sector with another entry at `i`, on a device that differs from the old one outside of the other
extents. -/
lemma replace (hi : i < maxDirectoryEntries) {bytes : Sector} (hc : d.sectorCount = fs.device.sectorCount)
    (hsu : d.sectors superblockSector = fs.device.sectors superblockSector)
    (hf : ∀ j < maxDirectoryEntries, j ≠ i → (dir j).Active → ∀ s, (dir j).startSector ≤ s →
      s < (dir j).startSector+(dir j).sectorCount → d.sectors s = fs.device.sectors s)
    (hse : decodeEntry bytes fs.sectorCount i = .ok r)
    (ho : ∀ j < maxDirectoryEntries, j ≠ i → decodeEntry bytes fs.sectorCount j =
      decodeEntry (fs.device.sectors directorySector) fs.sectorCount j)
    (hn : r.Active → validUtf8 r.key = true ∧ ∀ j < maxDirectoryEntries, j ≠ i → (dir j).Active →
      (dir j).key ≠ r.key ∧ extentsApart (dir j) r) :
    Represents ⟨d.writeSector directorySector bytes,fs.sectorCount⟩ (update dir i r) (restore m d (dir i) r) := by
  have hr : r.Active → r.Stored fs.sectorCount := by
    intro ha
    rcases decodeEntry_sound hse with he | hs
    · rw [he] at ha
      exact absurd ha empty_not_active
    · exact hs
  -- the directory sector lies before every extent
  have hen : ∀ {r' : FileRecord}, r'.Stored fs.sectorCount →
      entryAt (d.writeSector directorySector bytes) r' = entryAt d r' := by
    intro r' hr'
    refine entryAt_congr hr' (fun s hs hl => ?_)
    have hex := hr'.extent (by omega)
    rw [writeSector_sectors,if_neg]
    simp only [firstDataSector,directorySector] at *
    omega
  have hol : ∀ j < maxDirectoryEntries, j ≠ i → (dir j).Active → entryAt d (dir j) = entryAt fs.device (dir j) :=
    fun j hj hji ha => entryAt_congr (h.stored hj ha) (hf j hj hji ha)
  refine ⟨h.count.trans hc.symm,?_,?_,?_,?_,?_,?_⟩
  · have hz : (d.writeSector directorySector bytes).sectors superblockSector =
        fs.device.sectors superblockSector := by
      rw [writeSector_sectors,if_neg (by decide),hsu]
    have hfo := h.formatted
    unfold isFormatted at hfo ⊢
    rw [hz]
    rwa [← hc] at hfo
  · intro j hj
    rw [writeSector_sectors,if_pos rfl]
    by_cases hji : j = i
    · subst hji
      rw [update_self]
      exact hse
    · rw [update_of_ne hji,ho j hj hji]
      exact h.decoded j hj
  · intro j hj k hk haj hak hkey
    by_contra hjk
    have hke := pairwise_update (R := fun x y => x.Active → y.Active → x.key ≠ y.key)
      (fun hxy hy hx => (hxy hx hy).symm) (fun j hj k hk hjk haj hak hkey => hjk (h.unique j hj k hk haj hak hkey))
      (fun j hj hji haj ha => ((hn ha).2 j hj hji haj).1)
    exact hke j hj k hk hjk haj hak hkey
  · exact pairwise_update (R := fun x y => x.Active → y.Active → extentsApart x y)
      (fun hxy hy hx => (hxy hx hy).symm) h.apart (fun j hj hji haj ha => ((hn ha).2 j hj hji haj).2)
  · intro j hj ha
    by_cases hji : j = i
    · subst hji
      rw [update_self] at ha ⊢
      exact (hn ha).1
    · rw [update_of_ne hji] at ha ⊢
      exact h.utf8 j hj ha
  intro q e
  constructor
  · intro hm
    unfold restore at hm
    split_ifs at hm with hq hg
    · refine ⟨i,hi,?_⟩
      rw [update_self,hen (hr hq.1)]
      exact ⟨hq.1,hq.2.symm,Option.some.inj hm⟩
    obtain ⟨j,hj,ha,hk,he⟩ := (h.maps q e).1 hm
    have hji : j ≠ i := by
      rintro rfl
      exact hg ⟨ha,hk.symm⟩
    refine ⟨j,hj,?_⟩
    rw [update_of_ne hji,hen (h.stored hj ha),hol j hj hji ha]
    exact ⟨ha,hk,he⟩
  · rintro ⟨j,hj,ha,hk,he⟩
    unfold restore
    by_cases hji : j = i
    · subst hji
      rw [update_self] at ha hk he
      rw [if_pos ⟨ha,hk.symm⟩,← he,hen (hr ha)]
    rw [update_of_ne hji] at ha hk he
    rw [hen (h.stored hj ha),hol j hj hji ha] at he
    rw [if_neg (fun hq => ((hn hq.1).2 j hj hji ha).1 (hk.trans hq.2)),if_neg]
    · exact (h.maps q e).2 ⟨j,hj,ha,hk,he⟩
    · rintro ⟨ha',hq⟩
      exact hji (h.unique j hj i hi ha ha' (hk.trans hq))

lemma remap {m' : Entries} (hc : d.sectorCount = fs.device.sectorCount)
    (hm : ∀ s < firstDataSector, d.sectors s = fs.device.sectors s)
    (hma : ∀ p e, m' p = some e ↔ ∃ i < maxDirectoryEntries, (dir i).Active ∧ (dir i).key = p ∧ entryAt d (dir i) = e) :
    Represents ⟨d,fs.sectorCount⟩ dir m' := by
  have hfo := h.formatted
  refine ⟨h.count.trans hc.symm,?_,?_,h.unique,h.apart,h.utf8,hma⟩
  · unfold isFormatted at hfo ⊢
    rw [hm superblockSector (by decide)]
    rwa [← hc] at hfo
  · rw [hm directorySector (by decide)]
    exact h.decoded

/-- Whatever the data area holds, the directory is that of some map. -/
lemma exists_remap (hc : d.sectorCount = fs.device.sectorCount)
    (hm : ∀ s < firstDataSector, d.sectors s = fs.device.sectors s) : ∃ m', Represents ⟨d,fs.sectorCount⟩ dir m' := by
  classical
  refine ⟨fun p => if hi : ∃ i < maxDirectoryEntries, (dir i).Active ∧ (dir i).key = p then
    some (entryAt d (dir hi.choose)) else none,h.remap hc hm (fun p e => ?_)⟩
  constructor
  · intro he
    split_ifs at he with hi
    obtain ⟨hl,ha,hk⟩ := hi.choose_spec
    exact ⟨_,hl,ha,hk,Option.some_inj.1 he⟩
  · rintro ⟨i,hl,ha,hk,rfl⟩
    have hi : ∃ i < maxDirectoryEntries, (dir i).Active ∧ (dir i).key = p := ⟨i,hl,ha,hk⟩
    obtain ⟨hl',ha',hk'⟩ := hi.choose_spec
    rw [dif_pos hi,h.unique _ hl' i hl ha' ha (hk'.trans hk.symm)]

lemma frame (hc : d.sectorCount = fs.device.sectorCount) (hm : ∀ s < firstDataSector, d.sectors s = fs.device.sectors s)
    (hf : ∀ j < maxDirectoryEntries, (dir j).Active → ∀ s, (dir j).startSector ≤ s →
      s < (dir j).startSector+(dir j).sectorCount → d.sectors s = fs.device.sectors s) :
    Represents ⟨d,fs.sectorCount⟩ dir m := by
  refine h.remap hc hm (fun q e => ?_)
  rw [h.maps q e]
  refine exists_congr (fun j => and_congr_right (fun hj => and_congr_right (fun ha => ?_)))
  rw [entryAt_congr (h.stored hj ha) (hf j hj ha)]

lemma store (hi : i < maxDirectoryEntries) (hc : d.sectorCount = fs.device.sectorCount)
    (hm : ∀ s < firstDataSector, d.sectors s = fs.device.sectors s)
    (hf : ∀ j < maxDirectoryEntries, j ≠ i → (dir j).Active → ∀ s, (dir j).startSector ≤ s →
      s < (dir j).startSector+(dir j).sectorCount → d.sectors s = fs.device.sectors s)
    (hr : r.Stored fs.sectorCount) (hu : validUtf8 r.key = true)
    (hn : ∀ j < maxDirectoryEntries, j ≠ i → (dir j).Active → (dir j).key ≠ r.key ∧ extentsApart (dir j) r) :
    Represents ⟨d.writeSector directorySector
        (overlay (d.sectors directorySector) (i*directoryEntrySize) (encodeRecord r)),fs.sectorCount⟩
      (update dir i r) (restore m d (dir i) r) := by
  refine h.replace hi hc (hm _ (by decide)) hf (decodeEntry_store hr i) (fun j _ hj => ?_)
    (fun _ => ⟨hu,hn⟩)
  rw [decodeEntry_overlay_of_ne hj (by rw [encodeRecord_length hr]; decide),hm _ (by decide)]

lemma clear (hi : i < maxDirectoryEntries) : Represents (fs.clearRecord i).1 (update dir i .empty)
      (restore m fs.device (dir i) .empty) :=
  h.replace hi rfl rfl (fun _ _ _ _ _ _ _ => rfl) (decodeEntry_clear i)
    (fun j _ hj => decodeEntry_overlay_of_ne hj (by simp))
    (fun ha => absurd ha empty_not_active)

end
end Represents
end VantaFs
end Vanta.Fs
