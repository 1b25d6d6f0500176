import Mathlib.Logic.Function.Basic
import Mathlib.Data.List.Basic
import Mathlib.Algebra.Group.Nat.Defs

namespace Vanta.Fs.Redox
open Function List

def sectorSize : Nat := 512
def sectorsPerBlock : Nat := 8

/-- A partition as the discovery functions return it. -/
structure RootPartition where
  startLba : Nat
  endLba : Nat
  ordered : startLba ≤ endLba

def RootPartition.sectorCount (p : RootPartition) : Nat := (p.endLba-p.startLba+1)%2^64

def RootPartition.absoluteLba (p : RootPartition) (relativeLba : Nat) : Option Nat :=
  if relativeLba ≥ p.sectorCount then none else some ((p.startLba+relativeLba)%2^64)

/-- What `new` accepts: the partition ends on the device. -/
structure RedoxDisk where
  partition : RootPartition
  deviceSectors : Nat
  word : deviceSectors < 2^64
  bounded : partition.endLba < deviceSectors

/-- The bytes of the device, by sector. -/
abbrev Sectors := Nat → Nat → UInt8

namespace RedoxDisk
variable (d : RedoxDisk)
variable (block byteLen : Nat)

def translate : Option (Nat × Nat) :=
  let relativeSector := block*sectorsPerBlock
  let sectorCount := byteLen/sectorSize
  if byteLen%sectorSize ≠ 0 ∨ relativeSector ≥ 2^64 then none
  else if sectorCount = 0 then some (relativeSector,0)
  else if relativeSector+(sectorCount-1) ≥ 2^64 then none
  else do
    let firstLba ← d.partition.absoluteLba relativeSector
    let _ ← d.partition.absoluteLba (relativeSector+(sectorCount-1))
    some (firstLba,sectorCount)

/-- The sectors that the loop of a request asks for, in order. -/
def lbas : Option (List Nat) :=
  (d.translate block byteLen).map (fun (firstLba,count) =>
    (List.range count).map (fun index => (firstLba+index)%2^64))

/-- The loop of `write_at`; the device takes `reach` sectors and fails the next one. -/
def storeSectors (buffer : List UInt8) : List Nat → Nat → Nat → Sectors → Sectors
  | [], _, _, v => v
  | _::_, 0, _, v => v
  | lba::rest, reach+1, index, v => storeSectors buffer rest reach (index+1)
      (update v lba (fun o => buffer.getD (index*sectorSize+o) 0))

variable (v : Sectors)

def readAt (block length reach : Nat) : Option (List UInt8) := do
  let l ← d.lbas block length
  if reach < l.length then none else some (l.flatMap (fun lba => (List.range sectorSize).map (v lba)))

/-- With whether the call succeeded. -/
def writeAt (block : Nat) (buffer : List UInt8) (reach : Nat) : Sectors × Bool :=
  match d.lbas block buffer.length with
  | none => (v,false)
  | some l => (storeSectors buffer l reach 0 v,decide (l.length ≤ reach))

structure Write where
  block : Nat
  buffer : List UInt8
  reach : Nat

def run (writes : List Write) : Sectors := writes.foldl (fun v w => (d.writeAt v w.block w.buffer w.reach).1) v

def Fits (block length : Nat) : Prop :=
  length%sectorSize = 0 ∧ d.partition.startLba+block*sectorsPerBlock+length/sectorSize ≤ d.partition.endLba+1

/-- The write stores the byte of the device at this sector and offset, as its byte `i`. -/
def Write.Stores (w : Write) (s o i : Nat) : Prop :=
  d.Fits w.block w.buffer.length ∧ i < min w.buffer.length (w.reach*sectorSize) ∧
    s = d.partition.startLba+w.block*sectorsPerBlock+i/sectorSize ∧ o = i%sectorSize

/-- The byte `x` is what the last write that reaches this place stored, or what was there before. -/
def LastStored (writes : List Write) (s o : Nat) (x : UInt8) : Prop :=
  (∃ pre w post i, writes = pre++w::post ∧ w.Stores d s o i ∧
    (∀ w' ∈ post, ∀ j, ¬w'.Stores d s o j) ∧ x = w.buffer.getD i 0) ∨
    (∀ w ∈ writes, ∀ j, ¬w.Stores d s o j) ∧ x = v s o

variable {d : RedoxDisk} {v : Sectors} {buffer : List UInt8} {block length first reach n s o : Nat}

lemma sectorCount_eq (d : RedoxDisk) : d.partition.startLba ≤ d.partition.endLba ∧ d.partition.endLba < 2^64 ∧
    d.partition.sectorCount = d.partition.endLba-d.partition.startLba+1 := by
  have hw := d.word
  have hb := d.bounded
  exact ⟨d.partition.ordered,by omega,Nat.mod_eq_of_lt (by omega)⟩

lemma lbas_of_fits (h : d.Fits block length) (hl : 0 < length) : d.lbas block length =
    some (range' (d.partition.startLba+block*sectorsPerBlock) (length/sectorSize)) := by
  obtain ⟨ho,hw,hc⟩ := d.sectorCount_eq
  simp only [Fits,sectorSize,sectorsPerBlock] at h
  simp only [lbas,translate,RootPartition.absoluteLba,hc,sectorSize,sectorsPerBlock]
  rw [if_neg (by omega),if_neg (by omega),if_neg (by omega),if_neg (by omega),if_neg (by omega)]
  simp only [Option.bind_eq_bind,Option.bind_some,Option.map_some,Option.some.injEq,range'_eq_map_range]
  refine map_congr_left (fun i hi => ?_)
  have := mem_range.1 hi
  rw [Nat.mod_eq_of_lt (a := d.partition.startLba+block*8) (by omega),Nat.mod_eq_of_lt (by omega)]

lemma lbas_of_not_fits (h : ¬(d.Fits block length ∧ 0 < length)) : d.lbas block length = none ∨
    d.lbas block length = some [] ∧ length = 0 := by
  obtain ⟨ho,hw,hc⟩ := d.sectorCount_eq
  simp only [Fits,sectorSize,sectorsPerBlock] at h
  simp only [lbas,translate,RootPartition.absoluteLba,hc,sectorSize,sectorsPerBlock]
  split_ifs <;> simp <;> omega

lemma lbas_length (h : d.Fits block length) : ∃ l, d.lbas block length = some l ∧ l.length = length/sectorSize := by
  rcases Nat.eq_zero_or_pos length with rfl | hl
  · have hb : ¬block*sectorsPerBlock ≥ 2^64 := by
      have hf := h.2
      have hd := d.word
      have hl := d.bounded
      rw [Nat.zero_div] at hf
      omega
    exact ⟨[],by simpa [lbas,translate] using hb,by simp⟩
  · exact ⟨_,lbas_of_fits h hl,length_range'⟩

lemma storeSectors_range (index : Nat) : storeSectors buffer (range' (first+index) n) reach index v s o =
      if first+index ≤ s ∧ s < first+index+min n reach then buffer.getD ((s-first)*sectorSize+o) 0 else v s o := by
  induction n generalizing reach index v with
  | zero => rw [if_neg (by omega)]; rfl
  | succ n ih =>
    rw [range'_succ]
    cases reach with
    | zero => rw [if_neg (by omega)]; rfl
    | succ reach =>
      rw [storeSectors,Nat.add_assoc first,ih]
      by_cases hs : s = first+index
      · rw [if_neg (by omega),if_pos (by omega),hs,update_self,Nat.add_sub_cancel_left]
      · rw [update_of_ne hs]
        split_ifs <;> first | rfl | omega

lemma readSectors_range : (range' first n).flatMap (fun lba => (range sectorSize).map (v lba)) =
    (range (n*sectorSize)).map (fun i => v (first+i/sectorSize) (i%sectorSize)) := by
  induction n generalizing first with
  | zero => simp
  | succ n ih =>
    rw [range'_succ,flatMap_cons,ih,Nat.succ_mul,Nat.add_comm (n*sectorSize),range_add,
      map_append,map_map]
    refine congrArg₂ (·++·) (map_congr_left fun i hi => ?_) (map_congr_left fun i hi => ?_)
    · have := mem_range.1 hi
      rw [Nat.mod_eq_of_lt this,Nat.div_eq_of_lt this,Nat.add_zero]
    · rw [comp_apply,Nat.add_mod_left,Nat.add_div_left _ (by decide),Nat.add_assoc,Nat.add_comm 1]

lemma writeAt_stores (w : Write) (ho : o < sectorSize) :
    (∃ i, w.Stores d s o i ∧ (d.writeAt v w.block w.buffer w.reach).1 s o = w.buffer.getD i 0) ∨
      (∀ i, ¬w.Stores d s o i) ∧ (d.writeAt v w.block w.buffer w.reach).1 s o = v s o := by
  unfold Write.Stores
  by_cases h : d.Fits w.block w.buffer.length ∧ 0 < w.buffer.length
  · have hm := h.1.1
    rw [writeAt,lbas_of_fits h.1 h.2]
    generalize d.partition.startLba+w.block*sectorsPerBlock = first
    have hs := @storeSectors_range v w.buffer first w.reach (w.buffer.length/sectorSize) s o 0
    simp only [Nat.add_zero,sectorSize] at hs ho hm ⊢
    rw [hs]
    by_cases hin : first ≤ s ∧ s < first+min (w.buffer.length/512) w.reach
    · exact .inl ⟨(s-first)*512+o,⟨h.1,by omega,by omega,by omega⟩,if_pos hin⟩
    · exact .inr ⟨fun i hi => by omega,if_neg hin⟩
  · refine .inr ⟨fun i hi => h ⟨hi.1,by omega⟩,?_⟩
    rcases lbas_of_not_fits h with he | ⟨he,-⟩
    · simp [writeAt,he]
    · simp [writeAt,he,storeSectors]

lemma run_stores (writes : List Write) (ho : o < sectorSize) : d.LastStored v writes s o (d.run v writes s o) := by
  induction writes generalizing v with
  | nil => exact .inr ⟨by simp,rfl⟩
  | cons w writes ih =>
    rcases @ih (d.writeAt v w.block w.buffer w.reach).1 with ⟨pre,w',post,i,rfl,hs,hp,hv⟩ | ⟨hn,hv⟩
    · exact .inl ⟨w::pre,w',post,i,rfl,hs,hp,hv⟩
    rcases @writeAt_stores d v s o w ho with ⟨i,hs,hw⟩ | ⟨hs,hw⟩
    · exact .inl ⟨[],w,writes,i,rfl,hs,hn,hv.trans hw⟩
    · exact .inr ⟨forall_mem_cons.2 ⟨hs,hn⟩,hv.trans hw⟩

end RedoxDisk
end Vanta.Fs.Redox
