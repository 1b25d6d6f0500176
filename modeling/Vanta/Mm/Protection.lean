import Vanta.Mm.AreaRights
import Vanta.Mm.Placement
import Vanta.Mm.Swapping

namespace Vanta.Mm
open Library Memory Kernel

def AccessKind.right : AccessKind → VmaFlags
  | .read => vmaRead
  | .write => vmaWrite
  | .execute => vmaExec

/-- The entry lets pass only what the flags grant, and a write fault does not make it writable. -/
structure Within (flags : VmaFlags) (e : Entry) : Prop where
  write : hasFlag e mapWritable = true → grants flags vmaWrite = true
  execute : hasFlag e mapNoExecute = false → grants flags vmaExec = true
  settled : hasFlag e flagPresent = true → hasFlag e mapCow = false

/-- The entries of the space `s` agree with the areas of its process `p`. -/
structure Protected (c : Scope) (hand : List Nat) (s : Nat) (k : Kernel) (p : Process) : Prop where
  owned : Owned c k hand
  swapUser : SwapUser c k
  proc : k.procs s = some p
  registered : p.registered = true
  wellFormed : p.memoryMap.WellFormed
  usable : p.memoryMap.Open
  mapped : ∀ v, v < userPages → k.Maps s v →
    ∃ area, p.memoryMap.findVma (v*pageSize) = some area ∧ Within area.flags (k.leaf s v)

inductive ProtectOp where
  | mmap (addr length prot flags : Nat) (backing : VmaBacking)
  | mprotect (addr length prot : Nat)
  | munmap (addr length : Nat)
  | access (va : Nat) (kind : AccessKind) (value : UInt8)
  | swapOut (va : Nat)

namespace ProtectOp

def run (s : Nat) (k : Kernel) : ProtectOp → Kernel
  | .mmap addr length prot flags backing => (k.mmapBacking s addr length prot flags backing).1
  | .mprotect addr length prot => (k.mprotect s addr length prot).1
  | .munmap addr length => (k.munmap s addr length).1
  | .access va kind value => (k.access s va kind value).1
  | .swapOut va => (k.pageOut s va).1

/-- No area loses its read right, nor the stack its write right; no swapped page keeps a right its range loses; no cache
frame is mapped. -/
def Safe (s : Nat) (k : Kernel) : ProtectOp → Prop
  | .mmap _ _ prot _ _ => prot.testBit 0 = true
  | .mprotect addr length prot => prot.testBit 0 = true ∧ ∀ p aligned, k.procs s = some p →
      alignLength length = some aligned → (∀ v, addr/pageSize ≤ v → v < (addr+aligned)/pageSize → Swapped (k.leaf s v) →
          Within (protFlags prot) (k.leaf s v)) ∧
        ∀ area ∈ p.memoryMap.areas, area.Meets addr (addr+aligned) → grants area.flags vmaStack = true →
          prot.testBit 1 = true
  | .munmap addr length => ∀ aligned, alignLength length = some aligned → addr+aligned ≤ userAddressLimit
  | .access va kind _ => va < userAddressLimit ∧
      (hasFlag (k.leaf s (va/pageSize)) flagPresent = false → k.mapsCached s va (kind == .write) = false)
  | .swapOut va => va < userAddressLimit

def SafeRun (s : Nat) : List ProtectOp → Kernel → Prop
  | [], _ => True
  | op::ops, k => op.Safe s k ∧ SafeRun s ops (op.run s k)

end ProtectOp

lemma grants_bit (flags : VmaFlags) {i : Nat} (hi : i < 32) : grants flags (1#32 <<< i) = flags.getLsbD i := by
  have ht : (1#32 <<< i) = BitVec.twoPow 32 i := rfl
  rw [grants,ht,BitVec.and_twoPow]
  cases h : flags.getLsbD i with
  | false =>
    have hn : (0#32 == BitVec.twoPow 32 i) = false := by
      rw [beq_eq_false_iff_ne]
      intro hz
      have := congrArg (fun x => x.getLsbD i) hz
      simp [hi] at this
    simpa using hn
  | true => simp

lemma protFlags_bits (prot : Nat) :
    grants (protFlags prot) vmaWrite = prot.testBit 1 ∧ grants (protFlags prot) vmaExec = prot.testBit 2 := by
  rw [protFlags]
  cases prot.testBit 0 <;> cases prot.testBit 1 <;> cases prot.testBit 2 <;> decide

lemma backing_bits (prot : Nat) (backing : VmaBacking) :
    grants (protFlags prot ||| backingFlags backing) vmaRead = prot.testBit 0 ∧
      grants (protFlags prot ||| backingFlags backing) vmaStack = false := by
  have hb : backingFlags backing ∈ [vmaAnonymous,vmaShared,0] := by
    cases backing with
    | anonymous => simp [backingFlags]
    | fileBacked mountId inode offset fileSize shared => cases shared <;> simp [backingFlags]
    | deviceMmio physAddr => simp [backingFlags]
  simp only [List.mem_cons,List.not_mem_nil,or_false] at hb
  rw [protFlags]
  rcases hb with h | h | h <;> rw [h] <;>
    cases prot.testBit 0 <;> cases prot.testBit 1 <;> cases prot.testBit 2 <;> decide

lemma protectFlags_bits (old : VmaFlags) (prot : Nat) :
    grants (ProcessMemoryMap.protectFlags old (protFlags prot)) vmaRead = prot.testBit 0 ∧
      grants (ProcessMemoryMap.protectFlags old (protFlags prot)) vmaWrite = prot.testBit 1 ∧
      grants (ProcessMemoryMap.protectFlags old (protFlags prot)) vmaExec = prot.testBit 2 ∧
      grants (ProcessMemoryMap.protectFlags old (protFlags prot)) vmaStack = grants old vmaStack := by
  simp only [vmaRead,vmaWrite,vmaExec,vmaStack,grants_bit _ (by decide : 0 < 32),grants_bit _ (by decide : 1 < 32),
    grants_bit _ (by decide : 2 < 32),grants_bit _ (by decide : 6 < 32),ProcessMemoryMap.protectFlags,protFlags]
  cases prot.testBit 0 <;> cases prot.testBit 1 <;> cases prot.testBit 2 <;> simp

section
variable {c : Scope} {hand : List Nat} {n s v va : Nat} {k k' : Kernel} {p p' : Process} {e e' : Entry} {flags : VmaFlags}
variable {w : Bool} {kind : AccessKind}

namespace Within

lemma congr (h : Within flags e) (hr : SameRights e e')
    (hc : hasFlag e' flagPresent = true → hasFlag e' mapCow = false) : Within flags e' where
  write := fun hw => h.write (by rw [← hr.writable,hw])
  execute := fun hx => h.execute (by rw [← hr.noExecute,hx])
  settled := hc

lemma faded (h : Within flags e) (hf : Faded e e') : Within flags e' := by
  rcases hf with ⟨-,hp,-,hr,hc⟩ | ⟨-,rfl⟩ | ⟨hn,-,-,-,hr⟩
  · exact h.congr hr (fun _ => by rw [hc,h.settled hp])
  · exact h
  · exact h.congr hr (fun hp => by simp [hn] at hp)

variable {x : Bool}

lemma mapped (f : Nat) (hw : w = true → grants flags vmaWrite = true)
    (hx : x = true → grants flags vmaExec = true) : Within flags (frameBits f ||| pteFlags w x ||| flagPresent) := by
  obtain ⟨hwr,he,hc⟩ := pteFlags_rights f w x
  refine ⟨fun h => hw (by rwa [hwr] at h),fun h => hx ?_,fun _ => hc⟩
  rw [he] at h
  simpa using h

lemma reset (e : Entry) (hw : w = true → grants flags vmaWrite = true) (hx : x = true → grants flags vmaExec = true) :
    Within flags ((e &&& addressMask) ||| pteFlags w x ||| flagPresent) := by
  have hr : hasFlag ((e &&& addressMask) ||| pteFlags w x ||| flagPresent) mapWritable = w ∧
      hasFlag ((e &&& addressMask) ||| pteFlags w x ||| flagPresent) mapNoExecute = !x ∧
      hasFlag ((e &&& addressMask) ||| pteFlags w x ||| flagPresent) mapCow = false := by
    have hwr := @hasFlag_address e 1 (by decide)
    have he := @hasFlag_address e 63 (by decide)
    have hc := @hasFlag_address e 9 (by decide)
    cases w <;> cases x <;> simp (disch := decide) [pteFlags,flagPresent,mapWritable,mapUser,mapNoExecute,mapCow,
      hasFlag_bit_bit,hwr,he,hc]
  refine ⟨fun h => hw (by rwa [hr.1] at h),fun h => hx ?_,fun _ => hr.2.2⟩
  rw [hr.2.1] at h
  simpa using h

lemma marked (h : Within flags e) (kind : AccessKind) : Within flags (marked kind e) := by
  refine h.congr ⟨?_,?_,?_⟩ (fun hp => ?_)
  · exact marked_flag kind e (by decide) (by decide) (by decide)
  · exact marked_flag kind e (by decide) (by decide) (by decide)
  · exact marked_flag kind e (by decide) (by decide) (by decide)
  rw [flagPresent,marked_flag kind e (by decide) (by decide) (by decide)] at hp
  rw [mapCow,marked_flag kind e (by decide) (by decide) (by decide)]
  exact h.settled hp

lemma granted (h : Within flags e) (hr : grants flags vmaRead = true)
    (hp : permits kind e = true) : grants flags kind.right = true := by
  cases kind with
  | read => exact hr
  | write =>
    simp only [permits,Bool.and_eq_true] at hp
    exact h.write hp.2
  | execute =>
    simp only [permits,Bool.and_eq_true,Bool.not_eq_true'] at hp
    exact h.execute hp.2

end Within

lemma swapEntry_rights (slot : Nat) (e : Entry) : SameRights e (swapEntry slot e) := by
  constructor <;> simp (disch := decide) [swapEntry,mapWritable,mapUser,mapNoExecute,mapSwapped,hasFlag_bit_bit,
    hasFlag_slotBits]

lemma Kernel.pageOut_leaf (h : Owned c k hand) (hs : c.live s) (hva : va < userAddressLimit) :
    (k.pageOut s va).1.procs = k.procs ∧ ((k.pageOut s va).1.leaf s (va/pageSize) = k.leaf s (va/pageSize) ∨
      hasFlag (k.leaf s (va/pageSize)) flagPresent = true ∧
        ∃ slot, (k.pageOut s va).1.leaf s (va/pageSize) = swapEntry slot (k.leaf s (va/pageSize))) := by
  have hv := div_lt_userPages hva
  unfold pageOut
  rcases hsl : k.swap.allocSlot with ⟨swap,r⟩
  cases r with
  | none => exact ⟨rfl,.inl rfl⟩
  | some slot =>
    have h0 := h.allocSlot hsl
    have hl : {k with swap := swap}.leaf s (va/pageSize) = k.leaf s (va/pageSize) := leaf_congr rfl _ _
    simp only [swapPageOut_eq h0 hs hva,hl]
    cases hpr : hasFlag (k.leaf s (va/pageSize)) flagPresent with
    | false => exact ⟨rfl,.inl rfl⟩
    | true =>
      obtain ⟨t,ht⟩ := leafTable_of_flag hpr
      have hn := h0.leaf_setLeaf_self hs hv ht (swapEntry slot (k.leaf s (va/pageSize)))
      refine ⟨?_,.inr ⟨rfl,slot,?_⟩⟩
      · simp [freeFrame]
      · exact (leaf_congr rfl _ _).trans hn

namespace Protected

lemma around {P : Nat → Nat → Prop} (h : Protected c hand s k p) (hs : c.live s) (ho : Owned c k' hand)
    (ha : Around c n P k k') (hpr : k'.procs s = some p') (hr : p'.registered = true)
    (hma : p'.memoryMap.WellFormed) (hop : p'.memoryMap.Open)
    (hsa : ∀ v, v < userPages → ¬P s v → ∀ area, p.memoryMap.findVma (v*pageSize) = some area →
      ∃ area', p'.memoryMap.findVma (v*pageSize) = some area' ∧ area'.flags = area.flags)
    (hu : ∀ x v, c.live x → v < userPages → P x v → Swapped (k'.leaf x v) → hasFlag (k'.leaf x v) mapUser = true)
    (hi : ∀ v, v < userPages → P s v → k'.Maps s v →
      ∃ area, p'.memoryMap.findVma (v*pageSize) = some area ∧ Within area.flags (k'.leaf s v)) :
    Protected c hand s k' p' where
  owned := ho
  swapUser := h.swapUser.around h.owned ha hu
  proc := hpr
  registered := hr
  wellFormed := hma
  usable := hop
  mapped := fun v hv hm => by
    by_cases hp : P s v
    · exact hi v hv hp hm
    have hf := ha.leaf s v hs hv hp
    obtain ⟨area,har,hw⟩ := h.mapped v hv ((Maps.faded hf).1 hm)
    obtain ⟨area',ha',hfl⟩ := hsa v hv hp area har
    exact ⟨area',ha',by rw [hfl]; exact hw.faded hf⟩

lemma setProc (h : Protected c hand s k p) {procs : Nat → Option Process} (hp : procs s = some p')
    (hr : p'.registered = true) (hma : p'.memoryMap.WellFormed) (ho : p'.memoryMap.Open)
    (hf : p.memoryMap.SameFlags p'.memoryMap) : Protected c hand s {k with procs := procs} p' where
  owned := h.owned.setProcs procs
  swapUser := h.swapUser
  proc := hp
  registered := hr
  wellFormed := hma
  usable := ho
  mapped := fun v hv hm => by
    obtain ⟨area,ha,hw⟩ := h.mapped v hv hm
    obtain ⟨area',ha',he⟩ := hf _ area ha
    exact ⟨area',ha',by rw [he]; exact hw⟩

variable {op : ProtectOp}

section
variable (h : Protected c hand s k p) (hs : c.live s)
include h hs
variable {addr length : Nat}

lemma drop {aligned : Nat} {k1 : Kernel} (had : addr%pageSize = 0) (hal : aligned%pageSize = 0)
    (hd : Drops c hand s (addr/pageSize) ((addr+aligned)/pageSize) k k1) :
    ∃ p', Protected c hand s (k1.removeRange s addr (addr+aligned)) p' := by
  obtain ⟨L,hL⟩ := hd.recorded.proc h.proc
  have hst : (addr+aligned)%pageSize = 0 := by simp [Nat.add_mod,had,hal]
  have ha : Around c 0 (Range s (addr/pageSize) ((addr+aligned)/pageSize)) k (k1.removeRange s addr (addr+aligned)) :=
    hd.around.trans (.procs _)
  refine ⟨{p with mappings := L, memoryMap := p.memoryMap.removeVmaRange addr (addr+aligned)},
    h.around hs (hd.owned.setProcs _) ha (by simp [removeRange,modifyProc,hL]) h.registered
      (AreaEdit.remove.wellFormed h.wellFormed (by omega) had hst)
      (h.usable.remove h.wellFormed (by omega) had hst) (fun v hv ho area har => ?_)
      (fun x v hx hv hi hsw => ?_) (fun v hv hi hm => ?_)⟩
  · refine AreaEdit.remove.flags_outside h.wellFormed (by omega) had hst har (fun hr => ho ⟨rfl,?_⟩)
    simp only [pageSize] at *
    omega
  · obtain ⟨rfl,hl,hh⟩ := hi
    have hg := (hd.gone v hl hh hv).2
    have hswa : hasFlag (k1.leaf x v) mapSwapped = true := hsw.2
    simp [hg] at hswa
  · obtain ⟨hg,hg'⟩ := hd.gone v hi.2.1 hi.2.2 hv
    have hm : k1.Maps s v := hm
    rcases hm with hp | hsw
    · simp [hg] at hp
    · simp [Swapped,hg'] at hsw

lemma munmap (ho : ∀ v, ¬c.lent s v)
    (hw : ∀ aligned, alignLength length = some aligned → addr+aligned ≤ userAddressLimit) :
    ∃ p', Protected c hand s (k.munmap s addr length).1 p' := by
  rcases hr : k.munmap s addr length with ⟨k',r⟩
  rcases munmap_spec h.owned hs (fun aligned hl => ⟨hw aligned hl,fun v _ _ => ho v⟩) hr with
    ⟨rfl,-⟩ | ⟨aligned,k1,-,had,ha,-,-,hd,rfl⟩
  · exact ⟨p,h⟩
  · exact h.drop hs had ha hd

lemma mmap {prot flags : Nat} {backing : VmaBacking} (ho : ∀ v, ¬c.lent s v) (hr : prot.testBit 0 = true) :
    ∃ p', Protected c hand s (k.mmapBacking s addr length prot flags backing).1 p' := by
  rcases hru : k.mmapBacking s addr length prot flags backing with ⟨k',r⟩
  simp only [mmapBacking,h.proc] at hru
  split_ifs at hru with hz
  · cases hru
    exact ⟨p,h⟩
  cases hl : alignLength length with
  | none =>
    rw [hl] at hru
    cases hru
    exact ⟨p,h⟩
  | some aligned =>
    have hm := (alignLength_some hl).1
    simp only [hl] at hru
    rcases hb : k.mmapBase s p addr aligned (flags.testBit 4) with ⟨k1,a⟩
    simp only [hb] at hru
    cases a with
    | error e =>
      cases hru
      rw [mmapBase_error hb]
      exact ⟨p,h⟩
    | ok b =>
      have h1 : ∃ p1, Protected c hand s k1 p1 := by
        rcases mmapBase_spec h.owned hs hm (fun _ v _ _ => ho v) hb rfl with
          ⟨-,-,ha,-,k2,hd,rfl⟩ | ⟨-,-,-,rfl⟩ | ⟨-,-,rfl⟩
        · exact h.drop hs ha hm hd
        · exact ⟨p,h⟩
        · exact ⟨{p with mmapNext := b+aligned},
            h.setProc (by simp [h.proc]) h.registered h.wellFormed h.usable (.refl _)⟩
      obtain ⟨p1,h1⟩ := h1
      simp only [h1.proc] at hru
      cases hi : p1.memoryMap.insertVma b (b+aligned) (protFlags prot ||| backingFlags backing) backing with
      | none =>
        rw [hi] at hru
        cases hru
        exact ⟨p1,h1⟩
      | some m =>
        rw [hi] at hru
        cases hru
        obtain ⟨hbi,hst⟩ := backing_bits prot backing
        exact ⟨{p1 with memoryMap := m},h1.setProc (by simp [h1.proc]) h1.registered
          (h1.wellFormed.insertVma hi).1
          (h1.usable.insertVma h1.wellFormed hi (by rw [hbi,hr]) hst)
          (h1.wellFormed.insertVma_flags hi)⟩

lemma mprotect {prot : Nat} (hsa : (ProtectOp.mprotect addr length prot).Safe s k) :
    ∃ p', Protected c hand s (k.mprotect s addr length prot).1 p' := by
  rcases hru : k.mprotect s addr length prot with ⟨k',r⟩
  rcases mprotect_spec h.owned hs hru with rfl | ⟨aligned,hle,had,hal,he,-,hpro⟩
  · exact ⟨p,h⟩
  obtain ⟨hrea,hres⟩ := hsa
  obtain ⟨hswa,hst⟩ := hres p aligned h.proc hle
  have hsto : (addr+aligned)%pageSize = 0 := by simp [Nat.add_mod,had,hal]
  have hre (old : VmaFlags) : grants (ProcessMemoryMap.protectFlags old (protFlags prot)) vmaRead = true := by
    rw [(protectFlags_bits old prot).1,hrea]
  have hwr : ∀ v ∈ p.memoryMap.areas, v.Meets addr (addr+aligned) →
      grants (ProcessMemoryMap.protectFlags v.flags (protFlags prot)) vmaStack = true →
      grants (ProcessMemoryMap.protectFlags v.flags (protFlags prot)) vmaWrite = true := by
    intro v hv hm hfl
    obtain ⟨-,hw,-,hk⟩ := protectFlags_bits v.flags prot
    rw [hw]
    exact hst v hv hm (by rwa [hk] at hfl)
  have hmap : k.memoryMap s = some p.memoryMap := by simp [memoryMap,h.proc,h.registered]
  have har : k.protectAreas s addr (addr+aligned) (protFlags prot) =
      k.setMemoryMap s (p.memoryMap.protectVmaRange addr (addr+aligned) (protFlags prot)) := by
    rw [protectAreas,hmap]
  have hl (x v : Nat) : (k.protectAreas s addr (addr+aligned) (protFlags prot)).leaf x v = k.leaf x v := by
    rw [har]
    rfl
  have ha : Around c 0 (Range s (addr/pageSize) ((addr+aligned)/pageSize)) k k' := by
    rw [har] at hpro
    have hpr : Around c 0 (Range s (addr/pageSize) ((addr+aligned)/pageSize)) k
        (k.setMemoryMap s (p.memoryMap.protectVmaRange addr (addr+aligned) (protFlags prot))) := .procs _
    exact hpr.trans hpro.around
  have hproc : k'.procs s = some {p with
      memoryMap := p.memoryMap.protectVmaRange addr (addr+aligned) (protFlags prot)} := by
    obtain ⟨T,hT⟩ := hpro.tables
    rw [hT,har]
    simp [setMemoryMap,modifyProc,h.proc]
  refine ⟨_,h.around hs hpro.owned ha hproc h.registered
    ((AreaEdit.protect (protFlags prot)).wellFormed h.wellFormed (by omega) had hsto)
    (h.usable.protect h.wellFormed (by omega) had hsto hre hwr) (fun v hv hou area hare => ?_)
    (fun x v hx hv hi hsw => ?_) (fun v hv hi hma => ?_)⟩
  · refine (AreaEdit.protect (protFlags prot)).flags_outside h.wellFormed (by omega) had hsto hare
      (fun hr => hou ⟨rfl,?_⟩)
    simp only [pageSize] at *
    omega
  · obtain ⟨rfl,hlo,hh⟩ := hi
    rw [hpro.inside v hlo hh hv,hl] at hsw ⊢
    split_ifs at hsw ⊢
    · exact absurd hsw (not_swapped_of_present (by simp (disch := decide) [flagPresent,hasFlag_bit_bit]))
    · exact h.swapUser x v hx hv hsw
  obtain ⟨-,hlo,hh⟩ := hi
  have ho : k.Maps s v := by
    rw [Kernel.Maps,hpro.inside v hlo hh hv,hl] at hma
    split_ifs at hma with hp
    · exact .inl hp
    · exact hma
  obtain ⟨area,hare,hwi⟩ := h.mapped v hv ho
  have hi : addr ≤ v*pageSize ∧ v*pageSize < addr+aligned := by
    simp only [pageSize] at *
    omega
  obtain ⟨area',ha',hf⟩ := AreaEdit.protect_inside h.wellFormed (by omega) had hsto hare hi
  refine ⟨area',ha',?_⟩
  obtain ⟨-,hw,hx,-⟩ := protectFlags_bits area.flags prot
  obtain ⟨hw',hx'⟩ := protFlags_bits prot
  rw [hf,hpro.inside v hlo hh hv,hl]
  split_ifs with hp
  · exact .reset _ (by rw [hw]; exact id) (by rw [hx]; exact id)
  · have hsw := hswa v hlo hh (ho.resolve_left hp)
    exact ⟨fun h => by rw [hw,← hw']; exact hsw.write h,fun h => by rw [hx,← hx']; exact hsw.execute h,hsw.settled⟩

lemma idle (hi : Idle c hand n k k') : Protected c hand s k' p :=
  h.around hs hi.owned hi.around (by rw [hi.procs,h.proc]) h.registered h.wellFormed h.usable
    (fun _ _ _ area ha => ⟨area,ha,rfl⟩) (fun _ _ _ _ hin => hin.elim) (fun _ _ hin => hin.elim)

lemma gets {f : Nat} (hg : Gets c hand n s v f e k k')
    (hp : k'.procs s = some p') (hr : p'.registered = true) (hm : p'.memoryMap.WellFormed)
    (ho : p'.memoryMap.Open) (hf : p.memoryMap.SameFlags p'.memoryMap)
    (hfi : ∃ area, p'.memoryMap.findVma (v*pageSize) = some area ∧ Within area.flags e) : Protected c hand s k' p' := by
  refine h.around hs hg.owned hg.around hp hr hm ho (fun _ _ _ area ha => hf _ area ha)
    (fun x w _ _ hi hsw => ?_) (fun w _ hi _ => ?_)
  · obtain ⟨rfl,rfl⟩ := hi
    rw [hg.leaf] at hsw
    exact absurd hsw (not_swapped_of_present hg.present)
  · obtain ⟨-,rfl⟩ := hi
    rw [hg.leaf]
    exact hfi

lemma serves (hva : va < userAddressLimit) (hse : Serves c hand s va w k k') :
    ∃ p', Protected c hand s k' p' ∧ p.memoryMap.SameFlags p'.memoryMap := by
  have hv := div_lt_userPages hva
  have hco (hp : hasFlag (k.leaf s (va/pageSize)) flagPresent = true) :
      hasFlag (k.leaf s (va/pageSize)) mapCow = false := by
    obtain ⟨area,-,hwi⟩ := h.mapped _ hv (.inl hp)
    exact hwi.settled hp
  cases hse with
  | own hw hp hfl hon he | copy hw hp hfl hpr hpu => simp [hco hp] at hfl
  | @swapIn hsw hpr hc f hge =>
    obtain ⟨area,ha,hwi⟩ := h.mapped _ hv (.inr hsw)
    exact ⟨p,h.gets hs hge (by rw [hpr,h.proc]) h.registered h.wellFormed h.usable (.refl _)
      ⟨area,ha,hwi.congr (restored_rights f _) (fun _ => restored_cow f _)⟩,.refl _⟩
  | @demand hn hfr w' x hg f hge =>
    generalize hpr : k'.procs = procs at hg
    cases hg with
    | @stack q m hq hr hca hgr =>
      rw [h.proc] at hq
      cases hq
      obtain ⟨hm,hf,ho,stack,hst,hfl⟩ := h.wellFormed.grown hca hgr
      have hw := (ho h.usable).stack stack (hm.findVma_eq_some.1 hst).1 hfl
      refine ⟨{p with memoryMap := {m with dynamicMappings := m.dynamicMappings++[alignDown va]}},
        h.gets hs hge ?_ h.registered ⟨hm.keyed,hm.nonempty,hm.aligned,hm.apart⟩
          ⟨(ho h.usable).readable,(ho h.usable).stack⟩ hf
          ⟨stack,hm.findVma_page hst,.mapped f (fun _ => hw) (by simp)⟩,hf⟩
      rw [hpr]
      simp [pushDynamic,setMemoryMap,modifyProc,h.proc]
    | @area q vma hq hr hfi hw =>
      rw [h.proc] at hq
      cases hq
      have hm := h.wellFormed
      refine ⟨{p with memoryMap := {p.memoryMap with dynamicMappings := p.memoryMap.dynamicMappings++[alignDown va]}},
        h.gets hs hge ?_ h.registered ⟨hm.keyed,hm.nonempty,hm.aligned,hm.apart⟩
          ⟨h.usable.readable,h.usable.stack⟩ (.of_vmas rfl)
          ⟨vma,hm.findVma_page hfi,.mapped f id id⟩,.of_vmas rfl⟩
      rw [hpr]
      simp [pushDynamic,modifyProc,h.proc]

lemma refuses (hr : Refuses c hand n s va k k') : ∃ p', Protected c hand s k' p' := by
  cases hr with
  | same hi => exact ⟨p,h.idle hs hi⟩
  | @grown q m hq hre hc hg hi =>
    rw [h.proc] at hq
    cases hq
    obtain ⟨hm,hf,ho,-⟩ := h.wellFormed.grown hc hg
    have hse : Protected c hand s (k.setMemoryMap s m) {p with memoryMap := m} :=
      h.setProc (by simp [h.proc]) h.registered hm (ho h.usable) hf
    exact ⟨_,hse.idle hs hi⟩

lemma touch (hv : va < userAddressLimit)
    (hp : hasFlag (k.leaf s (va/pageSize)) flagPresent = true) (kind : AccessKind) (value : UInt8) :
    Protected c hand s (k.touch s va kind value).1 p := by
  have ht := touch_spec h.owned hs hv hp kind value
  obtain ⟨T,hT⟩ := ht.state
  have hl := ht.leaf s (va/pageSize) hs (div_lt_userPages hv)
  rw [if_pos ⟨rfl,rfl⟩] at hl
  refine h.around hs ht.owned ht.around (by rw [hT]; exact h.proc) h.registered h.wellFormed h.usable
    (fun _ _ _ area ha => ⟨area,ha,rfl⟩) (fun x w _ _ hi hsw => ?_) (fun w _ hi _ => ?_)
  · obtain ⟨rfl,rfl⟩ := hi
    rw [hl,Swapped,flagPresent,marked_flag kind _ (by decide) (by decide) (by decide)] at hsw
    rw [flagPresent,hsw.1] at hp
    cases hp
  · obtain ⟨-,rfl⟩ := hi
    obtain ⟨area,ha,hw⟩ := h.mapped _ (div_lt_userPages hv) (.inl hp)
    exact ⟨area,ha,by rw [hl]; exact hw.marked kind⟩

section
variable (ho : ∀ v, ¬c.lent s v)
include ho

lemma access {value : UInt8}
    (hsa : (ProtectOp.access va kind value).Safe s k) : (∃ p', Protected c hand s (k.access s va kind value).1 p') ∧
      ∀ area b, p.memoryMap.findVma va = some area → (k.access s va kind value).2 = .done b →
        grants area.flags kind.right = true := by
  obtain ⟨hv,hc⟩ := hsa
  rcases hru : k.access s va kind value with ⟨k',r⟩
  have hsp := access_spec h.owned h.swapUser hs hv (ho _) hc hru
  cases hsp with
  | @done k1 hse hp hpe he =>
    have h1 : ∃ p1, Protected c hand s k1 p1 ∧ p.memoryMap.SameFlags p1.memoryMap := by
      rcases hse with rfl | hse
      · exact ⟨p,h,.refl _⟩
      · exact h.serves hs hv hse
    obtain ⟨p1,h1,hf⟩ := h1
    refine ⟨⟨p1,by rw [he]; exact h1.touch hs hv hp kind value⟩,fun area b ha _ => ?_⟩
    obtain ⟨area1,ha1,hw⟩ := h1.mapped _ (div_lt_userPages hv) (.inl hp)
    obtain ⟨area2,ha2,hsam⟩ := hf va area ha
    have hpa := h1.wellFormed.findVma_page ha2
    rw [ha1] at hpa
    cases hpa
    rw [← hsam]
    exact hw.granted (h1.usable.readable area1 (h1.wellFormed.findVma_eq_some.1 ha1).1) hpe
  | killed hse hd =>
    obtain ⟨p',h',-⟩ := h.serves hs hv hse
    exact ⟨⟨p',h'⟩,fun area b _ hdo => by cases hdo⟩
  | refused hre hr =>
    refine ⟨h.refuses hs hre,fun area b _ hdo => ?_⟩
    rcases hr with rfl | rfl <;> cases hdo

lemma swapOut (hv : va < userAddressLimit) : Protected c hand s (k.pageOut s va).1 p := by
  have hse := pageOut_spec h.owned hs hv (ho _)
  obtain ⟨hpro,hl⟩ := pageOut_leaf h.owned hs hv
  refine h.around hs hse.owned hse.around (by rw [hpro,h.proc]) h.registered h.wellFormed h.usable
    (fun _ _ _ area ha => ⟨area,ha,rfl⟩) (fun x w hx hw _ hsw => ?_) (fun w hw hi hm => ?_)
  · exact hse.swapUser h.swapUser x w hx hw hsw
  obtain ⟨-,rfl⟩ := hi
  rcases hl with he | ⟨hpr,slot,he⟩
  · rw [Kernel.Maps,he] at hm
    rw [he]
    exact h.mapped _ hw hm
  · obtain ⟨area,ha,hwi⟩ := h.mapped _ hw (.inl hpr)
    refine ⟨area,ha,?_⟩
    rw [he]
    exact hwi.congr (swapEntry_rights slot _) (fun hp => by simp [(swapEntry_swapped slot _).1] at hp)

lemma step (hsa : op.Safe s k) : ∃ p', Protected c hand s (op.run s k) p' := by
  cases op with
  | mmap addr length prot flags backing => exact h.mmap hs ho hsa
  | mprotect addr length prot => exact h.mprotect hs hsa
  | munmap addr length => exact h.munmap hs ho hsa
  | access va kind value => exact (h.access hs ho hsa).1
  | swapOut va => exact ⟨p,h.swapOut hs ho hsa⟩

end
end

lemma run (pre : List ProtectOp) (h : Protected c hand s k p) (hs : c.live s)
    (ho : ∀ v, ¬c.lent s v) (hsa : ProtectOp.SafeRun s (pre++[op]) k) :
    (∃ p', Protected c hand s (pre.foldl (ProtectOp.run s) k) p') ∧ op.Safe s (pre.foldl (ProtectOp.run s) k) := by
  induction pre generalizing k p with
  | nil => exact ⟨⟨p,h⟩,hsa.1⟩
  | cons first pre ih =>
    obtain ⟨p',h'⟩ := h.step hs ho hsa.1
    exact ih h' hsa.2

end Protected

/-- After any calls, faults and swapping that are safe, an access in an area succeeds only if the area
grants it. -/
theorem memory_protection_sound (h : Owned c k hand) (hswap : SwapUser c k) (hs : c.live s) (hown : ∀ v, ¬c.lent s v)
    (hp : k.procs s = some p) (hregistered : p.registered = true) (hmap : p.memoryMap.WellFormed)
    (hopen : p.memoryMap.Open) (hmapped : ∀ v, v < userPages → k.Maps s v →
      ∃ area, p.memoryMap.findVma (v*pageSize) = some area ∧ Within area.flags (k.leaf s v))
    (pre : List ProtectOp) (va : Nat) (kind : AccessKind) (value : UInt8)
    (hsafe : ProtectOp.SafeRun s (pre++[.access va kind value]) k) :
    ∃ q, (pre.foldl (ProtectOp.run s) k).procs s = some q ∧ ∀ area b, q.memoryMap.findVma va = some area →
      ((pre.foldl (ProtectOp.run s) k).access s va kind value).2 = .done b → grants area.flags kind.right = true := by
  have hst : Protected c hand s k p := ⟨h,hswap,hp,hregistered,hmap,hopen,hmapped⟩
  obtain ⟨⟨q,hq⟩,hl⟩ := hst.run pre hs hown hsafe
  exact ⟨q,hq.proc,(hq.access hs hown hl).2⟩

end

theorem memory_protection_sound_here :
    ((heapKernel.mmapBacking 1 0 0x1000 3 0x22 .anonymous).1.access 1 0x700000000000 .write 7).2 = .done 7 ∧
      ∃ q, (heapKernel.mmapBacking 1 0 0x1000 3 0x22 .anonymous).1.procs 1 = some q ∧
        ∀ area b, q.memoryMap.findVma 0x700000000000 = some area →
          ((heapKernel.mmapBacking 1 0 0x1000 3 0x22 .anonymous).1.access 1 0x700000000000 .write 7).2 = .done b →
            grants area.flags vmaWrite = true := by
  obtain ⟨ho,-,hl,-⟩ := heapKernel_empty
  have he : (ProcessMemoryMap.new userStackTop (userStackTop-16*1024*1024)).areas = [] := rfl
  have hz {v : Nat} (hv : v < userPages) : ¬heapKernel.Maps 1 v := by
    rw [Kernel.Maps,hl v hv]
    decide
  refine ⟨by decide +kernel,memory_protection_sound ho ?_ (.inl rfl) (fun v h => h.2) rfl rfl heapKernel_map
    ⟨by simp [he],by simp [he]⟩ (fun v hv hm => absurd hm (hz hv))
    [.mmap 0 0x1000 3 0x22 .anonymous] 0x700000000000 .write 7 ⟨rfl,⟨by decide,fun _ => ?_⟩,trivial⟩⟩
  · intro s v hs hv hsw
    rcases hs with rfl | hs
    · exact absurd (.inr hsw) (hz hv)
    · exact hs.elim
  · decide +kernel

def stackKernel : Kernel :=
  {heapKernel with procs := Function.update (fun _ => none) 1 (some ⟨0x400000,0x400000,0x700000000000,[],
      addVma (.new userStackTop (userStackTop-16*1024*1024)) userStackStart userStackTop
        (vmaRead ||| vmaWrite ||| vmaAnonymous ||| vmaStack ||| vmaGrowsdown),true⟩)}

def Kernel.areaFlags (k : Kernel) (s addr : Nat) : Option VmaFlags := (k.memoryMap s).bind (·.flagsAt addr)

/-- A page without rights can be read, a swapped page comes back writable in a read-only area, and a read-only stack
grows writable. -/
theorem memory_protection_broken :
    ((heapKernel.mmapBacking 1 0 0x1000 0 0x22 .anonymous).1.areaFlags 1 0x700000000000 = some vmaAnonymous ∧
      ((heapKernel.mmapBacking 1 0 0x1000 0 0x22 .anonymous).1.access 1 0x700000000000 .read 0).2 = .done 0) ∧
    (((loadedKernel.pageOut 1 0x400000).1.mprotect 1 0x400000 0x1000 1).1.areaFlags 1 0x400000 = some vmaRead ∧
      (((loadedKernel.pageOut 1 0x400000).1.mprotect 1 0x400000 0x1000 1).1.access 1 0x400000 .write 5).2 = .done 5) ∧
    ((stackKernel.mprotect 1 userStackStart 0x10000 1).1.access 1 (userStackStart-8) .write 5).2 = .done 5 ∧
      (((stackKernel.mprotect 1 userStackStart 0x10000 1).1.access 1 (userStackStart-8) .write 5).1.areaFlags 1
        (userStackStart-8)).any (fun flags => grants flags vmaWrite) = false := by
  refine ⟨⟨?_,?_⟩,⟨?_,?_⟩,?_,?_⟩ <;> decide +kernel

end Vanta.Mm
