import Vanta.Mm.Heap
import Vanta.Mm.Walk

namespace Vanta.Mm
open Library Memory Kernel List Option Bool

namespace Kernel
variable (k : Kernel)

def flagsIn (space va : Nat) : Option Entry :=
  match k.pteLocation space va with
  | .ok (some table) =>
    let e := k.tables table (indexPt va)
    if hasFlag e flagPresent then some (flagsOf e) else none
  | _ => none

/-- The physical address of `translate_in`, whose walk reads the tables by their frames. -/
def translateIn (space va : Nat) : Option Nat :=
  (Mm.translateIn (fun table => k.tables (table.toNat/pageSize)) (.ofNat 64 (space*pageSize)) (.ofNat 64 va)).map
    (fun t => t.physicalAddress.toNat)

variable (address : Nat)

/-- The first part of `user_physical_address`: the flags of the page, which is demanded if it is not
mapped. -/
def userFlags (writable : Bool) : Kernel × Option Entry :=
  match k.flagsIn k.cr3 address with
  | some flags => (k,some flags)
  | none =>
    match k.resolveDemandPage k.cr3 address writable with
    | (k',.ok true) => (k',k'.flagsIn k.cr3 address)
    | (k',_) => (k',none)

/-- The second part: a page that is to be written and is not writable; the result is the flags after the
copy-on-write fault. -/
def userWritable (flags : Entry) : Kernel × Option Entry :=
  if hasFlag flags mapCow then
    match k.resolveCowPage k.cr3 address with
    | (k',.error _) => (k',none)
    | (k',.ok _) => (k',k'.flagsIn k.cr3 address)
  else (k,some flags)

def userPhysicalAddress (writable : Bool) : Kernel × Option Nat :=
  if address ≥ userAddressLimit then (k,none)
  else
    match k.userFlags address writable with
    | (k,none) => (k,none)
    | (k,some flags) =>
      if !hasFlag flags mapUser then (k,none)
      else if writable && !hasFlag flags mapWritable then
        match k.userWritable address flags with
        | (k,none) => (k,none)
        | (k,some flags) => if !hasFlag flags mapWritable then (k,none) else (k,k.translateIn k.cr3 address)
      else (k,k.translateIn k.cr3 address)

def readPhysical (physical : Nat) : UInt8 := k.mem (physical/pageSize) (physical%pageSize)

def writePhysical (physical : Nat) (byte : UInt8) : Kernel :=
  {k with
    mem := Function.update k.mem (physical/pageSize)
      (Function.update (k.mem (physical/pageSize)) (physical%pageSize) byte)}

def readUserByte (writable : Bool) : Kernel × Option UInt8 :=
  match k.userPhysicalAddress address writable with
  | (k,none) => (k,none)
  | (k,some physical) => (k,some (k.readPhysical physical))

/-- The loop of the reading copies: the buffer with the bytes read so far in front, and whether all of it
was filled. -/
def readUserBytes (writable : Bool) : List UInt8 → Kernel → Nat → Kernel × List UInt8 × Bool
  | [], k, _ => (k,[],true)
  | old::rest, k, address =>
    if address ≥ 2^64 then (k,old::rest,false)
    else
      match k.readUserByte address writable with
      | (k,none) => (k,old::rest,false)
      | (k,some byte) =>
        let (k,bytes,ok) := readUserBytes writable rest k (address+1)
        (k,byte::bytes,ok)

def copyFromUserInto (pointer : Nat) (buf : List UInt8) : Kernel × List UInt8 × Bool :=
  readUserBytes false buf k pointer

def copyFromUser (pointer length : Nat) (writable : Bool) : Kernel × Option (List UInt8) :=
  if length > 65536 then (k,none)
  else
    match readUserBytes writable (List.replicate length 0) k pointer with
    | (k,bytes,true) => (k,some bytes)
    | (k,_,false) => (k,none)

def copyToUser : List UInt8 → Kernel → Nat → Kernel × Bool
  | [], k, _ => (k,true)
  | byte::rest, k, address =>
    if address ≥ 2^64 then (k,false)
    else
      match k.userPhysicalAddress address true with
      | (k,none) => (k,false)
      | (k,some physical) => copyToUser rest (k.writePhysical physical byte) (address+1)

end Kernel

def Keeps (c : Scope) (k k' : Kernel) : Prop :=
  Slots c k none → Slots c k' none ∧
    ∀ s v b, c.live s → v < userPages → ¬c.lent s v → k.content s v = some b → k'.content s v = some b

/-- What a call for one page may do to the kernel. -/
structure Settles (c : Scope) (hand : List Nat) (n s v : Nat) (k k' : Kernel) : Prop where
  owned : Owned c k' hand
  around : Around c n (At s v) k k'
  keeps : Keeps c k k'
  swapUser : SwapUser c k → SwapUser c k'

/-- The page holds a reference to its frame, and it is not swapped out. -/
structure Clear (c : Scope) (s va : Nat) (w : Bool) (k : Kernel) : Prop where
  own : ¬c.lent s (va/pageSize)
  resident : ¬Swapped (k.leaf s (va/pageSize))
  uncached : hasFlag (k.leaf s (va/pageSize)) flagPresent = false → k.mapsCached s va w = false

/-- The byte at a user address is at this physical address. -/
structure Reaches (s va : Nat) (w : Bool) (k : Kernel) (physical : Nat) : Prop where
  present : hasFlag (k.leaf s (va/pageSize)) flagPresent = true
  user : hasFlag (k.leaf s (va/pageSize)) mapUser = true
  writable : w = true → hasFlag (k.leaf s (va/pageSize)) mapWritable = true
  physical : physical = frameOf (k.leaf s (va/pageSize))*pageSize+va%pageSize

section
variable {c : Scope} {hand : List Nat} {n m s v va f : Nat} {k k' k'' : Kernel} {e : Entry} {w : Bool}

lemma Owned.flagsIn_eq (h : Owned c k hand) (hs : c.live s) (hv : va < userAddressLimit) :
    k.flagsIn s va = if hasFlag (k.leaf s (va/pageSize)) flagPresent then some (flagsOf (k.leaf s (va/pageSize)))
      else none := by
  rw [flagsIn,h.pteLocation_eq hs hv]
  cases ht : k.leafTable s (va/pageSize) with
  | none => simp [(leaf_absent ht).1]
  | some t =>
    exact congrArg (fun e => if hasFlag e flagPresent then some (flagsOf e) else none) (leaf_eq ht).symm

lemma address_toNat (e : Entry) (va : Nat) :
    (e &&& addressMask).toNat ||| va%2^12 = frameOf e*pageSize+va%pageSize := by
  have hd : pageSize ∣ (e &&& addressMask).toNat := by
    rw [Nat.dvd_iff_mod_eq_zero,pageSize,show 4096 = 2^12 from rfl]
    apply Nat.eq_of_testBit_eq
    intro i
    rw [Nat.testBit_mod_two_pow,BitVec.testBit_toNat,BitVec.getLsbD_and,getLsbD_addressMask]
    simp
    omega
  rw [frameOf,Nat.div_mul_cancel hd]
  obtain ⟨x,hx⟩ := hd
  rw [hx,pageSize,show 4096 = 2^12 from rfl,Nat.two_pow_add_eq_or_of_lt (Nat.mod_lt _ (by decide))]

lemma tableIndex_ofNat (hva : va < userAddressLimit) (shift : Nat) :
    tableIndex (.ofNat 64 va) shift = va/2^shift%512 := by
  have hm : va%2^64 = va := Nat.mod_eq_of_lt (hva.trans (by decide))
  rw [tableIndex_eq,BitVec.extractLsb'_toNat,BitVec.toNat_ofNat,hm,Nat.shiftRight_eq_div_pow]

lemma Owned.translateIn_eq (h : Owned c k hand) (hs : c.live s) (hva : va < userAddressLimit)
    (hp : hasFlag (k.leaf s (va/pageSize)) flagPresent = true) :
    k.translateIn s va = some (frameOf (k.leaf s (va/pageSize))*pageSize+va%pageSize) := by
  have hsp : (BitVec.ofNat 64 (s*pageSize)).toNat/pageSize = s := by
    have hr : Holds c k (.table s []) s := ⟨hs,⟨by simp,by simp,by simp⟩,rfl⟩
    have hl : s < maxSupportedFrames := h.frame_lt (h.counted.pos hr)
    simp only [maxSupportedFrames,pageSize,BitVec.toNat_ofNat] at hl ⊢
    omega
  have hf : ∀ e : Entry, (e &&& addressMask).toNat/pageSize = frameOf e := fun _ => rfl
  have hlo : ∀ e : Entry, (e &&& addressMask ||| BitVec.ofNat 64 va &&& (bit 12-1)).toNat =
      frameOf e*pageSize+va%pageSize := fun e => by
    have hm : va%2^64 = va := Nat.mod_eq_of_lt (hva.trans (by decide))
    rw [← address_toNat,BitVec.toNat_or,BitVec.toNat_and (BitVec.ofNat 64 va),BitVec.toNat_ofNat,hm]
    exact congrArg _ (Nat.and_two_pow_sub_one_eq_mod va 12)
  obtain ⟨t,ht⟩ := leafTable_of_flag hp
  rw [leaf_eq ht] at hp ⊢
  rw [leafTable,← upperIndices_eq,upperIndices] at ht
  simp only [descend,bind_eq_some_iff,Option.some.injEq] at ht
  obtain ⟨x,hx,y,hy,z,hz,rfl⟩ := ht
  obtain ⟨hx1,-,rfl⟩ := nextTable_some hx
  obtain ⟨hy1,hy2,rfl⟩ := nextTable_some hy
  obtain ⟨hz1,hz2,rfl⟩ := nextTable_some hz
  rw [← indexPt_eq,indexPt] at hp ⊢
  simp only [Kernel.translateIn,Mm.translateIn,tableIndex_ofNat hva,hsp,hf,hx1,hy1,hy2,hz1,hz2,hp,
    Bool.not_true,Bool.false_eq_true,if_false,Option.map_some,hlo]

lemma Keeps.refl (c : Scope) (k : Kernel) : Keeps c k k := fun hsl => ⟨hsl,fun _ _ _ _ _ _ hb => hb⟩

lemma Keeps.trans (h : Keeps c k k') (h' : Keeps c k' k'') : Keeps c k k'' := fun hsl => by
  obtain ⟨hs',hk⟩ := h hsl
  obtain ⟨hs'',hk'⟩ := h' hs'
  exact ⟨hs'',fun s v b hs hv hl hb => hk' s v b hs hv hl (hk s v b hs hv hl hb)⟩

lemma Keeps.of_same (h : SameContent c (fun _ _ => False) k k') : Keeps c k k' := fun hsl => by
  obtain ⟨hs',hsa⟩ := h hsl
  refine ⟨hs',fun s v b hs hv hl hb => ?_⟩
  rw [hsa s v hs hv not_false hl]
  exact hb

lemma Keeps.of_at (h : SameContent c (At s v) k k')
    (hse : ∀ b, k.content s v = some b → k'.content s v = some b) : Keeps c k k' := fun hsl => by
  obtain ⟨hs',hsa⟩ := h hsl
  refine ⟨hs',fun x w b hx hw hl hb => ?_⟩
  by_cases ha : At s v x w
  · obtain ⟨rfl,rfl⟩ := ha
    exact hse b hb
  · rw [hsa x w hx hw ha hl]
    exact hb

lemma SwapUser.around {P : Nat → Nat → Prop} (h : SwapUser c k) (ho : Owned c k hand) (ha : Around c n P k k')
    (hP : ∀ s v, c.live s → v < userPages → P s v → Swapped (k'.leaf s v) → hasFlag (k'.leaf s v) mapUser = true) :
    SwapUser c k' := by
  intro s v hs hv hsw
  by_cases hp : P s v
  · exact hP s v hs hv hp hsw
  rcases ha.leaf s v hs hv hp with ⟨hpr,-⟩ | ⟨-,he⟩ | ⟨-,-,hpr,-,hr⟩
  · exact absurd hsw (not_swapped_of_present hpr)
  · rw [he] at hsw ⊢
    exact h s v hs hv hsw
  · rw [hr.user]
    exact ho.user s v hs hv hpr

lemma SwapUser.present (h : SwapUser c k) (ho : Owned c k hand) (ha : Around c n (At s v) k k')
    (hp : hasFlag (k'.leaf s v) flagPresent = true) : SwapUser c k' := by
  refine h.around ho ha (fun x u _ _ hat hsw => ?_)
  obtain ⟨rfl,rfl⟩ := hat
  exact absurd hsw (not_swapped_of_present hp)

namespace Settles

lemma refl (h : Owned c k hand) (n s v : Nat) : Settles c hand n s v k k :=
  ⟨h,(Around.refl c _ k).mono (Nat.zero_le n) (fun _ _ hp => hp),.refl c k,id⟩

lemma trans (h : Settles c hand n s v k k') (h' : Settles c hand m s v k' k'') : Settles c hand (n+m) s v k k'' :=
  ⟨h'.owned,h.around.trans h'.around,h.keeps.trans h'.keeps,fun hsw => h'.swapUser (h.swapUser hsw)⟩

lemma mono (h : Settles c hand n s v k k') (hn : n ≤ m) : Settles c hand m s v k k' :=
  ⟨h.owned,h.around.mono hn (fun _ _ hp => hp),h.keeps,h.swapUser⟩

lemma of_idle (h : Idle c hand n k k') (ho : Owned c k hand) (s v : Nat) : Settles c hand n s v k k' :=
  ⟨h.owned,h.around.mono (le_refl n) (fun _ _ hp => hp.elim),.of_same h.content,
    fun hsw => hsw.around ho h.around (fun _ _ _ _ hp => hp.elim)⟩

lemma of_refuses (h : Refuses c hand n s va k k') (ho : Owned c k hand) (v : Nat) : Settles c hand n s v k k' := by
  cases h with
  | same hi => exact of_idle hi ho s v
  | @grown p m hp hr hc hg hi =>
    have hse := of_idle hi (ho.setProcs _) s v
    refine ⟨hse.owned,?_,?_,fun hsw => hse.swapUser hsw⟩
    · have hpr : Around c 0 (At s v) k (k.setMemoryMap s m) := .procs _
      simpa using hpr.trans hse.around
    · exact Keeps.trans (.of_same (.of_eq rfl rfl rfl rfl)) hse.keeps

lemma of_gets (h : Gets c hand n s v f e k k') (ho : Owned c k hand)
    (hno : hasFlag (k.leaf s v) flagPresent = false) (hsw : ¬Swapped (k.leaf s v)) : Settles c hand n s v k k' := by
  refine ⟨h.owned,h.around,.of_at (h.content hsw) (fun b hb => ?_),
    fun hswa => hswa.present ho h.around (h.leaf ▸ h.present)⟩
  have hn : hasFlag (k.leaf s v) mapSwapped = false := by
    cases hm : hasFlag (k.leaf s v) mapSwapped with
    | false => rfl
    | true => exact absurd ⟨hno,hm⟩ hsw
  simp [content,contentOf,hno,hn] at hb

lemma of_copy {bytes : Nat → UInt8} (h : Puts c hand n s v f e bytes k k') (ho : Owned c k hand)
    (hp : hasFlag (k.leaf s v) flagPresent = true) (hby : bytes = k.mem (frameOf (k.leaf s v))) :
    Settles c hand n s v k k' := by
  refine ⟨h.owned,h.around,.of_at (h.content (not_swapped_of_present hp)) (fun b hb => ?_),
    fun hsw => hsw.present ho h.around (h.leaf ▸ h.present)⟩
  rw [content,contentOf_present hp,← hby] at hb
  rw [content,h.leaf,contentOf_present h.present,h.frame,h.bytes]
  exact hb

lemma of_setLeaf (h : Owned c k hand) (hs : c.live s) (hv : v < userPages)
    (hp : hasFlag (k.leaf s v) flagPresent = true) (hn : hasFlag e flagPresent = true)
    (hf : frameOf e = frameOf (k.leaf s v)) (hu : hasFlag e mapUser = true) :
    Settles c hand 0 s v k (k.setLeaf s v e) := by
  obtain ⟨t,ht⟩ := leafTable_of_flag hp
  refine ⟨?_,Around.setLeaf h hs hv e,?_,fun hsw => hsw.present h (Around.setLeaf h hs hv e) ?_⟩
  · rw [setLeaf_eq ht]
    exact h.writeLeaf_keep hs hv ht (fun _ => ⟨hp,hf,hu⟩)
  · rw [setLeaf_eq ht]
    have hc : Calm c none none k (k.writeEntry t (v%512) e) :=
      Calm.writeLeaf_present h hs hv ht hp hn hf
    exact .of_same (.of_kept hc.kept _)
  · rw [h.leaf_setLeaf_self hs hv ht]
    exact hn

end Settles
section
variable (h : Owned c k hand) (hs : c.live k.cr3)
include h hs

lemma Kernel.userFlags_spec (hv : va < userAddressLimit)
    (hc : Clear c k.cr3 va w k) {r : Option Entry} (hru : k.userFlags va w = (k',r)) :
    Settles c hand 5 k.cr3 (va/pageSize) k k' ∧ ∀ flags, r = some flags →
      hasFlag (k'.leaf k.cr3 (va/pageSize)) flagPresent = true ∧ flags = flagsOf (k'.leaf k.cr3 (va/pageSize)) := by
  unfold userFlags at hru
  rw [h.flagsIn_eq hs hv] at hru
  cases hp : hasFlag (k.leaf k.cr3 (va/pageSize)) flagPresent with
  | true =>
    simp only [hp,if_true] at hru
    cases hru
    refine ⟨.refl h _ _ _,fun flags hr => ?_⟩
    cases hr
    exact ⟨hp,rfl⟩
  | false =>
    simp only [hp,false_eq_true,if_false] at hru
    rcases hd : k.resolveDemandPage k.cr3 va w with ⟨k1,d⟩
    have hsp := resolveDemandPage_spec h hs hv hc.own hp (hc.uncached hp) hd
    rw [hd] at hru
    split at hru
    · rename_i k2 he
      cases he
      obtain ⟨rfl,rfl⟩ := Prod.mk.inj hru
      obtain ⟨a,x,f,-,hg⟩ := hsp
      refine ⟨.of_gets hg h hp hc.resident,fun flags hr => ?_⟩
      have hpr : hasFlag (k1.leaf k.cr3 (va/pageSize)) flagPresent = true := by
        rw [hg.leaf]
        exact hg.present
      rw [hg.owned.flagsIn_eq hs hv,if_pos hpr] at hr
      cases hr
      exact ⟨hpr,rfl⟩
    · rename_i k2 d' hn he
      cases he
      cases hru
      refine ⟨?_,nofun⟩
      split at hsp
      · exact absurd rfl hn
      · exact .of_refuses hsp h _

lemma Kernel.userWritable_spec (hva : va < userAddressLimit)
    (hl : ¬c.lent k.cr3 (va/pageSize)) (hpr : hasFlag (k.leaf k.cr3 (va/pageSize)) flagPresent = true)
    (hn : hasFlag (k.leaf k.cr3 (va/pageSize)) mapWritable = false) {r : Option Entry}
    (hru : k.userWritable va (flagsOf (k.leaf k.cr3 (va/pageSize))) = (k',r)) :
    Settles c hand 1 k.cr3 (va/pageSize) k k' ∧ ∀ flags, r = some flags → hasFlag flags mapWritable = true →
      hasFlag (k'.leaf k.cr3 (va/pageSize)) flagPresent = true ∧
      hasFlag (k'.leaf k.cr3 (va/pageSize)) mapWritable = true := by
  have hv := div_lt_userPages hva
  have hus := h.user k.cr3 _ hs hv hpr
  unfold userWritable at hru
  rw [mapCow,hasFlag_flagsOf _ (by decide),← mapCow] at hru
  cases hc : hasFlag (k.leaf k.cr3 (va/pageSize)) mapCow with
  | false =>
    simp only [hc,false_eq_true,if_false] at hru
    cases hru
    refine ⟨.refl h _ _ _,fun flags hr hw => ?_⟩
    cases hr
    rw [mapWritable,hasFlag_flagsOf _ (by decide),← mapWritable,hn] at hw
    cases hw
  | true =>
    simp only [hc,if_true] at hru
    rcases hre : k.resolveCowPage k.cr3 va with ⟨k1,d⟩
    have hsp := resolveCowPage_spec h hs hva hl hpr hc hre
    rw [hre] at hru
    cases d with
    | error e =>
      cases hru
      exact ⟨.of_idle hsp.1 h _ _,by simp⟩
    | ok b =>
      cases hru
      obtain ⟨-,⟨-,rfl⟩ | ⟨-,f,hpu⟩⟩ := hsp
      · obtain ⟨hp,hf,hu,hw,-⟩ := ownedCow_flags hpr hus
        obtain ⟨t,ht⟩ := leafTable_of_flag hpr
        refine ⟨(Settles.of_setLeaf h hs hv hpr hp hf hu).mono (Nat.zero_le 1),fun _ _ _ => ?_⟩
        rw [h.leaf_setLeaf_self hs hv ht]
        exact ⟨hp,hw⟩
      · refine ⟨.of_copy hpu h hpr rfl,fun _ _ _ => ?_⟩
        rw [hpu.leaf]
        refine ⟨hpu.present,?_⟩
        rw [mapWritable,hasFlag_or,← mapWritable,(cowFlags_writable _).1,Bool.or_true]

lemma Kernel.userPhysicalAddress_spec (hc : va < userAddressLimit → Clear c k.cr3 va w k) {r : Option Nat}
    (hru : k.userPhysicalAddress va w = (k',r)) : Settles c hand 6 k.cr3 (va/pageSize) k k' ∧
      ∀ physical, r = some physical → va < userAddressLimit ∧ Reaches k.cr3 va w k' physical := by
  unfold userPhysicalAddress at hru
  split_ifs at hru with hl
  · cases hru
    exact ⟨.refl h _ _ _,nofun⟩
  have hva : va < userAddressLimit := Nat.lt_of_not_ge hl
  have hv := div_lt_userPages hva
  rcases hf : k.userFlags va w with ⟨k1,r1⟩
  obtain ⟨hset,hso⟩ := userFlags_spec h hs hva (hc hva) hf
  have hcr : k1.cr3 = k.cr3 := hset.around.cr3
  have hse := hset.mono (m := 6) (by decide)
  rw [hf] at hru
  cases r1 with
  | none =>
    cases hru
    exact ⟨hse,nofun⟩
  | some flags =>
    obtain ⟨hpr,rfl⟩ := hso flags rfl
    have hus := hset.owned.user _ _ hs hv hpr
    have hfl : hasFlag (flagsOf (k1.leaf k.cr3 (va/pageSize))) mapWritable =
        hasFlag (k1.leaf k.cr3 (va/pageSize)) mapWritable := by
      rw [mapWritable,hasFlag_flagsOf _ (by decide)]
    have hfla : hasFlag (flagsOf (k1.leaf k.cr3 (va/pageSize))) mapUser = true := by
      rw [mapUser,hasFlag_flagsOf _ (by decide),← mapUser,hus]
    simp only [hfla,hfl,Bool.not_true,Bool.false_eq_true,if_false] at hru
    split_ifs at hru with hn
    · simp only [Bool.and_eq_true,Bool.not_eq_true'] at hn
      rcases hwr : k1.userWritable va (flagsOf (k1.leaf k.cr3 (va/pageSize))) with ⟨k2,r2⟩
      rw [hwr] at hru
      rw [← hcr] at hwr
      obtain ⟨hse',hs'⟩ := userWritable_spec hset.owned (hcr ▸ hs) hva (hcr ▸ (hc hva).own)
        (hcr ▸ hpr) (hcr ▸ hn.2) hwr
      rw [hcr] at hse' hs'
      have hc' : k2.cr3 = k.cr3 := hse'.around.cr3.trans hcr
      cases r2 with
      | none =>
        cases hru
        exact ⟨hset.trans hse',nofun⟩
      | some flags' =>
        simp only at hru
        split_ifs at hru with hw
        · cases hru
          exact ⟨hset.trans hse',nofun⟩
        cases hru
        obtain ⟨hp,hpw⟩ := hs' flags' rfl (by simpa using hw)
        refine ⟨hset.trans hse',fun physical hr => ⟨hva,⟨hp,hse'.owned.user _ _ hs hv hp,fun _ => hpw,?_⟩⟩⟩
        rw [hc',hse'.owned.translateIn_eq hs hva hp] at hr
        exact (Option.some.inj hr).symm
    · obtain ⟨rfl,rfl⟩ := Prod.mk.inj hru
      have hpw : w = true → hasFlag (k1.leaf k.cr3 (va/pageSize)) mapWritable = true := by
        intro hw
        simpa [hw] using hn
      refine ⟨hse,fun physical hr => ⟨hva,⟨hpr,hus,hpw,?_⟩⟩⟩
      rw [hcr,hset.owned.translateIn_eq hs hva hpr] at hr
      exact (Option.some.inj hr).symm

end
end

def Kernel.byteAt (k : Kernel) (s va : Nat) : Option UInt8 := (k.content s (va/pageSize)).map (· (va%pageSize))

/-- One turn of a copy: the states before and after the walk, and the physical address it gave. -/
structure UserTurn where
  before : Kernel
  after : Kernel
  address : Nat
  physical : Option Nat

/-- The turns of a copy; `put` is what a turn does to the byte it reached. -/
def Kernel.userTurns (w : Bool) (put : Kernel → Nat → UInt8 → Kernel) : List UInt8 → Kernel → Nat → List UserTurn
  | [], _, _ => []
  | byte::rest, k, address =>
    if address ≥ 2^64 then []
    else
      match k.userPhysicalAddress address w with
      | (k',none) => [⟨k,k',address,none⟩]
      | (k',some physical) =>
        ⟨k,k',address,some physical⟩::userTurns w put rest (put k' physical byte) (address+1)

inductive UserCopy where
  | toUser (bytes : List UInt8)
  | fromUser (length : Nat) (writable : Bool)
  | fromUserInto (buf : List UInt8)

namespace UserCopy

def length : UserCopy → Nat
  | .toUser bytes => bytes.length
  | .fromUser length _ => length
  | .fromUserInto buf => buf.length

def writable : UserCopy → Bool
  | .toUser _ => true
  | .fromUser _ w => w
  | .fromUserInto _ => false

def stores : UserCopy → Bool
  | .toUser _ => true
  | _ => false

variable (pointer : Nat)
variable (k : Kernel)

def turns : UserCopy → List UserTurn
  | .toUser bytes => userTurns true writePhysical bytes k pointer
  | .fromUser length w =>
    if length > 65536 then [] else userTurns w (fun k _ _ => k) (List.replicate length 0) k pointer
  | .fromUserInto buf => userTurns false (fun k _ _ => k) buf k pointer

def after : UserCopy → Kernel
  | .toUser bytes => (copyToUser bytes k pointer).1
  | .fromUser length w => (k.copyFromUser pointer length w).1
  | .fromUserInto buf => (k.copyFromUserInto pointer buf).1

def copied : UserCopy → Option (List UInt8)
  | .toUser bytes => if (copyToUser bytes k pointer).2 then some bytes else none
  | .fromUser length w => (k.copyFromUser pointer length w).2
  | .fromUserInto buf => if (k.copyFromUserInto pointer buf).2.2 then some (k.copyFromUserInto pointer buf).2.1 else none

end UserCopy
section
variable {c : Scope} {hand : List Nat} {s va physical : Nat} {k k' : Kernel} {w : Bool}

lemma Keeps.byteAt (h : Keeps c k k') (hsl : Slots c k none) (hs : c.live s) (hv : va < userAddressLimit)
    (hl : ¬c.lent s (va/pageSize)) {y : UInt8} (hy : k.byteAt s va = some y) : k'.byteAt s va = some y := by
  obtain ⟨b,hb,rfl⟩ := map_eq_some_iff.1 hy
  rw [Kernel.byteAt,(h hsl).2 s _ b hs (div_lt_userPages hv) hl hb]
  rfl

lemma Reaches.split (h : Reaches s va w k physical) :
    physical/pageSize = frameOf (k.leaf s (va/pageSize)) ∧ physical%pageSize = va%pageSize := by
  have hm : va%pageSize < pageSize := Nat.mod_lt _ (by decide)
  rw [h.physical,Nat.add_comm]
  exact ⟨by rw [Nat.add_mul_div_right _ _ (by decide),Nat.div_eq_of_lt hm,Nat.zero_add],
    by rw [Nat.add_mul_mod_self_right,Nat.mod_mod]⟩

lemma Reaches.byteAt (h : Reaches s va w k physical) : k.byteAt s va = some (k.readPhysical physical) := by
  obtain ⟨hd,hm⟩ := h.split
  rw [Kernel.byteAt,Kernel.content,contentOf_present h.present,Kernel.readPhysical,hd,hm]
  rfl

lemma Kernel.writePhysical_slots (byte : UInt8) (hsl : Slots c k none) : Slots c (k.writePhysical physical byte) none :=
  hsl.congr rfl rfl

lemma Reaches.write (h : Reaches s va w k physical) (how : Owned c k hand) (hs : c.live s)
    (hv : va < userAddressLimit) (hlen : ¬c.lent s (va/pageSize)) (byte : UInt8) :
    (k.writePhysical physical byte).byteAt s va = some byte ∧
      ∀ a y, a < userAddressLimit → ¬c.lent s (a/pageSize) → a ≠ va → k.byteAt s a = some y →
        (k.writePhysical physical byte).byteAt s a = some y := by
  obtain ⟨hd,hm⟩ := h.split
  have hle : ∀ v, (k.writePhysical physical byte).leaf s v = k.leaf s v := fun v => leaf_congr rfl s v
  constructor
  · rw [Kernel.byteAt,Kernel.content,hle,contentOf_present h.present,Kernel.writePhysical,hd,hm]
    simp
  intro a y ha hl hn hy
  cases hp : hasFlag (k.leaf s (a/pageSize)) flagPresent with
  | false =>
    rw [← hy,Kernel.byteAt,Kernel.byteAt,Kernel.content,Kernel.content,hle,Kernel.contentOf,Kernel.contentOf,hp]
    rfl
  | true =>
    rw [Kernel.byteAt,Kernel.content,contentOf_present hp] at hy
    rw [Kernel.byteAt,Kernel.content,hle,contentOf_present hp,Kernel.writePhysical,hd,hm,← hy]
    by_cases hf : frameOf (k.leaf s (a/pageSize)) = frameOf (k.leaf s (va/pageSize))
    · have hpa : a/pageSize = va/pageSize :=
        how.once s _ _ _ ⟨hs,div_lt_userPages hv,hlen,h.present,rfl⟩ ⟨hs,div_lt_userPages ha,hl,hp,hf⟩
      have ho : a%pageSize ≠ va%pageSize := by
        intro he
        apply hn
        rw [← Nat.div_add_mod a pageSize,hpa,he,Nat.div_add_mod]
      simp [hf,ho]
    · simp [hf]

/-- Every turn of a copy finds its page resident and not borrowed from the page cache. -/
def ClearTurns (c : Scope) (s : Nat) (w : Bool) (turns : List UserTurn) : Prop :=
  ∀ t ∈ turns, t.address < userAddressLimit → Clear c s t.address w t.before

lemma Kernel.readUserByte_eq {a : Nat} (k : Kernel) (w : Bool) : k.readUserByte a w =
    ((k.userPhysicalAddress a w).1,(k.userPhysicalAddress a w).2.map (k.userPhysicalAddress a w).1.readPhysical) := by
  unfold readUserByte
  split
  · rename_i he
    simp [he]
  · rename_i he
    simp [he]

variable (buf : List UInt8)

lemma Kernel.readUserBytes_spec (h : Owned c k hand) (hsl : Slots c k none) (hs : c.live k.cr3)
    (hc : ClearTurns c k.cr3 w (userTurns w (fun k _ _ => k) buf k va)) {out : List UInt8} {ok : Bool}
    (hru : readUserBytes w buf k va = (k',out,ok)) :
    Owned c k' hand ∧ k'.cr3 = k.cr3 ∧ (SwapUser c k → SwapUser c k') ∧ Keeps c k k' ∧
      (ok = true → ∀ i, i < buf.length → out[i]? = k'.byteAt k.cr3 (va+i)) := by
  induction buf generalizing k va out with
  | nil =>
    obtain ⟨rfl,hre⟩ := Prod.mk.inj hru
    cases hre
    exact ⟨h,rfl,id,.refl c k,fun _ i hi => absurd hi (Nat.not_lt_zero i)⟩
  | cons old rest ih =>
    unfold readUserBytes at hru
    unfold userTurns at hc
    split_ifs at hru hc with hov
    · obtain ⟨rfl,hre⟩ := Prod.mk.inj hru
      cases hre
      exact ⟨h,rfl,id,.refl c k,nofun⟩
    rw [readUserByte_eq] at hru
    rcases hw : k.userPhysicalAddress va w with ⟨k1,r⟩
    rw [hw] at hru hc
    cases r with
    | none =>
      obtain ⟨hse,-⟩ := userPhysicalAddress_spec h hs
        (hc ⟨k,k1,va,none⟩ (mem_singleton.2 rfl)) hw
      obtain ⟨rfl,hre⟩ := Prod.mk.inj hru
      cases hre
      exact ⟨hse.owned,hse.around.cr3,hse.swapUser,hse.keeps,nofun⟩
    | some physical =>
      have hf := hc ⟨k,k1,va,some physical⟩ (mem_cons_self ..)
      obtain ⟨hse,hr⟩ := userPhysicalAddress_spec h hs hf hw
      obtain ⟨hv,hr⟩ := hr physical rfl
      have hcr : k1.cr3 = k.cr3 := hse.around.cr3
      rcases hn : readUserBytes w rest k1 (va+1) with ⟨k2,q⟩
      obtain ⟨bytes,ok'⟩ := q
      simp only [map_some,hn,Prod.mk.injEq] at hru
      obtain ⟨rfl,rfl,rfl⟩ := hru
      obtain ⟨hs1,-⟩ := hse.keeps hsl
      obtain ⟨ho,hc',hsw,hk,hok⟩ := ih hse.owned hs1 (hcr ▸ hs)
        (fun t ht => hcr ▸ hc t (mem_cons_of_mem _ ht)) hn
      refine ⟨ho,hc'.trans hcr,fun hu => hsw (hse.swapUser hu),hse.keeps.trans hk,fun htr i hi => ?_⟩
      have hb := hok htr
      cases i with
      | zero =>
        have := hk.byteAt hs1 hs hv (hf hv).own hr.byteAt
        simpa using this.symm
      | succ i =>
        rw [hcr] at hb
        have := hb i (by simpa using hi)
        simpa [Nat.add_assoc,Nat.add_comm 1 i] using this

def reached (turns : List UserTurn) : Nat := (turns.filter (fun t => t.physical.isSome)).length

lemma Kernel.copyToUser_spec (bytes : List UInt8) (h : Owned c k hand) (hsl : Slots c k none) (hs : c.live k.cr3)
    (hc : ClearTurns c k.cr3 true (userTurns true writePhysical bytes k va)) {ok : Bool}
    (hru : copyToUser bytes k va = (k',ok)) {n : Nat} (hn : reached (userTurns true writePhysical bytes k va) = n) :
    Owned c k' hand ∧ k'.cr3 = k.cr3 ∧ (SwapUser c k → SwapUser c k') ∧ Slots c k' none ∧
      (∀ a y, a < userAddressLimit → ¬c.lent k.cr3 (a/pageSize) → a < va ∨ va+n ≤ a →
        k.byteAt k.cr3 a = some y → k'.byteAt k.cr3 a = some y) ∧
      (∀ i, i < n → va+i < userAddressLimit ∧ ¬c.lent k.cr3 ((va+i)/pageSize) ∧
        bytes[i]? = k'.byteAt k.cr3 (va+i)) := by
  subst hn
  induction bytes generalizing k va with
  | nil =>
    cases hru
    exact ⟨h,rfl,id,hsl,fun _ _ _ _ _ hy => hy,nofun⟩
  | cons byte rest ih =>
    unfold copyToUser at hru
    unfold userTurns at hc ⊢
    split_ifs at hru hc ⊢ with hov
    · cases hru
      exact ⟨h,rfl,id,hsl,fun _ _ _ _ _ hy => hy,nofun⟩
    rcases hwa : k.userPhysicalAddress va true with ⟨k1,r⟩
    rw [hwa] at hru hc
    cases r with
    | none =>
      obtain ⟨hse,-⟩ := userPhysicalAddress_spec h hs
        (hc ⟨k,k1,va,none⟩ (mem_singleton.2 rfl)) hwa
      cases hru
      exact ⟨hse.owned,hse.around.cr3,hse.swapUser,(hse.keeps hsl).1,
        fun a y ha hl _ => hse.keeps.byteAt hsl hs ha hl,nofun⟩
    | some physical =>
      have hf := hc ⟨k,k1,va,some physical⟩ (mem_cons_self ..)
      obtain ⟨hse,hr⟩ := userPhysicalAddress_spec h hs hf hwa
      obtain ⟨hv,hr⟩ := hr physical rfl
      have hcr3 : k1.cr3 = k.cr3 := hse.around.cr3
      obtain ⟨hnew,hol⟩ := hr.write hse.owned hs hv (hf hv).own byte
      have hs1 : Owned c (k1.writePhysical physical byte) hand := hse.owned.setMem _
      obtain ⟨ho,hc',hsw,hs',hk,hw⟩ := ih hs1
        (writePhysical_slots byte (hse.keeps hsl).1) (hcr3 ▸ hs)
        (fun t ht => hcr3 ▸ hc t (mem_cons_of_mem _ ht)) hru
      have hcr : (k1.writePhysical physical byte).cr3 = k.cr3 := hcr3
      rw [hcr] at hc' hk hw
      simp only [reached,filter_cons,isSome_some,if_true,length_cons]
      refine ⟨ho,hc',fun hu => hsw (hse.swapUser hu),hs',fun a y ha hl hou hy => ?_,fun i hi => ?_⟩
      · have hy1 := hse.keeps.byteAt hsl hs ha hl hy
        have hne : a ≠ va := by omega
        refine hk a y ha hl ?_ (hol a y ha hl hne hy1)
        unfold reached
        omega
      · cases i with
        | zero =>
          have := hk va byte hv (hf hv).own (.inl (Nat.lt_succ_self va)) hnew
          exact ⟨hv,(hf hv).own,by simpa using this.symm⟩
        | succ i =>
          have := hw i (by simpa [reached] using hi)
          simpa [Nat.add_assoc,Nat.add_comm 1 i] using this

end

lemma UserCopy.turns_byte {byte : UInt8} {k : Kernel} {va : Nat} {t : UserTurn}
    (ht : t ∈ (UserCopy.toUser [byte]).turns va k) : t.before = k ∧ t.address = va := by
  simp only [UserCopy.turns,userTurns] at ht
  split_ifs at ht
  · simp at ht
  split at ht
  · obtain rfl := mem_singleton.1 ht
    exact ⟨rfl,rfl⟩
  · obtain rfl := mem_singleton.1 ht
    exact ⟨rfl,rfl⟩

end Vanta.Mm
