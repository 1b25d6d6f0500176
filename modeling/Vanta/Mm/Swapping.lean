import Vanta.Mm.UserCopy

namespace Vanta.Mm
open Library Memory Kernel Function
variable {w : Bool}

section
variable {c : Scope} {hand : List Nat} {s v va t i : Nat} {k k' : Kernel} {kind : AccessKind} {value : UInt8} {e : Entry}

/-- The entry of a page that is swapped out to `slot`. -/
def swapEntry (slot : Nat) (e : Entry) : Entry :=
  slotBits slot ||| (e &&& (mapWritable ||| mapUser ||| mapNoExecute)) ||| mapSwapped

lemma swapEntry_swapped (slot : Nat) (e : Entry) : Swapped (swapEntry slot e) := by
  constructor <;> simp (disch := decide) [swapEntry,flagPresent,mapWritable,mapUser,mapNoExecute,mapSwapped,
    hasFlag_bit_bit,hasFlag_slotBits]

lemma swapEntry_user (slot : Nat) (e : Entry) : hasFlag (swapEntry slot e) mapUser = hasFlag e mapUser := by
  simp (disch := decide) [swapEntry,mapWritable,mapUser,mapNoExecute,mapSwapped,hasFlag_bit_bit,hasFlag_slotBits]

lemma Owned.allocSlot (h : Owned c k hand) {swap : SwapManager} {r : Option Nat} (hr : k.swap.allocSlot = (swap,r)) :
    Owned c {k with swap := swap} hand :=
  h.reswap swap k.swapDisk (fun _ _ hp => allocSlot_tracked hr ▸ hp)

lemma Kernel.swapPageOut_eq (h : Owned c k hand) (hs : c.live s) (hva : va < userAddressLimit) (slot : Nat) :
    k.swapPageOut s va slot = if hasFlag (k.leaf s (va/pageSize)) flagPresent then
        (({k.setLeaf s (va/pageSize) (swapEntry slot (k.leaf s (va/pageSize))) with
          swapDisk := update k.swapDisk slot (k.mem (frameOf (k.leaf s (va/pageSize))))}.freeFrame
            (frameOf (k.leaf s (va/pageSize)))).1,.ok (frameOf (k.leaf s (va/pageSize))))
      else (k,.error .noHhdm) := by
  obtain ⟨hl,hi⟩ := h.pteLocation_page hs hva
  rw [swapPageOut,hl]
  cases ht : k.leafTable s (va/pageSize) with
  | none => simp [(leaf_absent ht).1]
  | some t =>
    rw [setLeaf_eq ht,leaf_eq ht]
    simp only [hi]
    cases hasFlag (k.tables t (va/pageSize%512)) flagPresent with
    | false | true => rfl

variable {swap : SwapManager}

lemma Around.slot {P : Nat → Nat → Prop} (htr : swap.trackedPages = k.swap.trackedPages) :
    Around c 0 P k {k with swap := swap} := by
  refine .of_eq rfl rfl rfl rfl rfl ?_
  rintro x u ⟨j,p,hp,ha⟩
  exact .inl ⟨j,p,htr ▸ hp,ha⟩

lemma Settles.giveBack (h : Owned c k hand) (hr : k.swap.allocSlot = (swap,some i)) (s v : Nat) :
    Settles c hand 0 s v k {k with swap := swap.freeSlot i} := by
  have htr : (swap.freeSlot i).trackedPages = k.swap.trackedPages :=
    (freeSlot_tracked swap i).trans (allocSlot_tracked hr)
  have hc : Calm c none none k {k with swap := swap.freeSlot i} := (Calm.allocSlot hr).trans .freeSlot
  exact ⟨h.reswap _ k.swapDisk (fun j p hp => htr ▸ hp),.slot htr,.of_same (.of_kept hc.kept _),
    fun hsw => hsw⟩

section
variable (h : Owned c k hand) (hs : c.live s) (hv : v < userPages) (hlent : ¬c.lent s v)
  (ht : k.leafTable s v = some t)

include h hs hv hlent ht

lemma Owned.release (hpr : hasFlag (k.leaf s v) flagPresent = true)
    (hn : hasFlag e flagPresent = false) (disk : Nat → Nat → UInt8) :
    Owned c ({k.writeEntry t (v%512) e with swapDisk := disk}.freeFrame (frameOf (k.leaf s v))).1 hand ∧
      Around c 0 (At s v) k ({k.writeEntry t (v%512) e with swapDisk := disk}.freeFrame (frameOf (k.leaf s v))).1 := by
  have hd := (h.writeLeaf_clear hs hv ht hlent hpr hn).reswap k.swap disk (fun _ _ hp => hp)
  have hse := Around.setLeaf h hs hv e
  rw [setLeaf_eq ht] at hse
  have hst : Around c 0 (At s v) (k.writeEntry t (v%512) e) {k.writeEntry t (v%512) e with swapDisk := disk} :=
    .of_eq rfl rfl rfl rfl rfl (fun _ _ htr => .inl htr)
  obtain ⟨frames,hf,ho,-,-⟩ := hd.free
  refine ⟨?_,(hse.trans hst).trans (Around.freeFrame hd)⟩
  have hfs := congrArg Prod.fst hf
  exact hfs ▸ ho

lemma Settles.swapOut (hr : k.swap.allocSlot = (swap,some i)) (hpr : hasFlag (k.leaf s v) flagPresent = true) :
    Settles c hand 0 s v k ({{k with swap := swap}.writeEntry t (v%512) (swapEntry i (k.leaf s v)) with
      swapDisk := update k.swapDisk i (k.mem (frameOf (k.leaf s v)))}.freeFrame (frameOf (k.leaf s v))).1 := by
  have htr := allocSlot_tracked hr
  have hsw := swapEntry_swapped i (k.leaf s v)
  have h0 := h.allocSlot hr
  have ht0 : {k with swap := swap}.leafTable s v = some t := ht
  have hp0 : hasFlag ({k with swap := swap}.leaf s v) flagPresent = true := hpr
  obtain ⟨ho,har⟩ := h0.release hs hv hlent ht0 hp0 hsw.1
    (update k.swapDisk i (k.mem (frameOf (k.leaf s v))))
  have hslo := (SwapManager.allocSlot_some hr).1
  have hta : Calm c none (some i) k {k with swap := swap} := .allocSlot hr
  have hc := (hta.trans (.swapOut h0 hs hv ht0 hp0 hsw (slotOf_swapOut hslo _))).trans (.free _ (frameOf (k.leaf s v)))
  have hsl : Around c 0 (At s v) k {k with swap := swap} := .slot htr
  have ha := hsl.trans har
  refine ⟨ho,ha,.of_same (.of_kept hc.kept _),fun hswa => hswa.around h ha (fun x u _ _ hat _ => ?_)⟩
  have hl := h0.leaf_writeEntry hs hv ht0 (swapEntry i (k.leaf s v)) hs hv
  rw [if_pos ⟨rfl,rfl⟩] at hl
  have hu := h.user s v hs hv hpr
  rw [← swapEntry_user i,← hl] at hu
  rw [hat.1,hat.2]
  exact hu

end

lemma Kernel.pageOut_spec (h : Owned c k hand) (hs : c.live s) (hva : va < userAddressLimit)
    (hlent : ¬c.lent s (va/pageSize)) : Settles c hand 0 s (va/pageSize) k (k.pageOut s va).1 := by
  have hv := div_lt_userPages hva
  unfold pageOut
  rcases hsl : k.swap.allocSlot with ⟨swap,r⟩
  cases r with
  | none => exact .refl h _ _ _
  | some slot =>
    have h0 := h.allocSlot hsl
    have hl : {k with swap := swap}.leaf s (va/pageSize) = k.leaf s (va/pageSize) := leaf_congr rfl _ _
    simp only [swapPageOut_eq h0 hs hva,hl]
    cases hpr : hasFlag (k.leaf s (va/pageSize)) flagPresent with
    | false => exact .giveBack h hsl s _
    | true =>
      obtain ⟨t,ht⟩ := leafTable_of_flag hpr
      have ht0 : {k with swap := swap}.leafTable s (va/pageSize) = some t := ht
      simp only [if_true,setLeaf_eq ht0]
      exact .swapOut h hs hv hlent ht hsl hpr

lemma Serves.settles (h : Serves c hand s va w k k') (ho : Owned c k hand) (hs : c.live s)
    (hva : va < userAddressLimit) (hfr : Swapped (k.leaf s (va/pageSize)) → 0 < k.frames.freeFrames) :
    Settles c hand 6 s (va/pageSize) k k' := by
  have hv := div_lt_userPages hva
  cases h with
  | own hw hpr hco hon heq =>
    obtain ⟨hp,hf,hu,-,-⟩ := ownedCow_flags hpr (ho.user s _ hs hv hpr)
    rw [heq]
    exact (Settles.of_setLeaf ho hs hv hpr hp hf hu).mono (by decide)
  | copy hw hpr hco hpro hpu => exact (Settles.of_copy hpu ho hpr rfl).mono (by decide)
  | swapIn hsw hpro hc hge =>
    have hse : Settles c hand 1 s (va/pageSize) k k' := ⟨hge.owned,hge.around,.of_same hc,
      fun hswa => hswa.present ho hge.around (hge.leaf ▸ hge.present)⟩
    exact hse.mono (by decide)
  | demand hn he hg hge =>
    refine .of_gets hge ho hn (fun hsw => ?_)
    have := hfr hsw
    rw [he hsw] at this
    exact absurd this (lt_irrefl 0)

lemma Kernel.touch_snd (hk : kind ≠ .write) (hp : hasFlag (k.leaf s (va/pageSize)) flagPresent = true) :
    k.byteAt s va = some (k.touch s va kind value).2 := by
  rw [byteAt,content,contentOf_present hp]
  cases kind with
  | read => rfl
  | write => exact absurd rfl hk
  | execute => rfl

lemma Touches.byteAt (h : Touches c hand s va kind value k k') (ho : Owned c k hand) (hs : c.live s)
    (hva : va < userAddressLimit) (hlent : ¬c.lent s (va/pageSize))
    (hpr : hasFlag (k.leaf s (va/pageSize)) flagPresent = true) : (kind = .write → k'.byteAt s va = some value) ∧
      ∀ a y, a < userAddressLimit → ¬c.lent s (a/pageSize) → (kind = .write → a ≠ va) → k.byteAt s a = some y →
        k'.byteAt s a = some y := by
  have hv := div_lt_userPages hva
  constructor
  · rintro rfl
    rw [byteAt,h.content_eq hpr hs hv,if_pos ⟨hpr,rfl⟩]
    simp [stored]
  intro a y ha hl hn hy
  rw [Kernel.byteAt,h.content_eq hpr hs (div_lt_userPages ha)]
  split_ifs with hsa
  · obtain ⟨hp,hf⟩ := hsa
    have hpa : a/pageSize = va/pageSize :=
      ho.once s _ _ _ ⟨hs,hv,hlent,hpr,rfl⟩ ⟨hs,div_lt_userPages ha,hl,hp,hf⟩
    rw [Kernel.byteAt,Kernel.content,contentOf_present hp,hf] at hy
    rw [← hy]
    simp only [Option.map_some,Option.some.injEq]
    cases kind with
    | read | execute => rfl
    | write =>
      apply stored_ne
      intro he
      apply hn rfl
      rw [← Nat.div_add_mod a pageSize,hpa,he,Nat.div_add_mod]
  · exact hy

lemma Kernel.byteAt_some {x : UInt8} (hx : k.byteAt s va = some x) :
    hasFlag (k.leaf s (va/pageSize)) flagPresent = true ∨ Swapped (k.leaf s (va/pageSize)) := by
  cases hp : hasFlag (k.leaf s (va/pageSize)) flagPresent with
  | true => exact .inl rfl
  | false =>
    cases hm : hasFlag (k.leaf s (va/pageSize)) mapSwapped with
    | true => exact .inr ⟨hp,hm⟩
    | false => simp [Kernel.byteAt,content,contentOf,hp,hm] at hx

section
variable (h : Owned c k hand)
include h

lemma Owned.permits_read (hs : c.live s) (hva : va < userAddressLimit)
    (hp : hasFlag (k.leaf s (va/pageSize)) flagPresent = true) : permits .read (k.leaf s (va/pageSize)) = true := by
  simp [permits,h.user s _ hs (div_lt_userPages hva) hp]

/-- A load of a page that is in memory, or swapped out while a frame is free, is served. -/
lemma Kernel.access_loads (hsu : SwapUser c k) (hs : c.live s) (hva : va < userAddressLimit)
    (hlent : ¬c.lent s (va/pageSize)) (hc : hasFlag (k.leaf s (va/pageSize)) flagPresent = false →
      k.mapsCached s va false = false) (hin : hasFlag (k.leaf s (va/pageSize)) flagPresent = true ∨
      Swapped (k.leaf s (va/pageSize)) ∧ 0 < k.frames.freeFrames) : ∃ b, (k.access s va .read value).2 = .done b := by
  rw [access,accessLoop_succ h hs hva]
  rcases hin with hp | ⟨hsw,hfr⟩
  · rw [if_pos (by rw [hp,h.permits_read hs hva hp]; rfl)]
    exact ⟨_,rfl⟩
  rw [if_neg (by simp [hsw.1]),hsw.1]
  rcases hre : k.resolveSwappedPage s va with ⟨k1,a⟩
  have hsp := resolveSwappedPage_spec h hs hva hlent hsw (hsu s _ hs (div_lt_userPages hva) hsw) hre
  cases a with
  | error _ => exact absurd hsp.2 (by omega)
  | ok b =>
    obtain ⟨rfl,-⟩ := hsp
    have hf : k.pageFault s va (AccessKind.read == .write) false = (k1,.resolved) := by
      simp only [pageFault,show (AccessKind.read == .write) = false from rfl,Bool.false_eq_true,if_false,hre]
    have hser := ((pageFault_spec h hsu hs hva hlent hsw.1 (fun _ => hc hsw.1) hf).1 rfl).served h hs hva
    rw [hf]
    simp only
    rw [accessLoop_succ hser.owned hs hva,
      if_pos (by rw [hser.present,hser.owned.permits_read hs hva hser.present]; rfl)]
    exact ⟨_,rfl⟩

lemma Kernel.userPhysicalAddress_resident (hs : c.live k.cr3) (hva : va < userAddressLimit)
    (hp : hasFlag (k.leaf k.cr3 (va/pageSize)) flagPresent = true) :
    ∃ physical, k.userPhysicalAddress va false = (k,some physical) := by
  have hu : hasFlag (flagsOf (k.leaf k.cr3 (va/pageSize))) mapUser = true := by
    rw [mapUser,hasFlag_flagsOf _ (by decide),← mapUser,h.user _ _ hs (div_lt_userPages hva) hp]
  refine ⟨frameOf (k.leaf k.cr3 (va/pageSize))*pageSize+va%pageSize,?_⟩
  rw [userPhysicalAddress,if_neg (by omega),userFlags,h.flagsIn_eq hs hva,if_pos hp]
  simp [hu,h.translateIn_eq hs hva hp]

/-- A reading copy of bytes whose pages hold them is complete. -/
lemma Kernel.readUserBytes_resident (buf : List UInt8) (hs : c.live k.cr3)
    (hct : ClearTurns c k.cr3 false (userTurns false (fun k _ _ => k) buf k va))
    (hb : ∀ i, i < buf.length → va+i < userAddressLimit ∧ (k.byteAt k.cr3 (va+i)).isSome = true) :
    (readUserBytes false buf k va).2.2 = true := by
  induction buf generalizing va with
  | nil => rfl
  | cons old rest ih =>
    obtain ⟨hva,hby⟩ : va < userAddressLimit ∧ (k.byteAt k.cr3 va).isSome = true := hb 0 (by simp)
    obtain ⟨x,hx⟩ := Option.isSome_iff_exists.1 hby
    have hov : ¬va ≥ 2^64 := by
      rw [userAddressLimit] at hva
      omega
    rw [userTurns,if_neg hov] at hct
    -- the byte is in memory, since its page is not swapped out
    have hp : hasFlag (k.leaf k.cr3 (va/pageSize)) flagPresent = true := by
      refine (byteAt_some hx).resolve_right fun hsw => ?_
      rcases hw : k.userPhysicalAddress va false with ⟨k1,_ | physical⟩ <;> rw [hw] at hct
      · exact (hct _ (List.mem_singleton.2 rfl) hva).resident hsw
      · exact (hct _ (List.mem_cons_self ..) hva).resident hsw
    obtain ⟨physical,hw⟩ := userPhysicalAddress_resident h hs hva hp
    rw [hw] at hct
    rw [readUserBytes,if_neg hov,readUserByte_eq,hw]
    exact ih (fun t ht => hct t (List.mem_cons_of_mem _ ht)) fun i hi => by
      rw [show va+1+i = va+(i+1) by omega]
      exact hb (i+1) (by simpa using hi)

end
end

inductive SwapOp where
  | swapOut (va : Nat)
  | access (va : Nat) (kind : AccessKind) (value : UInt8)
  | copy (pointer : Nat) (call : UserCopy)
  | mprotect (addr length prot : Nat)
  | munmap (addr length : Nat)

namespace SwapOp

def run (s : Nat) (k : Kernel) : SwapOp → Kernel
  | .swapOut va => (k.pageOut s va).1
  | .access va kind value => (k.access s va kind value).1
  | .copy pointer call => call.after pointer k
  | .mprotect addr length prot => (k.mprotect s addr length prot).1
  | .munmap addr length => (k.munmap s addr length).1

def record (s : Nat) (k : Kernel) (m : Nat → Option UInt8) : SwapOp → Nat → Option UInt8
  | .access va .write value => match (k.access s va .write value).2 with
    | .done _ => update m va (some value)
    | _ => m
  | .copy pointer (.toUser bytes) => fun a =>
    if pointer ≤ a ∧ a < pointer+reached ((UserCopy.toUser bytes).turns pointer k) then bytes[a-pointer]? else m a
  | .munmap addr length => match (k.munmap s addr length).2,alignLength length with
    | .ok _,some aligned => fun a => if addr ≤ a ∧ a < addr+aligned then none else m a
    | _,_ => m
  | _ => m

/-- A load gives the value stored, and a copy from user memory that holds values gives them; an instruction fetch
and a copy that asks for write access may be refused. -/
def Faithful (s : Nat) (k : Kernel) (m : Nat → Option UInt8) : SwapOp → Prop
  | .access va .read value => ∀ x, m va = some x → (k.access s va .read value).2 = .done x
  | .access va .execute value => ∀ b x, (k.access s va .execute value).2 = .done b → m va = some x → b = x
  | .copy pointer call => call.stores = false → (∀ bytes, call.copied pointer k = some bytes →
      ∀ i x, i < call.length → m (pointer+i) = some x → bytes[i]? = some x) ∧
      (call.writable = false → call.length ≤ 65536 → (∀ i, i < call.length → (m (pointer+i)).isSome = true) →
        (call.copied pointer k).isSome = true)
  | _ => True

/-- Pages hold a reference to their frame; a swapped page comes back by a fault that finds a frame; no kernel copy touches one. -/
def Safe (c : Scope) (s : Nat) (k : Kernel) : SwapOp → Prop
  | .swapOut va => va < userAddressLimit ∧ ¬c.lent s (va/pageSize)
  | .access va kind _ => va < userAddressLimit ∧ ¬c.lent s (va/pageSize) ∧
      (hasFlag (k.leaf s (va/pageSize)) flagPresent = false → k.mapsCached s va (kind == .write) = false) ∧
      (Swapped (k.leaf s (va/pageSize)) → 0 < k.frames.freeFrames)
  | .copy pointer call => ClearTurns c s call.writable (call.turns pointer k)
  | .mprotect _ _ _ => True
  | .munmap addr length => ∀ aligned, alignLength length = some aligned → addr+aligned ≤ userAddressLimit ∧
      ∀ v, addr/pageSize ≤ v → v < (addr+aligned)/pageSize → ¬c.lent s v

end SwapOp

def swapRun (s : Nat) : List SwapOp → Kernel × (Nat → Option UInt8) → Kernel × (Nat → Option UInt8)
  | [], x => x
  | op::ops, x => swapRun s ops (op.run s x.1,op.record s x.1 x.2)

def SafeRun (c : Scope) (s : Nat) : List SwapOp → Kernel → Prop
  | [], _ => True
  | op::ops, k => op.Safe c s k ∧ SafeRun c s ops (op.run s k)

def SlotsExact (c : Scope) (k : Kernel) : Prop :=
  ∀ slot, slot < maxSwapSlots → (k.swap.bitmap slot = true ↔ ∃ s v, c.live s ∧ v < userPages ∧
    Swapped (k.leaf s v) ∧ slotOf (k.leaf s v) = slot)

structure SwapAt (c : Scope) (hand : List Nat) (s : Nat) (k : Kernel) (m : Nat → Option UInt8) : Prop where
  owned : Owned c k hand
  slots : Slots c k none
  swapUser : SwapUser c k
  cr3 : k.cr3 = s
  stored : ∀ va x, m va = some x → va < userAddressLimit ∧ ¬c.lent s (va/pageSize) ∧ k.byteAt s va = some x

section
variable {c : Scope} {hand : List Nat} {n s v va : Nat} {k k' : Kernel} {m : Nat → Option UInt8}

lemma Kernel.protectAreas_procs (k : Kernel) (s start stop : Nat) (flags : VmaFlags) :
    ∃ procs, k.protectAreas s start stop flags = {k with procs := procs} := by
  unfold protectAreas
  split
  · exact ⟨k.procs,rfl⟩
  · exact ⟨_,rfl⟩

namespace SwapAt

section
variable (h : SwapAt c hand s k m)
include h

lemma setProcs (procs : Nat → Option Process) : SwapAt c hand s {k with procs := procs} m :=
  ⟨h.owned.setProcs procs,h.slots.congr rfl rfl,h.swapUser,h.cr3,h.stored⟩

lemma settles (hs : c.live s) (hse : Settles c hand n s v k k') : SwapAt c hand s k' m where
  owned := hse.owned
  slots := (hse.keeps h.slots).1
  swapUser := hse.swapUser h.swapUser
  cr3 := hse.around.cr3.trans h.cr3
  stored := fun a x hx => by
    obtain ⟨ha,hl,hb⟩ := h.stored a x hx
    exact ⟨ha,hl,hse.keeps.byteAt h.slots hs ha hl hb⟩

lemma touch (hs : c.live s) (hva : va < userAddressLimit) (hlent : ¬c.lent s (va/pageSize))
    (hp : hasFlag (k.leaf s (va/pageSize)) flagPresent = true) (kind : AccessKind) (value : UInt8) :
    SwapAt c hand s (k.touch s va kind value).1 (if kind = .write then update m va (some value) else m) := by
  have hto := touch_spec h.owned hs hva hp kind value
  obtain ⟨hn,ho⟩ := hto.byteAt h.owned hs hva hlent hp
  refine ⟨hto.owned,hto.slots hs hva hp h.slots,?_,hto.around.cr3.trans h.cr3,fun a x hx => ?_⟩
  · refine h.swapUser.present h.owned hto.around ?_
    rw [hto.leaf s _ hs (div_lt_userPages hva),if_pos ⟨rfl,rfl⟩,flagPresent,
      marked_flag kind _ (by decide) (by decide) (by decide),← flagPresent,hp]
  by_cases hw : kind = .write ∧ a = va
  · obtain ⟨rfl,rfl⟩ := hw
    simp only [if_true,update_self] at hx
    exact ⟨hva,hlent,hx ▸ hn rfl⟩
  have hx' : m a = some x := by
    split_ifs at hx with hk
    · rwa [update_of_ne (fun ha => hw ⟨hk,ha⟩)] at hx
    · exact hx
  obtain ⟨ha,hl,hb⟩ := h.stored a x hx'
  exact ⟨ha,hl,ho a x ha hl (fun hk he => hw ⟨hk,he⟩) hb⟩

end

variable {kind : AccessKind} {value : UInt8}

lemma record_done {b : UInt8} (hd : (k.access s va kind value).2 = .done b) :
    (SwapOp.access va kind value).record s k m = if kind = .write then update m va (some value) else m := by
  cases kind with
  | read | execute => rfl
  | write => simp only [SwapOp.record,hd,if_true]

lemma record_failed (hf : ∀ b, (k.access s va kind value).2 ≠ .done b) :
    (SwapOp.access va kind value).record s k m = m := by
  cases kind with
  | read | execute => rfl
  | write =>
    cases hr : (k.access s va .write value).2 with
    | done b => exact absurd hr (hf b)
    | segv | panic | stuck => simp only [SwapOp.record,hr]

variable {op : SwapOp}

section
variable (h : SwapAt c hand s k m) (hs : c.live s)
include h hs

lemma access (hsa : (SwapOp.access va kind value).Safe c s k) :
    SwapAt c hand s (k.access s va kind value).1 ((SwapOp.access va kind value).record s k m) ∧
      (kind ≠ .write → ∀ b x, (k.access s va kind value).2 = .done b → m va = some x → b = x) := by
  obtain ⟨hva,hlent,hc,hfr⟩ := hsa
  rcases hru : k.access s va kind value with ⟨k',r⟩
  have hsp := access_spec h.owned h.swapUser hs hva hlent hc hru
  cases hsp with
  | @done k1 hse hp hpe he =>
    have h1 : SwapAt c hand s k1 m := by
      rcases hse with rfl | hse
      · exact h
      · exact h.settles hs (hse.settles h.owned hs hva hfr)
    rw [record_done (congrArg Prod.snd hru),he]
    refine ⟨h1.touch hs hva hlent hp kind value,fun hk b x hdo hx => ?_⟩
    cases hdo
    have hb := (h1.stored va x hx).2.2
    rw [touch_snd hk hp] at hb
    exact Option.some.inj hb
  | killed hse hd =>
    rw [record_failed (by simp [hru])]
    exact ⟨h.settles hs (hse.settles h.owned hs hva hfr),fun _ _ _ hdo => by cases hdo⟩
  | refused hre hr =>
    have hf : ∀ b, r ≠ .done b := by
      rcases hr with rfl | rfl <;> simp
    rw [record_failed (by simpa [hru] using hf)]
    exact ⟨h.settles hs (.of_refuses hre h.owned (va/pageSize)),fun _ b x hdo => absurd hdo (hf b)⟩

lemma access_faithful (hsa : (SwapOp.access va kind value).Safe c s k) : (SwapOp.access va kind value).Faithful s k m := by
  have hd := (h.access hs hsa).2
  cases kind with
  | write => trivial
  | execute => exact hd (by decide)
  | read =>
    intro x hx
    obtain ⟨hva,hlent,hc,hfr⟩ := hsa
    obtain ⟨b,hb⟩ : ∃ b, (k.access s va .read value).2 = .done b := access_loads h.owned h.swapUser hs hva hlent hc
      ((byteAt_some (h.stored va x hx).2.2).imp id fun hsw => ⟨hsw,hfr hsw⟩)
    rw [hb,hd (by decide) b x hb hx]

lemma mprotect (addr length prot : Nat) : SwapAt c hand s (k.mprotect s addr length prot).1 m := by
  rcases hr : k.mprotect s addr length prot with ⟨k',r⟩
  rcases mprotect_spec h.owned hs hr with rfl | ⟨aligned,-,-,-,-,-,hp⟩
  · exact h
  obtain ⟨procs,har⟩ := protectAreas_procs k s addr (addr+aligned) (protFlags prot)
  have h0 : SwapAt c hand s (k.protectAreas s addr (addr+aligned) (protFlags prot)) m := by
    rw [har]
    exact h.setProcs procs
  have hk : Keeps c _ k' := .of_same hp.content
  refine ⟨hp.owned,(hk h0.slots).1,?_,hp.around.cr3.trans h0.cr3,fun a x hx => ?_⟩
  · refine h0.swapUser.around h0.owned hp.around (fun x v hx hv hi hsw => ?_)
    obtain ⟨rfl,hlo,hh⟩ := hi
    rw [hp.inside v hlo hh hv] at hsw ⊢
    split_ifs at hsw ⊢
    · exact absurd hsw (not_swapped_of_present (by simp (disch := decide) [flagPresent,hasFlag_bit_bit]))
    · exact h0.swapUser x v hx hv hsw
  · obtain ⟨ha,hl,hb⟩ := h0.stored a x hx
    exact ⟨ha,hl,hk.byteAt h0.slots hs ha hl hb⟩

lemma munmap {addr length : Nat} (hsa : (SwapOp.munmap addr length).Safe c s k) :
    SwapAt c hand s (k.munmap s addr length).1 ((SwapOp.munmap addr length).record s k m) := by
  rcases hr : k.munmap s addr length with ⟨k',r⟩
  rcases munmap_spec h.owned hs hsa hr with ⟨rfl,rfl⟩ |
    ⟨aligned,k1,⟨rfl,hle⟩,had,hal,-,-,hd,rfl⟩
  · rw [SwapOp.record,hr]
    exact h
  rw [SwapOp.record,hr,hle]
  have hst := div_mul_of_mod had
  have hsto : (addr+aligned)/pageSize*pageSize = addr+aligned :=
    div_mul_of_mod (by rw [Nat.add_mod,had,hal]; rfl)
  obtain ⟨hsl,hsam⟩ := hd.content h.slots
  have h1 : SwapAt c hand s k1 (fun a => if addr ≤ a ∧ a < addr+aligned then none else m a) := by
    refine ⟨hd.owned,hsl,?_,hd.around.cr3.trans h.cr3,fun a x hx => ?_⟩
    · refine h.swapUser.around h.owned hd.around (fun x v _ hv hi hsw => ?_)
      obtain ⟨rfl,hlo,hh⟩ := hi
      have hg := (hd.gone v hlo hh hv).2
      rw [hsw.2] at hg
      cases hg
    split_ifs at hx with hi
    obtain ⟨ha,hl,hb⟩ := h.stored a x hx
    refine ⟨ha,hl,?_⟩
    rw [byteAt,hsam s _ hs (div_lt_userPages ha) ?_ hl]
    · exact hb
    rintro ⟨-,hlo,hh⟩
    apply hi
    rw [Nat.le_div_iff_mul_le (by decide),hst] at hlo
    rw [Nat.div_lt_iff_lt_mul (by decide),hsto] at hh
    exact ⟨hlo,hh⟩
  exact h1.setProcs _

lemma reads {buf out : List UInt8} {ok : Bool} (hc : ClearTurns c s w (userTurns w (fun k _ _ => k) buf k va))
    (hr : readUserBytes w buf k va = (k',out,ok)) :
    SwapAt c hand s k' m ∧ (ok = true → ∀ i x, i < buf.length → m (va+i) = some x → out[i]? = some x) ∧
      (w = false → (∀ i, i < buf.length → (m (va+i)).isSome = true) → ok = true) := by
  have hcr := h.cr3
  subst hcr
  obtain ⟨ho,hcr,hsw,hk,hok⟩ := readUserBytes_spec buf h.owned h.slots hs hc hr
  have hst : ∀ a x, m a = some x → a < userAddressLimit ∧ ¬c.lent k.cr3 (a/pageSize) ∧ k'.byteAt k.cr3 a = some x := by
    intro a x hx
    obtain ⟨ha,hl,hb⟩ := h.stored a x hx
    exact ⟨ha,hl,hk.byteAt h.slots hs ha hl hb⟩
  refine ⟨⟨ho,(hk h.slots).1,hsw h.swapUser,hcr,hst⟩,fun htr i x hi hx => ?_,fun hw hb => ?_⟩
  · rw [hok htr i hi]
    exact (hst _ x hx).2.2
  · subst hw
    have hre := readUserBytes_resident h.owned buf hs hc fun i hi => by
      obtain ⟨x,hx⟩ := Option.isSome_iff_exists.1 (hb i hi)
      obtain ⟨ha,-,hby⟩ := h.stored _ x hx
      exact ⟨ha,by rw [hby]; rfl⟩
    rwa [hr] at hre

lemma copy {pointer : Nat} {call : UserCopy} (hsa : (SwapOp.copy pointer call).Safe c s k) :
    SwapAt c hand s (call.after pointer k) ((SwapOp.copy pointer call).record s k m) ∧
      (SwapOp.copy pointer call).Faithful s k m := by
  cases call with
  | toUser bytes =>
    have hc := h.cr3
    subst hc
    obtain ⟨ho,hc,hsw,hsl,hk,hw⟩ :=
      copyToUser_spec bytes h.owned h.slots hs hsa Prod.mk.eta.symm rfl
    refine ⟨⟨ho,hsl,hsw h.swapUser,hc,fun a x hx => ?_⟩,fun hst => by cases hst⟩
    change (if pointer ≤ a ∧ a < pointer+reached (userTurns true writePhysical bytes k pointer) then
      bytes[a-pointer]? else m a) = some x at hx
    split_ifs at hx with hin
    · obtain ⟨ha,hl,hby⟩ := hw (a-pointer) (by omega)
      rw [Nat.add_sub_cancel' hin.1] at ha hl hby
      exact ⟨ha,hl,hby ▸ hx⟩
    · obtain ⟨ha,hl,hby⟩ := h.stored a x hx
      exact ⟨ha,hl,hk a x ha hl (by omega) hby⟩
  | fromUser length w =>
    simp only [SwapOp.Safe,UserCopy.turns] at hsa
    simp only [SwapOp.record,SwapOp.Faithful,UserCopy.after,UserCopy.copied,copyFromUser]
    split_ifs at hsa ⊢ with hlo
    · exact ⟨h,fun _ => ⟨fun _ hb => (by cases hb),fun _ hle => absurd hle (by simpa [UserCopy.length] using hlo)⟩⟩
    rcases hr : readUserBytes w (List.replicate length 0) k pointer with ⟨k',q⟩
    obtain ⟨out,ok⟩ := q
    obtain ⟨h',hok,hre⟩ := h.reads hs hsa hr
    simp only [List.length_replicate] at hok hre
    cases ok with
    | false => exact ⟨h',fun _ => ⟨fun _ hb => (by cases hb),fun hw _ hm => absurd (hre hw hm) (by decide)⟩⟩
    | true =>
      refine ⟨h',fun _ => ⟨fun bytes hb i x hi hx => ?_,fun _ _ _ => rfl⟩⟩
      cases hb
      exact hok rfl i x hi hx
  | fromUserInto buf =>
    simp only [SwapOp.record,SwapOp.Faithful,UserCopy.after,UserCopy.copied,copyFromUserInto]
    obtain ⟨⟨k',out,ok⟩,hr⟩ : ∃ x, readUserBytes false buf k pointer = x := ⟨_,rfl⟩
    obtain ⟨h',hok,hre⟩ := h.reads hs hsa hr
    simp only [hr]
    cases ok with
    | false => exact ⟨h',fun _ => ⟨fun _ hb => (by cases hb),fun _ _ hm => absurd (hre rfl hm) (by decide)⟩⟩
    | true =>
      refine ⟨h',fun _ => ⟨fun bytes hb i x hi hx => ?_,fun _ _ _ => rfl⟩⟩
      cases hb
      exact hok rfl i x hi hx

lemma step (hsa : op.Safe c s k) : SwapAt c hand s (op.run s k) (op.record s k m) ∧ op.Faithful s k m := by
  cases op with
  | swapOut va => exact ⟨h.settles hs (pageOut_spec h.owned hs hsa.1 hsa.2),trivial⟩
  | access va kind value => exact ⟨(h.access hs hsa).1,h.access_faithful hs hsa⟩
  | copy pointer call => exact h.copy hs hsa
  | mprotect addr length prot => exact ⟨h.mprotect hs addr length prot,trivial⟩
  | munmap addr length => exact ⟨h.munmap hs hsa,trivial⟩

end

lemma run (pre : List SwapOp) (h : SwapAt c hand s k m) (hs : c.live s) (hsa : SafeRun c s (pre++[op]) k) :
    SwapAt c hand s (swapRun s pre (k,m)).1 (swapRun s pre (k,m)).2 ∧ op.Safe c s (swapRun s pre (k,m)).1 := by
  induction pre generalizing k m with
  | nil => exact ⟨h,hsa.1⟩
  | cons first rest ih => exact ih (h.step hs hsa.1).1 hsa.2

lemma exact (h : SwapAt c hand s k m) : SlotsExact c k := by
  intro slot hsl
  have hi := h.slots.used_iff slot
  constructor
  · intro hus
    rcases hi.1 ⟨hsl,hus⟩ with hh | ⟨⟨x,u⟩,hx,hu,hsw,he⟩
    · cases hh
    · exact ⟨x,u,hx,hu,hsw,he⟩
  · rintro ⟨x,u,hx,hu,hsw,he⟩
    exact (hi.2 (.inr ⟨(x,u),hx,hu,hsw,he⟩)).2

end SwapAt

/-- In a run of safe operations every load gives the last value stored, and the slots in use are those that
pages refer to. -/
theorem swap_transparent (h : Owned c k hand) (hslots : Slots c k none) (hswap : SwapUser c k) (hs : c.live s)
    (hcr3 : k.cr3 = s) (pre : List SwapOp) (op : SwapOp) (hsafe : SafeRun c s (pre++[op]) k) :
    op.Faithful s (swapRun s pre (k,fun _ => none)).1 (swapRun s pre (k,fun _ => none)).2 ∧
      SlotsExact c (swapRun s pre (k,fun _ => none)).1 ∧
      SlotsExact c (op.run s (swapRun s pre (k,fun _ => none)).1) := by
  have hst : SwapAt c hand s k (fun _ => none) := ⟨h,hslots,hswap,hcr3,nofun⟩
  obtain ⟨hb,ho⟩ := hst.run pre hs hsafe
  obtain ⟨ha,hf⟩ := hb.step hs ho
  exact ⟨hf,hb.exact,ha.exact⟩

/-- The frames that pages map are allocated, and no page table lies in one of them. -/
def Kernel.TablesHidden (c : Scope) (k : Kernel) : Prop := ∀ s v, c.live s → v < userPages → ¬c.lent s v →
  hasFlag (k.leaf s v) flagPresent = true → k.frames.isAllocated (frameOf (k.leaf s v)) = true ∧
    ∀ s' path, c.live s' → UserPath path → descend k.tables nextTable s' path ≠ some (frameOf (k.leaf s v))

lemma Owned.tablesHidden (h : Owned c k hand) : k.TablesHidden c := by
  intro s v hs hv hl hp
  have hpage : Holds c k (.page s v) (frameOf (k.leaf s v)) := ⟨hs,hv,hl,hp,rfl⟩
  obtain ⟨area,L,-,hi⟩ := h.buddy
  refine ⟨(hi.live _ (h.counted.pos hpage)).1,fun s' path hs' hpa hd => ?_⟩
  -- the table is the one user of its frame
  have htable : Holds c k (.table s' path) (frameOf (k.leaf s v)) := ⟨hs',hpa,hd⟩
  cases h.counted.unique (h.single _ _ _ htable).le hpage htable

/-- No swapping, fault, kernel copy, `mprotect` or `munmap` lets a user page reach a page table or a free frame. -/
theorem page_tables_unreachable (h : Owned c k hand) (hslots : Slots c k none) (hswap : SwapUser c k) (hs : c.live s)
    (hcr3 : k.cr3 = s) (pre : List SwapOp) (op : SwapOp) (hsafe : SafeRun c s (pre++[op]) k) :
    (op.run s (swapRun s pre (k,fun _ => none)).1).TablesHidden c := by
  have hst : SwapAt c hand s k (fun _ => none) := ⟨h,hslots,hswap,hcr3,nofun⟩
  obtain ⟨hb,ho⟩ := hst.run pre hs hsafe
  exact (hb.step hs ho).1.owned.tablesHidden

end

lemma ClearTurns.of_byte {c : Scope} {s va : Nat} {byte : UInt8} {k : Kernel}
    (h : va < userAddressLimit → Clear c s va true k) : ClearTurns c s true ((UserCopy.toUser [byte]).turns va k) := by
  intro t ht hl
  obtain ⟨hb,ha⟩ := UserCopy.turns_byte ht
  rw [ha] at hl ⊢
  rw [hb]
  exact h hl

def emptyProgram : Kernel :=
  {heapKernel with
    cr3 := 1
    procs := update (fun _ => none) 1 (some ⟨0x401000,0x401000,0x700000000000,[],
      planVmas [⟨0x400000,true,false⟩] (.new userStackTop (userStackTop-16*1024*1024)),true⟩)}

def loadedKernel : Kernel := (emptyProgram.loadPage 1 0x400000 (pteFlags true false)).1

lemma loadedKernel_owned : Owned (Scope.empty.add 1) loadedKernel [] ∧ Slots (Scope.empty.add 1) loadedKernel none ∧
    SwapUser (Scope.empty.add 1) loadedKernel ∧ loadedKernel.cr3 = 1 := by
  obtain ⟨ho,hsl,hl,htr⟩ := heapKernel_empty
  have ho' : Owned (Scope.empty.add 1) emptyProgram [] := ho.congr rfl rfl (fun _ => rfl) ho.tracked
  have hs' : Slots (Scope.empty.add 1) emptyProgram none := hsl.congr rfl rfl
  have hz : ∀ v, v < userPages → emptyProgram.leaf 1 v = 0 := hl
  have hswa : SwapUser (Scope.empty.add 1) emptyProgram := by
    intro s v hs hv hsw
    rcases hs with rfl | hs
    · rw [hz v hv] at hsw
      exact absurd hsw (by decide)
    · exact hs.elim
  have hva : Vacant (Scope.empty.add 1) 1 (0x400000/pageSize) (0x400000/pageSize+1) emptyProgram := by
    intro v h1 h2
    rw [hz v (lt_of_lt_of_le h2 (by decide))]
    exact ⟨by decide,by decide,htr 1 v,Scope.add_own⟩
  have hd : (emptyProgram.loadPage 1 0x400000 (pteFlags true false)).2 = true := by decide +kernel
  rw [loadedKernel]
  rcases hr : emptyProgram.loadPage 1 0x400000 (pteFlags true false) with ⟨k,r⟩
  have hg := loadPage_grows ho' (.inl rfl) (by decide) (by decide) hva hr
  rw [hr] at hd
  rw [if_pos hd] at hg
  refine ⟨hg.owned,(hg.content hs').1,?_,hg.around.cr3⟩
  refine hswa.around ho' hg.around (fun s v _ _ hi hsw => ?_)
  obtain ⟨rfl,hlo,hh⟩ := hi
  obtain ⟨f,he,-⟩ := hg.pages v hlo hh
  rw [he] at hsw
  exact absurd hsw (not_swapped_of_present (heapEntry_flags f).1)

/-- A byte that was swapped out is read back. -/
theorem swap_transparent_here : ((swapRun 1 [.copy 0x400000 (.toUser [5]),.swapOut 0x400000]
      (loadedKernel,fun _ => none)).1.access 1 0x400000 .read 0).2 = .done 5 := by
  obtain ⟨ho,hsl,hsw,hcr⟩ := loadedKernel_owned
  have hc : Clear (Scope.empty.add 1) 1 0x400000 true loadedKernel :=
    ⟨Scope.add_own,by decide +kernel,by decide +kernel⟩
  have hst : (SwapOp.copy 0x400000 (.toUser [5])).Safe (Scope.empty.add 1) 1 loadedKernel :=
    ClearTurns.of_byte (fun _ => hc)
  refine (swap_transparent ho hsl hsw (.inl rfl) hcr [.copy 0x400000 (.toUser [5]),
    .swapOut 0x400000] (.access 0x400000 .read 0) ⟨hst,⟨by decide,Scope.add_own⟩,
    ⟨by decide,Scope.add_own,?_,?_⟩,trivial⟩).1 5 ?_
  · decide +kernel
  · decide +kernel
  · decide +kernel

theorem page_tables_unreachable_here : ((SwapOp.access 0x400000 .write 5).run 1
    (swapRun 1 [.swapOut 0x400000] (loadedKernel,fun _ => none)).1).TablesHidden (Scope.empty.add 1) := by
  obtain ⟨ho,hsl,hsw,hcr⟩ := loadedKernel_owned
  refine page_tables_unreachable ho hsl hsw (.inl rfl) hcr [.swapOut 0x400000] (.access 0x400000 .write 5)
    ⟨⟨by decide,Scope.add_own⟩,⟨by decide,Scope.add_own,?_,?_⟩,trivial⟩
  · decide +kernel
  · decide +kernel

/-- A copy from a page that is swapped out gives zeros. -/
theorem copy_misses_swapped_page : (Kernel.copyToUser [5] loadedKernel 0x400000).2 = true ∧
    ((Kernel.copyToUser [5] loadedKernel 0x400000).1.pageOut 1 0x400000).2 = some 0 ∧
    (((Kernel.copyToUser [5] loadedKernel 0x400000).1.pageOut 1 0x400000).1.copyFromUser 0x400000 1 false).2 =
      some [0] := by
  decide +kernel

end Vanta.Mm
