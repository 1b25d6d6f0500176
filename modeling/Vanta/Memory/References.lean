import Vanta.Memory.BuddyFrames

namespace Vanta.Memory
open Library Function

inductive RefCall where
  | frameRefInc | frameRefDec | freeFrame

namespace BuddyAllocator
variable {b : BuddyAllocator} {L : Nat → List Nat} {area : Set Nat} {p k n : Nat}

def refCall (frame : Nat) (b : BuddyAllocator) : RefCall → BuddyAllocator
  | .frameRefInc => b.frameRefInc frame
  | .frameRefDec => (b.frameRefDec frame).1
  | .freeFrame => (b.free frame).1

def outstanding (n : Nat) : RefCall → Nat
  | .frameRefInc => n+1
  | .frameRefDec | .freeFrame => n-1

/-- The frame is shared only while it has a reference and the counter has room, and the last reference
is not dropped by `frame_ref_dec`. -/
def Clean (frame : Nat) (b : BuddyAllocator) : List RefCall → Prop
  | [] => True
  | call::calls =>
    (match call with
      | .frameRefInc => 0 < b.refcounts (frame/pageSize) ∧ b.refcounts (frame/pageSize) < 65535
      | .frameRefDec => b.refcounts (frame/pageSize) ≠ 1
      | .freeFrame => True) ∧ Clean frame (b.refCall frame call) calls

/-- The block of order `k` at `p` has `n` references, and is on the free lists again if it has none. -/
structure Counted (b : BuddyAllocator) (area : Set Nat) (L : Nat → List Nat) (p k n : Nat) : Prop where
  inv : Inv b area L [] 0
  count : b.refcounts p = n
  order : 0 < n → b.order p = k
  listed : n = 0 → ∀ f, InBlock p k f → Listed L f

section
variable (h : Counted b area L p k n)
include h

lemma Counted.listed_iff {f : Nat} (hf : InBlock p k f) : Listed L f ↔ n = 0 := by
  refine ⟨fun ⟨j,q,hq,hqf⟩ => ?_,fun hn => h.listed hn f hf⟩
  by_contra hn
  have hp : 0 < n := Nat.pos_of_ne_zero hn
  exact h.inv.sound.live_disjoint j q hq p (h.count ▸ hp) f hqf (h.order hp ▸ hf)

lemma Counted.recount {m : Nat} (hn : 0 < n) (hm : 0 < m) :
    Counted {b with refcounts := update b.refcounts p m} area L p k m :=
  ⟨h.inv.recount (h.count ▸ hn) hm,by simp,fun _ => h.order hn,fun h0 => by omega⟩

lemma refCall_counted (hz : 0 ∉ area) {call : RefCall}
    {calls : List RefCall} (hc : Clean (p*pageSize) b (call::calls)) :
    ∃ L', Counted (b.refCall (p*pageSize) call) area L' p k (outstanding n call) := by
  have hd : p*pageSize/pageSize = p := Nat.mul_div_cancel _ (by decide)
  have hs : n = 0 → update b.refcounts p (n-1) = b.refcounts := by
    rintro rfl
    rw [Nat.zero_sub,← h.count,update_eq_self]
  cases call with
  | frameRefInc =>
    obtain ⟨⟨hp,hr⟩,-⟩ := hc
    rw [hd,h.count] at hp hr
    have hm := h.inv.lt_of_blocks (.inl (.inr ⟨h.count ▸ hp,rfl⟩))
    refine ⟨L,?_⟩
    rw [refCall,frameRefInc,hd,refInc,if_pos hm,h.count,min_eq_left (by omega)]
    exact h.recount hp (Nat.succ_pos n)
  | frameRefDec =>
    have ho : n ≠ 1 := by
      have := hc.1
      rwa [hd,h.count] at this
    refine ⟨L,?_⟩
    rw [refCall,frameRefDec,hd,refDec]
    split
    · rcases Nat.eq_zero_or_pos n with rfl | hp
      · simp only [h.count,hs]
        exact h
      · simp only [h.count]
        exact h.recount hp (by omega)
    · next hm =>
      have hn : n = 0 := by
        by_contra hn
        exact hm (h.inv.lt_of_blocks (.inl (.inr ⟨h.count ▸ Nat.pos_of_ne_zero hn,rfl⟩)))
      subst hn
      exact h
  | freeFrame =>
    rcases Nat.eq_zero_or_pos n with rfl | hp
    · rcases free_spec h.inv (p*pageSize) with hfa | ⟨c,L',-,-,-,hco,-⟩
      · exact ⟨L,by rw [refCall,hfa]; exact h⟩
      · rw [hd,h.count] at hco
        omega
    obtain ⟨c,L',hfre,hi,hfr,-⟩ := free_frame_spec h.inv hz (h.count ▸ hp)
    rw [refCall,hfre]
    have hco : c.refcounts p = n-1 := by simp [hfr.counts,h.count]
    refine ⟨L',hi,hco,fun hn => ?_,fun hn f hf => (hfr.frames f).2 (.inr ⟨?_,?_⟩)⟩
    · rw [order_congr (hfr.owned p (hco ▸ hn)),h.order hp]
    · rw [h.count]
      simp only [outstanding] at hn
      omega
    · rwa [h.order hp]

lemma refRun_counted (hz : 0 ∉ area) {calls : List RefCall} (hc : Clean (p*pageSize) b calls) :
    ∃ L', Counted (calls.foldl (refCall (p*pageSize)) b) area L' p k (calls.foldl outstanding n) := by
  induction calls generalizing b L n with
  | nil => exact ⟨L,h⟩
  | cons call calls ih =>
    obtain ⟨L',hL'⟩ := refCall_counted h hz hc
    exact ih hL' hc.2

end

/-- After any clean calls on an allocated block, its frames are on the free lists exactly if no
reference to it is left. -/
theorem listed_iff_no_reference (rawMaxPfn : Nat) (ops : List Op)
    (hd : ops.Pairwise (fun x y => Disjoint x.bytes y.bytes))
    (ha : (empty rawMaxPfn).Admissible ops) (order : Nat) {c : BuddyAllocator}
    (halloc : ((empty rawMaxPfn).run ops).allocOrder order = (c,some p)) (calls : List RefCall)
    (hc : Clean (p*pageSize) c calls) : ∃ L, Sound (calls.foldl (refCall (p*pageSize)) c) L ∧
      ∀ f, InBlock p order f → (Listed L f ↔ calls.foldl outstanding 1 = 0) := by
  obtain ⟨area,L,h,hz⟩ := run_inv (empty_inv rawMaxPfn) (by simp) (by simp) hd ha
  rcases allocOrder_spec h order with hn | ⟨c',p',L',hs,hi,-,-,hco,ho,-⟩
  · simp [hn] at halloc
  cases hs.symm.trans halloc
  obtain ⟨L'',hL''⟩ := refRun_counted (n := 1) ⟨hi,by simp [hco],fun _ => ho,by omega⟩ hz hc
  exact ⟨L'',hL''.inv.sound,fun f hf => hL''.listed_iff hf⟩

theorem listed_iff_no_reference_at_shared :
    ∃ L, Sound ([.frameRefInc,.frameRefDec,.freeFrame,.freeFrame].foldl (refCall (1*pageSize))
      (((empty 64).run [.addRange 4096 4096]).allocOrder 0).1) L ∧ ∀ f, InBlock 1 0 f → (Listed L f ↔
        [RefCall.frameRefInc,.frameRefDec,.freeFrame,.freeFrame].foldl outstanding 1 = 0) :=
  listed_iff_no_reference 64 [.addRange 4096 4096] (by simp) (by decide +kernel) 0 (by rfl) _
    ⟨by decide +kernel,by decide +kernel,trivial,trivial,trivial⟩

/-- A last reference dropped by `frame_ref_dec`: the frame is on no list and cannot be freed. -/
theorem last_reference_leaks :
    let c := (((empty 64).run [.addRange 4096 4096]).alloc.1.frameRefDec 4096).1
    ((empty 64).run [.addRange 4096 4096]).alloc.2 = some 4096 ∧
      [RefCall.frameRefDec].foldl outstanding 1 = 0 ∧ (∀ L, Sound c L → ¬Listed L 1) ∧
      (c.free 4096).2 = false := by
  refine ⟨by decide +kernel,rfl,?_,by decide +kernel⟩
  rintro L hs ⟨k,q,hq,hl,-⟩
  have hc := List.count_eq_one_of_mem (hs.acyclic k) hq
  have hf := ((hs.flagged q (lt_of_le_of_lt hl (by decide +kernel)) k).2 hc).1
  rcases Nat.le_one_iff_eq_zero_or_eq_one.1 hl with rfl | rfl <;> revert hf <;> decide +kernel

/-- Allocations, and frees of anything but the frame at `addr`. -/
def Op.Elsewhere (addr : Nat) : Op → Prop
  | .allocOrder _ => True
  | .free frame => frame ≠ addr
  | _ => False

lemma run_owned {addr : Nat} {calls : List Op} (h : Inv b area L [] 0) (hm : addr%pageSize = 0)
    (hp : 0 < b.refcounts (addr/pageSize)) (hca : ∀ op ∈ calls, op.Elsewhere addr) :
    ∃ L', Inv (b.run calls) area L' [] 0 ∧ 0 < (b.run calls).refcounts (addr/pageSize) := by
  induction calls generalizing b L with
  | nil => exact ⟨L,h,hp⟩
  | cons op calls ih =>
    have hr : ∀ op ∈ calls, op.Elsewhere addr := fun op ho => hca op (by simp [ho])
    have ho := hca op (by simp)
    cases op with
    | allocOrder order =>
      rcases allocOrder_spec h order with he | ⟨c,p,L',he,hc,-,hz,hco,-⟩
      · exact ih (by simpa [step,he] using h) (by simpa [step,he] using hp) hr
      refine ih (by simpa [step,he] using hc) ?_ hr
      have hn : addr/pageSize ≠ p := by
        rintro rfl
        omega
      simpa [step,he,hco,hn] using hp
    | free frame =>
      rcases free_spec h frame with he | ⟨c,L',he,hc,hfm,-,hf⟩
      · exact ih (by simpa [step,he] using h) (by simpa [step,he] using hp) hr
      refine ih (by simpa [step,he] using hc) ?_ hr
      have hn : addr/pageSize ≠ frame/pageSize := fun heq => ho (by
        rw [← Nat.div_add_mod frame pageSize,← Nat.div_add_mod addr pageSize,heq,hm,hfm])
      simpa [step,he,hf.counts,hn] using hp
    | addRange _ _ | reserve _ | refInc _ => exact absurd ho (by simp [Op.Elsewhere])

/-- A frame reserved out of a free block is never handed out again, and the other frames of the block
stay on the free lists. -/
theorem reserved_frame_kept (rawMaxPfn : Nat) (ops : List Op) (hd : ops.Pairwise (fun x y => Disjoint x.bytes y.bytes))
    (ha : (empty rawMaxPfn).Admissible ops) {b : BuddyAllocator} (hb : b = (empty rawMaxPfn).run ops)
    (addr pfn : Nat) (hpfn : pfn = addr/pageSize) (hres : (b.reserve addr).2 = true)
    (hclear : b.isAllocated pfn = false ∧ b.isReserved pfn = false) (hk : k < maxOrder)
    (hblock : b.isFree (pfn - pfn%2^k) = true ∧ b.order (pfn - pfn%2^k) = k) (calls : List Op)
    (hcalls : ∀ op ∈ calls, op.Elsewhere addr) : (∃ L, Sound (b.reserve addr).1 L ∧
      ∀ f, InBlock (pfn - pfn%2^k) k f → f ≠ pfn → Listed L f) ∧
      ∀ order c p, ((b.reserve addr).1.run calls).allocOrder order = (c,some p) → ¬InBlock p order pfn := by
  obtain ⟨area,L,h,-⟩ := run_inv (empty_inv rawMaxPfn) (by simp) (by simp) hd ha
  rw [← hb] at h
  subst hpfn
  unfold reserve at hres ⊢
  dsimp only at hres ⊢
  split_ifs at hres ⊢ with had hm hfl
  · simp [hclear] at hfl
  have hme : addr/pageSize - addr/pageSize%2^k ∈ L k := by
    have := h.threaded.listed _ (lt_of_le_of_lt (Nat.sub_le _ _) (Nat.not_le.1 hm)) hblock.1
    rwa [hblock.2] at this
  obtain ⟨L',hL',hke⟩ := reserveIn_inv h _ (Nat.not_le.1 hm) (List.range maxOrder)
  obtain ⟨hp,hl⟩ := hke k (by simpa using hk) hme
  refine ⟨⟨L',hL'.sound,fun f hf => hl f ⟨k,_,hme,hf⟩⟩,fun order c p hal hi => ?_⟩
  obtain ⟨L1,h1,hp1⟩ := run_owned hL' (not_not.1 (not_or.1 had).2) hp hcalls
  rcases allocOrder_spec h1 order with he | ⟨c',p',L2,he,h2,-,hz,hc,ho,-⟩
  · simp [he] at hal
  cases he.symm.trans hal
  have hn : addr/pageSize ≠ p := by
    rintro rfl
    omega
  exact hn.symm (h2.tiling.disjoint p order _ _ _ (.inl (.inr ⟨by simp [hc],ho⟩))
    (.inl (.inr ⟨by simpa [hc,hn] using hp1,rfl⟩)) hi (inBlock_head _ _)).1

theorem reserved_frame_kept_at_split :
    let b := (empty 64).run [.addRange 8192 16384,.allocOrder 0]
    (∃ L, Sound (b.reserve 8192).1 L ∧ ∀ f, InBlock 2 1 f → f ≠ 2 → Listed L f) ∧
      ∀ order c p, ((b.reserve 8192).1.run [.free 16384]).allocOrder order = (c,some p) → ¬InBlock p order 2 :=
  reserved_frame_kept (k := 1) 64 [.addRange 8192 16384,.allocOrder 0]
    (by simp [Op.bytes]) (by decide +kernel) rfl 8192 2 (by decide) (by decide +kernel) (by decide +kernel)
    (by decide) (by decide +kernel) [.free 16384] (by simp [Op.Elsewhere])

/-- A frame reserved while it is allocated: its owner frees it and it is handed out again. -/
theorem reserved_frame_handed_out :
    let b := (empty 64).run [.addRange 4096 4096,.allocOrder 0]
    (b.reserve 4096).2 = true ∧ (((b.reserve 4096).1.run [.free 4096]).allocOrder 0).2 = some 1 := by
  decide +kernel

end BuddyAllocator
end Vanta.Memory
