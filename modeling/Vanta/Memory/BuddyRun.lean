import Mathlib.Order.Interval.Set.Disjoint
import Mathlib.Order.CompletePartialOrder
import Vanta.Memory.Blocks

namespace Vanta.Memory
open Library Function

lemma fitOrder_le (start stop n : Nat) : fitOrder start stop n ≤ n := by
  induction n with
  | zero => simp [fitOrder]
  | succ n ih =>
    rw [fitOrder]
    split
    · exact le_refl _
    · omega

variable {start stop : Nat}

lemma fitOrder_fits (h : start < stop) (n : Nat) :
    start+2^fitOrder start stop n ≤ stop ∧ 2^fitOrder start stop n ∣ start := by
  induction n with
  | zero => exact ⟨by simpa [fitOrder] using Nat.succ_le_of_lt h,by simp [fitOrder]⟩
  | succ n ih =>
    rw [fitOrder]
    split
    · next hf => exact ⟨hf.1,Nat.dvd_of_mod_eq_zero hf.2⟩
    · exact ih

lemma fitOrder_largest {start stop n : Nat} (h : fitOrder start stop n < n) :
    ¬(2^(fitOrder start stop n+1) ∣ start ∧ start+2^(fitOrder start stop n+1) ≤ stop) := by
  induction n with
  | zero => omega
  | succ n ih =>
    rw [fitOrder] at h ⊢
    split at h
    · omega
    next hf =>
    rw [if_neg hf]
    rcases lt_or_eq_of_le (fitOrder_le start stop n) with hl | he
    · exact ih hl
    · rw [he]
      exact fun hc => hf ⟨hc.2,Nat.mod_eq_zero_of_dvd hc.1⟩

namespace BuddyAllocator
variable {b : BuddyAllocator} {L : Nat → List Nat} {area : Set Nat} {extra k p : Nat}

lemma addBlocks_done (h : Inv b area L [] (stop-start)) (hl : stop ≤ start) :
    Inv b (area ∪ Set.Ico start stop) L [] 0 := by
  rw [Set.Ico_eq_empty (by omega),Set.union_empty]
  exact (show stop-start = 0 by omega) ▸ h

variable {fuel : Nat}

lemma addBlocks_inv (h : Inv b area L [] (stop-start))
    (hfu : stop-start ≤ fuel) (hm : stop ≤ b.maxPfn) (hn : ∀ f ∈ Set.Ico start stop, f ∉ area) :
    ∃ L', Inv (b.addBlocks stop fuel start) (area ∪ Set.Ico start stop) L' [] 0 ∧
      (Canon L → stop ∉ area → (∀ j, ∀ q ∈ L j, q+2^j = start → j+1 < maxOrder →
        ¬(2^(j+1) ∣ q ∧ q+2^(j+1) ≤ stop)) → Canon L') := by
  induction fuel generalizing b area L start with
  | zero => exact ⟨L,addBlocks_done h (by omega),fun hc _ _ => hc⟩
  | succ fuel ih =>
    rw [addBlocks]
    split
    · next hlt =>
      obtain ⟨hfi,hd⟩ := fitOrder_fits hlt (maxOrder-1)
      have hk : fitOrder start stop (maxOrder-1) < maxOrder := lt_of_le_of_lt (fitOrder_le _ _ _) (by decide)
      have hl := @fitOrder_largest start stop (maxOrder-1)
      generalize fitOrder start stop (maxOrder-1) = k at hfi hd hk hl
      have hi : Inv b (area ∪ Set.Ico start (start+2^k)) L [(start,k)] (stop-(start+2^k)+2^k) := by
        rw [show stop-(start+2^k)+2^k = stop-start by omega]
        refine h.add hk hd (fun f hf => hn f ⟨hf.1,lt_of_lt_of_le hf.2 hfi⟩)
          Set.subset_union_left (fun f hf => .inr hf) ?_
        rintro f (hf | ⟨-,hf⟩)
        · exact h.tracked f hf
        · omega
      have hr : ∀ f ∈ Set.Ico (start+2^k) stop, f ∉ area ∪ Set.Ico start (start+2^k) := by
        rintro f ⟨hf,hfs⟩ (ha | ⟨-,ha⟩)
        · exact hn f ⟨by omega,hfs⟩ ha
        · omega
      have hco := Set.Ico_union_Ico_eq_Ico (Nat.le_add_right start (2^k)) hfi
      rw [← hco,← Set.union_assoc]
      obtain ⟨L',hL',hca⟩ := ih (hi.push (by simp)) (by omega) (by simpa using hm) hr
      have hli : ∀ j, ∀ q ∈ L j, ∀ f, InBlock q j f → f ∈ area :=
        fun j q hq f hf => h.tiling.inside q j (.inl (.inl hq)) f hf
      refine ⟨L',hL',fun hc hs he => hca (hc.push (fun hk' hb => ?_)) ?_ ?_⟩
      · rcases xor_two_pow_of_dvd hd with ⟨-,hx⟩ | ⟨hlo,hx⟩
        · rw [hx] at hb
          have har := hli k _ hb _ (inBlock_head _ k)
          rcases Nat.lt_or_ge (start+2^k) stop with hlt | hg
          · exact hn _ ⟨by omega,hlt⟩ har
          · exact hs ((show start+2^k = stop by omega) ▸ har)
        · exact he k _ hb hx.symm hk' ⟨hlo,by rw [Nat.pow_succ]; omega⟩
      · rintro (ha | ⟨-,ha⟩)
        · exact hs ha
        · omega
      intro j q hq hen hj
      rcases (mem_push L start k q j).1 hq with ⟨rfl,rfl⟩ | hq
      · exact hl (by omega)
      · exact absurd (hli j q hq (start+2^k-1) ⟨by have := Nat.two_pow_pos j; omega,by omega⟩)
          (hn _ ⟨by omega,by omega⟩)
    · exact ⟨L,addBlocks_done h (by omega),fun hc _ _ => hc⟩

lemma splitDown_inv {order n : Nat} (h : Inv b area L [(p,order+n)] (extra+2^(order+n))) :
    ∃ L', Inv (b.splitDown p order n) area L' [(p,order)] (extra+2^order) ∧
      Moves b (b.splitDown p order n) L L' (InBlock p (order+n)) (InBlock p order) := by
  induction n generalizing b L with
  | zero => exact ⟨L,h,rfl,fun _ _ => rfl,fun _ => Iff.rfl,id⟩
  | succ n ih =>
    have hpo : 2^(order+(n+1)) = 2^(order+n)+2^(order+n) := by
      rw [← Nat.add_assoc,Nat.pow_succ]
      omega
    have hh : Inv b area L [(p+2^(order+n),order+n),(p,order+n)]
        (extra+2^(order+n)+2^(order+n)) := by
      rw [Nat.add_assoc extra,← hpo]
      exact Inv.reorder (Inv.split h) (fun x => by simp [or_comm])
    have hd : 2^(order+n+1) ∣ p := h.tiling.aligned p _ (.inr (by simp [Nat.add_assoc]))
    obtain ⟨L',hL',hmo⟩ := ih (hh.push (fun j hj => by
      simp only [List.mem_singleton,Prod.mk.injEq] at hj
      omega))
    have hp := (hh.push_moves (fun _ => by
      rw [xor_upper hd]
      exact fun hm => h.notBlocks_of_hand List.mem_cons_self (.inl hm)) (InBlock p (order+n))).trans hmo
    refine ⟨L',hL',{hp with frames := fun f => ?_}⟩
    rw [← hp.frames,← Nat.add_assoc,inBlock_split,or_comm (a := InBlock p (order+n) f)]

lemma push_last (h : Inv b area L [(p,k)] (extra+2^k)) (hb : k+1 < maxOrder → p ^^^ 2^k ∉ L k) :
    ∃ L', Inv (b.listPush k p) area L' [] extra ∧ Moves b (b.listPush k p) L L' (InBlock p k) (fun _ => False) :=
  ⟨_,h.push (by simp),{h.push_moves hb (fun _ => False) with
    frames := fun f => by rw [listed_push,or_false]}⟩

/-- The loop ends where the other half is on no list, so the lists stay canonical. -/
lemma mergeUp_inv (h : Inv b area L [(p,k)] (extra+2^k)) (hfu : maxOrder-1-k ≤ fuel) :
    ∃ L', Inv (b.mergeUp fuel p k) area L' [] extra ∧
      Moves b (b.mergeUp fuel p k) L L' (InBlock p k) (fun _ => False) := by
  induction fuel generalizing b L p k with
  | zero => exact push_last h (fun hk => by omega)
  | succ fuel ih =>
    rw [mergeUp]
    dsimp only
    split_ifs with hk hma hf
    · exact push_last h (fun _ hm => absurd (h.threaded.bound k _ hm) (by omega))
    · have hmem : p ^^^ 2^k ∈ L k := by
        have := h.threaded.listed _ (Nat.not_le.1 hma) hf.1
        rwa [hf.2] at this
      have hd : 2^k ∣ p := h.tiling.aligned p k (.inr (by simp))
      have hre := h.remove hmem
      have he : extra+2^k+2^k = extra+2^(k+1) := by
        omega
      rw [he] at hre
      have hme : Inv (b.listRemove k (p ^^^ 2^k)) area
          (update L k ((L k).erase (p ^^^ 2^k))) [(min p (p ^^^ 2^k),k+1)]
          (extra+2^(k+1)) ∧ ∀ f, InBlock (p ^^^ 2^k) k f ∨ InBlock p k f ↔ InBlock (min p (p ^^^ 2^k)) (k+1) f := by
        rcases xor_two_pow_of_dvd hd with ⟨hl,hx⟩ | ⟨hh,hx⟩
        · rw [hx] at hre ⊢
          rw [min_eq_left (by omega)]
          exact ⟨(hre.reorder (fun x => by simp [or_comm])).merge (by omega) hl,
            fun f => or_comm.trans (inBlock_split p k f).symm⟩
        · generalize p ^^^ 2^k = q at hre hh hx
          subst hx
          rw [min_eq_right (by omega)]
          exact ⟨hre.merge (by omega) hh,fun f => (inBlock_split q k f).symm⟩
      obtain ⟨L',hL',hmo⟩ := ih hme.1 (by omega)
      have hr := h.remove_moves hmem (InBlock p k)
      rw [funext (fun f => propext (hme.2 f))] at hr
      exact ⟨L',hL',hr.trans hmo⟩
    · exact push_last h (fun _ hm => hf (h.threaded.flag k _ hm))
    · exact push_last h (fun hk' => absurd hk' (by omega))

lemma splitTo_inv {pfn n head : Nat} (h : Inv b area L [(head,n)] (extra+2^n)) (hi : InBlock head n pfn) :
    ∃ L', Inv (b.splitTo pfn n head) area L' [(pfn,0)] (extra+1) ∧
      ∀ f, Listed L f ∨ InBlock head n f ↔ Listed L' f ∨ InBlock pfn 0 f := by
  induction n generalizing b L head with
  | zero =>
    have : head = pfn := by
      simp only [InBlock,Nat.pow_zero] at hi
      omega
    exact ⟨L,this ▸ h,fun f => by rw [this]⟩
  | succ n ih =>
    rw [splitTo]
    have he : extra+2^(n+1) = extra+2^n+2^n := by
      omega
    rw [he] at h
    have hh := (inBlock_split head n pfn).1 hi
    simp only [InBlock] at hh
    simp only [inBlock_split head n]
    split_ifs with hl
    · have hha : Inv b area L [(head+2^n,n),(head,n)] (extra+2^n+2^n) := h.split.reorder (fun x => by simp [or_comm])
      obtain ⟨L',hL',hf⟩ := ih (hha.push (fun j hj => by
        simp only [List.mem_singleton,Prod.mk.injEq] at hj
        omega)) ⟨by omega,by omega⟩
      exact ⟨L',hL',fun f => by rw [← hf,listed_push]; tauto⟩
    · obtain ⟨L',hL',hf⟩ := ih (h.split.push (fun j hj => by
        simp only [List.mem_singleton,Prod.mk.injEq] at hj
        omega)) ⟨by omega,by omega⟩
      exact ⟨L',hL',fun f => by rw [← hf,listed_push]; tauto⟩

lemma firstOrder_spec (fuel cur : Nat) (hf : maxOrder-cur ≤ fuel) : cur ≤ b.firstOrder fuel cur ∧
      (b.firstOrder fuel cur < maxOrder → b.freeLists (b.firstOrder fuel cur) ≠ none) ∧
      (∀ j, cur ≤ j → j < b.firstOrder fuel cur → b.freeLists j = none) := by
  induction fuel generalizing cur with
  | zero => exact ⟨le_refl _,fun h => by rw [firstOrder] at h; omega,fun j h h' => by
      rw [firstOrder] at h'; omega⟩
  | succ fuel ih =>
    rw [firstOrder]
    split
    · next hc =>
      obtain ⟨hle,hs,hn⟩ := ih (cur+1) (by omega)
      refine ⟨by omega,hs,fun j hj hl => ?_⟩
      by_cases he : j = cur
      · subst he
        simpa using hc.2
      · exact hn j (by omega) hl
    · next hc =>
      refine ⟨le_refl _,fun hl => ?_,fun j hj hl => by omega⟩
      simpa [hl] using hc

/-- `alloc_order` either changes nothing, or hands out the head of a block that had no owner and gives
it one reference. -/
lemma allocOrder_spec (h : Inv b area L [] 0) (order : Nat) : (b.allocOrder order = (b,none)) ∨
      ∃ c p L', b.allocOrder order = (c,some p) ∧ Inv c area L' [] 0 ∧ order < maxOrder ∧
        b.refcounts p = 0 ∧ c.refcounts = update b.refcounts p 1 ∧ c.order p = order ∧
        (∀ q, 0 < b.refcounts q → c.flags q = b.flags q) ∧
        (∀ f, Listed L f ↔ Listed L' f ∨ InBlock p order f) ∧ (Canon L → Canon L') := by
  unfold allocOrder
  by_cases ho : order ≥ maxOrder
  · simp [ho]
  rw [if_neg ho]
  obtain ⟨hl,hso,-⟩ := firstOrder_spec (b := b) (maxOrder-order) order (le_refl _)
  generalize b.firstOrder (maxOrder-order) order = cur at hl hso
  by_cases hc : cur ≥ maxOrder
  · simp [hc]
  right
  rw [if_neg hc]
  cases hh : b.freeLists cur with
  | none => exact absurd hh (hso (by omega))
  | some pfn =>
    have hme : pfn ∈ L cur := by
      rw [h.threaded.head] at hh
      exact List.mem_of_mem_head? hh
    have hz := h.unowned cur pfn hme
    have hha := h.remove hme
    have hr := h.remove_moves hme (fun _ => False)
    simp only [or_false] at hr
    rw [show cur = order+(cur-order) by omega] at hha
    obtain ⟨L',hL',hs⟩ := splitDown_inv hha
    have ho' : order < maxOrder := Nat.not_le.1 ho
    have hf := order_bits order ho' flagAllocated (by simp)
    have ha : ∀ x : BitVec 8, (x ||| flagAllocated) &&& flagAllocated ≠ 0 := by decide
    have hfr : ∀ x : BitVec 8, ((x &&& orderMask) ||| flagAllocated) &&& flagFree = 0 := by decide
    rw [← show cur = order+(cur-order) by omega] at hL' hs
    have hm := hr.trans hs
    simp only [listPop,hh]
    refine ⟨_,pfn,L',rfl,hL'.take (ha _) (hfr _) hf,ho',hz,?_,?_,?_,?_,hm.canon⟩
    · simp [hm.counts]
    · simpa [BuddyAllocator.order] using hf
    · intro q hq
      have hn : q ≠ pfn := by
        rintro rfl
        omega
      simpa [hn] using hm.owned q hq
    · simpa using hm.frames

/-- What a successful free of the block at `p` does; the last one lists its frames again. -/
structure Freed (b c : BuddyAllocator) (L L' : Nat → List Nat) (p : Nat) : Prop where
  counts : c.refcounts = update b.refcounts p (b.refcounts p - 1)
  owned : ∀ q, 0 < c.refcounts q → c.flags q = b.flags q
  frames : ∀ f, Listed L' f ↔ Listed L f ∨ (b.refcounts p = 1 ∧ InBlock p (b.order p) f)
  canon : Canon L → Canon L'

section
variable (h : Inv b area L [] 0)
include h

lemma free_spec (addr : Nat) : (b.free addr = (b,false)) ∨
      ∃ c L', b.free addr = (c,true) ∧ Inv c area L' [] 0 ∧ addr%pageSize = 0 ∧ 0 < b.refcounts (addr/pageSize) ∧
        Freed b c L L' (addr/pageSize) := by
  unfold free
  by_cases ha : addr = 0 ∨ addr%pageSize ≠ 0
  · simp [ha]
  dsimp only
  generalize hp : addr/pageSize = p
  have hmo : addr%pageSize = 0 := by
    by_contra hn
    exact ha (.inr hn)
  split_ifs with hmax hma ho
  · exact .inl rfl
  · exact .inr ⟨_,L,rfl,h.recount (by omega) (by omega),hmo,by omega,rfl,fun _ _ => rfl,
      fun f => by simp [show b.refcounts p ≠ 1 by omega],id⟩
  · right
    obtain ⟨L',hL',hm⟩ := mergeUp_inv (h.release (p := p) (by omega)) (le_refl _)
    refine ⟨_,L',rfl,hL',hmo,by omega,hm.counts.trans (by simp [ho]),fun q hq => ?_,fun f => ?_,hm.canon⟩
    · have hpo : 0 < update b.refcounts p 0 q := lt_of_lt_of_eq hq (congrFun hm.counts q)
      have hn : q ≠ p := by
        rintro rfl
        simp at hpo
      exact (hm.owned q hpo).trans (by simp [hn])
    · simpa [ho] using (hm.frames f).symm
  · exact .inl rfl

lemma reserveIn_inv (pfn : Nat) (hma : pfn < b.maxPfn) (orders : List Nat) :
    ∃ L', Inv (b.reserveIn pfn orders) area L' [] 0 ∧
      ∀ k ∈ orders, pfn - pfn%2^k ∈ L k → 0 < (b.reserveIn pfn orders).refcounts pfn ∧
        ∀ f, Listed L f → f ≠ pfn → Listed L' f := by
  induction orders with
  | nil => exact ⟨L,h.mark,by simp⟩
  | cons order orders ih =>
    rw [reserveIn]
    split_ifs with hfre
    · have hm : pfn - pfn%2^order ∈ L order := by
        have := h.threaded.listed _ (by omega) hfre.1
        rwa [hfre.2] at this
      have hi : InBlock (pfn - pfn%2^order) order pfn := by
        have := Nat.mod_lt pfn (Nat.two_pow_pos order)
        have := Nat.mod_le pfn (2^order)
        simp only [InBlock]
        omega
      obtain ⟨L',hL',hfr⟩ := splitTo_inv (h.remove hm) hi
      refine ⟨L',hL'.take (k := 0) (by decide) (by decide) (by decide),fun _ _ _ => ⟨by simp,
        fun f hf hn => ?_⟩⟩
      rcases (hfr f).1 ((h.threaded.listed_remove hm f).1 hf) with hf | ⟨hl,hlt⟩
      · exact hf
      · omega
    · obtain ⟨L',hL',hi⟩ := ih
      refine ⟨L',hL',fun k hk hm => ?_⟩
      rcases List.mem_cons.1 hk with rfl | hk
      · exact absurd (h.threaded.flag k _ hm) hfre
      · exact hi k hk hm

lemma reserve_inv (addr : Nat) : ∃ L', Inv (b.reserve addr).1 area L' [] 0 := by
  unfold reserve
  dsimp only
  split_ifs with ha hm hf
  · exact ⟨L,h⟩
  · exact ⟨L,h⟩
  · exact ⟨L,h⟩
  · obtain ⟨L',hL',-⟩ := reserveIn_inv h _ (Nat.not_le.1 hm) (List.range maxOrder)
    exact ⟨L',hL'⟩

lemma refInc_inv (hp : 0 < b.refcounts p) : Inv (b.refInc p) area L [] 0 := by
  unfold refInc
  split
  · exact h.recount hp (by omega)
  · exact h

end

lemma frameRange_mem {base length f : Nat}
    (hf : f ∈ Set.Ico (b.frameRange base length).1 (b.frameRange base length).2) :
    base ≤ f*pageSize ∧ f*pageSize < base+length ∧ f < b.maxPfn ∧ 0 < f ∧ (f+1)*pageSize ≤ base+length := by
  unfold frameRange alignUp at hf
  have hp : 2^64%pageSize = 0 := by decide
  generalize 2^64 = top at hf hp
  by_cases he : base+length < top
  · rw [if_pos he] at hf
    dsimp only at hf
    split at hf
    · simp at hf
    next hl =>
    simp only [alignDown,pageSize,Set.mem_Ico] at hf hl hp ⊢
    omega
  · simp [he] at hf

lemma addRange_inv (h : Inv b area L [] 0) {base length : Nat}
    (hn : ∀ f ∈ Set.Ico (b.frameRange base length).1 (b.frameRange base length).2, f ∉ area) :
    ∃ L', Inv (b.addRange base length).1
      (area ∪ Set.Ico (b.frameRange base length).1 (b.frameRange base length).2) L' [] 0 ∧
      (Canon L → ((b.frameRange base length).1 < (b.frameRange base length).2 → ∀ f ∈ area,
        f+1 ≠ (b.frameRange base length).1 ∧ f ≠ (b.frameRange base length).2) → Canon L') := by
  have ht : ∀ f ∈ Set.Ico (b.frameRange base length).1 (b.frameRange base length).2,
      f < b.maxPfn := fun f hf => (frameRange_mem hf).2.2.1
  unfold addRange
  generalize b.frameRange base length = r at hn ht
  obtain ⟨start,stop⟩ := r
  dsimp only at hn ht ⊢
  split_ifs with hle
  · exact ⟨L,addBlocks_done (by rwa [show stop-start = 0 by omega]) hle,fun hc _ => hc⟩
  have hm : stop ≤ b.maxPfn := by
    have := ht (stop-1) ⟨by omega,by omega⟩
    omega
  have hg := h.grow (stop-start)
  rw [Nat.zero_add] at hg
  obtain ⟨L',hL',hca⟩ := addBlocks_inv hg (le_refl _) hm hn
  refine ⟨L',hL',fun hc hga => hca hc (fun ha => (hga (by omega) _ ha).2 rfl) ?_⟩
  intro j q hq he
  have hp := Nat.two_pow_pos j
  have hl := h.tiling.inside q j (.inl (.inl hq)) (q+2^j-1) ⟨by omega,by omega⟩
  exact absurd (show q+2^j-1+1 = start by omega) (hga (by omega) _ hl).1

inductive Op where
  | addRange (base length : Nat)
  | allocOrder (order : Nat)
  | reserve (addr : Nat)
  | free (addr : Nat)
  | refInc (pfn : Nat)

def step (b : BuddyAllocator) : Op → BuddyAllocator
  | .addRange base length => (b.addRange base length).1
  | .allocOrder order => (b.allocOrder order).1
  | .reserve addr => (b.reserve addr).1
  | .free addr => (b.free addr).1
  | .refInc pfn => b.refInc pfn

def run (b : BuddyAllocator) (ops : List Op) : BuddyAllocator := ops.foldl step b

def Op.bytes : Op → Set Nat
  | .addRange base length => Set.Ico base (base+length)
  | _ => ∅

/-- `ref_inc` is only applied to a frame with a positive reference count. -/
def Op.Allowed (b : BuddyAllocator) : Op → Prop
  | .refInc pfn => 0 < b.refcounts pfn
  | _ => True

def Admissible (b : BuddyAllocator) : List Op → Prop
  | [] => True
  | op::ops => op.Allowed b ∧ Admissible (b.step op) ops

instance (b : BuddyAllocator) (op : Op) : Decidable (op.Allowed b) :=
  match op with
  | .refInc pfn => inferInstanceAs (Decidable (0 < b.refcounts pfn))
  | .addRange _ _ | .allocOrder _ | .reserve _ | .free _ => inferInstanceAs (Decidable True)

instance decidableAdmissible (b : BuddyAllocator) : (ops : List Op) → Decidable (b.Admissible ops)
  | [] => inferInstanceAs (Decidable True)
  | op::ops =>
    have := decidableAdmissible (b.step op) ops
    inferInstanceAs (Decidable (op.Allowed b ∧ Admissible (b.step op) ops))

lemma step_inv (h : Inv b area L [] 0) {op : Op} (ho : op.Allowed b) (hn : ∀ f ∈ area, f*pageSize ∉ op.bytes) :
    ∃ area' L', Inv (b.step op) area' L' [] 0 ∧ ∀ f ∈ area', f ∈ area ∨ (f*pageSize ∈ op.bytes ∧ 0 < f) := by
  cases op with
  | addRange base length =>
    have hb : ∀ f ∈ Set.Ico (b.frameRange base length).1 (b.frameRange base length).2,
        f*pageSize ∈ Set.Ico base (base+length) :=
      fun f hf => ⟨(frameRange_mem hf).1,(frameRange_mem hf).2.1⟩
    obtain ⟨L',hL',-⟩ := addRange_inv h (fun f hf ha => hn f ha (hb f hf))
    refine ⟨_,L',hL',?_⟩
    rintro f (hf | hf)
    · exact .inl hf
    · exact .inr ⟨hb f hf,(frameRange_mem hf).2.2.2.1⟩
  | allocOrder order =>
    rcases allocOrder_spec h order with he | ⟨c,p,L',he,hc,-⟩
    · exact ⟨area,L,by simpa [step,he] using h,fun f hf => .inl hf⟩
    · exact ⟨area,L',by simpa [step,he] using hc,fun f hf => .inl hf⟩
  | reserve addr =>
    obtain ⟨L',hL'⟩ := reserve_inv h addr
    exact ⟨area,L',hL',fun f hf => .inl hf⟩
  | free addr =>
    rcases free_spec h addr with he | ⟨c,L',he,hc,-⟩
    · exact ⟨area,L,by simpa [step,he] using h,fun f hf => .inl hf⟩
    · exact ⟨area,L',by simpa [step,he] using hc,fun f hf => .inl hf⟩
  | refInc pfn => exact ⟨area,L,refInc_inv h ho,fun f hf => .inl hf⟩

lemma run_inv {ops : List Op} (h : Inv b area L [] 0) (hz : 0 ∉ area)
    (hn : ∀ f ∈ area, ∀ op ∈ ops, f*pageSize ∉ op.bytes)
    (hd : ops.Pairwise (fun x y => Disjoint x.bytes y.bytes)) (ha : b.Admissible ops) :
    ∃ area' L', Inv (b.run ops) area' L' [] 0 ∧ 0 ∉ area' := by
  induction ops generalizing b area L with
  | nil => exact ⟨area,L,h,hz⟩
  | cons op ops ih =>
    obtain ⟨hfi,hd⟩ := List.pairwise_cons.1 hd
    obtain ⟨area',L',hL',har⟩ := step_inv h ha.1 (fun f hf => hn f hf op (by simp))
    refine ih hL' (fun h0 => ?_) (fun f hf op' ho' => ?_) hd ha.2
    · rcases har 0 h0 with hf | ⟨-,hf⟩
      · exact hz hf
      · omega
    · rcases har f hf with hf | ⟨hf,-⟩
      · exact hn f hf op' (by simp [ho'])
      · exact Set.disjoint_left.1 (hfi op' ho') hf

lemma empty_inv (rawMaxPfn : Nat) : Inv (empty rawMaxPfn) ∅ (fun _ => []) [] 0 where
  threaded := by
    refine ⟨fun _ => trivial,fun _ => rfl,by simp,by simp,by simp,?_,by simp,by simp [empty]⟩
    intro p _ hp
    simp [empty,isFree] at hp
  tiling := by
    have hn : ∀ p k, ¬(empty rawMaxPfn).Blocks (fun _ => []) [] p k := by
      intro p k
      simp [Blocks,Live,empty]
    exact ⟨fun p k h => absurd h (hn p k),fun p k h => absurd h (hn p k),
      fun p k q j f h => absurd h (hn p k)⟩
  tracked := by simp
  live := by simp [empty]
  unowned := by simp
  held := by simp
  count := by simp [empty,listedFrames]

/-- The free lists `L` of an allocator as the rest of the kernel relies on them. -/
structure Sound (b : BuddyAllocator) (L : Nat → List Nat) : Prop where
  /-- Each list is doubly linked from its head and ends, so it has no cycle. -/
  head : ∀ k, b.freeLists k = (L k).head?
  linked : ∀ k, Linked b.nextFree b.prevFree none32 none32 (L k)
  acyclic : ∀ k, (L k).Nodup
  /-- The free flag with order `k` marks exactly the heads of the blocks on list `k`. -/
  flagged : ∀ p < b.maxPfn, ∀ k, (b.isFree p = true ∧ b.order p = k) ↔ (L k).count p = 1
  orders : ∀ k, L k ≠ [] → k < maxOrder
  aligned : ∀ k, ∀ p ∈ L k, 2^k ∣ p
  tracked : ∀ k, ∀ p ∈ L k, p+2^k ≤ b.maxPfn
  free_disjoint : ∀ k j, ∀ p ∈ L k, ∀ q ∈ L j, (p,k) ≠ (q,j) → ∀ f, InBlock p k f → ¬InBlock q j f
  live_disjoint : ∀ k, ∀ p ∈ L k, ∀ q, 0 < b.refcounts q → ∀ f, InBlock p k f → ¬InBlock q (b.order q) f
  counted : b.freeFrames = ∑ k ∈ Finset.range maxOrder, (L k).length*2^k

lemma Inv.sound (h : Inv b area L [] 0) : Sound b L where
  head := h.threaded.head
  linked := h.threaded.linked
  acyclic := h.threaded.nodup
  flagged p hp k := by
    have hco : (L k).count p = 1 ↔ p ∈ L k :=
      ⟨fun hc => List.count_pos_iff.1 (by omega),List.count_eq_one_of_mem (h.threaded.nodup k)⟩
    rw [hco]
    exact ⟨fun hf => hf.2 ▸ h.threaded.listed p hp hf.1,h.threaded.flag k p⟩
  orders k hk := by
    obtain ⟨p,hp⟩ := List.exists_mem_of_ne_nil _ hk
    exact h.threaded.order_lt hp
  aligned k p hp := h.tiling.aligned p k (.inl (.inl hp))
  tracked k p hp := by
    have hpo := Nat.two_pow_pos k
    have := h.tracked _ (h.tiling.inside p k (.inl (.inl hp)) (p+2^k-1)
      ⟨by omega,by omega⟩)
    omega
  free_disjoint k j p hp q hq hn f hf hf' := by
    obtain ⟨rfl,rfl⟩ := h.tiling.disjoint p k q j f (.inl (.inl hp)) (.inl (.inl hq)) hf hf'
    exact hn rfl
  live_disjoint k p hp q hq f hf hf' := by
    obtain ⟨rfl,-⟩ := h.tiling.disjoint p k q _ f (.inl (.inl hp)) (.inl (.inr ⟨hq,rfl⟩)) hf hf'
    have := h.unowned k p hp
    omega
  counted := h.count

/-- In every run from the empty allocator that adds disjoint byte ranges, the free lists are sound. -/
theorem buddy_run_sound (rawMaxPfn : Nat) (ops : List Op) (hd : ops.Pairwise (fun x y => Disjoint x.bytes y.bytes))
    (ha : (empty rawMaxPfn).Admissible ops) : ∃ L, Sound ((empty rawMaxPfn).run ops) L := by
  obtain ⟨area,L,h,-⟩ := run_inv (empty_inv rawMaxPfn) (by simp) (by simp) hd ha
  exact ⟨L,h.sound⟩

theorem buddy_run_sound_at_shared_block :
    ∃ L, Sound ((empty 64).run [.addRange 4096 65536,.allocOrder 1,.refInc 2,.reserve 20480,
      .addRange 200000 12345,.free 8192,.free 8192,.free 20480,.free 7]) L := by
  refine buddy_run_sound 64 _ ?_ ?_
  · simp [Op.bytes,Set.disjoint_left]
    omega
  · decide +kernel

/-- In such a run no frame lies in two allocated blocks. -/
theorem live_blocks_disjoint (rawMaxPfn : Nat) (ops : List Op)
    (hd : ops.Pairwise (fun x y => Disjoint x.bytes y.bytes)) (ha : (empty rawMaxPfn).Admissible ops) {q j : Nat}
    (hp : ((empty rawMaxPfn).run ops).Live p k) (hq : ((empty rawMaxPfn).run ops).Live q j) (hne : p ≠ q) :
    Disjoint {f | InBlock p k f} {f | InBlock q j f} := by
  obtain ⟨area,L,h,-⟩ := run_inv (empty_inv rawMaxPfn) (by simp) (by simp) hd ha
  refine Set.disjoint_left.2 fun f hf hf' => hne ?_
  exact (h.tiling.disjoint p k q j f (.inl (.inr hp)) (.inl (.inr hq)) hf hf').1

theorem live_blocks_disjoint_two : Disjoint {f | InBlock 2 1 f} {f | InBlock 16 0 f} :=
  live_blocks_disjoint 64 [.addRange 4096 65536,.allocOrder 1,.allocOrder 0] (by simp [Op.bytes])
    (by decide +kernel) ⟨by decide +kernel,by decide +kernel⟩ ⟨by decide +kernel,by decide +kernel⟩ (by decide)

end BuddyAllocator
end Vanta.Memory
