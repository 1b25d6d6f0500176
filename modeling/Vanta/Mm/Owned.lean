import Vanta.Library.Radix
import Vanta.Library.RefCount
import Vanta.Memory.BuddyFrames
import Vanta.Mm.Paging

/-! Who holds which frame. The allocator's counts cover all users, and a table has one. -/

namespace Vanta.Mm
open Library Memory Kernel Function List

def nextTable (e : Entry) : Option Nat :=
  if hasFlag e flagPresent && !hasFlag e flagHugePage then some (frameOf e) else none

lemma nextTable_some {e : Entry} {f : Nat} (h : nextTable e = some f) :
    hasFlag e flagPresent = true ∧ hasFlag e flagHugePage = false ∧ frameOf e = f := by
  unfold nextTable at h
  split_ifs at h with hf
  simp only [Bool.and_eq_true,Bool.not_eq_true',Option.some.injEq] at hf h
  exact ⟨hf.1,hf.2,h⟩

/-- The entry of an upper level for the table `f`, which the processor may have marked as accessed. -/
def UpperEntry (e : Entry) (f : Nat) : Prop :=
  f < maxSupportedFrames ∧ (e = tableEntry f true ∨ e = tableEntry f true ||| flagAccessed)

section
variable {e : Entry} {f : Nat} (h : UpperEntry e f)
include h

lemma UpperEntry.flags : hasFlag e flagPresent = true ∧ hasFlag e mapUser = true ∧ hasFlag e mapWritable = true ∧
    hasFlag e mapNoExecute = false ∧ hasFlag e flagHugePage = false := by
  obtain ⟨-,rfl | rfl⟩ := h <;>
  simp (disch := decide) [tableEntry,flagPresent,flagAccessed,mapUser,mapWritable,mapNoExecute,flagHugePage,
    hasFlag_bit_bit,hasFlag_frameBits]

lemma UpperEntry.next : nextTable e = some f := by
  obtain ⟨hp,-,-,-,hh⟩ := h.flags
  obtain ⟨hl,he⟩ := h
  have hfl : NoAddress (flagPresent ||| mapWritable ||| mapUser) := by decide
  have hac : NoAddress flagAccessed := by decide
  have hfr : frameOf (tableEntry f true) = f := by
    rw [tableEntry,if_pos rfl,frameOf_or hfl,frameOf_frameBits (lt_trans hl (by decide))]
  have hfe : frameOf e = f := by
    rcases he with rfl | rfl
    · exact hfr
    · rw [frameOf_or hac,hfr]
  simp [nextTable,hp,hh,hfe]

end

def userPages : Nat := 2^35

/-- The indices of the upper levels for page number `v`. -/
def vpath (v : Nat) : List Nat := [v/2^27%512,v/2^18%512,v/2^9%512]

/-- Indices that lead to a table of the user half. -/
structure UserPath (path : List Nat) : Prop where
  length : path.length ≤ 3
  bound : ∀ i ∈ path, i < 512
  low : ∀ i, path.head? = some i → i < 256

lemma upperIndices_eq (va : Nat) : upperIndices va = vpath (va/pageSize) := by
  simp only [upperIndices,vpath,pageSize,Nat.div_div_eq_div_mul]
  rfl

lemma indexPt_eq (va : Nat) : indexPt va = va/pageSize%512 := rfl

lemma alignDown_div (va : Nat) : alignDown va/pageSize = va/pageSize :=
  Nat.mul_div_cancel _ (by decide)

lemma vpath_user {v : Nat} (hv : v < userPages) : UserPath (vpath v) := by
  simp only [userPages] at hv
  refine ⟨by simp [vpath],?_,?_⟩
  · simp only [vpath,mem_cons,not_mem_nil,or_false]
    omega
  intro i hi
  simp only [vpath,List.head?_cons,Option.some.injEq] at hi
  omega

lemma vpath_inj {v w : Nat} (hv : v < userPages) (hw : w < userPages) (hp : vpath v = vpath w)
    (hi : v%512 = w%512) : v = w := by
  simp only [vpath,List.cons.injEq,and_true,userPages] at *
  omega

lemma UserPath.of_prefix {p q : List Nat} (h : UserPath p) (hq : q <+: p) : UserPath q := by
  obtain ⟨rest,rfl⟩ := hq
  refine ⟨?_,fun i hi => h.bound i (by simp [hi]),fun i hi => h.low i ?_⟩
  · have := h.length
    simp only [length_append] at this
    omega
  · cases q with
    | nil => simp at hi
    | cons a q => simpa using hi

namespace Kernel

def leafTable (k : Kernel) (s v : Nat) : Option Nat := descend k.tables nextTable s (vpath v)

def leaf (k : Kernel) (s v : Nat) : Entry :=
  match k.leafTable s v with
  | none => 0
  | some table => k.tables table (v%512)

lemma leaf_congr {k k' : Kernel} (h : k'.tables = k.tables) (s v : Nat) : k'.leaf s v = k.leaf s v := by
  simp only [leaf,leafTable,h]

lemma leaf_eq {k : Kernel} {s v t : Nat} (ht : k.leafTable s v = some t) : k.leaf s v = k.tables t (v%512) := by
  simp [leaf,ht]

end Kernel

/-- Who can hold a frame. -/
inductive User where
  | cached (key : PageKey)
  | table (space : Nat) (path : List Nat)
  | page (space v : Nat)
  deriving DecidableEq

/-- The address spaces in use, and the pages that map a frame of the page cache without a reference. -/
structure Scope where
  live : Nat → Prop
  lent : Nat → Nat → Prop

def Holds (c : Scope) (k : Kernel) : User → Nat → Prop
  | .cached key, f => ∃ e, k.cache.entries.get key = some e ∧ e.frame = f
  | .table s path, f => c.live s ∧ UserPath path ∧ descend k.tables nextTable s path = some f
  | .page s v, f => c.live s ∧ v < userPages ∧ ¬c.lent s v ∧ hasFlag (k.leaf s v) flagPresent = true ∧
      frameOf (k.leaf s v) = f

/-- The frames of the kernel are counted, with the references `hand` in local variables. -/
structure Owned (c : Scope) (k : Kernel) (hand : List Nat) : Prop where
  buddy : ∃ area L, 0 ∉ area ∧ k.frames.Inv area L [] 0
  counted : Counted (Holds c k) k.frames.refcounts hand
  single : ∀ s path f, Holds c k (.table s path) f → k.frames.refcounts f = 1
  once : ∀ s v v' f, Holds c k (.page s v) f → Holds c k (.page s v') f → v' = v
  upper : ∀ s path i t, c.live s → UserPath (path++[i]) → descend k.tables nextTable s path = some t →
    hasFlag (k.tables t i) flagPresent = true → ∃ f, UpperEntry (k.tables t i) f
  user : ∀ s v, c.live s → v < userPages → hasFlag (k.leaf s v) flagPresent = true → hasFlag (k.leaf s v) mapUser = true
  tracked : ∀ i p, k.swap.trackedPages i = some p →
    c.live p.space ∧ p.vaddr < userAddressLimit ∧ ¬c.lent p.space (p.vaddr/pageSize)

namespace Owned
variable {c : Scope} {k k' : Kernel} {hand : List Nat} {s s' v v' t f : Nat} {path path' : List Nat}

lemma table_inj (h : Owned c k hand) (hs : c.live s) (hp : UserPath path)
    (hd : descend k.tables nextTable s path = some t) (hs' : c.live s') (hp' : UserPath path')
    (hd' : descend k.tables nextTable s' path' = some t) : s' = s ∧ path' = path := by
  have ho : Holds c k (.table s path) t := ⟨hs,hp,hd⟩
  have ho' : Holds c k (.table s' path') t := ⟨hs',hp',hd'⟩
  have := h.counted.unique (le_of_eq (h.single s path t ho)) ho' ho
  simpa using this

section
variable (h : Owned c k hand) (hs : c.live s) (hv : v < userPages) (ht : k.leafTable s v = some t)
include h hs hv ht

lemma descend_writeEntry (i : Nat) (e : Entry) (hs' : c.live s') (hp' : UserPath path') :
    descend (k.writeEntry t i e).tables nextTable s' path' = descend k.tables nextTable s' path' := by
  refine descend_congr (fun q j x hq hx => ?_)
  have hqp : q <+: path' := (prefix_append q [j]).trans hq
  have hn : x ≠ t := by
    rintro rfl
    obtain ⟨-,hq'⟩ := h.table_inj hs (vpath_user hv) ht hs' (hp'.of_prefix hqp) hx
    have hl := hq.length_le
    have := hp'.length
    simp only [hq',length_append,vpath,length_cons,length_nil] at hl
    omega
  simp [writeEntry,hn]

lemma leafTable_writeEntry (i : Nat) (e : Entry) (hs' : c.live s') (hv' : v' < userPages) :
    (k.writeEntry t i e).leafTable s' v' = k.leafTable s' v' :=
  h.descend_writeEntry hs hv ht i e hs' (vpath_user hv')

lemma leaf_writeEntry (e : Entry) (hs' : c.live s') (hv' : v' < userPages) :
    (k.writeEntry t (v%512) e).leaf s' v' = if s' = s ∧ v' = v then e else k.leaf s' v' := by
  have hta := h.leafTable_writeEntry hs hv ht (v%512) e hs' hv'
  unfold leaf
  rw [hta]
  cases ht' : k.leafTable s' v' with
  | none =>
    rw [if_neg]
    rintro ⟨rfl,rfl⟩
    rw [ht] at ht'
    cases ht'
  | some t' =>
    by_cases hsa : s' = s ∧ v' = v
    · obtain ⟨rfl,rfl⟩ := hsa
      rw [ht] at ht'
      cases ht'
      simp [writeEntry]
    rw [if_neg hsa]
    by_cases htt : t' = t
    · subst htt
      obtain ⟨rfl,hp⟩ := h.table_inj hs (vpath_user hv) ht hs' (vpath_user hv') ht'
      have hin : v'%512 ≠ v%512 := fun hi => hsa ⟨rfl,vpath_inj hv' hv hp hi⟩
      simp [writeEntry,hin]
    · simp [writeEntry,htt]

end

variable {u : User}

lemma holds_congr (hta : k'.tables = k.tables)
    (hc : ∀ key, (k'.cache.entries.get key).map PageEntry.frame = (k.cache.entries.get key).map PageEntry.frame)
    : Holds c k' u f ↔ Holds c k u f := by
  cases u with
  | cached key =>
    have hi : ∀ m : Option PageEntry, (∃ e, m = some e ∧ e.frame = f) ↔ m.map PageEntry.frame = some f := by
      intro m
      cases m <;> simp
    simp only [Holds,hi,hc]
  | table s path => simp only [Holds,hta]
  | page s v => simp only [Holds,leaf,leafTable,hta]

variable {ha' : List Nat}

section
variable (h : Owned c k hand)
include h

lemma congr (hfr : k'.frames = k.frames) (hta : k'.tables = k.tables)
    (hc : ∀ key, (k'.cache.entries.get key).map PageEntry.frame = (k.cache.entries.get key).map PageEntry.frame)
    (htr : ∀ i p, k'.swap.trackedPages i = some p →
      c.live p.space ∧ p.vaddr < userAddressLimit ∧ ¬c.lent p.space (p.vaddr/pageSize)) : Owned c k' hand where
  buddy := hfr ▸ h.buddy
  counted := by
    rw [hfr]
    exact h.counted.mono (fun u f hu => (holds_congr hta hc).1 hu) (fun _ => le_refl _) (fun _ => le_refl _)
  single := fun s path f hf => by
    rw [hfr]
    exact h.single s path f ((holds_congr hta hc).1 hf)
  once := fun s v v' f hv hv' =>
    h.once s v v' f ((holds_congr hta hc).1 hv) ((holds_congr hta hc).1 hv')
  upper := by
    rw [hta]
    exact h.upper
  user := fun s v hs hv hp => by
    rw [leaf_congr hta] at hp ⊢
    exact h.user s v hs hv hp
  tracked := htr

lemma forget (hl : ∀ f, ha'.count f ≤ hand.count f) : Owned c k ha' :=
  {h with counted := h.counted.mono (fun _ _ hu => hu) (fun _ => le_refl _) hl}

lemma recount {frames : BuddyAllocator} (hb : ∃ area L, 0 ∉ area ∧ frames.Inv area L [] 0)
    (hc : Counted (Holds c k) frames.refcounts ha')
    (hsi : ∀ s path f, Holds c k (.table s path) f → frames.refcounts f = 1) :
    Owned c {k with frames := frames} ha' where
  buddy := hb
  counted := hc
  single := hsi
  once := h.once
  upper := h.upper
  user := h.user
  tracked := h.tracked

lemma lt_of_pos (hf : 0 < k.frames.refcounts f) : f < k.frames.maxPfn := by
  obtain ⟨area,L,-,hi⟩ := h.buddy
  exact hi.lt_of_blocks (.inl (.inr ⟨hf,rfl⟩))

lemma frame_lt (hf : 0 < k.frames.refcounts f) : f < maxSupportedFrames := by
  obtain ⟨area,L,-,hi⟩ := h.buddy
  exact lt_of_lt_of_le (h.lt_of_pos hf) hi.threaded.small

end

lemma free (h : Owned c k (f::hand)) :
    ∃ frames, k.freeFrame f = ({k with frames := frames},true) ∧ Owned c {k with frames := frames} hand ∧
      k.frames.freeFrames ≤ frames.freeFrames ∧
      frames.refcounts = update k.frames.refcounts f (k.frames.refcounts f-1) := by
  obtain ⟨area,L,hz,hi⟩ := h.buddy
  have hp : 0 < k.frames.refcounts f := h.counted.hand_pos (by simp)
  obtain ⟨c,L',hf,hi',⟨hc,-,-,-⟩,hl⟩ := BuddyAllocator.free_frame_spec hi hz hp
  refine ⟨c,by simp [freeFrame,hf],?_,hl,hc⟩
  refine h.recount ⟨area,L',hz,hi'⟩ (hc ▸ h.counted.dec) (fun s path g hg => ?_)
  have ho := h.single s path g hg
  have hn : g ≠ f := by
    rintro rfl
    exact h.counted.unheld (le_of_eq ho) (by simp) hg
  rw [hc,update_of_ne hn]
  exact ho

lemma take (h : Owned c k hand) : (k.takeFrame = (k,none) ∧ k.frames.freeFrames = 0) ∨
      ∃ frames f, k.takeFrame = ({k with frames := frames},some f) ∧
        Owned c {k with frames := frames} (f::hand) ∧ k.frames.refcounts f = 0 ∧
        frames.refcounts = update k.frames.refcounts f 1 ∧
        frames.freeFrames = k.frames.freeFrames-1 := by
  obtain ⟨area,L,hz,hi⟩ := h.buddy
  rcases BuddyAllocator.alloc_spec hi with ⟨hn,he⟩ | ⟨c,p,L',hso,hi',hf,hc,-,hl⟩
  · exact .inl ⟨by simp [takeFrame,hn],he⟩
  have hd : p*pageSize/pageSize = p := Nat.mul_div_cancel _ (by decide)
  refine .inr ⟨c,p,by simp [takeFrame,hso,hd],?_,hf,hc,hl⟩
  have hco := h.counted.inc p
  rw [hf,← hc] at hco
  refine h.recount ⟨area,L',hz,hi'⟩ hco (fun s path g hg => ?_)
  have hne : g ≠ p := by
    rintro rfl
    exact h.counted.unheld_of_zero hf hg
  rw [hc,update_of_ne hne]
  exact h.single s path g hg

section
variable (h : Owned c k hand) (hs : c.live s) (hv : v < userPages) (ht : k.leafTable s v = some t)
include h hs hv ht
variable {e : Entry}

lemma holds_writeLeaf : Holds c (k.writeEntry t (v%512) e) u f ↔
    if u = .page s v then ¬c.lent s v ∧ hasFlag e flagPresent = true ∧ frameOf e = f else Holds c k u f := by
  cases u with
  | cached key =>
    rfl
  | table s' path =>
    refine and_congr_right (fun hs' => and_congr_right (fun hp' => ?_))
    rw [h.descend_writeEntry hs hv ht (v%512) e hs' hp']
  | page s' v' =>
    simp only [Holds,User.page.injEq]
    by_cases hsa : s' = s ∧ v' = v
    · obtain ⟨rfl,rfl⟩ := hsa
      have := h.leaf_writeEntry hs hv ht e hs hv
      simp [this,hs,hv]
    · rw [if_neg hsa]
      refine and_congr_right (fun hs' => and_congr_right (fun hv' => ?_))
      rw [h.leaf_writeEntry hs hv ht e hs' hv',if_neg hsa]

lemma writeLeaf (hc : Counted (Holds c (k.writeEntry t (v%512) e)) k.frames.refcounts ha')
    (ho : ¬c.lent s v → hasFlag e flagPresent = true → ∀ v', v' ≠ v → ¬Holds c k (.page s v') (frameOf e))
    (hu : hasFlag e flagPresent = true → hasFlag e mapUser = true) : Owned c (k.writeEntry t (v%512) e) ha' where
  buddy := h.buddy
  counted := hc
  single := fun s' path f hf => by
    rw [h.holds_writeLeaf hs hv ht,if_neg (by simp)] at hf
    exact h.single s' path f hf
  once := fun s' w w' f hw hw' => by
    rw [h.holds_writeLeaf hs hv ht] at hw hw'
    split_ifs at hw hw' with hpa hp' hp'
    · simp only [User.page.injEq] at hpa hp'
      rw [hpa.2,hp'.2]
    · simp only [User.page.injEq] at hpa hp'
      obtain ⟨rfl,rfl⟩ := hpa
      exact absurd (hw.2.2 ▸ hw') (ho hw.1 hw.2.1 w' (fun he => hp' ⟨rfl,he⟩))
    · simp only [User.page.injEq] at hpa hp'
      obtain ⟨rfl,rfl⟩ := hp'
      exact absurd (hw'.2.2 ▸ hw) (ho hw'.1 hw'.2.1 w (fun he => hpa ⟨rfl,he⟩))
    · exact h.once s' w w' f hw hw'
  upper := fun s' path i x hs' hp hd hpr => by
    have hpat : UserPath path := hp.of_prefix (prefix_append path [i])
    rw [h.descend_writeEntry hs hv ht (v%512) e hs' hpat] at hd
    have hn : x ≠ t := by
      rintro rfl
      obtain ⟨-,rfl⟩ := h.table_inj hs (vpath_user hv) ht hs' hpat hd
      have := hp.length
      simp [vpath] at this
    simp only [writeEntry,update_of_ne hn] at hpr ⊢
    exact h.upper s' path i x hs' hp hd hpr
  user := fun s' v' hs' hv' hp => by
    rw [h.leaf_writeEntry hs hv ht e hs' hv'] at hp ⊢
    split_ifs at hp ⊢
    · exact hu hp
    · exact h.user s' v' hs' hv' hp
  tracked := h.tracked

lemma writeLeaf_keep (hpr : hasFlag e flagPresent = true →
    hasFlag (k.leaf s v) flagPresent = true ∧ frameOf e = frameOf (k.leaf s v) ∧ hasFlag e mapUser = true) :
    Owned c (k.writeEntry t (v%512) e) hand := by
  refine h.writeLeaf hs hv ht (h.counted.mono (fun u f hu => ?_) (fun _ => le_refl _) (fun _ => le_refl _)) ?_
    (fun he => (hpr he).2.2)
  · rw [h.holds_writeLeaf hs hv ht] at hu
    split_ifs at hu with hpa
    · subst hpa
      obtain ⟨hp,hf,-⟩ := hpr hu.2.1
      exact ⟨hs,hv,hu.1,hp,by rw [← hf,hu.2.2]⟩
    · exact hu
  · intro hl he v' hn hh
    obtain ⟨hp,hf,-⟩ := hpr he
    exact hn (h.once s v v' _ ⟨hs,hv,hl,hp,hf.symm⟩ hh)

lemma writeLeaf_clear (hl : ¬c.lent s v) (ho : hasFlag (k.leaf s v) flagPresent = true)
    (he : hasFlag e flagPresent = false) : Owned c (k.writeEntry t (v%512) e) (frameOf (k.leaf s v)::hand) := by
  have hpa : Holds c k (.page s v) (frameOf (k.leaf s v)) := ⟨hs,hv,hl,ho,rfl⟩
  refine h.writeLeaf hs hv ht (h.counted.lift hpa (fun u f hu => ?_) ?_) (fun _ hp => by simp [he] at hp)
    (fun hp => by simp [he] at hp)
  · rw [h.holds_writeLeaf hs hv ht] at hu
    split_ifs at hu with hu'
    · simp [he] at hu
    · exact hu
  · rw [h.holds_writeLeaf hs hv ht,if_pos rfl]
    simp [he]

end

lemma writeLeaf_put (h : Owned c k (f::hand)) (hs : c.live s) (hv : v < userPages)
    (ht : k.leafTable s v = some t) {e : Entry} (hf : frameOf e = f)
    (ho : ∀ v', v' ≠ v → ¬Holds c k (.page s v') f) (hus : hasFlag e mapUser = true) :
    Owned c (k.writeEntry t (v%512) e) hand := by
  refine h.writeLeaf hs hv ht (h.counted.put (u := .page s v) (fun u g hn hu => ?_) (fun g hu => ?_))
    (fun _ _ v' hn => hf ▸ ho v' hn) (fun _ => hus)
  · rwa [h.holds_writeLeaf hs hv ht,if_neg hn] at hu
  · rw [h.holds_writeLeaf hs hv ht,if_pos rfl] at hu
    rw [← hf,hu.2.2]

end Owned
end Vanta.Mm
