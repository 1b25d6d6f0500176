import Vanta.Mm.PageContents

namespace Vanta.Mm
open Library Memory Kernel Function List
section Tables
variable {c : Scope} {k k' : Kernel} {hand : List Nat} {s v t f i : Nat} {path : List Nat}

lemma Allocs.retable {T : Nat → Nat → Entry}
    (hl : ∀ s v, c.live s → v < userPages → {k with tables := T}.leaf s v = k.leaf s v)
    (hta : ∀ s path t, c.live s → UserPath path → descend k.tables nextTable s path = some t →
      descend T nextTable s path = some t) :
    Allocs c 0 k {k with tables := T} where
  quiet := .of_eq rfl rfl rfl {
    procs := rfl
    cr3 := rfl
    watermark := rfl
    initialized := rfl
    leaf := fun s v hs hv => by
      rw [hl s v hs hv]
      exact .refl _
    touched := fun s v hs hv hn => absurd (hl s v hs hv) hn
    table := hta
    count := fun _ => le_max_right _ _
    free := le_refl _
    tracked := fun _ _ hi => hi}
  kept := fun hsl => by
    refine ⟨Exclusive.congr hsl (fun page slot => ?_) (fun _ => Iff.rfl),fun s v hs hv => ?_⟩
    · refine and_congr_right (fun hs => and_congr_right (fun hv => ?_))
      rw [hl _ _ hs hv]
    · rw [content,hl s v hs hv]
      rfl

section
variable (h : Owned c k (f::hand)) (hf : k.frames.refcounts f = 1)
include h hf
variable {u : User}

lemma Owned.unheld : ¬Holds c k u f := h.counted.unheld (le_of_eq hf) (by simp)

lemma Owned.fresh_ne (hu : Holds c k u t) : f ≠ t := by
  rintro rfl
  exact h.unheld hf hu

lemma Owned.refill (entries : Nat → Entry) : Owned c {k with tables := update k.tables f entries} (f::hand) ∧
      Allocs c 0 k {k with tables := update k.tables f entries} ∧
      SamePaths c k {k with tables := update k.tables f entries} := by
  have hn : ∀ {s path x}, c.live s → UserPath path → descend k.tables nextTable s path = some x → x ≠ f :=
    fun {s path x} hs hp hd => (h.fresh_ne hf (u := .table s path) ⟨hs,hp,hd⟩).symm
  have hde : ∀ s path, c.live s → UserPath path →
      descend (update k.tables f entries) nextTable s path = descend k.tables nextTable s path := by
    refine fun s path hs hp => descend_congr (fun q j x hq hx => ?_)
    have hq' : q <+: path := (prefix_append q [j]).trans hq
    rw [update_of_ne (hn hs (hp.of_prefix hq') hx)]
  have hl : ∀ s v, c.live s → v < userPages →
      {k with tables := update k.tables f entries}.leaf s v = k.leaf s v := by
    intro s v hs hv
    have ht := hde s (vpath v) hs (vpath_user hv)
    unfold leaf leafTable
    rw [ht]
    cases hd : descend k.tables nextTable s (vpath v) with
    | none => rfl
    | some x => simp [hn hs (vpath_user hv) hd]
  have hh : ∀ u g, Holds c {k with tables := update k.tables f entries} u g ↔ Holds c k u g := by
    rintro (key | ⟨s,path⟩ | ⟨s,v⟩) g
    · exact Iff.rfl
    · refine and_congr_right (fun hs => and_congr_right (fun hp => ?_))
      rw [hde s path hs hp]
    · refine and_congr_right (fun hs => and_congr_right (fun hv => ?_))
      rw [hl s v hs hv]
  refine ⟨{
    buddy := h.buddy
    counted := h.counted.mono (fun u g hu => (hh u g).1 hu) (fun _ => le_refl _) (fun _ => le_refl _)
    single := fun s path g hg => h.single s path g ((hh _ g).1 hg)
    once := fun s v v' g hv hv' => h.once s v v' g ((hh _ g).1 hv) ((hh _ g).1 hv')
    upper := fun s path i x hs hp hd hpr => ?_
    user := fun s v hs hv hp => ?_
    tracked := h.tracked},.retable hl (fun s path x hs hp hd => (hde s path hs hp).trans hd),hde⟩
  · have hpa := hp.of_prefix (prefix_append path [i])
    have hd' : descend k.tables nextTable s path = some x := (hde s path hs hpa).symm.trans hd
    simp only [update_of_ne (hn hs hpa hd')] at hpr ⊢
    exact h.upper s path i x hs hp hd' hpr
  · rw [hl s v hs hv] at hp ⊢
    exact h.user s v hs hv hp

end

lemma nextTable_zero : nextTable 0 = none := by decide

section Link
variable (h : Owned c k (f::hand)) (hf : k.frames.refcounts f = 1) (hzero : k.tables f = fun _ => 0)
  (hs : c.live s) (hp : UserPath (path++[i])) (hd : descend k.tables nextTable s path = some t)
  (hnone : hasFlag (k.tables t i) flagPresent = false)
include h hf hzero hs hp hd hnone

lemma Owned.descend_link {s' x : Nat} {path' : List Nat} (hs' : c.live s') (hp' : UserPath path') :
    descend (k.writeEntry t i (tableEntry f true)).tables nextTable s' path' = some x ↔
      descend k.tables nextTable s' path' = some x ∨ (x = f ∧ s' = s ∧ path' = path++[i]) := by
  have hl : f < maxSupportedFrames := h.frame_lt (by omega)
  have hn : f ≠ t := h.fresh_ne hf (u := .table s path) ⟨hs,hp.of_prefix (prefix_append path [i]),hd⟩
  rw [Vanta.Library.descend_link (T := k.tables) (t := t) (i := i) (f := f)]
  · refine or_congr_right (and_congr_right (fun _ => ?_))
    constructor
    · rintro ⟨q,rfl,hq⟩
      obtain ⟨rfl,rfl⟩ := h.table_inj hs (hp.of_prefix (prefix_append path [i])) hd hs'
        (hp'.of_prefix (prefix_append q [i])) hq
      exact ⟨rfl,rfl⟩
    · rintro ⟨rfl,rfl⟩
      exact ⟨path,rfl,hd⟩
  · simp [nextTable,hnone]
  · have he : UpperEntry (tableEntry f true) f := ⟨hl,.inl rfl⟩
    simp [writeEntry,he.next]
  · intro j
    have hr : (k.writeEntry t i (tableEntry f true)).tables f = fun _ => 0 := by
      simp [writeEntry,hn,hzero]
    rw [hr]
    exact nextTable_zero
  · intro y j hyj
    by_cases hy : y = t
    · subst hy
      have hj : j ≠ i := fun he => hyj (by rw [he])
      simp [writeEntry,hj]
    · simp [writeEntry,hy]

lemma Owned.leaf_link {s' v : Nat} (hs' : c.live s') (hv : v < userPages) :
    (k.writeEntry t i (tableEntry f true)).leaf s' v = k.leaf s' v := by
  have hi : ∀ x, _ ↔ _ := fun x => h.descend_link hf hzero hs hp hd hnone (x := x) hs' (vpath_user hv)
  cases ht : k.leafTable s' v with
  | some x =>
    have ht' : (k.writeEntry t i (tableEntry f true)).leafTable s' v = some x := (hi x).2 (.inl ht)
    have hn : x ≠ t := by
      rintro rfl
      obtain ⟨-,hpa⟩ := h.table_inj hs (hp.of_prefix (prefix_append path [i])) hd hs' (vpath_user hv) ht
      have := hp.length
      rw [length_append,← hpa] at this
      simp [vpath] at this
    rw [leaf_eq ht,leaf_eq ht']
    simp [writeEntry,hn]
  | none =>
    have hl : k.leaf s' v = 0 := by simp [leaf,ht]
    rw [hl]
    cases ht' : (k.writeEntry t i (tableEntry f true)).leafTable s' v with
    | none => simp [leaf,ht']
    | some x =>
      have hn : f ≠ t := h.fresh_ne hf (u := .table s path) ⟨hs,hp.of_prefix (prefix_append path [i]),hd⟩
      rcases (hi x).1 ht' with ho | ⟨rfl,-⟩
      · rw [leafTable,ho] at ht
        cases ht
      · rw [leaf_eq ht']
        simp [writeEntry,hn,hzero]

lemma Owned.link : Owned c (k.writeEntry t i (tableEntry f true)) hand ∧
    Allocs c 0 k (k.writeEntry t i (tableEntry f true)) := by
  have hi : ∀ {s' path'} (x), c.live s' → UserPath path' →
      (descend (k.writeEntry t i (tableEntry f true)).tables nextTable s' path' = some x ↔
        descend k.tables nextTable s' path' = some x ∨ (x = f ∧ s' = s ∧ path' = path++[i])) :=
    fun x hs' hp' => h.descend_link hf hzero hs hp hd hnone hs' hp'
  have hl : ∀ {s' v}, c.live s' → v < userPages → (k.writeEntry t i (tableEntry f true)).leaf s' v = k.leaf s' v :=
    fun hs' hv => h.leaf_link hf hzero hs hp hd hnone hs' hv
  have hpa := hp.of_prefix (prefix_append path [i])
  have hlt : f < maxSupportedFrames := h.frame_lt (by omega)
  have hpag : ∀ s' v g, Holds c (k.writeEntry t i (tableEntry f true)) (.page s' v) g ↔
      Holds c k (.page s' v) g := fun s' v g =>
    and_congr_right (fun hs' => and_congr_right (fun hv => by rw [hl hs' hv]))
  refine ⟨{
    buddy := h.buddy
    counted := h.counted.put (u := .table s (path++[i])) (fun u g hne hu => ?_) (fun g hu => ?_)
    single := fun s' path' g hg => ?_
    once := fun s' v v' g hv hv' => h.once s' v v' g ((hpag s' v g).1 hv) ((hpag s' v' g).1 hv')
    upper := fun s' path' j x hs' hp' hd' hpr => ?_
    user := fun s' v hs' hv hpr => ?_
    tracked := h.tracked},.retable (fun s' v hs' hv => hl hs' hv)
      (fun s' path' x hs' hp' hd' => (hi x hs' hp').2 (.inl hd'))⟩
  · cases u with
    | cached key => exact hu
    | table s' path' =>
      obtain ⟨hs',hp',hd'⟩ := hu
      rcases (hi g hs' hp').1 hd' with ho | ⟨-,rfl,rfl⟩
      · exact ⟨hs',hp',ho⟩
      · exact absurd rfl hne
    | page s' v => exact (hpag s' v g).1 hu
  · rcases (hi g hs hp).1 hu.2.2 with ho | ⟨rfl,-⟩
    · rw [descend_concat,hd] at ho
      simp [nextTable,hnone] at ho
    · rfl
  · obtain ⟨hs',hp',hd'⟩ := hg
    rcases (hi g hs' hp').1 hd' with ho | ⟨rfl,-⟩
    · exact h.single s' path' g ⟨hs',hp',ho⟩
    · exact hf
  · have hpa' := hp'.of_prefix (prefix_append path' [j])
    have hne : f ≠ t := h.fresh_ne hf (u := .table s path) ⟨hs,hpa,hd⟩
    rcases (hi x hs' hpa').1 hd' with ho | ⟨rfl,-⟩
    · by_cases hxj : x = t ∧ j = i
      · obtain ⟨rfl,rfl⟩ := hxj
        exact ⟨f,hlt,.inl (by simp [writeEntry])⟩
      have hsa : (k.writeEntry t i (tableEntry f true)).tables x j = k.tables x j := by
        by_cases hx : x = t
        · subst hx
          have hj : j ≠ i := fun heq => hxj ⟨rfl,heq⟩
          simp [writeEntry,hj]
        · simp [writeEntry,hx]
      rw [hsa] at hpr ⊢
      exact h.upper s' path' j x hs' hp' ho hpr
    · have he : (k.writeEntry t i (tableEntry x true)).tables x j = 0 := by
        simp [writeEntry,hne,hzero]
      rw [he] at hpr
      exact absurd hpr (by decide)
  · rw [hl hs' hv] at hpr ⊢
    exact h.user s' v hs' hv hpr

end Link

variable {r : Except MapError Nat}

lemma Kernel.allocateTable_spec (h : Owned c k hand) (hru : k.allocateTable = (k',r)) :
    Allocs c 1 k k' ∧ SamePaths c k k' ∧ match r with
      | .error e => e = .outOfMemory ∧ Owned c k' hand ∧ k.frames.freeFrames = 0
      | .ok f => Owned c k' (f::hand) ∧ k'.frames.refcounts f = 1 ∧ k'.tables f = fun _ => 0 := by
  rw [allocateTable] at hru
  rcases ha : k.allocFrame with ⟨k1,a⟩
  obtain ⟨hal,hpa,hr⟩ := Allocs.allocFrame h ha
  cases a with
  | none =>
    rw [ha] at hru
    cases hru
    exact ⟨hal,hpa,rfl,hr⟩
  | some f =>
    rw [ha] at hru
    cases hru
    obtain ⟨ho,hzero,hsa⟩ := hr.1.refill hr.2 (fun _ => 0)
    exact ⟨hal.trans hzero,hpa.trans hsa,ho,hr.2,by simp⟩

lemma Kernel.makePath_spec (rest : List Nat) (h : Owned c k hand) (hs : c.live s) (hp : UserPath (path++rest))
    (hd : descend k.tables nextTable s path = some t)
    (hru : makePath true rest k t = (k',r)) : Allocs c rest.length k k' ∧ Owned c k' hand ∧ match r with
      | .error e => e = .outOfMemory ∧ k.frames.freeFrames < rest.length
      | .ok t' => descend k'.tables nextTable s (path++rest) = some t' := by
  induction rest generalizing k path t with
  | nil =>
    obtain ⟨rfl,rfl⟩ := Prod.mk.inj hru
    exact ⟨.refl c k,h,by simpa using hd⟩
  | cons i rest ih =>
    have hp' : UserPath ((path++[i])++rest) := by simpa using hp
    have hpi := hp'.of_prefix (prefix_append (path++[i]) rest)
    rw [makePath] at hru
    cases hpr : hasFlag (k.tables t i) flagPresent with
    | false =>
      simp only [hpr,Bool.not_false,if_true] at hru
      rcases hal : k.allocateTable with ⟨k1,a⟩
      obtain ⟨ha,hpa,hr⟩ := allocateTable_spec h hal
      rw [hal] at hru
      cases a with
      | error e =>
        cases hru
        obtain ⟨rfl,ho,hzero⟩ := hr
        exact ⟨ha.mono (by simp),ho,rfl,by simp [hzero]⟩
      | ok f =>
        obtain ⟨ho,hon,hem⟩ := hr
        have hpat := hpi.of_prefix (prefix_append path [i])
        have hd1 := ha.quiet.table s path t hs hpat hd
        have hnone : hasFlag (k1.tables t i) flagPresent = false := by
          by_contra hso
          obtain ⟨g,he⟩ := ho.upper s path i t hs hpi hd1 (by simpa using hso)
          have hsa := hpa s (path++[i]) hs hpi
          rw [descend_concat,descend_concat,hd,hd1,Option.bind_some,Option.bind_some,he.next] at hsa
          simp [nextTable,hpr] at hsa
        obtain ⟨ho',hl⟩ := ho.link hon hem hs hpi hd1 hnone
        have hn := (ho.descend_link hon hem hs hpi hd1 hnone hs hpi).2 (.inr ⟨rfl,rfl,rfl⟩)
        obtain ⟨ha',hla,hr'⟩ := ih ho' hp' hn hru
        refine ⟨((ha.trans hl).trans ha').mono (by simp; omega),hla,?_⟩
        cases r with
        | error e =>
          have hfre := (ha.trans hl).quiet.free
          exact ⟨hr'.1,by simp only [length_cons]; have := hr'.2; omega⟩
        | ok t' => simpa using hr'
    | true =>
      obtain ⟨f,he⟩ := h.upper s path i t hs hpi hd hpr
      have hn := he.next
      obtain ⟨-,hh,hfr⟩ := nextTable_some hn
      have hst : descend k.tables nextTable s (path++[i]) = some f := by
        rw [descend_concat,hd]
        exact hn
      simp only [hpr,hh,hfr,Bool.not_true,Bool.false_eq_true,if_false] at hru
      obtain ⟨ha,ho,hr⟩ := ih h hp' hst hru
      refine ⟨ha.mono (by simp),ho,?_⟩
      cases r with
      | error e => exact ⟨hr.1,by simp only [length_cons]; have := hr.2; omega⟩
      | ok t' => simpa using hr

end Tables

def Kernel.setLeaf (k : Kernel) (s v : Nat) (e : Entry) : Kernel :=
  match k.leafTable s v with
  | none => k
  | some t => k.writeEntry t (v%512) e

section Leaves
variable {c : Scope} {k k' : Kernel} {hand : List Nat} {s v t f va : Nat} {e : Entry}

namespace Kernel

lemma setLeaf_eq (ht : k.leafTable s v = some t) (e : Entry) : k.setLeaf s v e = k.writeEntry t (v%512) e := by
  simp [setLeaf,ht]

lemma setLeaf_tables (k : Kernel) (s v : Nat) (e : Entry) : ∃ T, k.setLeaf s v e = {k with tables := T} := by
  unfold setLeaf
  split
  · exact ⟨k.tables,rfl⟩
  · exact ⟨_,rfl⟩

@[simp] lemma setLeaf_frames : (k.setLeaf s v e).frames = k.frames := by
  obtain ⟨T,hT⟩ := k.setLeaf_tables s v e
  rw [hT]

@[simp] lemma setLeaf_mem : (k.setLeaf s v e).mem = k.mem := by
  obtain ⟨T,hT⟩ := k.setLeaf_tables s v e
  rw [hT]

@[simp] lemma setLeaf_cache : (k.setLeaf s v e).cache = k.cache := by
  obtain ⟨T,hT⟩ := k.setLeaf_tables s v e
  rw [hT]

@[simp] lemma setLeaf_files : (k.setLeaf s v e).files = k.files := by
  obtain ⟨T,hT⟩ := k.setLeaf_tables s v e
  rw [hT]

@[simp] lemma setLeaf_swap : (k.setLeaf s v e).swap = k.swap := by
  obtain ⟨T,hT⟩ := k.setLeaf_tables s v e
  rw [hT]

@[simp] lemma setLeaf_swapDisk : (k.setLeaf s v e).swapDisk = k.swapDisk := by
  obtain ⟨T,hT⟩ := k.setLeaf_tables s v e
  rw [hT]

@[simp] lemma setLeaf_procs : (k.setLeaf s v e).procs = k.procs := by
  obtain ⟨T,hT⟩ := k.setLeaf_tables s v e
  rw [hT]

@[simp] lemma setLeaf_watermark : (k.setLeaf s v e).lowWatermark = k.lowWatermark := by
  obtain ⟨T,hT⟩ := k.setLeaf_tables s v e
  rw [hT]

@[simp] lemma setLeaf_initialized : (k.setLeaf s v e).swapInitialized = k.swapInitialized := by
  obtain ⟨T,hT⟩ := k.setLeaf_tables s v e
  rw [hT]

lemma leaf_eq_zero (ht : k.leafTable s v = none) : k.leaf s v = 0 := by simp [leaf,ht]

lemma leaf_absent (ht : k.leafTable s v = none) :
    hasFlag (k.leaf s v) flagPresent = false ∧ hasFlag (k.leaf s v) mapSwapped = false := by
  rw [leaf_eq_zero ht]
  decide

lemma leafTable_of_flag {i : Nat} (hfl : hasFlag (k.leaf s v) (bit i) = true) : ∃ t, k.leafTable s v = some t := by
  cases ht : k.leafTable s v with
  | some t => exact ⟨t,rfl⟩
  | none =>
    rw [leaf_eq_zero ht,hasFlag_zero] at hfl
    cases hfl

end Kernel

lemma div_lt_userPages (hva : va < userAddressLimit) : va/pageSize < userPages := by
  simp only [userAddressLimit,pageSize,userPages] at *
  omega

section
variable (h : Owned c k hand) (hs : c.live s) (hva : va < userAddressLimit)
include h hs hva

lemma Kernel.map_spec (hali : va%pageSize = 0)
    {flags : Entry} (hu : hasFlag flags mapUser = true) {r : Except MapError Unit}
    (hru : k.map s va f flags = (k',r)) : ∃ k1, Allocs c 3 k k1 ∧ Owned c k1 hand ∧ match r with
      | .ok _ => (∃ t, k1.leafTable s (va/pageSize) = some t) ∧ hasFlag (k1.leaf s (va/pageSize)) flagPresent = false ∧
          k' = k1.setLeaf s (va/pageSize) (frameBits f ||| flags ||| flagPresent)
      | .error e => k' = k1 ∧ ((e = .outOfMemory ∧ k.frames.freeFrames < 3) ∨
          (e = .alreadyMapped ∧ hasFlag (k1.leaf s (va/pageSize)) flagPresent = true)) := by
  have hv := div_lt_userPages hva
  rw [map,if_neg (by simp [hali]),hu] at hru
  rcases hpa : makePath true (upperIndices va) k s with ⟨k1,a⟩
  have hp' := hpa
  rw [upperIndices_eq] at hp'
  have hr : descend k.tables nextTable s [] = some s := rfl
  obtain ⟨hal,ho,ha⟩ := makePath_spec _ h hs (by exact vpath_user hv) hr hp'
  rw [hpa] at hru
  cases a with
  | error e =>
    cases hru
    exact ⟨_,hal,ho,rfl,.inl ha⟩
  | ok t =>
    have ht : k1.leafTable s (va/pageSize) = some t := ha
    simp only [indexPt_eq,← leaf_eq ht] at hru
    split_ifs at hru with hpr
    · cases hru
      exact ⟨_,hal,ho,rfl,.inr ⟨rfl,hpr⟩⟩
    · cases hru
      exact ⟨k1,hal,ho,⟨t,ht⟩,by simpa using hpr,(setLeaf_eq ht _).symm⟩

lemma Kernel.unmap_eq (ha : va%pageSize = 0) : k.unmap s va = if hasFlag (k.leaf s (va/pageSize)) flagPresent then
        (k.setLeaf s (va/pageSize) 0,.ok (some (frameOf (k.leaf s (va/pageSize)))))
      else if hasFlag (k.leaf s (va/pageSize)) mapSwapped then
        ({k with swap := k.swap.freeSlot (slotOf (k.leaf s (va/pageSize)))}.setLeaf s (va/pageSize) 0,.ok none)
      else (k,.ok none) := by
  rw [unmap,if_neg (by simp [ha]),h.pteLocation_eq hs hva]
  cases ht : k.leafTable s (va/pageSize) with
  | none =>
    obtain ⟨hpr,hsw⟩ := leaf_absent ht
    simp [hpr,hsw]
  | some t =>
    simp only [indexPt_eq,← leaf_eq ht]
    cases hpr : hasFlag (k.leaf s (va/pageSize)) flagPresent with
    | true => simp [setLeaf_eq ht]
    | false =>
      cases hsw : hasFlag (k.leaf s (va/pageSize)) mapSwapped with
      | false => simp
      | true =>
        have ht' : {k with swap := k.swap.freeSlot (slotOf (k.leaf s (va/pageSize)))}.leafTable s (va/pageSize) =
            some t := ht
        simp [setLeaf_eq ht']

lemma Kernel.protectPage_eq (flags : Entry) : k.protectPage s va flags =
      (if hasFlag (k.leaf s (va/pageSize)) flagPresent then
        k.setLeaf s (va/pageSize) ((k.leaf s (va/pageSize) &&& addressMask) ||| flags ||| flagPresent) else k,.ok ()) := by
  rw [protectPage,h.pteLocation_eq hs hva]
  cases ht : k.leafTable s (va/pageSize) with
  | none =>
    obtain ⟨hpr,-⟩ := leaf_absent ht
    simp [hpr]
  | some t =>
    simp only [indexPt_eq,← leaf_eq ht]
    cases hpr : hasFlag (k.leaf s (va/pageSize)) flagPresent with
    | true => simp [setLeaf_eq ht]
    | false => simp

end
end Leaves
end Vanta.Mm
