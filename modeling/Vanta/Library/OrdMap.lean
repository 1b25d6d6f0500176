import Mathlib.Order.Lattice
import Mathlib.Data.List.Pairwise

/-! Finite maps as association lists with increasing keys. -/

namespace Vanta.Library
open List

structure OrdMap (κ α : Type) [LinearOrder κ] where
  entries : List (κ × α)
  sorted : entries.Pairwise (fun x y => x.1 < y.1)

namespace OrdMap
variable {κ α : Type} [LinearOrder κ]

def insertEntry (k : κ) (v : α) : List (κ × α) → List (κ × α)
  | [] => [(k,v)]
  | e::l => if k < e.1 then (k,v)::e::l else if k = e.1 then (k,v)::l else e::insertEntry k v l

def getEntry (k : κ) : List (κ × α) → Option α
  | [] => none
  | e::l => if e.1 = k then some e.2 else getEntry k l

lemma getEntry_insertEntry (k j : κ) (v : α) (l : List (κ × α)) :
    getEntry j (insertEntry k v l) = if j = k then some v else getEntry j l := by
  induction l with
  | nil => simp [insertEntry,getEntry,eq_comm]
  | cons e l ih =>
    by_cases hj : j = k
    · subst hj
      simp only [insertEntry]
      split_ifs with hl he
      · simp [getEntry]
      · simp [getEntry]
      · simp [getEntry,Ne.symm he,ih]
    · simp only [insertEntry,if_neg hj]
      split_ifs with hl he
      · simp [getEntry,Ne.symm hj]
      · subst he
        simp [getEntry,Ne.symm hj]
      · simp [getEntry,ih,hj]

variable {k : κ} {l : List (κ × α)} {v : α} {x : κ × α} {m : OrdMap κ α}

lemma mem_insertEntry (h : x ∈ insertEntry k v l) : x = (k,v) ∨ x ∈ l := by
  induction l with
  | nil => simpa [insertEntry] using h
  | cons e l ih =>
    simp only [insertEntry] at h
    split_ifs at h with hl he
    · simpa using h
    · rcases mem_cons.1 h with h | h
      · exact .inl h
      · exact .inr (by simp [h])
    rcases mem_cons.1 h with h | h
    · exact .inr (by simp [h])
    rcases ih h with h | h
    · exact .inl h
    · exact .inr (by simp [h])

lemma insertEntry_sorted (k : κ) (v : α) (h : l.Pairwise (fun x y => x.1 < y.1)) :
    (insertEntry k v l).Pairwise (fun x y => x.1 < y.1) := by
  induction l with
  | nil => simp [insertEntry]
  | cons e l ih =>
    obtain ⟨he,hl⟩ := pairwise_cons.1 h
    simp only [insertEntry]
    split_ifs with hlt heq
    · refine pairwise_cons.2 ⟨fun x hx => ?_,h⟩
      rcases mem_cons.1 hx with rfl | hx
      · exact hlt
      · exact lt_trans hlt (he x hx)
    · exact pairwise_cons.2 ⟨fun x hx => heq ▸ he x hx,hl⟩
    refine pairwise_cons.2 ⟨fun x hx => ?_,ih hl⟩
    rcases mem_insertEntry hx with rfl | hx
    · exact lt_of_le_of_ne (not_lt.1 hlt) (Ne.symm heq)
    · exact he x hx

def empty : OrdMap κ α := ⟨[],List.Pairwise.nil⟩

def get (m : OrdMap κ α) (k : κ) : Option α := getEntry k m.entries

def insert (m : OrdMap κ α) (k : κ) (v : α) : OrdMap κ α :=
  ⟨insertEntry k v m.entries,insertEntry_sorted k v m.sorted⟩

def modify (m : OrdMap κ α) (k : κ) (f : α → α) : OrdMap κ α :=
  match m.get k with
  | none => m
  | some v => m.insert k (f v)

/-- The first key, in ascending order, whose value meets `p`. -/
def findKey (m : OrdMap κ α) (p : α → Bool) : Option κ := (m.entries.find? (fun e => p e.2)).map (·.1)

@[simp] lemma get_empty (k : κ) : (empty : OrdMap κ α).get k = none := rfl

lemma get_insert (m : OrdMap κ α) (k j : κ) (v : α) : (m.insert k v).get j = if j = k then some v else m.get j :=
  getEntry_insertEntry k j v m.entries

lemma get_modify (m : OrdMap κ α) (k j : κ) (f : α → α) :
    (m.modify k f).get j = if j = k then (m.get k).map f else m.get j := by
  unfold modify
  cases h : m.get k with
  | none =>
    split_ifs with hj
    · simp [hj,h]
    · rfl
  | some v => simp [get_insert]

def erase (m : OrdMap κ α) (k : κ) : OrdMap κ α :=
  ⟨m.entries.filter (fun e => !decide (e.1 = k)),m.sorted.filter _⟩

def below (m : OrdMap κ α) (k : κ) : Option (κ × α) :=
  (m.entries.filter (fun e => decide (e.1 < k))).getLast?

/-- The entry with the largest key not above `k`. -/
def floor (m : OrdMap κ α) (k : κ) : Option (κ × α) :=
  (m.entries.filter (fun e => decide (e.1 ≤ k))).getLast?

lemma getEntry_filter (k j : κ) (l : List (κ × α)) :
    getEntry j (l.filter (fun e => !decide (e.1 = k))) = if j = k then none else getEntry j l := by
  induction l with
  | nil => simp [getEntry]
  | cons e l ih =>
    by_cases he : e.1 = k
    · by_cases hj : j = k
      · subst hj
        simp [he,ih]
      · simp [he,ih,hj,getEntry,Ne.symm hj]
    · by_cases hj : j = k
      · subst hj
        simp [he,ih,getEntry]
      · simp [he,ih,hj,getEntry]

lemma get_erase (m : OrdMap κ α) (k j : κ) : (m.erase k).get j = if j = k then none else m.get j :=
  getEntry_filter k j m.entries

lemma getEntry_eq_some (h : l.Pairwise (fun x y => x.1 < y.1)) : getEntry k l = some v ↔ (k,v) ∈ l := by
  induction l with
  | nil => simp [getEntry]
  | cons e l ih =>
    obtain ⟨he,hl⟩ := pairwise_cons.1 h
    by_cases hk : e.1 = k
    · have ho : (k,v) ∉ l := fun hm => absurd (hk ▸ he _ hm) (lt_irrefl _)
      simp only [getEntry,hk,if_true,Option.some.injEq,mem_cons,ho,or_false]
      constructor
      · rintro rfl
        rw [← hk]
      · intro heq
        rw [← heq]
    · have hn : (k,v) ≠ e := by
        rintro rfl
        exact hk rfl
      simp [getEntry,hk,ih hl,hn]

lemma get_eq_some : m.get k = some v ↔ (k,v) ∈ m.entries :=
  getEntry_eq_some m.sorted

lemma mem_insert : x ∈ (m.insert k v).entries ↔ x = (k,v) ∨ x ∈ m.entries ∧ x.1 ≠ k := by
  obtain ⟨j,w⟩ := x
  rw [← get_eq_some,get_insert,← get_eq_some]
  by_cases hj : j = k
  · simp [hj,eq_comm]
  · simp [hj]

lemma mem_erase : x ∈ (m.erase k).entries ↔ x ∈ m.entries ∧ x.1 ≠ k := by
  simp [erase]

lemma mem_foldl_erase {ks : List κ} : x ∈ (ks.foldl erase m).entries ↔ x ∈ m.entries ∧ x.1 ∉ ks := by
  induction ks generalizing m with
  | nil => simp
  | cons k ks ih =>
    rw [foldl_cons,ih,mem_erase,mem_cons,not_or,and_assoc]

lemma mem_foldl_insert {key : α → κ} {vs : List α} (h : (vs.map key).Nodup) :
    x ∈ (vs.foldl (fun m v => m.insert (key v) v) m).entries ↔
      (∃ v ∈ vs, x = (key v,v)) ∨ x ∈ m.entries ∧ x.1 ∉ vs.map key := by
  induction vs generalizing m with
  | nil => simp
  | cons v vs ih =>
    obtain ⟨hv,hvs⟩ := nodup_cons.1 (map_cons ▸ h)
    rw [foldl_cons,ih hvs,mem_insert]
    constructor
    · rintro (⟨w,hw,rfl⟩ | ⟨rfl | ⟨hx,hn⟩,ho⟩)
      · exact .inl ⟨w,mem_cons_of_mem _ hw,rfl⟩
      · exact .inl ⟨v,mem_cons_self,rfl⟩
      · exact .inr ⟨hx,by simpa [hn] using ho⟩
    rintro (⟨w,hw,rfl⟩ | ⟨hx,ho⟩)
    · rcases mem_cons.1 hw with rfl | hw
      · exact .inr ⟨.inl rfl,hv⟩
      · exact .inl ⟨w,hw,rfl⟩
    · rw [map_cons,mem_cons,not_or] at ho
      exact .inr ⟨.inr ⟨hx,ho.1⟩,ho.2⟩

lemma getLast_filter_eq_some (h : l.Pairwise (fun x y => x.1 < y.1)) {p : κ × α → Bool} :
    (l.filter p).getLast? = some x ↔ x ∈ l ∧ p x = true ∧ ∀ y ∈ l, p y = true → y.1 ≤ x.1 := by
  have hs := h.filter p
  have hm : ∀ y, y ∈ l.filter p ↔ y ∈ l ∧ p y = true := fun y => mem_filter
  rw [← and_assoc,← hm]
  simp only [← and_imp,← hm]
  generalize l.filter p = q at *
  constructor
  · intro hl
    obtain ⟨ys,rfl⟩ := getLast?_eq_some_iff.1 hl
    refine ⟨by simp,fun y hy => ?_⟩
    rcases mem_append.1 hy with hy | hy
    · exact le_of_lt ((pairwise_append.1 hs).2.2 y hy x (by simp))
    · rw [mem_singleton.1 hy]
  · rintro ⟨hx,hma⟩
    cases hl : q.getLast? with
    | none => simp [getLast?_eq_none_iff.1 hl] at hx
    | some z =>
      obtain ⟨ys,rfl⟩ := getLast?_eq_some_iff.1 hl
      rcases mem_append.1 hx with hx | hx
      · exact absurd (hma z (by simp)) (not_le.2 ((pairwise_append.1 hs).2.2 x hx z (by simp)))
      · rw [mem_singleton.1 hx]

lemma floor_eq_some : m.floor k = some x ↔ x ∈ m.entries ∧ x.1 ≤ k ∧ ∀ y ∈ m.entries, y.1 ≤ k → y.1 ≤ x.1 := by
  rw [floor,getLast_filter_eq_some m.sorted]
  simp only [decide_eq_true_eq]

lemma below_eq_some : m.below k = some x ↔ x ∈ m.entries ∧ x.1 < k ∧ ∀ y ∈ m.entries, y.1 < k → y.1 ≤ x.1 := by
  rw [below,getLast_filter_eq_some m.sorted]
  simp only [decide_eq_true_eq]

lemma below_eq_none : m.below k = none ↔ ∀ x ∈ m.entries, k ≤ x.1 := by
  simp [below]

def filterMap (m : OrdMap κ α) (f : α → Option α) : OrdMap κ α :=
  ⟨m.entries.filterMap (fun e => (f e.2).map (fun v => (e.1,v))),by
    refine m.sorted.filterMap _ (fun x y hlt x' hx y' hy => ?_)
    simp only [Option.map_eq_some_iff] at hx hy
    obtain ⟨v,-,rfl⟩ := hx
    obtain ⟨w,-,rfl⟩ := hy
    exact hlt⟩

lemma get_filterMap {f : α → Option α} : (m.filterMap f).get k = (m.get k).bind f := by
  ext v
  rw [get_eq_some,Option.bind_eq_some_iff]
  simp only [filterMap,mem_filterMap,Option.map_eq_some_iff,Prod.mk.injEq]
  constructor
  · rintro ⟨⟨j,u⟩,hu,w,hw,rfl,rfl⟩
    exact ⟨u,get_eq_some.2 hu,hw⟩
  · rintro ⟨u,hu,hf⟩
    exact ⟨(k,u),get_eq_some.1 hu,v,hf,rfl,rfl⟩

lemma findKey_eq_some {p : α → Bool} :
    m.findKey p = some k ↔ (∃ v, m.get k = some v ∧ p v = true) ∧ ∀ j v, m.get j = some v → p v = true → k ≤ j := by
  simp only [findKey,Option.map_eq_some_iff,get_eq_some]
  constructor
  · rintro ⟨e,he,rfl⟩
    obtain ⟨hp,pre,post,hsp,hpr⟩ := find?_eq_some_iff_append.1 he
    refine ⟨⟨e.2,by rw [hsp]; simp,hp⟩,fun j v hj hv => ?_⟩
    have hs := m.sorted
    rw [hsp] at hj hs
    rcases mem_append.1 hj with hj|hj
    · exact absurd hv (by simpa using hpr _ hj)
    rcases mem_cons.1 hj with rfl|hj
    · exact le_refl _
    · exact le_of_lt ((pairwise_cons.1 (pairwise_append.1 hs).2.1).1 _ hj)
  rintro ⟨⟨v,hv,hp⟩,hm⟩
  cases hf : m.entries.find? (fun e => p e.2) with
  | none => exact absurd hp (by simpa using find?_eq_none.1 hf _ hv)
  | some e =>
    have hme := mem_of_find?_eq_some hf
    have hl := hm e.1 e.2 hme (by simpa using find?_some hf)
    refine ⟨e,rfl,?_⟩
    obtain ⟨-,pre,post,hsp,hpr⟩ := find?_eq_some_iff_append.1 hf
    have hs := m.sorted
    rw [hsp] at hv hs
    rcases mem_append.1 hv with hv|hv
    · exact absurd hp (by simpa using hpr _ hv)
    rcases mem_cons.1 hv with rfl|hv
    · rfl
    · exact absurd ((pairwise_cons.1 (pairwise_append.1 hs).2.1).1 _ hv) (not_lt.2 hl)

end OrdMap
end Vanta.Library
