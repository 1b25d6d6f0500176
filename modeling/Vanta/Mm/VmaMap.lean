import Mathlib.Order.MinMax
import Vanta.Mm.Vma

namespace Vanta.Mm
open Library Memory List OrdMap

def Vma.Meets (v : Vma) (start stop : Nat) : Prop := v.start < stop ∧ start < v.stop

instance (v : Vma) (start stop : Nat) : Decidable (v.Meets start stop) := inferInstanceAs (Decidable (_ ∧ _))

variable {v : Vma} {addr : Nat}

@[simp] lemma Vma.contains_iff : v.contains addr = true ↔ v.start ≤ addr ∧ addr < v.stop := by
  simp [Vma.contains]

def Vma.location (v : Vma) (addr : Nat) : VmaBacking :=
  match v.backing with
  | .anonymous => .anonymous
  | .fileBacked mountId inode offset fileSize shared =>
    .fileBacked mountId inode (offset+(addr-v.start)) fileSize shared
  | .deviceMmio physAddr => .deviceMmio (physAddr+(addr-v.start))

/-- The place behind the area can be moved up without passing the end of the 64 bits. -/
def VmaBacking.Advances (skipped : Nat) : VmaBacking → Prop
  | .anonymous => True
  | .fileBacked _ _ offset _ _ => offset+skipped < 2^64
  | .deviceMmio physAddr => physAddr+skipped < 2^64

variable {w : Vma}

namespace ProcessMemoryMap
variable (m : ProcessMemoryMap)

def areas : List Vma := m.vmas.entries.map (·.2)

/-- Every area is filed under its start, aligned and not empty, and no two have an address in common. -/
structure WellFormed (m : ProcessMemoryMap) : Prop where
  keyed : ∀ e ∈ m.vmas.entries, e.1 = e.2.start
  nonempty : ∀ v ∈ m.areas, v.start < v.stop
  aligned : ∀ v ∈ m.areas, v.start%pageSize = 0 ∧ v.stop%pageSize = 0
  apart : ∀ v ∈ m.areas, ∀ w ∈ m.areas, v.start < w.start → v.stop ≤ w.start

def flagsAt (addr : Nat) : Option VmaFlags := (m.findVma addr).map (·.flags)

def locationAt (addr : Nat) : Option VmaBacking := (m.findVma addr).map (·.location addr)

variable {m : ProcessMemoryMap}
variable {e : Nat × Vma} {start stop : Nat} {flags : VmaFlags}

section
variable (hm : m.WellFormed)
include hm

lemma WellFormed.mem_entries : e ∈ m.vmas.entries ↔ e.1 = e.2.start ∧ e.2 ∈ m.areas := by
  constructor
  · exact fun he => ⟨hm.keyed e he,mem_map_of_mem he⟩
  rintro ⟨hk,hv⟩
  obtain ⟨f,hf,hfe⟩ := mem_map.1 hv
  have hke : f.1 = e.1 := by rw [hm.keyed f hf,hfe,hk]
  rwa [← Prod.ext hke hfe]

lemma WellFormed.eq_of_common (hv : v ∈ m.areas) (hw : w ∈ m.areas)
    (h1 : v.start ≤ addr) (h2 : addr < v.stop) (h3 : w.start ≤ addr) (h4 : addr < w.stop) : v = w := by
  have he : v.start = w.start := by
    rcases Nat.lt_trichotomy v.start w.start with h | h | h
    · have := hm.apart v hv w hw h
      omega
    · exact h
    · have := hm.apart w hw v hv h
      omega
  have hg := get_eq_some.2 (hm.mem_entries.2 ⟨rfl,hv⟩ : (v.start,v) ∈ m.vmas.entries)
  have hgw := get_eq_some.2 (hm.mem_entries.2 ⟨he,hw⟩ : (v.start,w) ∈ m.vmas.entries)
  exact Option.some.inj (hg.symm.trans hgw)

lemma WellFormed.findVma_eq_some : m.findVma addr = some v ↔ v ∈ m.areas ∧ v.start ≤ addr ∧ addr < v.stop := by
  constructor
  · intro h
    simp only [findVma] at h
    split at h
    · simp at h
    rename_i key w hf
    obtain ⟨hme,-,-⟩ := floor_eq_some.1 hf
    split_ifs at h with hc
    obtain rfl : w = v := by simpa using h
    exact ⟨(hm.mem_entries.1 hme).2,Vma.contains_iff.1 hc⟩
  · rintro ⟨hv,hle,hl⟩
    have hf : m.vmas.floor addr = some (v.start,v) := by
      refine floor_eq_some.2 ⟨hm.mem_entries.2 ⟨rfl,hv⟩,hle,fun e he hea => ?_⟩
      obtain ⟨hk,hw⟩ := hm.mem_entries.1 he
      rcases Nat.lt_or_ge v.start e.1 with h | h
      · have := hm.apart v hv e.2 hw (hk ▸ h)
        omega
      · exact h
    simp [findVma,hf,Vma.contains_iff.2 ⟨hle,hl⟩]

lemma WellFormed.overlapsBelow_iff {start stop : Nat} :
    m.overlapsBelow start stop = true ↔ ∃ v ∈ m.areas, v.Meets start stop := by
  simp only [overlapsBelow]
  cases hb : m.vmas.below stop with
  | none =>
    simp only [Bool.false_eq_true,false_iff,not_exists,not_and]
    intro v hv hmeets
    have := below_eq_none.1 hb (v.start,v) (hm.mem_entries.2 ⟨rfl,hv⟩)
    exact absurd hmeets.1 (not_lt.2 this)
  | some e =>
    obtain ⟨he,hl,hma⟩ := below_eq_some.1 hb
    obtain ⟨hk,hp⟩ := hm.mem_entries.1 he
    simp only [gt_iff_lt,decide_eq_true_eq]
    constructor
    · exact fun h => ⟨e.2,hp,hk ▸ hl,h⟩
    rintro ⟨v,hv,hvs,hvt⟩
    have hle := hma (v.start,v) (hm.mem_entries.2 ⟨rfl,hv⟩) hvs
    rcases Nat.lt_or_ge v.start e.2.start with h | h
    · have := hm.apart v hv e.2 hp h
      have := hm.nonempty e.2 hp
      omega
    have heq : v.start = e.2.start := by
      omega
    have hpo := hm.nonempty v hv
    have hp' := hm.nonempty e.2 hp
    rwa [← hm.eq_of_common hv hp le_rfl hpo heq.ge (heq ▸ hp')]

lemma WellFormed.insertVma {m' : ProcessMemoryMap}
    {backing : VmaBacking} (h : m.insertVma start stop flags backing = some m') :
    m'.WellFormed ∧ (∀ v, v ∈ m'.areas ↔ v = ⟨start,stop,flags,backing⟩ ∨ v ∈ m.areas) ∧
      ∀ v ∈ m.areas, ¬v.Meets start stop := by
  simp only [ProcessMemoryMap.insertVma] at h
  split_ifs at h with har ho
  obtain ⟨hl,hs,ht⟩ : start < stop ∧ start%pageSize = 0 ∧ stop%pageSize = 0 := by
    push Not at har
    exact har
  have hf : ∀ v ∈ m.areas, ¬v.Meets start stop := fun v hv hmeets =>
    ho (hm.overlapsBelow_iff.2 ⟨v,hv,hmeets⟩)
  obtain rfl : {m with vmas := m.vmas.insert start ⟨start,stop,flags,backing⟩} = m' := by simpa using h
  have hme : ∀ e, e ∈ (m.vmas.insert start ⟨start,stop,flags,backing⟩).entries ↔
      e = (start,⟨start,stop,flags,backing⟩) ∨ e ∈ m.vmas.entries := by
    intro e
    rw [mem_insert]
    constructor
    · rintro (h | ⟨h,-⟩)
      · exact .inl h
      · exact .inr h
    rintro (h | h)
    · exact .inl h
    obtain ⟨hk,hv⟩ := hm.mem_entries.1 h
    refine .inr ⟨h,fun heq => hf e.2 hv ⟨?_,?_⟩⟩
    · omega
    · have := hm.nonempty e.2 hv
      omega
  have ha : ∀ v, v ∈ ({m with vmas := m.vmas.insert start ⟨start,stop,flags,backing⟩} :
      ProcessMemoryMap).areas ↔ v = ⟨start,stop,flags,backing⟩ ∨ v ∈ m.areas := by
    intro v
    simp only [areas,mem_map,hme]
    constructor
    · rintro ⟨e,rfl | he,rfl⟩
      · exact .inl rfl
      · exact .inr ⟨e,he,rfl⟩
    · rintro (rfl | ⟨e,he,rfl⟩)
      · exact ⟨_,.inl rfl,rfl⟩
      · exact ⟨e,.inr he,rfl⟩
  refine ⟨⟨fun e he => ?_,fun v hv => ?_,fun v hv => ?_,fun v hv w hw hvw => ?_⟩,ha,hf⟩
  · rcases (hme e).1 he with rfl | he
    · rfl
    · exact hm.keyed e he
  · rcases (ha v).1 hv with rfl | hv
    · exact hl
    · exact hm.nonempty v hv
  · rcases (ha v).1 hv with rfl | hv
    · exact ⟨hs,ht⟩
    · exact hm.aligned v hv
  rcases (ha v).1 hv with rfl | hv <;> rcases (ha w).1 hw with rfl | hw
  · exact absurd hvw (lt_irrefl _)
  · by_contra hl'
    exact hf w hw ⟨not_le.1 hl',lt_trans hvw (hm.nonempty w hw)⟩
  · by_contra hl'
    exact hf v hv ⟨lt_trans hvw hl,not_le.1 hl'⟩
  · exact hm.apart v hv w hw hvw

end

/-- The pieces lie in the area, in ascending order. -/
structure Splits (v : Vma) (pieces : List Vma) : Prop where
  inside : ∀ w ∈ pieces, v.start ≤ w.start ∧ w.start < w.stop ∧ w.stop ≤ v.stop
  aligned : ∀ w ∈ pieces, w.start%pageSize = 0 ∧ w.stop%pageSize = 0
  ordered : pieces.Pairwise (fun a b => a.stop ≤ b.start)

lemma Splits.apart {a b : Vma} {pieces : List Vma} (h : Splits v pieces) (ha : a ∈ pieces) (hb : b ∈ pieces)
    (hn : a ≠ b) : a.stop ≤ b.start ∨ b.stop ≤ a.start := by
  have : Std.Symm (fun a b : Vma => a.stop ≤ b.start ∨ b.stop ≤ a.start) := ⟨fun _ _ h => h.symm⟩
  exact (h.ordered.imp .inl : pieces.Pairwise (fun a b => a.stop ≤ b.start ∨ b.stop ≤ a.start)).forall ha hb hn

section Rebuild
variable {start stop : Nat} {pieces : Vma → List Vma}

lemma WellFormed.mem_affected (hm : m.WellFormed) : v ∈ m.affected start stop ↔ v ∈ m.areas ∧ v.Meets start stop := by
  simp only [affected,mem_map,mem_filter,Bool.and_eq_true,decide_eq_true_eq]
  constructor
  · rintro ⟨e,⟨he,hl,hg⟩,rfl⟩
    obtain ⟨hk,hv⟩ := hm.mem_entries.1 he
    exact ⟨hv,hk ▸ hl,hg⟩
  · rintro ⟨hv,hl,hg⟩
    exact ⟨(v.start,v),⟨hm.mem_entries.2 ⟨rfl,hv⟩,hl,hg⟩,rfl⟩

lemma WellFormed.affected_ordered (hm : m.WellFormed) :
    (m.affected start stop).Pairwise (fun v w => v.stop ≤ w.start) := by
  refine pairwise_map.2 (List.Pairwise.imp_of_mem (fun {e f} he hf hl => ?_) (m.vmas.sorted.filter _))
  obtain ⟨hk,hv⟩ := hm.mem_entries.1 (mem_filter.1 he).1
  obtain ⟨hj,hw⟩ := hm.mem_entries.1 (mem_filter.1 hf).1
  exact hm.apart e.2 hv f.2 hw (hk ▸ hj ▸ hl)

variable (hm : m.WellFormed) (hsplit : ∀ v ∈ m.areas, v.Meets start stop → Splits v (pieces v))
include hm hsplit

lemma WellFormed.pieces_ordered : ((m.affected start stop).flatMap pieces).Pairwise (fun v w => v.stop ≤ w.start) := by
  refine pairwise_flatMap.2 ⟨fun v hv => ?_,?_⟩
  · obtain ⟨hme,hmeets⟩ := hm.mem_affected.1 hv
    exact (hsplit v hme hmeets).ordered
  refine List.Pairwise.imp_of_mem (fun {v w} hv hw hle a ha b hb => ?_) hm.affected_ordered
  obtain ⟨hv,hvm⟩ := hm.mem_affected.1 hv
  obtain ⟨hw,hwm⟩ := hm.mem_affected.1 hw
  have h1 := (hsplit v hv hvm).inside a ha
  have h2 := (hsplit w hw hwm).inside b hb
  omega

variable {w : Vma}

lemma WellFormed.mem_pieces (hw : w ∈ (m.affected start stop).flatMap pieces) :
    ∃ v ∈ m.areas, v.Meets start stop ∧ w ∈ pieces v ∧ v.start ≤ w.start ∧ w.start < w.stop ∧ w.stop ≤ v.stop := by
  obtain ⟨v,hv,hwv⟩ := mem_flatMap.1 hw
  obtain ⟨hv,hmeets⟩ := hm.mem_affected.1 hv
  exact ⟨v,hv,hmeets,hwv,(hsplit v hv hmeets).inside w hwv⟩

lemma WellFormed.mem_rebuild_entries : e ∈ (m.rebuild start stop pieces).vmas.entries ↔ e.1 = e.2.start ∧
      (e.2 ∈ m.areas ∧ ¬e.2.Meets start stop ∨ ∃ v ∈ m.areas, v.Meets start stop ∧ e.2 ∈ pieces v) := by
  have hn : (((m.affected start stop).flatMap pieces).map Vma.start).Nodup := by
    refine pairwise_map.2 (List.Pairwise.imp_of_mem (fun {v w} hv _ hle => ?_)
      (hm.pieces_ordered hsplit))
    obtain ⟨_,_,_,_,_,hp,_⟩ := hm.mem_pieces hsplit hv
    omega
  have hke : ∀ e ∈ m.vmas.entries,
      e.1 ∈ (m.vmas.entries.filter (fun e => decide (e.1 < stop) && decide (e.2.stop > start))).map (·.1) ↔
        e.2.Meets start stop := by
    intro e he
    obtain ⟨hk,hv⟩ := hm.mem_entries.1 he
    simp only [mem_map,mem_filter,Bool.and_eq_true,decide_eq_true_eq]
    constructor
    · rintro ⟨f,⟨hf,hl,hg⟩,heq⟩
      obtain ⟨hj,hw⟩ := hm.mem_entries.1 hf
      have hfe : f.2 = e.2 := hm.eq_of_common hw hv hj.ge (hj ▸ hm.nonempty f.2 hw) (by omega)
        (by have := hm.nonempty e.2 hv; omega)
      exact hfe ▸ ⟨hj ▸ hl,hg⟩
    · exact fun hmeets => ⟨e,⟨he,hk ▸ hmeets.1,hmeets.2⟩,rfl⟩
  simp only [rebuild]
  rw [mem_foldl_insert hn,mem_foldl_erase]
  constructor
  · rintro (⟨w,hw,rfl⟩ | ⟨⟨he,ho⟩,-⟩)
    · obtain ⟨v,hv,hmeets,hwv,-⟩ := hm.mem_pieces hsplit hw
      exact ⟨rfl,.inr ⟨v,hv,hmeets,hwv⟩⟩
    · obtain ⟨hk,hv⟩ := hm.mem_entries.1 he
      exact ⟨hk,.inl ⟨hv,fun hmeets => ho ((hke e he).2 hmeets)⟩⟩
  rintro ⟨hk,⟨hv,hmeets⟩ | ⟨v,hv,hmeets,hwv⟩⟩
  · have he := hm.mem_entries.2 ⟨hk,hv⟩
    refine .inr ⟨⟨he,fun h => hmeets ((hke e he).1 h)⟩,fun h => ?_⟩
    -- A piece that starts where `e` does would make `e` an area of the range.
    obtain ⟨w,hw,hst⟩ := mem_map.1 h
    obtain ⟨v,hv',hvm,-,hi⟩ := hm.mem_pieces hsplit hw
    have hev : e.2 = v := hm.eq_of_common hv hv' hk.ge (hk ▸ hm.nonempty e.2 hv) (by omega) (by omega)
    exact hmeets (hev ▸ hvm)
  · refine .inl ⟨e.2,mem_flatMap.2 ⟨v,hm.mem_affected.2 ⟨hv,hmeets⟩,hwv⟩,?_⟩
    rw [← hk]

lemma WellFormed.mem_rebuild : w ∈ (m.rebuild start stop pieces).areas ↔
      w ∈ m.areas ∧ ¬w.Meets start stop ∨ ∃ v ∈ m.areas, v.Meets start stop ∧ w ∈ pieces v := by
  have hme := fun e => hm.mem_rebuild_entries hsplit (e := e)
  rw [areas,mem_map]
  constructor
  · rintro ⟨e,he,rfl⟩
    exact ((hme e).1 he).2
  · exact fun h => ⟨(w.start,w),(hme _).2 ⟨rfl,h⟩,rfl⟩

lemma WellFormed.rebuild_inside (hw : w ∈ (m.rebuild start stop pieces).areas) :
    ∃ v ∈ m.areas, v.start ≤ w.start ∧ w.start < w.stop ∧ w.stop ≤ v.stop ∧
      (w = v ∧ ¬v.Meets start stop ∨ v.Meets start stop ∧ w ∈ pieces v) := by
  rcases (hm.mem_rebuild hsplit).1 hw with ⟨hw,hmeets⟩ | ⟨v,hv,hmeets,hwv⟩
  · exact ⟨w,hw,le_rfl,hm.nonempty w hw,le_rfl,.inl ⟨rfl,hmeets⟩⟩
  · obtain ⟨h1,h2,h3⟩ := (hsplit v hv hmeets).inside w hwv
    exact ⟨v,hv,h1,h2,h3,.inr ⟨hmeets,hwv⟩⟩

lemma WellFormed.rebuild : (m.rebuild start stop pieces).WellFormed := by
  refine ⟨fun e he => ((hm.mem_rebuild_entries hsplit).1 he).1,fun w hw => ?_,fun w hw => ?_,
    fun a ha b hb hl => ?_⟩
  · obtain ⟨_,_,_,hp,_⟩ := hm.rebuild_inside hsplit hw
    exact hp
  · obtain ⟨v,hv,_,_,_,⟨rfl,_⟩ | ⟨hmeets,hwv⟩⟩ := hm.rebuild_inside hsplit hw
    · exact hm.aligned w hv
    · exact (hsplit v hv hmeets).aligned w hwv
  obtain ⟨v,hv,hva,_,hav,hc⟩ := hm.rebuild_inside hsplit ha
  obtain ⟨w,hw,hwb,_,hbw,hc'⟩ := hm.rebuild_inside hsplit hb
  rcases Nat.lt_trichotomy v.start w.start with h | h | h
  · have := hm.apart v hv w hw h
    omega
  · -- Both lie in one area: they are pieces of it, and its pieces are in order.
    obtain rfl : v = w := hm.eq_of_common hv hw le_rfl (hm.nonempty v hv) h.ge (h ▸ hm.nonempty w hw)
    rcases hc with ⟨rfl,hn⟩ | ⟨hmeets,ha'⟩
    · rcases hc' with ⟨rfl,_⟩ | ⟨hmeets,_⟩
      · exact absurd hl (lt_irrefl _)
      · exact absurd hmeets hn
    rcases hc' with ⟨_,hn⟩ | ⟨_,hbv⟩
    · exact absurd hmeets hn
    have hne : a ≠ b := fun h => by simp [h] at hl
    rcases (hsplit v hv hmeets).apart ha' hbv hne with h | h
    · exact h
    · omega
  · have := hm.apart w hw v hv h
    omega

lemma WellFormed.findVma_rebuild : (m.rebuild start stop pieces).findVma addr = some w ↔ ∃ v, m.findVma addr = some v ∧
      (v.Meets start stop ∧ w ∈ pieces v ∧ w.start ≤ addr ∧ addr < w.stop ∨ ¬v.Meets start stop ∧ w = v) := by
  rw [(hm.rebuild hsplit).findVma_eq_some,hm.mem_rebuild hsplit]
  constructor
  · rintro ⟨⟨hw,hmeets⟩ | ⟨v,hv,hmeets,hwv⟩,hle,hl⟩
    · exact ⟨w,hm.findVma_eq_some.2 ⟨hw,hle,hl⟩,.inr ⟨hmeets,rfl⟩⟩
    · obtain ⟨h1,-,h3⟩ := (hsplit v hv hmeets).inside w hwv
      exact ⟨v,hm.findVma_eq_some.2 ⟨hv,by omega,by omega⟩,.inl ⟨hmeets,hwv,hle,hl⟩⟩
  · rintro ⟨v,hv,⟨hmeets,hwv,hle,hl⟩ | ⟨hmeets,rfl⟩⟩
    · exact ⟨.inr ⟨v,(hm.findVma_eq_some.1 hv).1,hmeets,hwv⟩,hle,hl⟩
    · obtain ⟨hw,hle,hl⟩ := hm.findVma_eq_some.1 hv
      exact ⟨.inl ⟨hw,hmeets⟩,hle,hl⟩

end Rebuild

lemma mem_removePieces : w ∈ removePieces start stop v ↔ v.start < start ∧ w = ⟨v.start,start,v.flags,v.backing⟩ ∨
      stop < v.stop ∧ w = ⟨stop,v.stop,v.flags,v.backing.advance (stop-v.start)⟩ := by
  simp only [removePieces,mem_append]
  split_ifs <;> simp [*]

lemma mem_protectPieces :
    w ∈ protectPieces start stop flags v ↔ v.start < start ∧ w = ⟨v.start,start,v.flags,v.backing⟩ ∨
      max v.start start < min v.stop stop ∧
        w = ⟨max v.start start,min v.stop stop,protectFlags v.flags flags,v.backing⟩ ∨
      stop < v.stop ∧ w = ⟨stop,v.stop,v.flags,v.backing⟩ := by
  simp only [protectPieces,mem_append]
  split_ifs <;> simp [*,or_assoc]

section Pieces
variable {start stop : Nat} (hle : start ≤ stop) (hs : start%pageSize = 0) (ht : stop%pageSize = 0) {v : Vma}
  (hv : v.start%pageSize = 0 ∧ v.stop%pageSize = 0) (hmeets : v.Meets start stop)
include hle hs ht hv hmeets

lemma removePieces_splits : Splits v (removePieces start stop v) := by
  obtain ⟨h1,h2⟩ := hmeets
  refine ⟨fun w hw => ?_,fun w hw => ?_,?_⟩
  · rcases mem_removePieces.1 hw with ⟨h,rfl⟩ | ⟨h,rfl⟩
    · exact ⟨le_rfl,h,h2.le⟩
    · exact ⟨h1.le,h,le_rfl⟩
  · rcases mem_removePieces.1 hw with ⟨h,rfl⟩ | ⟨h,rfl⟩
    · exact ⟨hv.1,hs⟩
    · exact ⟨ht,hv.2⟩
  · simp only [removePieces]
    split_ifs <;> simp [hle]

lemma protectPieces_splits (flags : VmaFlags) : Splits v (protectPieces start stop flags v) := by
  obtain ⟨h1,h2⟩ := hmeets
  refine ⟨fun w hw => ?_,fun w hw => ?_,?_⟩
  · rcases mem_protectPieces.1 hw with ⟨h,rfl⟩ | ⟨h,rfl⟩ | ⟨h,rfl⟩
    · exact ⟨le_rfl,h,h2.le⟩
    · exact ⟨le_max_left _ _,h,min_le_left _ _⟩
    · exact ⟨h1.le,h,le_rfl⟩
  · rcases mem_protectPieces.1 hw with ⟨h,rfl⟩ | ⟨h,rfl⟩ | ⟨h,rfl⟩
    · exact ⟨hv.1,hs⟩
    · refine ⟨?_,?_⟩
      · rcases max_choice v.start start with h | h
        · simpa [h] using hv.1
        · simpa [h] using hs
      · rcases min_choice v.stop stop with h | h
        · simpa [h] using hv.2
        · simpa [h] using ht
    · exact ⟨ht,hv.2⟩
  · simp only [protectPieces]
    split_ifs <;> simp [hle]

end Pieces
end ProcessMemoryMap
open ProcessMemoryMap

/-- The two ways in which the map of areas is cut at a range. -/
inductive AreaEdit where
  | remove
  | protect (flags : VmaFlags)
  deriving DecidableEq

namespace AreaEdit

def pieces (start stop : Nat) : AreaEdit → Vma → List Vma
  | .remove => removePieces start stop
  | .protect flags => protectPieces start stop flags

variable (m : ProcessMemoryMap)

def apply (start stop : Nat) : AreaEdit → ProcessMemoryMap
  | .remove => m.removeVmaRange start stop
  | .protect flags => m.protectVmaRange start stop flags

/-- A tail that stays can be rebased, and the range cuts through no area whose pieces would have to be and are not. -/
def Keeps (start stop : Nat) : AreaEdit → Prop
  | .remove => ∀ v ∈ m.areas, v.Meets start stop → stop < v.stop → v.backing.Advances (stop-v.start)
  | .protect _ => ∀ v ∈ m.areas, v.Meets start stop → v.backing = .anonymous ∨ start ≤ v.start ∧ v.stop ≤ stop

lemma apply_eq (edit : AreaEdit) (m : ProcessMemoryMap) (start stop : Nat) :
    edit.apply m start stop = m.rebuild start stop (edit.pieces start stop) := by
  cases edit <;> rfl

section Range
variable {edit : AreaEdit} {m : ProcessMemoryMap} {start stop : Nat} (hm : m.WellFormed) (hle : start ≤ stop)
  (hs : start%pageSize = 0) (ht : stop%pageSize = 0)

include hm hle hs ht in
lemma splits (v : Vma) (hv : v ∈ m.areas) (hmeets : v.Meets start stop) : Splits v (edit.pieces start stop v) := by
  cases edit with
  | remove => exact removePieces_splits hle hs ht (hm.aligned v hv) hmeets
  | protect flags => exact protectPieces_splits hle hs ht (hm.aligned v hv) hmeets flags

variable {addr : Nat} {v : Vma}

/-- A piece that starts later is rebased right exactly if nothing wraps. -/
lemma location_advance_iff {skipped : Nat} (ha : v.start+skipped ≤ addr) :
    (⟨v.start+skipped,v.stop,v.flags,v.backing.advance skipped⟩ : Vma).location addr = v.location addr ↔
      v.backing.Advances skipped := by
  obtain ⟨first,last,rights,backing⟩ := v
  have hsu : ∀ base, (base+skipped)%2^64+(addr-(first+skipped)) = base+(addr-first) ↔ base+skipped < 2^64 := by
    intro base
    simp only at ha
    omega
  cases backing with
  | anonymous => simp [Vma.location,VmaBacking.advance,VmaBacking.Advances]
  | fileBacked mountId inode offset fileSize shared =>
    simpa [Vma.location,VmaBacking.advance,VmaBacking.Advances] using hsu offset
  | deviceMmio physAddr => simpa [Vma.location,VmaBacking.advance,VmaBacking.Advances] using hsu physAddr

/-- A piece that starts later and is not rebased stands for another place. -/
lemma location_unmoved {first last : Nat} {flags : VmaFlags} (hf : v.start < first)
    (h : (⟨first,last,flags,v.backing⟩ : Vma).location first = v.location first) : v.backing = .anonymous := by
  cases hb : v.backing with
  | anonymous => rfl
  | fileBacked mountId inode offset fileSize shared =>
    simp only [Vma.location,hb,VmaBacking.fileBacked.injEq] at h
    omega
  | deviceMmio physAddr =>
    simp only [Vma.location,hb,VmaBacking.deviceMmio.injEq] at h
    omega

lemma location_piece (hk : edit.Keeps m start stop) (hv : v ∈ m.areas)
    (hmeets : v.Meets start stop) (hw : w ∈ edit.pieces start stop v) (h1 : w.start ≤ addr) :
    w.location addr = v.location addr := by
  cases edit with
  | remove =>
    rcases mem_removePieces.1 hw with ⟨-,rfl⟩ | ⟨hl,rfl⟩
    · rfl
    have hsto : v.start+(stop-v.start) = stop := by
      have := hmeets.1
      omega
    have h := (location_advance_iff (hsto.symm ▸ h1)).2 (hk v hv hmeets hl)
    rwa [hsto] at h
  | protect flags =>
    have hba : w.backing = v.backing ∧ (v.backing = .anonymous ∨ w.start = v.start) := by
      rcases mem_protectPieces.1 hw with ⟨h,rfl⟩ | ⟨h,rfl⟩ | ⟨h,rfl⟩
      · exact ⟨rfl,.inr rfl⟩
      · exact ⟨rfl,(hk v hv hmeets).imp id (fun h => max_eq_left h.1)⟩
      · exact ⟨rfl,(hk v hv hmeets).imp id (fun h' => absurd h'.2 (not_le.2 h))⟩
    rcases hba with ⟨hb,ha | hst⟩
    · simp [Vma.location,hb,ha]
    · simp [Vma.location,hb,hst]

lemma flags_piece (hw : w ∈ edit.pieces start stop v) (h1 : w.start ≤ addr)
    (h2 : addr < w.stop) (ho : ¬(start ≤ addr ∧ addr < stop)) : w.flags = v.flags := by
  cases edit with
  | remove =>
    rcases mem_removePieces.1 hw with ⟨-,rfl⟩ | ⟨-,rfl⟩ <;> rfl
  | protect flags =>
    rcases mem_protectPieces.1 hw with ⟨-,rfl⟩ | ⟨-,rfl⟩ | ⟨-,rfl⟩
    · rfl
    · simp only [max_le_iff,lt_min_iff] at h1 h2
      exact absurd ⟨h1.2,h2.2⟩ ho
    · rfl

lemma covered_piece (h1 : v.start ≤ addr) (h2 : addr < v.stop) :
    (∃ w ∈ edit.pieces start stop v, w.start ≤ addr ∧ addr < w.stop) ↔
      ¬(edit = .remove ∧ start ≤ addr ∧ addr < stop) := by
  cases edit with
  | remove =>
    simp only [pieces,mem_removePieces,true_and]
    constructor
    · rintro ⟨w,⟨-,rfl⟩ | ⟨-,rfl⟩,h3,h4⟩
      · simp only at h4
        omega
      · simp only at h3
        omega
    · intro ho
      rcases Nat.lt_or_ge addr start with h | h
      · exact ⟨_,.inl ⟨by omega,rfl⟩,h1,h⟩
      · exact ⟨_,.inr ⟨by omega,rfl⟩,by simp only; omega,h2⟩
  | protect flags =>
    simp only [pieces,mem_protectPieces,reduceCtorEq,false_and,not_false_iff,iff_true]
    by_cases hl : addr < start
    · exact ⟨_,.inl ⟨by omega,rfl⟩,h1,hl⟩
    by_cases hh : stop ≤ addr
    · exact ⟨_,.inr (.inr ⟨by omega,rfl⟩),hh,h2⟩
    refine ⟨_,.inr (.inl ⟨?_,rfl⟩),?_,?_⟩
    · rw [lt_min_iff,max_lt_iff,max_lt_iff]
      omega
    · exact max_le h1 (not_lt.1 hl)
    · exact lt_min h2 (not_le.1 hh)

end Range
variable {edit : AreaEdit} {m : ProcessMemoryMap} {start stop : Nat}
section
variable (hm : m.WellFormed) (hle : start ≤ stop) (hs : start%pageSize = 0) (ht : stop%pageSize = 0)
include hm hle hs ht

lemma wellFormed : (edit.apply m start stop).WellFormed :=
  edit.apply_eq m start stop ▸ hm.rebuild (splits hm hle hs ht)

lemma findVma_apply : (edit.apply m start stop).findVma addr = some w ↔ ∃ v, m.findVma addr = some v ∧
      (v.Meets start stop ∧ w ∈ edit.pieces start stop v ∧ w.start ≤ addr ∧ addr < w.stop ∨
        ¬v.Meets start stop ∧ w = v) :=
  edit.apply_eq m start stop ▸ hm.findVma_rebuild (splits hm hle hs ht)

lemma isSome_apply (addr : Nat) : ((edit.apply m start stop).findVma addr).isSome ↔
      (m.findVma addr).isSome ∧ ¬(edit = .remove ∧ start ≤ addr ∧ addr < stop) := by
  simp only [Option.isSome_iff_exists,findVma_apply hm hle hs ht]
  constructor
  · rintro ⟨w,v,hv,⟨-,hw,h1,h2⟩ | ⟨hmeets,rfl⟩⟩
    · obtain ⟨-,hv1,hv2⟩ := hm.findVma_eq_some.1 hv
      exact ⟨⟨v,hv⟩,(covered_piece hv1 hv2).1 ⟨w,hw,h1,h2⟩⟩
    · obtain ⟨-,hv1,hv2⟩ := hm.findVma_eq_some.1 hv
      exact ⟨⟨w,hv⟩,fun h => hmeets ⟨by omega,by omega⟩⟩
  · rintro ⟨⟨v,hv⟩,ho⟩
    obtain ⟨-,hv1,hv2⟩ := hm.findVma_eq_some.1 hv
    by_cases hmeets : v.Meets start stop
    · obtain ⟨w,hw,h1,h2⟩ := (covered_piece hv1 hv2).2 ho
      exact ⟨w,v,hv,.inl ⟨hmeets,hw,h1,h2⟩⟩
    · exact ⟨v,v,hv,.inr ⟨hmeets,rfl⟩⟩

/-- A piece stands for what its area stood for. -/
def PieceKept (edit : AreaEdit) (m : ProcessMemoryMap) (start stop : Nat) : Prop :=
  ∀ v ∈ m.areas, v.Meets start stop → ∀ w ∈ edit.pieces start stop v, w.location w.start = v.location w.start

lemma pieceKept_of_location (h : ∀ addr, ((edit.apply m start stop).findVma addr).isSome →
    (edit.apply m start stop).locationAt addr = m.locationAt addr) : edit.PieceKept m start stop := by
  intro v hv hmeets w hw
  obtain ⟨h1,h2,h3⟩ := (splits hm hle hs ht v hv hmeets).inside w hw
  have hold : m.findVma w.start = some v := hm.findVma_eq_some.2 ⟨hv,h1,by omega⟩
  have hnew : (edit.apply m start stop).findVma w.start = some w :=
    (findVma_apply hm hle hs ht).2 ⟨v,hold,.inl ⟨hmeets,hw,Nat.le_refl _,h2⟩⟩
  simpa [locationAt,hold,hnew] using h w.start (by simp [hnew])

omit hm hle hs ht in
lemma keeps_of_pieceKept (h : edit.PieceKept m start stop) : edit.Keeps m start stop := by
  cases edit with
  | remove =>
    intro v hv hmeets hl
    have hsto : v.start+(stop-v.start) = stop := by
      have := hmeets.1
      omega
    have hp := h v hv hmeets _ (mem_removePieces.2 (.inr ⟨hl,rfl⟩))
    have hl : (⟨v.start+(stop-v.start),v.stop,v.flags,v.backing.advance (stop-v.start)⟩ : Vma).location stop =
        v.location stop := by rwa [hsto]
    exact (location_advance_iff hsto.le).1 hl
  | protect flags =>
    intro v hv hmeets
    have hp := fun w hw => h v hv hmeets w (mem_protectPieces.2 hw)
    by_cases hsv : start ≤ v.start
    · by_cases hvs : v.stop ≤ stop
      · exact .inr ⟨hsv,hvs⟩
      · exact .inl (location_unmoved hmeets.1 (hp _ (.inr (.inr ⟨not_le.1 hvs,rfl⟩))))
    · by_cases hvs : v.stop ≤ stop
      · have hmax : max v.start start = start := max_eq_right (not_le.1 hsv).le
        have hlt : max v.start start < min v.stop stop := by
          rw [hmax,lt_min_iff]
          have := hmeets.2
          omega
        have := hp _ (.inr (.inl ⟨hlt,rfl⟩))
        rw [hmax] at this
        exact .inl (location_unmoved (not_le.1 hsv) this)
      · exact .inl (location_unmoved hmeets.1 (hp _ (.inr (.inr ⟨not_le.1 hvs,rfl⟩))))

end
end AreaEdit

/-- Cutting the map at a range leaves the rights outside it as they were and removes the range and nothing else; every
backing place stays exactly if no piece has to be rebased in vain. -/
theorem area_edits_keep_backing (m : ProcessMemoryMap) (edit : AreaEdit) (start stop : Nat) (hm : m.WellFormed)
    (hle : start ≤ stop) (hs : start%pageSize = 0) (ht : stop%pageSize = 0) :
    (∀ addr, ¬(start ≤ addr ∧ addr < stop) → (edit.apply m start stop).flagsAt addr = m.flagsAt addr) ∧
      ((∀ addr, ((edit.apply m start stop).findVma addr).isSome →
        (edit.apply m start stop).locationAt addr = m.locationAt addr) ↔ edit.Keeps m start stop) ∧
      (∀ addr, ((edit.apply m start stop).findVma addr).isSome ↔
        (m.findVma addr).isSome ∧ ¬(edit = .remove ∧ start ≤ addr ∧ addr < stop)) := by
  have hc : ∀ addr, ((edit.apply m start stop).findVma addr).isSome ↔
      (m.findVma addr).isSome ∧ ¬(edit = .remove ∧ start ≤ addr ∧ addr < stop) :=
    AreaEdit.isSome_apply hm hle hs ht
  refine ⟨fun addr ho => ?_,⟨fun h => ?_,fun hkeep addr hso => ?_⟩,hc⟩
  · cases ha : (edit.apply m start stop).findVma addr with
    | none =>
      have hb : m.findVma addr = none := by
        by_contra hn
        have := (hc addr).2 ⟨Option.isSome_iff_ne_none.2 hn,fun h => ho h.2⟩
        simp [ha] at this
      simp [flagsAt,ha,hb]
    | some w =>
      obtain ⟨v,hv,⟨-,hw,h1,h2⟩ | ⟨-,rfl⟩⟩ := (AreaEdit.findVma_apply hm hle hs ht).1 ha
      · simp [flagsAt,ha,hv,AreaEdit.flags_piece hw h1 h2 ho]
      · simp [flagsAt,ha,hv]
  · exact AreaEdit.keeps_of_pieceKept (AreaEdit.pieceKept_of_location hm hle hs ht h)
  · obtain ⟨w,ha⟩ := Option.isSome_iff_exists.1 hso
    obtain ⟨v,hv,⟨hmeets,hw,h1,-⟩ | ⟨-,rfl⟩⟩ := (AreaEdit.findVma_apply hm hle hs ht).1 ha
    · simp [locationAt,ha,hv,AreaEdit.location_piece hkeep (hm.findVma_eq_some.1 hv).1 hmeets hw h1]
    · simp [locationAt,ha,hv]

def twoPageMap : ProcessMemoryMap :=
  {ProcessMemoryMap.new 0x8000 0x7000 with
    vmas := OrdMap.empty.insert 0x1000 ⟨0x1000,0x3000,vmaRead ||| vmaWrite,.fileBacked 1 2 0 0x2000 true⟩}

lemma twoPageMap_wellFormed : twoPageMap.WellFormed :=
  ⟨by decide,by decide,by decide,by decide⟩

theorem area_edits_keep_backing_of_tail : (AreaEdit.remove.apply twoPageMap 0x1000 0x2000).locationAt 0x2004 =
      some (.fileBacked 1 2 0x1004 0x2000 true) := by
  have h := (area_edits_keep_backing twoPageMap .remove 0x1000 0x2000 twoPageMap_wellFormed (by decide) (by decide)
    (by decide)).2.1.2 (fun v hv _ _ => by
      obtain rfl : v = ⟨0x1000,0x3000,vmaRead ||| vmaWrite,.fileBacked 1 2 0 0x2000 true⟩ := by
        simpa [twoPageMap,ProcessMemoryMap.areas,OrdMap.insert,OrdMap.insertEntry,OrdMap.empty] using hv
      simp [VmaBacking.Advances]) 0x2004 (by decide)
  exact h.trans (by decide)

/-- Protecting the second page of the area makes its addresses stand for the first page of the file. -/
theorem protect_moves_backing : twoPageMap.WellFormed ∧
    twoPageMap.locationAt 0x2000 = some (.fileBacked 1 2 0x1000 0x2000 true) ∧
    (twoPageMap.protectVmaRange 0x2000 0x3000 vmaRead).locationAt 0x2000 = some (.fileBacked 1 2 0 0x2000 true) :=
  ⟨twoPageMap_wellFormed,by decide,by decide⟩

end Vanta.Mm
