import Vanta.Mm.VmaMap

namespace Vanta.Mm
open Library Memory OrdMap ProcessMemoryMap
variable {v : Vma} {flags : VmaFlags}

namespace ProcessMemoryMap

/-- Every area can be read, and the stack can be written. -/
structure Open (m : ProcessMemoryMap) : Prop where
  readable : ∀ v ∈ m.areas, grants v.flags vmaRead = true
  stack : ∀ v ∈ m.areas, grants v.flags vmaStack = true → grants v.flags vmaWrite = true

def SameFlags (m m' : ProcessMemoryMap) : Prop :=
  ∀ addr v, m.findVma addr = some v → ∃ w, m'.findVma addr = some w ∧ w.flags = v.flags

section
variable {m m' : ProcessMemoryMap} {addr start stop : Nat}

lemma SameFlags.refl (m : ProcessMemoryMap) : SameFlags m m := fun _ v h => ⟨v,h,rfl⟩

lemma SameFlags.of_vmas (h : m'.vmas = m.vmas) : SameFlags m m' := by
  intro addr v hv
  refine ⟨v,?_,rfl⟩
  rwa [findVma,h]

lemma WellFormed.findVma_page (hm : m.WellFormed) (h : m.findVma addr = some v) :
    m.findVma (addr/pageSize*pageSize) = some v := by
  obtain ⟨hme,hl,hh⟩ := hm.findVma_eq_some.1 h
  obtain ⟨hst,hsto⟩ := hm.aligned v hme
  simp only [pageSize] at hst hsto ⊢
  exact hm.findVma_eq_some.2 ⟨hme,by omega,by omega⟩

variable {backing : VmaBacking}

lemma WellFormed.insertVma_flags (hm : m.WellFormed)
    (h : m.insertVma start stop flags backing = some m') : SameFlags m m' := by
  obtain ⟨hm',ha,-⟩ := hm.insertVma h
  intro addr v hv
  obtain ⟨hme,hi⟩ := hm.findVma_eq_some.1 hv
  exact ⟨v,hm'.findVma_eq_some.2 ⟨(ha v).2 (.inr hme),hi⟩,rfl⟩

lemma Open.insertVma (h : m.Open) (hm : m.WellFormed)
    (hi : m.insertVma start stop flags backing = some m') (hr : grants flags vmaRead = true)
    (hst : grants flags vmaStack = false) : m'.Open := by
  obtain ⟨-,ha,-⟩ := hm.insertVma hi
  refine ⟨fun v hv => ?_,fun v hv hf => ?_⟩
  · rcases (ha v).1 hv with rfl | hv
    · exact hr
    · exact h.readable v hv
  · rcases (ha v).1 hv with rfl | hv
    · simp [hst] at hf
    · exact h.stack v hv hf

end
end ProcessMemoryMap
namespace AreaEdit
section
variable {m : ProcessMemoryMap} {start stop addr : Nat} (edit : AreaEdit)
section
variable (hm : m.WellFormed) (hle : start ≤ stop) (hs : start%pageSize = 0) (ht : stop%pageSize = 0)
include hm hle hs ht

lemma flags_outside (hv : m.findVma addr = some v) (ho : ¬(start ≤ addr ∧ addr < stop)) :
    ∃ w, (edit.apply m start stop).findVma addr = some w ∧ w.flags = v.flags := by
  have hso := (edit.isSome_apply hm hle hs ht addr).2 ⟨by simp [hv],fun h => ho h.2⟩
  obtain ⟨w,hw⟩ := Option.isSome_iff_exists.1 hso
  obtain ⟨v',hv',hp⟩ := (edit.findVma_apply hm hle hs ht).1 hw
  rw [hv] at hv'
  cases hv'
  refine ⟨w,hw,?_⟩
  rcases hp with ⟨-,hp,hl,hh⟩ | ⟨-,rfl⟩
  · exact edit.flags_piece hp hl hh ho
  · rfl

lemma protect_inside (hv : m.findVma addr = some v) (hi : start ≤ addr ∧ addr < stop) :
    ∃ w, (m.protectVmaRange start stop flags).findVma addr = some w ∧
      w.flags = ProcessMemoryMap.protectFlags v.flags flags := by
  have hso := ((AreaEdit.protect flags).isSome_apply hm hle hs ht addr).2 ⟨by simp [hv],fun h => by cases h.1⟩
  obtain ⟨w,hw⟩ := Option.isSome_iff_exists.1 hso
  obtain ⟨v',hv',hp⟩ := ((AreaEdit.protect flags).findVma_apply hm hle hs ht).1 hw
  rw [hv] at hv'
  cases hv'
  obtain ⟨-,hl,hh⟩ := hm.findVma_eq_some.1 hv
  have hme : v.Meets start stop := ⟨by omega,by omega⟩
  refine ⟨w,hw,?_⟩
  rcases hp with ⟨-,hp,hwl,hwh⟩ | ⟨hn,-⟩
  · rcases mem_protectPieces.1 hp with ⟨-,rfl⟩ | ⟨-,rfl⟩ | ⟨-,rfl⟩
    · simp only at hwh
      omega
    · rfl
    · simp only at hwl
      omega
  · exact absurd hme hn

lemma flags_of_mem {w : Vma} (hw : w ∈ (edit.apply m start stop).areas) : ∃ v ∈ m.areas, w.flags = v.flags ∨
      v.Meets start stop ∧ ∃ flags, edit = .protect flags ∧ w.flags = ProcessMemoryMap.protectFlags v.flags flags := by
  have hm' := edit.wellFormed hm hle hs ht
  have hf := hm'.findVma_eq_some.2 ⟨hw,le_refl _,hm'.nonempty w hw⟩
  obtain ⟨v,hv,hp⟩ := (edit.findVma_apply hm hle hs ht).1 hf
  refine ⟨v,(hm.findVma_eq_some.1 hv).1,?_⟩
  rcases hp with ⟨hme,hp,-,-⟩ | ⟨-,rfl⟩
  · cases edit with
    | remove =>
      rcases mem_removePieces.1 hp with ⟨-,rfl⟩ | ⟨-,rfl⟩ <;> exact .inl rfl
    | protect flags =>
      rcases mem_protectPieces.1 hp with ⟨-,rfl⟩ | ⟨-,rfl⟩ | ⟨-,rfl⟩
      · exact .inl rfl
      · exact .inr ⟨hme,flags,rfl,rfl⟩
      · exact .inl rfl
  · exact .inl rfl

end
end
end AreaEdit
namespace ProcessMemoryMap
section
variable {m m' : ProcessMemoryMap} {addr start stop : Nat}
section
variable (h : m.Open) (hm : m.WellFormed) (hle : start ≤ stop) (hs : start%pageSize = 0)
  (ht : stop%pageSize = 0)

include h hm hle hs ht

lemma Open.remove : (m.removeVmaRange start stop).Open := by
  have hf {w : Vma} (hw : w ∈ (m.removeVmaRange start stop).areas) : ∃ v ∈ m.areas, w.flags = v.flags := by
    obtain ⟨v,hv,heq | ⟨-,flags,he,-⟩⟩ := AreaEdit.remove.flags_of_mem hm hle hs ht hw
    · exact ⟨v,hv,heq⟩
    · cases he
  refine ⟨fun w hw => ?_,fun w hw => ?_⟩
  · obtain ⟨v,hv,heq⟩ := hf hw
    rw [heq]
    exact h.readable v hv
  · obtain ⟨v,hv,heq⟩ := hf hw
    rw [heq]
    exact h.stack v hv

lemma Open.protect (hr : ∀ old, grants (protectFlags old flags) vmaRead = true)
    (hst : ∀ v ∈ m.areas, v.Meets start stop → grants (protectFlags v.flags flags) vmaStack = true →
      grants (protectFlags v.flags flags) vmaWrite = true) : (m.protectVmaRange start stop flags).Open := by
  have hf {w : Vma} (hw : w ∈ (m.protectVmaRange start stop flags).areas) : ∃ v ∈ m.areas,
      w.flags = v.flags ∨ v.Meets start stop ∧ w.flags = protectFlags v.flags flags := by
    obtain ⟨v,hv,heq | ⟨hme,flags',he,heq⟩⟩ := (AreaEdit.protect flags).flags_of_mem hm hle hs ht hw
    · exact ⟨v,hv,.inl heq⟩
    · cases he
      exact ⟨v,hv,.inr ⟨hme,heq⟩⟩
  refine ⟨fun w hw => ?_,fun w hw => ?_⟩
  · obtain ⟨v,hv,heq | ⟨-,heq⟩⟩ := hf hw
    · rw [heq]
      exact h.readable v hv
    · rw [heq]
      exact hr _
  · obtain ⟨v,hv,heq | ⟨hme,heq⟩⟩ := hf hw
    · rw [heq]
      exact h.stack v hv
    · rw [heq]
      exact hst v hv hme

end

lemma alignDown_le (addr : Nat) : alignDown addr ≤ addr ∧ alignDown addr%pageSize = 0 := by
  simp only [alignDown,pageSize]
  omega

/-- The stack grows down to the page of `addr`: nothing else is between there and its end. -/
structure StackGrows (m : ProcessMemoryMap) (addr : Nat) (stack : Vma) (m' : ProcessMemoryMap) : Prop where
  mem : stack ∈ m.areas
  flag : grants stack.flags vmaStack = true
  below : alignDown addr < stack.start
  bottom : m.stackBottom ≤ alignDown addr
  free : ∀ w ∈ m.areas, w ≠ stack → w.stop ≤ alignDown addr ∨ stack.stop ≤ w.start
  eq : m' = {m with vmas := (m.vmas.erase stack.start).insert (alignDown addr) {stack with start := alignDown addr}}

lemma WellFormed.growStackTo (hm : m.WellFormed) (hgrow : m.growStackTo addr = some m') :
    m' = m ∧ m.canGrowStack addr = false ∨ ∃ stack, m.StackGrows addr stack m' := by
  cases hf : m.findStackVma with
  | none => simp [ProcessMemoryMap.growStackTo,hf] at hgrow
  | some entry =>
    obtain ⟨key,stack⟩ := entry
    have he : (key,stack) ∈ m.vmas.entries := List.mem_of_find?_eq_some hf
    have hfl : grants stack.flags vmaStack = true := by simpa using List.find?_some hf
    have hk : key = stack.start := hm.keyed _ he
    have hme : stack ∈ m.areas := List.mem_map.2 ⟨_,he,rfl⟩
    have ho {w : Vma} (hw : w ∈ m.areas) (hne : w ≠ stack) : w.start < stack.start ∨ stack.stop ≤ w.start := by
      rcases Nat.lt_trichotomy w.start stack.start with h | h | h
      · exact .inl h
      · refine absurd (hm.eq_of_common hw hme (le_refl _) (hm.nonempty w hw) (by omega) ?_) hne
        have := hm.nonempty stack hme
        omega
      · exact .inr (hm.apart stack hme w hw h)
    simp only [ProcessMemoryMap.growStackTo,hf] at hgrow
    split_ifs at hgrow with hb hst
    · have hn : ¬addr < stack.start := by
        have := (alignDown_le addr).1
        omega
      exact .inl ⟨(Option.some.inj hgrow).symm,by simp [canGrowStack,hf,hn]⟩
    subst hk
    cases hpr : (m.vmas.erase stack.start).below stack.start with
    | none =>
      simp only [hpr,Option.some.injEq] at hgrow
      refine .inr ⟨stack,hme,hfl,by omega,by omega,fun w hw hne => ?_,hgrow.symm⟩
      refine (ho hw hne).resolve_left (fun hl => ?_) |> .inr
      have hle := below_eq_none.1 hpr (w.start,w)
        (mem_erase.2 ⟨hm.mem_entries.2 ⟨rfl,hw⟩,by simp only; omega⟩)
      omega
    | some entry =>
      obtain ⟨pkey,prev⟩ := entry
      simp only [hpr] at hgrow
      split_ifs at hgrow with hov
      simp only [Option.some.injEq] at hgrow
      refine .inr ⟨stack,hme,hfl,by omega,by omega,fun w hw hne => ?_,hgrow.symm⟩
      refine (ho hw hne).imp_left (fun hl => ?_)
      obtain ⟨hi,-,hma⟩ := below_eq_some.1 hpr
      obtain ⟨hpk,hp⟩ := hm.mem_entries.1 (mem_erase.1 hi).1
      have hle := hma (w.start,w) (mem_erase.2 ⟨hm.mem_entries.2 ⟨rfl,hw⟩,by simp only; omega⟩) hl
      simp only at hle hpk hp
      rcases Nat.lt_or_ge w.start prev.start with h | h
      · have := hm.apart w hw prev hp h
        have := hm.nonempty prev hp
        omega
      have hsa : w = prev := by
        refine hm.eq_of_common hw hp (le_refl _) (hm.nonempty w hw) (by omega) ?_
        have := hm.nonempty prev hp
        omega
      rw [hsa]
      omega

section
variable {stack : Vma} (hm : m.WellFormed) (hgrow : m.StackGrows addr stack m')
include hm hgrow

lemma StackGrows.entries (e : Nat × Vma) :
    e ∈ m'.vmas.entries ↔ e = (alignDown addr,{stack with start := alignDown addr}) ∨
      e.1 = e.2.start ∧ e.2 ∈ m.areas ∧ e.2 ≠ stack := by
  have hst := hm.nonempty stack hgrow.mem
  have hb := hgrow.below
  rw [hgrow.eq]
  simp only [mem_insert,mem_erase,hm.mem_entries]
  constructor
  · rintro (h | ⟨⟨⟨hk,hi⟩,hn⟩,-⟩)
    · exact .inl h
    refine .inr ⟨hk,hi,?_⟩
    rintro rfl
    exact hn hk
  · rintro (h | ⟨hk,hi,hn⟩)
    · exact .inl h
    have hp := hm.nonempty e.2 hi
    refine .inr ⟨⟨⟨hk,hi⟩,fun h => ?_⟩,fun h => ?_⟩
    · exact hn (hm.eq_of_common hi hgrow.mem (le_refl _) hp (by omega) (by omega))
    · have := hgrow.free e.2 hi hn
      omega

lemma StackGrows.mem_areas (v : Vma) :
    v ∈ m'.areas ↔ v = {stack with start := alignDown addr} ∨ v ∈ m.areas ∧ v ≠ stack := by
  simp only [areas,List.mem_map,hgrow.entries hm]
  constructor
  · rintro ⟨e,rfl | ⟨-,hi,hn⟩,rfl⟩
    · exact .inl rfl
    · exact .inr ⟨hi,hn⟩
  · rintro (rfl | ⟨hi,hn⟩)
    · exact ⟨_,.inl rfl,rfl⟩
    · exact ⟨(v.start,v),.inr ⟨rfl,hi,hn⟩,rfl⟩

lemma StackGrows.wellFormed : m'.WellFormed := by
  have hst := hm.nonempty stack hgrow.mem
  have hb := hgrow.below
  refine ⟨fun e he => ?_,fun v hv => ?_,fun v hv => ?_,fun v hv w hw hl => ?_⟩
  · rcases (hgrow.entries hm e).1 he with rfl | h
    · rfl
    · exact h.1
  · rcases (hgrow.mem_areas hm v).1 hv with rfl | h
    · simp only
      omega
    · exact hm.nonempty v h.1
  · rcases (hgrow.mem_areas hm v).1 hv with rfl | h
    · exact ⟨(alignDown_le addr).2,(hm.aligned stack hgrow.mem).2⟩
    · exact hm.aligned v h.1
  rcases (hgrow.mem_areas hm v).1 hv with rfl | hv' <;> rcases (hgrow.mem_areas hm w).1 hw with rfl | hw'
  · omega
  · have := hgrow.free w hw'.1 hw'.2
    have := hm.nonempty w hw'.1
    simp only at *
    omega
  · have := hgrow.free v hv'.1 hv'.2
    simp only at *
    omega
  · exact hm.apart v hv'.1 w hw'.1 hl

end

lemma WellFormed.grown (hm : m.WellFormed) (hc : m.canGrowStack addr = true)
    (hgrow : m.growStackTo addr = some m') : m'.WellFormed ∧ SameFlags m m' ∧ (m.Open → m'.Open) ∧
      ∃ stack, m'.findVma addr = some stack ∧ grants stack.flags vmaStack = true := by
  obtain ⟨-,hn⟩ | ⟨stack,h⟩ := hm.growStackTo hgrow
  · simp [hn] at hc
  have hm' := h.wellFormed hm
  have ha := h.mem_areas hm
  have hst := hm.nonempty stack h.mem
  have hb := h.below
  have hd := alignDown_le addr
  refine ⟨hm',fun a v hv => ?_,fun ho => ⟨fun v hv => ?_,fun v hv => ?_⟩,{stack with start := alignDown addr},
    ?_,h.flag⟩
  · obtain ⟨hi,hl,hh⟩ := hm.findVma_eq_some.1 hv
    by_cases hne : v = stack
    · subst hne
      exact ⟨_,hm'.findVma_eq_some.2 ⟨(ha _).2 (.inl rfl),by simp only; omega,hh⟩,rfl⟩
    · exact ⟨v,hm'.findVma_eq_some.2 ⟨(ha v).2 (.inr ⟨hi,hne⟩),hl,hh⟩,rfl⟩
  · rcases (ha v).1 hv with rfl | h'
    · exact ho.readable stack h.mem
    · exact ho.readable v h'.1
  · rcases (ha v).1 hv with rfl | h'
    · exact ho.stack stack h.mem
    · exact ho.stack v h'.1
  · have hal := (hm.aligned stack h.mem).1
    refine hm'.findVma_eq_some.2 ⟨(ha _).2 (.inl rfl),hd.1,?_⟩
    simp only [alignDown,pageSize] at *
    omega

end

/-- The calls that change the map of areas. -/
inductive AreaCall where
  | insert (start stop : Nat) (flags : VmaFlags) (backing : VmaBacking)
  | edit (edit : AreaEdit) (start stop : Nat)
  | grow (addr : Nat)

def AreaCall.Aligned : AreaCall → Prop
  | .insert start stop _ _ | .edit _ start stop => start ≤ stop ∧ start%pageSize = 0 ∧ stop%pageSize = 0
  | .grow _ => True

instance (op : AreaCall) : Decidable op.Aligned := by
  cases op <;> unfold AreaCall.Aligned <;> infer_instance

def areaStep (m : ProcessMemoryMap) : AreaCall → ProcessMemoryMap
  | .insert start stop flags backing => (m.insertVma start stop flags backing).getD m
  | .edit edit start stop => edit.apply m start stop
  | .grow addr => (m.growStackTo addr).getD m

lemma WellFormed.areaStep {m : ProcessMemoryMap} (hm : m.WellFormed) {op : AreaCall} (ho : op.Aligned) :
    (m.areaStep op).WellFormed := by
  cases op with
  | insert start stop flags backing =>
    cases h : m.insertVma start stop flags backing with
    | none => simpa [ProcessMemoryMap.areaStep,h] using hm
    | some m' => simpa [ProcessMemoryMap.areaStep,h] using (hm.insertVma h).1
  | edit edit start stop => exact edit.wellFormed hm ho.1 ho.2.1 ho.2.2
  | grow addr =>
    cases h : m.growStackTo addr with
    | none => simpa [ProcessMemoryMap.areaStep,h] using hm
    | some m' =>
      obtain ⟨rfl,-⟩ | ⟨stack,hgrow⟩ := hm.growStackTo h
      · simpa [ProcessMemoryMap.areaStep,h] using hm
      · simpa [ProcessMemoryMap.areaStep,h] using hgrow.wellFormed hm

/-- After aligned calls the areas are sound and found by address, inserted exactly where there is room, and the stack
grows over free pages. -/
theorem area_map_sound (stackTop stackBottom : Nat) (ops : List AreaCall) (hops : ∀ op ∈ ops, op.Aligned) :
    let m := ops.foldl areaStep (new stackTop stackBottom)
    m.WellFormed ∧ (∀ addr v, m.findVma addr = some v ↔ v ∈ m.areas ∧ v.start ≤ addr ∧ addr < v.stop) ∧
      (∀ start stop flags backing, start%pageSize = 0 → stop%pageSize = 0 →
        ((m.insertVma start stop flags backing).isSome ↔ start < stop ∧ ∀ v ∈ m.areas, ¬v.Meets start stop)) ∧
      (∀ start stop flags backing m', m.insertVma start stop flags backing = some m' →
        ∀ v, v ∈ m'.areas ↔ v = ⟨start,stop,flags,backing⟩ ∨ v ∈ m.areas) ∧
      ∀ addr m', m.growStackTo addr = some m' → m' = m ∨ ∃ stack, m.StackGrows addr stack m' := by
  intro m
  have hm : m.WellFormed := by
    refine List.foldlRecOn ops _ ⟨?_,?_,?_,?_⟩ (fun m hm op hop => hm.areaStep (hops op hop)) <;>
      simp [new,areas,empty]
  refine ⟨hm,fun addr v => hm.findVma_eq_some,fun start stop flags backing hs ht => ?_,
    fun _ _ _ _ _ h => (hm.insertVma h).2.1,fun addr m' h => ?_⟩
  · have ho := @WellFormed.overlapsBelow_iff m hm start stop
    cases h : m.overlapsBelow start stop with
    | true => simpa [insertVma,h] using fun _ => ho.1 h
    | false =>
      have hf : ∀ v ∈ m.areas, ¬v.Meets start stop := fun v hv hme => by simp [ho.2 ⟨v,hv,hme⟩] at h
      by_cases hl : start < stop
      · simpa [insertVma,h,hs,ht,hl] using hf
      · simp [insertVma,hl]
  · exact (hm.growStackTo h).imp_left And.left

theorem area_map_sound_at_stack :
    ([.insert 0x8000 0xb000 vmaStack .anonymous,.edit .remove 0x9000 0xa000,.grow 0x5fff].foldl areaStep
      (new 0xb000 0x4000)).WellFormed :=
  (area_map_sound 0xb000 0x4000
    [.insert 0x8000 0xb000 vmaStack .anonymous,.edit .remove 0x9000 0xa000,.grow 0x5fff] (by decide)).1

end ProcessMemoryMap
end Vanta.Mm
