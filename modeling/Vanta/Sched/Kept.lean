import Vanta.Sched.Exit

namespace Vanta.Sched
open List Sched.System
variable {s : System} {cpu : Nat} {t t' : Task} {o o' : Option Task} {l : List Task}
variable {sched : Scheduler}

lemma System.sched_eq_some (h : s.sched cpu = some sched) : s.schedulers[cpu]? = some (some sched) := by
  rwa [System.sched,Option.join_eq_some_iff] at h

lemma System.sched_of_getElem? {k : Nat} (h : s.schedulers[k]? = some (some sched)) : s.sched k = some sched := by
  rw [System.sched,h]
  rfl

lemma System.sched_of_set {s' : System} {x : Option Scheduler} (hl : cpu < s.schedulers.length)
    (h : s'.schedulers = s.schedulers.set cpu x) (c : Nat) : s'.sched c = if c = cpu then x else s.sched c := by
  rw [sched,h,List.getElem?_set]
  by_cases hc : c = cpu
  · subst hc
    simp [hl]
  · rw [if_neg (Ne.symm hc),if_neg hc,sched]

lemma System.lt_of_sched (h : s.sched cpu = some sched) : cpu < s.schedulers.length :=
  (List.getElem?_eq_some_iff.1 (s.sched_eq_some h)).1

lemma System.mem_tasks : t ∈ s.tasks ↔ ∃ cpu i, s.taskAt cpu i = some t := by
  rw [tasks,mem_flatMap]
  constructor
  · rintro ⟨sched,hs,ht⟩
    cases sched with
    | none => simp at ht
    | some sched =>
      obtain ⟨cpu,hc⟩ := mem_iff_getElem?.mp hs
      obtain ⟨i,hi⟩ := mem_iff_getElem?.mp ht
      exact ⟨cpu,i,by rw [System.taskAt,System.sched,hc]; exact hi⟩
  · rintro ⟨cpu,i,h⟩
    rw [taskAt,Option.bind_eq_some_iff] at h
    obtain ⟨sched,hs,ht⟩ := h
    exact ⟨some sched,mem_of_getElem? (s.sched_eq_some hs),mem_of_getElem? ht⟩

/-- The task keeps its process, its signals and its state, unless it is woken for one of the given reasons. -/
structure KeptTask (reason : Nat → TaskState → Prop) (t t' : Task) : Prop where
  tid : t'.tid = t.tid
  tgid : t'.tgid = t.tgid
  parentPid : t'.parentPid = t.parentPid
  process : t'.process = t.process
  pending : t'.pendingSignals = t.pendingSignals
  mask : t'.blockedMask = t.blockedMask
  state : t'.state = t.state ∨ t'.state = .runnable ∧ reason t.tgid t.state

section
variable {P Q : Nat → TaskState → Prop}

lemma KeptTask.refl (t : Task) : KeptTask P t t := ⟨rfl,rfl,rfl,rfl,rfl,rfl,.inl rfl⟩

lemma KeptTask.trans {t'' : Task} (h : KeptTask P t t') (h' : KeptTask P t' t'') : KeptTask P t t'' := by
  refine ⟨h'.tid.trans h.tid,h'.tgid.trans h.tgid,h'.parentPid.trans h.parentPid,h'.process.trans h.process,
    h'.pending.trans h.pending,h'.mask.trans h.mask,?_⟩
  obtain hs | ⟨hs,hw⟩ := h.state
  · obtain hs' | ⟨hs',hw'⟩ := h'.state
    · exact .inl (hs'.trans hs)
    · refine .inr ⟨hs',?_⟩
      rwa [hs,h.tgid] at hw'
  · obtain hs' | ⟨hs',-⟩ := h'.state
    · exact .inr ⟨hs'.trans hs,hw⟩
    · exact .inr ⟨hs',hw⟩

def KeptTasks (P : Nat → TaskState → Prop) (l l' : List Task) : Prop :=
  ∀ i : Nat, Option.Rel (KeptTask P) l[i]? l'[i]?

lemma optionRel_refl (o : Option Task) : Option.Rel (KeptTask P) o o := by
  cases o with
  | none => exact .none
  | some t => exact .some (KeptTask.refl t)

variable {R : Task → Task → Prop} {child code parent status : Nat} {native : Nat → Bool}

section
variable (h : Option.Rel R o o')
include h

lemma optionRel_mono {R' : Task → Task → Prop} (hR : ∀ t t', R t t' → R' t t') : Option.Rel R' o o' := by
  cases h with
  | none => exact .none
  | some h => exact .some (hR _ _ h)

lemma optionRel_some (ht' : o' = some t') : ∃ t, o = some t ∧ R t t' := by
  subst ht'
  cases h with
  | some h => exact ⟨_,rfl,h⟩

lemma optionRel_some_left (ht : o = some t) : ∃ t', o' = some t' ∧ R t t' := by
  subst ht
  cases h with
  | some h => exact ⟨_,rfl,h⟩

end

lemma optionRel_trans {o'' : Option Task} (h : Option.Rel (KeptTask P) o o')
    (h' : Option.Rel (KeptTask P) o' o'') : Option.Rel (KeptTask P) o o'' := by
  cases h with
  | none => exact h'
  | some h =>
    cases h' with
    | some h' => exact .some (h.trans h')

lemma KeptTasks.cons {l' : List Task} (h : KeptTask P t t') (hl : KeptTasks P l l') : KeptTasks P (t::l) (t'::l') := by
  intro i
  cases i with
  | zero => exact .some h
  | succ i => exact hl i

lemma KeptTasks.refl (l : List Task) : KeptTasks P l l := fun _ => optionRel_refl _

lemma KeptTasks.trans {l' l'' : List Task} (h : KeptTasks P l l') (h' : KeptTasks P l' l'') : KeptTasks P l l'' :=
  fun i => optionRel_trans (h i) (h' i)

lemma set_kept {i : Nat} (ht : l[i]? = some t) (h : KeptTask P t t') : KeptTasks P l (l.set i t') := by
  intro j
  rw [List.getElem?_set]
  split_ifs with hi hl
  · subst hi
    rw [ht]
    exact .some h
  · subst hi
    exact absurd (List.getElem?_eq_some_iff.1 ht).1 hl
  · exact optionRel_refl _

lemma wakeLoop_kept {addr : Nat} (hP : ∀ tgid bitset, P tgid (.futexWait addr bitset)) (count : Nat)
    (bitset : BitVec 32) (woken : Nat) (l : List Task) : KeptTasks P l (wakeLoop addr count bitset woken l).1 := by
  induction l generalizing woken with
  | nil => exact KeptTasks.refl []
  | cons t l ih =>
    rw [wakeLoop]
    split_ifs with hd hw
    · exact KeptTasks.refl _
    · refine (ih (woken+1)).cons ⟨rfl,rfl,rfl,rfl,rfl,rfl,.inr ⟨rfl,?_⟩⟩
      cases hs : t.state with
      | futexWait uaddr b =>
        simp only [Task.waitsOn,hs,Bool.and_eq_true,beq_iff_eq] at hw
        rw [hw.1]
        exact hP t.tgid b
      | runnable | waiting | pipeWaiting | sleeping | zombie | reaped => simp [Task.waitsOn,hs] at hw
    · exact (ih woken).cons (KeptTask.refl t)

lemma wakeLoop_idle {addr : Nat} {bitset : BitVec 32} (count : Nat) (h : ∀ t ∈ l, t.waitsOn addr bitset = false)
    (woken : Nat) : (wakeLoop addr count bitset woken l).1 = l := by
  induction l with
  | nil => rfl
  | cons t l ih =>
    have hr := ih (fun t' ht' => h t' (mem_cons_of_mem t ht'))
    rw [wakeLoop,h t mem_cons_self]
    split_ifs <;> simp_all

lemma wakeLoop_first {addr i : Nat} {bitset : BitVec 32} (ht : l[i]? = some t) (hw : t.waitsOn addr bitset = true) :
    ∃ (j : Nat) (t' : Task), l[j]? = some t' ∧ t'.waitsOn addr bitset = true ∧
      (wakeLoop addr 1 bitset 0 l).1[j]? = some t'.wake := by
  induction l generalizing i with
  | nil => simp at ht
  | cons u l ih =>
    rw [wakeLoop,if_neg (by omega)]
    split_ifs with hu
    · exact ⟨0,u,rfl,hu,rfl⟩
    cases i with
    | zero =>
      obtain rfl : u = t := by simpa using ht
      exact absurd hw hu
    | succ i =>
      obtain ⟨j,t',hj,hw',hg⟩ := ih ht
      exact ⟨j+1,t',hj,hw',hg⟩

variable {r : List Task × List UserWrite × Report}

lemma answerParent_spec (h : answerParent native parent child status code l = some r) :
    ∃ i t, l[i]? = some t ∧ t.tgid = parent ∧ t.state.waitsFor child = true ∧
      r.1 = l.set i (t.answer native child status code).1 ∧ r.2.2 = (t.answer native child status code).2.2 := by
  induction l generalizing r with
  | nil => simp [answerParent] at h
  | cons u l ih =>
    rw [answerParent] at h
    split_ifs at h with hm
    · cases h
      exact ⟨0,u,rfl,hm.1,hm.2,rfl,rfl⟩
    obtain ⟨r',hr',rfl⟩ := Option.map_eq_some_iff.1 h
    obtain ⟨i,t,hi,htg,hw,ht,hr⟩ := ih hr'
    exact ⟨i+1,t,hi,htg,hw,by rw [ht]; rfl,hr⟩

lemma answerParent_isSome (ht : t ∈ l) (htg : t.tgid = parent) (hw : t.state.waitsFor child = true) :
    answerParent native parent child status code l ≠ none := by
  induction l with
  | nil => cases ht
  | cons u l ih =>
    rw [answerParent]
    split_ifs with hm
    · simp
    obtain rfl | ht := mem_cons.1 ht
    · exact absurd ⟨htg,hw⟩ hm
    · simpa using ih ht

lemma answerRemote_isSome {index k : Nat} {l : List (Option Scheduler)} (hk : l[k]? = some (some sched))
    (hne : index+k ≠ cpu) (ht : t ∈ sched.tasks) (htg : t.tgid = parent) (hw : t.state.waitsFor child = true) :
    answerRemote native cpu parent child status code index l ≠ none := by
  induction l generalizing index k with
  | nil => simp at hk
  | cons u l ih =>
    rw [answerRemote]
    split
    · simp
    next hn =>
    cases k with
    | zero =>
      obtain rfl : u = some sched := by simpa using hk
      rw [if_neg (by omega),Option.bind_some,Option.map_eq_none_iff] at hn
      exact absurd hn (answerParent_isSome ht htg hw)
    | succ k =>
      have hr : answerRemote native cpu parent child status code (index+1) l ≠ none := ih hk (by omega)
      simpa using hr

lemma answerRemote_here {index k : Nat} {l : List (Option Scheduler)}
    {r : List (Option Scheduler) × List UserWrite × Report}
    (h : answerRemote native cpu parent child status code index l = some r) (hk : index+k = cpu) : r.1[k]? = l[k]? := by
  induction l generalizing index k r with
  | nil => simp [answerRemote] at h
  | cons u l ih =>
    rw [answerRemote] at h
    split at h
    · next sched' tasks answer hh =>
      cases h
      cases k with
      | zero => rw [if_pos (by omega)] at hh; cases hh
      | succ k => rfl
    · obtain ⟨r',hr',rfl⟩ := Option.map_eq_some_iff.1 h
      cases k with
      | zero => rfl
      | succ k => exact ih hr' (by omega)

section
variable (hP : ∀ state : TaskState, state.waitsFor child = true → P parent state)
include hP

lemma answerParent_kept (h : answerParent native parent child status code l = some r) : KeptTasks P l r.1 := by
  obtain ⟨i,t,hi,rfl,hw,ht,-⟩ := answerParent_spec h
  rw [ht]
  exact set_kept hi ⟨rfl,rfl,rfl,rfl,rfl,rfl,.inr ⟨rfl,hP t.state hw⟩⟩

lemma answerRemote_kept {index : Nat} {l : List (Option Scheduler)}
    {r : List (Option Scheduler) × List UserWrite × Report}
    (h : answerRemote native cpu parent child status code index l = some r) (k i : Nat) :
    Option.Rel (KeptTask P) (l[k]?.join.bind (fun sched => sched.tasks[i]?))
      (r.1[k]?.join.bind (fun sched => sched.tasks[i]?)) := by
  induction l generalizing index r k with
  | nil => simp [answerRemote] at h
  | cons sched l ih =>
    rw [answerRemote] at h
    split at h
    · next sched' tasks answer hh =>
      cases h
      split_ifs at hh
      obtain ⟨peer,rfl,hp⟩ := Option.bind_eq_some_iff.1 hh
      obtain ⟨⟨l',answer'⟩,ha,he⟩ := Option.map_eq_some_iff.1 hp
      obtain ⟨rfl,rfl,rfl⟩ : peer = sched' ∧ l' = tasks ∧ answer' = answer := by simpa using he
      cases k with
      | zero => exact answerParent_kept hP ha i
      | succ k => exact optionRel_refl _
    · obtain ⟨r',hr',rfl⟩ := Option.map_eq_some_iff.1 h
      cases k with
      | zero => exact optionRel_refl _
      | succ k => exact ih hr' k

end
end

def WokenBy (addr parent child : Nat) (tgid : Nat) (state : TaskState) : Prop :=
  (∃ bitset, state = .futexWait addr bitset) ∨ tgid = parent ∧ state.waitsFor child = true

end Vanta.Sched
