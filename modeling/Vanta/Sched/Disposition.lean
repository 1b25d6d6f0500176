import Vanta.Sched.ExitFrame
import Vanta.Sched.Kill

namespace Vanta.Sched
open List Option Sched.System

/-- What a thread's own action and mask say about a signal. -/
inductive Verdict where
  | terminate
  | ignore
  | pend (wakes : Bool)
  deriving DecidableEq

variable (signal : Nat)

def Task.blocks (t : Task) : Bool := Word.hasSignal t.blockedMask signal && (signal != 9 && signal != 19)

def Task.verdict (t : Task) : Verdict :=
  if signal = 0 then .ignore
  else if signal = 9 then .terminate
  else if t.blocks signal then .pend false
  else if (t.signalActions signal).saHandler = 1 ∨
      (t.signalActions signal).saHandler = 0 ∧ Signal.defaultSignalAction signal = .ignore then .ignore
  else if (t.signalActions signal).saHandler = 0 ∧ terminatesByDefault signal then .terminate
  else .pend true

def Task.signalled (wakes : Bool) (t : Task) : Task :=
  {t with
    pendingSignals := t.pendingSignals ||| (1#64 <<< (signal-1))
    state := if wakes && t.state.interruptible then .runnable else t.state}

variable (reason : Nat → TaskState → Prop)

def Verdict.pends : Verdict → Bool
  | .pend _ => true
  | _ => false

def Verdict.wakes : Verdict → Bool
  | .pend wakes => wakes
  | _ => false

/-- The thread after a verdict that does not end it. -/
def Task.after (v : Verdict) (t : Task) : Task :=
  match v with
  | .pend wakes => t.signalled signal wakes
  | _ => t

/-- The verdict is carried out on the thread; it may moreover be woken for one of the reasons. -/
def Verdict.Done (v : Verdict) (t t' : Task) : Prop :=
  match v with
  | .terminate => t'.process = none ∧ t'.state = .zombie (128+signal)
  | v => KeptTask reason (t.after signal v) t'

/-- The threads that a terminated thread wakes: those that wait for the word it clears, and those of its parent that
wait for it. -/
def WokenByVictim (s : System) (signal child : Nat) (hit : Nat → Nat → Task → Prop) (tgid : Nat) (state : TaskState) :
    Prop :=
  ∃ c i v, s.taskAt c i = some v ∧ hit c i v ∧ v.verdict signal = .terminate ∧
    ((∃ bitset, state = .futexWait v.clearChildTid bitset) ∨ v.parentPid = some tgid ∧ state.waitsFor child = true)

/-- A thread that is reached is treated by its verdict, all others are kept. -/
def Treat (hit : Task → Prop) (verdict : Task → Verdict) (t t' : Task) : Prop :=
  (hit t → (verdict t).Done signal reason t t') ∧ (¬hit t → KeptTask reason t t')

/-- Every thread that is reached is treated by its own action and mask. -/
def SignalTreated (s s' : System) (signal child : Nat) (hit : Nat → Nat → Task → Prop) : Prop :=
  ∀ c i, Option.Rel (Treat signal (WokenByVictim s signal child hit) (hit c i) (Task.verdict signal)) (s.taskAt c i)
    (s'.taskAt c i)

/-- What the thread's own verdict asks for comes about when `taken` is carried out: it ends or does not, the signal is
pending or is not, and a sleeping thread goes on or does not. -/
structure Verdict.Suits (taken : Verdict) (t : Task) : Prop where
  ends : taken = .terminate ↔ t.verdict signal = .terminate
  pending : taken ≠ .terminate → taken.pends = (t.verdict signal).pends ∨
    t.pendingSignals ||| (1#64 <<< (signal-1)) = t.pendingSignals
  wakes : taken ≠ .terminate → t.state.interruptible = true → ((t.verdict signal).wakes = true → taken.wakes = true) ∧
    (taken.wakes = true → (t.verdict signal).wakes = true ∨ reason t.tgid t.state)

variable {i k signal : Nat} {t : Task} {s : System} {target : Target}
variable {reason P : Nat → TaskState → Prop} {child : Nat} {sched : Scheduler}
variable {hit : Task → Prop} {t' : Task}

section
variable (hz : ∀ tgid code, ¬reason tgid (.zombie code))
include hz

lemma Treat.then_kept {verdict : Task → Verdict} {t'' : Task} (h : Treat signal reason hit verdict t t')
    (h' : KeptTask reason t' t'') : Treat signal reason hit verdict t t'' := by
  refine ⟨fun hh => ?_,fun hh => (h.2 hh).trans h'⟩
  have hd := h.1 hh
  unfold Verdict.Done at hd ⊢
  split at hd
  · obtain ⟨hp,hs⟩ := hd
    refine ⟨h'.process.trans hp,?_⟩
    obtain hs' | ⟨-,hr⟩ := h'.state
    · exact hs'.trans hs
    · rw [hs] at hr
      exact absurd hr (hz _ _)
  · exact hd.trans h'

lemma optionRel_then_kept {verdict : Task → Verdict} {o o' o'' : Option Task}
    (h : Option.Rel (Treat signal reason hit verdict) o o') (h' : Option.Rel (KeptTask reason) o' o'') :
    Option.Rel (Treat signal reason hit verdict) o o'' := by
  cases h with
  | none =>
    cases h'
    exact .none
  | some h =>
    cases h' with
    | some h' => exact .some (h.then_kept hz h')

end

lemma Task.pend_kept (signal now : Nat) (wakes : Bool) (t : Task) :
    KeptTask P (t.signalled signal wakes) (t.pend signal now wakes).1 := by
  unfold Task.pend Task.signalled
  dsimp only
  split_ifs with hw
  · split <;> exact ⟨rfl,rfl,rfl,rfl,rfl,rfl,.inl rfl⟩
  · exact ⟨rfl,rfl,rfl,rfl,rfl,rfl,.inl rfl⟩

variable {s' : System}

lemma System.sched_of_modify {f : Scheduler → Scheduler}
    (h : s'.schedulers = s.schedulers.modify k (Option.map f)) (c : Nat) :
    s'.sched c = if c = k then (s.sched c).map f else s.sched c := by
  rw [sched,sched,h,getElem?_modify]
  by_cases hc : c = k
  · subst hc
    cases hg : s.schedulers[c]? with
    | none => simp
    | some x => cases x <;> simp
  · rw [if_neg hc]
    simp [Ne.symm hc]

lemma System.taskAt_setTask {t0 : Task} (h : s.taskAt k i = some t0) (t : Task) (c j : Nat) :
    (s.setTask k i t).taskAt c j = if c = k ∧ j = i then some t else s.taskAt c j := by
  obtain ⟨sched,hs,hg⟩ := bind_eq_some_iff.1 h
  rw [taskAt,sched_of_modify rfl]
  by_cases hc : c = k
  · subst hc
    rw [if_pos rfl,hs,map_some,bind_some,getElem?_set]
    by_cases hj : j = i
    · subst hj
      rw [if_pos rfl,if_pos (List.getElem?_eq_some_iff.1 hg).1,if_pos ⟨rfl,rfl⟩]
    · rw [if_neg (Ne.symm hj),if_neg (fun hb => hj hb.2),taskAt,hs]
      rfl
  · rw [if_neg hc,if_neg (fun hb => hc hb.1),taskAt]

def Task.terminated (code : Nat) (t : Task) : Task := {t with clearChildTid := 0, process := none, state := .zombie code}

lemma System.terminateAt_taskAt (s : System) (cpu k code i c j : Nat) : (s.terminateAt cpu k code i).1.taskAt c j =
      if c = k ∧ j = i then (s.taskAt k i).map (Task.terminated code) else s.taskAt c j := by
  rw [terminateAt]
  cases h : s.taskAt k i with
  | none =>
    split_ifs with hp
    · rw [hp.1,hp.2,h]
      rfl
    · rfl
  | some task =>
    rw [taskAt_congr (dropProcess_schedulers _ cpu task.process)]
    exact taskAt_setTask h _ c j

lemma System.terminateAll_taskAt (s : System) (cpu k code : Nat) (l : List Nat) (c j : Nat) :
    (s.terminateAll cpu k code l).1.taskAt c j =
      if c = k ∧ j ∈ l then (s.taskAt k j).map (Task.terminated code) else s.taskAt c j := by
  induction l generalizing s with
  | nil => simp [terminateAll]
  | cons i l ih =>
    rw [terminateAll]
    rw [ih,terminateAt_taskAt,terminateAt_taskAt]
    by_cases hc : c = k
    · subst hc
      by_cases hj : j = i
      · subst hj
        cases h : s.taskAt c j <;> simp [Task.terminated]
      · simp [hj]
    · simp [hc]

variable {l : List Nat} {addr : Nat}

lemma System.terminateAll_addrs {cpu code : Nat}
    (h : addr ∈ (s.terminateAll cpu k code l).2) : addr ≠ 0 ∧ ∃ j ∈ l, ∃ t, s.taskAt k j = some t ∧ t.clearChildTid = addr := by
  induction l generalizing s with
  | nil => simp [terminateAll] at h
  | cons i l ih =>
    rw [terminateAll] at h
    obtain h | h := mem_append.1 h
    · rw [terminateAt] at h
      cases hat : s.taskAt k i with
      | none => simp [hat] at h
      | some task =>
        simp only [hat] at h
        split_ifs at h with hz
        · obtain rfl : addr = task.clearChildTid := by simpa using h
          exact ⟨hz,i,mem_cons_self,task,hat,rfl⟩
        · simp at h
    · obtain ⟨hn,j,hj,t,hat,ha⟩ := ih h
      rw [terminateAt_taskAt] at hat
      split_ifs at hat with hp
      · obtain ⟨t',-,rfl⟩ := map_eq_some_iff.1 hat
        exact absurd ha.symm hn
      · exact ⟨hn,j,mem_cons_of_mem i hj,t,hat,ha⟩

lemma System.wakeIn_sched (s : System) (k addr c : Nat) : (s.wakeIn k addr).sched c =
    if c = k then (s.sched c).map (fun sched => (futexWakeUnlocked sched addr 1 futexBitsetMatchAny).1)
    else s.sched c :=
  sched_of_modify rfl c

lemma System.wakeIn_kept (hP : ∀ tgid bitset, P tgid (.futexWait addr bitset)) (s : System) (k c j : Nat) :
    Option.Rel (KeptTask P) (s.taskAt c j) ((s.wakeIn k addr).taskAt c j) := by
  rw [taskAt,taskAt,wakeIn_sched]
  split_ifs
  · cases s.sched c with
    | none => exact .none
    | some sched => exact wakeLoop_kept hP 1 futexBitsetMatchAny 0 sched.tasks j
  · exact optionRel_refl _

lemma System.wakeAll_kept {addrs : List Nat}
    (hP : ∀ addr ∈ addrs, ∀ tgid bitset, P tgid (.futexWait addr bitset)) (s : System) (k c j : Nat) :
    Option.Rel (KeptTask P) (s.taskAt c j) ((s.wakeAll k addrs).taskAt c j) ∧
      (c ≠ k → (s.wakeAll k addrs).taskAt c j = s.taskAt c j) := by
  induction addrs generalizing s with
  | nil => exact ⟨optionRel_refl _,fun _ => rfl⟩
  | cons addr addrs ih =>
    obtain ⟨hk,ho⟩ := ih (fun a ha => hP a (mem_cons_of_mem addr ha)) (s.wakeIn k addr)
    refine ⟨optionRel_trans (wakeIn_kept (hP addr mem_cons_self) s k c j) hk,fun hc => ?_⟩
    rw [wakeAll,ho hc,taskAt,taskAt,wakeIn_sched,if_neg hc]

lemma System.pendAt_taskAt (s : System) (k signal now : Nat) (wakes : Bool) (i c j : Nat) :
    (s.pendAt k signal now wakes i).taskAt c j =
      if c = k ∧ j = i then (s.taskAt k i).map (fun t => (t.pend signal now wakes).1) else s.taskAt c j := by
  rw [pendAt]
  cases h : s.taskAt k i with
  | none =>
    split_ifs with hp
    · rw [hp.1,hp.2,h]
      rfl
    · rfl
  | some task => exact taskAt_setTask h _ c j

lemma System.pendAll_taskAt (s : System) (k signal now : Nat) (wakes : Bool) (hl : l.Nodup) (c j : Nat) :
    (s.pendAll k signal now wakes l).taskAt c j =
      if c = k ∧ j ∈ l then (s.taskAt k j).map (fun t => (t.pend signal now wakes).1) else s.taskAt c j := by
  induction l generalizing s with
  | nil => simp [pendAll]
  | cons i l ih =>
    obtain ⟨hi,hl⟩ := nodup_cons.1 hl
    rw [pendAll,ih _ hl,pendAt_taskAt,pendAt_taskAt]
    by_cases hc : c = k
    · subst hc
      by_cases hj : j = i
      · subst hj
        simp [hi]
      · simp [hj]
    · simp [hc]

lemma verdict_congr (ha : t.signalActions signal = t'.signalActions signal)
    (hb : t.blocks signal = t'.blocks signal) : t.verdict signal = t'.verdict signal := by
  simp only [Task.verdict,ha,hb]

lemma mem_matchingIndices {tasks : List Task} :
    i ∈ matchingIndices target tasks ↔ ∃ t, tasks[i]? = some t ∧ target.hits t = true := by
  rw [matchingIndices,mem_filter,mem_range]
  constructor
  · rintro ⟨hl,h⟩
    rw [getElem?_eq_getElem hl,any_some] at h
    exact ⟨tasks[i],getElem?_eq_getElem hl,h⟩
  · rintro ⟨t,ht,h⟩
    exact ⟨(List.getElem?_eq_some_iff.1 ht).1,by rw [ht]; exact h⟩

lemma matchingIndices_nodup (target : Target) (tasks : List Task) : (matchingIndices target tasks).Nodup :=
  nodup_range.filter _

def System.tasksAt (s : System) (c : Nat) : List Task := ((s.sched c).map Scheduler.tasks).getD []

lemma System.taskAt_eq (s : System) (c j : Nat) : s.taskAt c j = (s.tasksAt c)[j]? := by
  rw [taskAt,tasksAt]
  cases s.sched c <;> rfl

/-- The first thread of the processor that the signal reaches. -/
def System.chief (s : System) (target : Target) (c : Nat) : Option Task :=
  (matchingIndices target (s.tasksAt c)).head?.bind (fun i => (s.tasksAt c)[i]?)

/-- The verdict that is carried out on all threads of the processor: that on the first one. -/
def System.taken (s : System) (target : Target) (signal c : Nat) : Verdict :=
  ((s.chief target c).map (Task.verdict signal)).getD .ignore

lemma System.chief_spec {first : Task} (h : s.chief target k = some first) :
    ∃ i, s.taskAt k i = some first ∧ target.hits first = true := by
  obtain ⟨i,hi,hg⟩ := bind_eq_some_iff.1 h
  obtain ⟨t',ht',hh⟩ := mem_matchingIndices.1 (mem_of_head? hi)
  obtain rfl : first = t' := Option.some.inj (hg.symm.trans ht')
  exact ⟨i,(s.taskAt_eq k i).trans hg,hh⟩

lemma System.chief_congr (h : ∀ j, s'.taskAt k j = s.taskAt k j) (target : Target) :
    s'.chief target k = s.chief target k := by
  have he : s'.tasksAt k = s.tasksAt k := List.ext_getElem? (fun j => by rw [← taskAt_eq,← taskAt_eq,h])
  rw [chief,chief,he]

/-- What one round of the loop does to the tasks of its processor. -/
structure Round (s s' : System) (signal k : Nat) (reason : Nat → TaskState → Prop) (target : Target)
    (parent : Option Nat) : Prop where
  others : ∀ c j, c ≠ k → s'.taskAt c j = s.taskAt c j
  mine : ∀ j, Option.Rel (Treat signal reason (fun t => target.hits t = true) (fun _ => s.taken target signal k))
    (s.taskAt k j) (s'.taskAt k j)
  parent_eq : ∀ p, parent = some p →
    ∃ first, s.chief target k = some first ∧ first.verdict signal = .terminate ∧ first.parentPid = some p
  size : s'.schedulers.length = s.schedulers.length

lemma treat_refl (o : Option Task) : Option.Rel (Treat signal reason hit (fun _ => .ignore)) o o := by
  cases o with
  | none => exact .none
  | some t => exact .some ⟨fun _ => KeptTask.refl t,fun _ => KeptTask.refl t⟩

lemma System.setTask_length (s : System) (k i : Nat) (t : Task) :
    (s.setTask k i t).schedulers.length = s.schedulers.length := by
  simp [setTask]

lemma System.terminateAll_length (s : System) (cpu k code : Nat) (l : List Nat) :
    (s.terminateAll cpu k code l).1.schedulers.length = s.schedulers.length := by
  induction l generalizing s with
  | nil => rfl
  | cons i l ih =>
    rw [terminateAll]
    rw [ih,terminateAt]
    split
    · rfl
    rw [dropProcess_schedulers]
    exact setTask_length _ _ _ _

lemma System.wakeAll_length (s : System) (k : Nat) (addrs : List Nat) :
    (s.wakeAll k addrs).schedulers.length = s.schedulers.length := by
  induction addrs generalizing s with
  | nil => rfl
  | cons addr addrs ih =>
    rw [wakeAll,ih]
    simp [wakeIn]

lemma System.pendAll_length (s : System) (k signal now : Nat) (wakes : Bool) (l : List Nat) :
    (s.pendAll k signal now wakes l).schedulers.length = s.schedulers.length := by
  induction l generalizing s with
  | nil => rfl
  | cons i l ih =>
    rw [pendAll,ih,pendAt]
    split
    · rfl
    · exact setTask_length _ _ _ _

lemma treated_matching (hs : s.sched k = some sched) (act : Task → Task) (v : Verdict) (j : Nat)
    (ha : ∀ t, v.Done signal reason t (act t)) :
    Option.Rel (Treat signal reason (fun t => target.hits t = true) (fun _ => v)) (s.taskAt k j)
      (if k = k ∧ j ∈ matchingIndices target sched.tasks then (s.taskAt k j).map act else s.taskAt k j) := by
  have hat : s.taskAt k j = sched.tasks[j]? := by rw [taskAt,hs]; rfl
  cases ht : s.taskAt k j with
  | none => split_ifs <;> exact .none
  | some t =>
    have hm : (k = k ∧ j ∈ matchingIndices target sched.tasks) ↔ target.hits t = true := by
      simp [mem_matchingIndices,← hat,ht]
    by_cases hh : target.hits t = true
    · rw [if_pos (hm.2 hh)]
      exact .some ⟨fun _ => ha t,fun hn => absurd hh hn⟩
    · rw [if_neg (fun hi => hh (hm.1 hi))]
      exact .some ⟨fun h => absurd h hh,fun _ => KeptTask.refl t⟩

lemma terminate_treated (signal cpu : Nat) (hz : ∀ tgid code, ¬reason tgid (.zombie code)) (hs : s.sched k = some sched)
    (hr : ∀ j v, s.taskAt k j = some v → target.hits v = true →
      ∀ tgid bitset, reason tgid (.futexWait v.clearChildTid bitset)) (c j : Nat) :
    let r := s.terminateAll cpu k (128+signal) (matchingIndices target sched.tasks)
    (c ≠ k → (r.1.wakeAll k r.2).taskAt c j = s.taskAt c j) ∧
      Option.Rel (Treat signal reason (fun t => target.hits t = true) (fun _ => .terminate)) (s.taskAt k j)
        ((r.1.wakeAll k r.2).taskAt k j) := by
  intro r
  have hat : ∀ j, s.taskAt k j = sched.tasks[j]? := fun j => by rw [taskAt,hs]; rfl
  have hw : ∀ addr ∈ r.2, ∀ tgid bitset, reason tgid (.futexWait addr bitset) := by
    intro addr ha
    obtain ⟨-,j,hj,t,ht,rfl⟩ := terminateAll_addrs ha
    obtain ⟨t',ht',hh⟩ := mem_matchingIndices.1 hj
    obtain rfl : t = t' := Option.some.inj (ht.symm.trans ((hat j).trans ht'))
    exact hr j t ht hh
  have hk := fun c j => wakeAll_kept hw r.1 k c j
  refine ⟨fun hc => ?_,optionRel_then_kept hz ?_ (hk k j).1⟩
  · rw [(hk c j).2 hc,terminateAll_taskAt,if_neg (fun hb => hc hb.1)]
  rw [terminateAll_taskAt]
  exact treated_matching hs _ .terminate j (fun t => ⟨rfl,rfl⟩)

lemma pend_treated (signal now : Nat) (target : Target) (wakes : Bool) (reason : Nat → TaskState → Prop) (hs : s.sched k = some sched)
    (c j : Nat) :
    let s' := s.pendAll k signal now wakes (matchingIndices target sched.tasks)
    (c ≠ k → s'.taskAt c j = s.taskAt c j) ∧
      Option.Rel (Treat signal reason (fun t => target.hits t = true) (fun _ => .pend wakes)) (s.taskAt k j)
        (s'.taskAt k j) := by
  intro s'
  have he := fun c j => s.pendAll_taskAt k signal now wakes (matchingIndices_nodup target sched.tasks) c j
  refine ⟨fun hc => ?_,?_⟩
  · rw [he,if_neg (fun hb => hc hb.1)]
  rw [he]
  exact treated_matching hs _ (.pend wakes) j (fun t => t.pend_kept signal now wakes)

variable (cpu now : Nat)

lemma killIn_round (targetTgid : Nat) (hz : ∀ tgid code, ¬reason tgid (.zombie code))
    (hr : s.taken target signal k = .terminate → ∀ j v, s.taskAt k j = some v → target.hits v = true →
      ∀ tgid bitset, reason tgid (.futexWait v.clearChildTid bitset)) :
    let r := s.killIn cpu now signal targetTgid target k
    Round s r.1 signal k reason target r.2.2 := by
  have hnon : s.taken target signal k = .ignore → Round s s signal k reason target none := fun h =>
    ⟨fun _ _ _ => rfl,fun j => h ▸ treat_refl _,by simp,rfl⟩
  rw [killIn]
  cases hs : s.sched k with
  | none => exact hnon (by simp [taken,chief,tasksAt,hs,matchingIndices])
  | some sched =>
    have hat : s.tasksAt k = sched.tasks := by rw [tasksAt,hs]; rfl
    have hch : s.chief target k = (matchingIndices target sched.tasks).head?.bind (fun i => sched.tasks[i]?) := by
      rw [chief,hat]
    dsimp only
    rw [← hch]
    cases hf : s.chief target k with
    | none => exact hnon (by rw [taken,hf]; rfl)
    | some first =>
      have hta : s.taken target signal k = first.verdict signal := by rw [taken,hf]; rfl
      dsimp only
      by_cases hze : signal = 0
      · rw [if_pos hze]
        exact hnon (by rw [hta,Task.verdict,if_pos hze])
      rw [if_neg hze]
      have hbl : (Word.hasSignal first.blockedMask signal && (signal != 9 && signal != 19)) = first.blocks signal :=
        rfl
      rw [hbl]
      split
      · next hte =>
        have hv : first.verdict signal = .terminate := by
          obtain ⟨hca,hb⟩ := hte
          rw [Task.verdict,if_neg hze]
          by_cases h9 : signal = 9
          · rw [if_pos h9]
          obtain ⟨hh,hd⟩ := hca.resolve_left h9
          have hn : ¬((first.signalActions signal).saHandler = 1 ∨
              (first.signalActions signal).saHandler = 0 ∧ Signal.defaultSignalAction signal = .ignore) := by
            rintro (h1 | ⟨-,h1⟩)
            · rw [hh] at h1
              exact absurd h1 (by decide)
            · simp [terminatesByDefault,h1] at hd
          rw [if_neg h9,if_neg hb,if_neg hn,if_pos ⟨hh,hd⟩]
        have hdo := fun c j => terminate_treated signal cpu hz hs (hr (hta.trans hv)) c j
        refine ⟨fun c j hc => (hdo c j).1 hc,fun j => ?_,fun p hp => ⟨first,hf,hv,hp⟩,?_⟩
        · rw [hta,hv]
          exact (hdo k j).2
        · exact (wakeAll_length _ _ _).trans (terminateAll_length _ _ _ _ _)
      · next hte =>
        split
        · next hig =>
          have h9 : signal ≠ 9 := fun h9 => hte ⟨.inl h9,hig.2⟩
          exact hnon (by rw [hta,Task.verdict,if_neg hze,if_neg h9,if_neg hig.2,if_pos hig.1])
        next hig =>
        have hv : first.verdict signal = .pend (!first.blocks signal) := by
          have h9 : signal ≠ 9 := by
            rintro rfl
            exact hte ⟨.inl rfl,by simp [Task.blocks]⟩
          rw [Task.verdict,if_neg hze,if_neg h9]
          by_cases hb : first.blocks signal = true
          · rw [if_pos hb,hb]
            rfl
          have hn := fun h => hig ⟨h,hb⟩
          have hno := fun h => hte ⟨.inr h,hb⟩
          rw [if_neg hb,if_neg hn,if_neg hno]
          simpa using hb
        have hdo := fun c j => pend_treated signal now target (!first.blocks signal) reason hs c j
        refine ⟨fun c j hc => (hdo c j).1 hc,fun j => ?_,by simp,pendAll_length _ _ _ _ _ _⟩
        rw [hta,hv]
        exact (hdo k j).2

variable {ks : List Nat}

/-- The reasons for a wake may differ from one processor to the next. -/
lemma killLoop_treated (signal targetTgid : Nat) (target : Target) (reason : Nat → Nat → TaskState → Prop)
    (hz : ∀ c tgid code, ¬reason c tgid (.zombie code)) (hks : ks.Nodup)
    (hre : ∀ k ∈ ks, s.taken target signal k = .terminate → ∀ j v, s.taskAt k j = some v → target.hits v = true →
      ∀ tgid bitset, reason k tgid (.futexWait v.clearChildTid bitset)) (found : Bool) (parent : Option Nat) :
    let r := s.killLoop cpu now signal targetTgid target ks found parent
    (∀ c j, c ∉ ks → r.1.taskAt c j = s.taskAt c j) ∧
      (∀ c ∈ ks, ∀ j, Option.Rel (Treat signal (reason c) (fun t => target.hits t = true)
        (fun _ => s.taken target signal c)) (s.taskAt c j) (r.1.taskAt c j)) ∧
      (∀ p, r.2.2 = some p → parent = some p ∨
        ∃ c ∈ ks, ∃ first, s.chief target c = some first ∧ first.verdict signal = .terminate ∧
          first.parentPid = some p) ∧
      r.1.schedulers.length = s.schedulers.length := by
  induction ks generalizing s found parent with
  | nil => exact ⟨fun _ _ _ => rfl,fun c hc => absurd hc not_mem_nil,fun p hp => .inl hp,rfl⟩
  | cons k ks ih =>
    obtain ⟨hk,hks⟩ := nodup_cons.1 hks
    have hr := killIn_round cpu now targetTgid (hz k) (hre k mem_cons_self)
    rw [killLoop]
    generalize s.killIn cpu now signal targetTgid target k = r1 at hr
    obtain ⟨s1,found1,parent1⟩ := r1
    have hn : ∀ c ∈ ks, c ≠ k := fun c hc hck => hk (hck ▸ hc)
    have hs : ∀ c ∈ ks, ∀ j, s1.taskAt c j = s.taskAt c j := fun c hc j => hr.others c j (hn c hc)
    have hcc : ∀ c ∈ ks, s1.chief target c = s.chief target c := fun c hc => chief_congr (hs c hc) target
    have htc : ∀ c ∈ ks, s1.taken target signal c = s.taken target signal c := fun c hc => by rw [taken,taken,hcc c hc]
    obtain ⟨ho,hi,hpa,hl⟩ := ih hks
      (fun c hc htk j v hv => hre c (mem_cons_of_mem k hc) (htc c hc ▸ htk) j v (hs c hc j ▸ hv)) (found || found1)
      (parent.or parent1)
    refine ⟨fun c j hc => ?_,fun c hc j => ?_,fun p hp => ?_,hl.trans hr.size⟩
    · rw [mem_cons,not_or] at hc
      rw [ho c j hc.2,hr.others c j hc.1]
    · obtain rfl | hc := mem_cons.1 hc
      · rw [ho c j hk]
        exact hr.mine j
      · rw [← hs c hc j,← htc c hc]
        exact hi c hc j
    · obtain hp | ⟨c,hc,first,hch,hres⟩ := hpa p hp
      · rw [or_eq_some_iff] at hp
        obtain hp | ⟨-,hp⟩ := hp
        · exact .inl hp
        · obtain ⟨first,hres⟩ := hr.parent_eq p hp
          exact .inr ⟨k,mem_cons_self,first,hres⟩
      · exact .inr ⟨c,mem_cons_of_mem k hc,first,hcc c hc ▸ hch,hres⟩

lemma System.taskAt_eq_none {c : Nat} (h : c ∉ range s.schedulers.length) (j : Nat) : s.taskAt c j = none := by
  rw [mem_range,Nat.not_lt] at h
  rw [taskAt,sched,getElem?_eq_none h]
  rfl

/-- Whom `kill_process` wakes on a processor: a waiter for the word of a thread that it ends there, and a waiting thread
of the parent of a first one. -/
def WokenIn (s : System) (signal child : Nat) (target : Target) (c tgid : Nat) (state : TaskState) : Prop :=
  (s.taken target signal c = .terminate ∧ ∃ i v bitset, s.taskAt c i = some v ∧ target.hits v = true ∧
    state = .futexWait v.clearChildTid bitset) ∨
  ∃ c' first, s.chief target c' = some first ∧ first.verdict signal = .terminate ∧ first.parentPid = some tgid ∧
    state.waitsFor child = true

lemma WokenIn.not_zombie (c tgid code : Nat) : ¬WokenIn s signal child target c tgid (.zombie code) := by
  rintro (⟨-,_,_,_,-,-,h⟩ | ⟨_,_,-,-,-,h⟩)
  · cases h
  · cases h

lemma System.killProcess_treated {cpu now pid : Nat} {current : Task}
    (hs : s.sched cpu = some sched) (hcu : sched.tasks[sched.current]? = some current)
    (h : s.killProcess cpu now pid signal = some s') (c i : Nat) :
    Option.Rel (Treat signal (WokenIn s signal (killTarget current pid).2 (killTarget current pid).1 c)
      (fun t => (killTarget current pid).1.hits t = true) (fun _ => s.taken (killTarget current pid).1 signal c))
      (s.taskAt c i) (s'.taskAt c i) := by
  set target := (killTarget current pid).1 with hta
  set child := (killTarget current pid).2 with hch
  have hr : (s.sched cpu).bind (fun sched => sched.tasks[sched.current]?) = some current := by
    rw [hs]
    exact hcu
  rw [killProcess] at h
  split_ifs at h with hsi
  rw [hr] at h
  dsimp only at h
  have hl := killLoop_treated cpu now signal child target (WokenIn s signal child target) WokenIn.not_zombie
    (nodup_range (n := s.schedulers.length))
    (fun k _ hte j v hv hh tgid bitset => .inl ⟨hte,j,v,bitset,hv,hh,rfl⟩) false none
  generalize s.killLoop cpu now signal child target (range s.schedulers.length) false none = r at h hl
  obtain ⟨s1,found,parent⟩ := r
  obtain ⟨ho,hi,hpa,hle⟩ := hl
  have ht : Option.Rel (Treat signal (WokenIn s signal child target c) (fun t => target.hits t = true)
      (fun _ => s.taken target signal c)) (s.taskAt c i) (s1.taskAt c i) := by
    by_cases hc : c ∈ range s.schedulers.length
    · exact hi c hc i
    · rw [ho c i hc,taskAt_eq_none hc]
      exact .none
  split_ifs at h with hf
  cases hp : parent with
  | none =>
    rw [hp] at h
    cases h
    exact ht
  | some parentPid =>
    rw [hp] at h
    cases h
    obtain hn | ⟨k,-,first,hfi,hte,hpar⟩ := hpa parentPid hp
    · cases hn
    refine optionRel_then_kept (fun tgid code => WokenIn.not_zombie c tgid code) ht ?_
    rw [answerKilled]
    cases ha : answerRemote s1.native s1.schedulers.length parentPid child (killStatus signal) (128+signal) 0
        s1.schedulers with
    | none => exact optionRel_refl _
    | some r => exact answerRemote_kept (fun state hw => .inr ⟨k,first,hfi,hte,hpar,hw⟩) ha c i

lemma System.findThread_some {tid : Nat} (h : s.findThread tid ks = some (k,i,t)) :
    s.taskAt k i = some t ∧ t.tid = tid ∧ t.process.isSome = true := by
  induction ks with
  | nil => simp [findThread] at h
  | cons k' ks ih =>
    rw [findThread] at h
    split at h
    · next found hf =>
      cases h
      obtain ⟨sched,hs,hi⟩ := bind_eq_some_iff.1 hf
      obtain ⟨i',hi',hg⟩ := bind_eq_some_iff.1 hi
      obtain ⟨t',ht',he⟩ := map_eq_some_iff.1 hg
      obtain ⟨rfl,rfl,rfl⟩ : k' = k ∧ i' = i ∧ t' = t := by simpa using he
      obtain ⟨hl,hp,-⟩ := findIdx?_eq_some_iff_getElem.1 hi'
      obtain ⟨_,hv⟩ := List.getElem?_eq_some_iff.1 ht'
      rw [hv,Bool.and_eq_true,beq_iff_eq] at hp
      exact ⟨by rw [taskAt,hs]; exact ht',hp.1,hp.2⟩
    · exact ih h

/-- What `kill_thread` carries out: it does not look at the mask. -/
def Task.unmasked (signal : Nat) (t : Task) : Verdict :=
  if signal = 0 then .ignore
  else if signal = 9 then .terminate
  else if (t.signalActions signal).saHandler = 1 ∨
      (t.signalActions signal).saHandler = 0 ∧ Signal.defaultSignalAction signal = .ignore then .ignore
  else if (t.signalActions signal).saHandler = 0 ∧ terminatesByDefault signal then .terminate
  else .pend true

/-- A waiter for the word of the thread that `kill_thread` ends. -/
def WokenOf (t : Task) (signal : Nat) (_ : Nat) (state : TaskState) : Prop :=
  t.unmasked signal = .terminate ∧ ∃ bitset, state = .futexWait t.clearChildTid bitset

lemma System.terminateAt_treated (cpu : Nat) (ht : s.taskAt k i = some t) (hv : t.unmasked signal = .terminate)
    (c j : Nat) :
    let r := s.terminateAt cpu k (128+signal) i
    Option.Rel (Treat signal (WokenOf t signal) (fun _ => c = k ∧ j = i) (fun _ => .terminate)) (s.taskAt c j)
      ((r.1.wakeAll k r.2).taskAt c j) := by
  intro r
  have hw : ∀ addr ∈ r.2, ∀ tgid bitset, WokenOf t signal tgid (.futexWait addr bitset) := by
    intro addr ha tgid bitset
    have hal : addr ∈ (s.terminateAll cpu k (128+signal) [i]).2 := by
      exact mem_append_left _ ha
    obtain ⟨-,j',hj',t',ht',rfl⟩ := terminateAll_addrs hal
    obtain rfl : j' = i := by simpa using hj'
    obtain rfl : t = t' := Option.some.inj (ht.symm.trans ht')
    exact ⟨hv,bitset,rfl⟩
  refine optionRel_then_kept (fun tgid code h => by obtain ⟨-,_,h⟩ := h; cases h) ?_ (wakeAll_kept hw r.1 k c j).1
  rw [terminateAt_taskAt]
  split_ifs with hp
  · rw [hp.1,hp.2,ht]
    exact .some ⟨fun _ => ⟨rfl,rfl⟩,fun hn => absurd ⟨rfl,rfl⟩ hn⟩
  · cases s.taskAt c j with
    | none => exact .none
    | some t' => exact .some ⟨fun hh => absurd hh hp,fun _ => KeptTask.refl t'⟩

lemma System.killTask_treated (ht : s.taskAt k i = some t) (c j : Nat) :
    Option.Rel (Treat signal (WokenOf t signal) (fun _ => c = k ∧ j = i) (fun _ => t.unmasked signal)) (s.taskAt c j)
      ((s.killTask cpu now signal k i t).taskAt c j) := by
  rw [killTask]
  by_cases hz : signal = 0
  · rw [if_pos hz,show t.unmasked signal = .ignore by rw [Task.unmasked,if_pos hz]]
    exact treat_refl _
  rw [if_neg hz]
  dsimp only
  split_ifs with h9 hig hte
  · have hv : t.unmasked signal = .terminate := by rw [Task.unmasked,if_neg hz,if_pos h9]
    rw [hv]
    exact terminateAt_treated cpu ht hv c j
  · rw [show t.unmasked signal = .ignore by rw [Task.unmasked,if_neg hz,if_neg h9,if_pos hig]]
    exact treat_refl _
  · have hv : t.unmasked signal = .terminate := by
      rw [Task.unmasked,if_neg hz,if_neg h9,if_neg hig,if_pos hte]
    rw [hv]
    exact terminateAt_treated cpu ht hv c j
  · rw [show t.unmasked signal = .pend true by rw [Task.unmasked,if_neg hz,if_neg h9,if_neg hig,if_neg hte],pendAt_taskAt]
    split_ifs with hp
    · rw [hp.1,hp.2,ht]
      exact .some ⟨fun _ => t.pend_kept signal now true,fun hn => absurd ⟨rfl,rfl⟩ hn⟩
    · cases s.taskAt c j with
      | none => exact .none
      | some t' => exact .some ⟨fun hh => absurd hh hp,fun _ => KeptTask.refl t'⟩

lemma Verdict.done_iff {v : Verdict} (h : v ≠ .terminate) :
    v.Done signal reason t t' ↔ KeptTask reason (t.after signal v) t' := by
  cases v with
  | terminate => exact absurd rfl h
  | ignore | pend => rfl

lemma Task.after_state (v : Verdict) (t : Task) :
    (t.after signal v).state = if v.wakes && t.state.interruptible then .runnable else t.state := by
  cases v with
  | pend wakes => rfl
  | ignore | terminate => simp [after,Verdict.wakes]

lemma Task.after_pending (v : Verdict) (t : Task) : (t.after signal v).pendingSignals =
    if v.pends then t.pendingSignals ||| (1#64 <<< (signal-1)) else t.pendingSignals := by
  cases v <;> rfl

lemma KeptTask.after_iff {v : Verdict} : KeptTask reason (t.after signal v) t' ↔
    t'.tid = t.tid ∧ t'.tgid = t.tgid ∧ t'.parentPid = t.parentPid ∧ t'.process = t.process ∧
      t'.pendingSignals = (t.after signal v).pendingSignals ∧ t'.blockedMask = t.blockedMask ∧
      (t'.state = (t.after signal v).state ∨ t'.state = .runnable ∧ reason t.tgid (t.after signal v).state) := by
  have h : (t.after signal v).tid = t.tid ∧ (t.after signal v).tgid = t.tgid ∧
      (t.after signal v).parentPid = t.parentPid ∧ (t.after signal v).process = t.process ∧
      (t.after signal v).blockedMask = t.blockedMask := by
    cases v <;> exact ⟨rfl,rfl,rfl,rfl,rfl⟩
  obtain ⟨h1,h2,h3,h4,h5⟩ := h
  constructor
  · rintro ⟨a1,a2,a3,a4,a5,a6,a7⟩
    rw [h2] at a7
    exact ⟨a1.trans h1,a2.trans h2,a3.trans h3,a4.trans h4,a5,a6.trans h5,a7⟩
  · rintro ⟨a1,a2,a3,a4,a5,a6,a7⟩
    rw [← h2] at a7
    exact ⟨a1.trans h1.symm,a2.trans h2.symm,a3.trans h3.symm,a4.trans h4.symm,a5,a6.trans h5.symm,a7⟩

lemma ne_runnable_of_interruptible (h : t.state.interruptible = true) : t.state ≠ .runnable := by
  intro hr
  rw [hr] at h
  cases h

section
variable {taken : Verdict} {woken : Nat → TaskState → Prop}
variable (hd : taken.Done signal woken t t') (hp : t.process.isSome = true)
  (hw : taken ≠ .terminate → ∀ tgid state, woken tgid state → state.interruptible = false ∧ state ≠ .runnable)
include hd

section
include hp

/-- What is carried out keeps the thread's process, or ends it, as its own verdict does. -/
lemma Verdict.ends_iff (h : (t.verdict signal).Done signal reason t t') :
    taken = .terminate ↔ t.verdict signal = .terminate := by
  have hno : ∀ (v : Verdict) (reason : Nat → TaskState → Prop), v.Done signal reason t t' →
      (v = .terminate ↔ t'.process = none) := by
    intro v reason hv
    by_cases ht : v = .terminate
    · subst ht
      exact ⟨fun _ => hv.1,fun _ => rfl⟩
    · rw [done_iff ht,KeptTask.after_iff] at hv
      rw [hv.2.2.2.1]
      exact ⟨fun h => absurd h ht,fun h => by rw [h] at hp; cases hp⟩
  exact (hno taken woken hd).trans (hno _ reason h).symm

end

include hw

lemma Verdict.state_of_interruptible (ht : taken ≠ .terminate) (hi : t.state.interruptible = true) :
    t'.state = (t.after signal taken).state := by
  rw [done_iff ht,KeptTask.after_iff] at hd
  refine hd.2.2.2.2.2.2.resolve_right (fun hr => ?_)
  obtain ⟨hn,hru⟩ := hw ht _ _ hr.2
  rw [Task.after_state,hi] at hn hru
  cases hwk : taken.wakes <;> simp [hwk,hi] at hn hru

include hp in
lemma Verdict.suits_of_done (h : (t.verdict signal).Done signal reason t t') : taken.Suits signal reason t := by
  have he := ends_iff hd hp h
  refine ⟨he,fun ht => ?_,fun ht hi => ?_⟩
  · rw [done_iff ht,KeptTask.after_iff] at hd
    rw [done_iff (fun hv => ht (he.2 hv)),KeptTask.after_iff] at h
    have h5 := hd.2.2.2.2.1.symm.trans h.2.2.2.2.1
    rw [Task.after_pending,Task.after_pending] at h5
    cases hpt : taken.pends <;> cases hpv : (t.verdict signal).pends <;> simp [hpt,hpv] at h5 ⊢
    · exact h5.symm
    · exact h5
  · have hst := state_of_interruptible hd hw ht hi
    rw [done_iff (fun hv => ht (he.2 hv)),KeptTask.after_iff] at h
    have h7 := h.2.2.2.2.2.2
    have hne := ne_runnable_of_interruptible hi
    rw [hst,Task.after_state,Task.after_state,hi] at h7
    cases hwt : taken.wakes <;> cases hwv : (t.verdict signal).wakes <;> simp [hwt,hwv,hne,Ne.symm hne] at h7 ⊢
    exact h7

lemma Verdict.Suits.done (h : taken.Suits signal reason t) (hsub : ∀ tgid state, woken tgid state → reason tgid state) :
    (t.verdict signal).Done signal reason t t' := by
  by_cases ht : taken = .terminate
  · rw [h.ends.1 ht]
    subst ht
    exact hd
  have hst := state_of_interruptible hd hw ht
  rw [done_iff ht,KeptTask.after_iff] at hd
  rw [done_iff (fun hv => ht (h.ends.2 hv)),KeptTask.after_iff]
  obtain ⟨h1,h2,h3,h4,h5,h6,h7⟩ := hd
  refine ⟨h1,h2,h3,h4,?_,h6,?_⟩
  · rw [h5,Task.after_pending,Task.after_pending]
    obtain he | he := h.pending ht
    · rw [he]
    · cases taken.pends <;> cases (t.verdict signal).pends <;> simp [he]
  · by_cases hi : t.state.interruptible = true
    · obtain ⟨ha,hb⟩ := h.wakes ht hi
      rw [hst hi,Task.after_state,Task.after_state,hi]
      cases hwt : taken.wakes <;> cases hwv : (t.verdict signal).wakes <;> simp [hwt,hwv] at ha hb ⊢
      exact .inr hb
    · rw [Task.after_state,Bool.eq_false_iff.2 hi] at h7
      rw [Task.after_state,Bool.eq_false_iff.2 hi]
      simp only [Bool.and_false,Bool.false_eq_true,if_false] at h7 ⊢
      exact h7.imp_right (fun h => ⟨h.1,hsub _ _ h.2⟩)

end

/-- The law holds of what is carried out exactly if that suits every thread that is reached. -/
lemma treated_iff {hit : Nat → Nat → Task → Prop} (taken : Nat → Verdict) (woken : Nat → Nat → TaskState → Prop)
    (hcode : ∀ c i, Option.Rel (Treat signal (woken c) (hit c i) (fun _ => taken c)) (s.taskAt c i) (s'.taskAt c i))
    (hp : ∀ c i t, s.taskAt c i = some t → hit c i t → t.process.isSome = true)
    (hw : ∀ c, taken c ≠ .terminate → ∀ tgid state, woken c tgid state → state.interruptible = false ∧ state ≠ .runnable)
    (hsub : (∀ c i t, s.taskAt c i = some t → hit c i t → taken c = .terminate → t.verdict signal = .terminate) →
      ∀ c tgid state, woken c tgid state → WokenByVictim s signal child hit tgid state) :
    SignalTreated s s' signal child hit ↔
      ∀ c i t, s.taskAt c i = some t → hit c i t →
        (taken c).Suits signal (WokenByVictim s signal child hit) t := by
  constructor
  · intro h c i t ht hh
    obtain ⟨t',ht',hc⟩ := optionRel_some_left (hcode c i) ht
    obtain ⟨t'',ht'',hl⟩ := optionRel_some_left (h c i) ht
    obtain rfl : t' = t'' := Option.some.inj (ht'.symm.trans ht'')
    exact Verdict.suits_of_done (hc.1 hh) (hp c i t ht hh) (hw c) (hl.1 hh)
  · intro h c i
    have hr := hsub (fun c i t ht hh hte => (h c i t ht hh).ends.1 hte)
    have hc := hcode c i
    cases ht : s.taskAt c i with
    | none =>
      generalize s'.taskAt c i = o at hc
      rw [ht] at hc
      cases hc
      exact .none
    | some t =>
      obtain ⟨t',ht',hc⟩ := optionRel_some_left hc ht
      rw [ht']
      refine .some ⟨fun hh => ?_,fun hh => ?_⟩
      · exact (h c i t ht hh).done (hc.1 hh) (hw c) (hr c)
      · obtain ⟨h1,h2,h3,h4,h5,h6,h7⟩ := hc.2 hh
        exact ⟨h1,h2,h3,h4,h5,h6,h7.imp_right (fun h => ⟨h.1,hr c _ _ h.2⟩)⟩

lemma Target.isSome_of_hits (h : target.hits t = true) : t.process.isSome = true := by
  cases target <;> simp [Target.hits] at h <;> exact h.1

lemma not_interruptible_of_waitsFor {state : TaskState} (h : state.waitsFor child = true) :
    state.interruptible = false ∧ state ≠ .runnable := by
  cases state with
  | waiting => exact ⟨rfl,by simp⟩
  | runnable | pipeWaiting | futexWait | sleeping | zombie | reaped => cases h

def groupSystem (mask : Signal.Word) : System :=
  {waiterSystem 1 with
    schedulers := [some ⟨[{plainTask 1 1 .runnable with pgid := 1},
        {plainTask 2 2 .runnable with pgid := 1, blockedMask := mask}],0⟩]}

/-- Two processes of one group with handlers of their own; the second blocks the signals of `mask`. -/
def handlerSystem (mask : Signal.Word) : System :=
  {waiterSystem 1 with
    schedulers := [some ⟨[{plainTask 1 1 .runnable with pgid := 1, signalActions := fun _ => ⟨0x1000,0,0,0⟩},
        {plainTask 2 2 .runnable with pgid := 1, blockedMask := mask, signalActions := fun _ => ⟨0x2000,0,0,0⟩}],0⟩]}

lemma handlerSystem_taskAt {mask : Signal.Word} {c : Nat} (h : (handlerSystem mask).taskAt c i = some t) :
    c = 0 ∧ (t = {plainTask 1 1 .runnable with pgid := 1, signalActions := fun _ => ⟨0x1000,0,0,0⟩} ∨
      t = {plainTask 2 2 .runnable with pgid := 1, blockedMask := mask, signalActions := fun _ => ⟨0x2000,0,0,0⟩}) := by
  cases c with
  | zero =>
    refine ⟨rfl,?_⟩
    rw [taskAt_eq] at h
    simpa [handlerSystem,tasksAt,System.sched] using mem_of_getElem? h
  | succ c => simp [handlerSystem,taskAt,System.sched] at h

end Vanta.Sched
