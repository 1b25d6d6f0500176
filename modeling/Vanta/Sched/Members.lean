import Vanta.Sched.Disposition
import Vanta.Sched.Wait

namespace Vanta.Sched
open List Option

def Task.unreaped (tgid : Nat) (t : Task) : Bool := t.tgid == tgid && t.state != .reaped

def System.members (s : System) (tgid : Nat) : Nat := s.tasks.countP (Task.unreaped tgid)

variable {R : Task → Task → Prop} {i tgid k : Nat} {target : Target}
variable {p : Task → Bool} {l : List Task}

lemma countP_le_of_places (hR : ∀ t t', R t t' → p t' = true → p t = true)
    {l' : List Task} (h : ∀ i : Nat, Option.Rel R l[i]? l'[i]?) : l'.countP p ≤ l.countP p := by
  induction l' generalizing l with
  | nil => simp
  | cons t' l' ih =>
    cases l with
    | nil => cases h 0
    | cons t l =>
      have hr : l'.countP p ≤ l.countP p := ih (fun i => h (i+1))
      have hh : R t t' := by
        cases h 0 with
        | some hh => exact hh
      have hi := hR t t' hh
      rw [countP_cons,countP_cons]
      cases hp' : p t' with
      | false => simp only [Bool.false_eq_true,if_false]; omega
      | true => simp only [hi hp',if_true]; omega

def entryTasks (sched : Option Scheduler) : List Task := (sched.map Scheduler.tasks).getD []

lemma countP_tasksOf_cons (p : Task → Bool) (sched : Option Scheduler) (l : List (Option Scheduler)) :
    (tasksOf (sched::l)).countP p = (entryTasks sched).countP p+(tasksOf l).countP p := by
  rw [tasksOf,flatMap_cons,countP_append]
  rfl

lemma entryTasks_getElem? (sched : Option Scheduler) (i : Nat) :
    (entryTasks sched)[i]? = sched.bind (fun sched => sched.tasks[i]?) := by
  cases sched <;> rfl

lemma countP_tasksOf_le (hR : ∀ t t', R t t' → p t' = true → p t = true)
    {l l' : List (Option Scheduler)} (h : ∀ c i : Nat, Option.Rel R (l[c]?.join.bind (fun sched => sched.tasks[i]?))
      (l'[c]?.join.bind (fun sched => sched.tasks[i]?))) : (tasksOf l').countP p ≤ (tasksOf l).countP p := by
  induction l' generalizing l with
  | nil => simp [tasksOf]
  | cons x' l' ih =>
    rw [countP_tasksOf_cons]
    cases l with
    | nil =>
      have hh : (entryTasks x').countP p ≤ ([] : List Task).countP p :=
        countP_le_of_places hR (fun i => by rw [entryTasks_getElem?]; exact h 0 i)
      have hr : (tasksOf l').countP p ≤ (tasksOf []).countP p := ih (fun c i => h (c+1) i)
      rw [countP_nil] at hh
      omega
    | cons x l =>
      have hh : (entryTasks x').countP p ≤ (entryTasks x).countP p :=
        countP_le_of_places hR (fun i => by rw [entryTasks_getElem?,entryTasks_getElem?]; exact h 0 i)
      have hr : (tasksOf l').countP p ≤ (tasksOf l).countP p := ih (fun c i => h (c+1) i)
      rw [countP_tasksOf_cons]
      omega

variable {cpu signal : Nat} {t t' : Task} {s s' : System}
variable {sched : Scheduler}

lemma countP_tasksOf_set (p : Task → Bool) {l : List (Option Scheduler)}
    (h : l[cpu]? = some (some sched)) (sched' : Scheduler) :
    (tasksOf (l.set cpu (some sched'))).countP p+sched.tasks.countP p = (tasksOf l).countP p+sched'.tasks.countP p := by
  induction l generalizing cpu with
  | nil => simp at h
  | cons x l ih =>
    cases cpu with
    | zero =>
      obtain rfl : x = some sched := by simpa using h
      rw [set_cons_zero,countP_tasksOf_cons,countP_tasksOf_cons]
      simp only [entryTasks,map_some,getD_some]
      omega
    | succ cpu =>
      have hc : l[cpu]? = some (some sched) := by simpa using h
      have hr := ih hc
      rw [set_cons_succ,countP_tasksOf_cons,countP_tasksOf_cons]
      omega

lemma tasksOf_set_none_sublist (l : List (Option Scheduler)) (cpu : Nat) :
    (tasksOf (l.set cpu none)).Sublist (tasksOf l) := by
  induction l generalizing cpu with
  | nil => exact List.Sublist.refl _
  | cons x l ih =>
    cases cpu with
    | zero =>
      exact sublist_append_right _ _
    | succ cpu =>
      exact (ih cpu).append_left _

lemma countP_set_add (p : Task → Bool) (h : l[i]? = some t) (t' : Task) :
    (l.set i t').countP p+(if p t = true then 1 else 0) = l.countP p+(if p t' = true then 1 else 0) := by
  induction l generalizing i with
  | nil => simp at h
  | cons u l ih =>
    cases i with
    | zero =>
      obtain rfl : u = t := by simpa using h
      rw [set_cons_zero,countP_cons,countP_cons]
      omega
    | succ i =>
      have hi : l[i]? = some t := by simpa using h
      have hr := ih hi
      rw [set_cons_succ,countP_cons,countP_cons]
      omega

lemma System.members_le (hR : ∀ t t', R t t' → t'.unreaped tgid = true → t.unreaped tgid = true)
    (h : ∀ c i, Option.Rel R (s.taskAt c i) (s'.taskAt c i)) : s'.members tgid ≤ s.members tgid :=
  countP_tasksOf_le hR h

lemma System.setTask_eq_setSched (h : s.sched k = some sched) (i : Nat)
    (t : Task) : s.setTask k i t = s.setSched k (some {sched with tasks := sched.tasks.set i t}) := by
  rw [setTask,setSched,modify_eq_set_getElem?,s.sched_eq_some h]
  rfl

lemma System.members_setTask (h : s.taskAt k i = some t) (t' : Task) (tgid : Nat) :
    (s.setTask k i t').members tgid+(if t.unreaped tgid = true then 1 else 0) =
      s.members tgid+(if t'.unreaped tgid = true then 1 else 0) := by
  obtain ⟨sched,hs,hg⟩ := bind_eq_some_iff.1 h
  have hse := countP_tasksOf_set (Task.unreaped tgid) (s.sched_eq_some hs)
    {sched with tasks := sched.tasks.set i t'}
  have hl := countP_set_add (Task.unreaped tgid) hg t'
  rw [setTask_eq_setSched hs]
  change (tasksOf (s.schedulers.set k (some {sched with tasks := sched.tasks.set i t'}))).countP _+_ =
    (tasksOf s.schedulers).countP _+_
  dsimp only at hse
  omega

lemma System.members_pos (ht : t ∈ s.tasks) (h : t.unreaped tgid = true) :
    0 < s.members tgid := countP_pos_iff.2 ⟨t,ht,h⟩

/-- The task is the same and has not ended, or has ended as before. -/
structure Remains (t t' : Task) : Prop where
  tgid : t'.tgid = t.tgid
  parentPid : t'.parentPid = t.parentPid
  process : t'.process = t.process
  ended : t'.Ended ∨ t.Ended → t'.state = t.state

lemma Remains.refl (t : Task) : Remains t t := ⟨rfl,rfl,rfl,fun _ => rfl⟩

lemma Task.ended_congr (h : t'.state = t.state) : t'.Ended ↔ t.Ended := by
  rw [Ended,Ended,h]

variable {t'' : Task}

lemma Remains.trans (h : Remains t t') (h' : Remains t' t'') : Remains t t'' := by
  refine ⟨h'.tgid.trans h.tgid,h'.parentPid.trans h.parentPid,h'.process.trans h.process,?_⟩
  rintro (he | he)
  · have hs := h'.ended (.inl he)
    exact hs.trans (h.ended (.inl ((Task.ended_congr hs).1 he)))
  · have hs := h.ended (.inr he)
    exact (h'.ended (.inr ((Task.ended_congr hs).2 he))).trans hs

lemma Remains.ended_iff (h : Remains t t') : t'.Ended ↔ t.Ended :=
  ⟨fun he => (Task.ended_congr (h.ended (.inl he))).1 he,fun he => (Task.ended_congr (h.ended (.inr he))).2 he⟩

lemma Remains.unreaped (h : Remains t t') (hu : t'.unreaped tgid = true) : t.unreaped tgid = true := by
  rw [Task.unreaped,Bool.and_eq_true,beq_iff_eq,bne_iff_ne] at hu ⊢
  refine ⟨h.tgid.symm.trans hu.1,fun hr => hu.2 ?_⟩
  exact (h.ended (.inr (.inr hr))).trans hr

lemma KeptTask.remains {P : Nat → TaskState → Prop} (hP : ∀ t : Task, t.Ended → ¬P t.tgid t.state)
    (h : KeptTask P t t') : Remains t t' := by
  refine ⟨h.tgid,h.parentPid,h.process,fun he => ?_⟩
  obtain hs | ⟨hs,hw⟩ := h.state
  · exact hs
  obtain he | he := he
  · exact absurd he (not_ended_of_runnable hs)
  · exact absurd hw (hP t he)

structure Quiet (s s' : System) : Prop where
  nextPid : s'.nextPid = s.nextPid
  reports : s'.reports = s.reports
  tasks : ∀ t' ∈ s'.tasks, ∃ t ∈ s.tasks, Remains t t'
  members : ∀ tgid, s'.members tgid ≤ s.members tgid

lemma Quiet.refl (s : System) : Quiet s s := ⟨rfl,rfl,fun t ht => ⟨t,ht,Remains.refl t⟩,fun _ => Nat.le_refl _⟩

variable {s'' : System}

lemma Quiet.trans (h : Quiet s s') (h' : Quiet s' s'') : Quiet s s'' := by
  refine ⟨h'.nextPid.trans h.nextPid,h'.reports.trans h.reports,fun t'' ht'' => ?_,
    fun tgid => (h'.members tgid).trans (h.members tgid)⟩
  obtain ⟨t',ht',hr'⟩ := h'.tasks t'' ht''
  obtain ⟨t,ht,hr⟩ := h.tasks t' ht'
  exact ⟨t,ht,hr.trans hr'⟩

lemma Quiet.of_places (hp : s'.nextPid = s.nextPid) (hre : s'.reports = s.reports)
    (h : ∀ c i, Option.Rel Remains (s.taskAt c i) (s'.taskAt c i)) : Quiet s s' := by
  refine ⟨hp,hre,fun t' ht' => ?_,fun tgid => System.members_le (fun _ _ hr => hr.unreaped) h⟩
  obtain ⟨c,i,ha⟩ := System.mem_tasks.1 ht'
  obtain ⟨t,ho,hrel⟩ := optionRel_some (h c i) ha
  exact ⟨t,System.mem_tasks.2 ⟨c,i,ho⟩,hrel⟩

lemma Quiet.of_perm (hp : s'.nextPid = s.nextPid) (hr : s'.reports = s.reports)
    (h : s.tasks.Perm s'.tasks) : Quiet s s' :=
  ⟨hp,hr,fun t ht => ⟨t,h.mem_iff.2 ht,Remains.refl t⟩,fun _ => (h.countP_eq _).ge⟩

lemma optionRel_remains_refl (o : Option Task) : Option.Rel Remains o o := by
  cases o with
  | none => exact .none
  | some t => exact .some (Remains.refl t)

lemma optionRel_comp (hR : ∀ t t' t'', R t t' → R t' t'' → R t t'') {o o' o'' : Option Task}
    (h : Option.Rel R o o') (h' : Option.Rel R o' o'') : Option.Rel R o o'' := by
  cases h with
  | none =>
    cases h'
    exact .none
  | some h =>
    cases h' with
    | some h' => exact .some (hR _ _ _ h h')

lemma Quiet.of_records (hr : SameRecords s s') (h : s.tasks.Perm s'.tasks) : Quiet s s' :=
  .of_perm hr.nextPid hr.reports h

lemma System.switchTo_quiet {index : Nat} (h : s.switchTo cpu index = some s') : Quiet s s' := by
  refine .of_records (switchTo_records h) ?_
  rw [switchTo] at h
  cases hs : s.sched cpu with
  | none => simp [hs] at h
  | some sched =>
    simp only [hs] at h
    split at h
    · cases h
    cases h
    have hsa : ([]++sched.tasks).Perm ({sched with current := index} : Scheduler).tasks := List.Perm.refl _
    exact tasksOf_set_perm (s.sched_eq_some hs) hsa

lemma System.waitForNextRunnable_quiet {previous index : Nat}
    (h : s.waitForNextRunnable cpu previous = some (s',index)) : Quiet s s' := by
  obtain ⟨-,-,-,-,-,hp⟩ := waitForNextRunnable_spec h
  exact .of_records (waitForNextRunnable_records h) hp

lemma System.setSched_none_quiet (s : System) (cpu : Nat) : Quiet s (s.setSched cpu none) := by
  have hn : ∀ c i, (s.setSched cpu none).taskAt c i = none ∨ (s.setSched cpu none).taskAt c i = s.taskAt c i := by
    intro c i
    rw [taskAt,sched,setSched,List.getElem?_set]
    split_ifs
    · exact .inl rfl
    · exact .inl rfl
    · exact .inr rfl
  refine ⟨rfl,rfl,fun t ht => ?_,fun tgid => ?_⟩
  · obtain ⟨c,i,ha⟩ := mem_tasks.1 ht
    obtain hno | hs := hn c i
    · rw [hno] at ha
      cases ha
    · exact ⟨t,mem_tasks.2 ⟨c,i,hs.symm.trans ha⟩,Remains.refl t⟩
  · exact (tasksOf_set_none_sublist s.schedulers cpu).countP_le

lemma System.setTask_quiet (h : s.taskAt k i = some t) (hr : Remains t t') : Quiet s (s.setTask k i t') := by
  refine .of_places rfl rfl (fun c j => ?_)
  rw [taskAt_setTask h]
  split_ifs with hp
  · rw [hp.1,hp.2,h]
    exact .some hr
  · exact optionRel_remains_refl _

lemma System.waitCurrent_quiet {pid statusPtr : Nat} {next : Next} {caller : Task}
    (hc : s.running cpu = some caller) (hl : ¬caller.Ended)
    (h : s.waitCurrent cpu pid statusPtr = some (s',next)) : Quiet s s' := by
  obtain ⟨sched,hs,hg⟩ := s.running_spec hc
  have ha : s.taskAt cpu sched.current = some caller := by rw [taskAt,hs]; exact hg
  have hb : Quiet s (s.setTask cpu sched.current {caller with state := .waiting pid statusPtr}) := by
    refine setTask_quiet ha ⟨rfl,rfl,rfl,?_⟩
    rintro (he | he)
    · obtain ⟨code,hz⟩ | hr := he
      · cases hz
      · cases hr
    · exact absurd he hl
  rw [setTask_eq_setSched hs] at hb
  have hm : sched.tasks.modify sched.current (fun t => {t with state := .waiting pid statusPtr}) =
      sched.tasks.set sched.current {caller with state := .waiting pid statusPtr} := by
    rw [modify_eq_set_getElem?,hg]
    rfl
  rw [waitCurrent,hs] at h
  dsimp only at h
  rw [hm] at h
  split at h
  · cases h
    exact hb
  next s1 index hw =>
  obtain ⟨s2,hsw,heq⟩ := map_eq_some_iff.1 h
  cases heq
  exact (hb.trans (waitForNextRunnable_quiet hw)).trans (switchTo_quiet hsw)

/-- The task remains and treats signals as before. -/
structure Pended (t t' : Task) : Prop where
  remains : Remains t t'
  verdict : ∀ signal, t'.verdict signal = t.verdict signal
  hits : ∀ target : Target, target.hits t' = target.hits t

lemma Task.ended_of_interruptible (h : t.Ended) : t.state.interruptible = false := by
  obtain ⟨code,hz⟩ | hr := h
  · rw [hz]
    rfl
  · rw [hr]
    rfl

lemma Task.pend_pended (signal now : Nat) (wakes : Bool) (t : Task) : Pended t (t.pend signal now wakes).1 := by
  have hs : t.state.interruptible = false → (t.pend signal now wakes).1.state = t.state := by
    intro hn
    simp [pend,hn]
  have hg : t.state.interruptible = true → wakes = true → (t.pend signal now wakes).1.state = .runnable := by
    intro hy hw
    unfold pend
    dsimp only
    rw [hy,hw,Bool.and_self,if_pos rfl]
    split <;> rfl
  have hsa : wakes = false → (t.pend signal now wakes).1.state = t.state := by
    rintro rfl
    rfl
  have hf : (t.pend signal now wakes).1.tgid = t.tgid ∧ (t.pend signal now wakes).1.parentPid = t.parentPid ∧
      (t.pend signal now wakes).1.process = t.process ∧ (t.pend signal now wakes).1.pgid = t.pgid ∧
      (t.pend signal now wakes).1.blockedMask = t.blockedMask ∧
      (t.pend signal now wakes).1.signalActions = t.signalActions := by
    unfold pend
    dsimp only
    split_ifs
    · split <;> exact ⟨rfl,rfl,rfl,rfl,rfl,rfl⟩
    · exact ⟨rfl,rfl,rfl,rfl,rfl,rfl⟩
  obtain ⟨ht,hp,hpr,hpg,hm,ha⟩ := hf
  refine ⟨⟨ht,hp,hpr,?_⟩,fun signal => ?_,fun target => ?_⟩
  · rintro (he | he)
    · cases hi : t.state.interruptible with
      | false => exact hs hi
      | true =>
        cases hw : wakes with
        | false =>
          subst hw
          exact hsa rfl
        | true => exact absurd he (not_ended_of_runnable (hg hi hw))
    · exact hs (ended_of_interruptible he)
  · exact verdict_congr (by rw [ha]) (by rw [blocks,blocks,hm])
  · cases target <;> simp only [Target.hits,hpr,hpg,ht]

lemma Pended.trans (h : Pended t t') (h' : Pended t' t'') : Pended t t'' :=
  ⟨h.remains.trans h'.remains,fun signal => (h'.verdict signal).trans (h.verdict signal),
    fun target => (h'.hits target).trans (h.hits target)⟩

lemma optionRel_pended_refl (o : Option Task) : Option.Rel Pended o o := by
  cases o with
  | none => exact .none
  | some t => exact .some ⟨Remains.refl t,fun _ => rfl,fun _ => rfl⟩

lemma System.pendAt_rest (s : System) (k signal now : Nat) (wakes : Bool) (i : Nat) :
    (s.pendAt k signal now wakes i).nextPid = s.nextPid ∧ (s.pendAt k signal now wakes i).reports = s.reports := by
  rw [pendAt]
  split <;> exact ⟨rfl,rfl⟩

lemma System.pendAll_rest (s : System) (k signal now : Nat) (wakes : Bool) (l : List Nat) :
    (s.pendAll k signal now wakes l).nextPid = s.nextPid ∧ (s.pendAll k signal now wakes l).reports = s.reports := by
  induction l generalizing s with
  | nil => exact ⟨rfl,rfl⟩
  | cons i l ih =>
    obtain ⟨hp,hr⟩ := ih (s.pendAt k signal now wakes i)
    obtain ⟨hp',hr'⟩ := s.pendAt_rest k signal now wakes i
    exact ⟨hp.trans hp',hr.trans hr'⟩

/-- All tasks remain and treat signals as before. -/
structure QuietSignal (s s' : System) : Prop where
  nextPid : s'.nextPid = s.nextPid
  reports : s'.reports = s.reports
  places : ∀ c i, Option.Rel Pended (s.taskAt c i) (s'.taskAt c i)

lemma QuietSignal.refl (s : System) : QuietSignal s s := ⟨rfl,rfl,fun _ _ => optionRel_pended_refl _⟩

lemma QuietSignal.trans (h : QuietSignal s s') (h' : QuietSignal s' s'') : QuietSignal s s'' :=
  ⟨h'.nextPid.trans h.nextPid,h'.reports.trans h.reports,
    fun c i => optionRel_comp (R := Pended) (fun _ _ _ => Pended.trans) (h.places c i) (h'.places c i)⟩

lemma QuietSignal.quiet (h : QuietSignal s s') : Quiet s s' :=
  .of_places h.nextPid h.reports (fun c i => optionRel_mono (h.places c i) (fun _ _ hr => hr.remains))

lemma System.pendAll_quiet (s : System) (k signal now : Nat) (wakes : Bool) {l : List Nat} (hl : l.Nodup) :
    QuietSignal s (s.pendAll k signal now wakes l) := by
  obtain ⟨hpi,hr⟩ := s.pendAll_rest k signal now wakes l
  refine ⟨hpi,hr,fun c j => ?_⟩
  rw [pendAll_taskAt s k signal now wakes hl]
  split_ifs with hp
  · rw [hp.1]
    cases s.taskAt k j with
    | none => exact .none
    | some t => exact .some (t.pend_pended signal now wakes)
  · exact optionRel_pended_refl _

def System.Spares (s : System) (target : Target) (signal : Nat) : Prop :=
  ∀ t ∈ s.tasks, target.hits t = true → t.verdict signal ≠ .terminate

lemma System.Spares.later (h : s.Spares target signal) (hq : QuietSignal s s') : s'.Spares target signal := by
  intro t' ht' hh
  obtain ⟨c,i,ha⟩ := mem_tasks.1 ht'
  obtain ⟨t,ho,hr⟩ := optionRel_some (hq.places c i) ha
  rw [hr.verdict]
  exact h t (mem_tasks.2 ⟨c,i,ho⟩) ((hr.hits target).symm.trans hh)

lemma Task.terminate_of_test (hn : signal ≠ 0)
    (h : (signal = 9 ∨ (t.signalActions signal).saHandler = 0 ∧ terminatesByDefault signal = true) ∧
      ¬t.blocks signal = true) : t.verdict signal = .terminate := by
  obtain ⟨ht,hb⟩ := h
  rw [verdict,if_neg hn]
  by_cases hk : signal = 9
  · rw [if_pos hk]
  obtain ⟨hd,ht⟩ := ht.resolve_left hk
  have ha : ¬((t.signalActions signal).saHandler = 1 ∨
      (t.signalActions signal).saHandler = 0 ∧ Signal.defaultSignalAction signal = .ignore) := by
    rintro (ho | ⟨-,hi⟩)
    · rw [hd] at ho
      cases ho
    · rw [terminatesByDefault,hi] at ht
      cases ht
  rw [if_neg hk,if_neg hb,if_neg ha,if_pos ⟨hd,ht⟩]

lemma System.killIn_quiet (cpu now : Nat) (targetTgid : Nat) (k : Nat) (hs : s.Spares target signal) :
    QuietSignal s (s.killIn cpu now signal targetTgid target k).1 ∧
      (s.killIn cpu now signal targetTgid target k).2.2 = none := by
  rw [killIn]
  cases hsc : s.sched k with
  | none => exact ⟨QuietSignal.refl s,rfl⟩
  | some sched =>
    dsimp only
    cases hf : (matchingIndices target sched.tasks).head?.bind (fun i => sched.tasks[i]?) with
    | none => exact ⟨QuietSignal.refl s,rfl⟩
    | some first =>
      obtain ⟨i,hh,hg⟩ := bind_eq_some_iff.1 hf
      obtain ⟨t,ht,hhi⟩ := mem_matchingIndices.1 (mem_of_head? hh)
      obtain rfl := Option.some.inj (ht.symm.trans hg)
      have hm : t ∈ s.tasks := mem_tasks.2 ⟨k,i,by rw [taskAt,hsc]; exact ht⟩
      dsimp only
      by_cases hz : signal = 0
      · rw [if_pos hz]
        exact ⟨QuietSignal.refl s,rfl⟩
      have hl := fun hte => hs t hm hhi (Task.terminate_of_test hz hte)
      rw [Task.blocks] at hl
      split_ifs
      · exact ⟨QuietSignal.refl s,rfl⟩
      · exact ⟨s.pendAll_quiet k signal now _ (matchingIndices_nodup target sched.tasks),rfl⟩

lemma System.killLoop_quiet (cpu now : Nat) (targetTgid : Nat)
    (ks : List Nat) (found : Bool) (hs : s.Spares target signal) :
    QuietSignal s (s.killLoop cpu now signal targetTgid target ks found none).1 ∧
      (s.killLoop cpu now signal targetTgid target ks found none).2.2 = none := by
  induction ks generalizing s found with
  | nil => exact ⟨QuietSignal.refl s,rfl⟩
  | cons k ks ih =>
    obtain ⟨hq,hp⟩ := killIn_quiet cpu now targetTgid k hs
    rw [killLoop]
    dsimp only
    rw [hp]
    obtain ⟨hr,hn⟩ := ih (found || (s.killIn cpu now signal targetTgid target k).2.1) (hs.later hq)
    exact ⟨hq.trans hr,hn⟩

lemma System.killProcess_quiet (cpu now pid signal : Nat)
    (hs : ∀ caller, s.running cpu = some caller → s.Spares (killTarget caller pid).1 signal) :
    Quiet s ((s.killProcess cpu now pid signal).getD s) := by
  rw [killProcess]
  split_ifs
  · exact Quiet.refl s
  cases hc : (s.sched cpu).bind (fun sched => sched.tasks[sched.current]?) with
  | none => exact Quiet.refl s
  | some caller =>
    obtain ⟨hq,hp⟩ := killLoop_quiet cpu now (killTarget caller pid).2 (List.range s.schedulers.length) false
      (hs caller hc)
    dsimp only
    rw [hp]
    split_ifs
    · exact hq.quiet
    · exact Quiet.refl s

lemma System.killThread_quiet (cpu now tid signal : Nat) (hs : ∀ t ∈ s.tasks, t.tid = tid → t.process.isSome = true →
      signal ≠ 9 ∧ ¬((t.signalActions signal).saHandler = 0 ∧ terminatesByDefault signal = true)) :
    Quiet s ((s.killThread cpu now tid signal).getD s) := by
  rw [killThread]
  split_ifs
  · exact Quiet.refl s
  cases hf : s.findThread tid (List.range s.schedulers.length) with
  | none => exact Quiet.refl s
  | some found =>
    obtain ⟨k,i,t⟩ := found
    obtain ⟨ha,hti,hl⟩ := findThread_some hf
    obtain ⟨hn,ht⟩ := hs t (mem_tasks.2 ⟨k,i,ha⟩) hti hl
    simp only [map_some,getD_some]
    rw [killTask]
    dsimp only
    split
    · exact Quiet.refl s
    split
    · exact Quiet.refl s
    refine .of_places (s.pendAt_rest k signal now true i).1 (s.pendAt_rest k signal now true i).2 (fun c j => ?_)
    rw [pendAt_taskAt]
    split_ifs with hp
    · rw [hp.1,hp.2,ha]
      exact .some (t.pend_pended signal now true).remains
    · exact optionRel_remains_refl _

end Vanta.Sched
