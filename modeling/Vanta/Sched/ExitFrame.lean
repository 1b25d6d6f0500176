import Mathlib.Data.List.Perm.Basic
import Vanta.Sched.Kept

namespace Vanta.Sched
open List Option Sched.System
variable {sched : Scheduler} {t task : Task} {child code cpu index parent : Nat} {s s' : System}
variable {i addr status : Nat} {l : List Task} {native : Nat → Bool}

lemma Scheduler.clearChildTid_kept (ht : sched.tasks[i]? = some task) (parent child : Nat) :
    (sched.clearChildTid i).1.current = sched.current ∧
      KeptTasks (WokenBy task.clearChildTid parent child) sched.tasks (sched.clearChildTid i).1.tasks := by
  rw [clearChildTid,ht]
  dsimp only
  split_ifs with hz
  · exact ⟨rfl,KeptTasks.refl _⟩
  have hs : KeptTasks (WokenBy task.clearChildTid parent child) sched.tasks
      (sched.tasks.set i {task with clearChildTid := 0}) := set_kept ht ⟨rfl,rfl,rfl,rfl,rfl,rfl,.inl rfl⟩
  exact ⟨rfl,hs.trans (wakeLoop_kept (fun _ b => .inl ⟨b,rfl⟩) 1 futexBitsetMatchAny 0 _)⟩

def Task.Ended (t : Task) : Prop := (∃ code, t.state = .zombie code) ∨ t.state = .reaped

/-- The state of a scheduler after a task of it left: the other tasks are kept. -/
structure Left (sched sched' : Scheduler) (index code : Nat) (task : Task) : Prop where
  others : ∀ i, i ≠ index → Option.Rel (KeptTask (WokenBy task.clearChildTid (task.parentPid.getD 0) task.tgid))
    sched.tasks[i]? sched'.tasks[i]?
  left : ∃ t, sched'.tasks[index]? = some t ∧ t.tid = task.tid ∧ t.tgid = task.tgid ∧ t.process = none ∧
    (t.state = .zombie code ∨ t.state = .reaped)

variable {f : Task → Task}

lemma modify_ne {j : Nat} (h : j ≠ i) : (l.modify i f)[j]? = l[j]? := by
  simp [Ne.symm h]

lemma modify_self (h : l[i]? = some t) : (l.modify i f)[i]? = some (f t) := by
  simp [h]

lemma left_of_exit (code : Nat) (ht : sched.tasks[sched.current]? = some task) :
    let sched' := (sched.clearChildTid sched.current).1
    sched'.current = sched.current ∧
      (∀ i, i ≠ sched.current → Option.Rel (KeptTask (WokenBy task.clearChildTid (task.parentPid.getD 0) task.tgid))
        sched.tasks[i]? (sched'.tasks.modify sched'.current (·.exit code))[i]?) ∧
      ∃ t, (sched'.tasks.modify sched'.current (·.exit code))[sched.current]? = some t ∧ t.tid = task.tid ∧
        t.tgid = task.tgid ∧ t.process = none ∧ t.state = .zombie code := by
  intro sched'
  obtain ⟨hc,hk⟩ := sched.clearChildTid_kept ht (task.parentPid.getD 0) task.tgid
  refine ⟨hc,fun i hi => ?_,?_⟩
  · rw [modify_ne (by rw [hc]; exact hi)]
    exact hk i
  obtain ⟨t,hg,ha⟩ := optionRel_some_left (hk sched.current) ht
  rw [hc]
  exact ⟨t.exit code,modify_self hg,ha.tid,ha.tgid,rfl,rfl⟩

lemma not_wokenBy_of_zombie (h : t.state = .zombie code) : ¬WokenBy addr parent child t.tgid t.state := by
  rintro (⟨bitset,hb⟩ | ⟨-,hw⟩)
  · rw [h] at hb
    cases hb
  · rw [h] at hw
    cases hw

lemma Left.of_answer {tasks : List Task} {r : List Task × List UserWrite × Report}
    (ho : ∀ i, i ≠ index → Option.Rel (KeptTask (WokenBy task.clearChildTid (task.parentPid.getD 0) task.tgid))
      sched.tasks[i]? tasks[i]?)
    (hl : ∃ t, tasks[index]? = some t ∧ t.tid = task.tid ∧ t.tgid = task.tgid ∧ t.process = none ∧
      t.state = .zombie code)
    (h : answerParent native (task.parentPid.getD 0) task.tgid status code tasks = some r) (current : Nat) :
    Left sched ⟨r.1.modify index Task.reap,current⟩ index code task := by
  have hk : KeptTasks (WokenBy task.clearChildTid (task.parentPid.getD 0) task.tgid) tasks r.1 :=
    answerParent_kept (fun state hw => .inr ⟨rfl,hw⟩) h
  refine ⟨fun i hi => ?_,?_⟩
  · rw [modify_ne hi]
    exact optionRel_trans (ho i hi) (hk i)
  obtain ⟨t,ht,hti,htg,hp,hs⟩ := hl
  obtain ⟨t',hg,ha⟩ := optionRel_some_left (hk index) ht
  exact ⟨t'.reap,modify_self hg,ha.tid.trans hti,ha.tgid.trans htg,ha.process.trans hp,.inr rfl⟩

/-- The state after the first section of `exit_current`. -/
structure SectionDone (s s' : System) (cpu code : Nat) (sched : Scheduler) (task : Task) (next : Option Nat)
    (remaining : Nat) : Prop where
  others : ∀ c, c ≠ cpu → s'.sched c = s.sched c
  native : s'.native = s.native
  mine : ∃ sched', s'.sched cpu = some sched' ∧ Left sched sched' sched.current code task ∧
    remaining = sched'.tasks.countP (·.process.isSome) ∧ sched'.current = next.getD sched.current ∧
    ∀ i, next = some i → ∃ t, sched'.tasks[i]? = some t ∧ t.state = .runnable

variable {sched' : Scheduler} {next : Option Nat} {remaining : Nat}

lemma SectionDone.of_set (hlt : cpu < s.schedulers.length)
    (hs : s'.schedulers = s.schedulers.set cpu (some sched')) (hn : s'.native = s.native)
    (hl : Left sched sched' sched.current code task) (hr : remaining = sched'.tasks.countP (·.process.isSome))
    (hcu : sched'.current = next.getD sched.current)
    (hne : ∀ i, next = some i → ∃ t, sched'.tasks[i]? = some t ∧ t.state = .runnable) :
    SectionDone s s' cpu code sched task next remaining where
  others c hc := (sched_of_set hlt hs c).trans (if_neg hc)
  native := hn
  mine := ⟨sched',(sched_of_set hlt hs cpu).trans (if_pos rfl),hl,hr,hcu,hne⟩

lemma System.exitSection_spec
    (hs : s.sched cpu = some sched) (hta : sched.tasks[sched.current]? = some task) (code : Nat) :
    SectionDone s (s.exitSection cpu code sched task).1 cpu code sched task (s.exitSection cpu code sched task).2.1
      (s.exitSection cpu code sched task).2.2 := by
  obtain ⟨hc,ho,hl⟩ := left_of_exit code hta
  have hlt := s.lt_of_sched hs
  rw [exitSection]
  dsimp only
  split
  · obtain ⟨t,ht,hti,htg,hp,hst⟩ := hl
    exact .of_set hlt rfl rfl ⟨ho,t,ht,hti,htg,hp,.inl hst⟩ rfl (by dsimp only; rw [hc]) (fun i hi => nextAlive_runnable hi)
  next tasks writes report ha =>
  split_ifs at ha
  refine .of_set hlt rfl rfl ?_ rfl (by dsimp only; rw [hc]) (fun i hi => nextAlive_runnable hi)
  simp only [hc] at ho hl ha ⊢
  exact Left.of_answer ho hl ha _

lemma answerParent_none (h : ∀ t ∈ l, ¬(t.tgid = parent ∧ t.state.waitsFor child = true)) :
    answerParent native parent child status code l = none := by
  induction l with
  | nil => rfl
  | cons t l ih =>
    rw [answerParent,if_neg (h t mem_cons_self),ih (fun t' ht' => h t' (mem_cons_of_mem t ht'))]
    rfl

lemma answerRemote_none {l : List (Option Scheduler)} (h : ∀ k sched, l[k]? = some (some sched) → index+k ≠ cpu →
      ∀ t ∈ sched.tasks, ¬(t.tgid = parent ∧ t.state.waitsFor child = true)) :
    answerRemote native cpu parent child status code index l = none := by
  induction l generalizing index with
  | nil => rfl
  | cons sched l ih =>
    have hr : answerRemote native cpu parent child status code (index+1) l = none :=
      ih (fun k sched' hk hn => h (k+1) sched' hk (by omega))
    have hh : (if index = cpu then none
        else sched.bind (fun sched => (answerParent native parent child status code sched.tasks).map (sched,·))) =
          none := by
      split_ifs with hc
      · rfl
      cases sched with
      | none => rfl
      | some sched =>
        simp only [bind_some,answerParent_none (h 0 sched rfl hc),map_none]
    rw [answerRemote,hh,hr]
    rfl

def System.ParentElsewhere (s : System) (cpu : Nat) (task : Task) : Prop :=
  ∃ c i t, c ≠ cpu ∧ s.taskAt c i = some t ∧ task.parentPid = some t.tgid ∧ t.state.waitsFor task.tgid = true

lemma System.exitRemote_eq (h : ¬s.ParentElsewhere cpu task) (code : Nat) : s.exitRemote cpu code task = s := by
  rw [exitRemote]
  cases hp : task.parentPid with
  | none => rfl
  | some parentPid =>
    have hn : answerRemote s.native cpu parentPid task.tgid (exitStatus code) code 0 s.schedulers = none := by
      refine answerRemote_none (fun k sched hk hne t ht hm => h ?_)
      obtain ⟨i,hi⟩ := mem_iff_getElem?.mp ht
      refine ⟨k,i,t,by omega,?_,by rw [hp,hm.1],hm.2⟩
      rw [taskAt,System.sched,hk]
      exact hi
    dsimp only
    rw [hn]
    split_ifs <;> rfl

lemma System.dropProcess_schedulers (s : System) (cpu : Nat) (p : Option Nat) :
    (s.dropProcess cpu p).schedulers = s.schedulers := by
  cases p with
  | none => rfl
  | some p =>
    rw [dropProcess]
    split_ifs <;> rfl

lemma System.taskAt_congr (h : s'.schedulers = s.schedulers) (c i : Nat) : s'.taskAt c i = s.taskAt c i := by
  rw [taskAt,taskAt,sched,sched,h]

lemma tasksOf_set_perm {l : List (Option Scheduler)}
    (h : l[cpu]? = some (some sched)) {extra : List Task} (hp : (extra++sched.tasks).Perm sched'.tasks) :
    (extra++tasksOf l).Perm (tasksOf (l.set cpu (some sched'))) := by
  induction l generalizing cpu with
  | nil => simp at h
  | cons x l ih =>
    cases cpu with
    | zero =>
      obtain rfl : x = some sched := by simpa using h
      simp only [tasksOf,set_cons_zero,flatMap_cons,map_some,getD_some]
      rw [← append_assoc]
      exact hp.append_right _
    | succ cpu =>
      have hc : l[cpu]? = some (some sched) := by simpa using h
      have hr := ih hc
      simp only [tasksOf,set_cons_succ,flatMap_cons] at hr ⊢
      refine List.Perm.trans ?_ (hr.append_left _)
      rw [← append_assoc,← append_assoc]
      exact perm_append_comm.append_right _

lemma System.switchTo_spec
    (hs : s.sched cpu = some sched) (ht : sched.tasks[index]? = some t) (hp : t.process.isSome = true) :
    ∃ s', s.switchTo cpu index = some s' ∧ s'.sched cpu = some {sched with current := index} ∧
      s.tasks.Perm s'.tasks := by
  obtain ⟨p,hp⟩ := isSome_iff_exists.1 hp
  have hb : sched.tasks[index]?.bind Task.process = some p := by rw [ht]; exact hp
  rw [switchTo,hs]
  dsimp only
  rw [hb]
  refine ⟨_,rfl,(sched_of_set (s.lt_of_sched hs) rfl cpu).trans (if_pos rfl),?_⟩
  have hsa : ([]++sched.tasks).Perm ({sched with current := index} : Scheduler).tasks := List.Perm.refl _
  exact tasksOf_set_perm (s.sched_eq_some hs) hsa

lemma Scheduler.stealable_runnable {peer : Scheduler} {pos : Nat} (h : peer.stealable = some pos)
    (ht : peer.tasks[pos]? = some t) : t.state = .runnable := by
  rw [stealable] at h
  split_ifs at h
  obtain ⟨hf,-⟩ := filter_eq_some_iff.1 h
  have hr := find?_some hf
  rw [ht] at hr
  simpa [isRunnable] using hr

lemma stealLoop_spec {l l' : List (Option Scheduler)} (h : stealLoop cpu index l = some (l',task)) :
    task.state = .runnable ∧ (tasksOf l).Perm (task::tasksOf l') ∧ ∀ k, index+k = cpu → l'[k]? = l[k]? := by
  induction l generalizing index l' with
  | nil => simp [stealLoop] at h
  | cons sched l ih =>
    rw [stealLoop] at h
    split at h
    · next peer pos t hh =>
      obtain ⟨rfl,rfl⟩ : some {peer with tasks := peer.tasks.eraseIdx pos}::l = l' ∧ t = task := by
        simpa using h
      split_ifs at hh with hc
      obtain ⟨peer',rfl,hpe⟩ := bind_eq_some_iff.1 hh
      obtain ⟨pos',hs,hg⟩ := bind_eq_some_iff.1 hpe
      obtain ⟨t',ht',he⟩ := map_eq_some_iff.1 hg
      obtain ⟨rfl,rfl,rfl⟩ : peer' = peer ∧ pos' = pos ∧ t' = t := by simpa using he
      refine ⟨Scheduler.stealable_runnable hs ht',?_,fun k hk => ?_⟩
      · obtain ⟨hl,hv⟩ := List.getElem?_eq_some_iff.1 ht'
        have hp : peer'.tasks.Perm (t'::peer'.tasks.eraseIdx pos') := by
          rw [← hv]
          exact (getElem_cons_eraseIdx_perm hl).symm
        exact hp.append_right _
      · cases k with
        | zero => exact absurd hk hc
        | succ k => rfl
    · obtain ⟨⟨l'',t⟩,hr,he⟩ := map_eq_some_iff.1 h
      obtain ⟨rfl,rfl⟩ : sched::l'' = l' ∧ t = task := by simpa using he
      obtain ⟨hru,hp,hc⟩ := ih hr
      refine ⟨hru,?_,fun k hk => ?_⟩
      · simp only [tasksOf,flatMap_cons] at hp ⊢
        exact (hp.append_left _).trans perm_middle
      cases k with
      | zero => rfl
      | succ k => exact hc k (by omega)

variable {previous : Nat}

lemma System.waitForNextRunnable_spec (h : s.waitForNextRunnable cpu previous = some (s',index)) :
    ∃ sched t, s'.sched cpu = some sched ∧ sched.tasks[index]? = some t ∧ t.state = .runnable ∧
      s.tasks.Perm s'.tasks := by
  rw [waitForNextRunnable] at h
  cases hs : s.sched cpu with
  | none => simp [hs] at h
  | some sched =>
    simp only [hs] at h
    split at h
    · next next hn =>
      obtain ⟨rfl,rfl⟩ : s = s' ∧ next = index := by simpa using h
      obtain ⟨t,ht,hr⟩ := nextAlive_runnable hn
      exact ⟨sched,t,hs,ht,hr,List.Perm.refl _⟩
    obtain ⟨⟨l,task⟩,hst,he⟩ := map_eq_some_iff.1 h
    obtain ⟨rfl,rfl⟩ := Prod.mk.injEq .. ▸ he
    obtain ⟨hr,hp,hc⟩ := stealLoop_spec hst
    have hg : l[cpu]? = some (some sched) := (hc cpu (Nat.zero_add cpu)).trans (s.sched_eq_some hs)
    have hse : l.modify cpu (Option.map (fun sched => {sched with tasks := sched.tasks++[task]})) =
        l.set cpu (some {sched with tasks := sched.tasks++[task]}) := by
      rw [modify_eq_set_getElem?,hg]
      rfl
    refine ⟨{sched with tasks := sched.tasks++[task]},task,?_,by simp,hr,hp.trans ?_⟩
    · simp only [System.sched,hse,List.getElem?_set_self (List.getElem?_eq_some_iff.1 hg).1,join_some]
    simp only [System.tasks,hse]
    have hpu : ([task]++sched.tasks).Perm ({sched with tasks := sched.tasks++[task]} : Scheduler).tasks :=
      perm_append_comm
    exact tasksOf_set_perm hg hpu

/-- A task has ended exactly if it holds no process. -/
def System.EndedExact (s : System) : Prop := ∀ t ∈ s.tasks, t.Ended ↔ t.process = none

/-- Between two states the task at one place left, and every other task is kept. -/
structure Exited (s s' : System) (cpu index code : Nat) (task : Task) : Prop where
  others : ∀ c i, (c,i) ≠ (cpu,index) →
    Option.Rel (KeptTask (WokenBy task.clearChildTid (task.parentPid.getD 0) task.tgid)) (s.taskAt c i) (s'.taskAt c i)
  left : ∃ t, s'.taskAt cpu index = some t ∧ t.tid = task.tid ∧ t.tgid = task.tgid ∧ t.process = none ∧
    (t.state = .zombie code ∨ t.state = .reaped)

lemma SectionDone.exited (h : SectionDone s s' cpu code sched task next remaining) (hs : s.sched cpu = some sched) :
    Exited s s' cpu sched.current code task := by
  obtain ⟨sched',hs',hl,-⟩ := h.mine
  refine ⟨fun c i hn => ?_,?_⟩
  · by_cases hc : c = cpu
    · subst hc
      have hi : i ≠ sched.current := fun hi => hn (by rw [hi])
      simpa only [taskAt,hs,hs',bind_some] using hl.others i hi
    · rw [taskAt,taskAt,h.others c hc]
      exact optionRel_refl _
  · simpa only [taskAt,hs',bind_some] using hl.left

lemma Task.Ended.not_wokenBy (h : t.Ended) : ¬WokenBy addr parent child t.tgid t.state := by
  obtain ⟨code,h⟩ | h := h
  · exact not_wokenBy_of_zombie h
  rintro (⟨bitset,hb⟩ | ⟨-,hw⟩)
  · rw [h] at hb
    cases hb
  · rw [h] at hw
    cases hw

lemma not_ended_of_runnable (h : t.state = .runnable) : ¬t.Ended := by
  rintro (⟨code,hz⟩ | hr)
  · rw [h] at hz
    cases hz
  · rw [h] at hr
    cases hr

lemma KeptTask.ended_iff {t' : Task} (h : KeptTask (WokenBy addr parent child) t t') : t'.Ended ↔ t.Ended := by
  obtain hs | ⟨hs,hw⟩ := h.state
  · simp only [Task.Ended,hs]
  · exact ⟨fun he => absurd he (not_ended_of_runnable hs),fun he => absurd hw he.not_wokenBy⟩

lemma Exited.endedExact (h : Exited s s' cpu index code task) (hw : s.EndedExact) : s'.EndedExact := by
  intro t' ht'
  obtain ⟨c,i,ha⟩ := mem_tasks.1 ht'
  by_cases hpo : (c,i) = (cpu,index)
  · obtain ⟨rfl,rfl⟩ := Prod.mk.injEq .. ▸ hpo
    obtain ⟨t,ht,-,-,hp,hs⟩ := h.left
    obtain rfl : t = t' := Option.some.inj (ht.symm.trans ha)
    exact ⟨fun _ => hp,fun _ => hs.elim (fun hz => .inl ⟨code,hz⟩) .inr⟩
  · obtain ⟨t,ho,hk⟩ := optionRel_some (h.others c i hpo) ha
    rw [hk.ended_iff,hk.process]
    exact hw t (mem_tasks.2 ⟨c,i,ho⟩)

def NextOk (s s' : System) (cpu : Nat) : Next → Prop
  | .runs index => s.tasks.Perm s'.tasks ∧ ∃ sched t, s'.sched cpu = some sched ∧ sched.current = index ∧
      sched.tasks[index]? = some t ∧ t.state = .runnable ∧ t.process.isSome = true
  | .idle => s' = s
  | .shell => s' = s.setSched cpu none ∧ ∀ i t, s.taskAt cpu i = some t → t.process = none

lemma System.switchTo_next (hw : s'.EndedExact)
    (hp : s.tasks.Perm s'.tasks) (hs : s'.sched cpu = some sched) (ht : sched.tasks[index]? = some t)
    (hr : t.state = .runnable) : ∃ s'', s'.switchTo cpu index = some s'' ∧ NextOk s s'' cpu (.runs index) := by
  have hm : t ∈ s'.tasks := mem_tasks.2 ⟨cpu,index,by rw [taskAt,hs]; exact ht⟩
  have hso : t.process.isSome = true := by
    rw [isSome_iff_ne_none]
    exact fun hn => not_ended_of_runnable hr ((hw t hm).2 hn)
  obtain ⟨s'',hsw,hs'',hp'⟩ := switchTo_spec hs ht hso
  exact ⟨s'',hsw,hp.trans hp',_,t,hs'',rfl,ht,hr,hso⟩

/-- What the choice of the next task does not touch. -/
structure SameRecords (s s' : System) : Prop where
  released : s'.released = s.released
  reports : s'.reports = s.reports
  nextPid : s'.nextPid = s.nextPid

lemma SameRecords.trans {s'' : System} (h : SameRecords s s') (h' : SameRecords s' s'') : SameRecords s s'' :=
  ⟨h'.released.trans h.released,h'.reports.trans h.reports,h'.nextPid.trans h.nextPid⟩

lemma System.switchTo_records (h : s.switchTo cpu index = some s') : SameRecords s s' := by
  rw [switchTo] at h
  split at h
  · cases h
  split at h
  · cases h
  · cases h
    exact ⟨rfl,rfl,rfl⟩

lemma System.waitForNextRunnable_records
    (h : s.waitForNextRunnable cpu previous = some (s',index)) : SameRecords s s' := by
  rw [waitForNextRunnable] at h
  split at h
  · cases h
  split at h
  · cases h
    exact ⟨rfl,rfl,rfl⟩
  obtain ⟨r,-,he⟩ := map_eq_some_iff.1 h
  cases he
  exact ⟨rfl,rfl,rfl⟩

/-- What the choice of the next task starts from: the scheduler after the exit, as the counts of the first section have
it. -/
structure Leaves (s left : System) (cpu code : Nat) (sched : Scheduler) (task : Task) : Prop where
  eq : ((s.exitSection cpu code sched task).1.dropProcess cpu task.process).exitRemote cpu code task = left
  exited : Exited s left cpu sched.current code task
  mine : ∃ sched', left.sched cpu = some sched' ∧
    (s.exitSection cpu code sched task).2.2 = sched'.tasks.countP (·.process.isSome) ∧
    ∀ i, (s.exitSection cpu code sched task).2.1 = some i →
      left.taskAt cpu i = (s.exitSection cpu code sched task).1.taskAt cpu i ∧
      ∃ t, sched'.tasks[i]? = some t ∧ t.state = .runnable

lemma Leaves.chooses {left : System} (hle : Leaves s left cpu code sched task) (hsch : s.sched cpu = some sched)
    (hta : sched.tasks[sched.current]? = some task) (hwf : s.EndedExact) :
    ∃ s' next, s.exitCurrent cpu code = some (s',next) ∧ NextOk left s' cpu next ∧
      (∀ t ∈ s'.tasks, t.Ended → t.process = none) ∧ SameRecords left s' := by
  obtain ⟨heq,he',sched',hs'',hr,hnex⟩ := hle
  rw [exitCurrent,hsch]
  dsimp only
  rw [hta]
  dsimp only
  generalize hsec : s.exitSection cpu code sched task = section1 at heq hr hnex
  obtain ⟨section1,next,remaining⟩ := section1
  dsimp only at heq hr hnex ⊢
  rw [heq]
  have hw' := he'.endedExact hwf
  have he : ∀ s' : System, left.tasks.Perm s'.tasks → ∀ t ∈ s'.tasks, t.Ended → t.process = none :=
    fun s' hpe t ht => (hw' t (hpe.mem_iff.2 ht)).1
  cases next with
  | some index =>
    obtain ⟨hsame,t,ht,hru⟩ := hnex index rfl
    obtain ⟨s',hs,ho⟩ := switchTo_next hw' (List.Perm.refl _) hs'' ht hru
    have hh : (section1.taskAt cpu index).any (·.process.isSome) = true := by
      have hm : t ∈ left.tasks := mem_tasks.2 ⟨cpu,index,by rw [taskAt,hs'']; exact ht⟩
      rw [← hsame,taskAt,hs'',bind_some,ht,any_some,isSome_iff_ne_none]
      exact fun hno => not_ended_of_runnable hru ((hw' t hm).2 hno)
    dsimp only
    rw [if_pos hh,hs]
    exact ⟨s',.runs index,rfl,ho,he s' ho.1,switchTo_records hs⟩
  | none =>
    split_ifs with hre
    · cases hw : left.waitForNextRunnable cpu 0 with
      | none => exact ⟨left,.idle,rfl,rfl,he left (List.Perm.refl _),rfl,rfl,rfl⟩
      | some found =>
        obtain ⟨s3,index⟩ := found
        obtain ⟨sched3,t,hsched3,ht,hru,hpe⟩ := waitForNextRunnable_spec hw
        have hwf3 : s3.EndedExact := fun t ht => hw' t (hpe.mem_iff.2 ht)
        obtain ⟨s',hs,ho⟩ := switchTo_next hwf3 hpe hsched3 ht hru
        dsimp only
        rw [hs]
        exact ⟨s',.runs index,rfl,ho,he s' ho.1,(waitForNextRunnable_records hw).trans (switchTo_records hs)⟩
    · refine ⟨left.setSched cpu none,.shell,rfl,⟨rfl,fun i t ha => ?_⟩,fun t ht => ?_,rfl,rfl,rfl⟩
      · rw [taskAt,hs'',bind_some] at ha
        have hz : sched'.tasks.countP (·.process.isSome) = 0 := by omega
        rw [countP_eq_zero] at hz
        simpa using hz t (mem_of_getElem? ha)
      refine (hw' t ?_).1
      obtain ⟨c,i,ha⟩ := mem_tasks.1 ht
      have hse : (left.setSched cpu none).sched c = if c = cpu then none else left.sched c :=
        sched_of_set (left.lt_of_sched hs'') rfl c
      rw [taskAt,hse] at ha
      split_ifs at ha
      · simp at ha
      · exact mem_tasks.2 ⟨c,i,ha⟩

section
variable (hsch : s.sched cpu = some sched) (hta : sched.tasks[sched.current]? = some task)
include hsch hta

/-- Where the second part of `exit_current` changes nothing. -/
lemma Leaves.of_same (hn : ((s.exitSection cpu code sched task).1.dropProcess cpu task.process).exitRemote cpu code task =
      (s.exitSection cpu code sched task).1.dropProcess cpu task.process) :
    Leaves s ((s.exitSection cpu code sched task).1.dropProcess cpu task.process) cpu code sched task := by
  have hd := exitSection_spec hsch hta code
  have hat := taskAt_congr (dropProcess_schedulers (s.exitSection cpu code sched task).1 cpu task.process)
  obtain ⟨sched',hsc',-,hr,-,hnex⟩ := hd.mine
  refine ⟨hn,⟨fun c i hne => ?_,?_⟩,sched',?_,hr,fun i hi => ⟨hat cpu i,hnex i hi⟩⟩
  · rw [hat]
    exact (hd.exited hsch).others c i hne
  · rw [hat]
    exact (hd.exited hsch).left
  · rw [System.sched,dropProcess_schedulers]
    exact hsc'

lemma not_parentElsewhere (hpa : ¬s.ParentElsewhere cpu task) :
    ¬((s.exitSection cpu code sched task).1.dropProcess cpu task.process).ParentElsewhere cpu task := by
  rintro ⟨c,i,t,hc,ha,hp⟩
  rw [taskAt_congr (dropProcess_schedulers _ cpu task.process),taskAt,(exitSection_spec hsch hta code).others c hc] at ha
  exact hpa ⟨c,i,t,hc,ha,hp⟩

lemma System.exitCurrent_spec (hwf : s.EndedExact) (hpa : ¬s.ParentElsewhere cpu task) :
    ∃ left s' next, s.exitCurrent cpu code = some (s',next) ∧ Exited s left cpu sched.current code task ∧
      NextOk left s' cpu next ∧ (∀ t ∈ s'.tasks, t.Ended → t.process = none) ∧
      left = (s.exitSection cpu code sched task).1.dropProcess cpu task.process ∧ SameRecords left s' := by
  have hle := Leaves.of_same hsch hta (exitRemote_eq (not_parentElsewhere hsch hta hpa) code)
  obtain ⟨s',next,hex,hn,hen,hre⟩ := hle.chooses hsch hta hwf
  exact ⟨_,s',next,hex,hle.exited,hn,hen,rfl,hre⟩

end

/-- Another thread of the group has its process. -/
def System.GroupLeft (s : System) (cpu index : Nat) (task : Task) : Prop :=
  ∃ c i t, (c,i) ≠ (cpu,index) ∧ s.taskAt c i = some t ∧ t.tgid = task.tgid ∧ t.process.isSome = true

lemma Exited.groupAlive_iff (h : Exited s s' cpu index code task) :
    groupAlive task.tgid s'.tasks = true ↔ s.GroupLeft cpu index task := by
  rw [groupAlive,List.any_eq_true]
  constructor
  · rintro ⟨t',ht',hl⟩
    obtain ⟨c,i,ha⟩ := mem_tasks.1 ht'
    simp only [Bool.and_eq_true,beq_iff_eq] at hl
    have hne : (c,i) ≠ (cpu,index) := by
      intro he
      obtain ⟨rfl,rfl⟩ := Prod.mk.injEq .. ▸ he
      obtain ⟨t,ht,-,-,hp,-⟩ := h.left
      obtain rfl : t = t' := Option.some.inj (ht.symm.trans ha)
      simp [hp] at hl
    obtain ⟨t,hg,hk⟩ := optionRel_some (h.others c i hne) ha
    exact ⟨c,i,t,hne,hg,hk.tgid ▸ hl.1,hk.process ▸ hl.2⟩
  · rintro ⟨c,i,t,hne,ha,htg,hp⟩
    obtain ⟨t',hg,hk⟩ := optionRel_some_left (h.others c i hne) ha
    exact ⟨t',mem_tasks.2 ⟨c,i,hg⟩,by simp [hk.tgid,hk.process,htg,hp]⟩

/-- The exit of `task` leaves this other task of its processor runnable. -/
def Task.Frees (task t : Task) : Prop :=
  t.state = .runnable ∨ task.clearChildTid ≠ 0 ∧ t.waitsOn task.clearChildTid futexBitsetMatchAny = true ∨
    t.tgid = task.parentPid.getD 0 ∧ t.state.waitsFor task.tgid = true

/-- No other task of the processor can run after the exit. -/
def Scheduler.NoneFreed (sched : Scheduler) (task : Task) : Prop :=
  ∀ i t, i ≠ sched.current → sched.tasks[i]? = some t → ¬task.Frees t

lemma Task.not_waitsOn (h : ∀ uaddr bitset, t.state ≠ .futexWait uaddr bitset) :
    t.waitsOn addr futexBitsetMatchAny = false := by
  rw [waitsOn]
  split
  · next uaddr bitset hs => exact absurd hs (h uaddr bitset)
  · rfl

section
variable (hta : sched.tasks[sched.current]? = some task) (hst : ∀ uaddr bitset, task.state ≠ .futexWait uaddr bitset)
include hta hst

lemma Scheduler.NoneFreed.clear (h : sched.NoneFreed task) :
    (sched.clearChildTid sched.current).1.tasks = sched.tasks ∨
      (sched.clearChildTid sched.current).1.tasks = sched.tasks.set sched.current {task with clearChildTid := 0} := by
  rw [clearChildTid,hta]
  dsimp only
  split_ifs with hz
  · exact .inl rfl
  refine .inr (wakeLoop_idle 1 (fun t ht => ?_) 0)
  obtain ⟨i,hi⟩ := mem_iff_getElem?.mp ht
  rw [List.getElem?_set] at hi
  split_ifs at hi with hc
  · obtain rfl := Option.some.inj hi
    exact Task.not_waitsOn hst
  · exact Bool.not_eq_true _ ▸ fun hw => h i t (Ne.symm hc) hi (.inr (.inl ⟨hz,hw⟩))

lemma Scheduler.clearChildTid_wakes {t : Task} (ht : sched.tasks[i]? = some t) (hi : i ≠ sched.current)
    (hz : task.clearChildTid ≠ 0) (hw : t.waitsOn task.clearChildTid futexBitsetMatchAny = true) :
    ∃ j u, j ≠ sched.current ∧ (sched.clearChildTid sched.current).1.tasks[j]? = some u ∧ u.state = .runnable := by
  rw [clearChildTid,hta]
  dsimp only
  rw [if_neg hz]
  have hg : (sched.tasks.set sched.current {task with clearChildTid := 0})[i]? = some t := by
    rw [List.getElem?_set_ne (Ne.symm hi),ht]
  obtain ⟨j,u,hj,hu,hl⟩ := wakeLoop_first hg hw
  refine ⟨j,u.wake,?_,hl,rfl⟩
  rintro rfl
  rw [List.getElem?_set_self (List.getElem?_eq_some_iff.1 hta).1] at hj
  obtain rfl := Option.some.inj hj
  rw [Task.not_waitsOn (t := {task with clearChildTid := 0}) hst] at hu
  cases hu

end

section
variable (hsch : s.sched cpu = some sched) (hta : sched.tasks[sched.current]? = some task)
variable (hst : ∀ uaddr bitset, task.state ≠ .futexWait uaddr bitset) (hgl : ¬s.GroupLeft cpu sched.current task)
include hsch hta hst hgl

/-- A task is selected exactly if the exit leaves a runnable one. -/
lemma System.exitSection_next_iff (code : Nat) : (s.exitSection cpu code sched task).2.1 = none ↔ sched.NoneFreed task := by
  obtain ⟨hc,ho,z,hz,-,-,hzp,hzs⟩ := left_of_exit code hta
  rw [exitSection]
  dsimp only at ho hz ⊢
  set sched1 := (sched.clearChildTid sched.current).1
  set tasks := sched1.tasks.modify sched1.current (·.exit code)
  have hlen : sched.current < tasks.length := (List.getElem?_eq_some_iff.1 hz).1
  have hga : groupAlive task.tgid tasks = false := by
    rw [← Bool.not_eq_true,groupAlive,List.any_eq_true]
    rintro ⟨t',ht',hl⟩
    obtain ⟨i,hi⟩ := mem_iff_getElem?.mp ht'
    simp only [Bool.and_eq_true,beq_iff_eq] at hl
    by_cases hic : i = sched.current
    · subst hic
      obtain rfl : z = t' := Option.some.inj (hz.symm.trans hi)
      simp [hzp] at hl
    obtain ⟨t,hg,hk⟩ := optionRel_some (ho i hic) hi
    exact hgl ⟨cpu,i,t,fun he => hic (Prod.mk.injEq .. ▸ he).2,by rw [taskAt,hsch]; exact hg,hk.tgid ▸ hl.1,
      hk.process ▸ hl.2⟩
  rw [if_neg (by rw [hga]; simp)]
  constructor
  · intro hn i t hi ht hfr
    -- The task that is woken is selected, or one before it.
    have hno : ∀ j u, j ≠ sched.current → tasks[j]? = some u → u.state ≠ .runnable := by
      intro j u hj hu hru
      split at hn
      · exact nextAlive_ne_none (by rw [hc]; exact hlen) hu hru hn
      · next r w rep ha =>
        have hk : KeptTasks (WokenBy task.clearChildTid (task.parentPid.getD 0) task.tgid) tasks r :=
          answerParent_kept (fun state hw => .inr ⟨rfl,hw⟩) ha
        obtain ⟨u',hu',hku⟩ := optionRel_some_left (hk j) hu
        have hl' : sched.current < r.length := (List.getElem?_eq_some_iff.1 (optionRel_some_left (hk _) hz).choose_spec.1).1
        refine nextAlive_ne_none (by simpa [hc] using hl') (i := j) (t := u') ?_ ?_ hn
        · rw [modify_ne (by rw [hc]; exact hj)]
          exact hu'
        · exact hku.state.elim (·.trans hru) (·.1)
    obtain ⟨t',hg,hk⟩ := optionRel_some_left (ho i hi) ht
    obtain hru | ⟨hcl,hw⟩ | ⟨htg,hw⟩ := hfr
    · exact hno i t' hi hg (hk.state.elim (·.trans hru) (·.1))
    · obtain ⟨j,u,hj,hu,hru⟩ := Scheduler.clearChildTid_wakes hta hst ht hi hcl hw
      exact hno j u hj (by rw [modify_ne (by rw [hc]; exact hj)]; exact hu) hru
    · have hs : t'.state = t.state := hk.state.resolve_right (fun h => hno i t' hi hg h.1)
      have hsome : answerParent s.native (task.parentPid.getD 0) task.tgid (exitStatus code) code tasks ≠ none :=
        answerParent_isSome (mem_of_getElem? hg) (hk.tgid.trans htg) (hs ▸ hw)
      split at hn
      · next ha => exact hsome ha
      next r w rep ha =>
      obtain ⟨j,u,hu,-,huw,hr,-⟩ := answerParent_spec ha
      dsimp only at hr
      have hj : j ≠ sched.current := by
        rintro rfl
        obtain rfl : z = u := Option.some.inj (hz.symm.trans hu)
        rw [hzs] at huw
        cases huw
      have hl' : sched.current < r.length := by rw [hr]; simpa using hlen
      refine nextAlive_ne_none (by simpa [hc] using hl') (i := j) (t := (u.answer s.native task.tgid (exitStatus code) code).1) ?_ rfl hn
      rw [modify_ne (by rw [hc]; exact hj),hr,List.getElem?_set_self (List.getElem?_eq_some_iff.1 hu).1]
  · intro hnf
    have hall : ∀ j u, j ≠ sched.current → tasks[j]? = some u → sched.tasks[j]? = some u := by
      intro j u hj hu
      rw [modify_ne (by rw [hc]; exact hj)] at hu
      obtain he | he := hnf.clear hta hst <;> rw [he] at hu
      · exact hu
      · rwa [List.getElem?_set_ne (Ne.symm hj)] at hu
    have hno : answerParent s.native (task.parentPid.getD 0) task.tgid (exitStatus code) code tasks = none := by
      refine answerParent_none (fun t ht hm => ?_)
      obtain ⟨j,hj⟩ := mem_iff_getElem?.mp ht
      by_cases hjc : j = sched.current
      · subst hjc
        obtain rfl : z = t := Option.some.inj (hz.symm.trans hj)
        rw [hzs] at hm
        cases hm.2
      · exact hnf j t hjc (hall j t hjc hj) (.inr (.inr hm))
    rw [hno]
    dsimp only
    rw [Option.eq_none_iff_forall_ne_some]
    intro j hj
    obtain ⟨t,ht,hru⟩ := nextAlive_runnable hj
    by_cases hjc : j = sched.current
    · subst hjc
      obtain rfl : z = t := Option.some.inj (hz.symm.trans ht)
      rw [hzs] at hru
      cases hru
    · exact hnf j t hjc (hall j t hjc ht) (.inl hru)

end

lemma countP_reap (l : List Task) (i : Nat) :
    (l.modify i Task.reap).countP (·.process.isSome) = l.countP (·.process.isSome) := by
  induction l generalizing i with
  | nil => simp
  | cons t l ih =>
    cases i with
    | zero => simp [countP_cons,Task.reap]
    | succ i => simp [countP_cons,ih]

/-- The second part of `exit_current` where it finds a waiting parent. -/
lemma System.exitRemote_spec (code : Nat) (hpa : s.ParentElsewhere cpu task) (hga : groupAlive task.tgid s.tasks = false)
    (hs : s.sched cpu = some sched) :
    (s.exitRemote cpu code task).sched cpu = some {sched with tasks := sched.tasks.modify sched.current Task.reap} ∧
      ∀ c i, c ≠ cpu → Option.Rel (KeptTask (WokenBy task.clearChildTid (task.parentPid.getD 0) task.tgid)) (s.taskAt c i)
        ((s.exitRemote cpu code task).taskAt c i) := by
  obtain ⟨c,i,t,hc,hat,hp,hw⟩ := hpa
  obtain ⟨peer,hpe,ht⟩ := bind_eq_some_iff.1 hat
  rw [exitRemote,hp]
  dsimp only
  rw [if_neg (by rw [hga]; simp)]
  cases ha : answerRemote s.native cpu t.tgid task.tgid (exitStatus code) code 0 s.schedulers with
  | none => exact absurd ha (answerRemote_isSome (s.sched_eq_some hpe) (by omega) (mem_of_getElem? ht) rfl hw)
  | some r =>
    obtain ⟨l,writes,report⟩ := r
    have hh : l[cpu]? = some (some sched) := (answerRemote_here ha (Nat.zero_add cpu)).trans (s.sched_eq_some hs)
    refine ⟨?_,fun c' i' hc' => ?_⟩
    · simp [System.sched,hh]
    · have hk := answerRemote_kept (P := WokenBy task.clearChildTid t.tgid task.tgid)
        (fun state hw => .inr ⟨rfl,hw⟩) ha c' i'
      simp only [taskAt,System.sched,List.getElem?_modify,if_neg (Ne.symm hc')]
      simpa using hk

section
variable (hsch : s.sched cpu = some sched) (hta : sched.tasks[sched.current]? = some task)
include hsch hta

lemma exited_drop (code : Nat) :
    Exited s ((s.exitSection cpu code sched task).1.dropProcess cpu task.process) cpu sched.current code task := by
  have hex := (exitSection_spec hsch hta code).exited hsch
  have hat := taskAt_congr (dropProcess_schedulers (s.exitSection cpu code sched task).1 cpu task.process)
  exact ⟨fun c i hne => hat c i ▸ hex.others c i hne,hat cpu _ ▸ hex.left⟩

lemma parentElsewhere_drop (hpa : s.ParentElsewhere cpu task) :
    ((s.exitSection cpu code sched task).1.dropProcess cpu task.process).ParentElsewhere cpu task := by
  obtain ⟨c,i,t,hc,ha,hp⟩ := hpa
  refine ⟨c,i,t,hc,?_,hp⟩
  rwa [taskAt_congr (dropProcess_schedulers _ cpu task.process),taskAt,(exitSection_spec hsch hta code).others c hc]

/-- No task can run next, so the one that is marked as reaped is the one that exits. -/
lemma Leaves.of_remote (hpa : s.ParentElsewhere cpu task) (hgl : ¬s.GroupLeft cpu sched.current task)
    (hn : (s.exitSection cpu code sched task).2.1 = none) :
    ∃ left, Leaves s left cpu code sched task := by
  have he := exited_drop hsch hta code
  have hga : groupAlive task.tgid ((s.exitSection cpu code sched task).1.dropProcess cpu task.process).tasks = false := by
    rw [← Bool.not_eq_true,he.groupAlive_iff]
    exact hgl
  obtain ⟨sched',hsc',-,hr,hcu,-⟩ := (exitSection_spec hsch hta code).mine
  rw [hn] at hcu
  have hsd : ((s.exitSection cpu code sched task).1.dropProcess cpu task.process).sched cpu = some sched' := by
    rw [System.sched,dropProcess_schedulers]
    exact hsc'
  obtain ⟨hm,hk⟩ := exitRemote_spec code (parentElsewhere_drop hsch hta hpa) hga hsd
  have hcur : sched'.current = sched.current := hcu
  refine ⟨_,rfl,⟨fun c i hne => ?_,?_⟩,_,hm,?_,fun i hi => ?_⟩
  · by_cases hc : c = cpu
    · subst hc
      have hi : i ≠ sched.current := fun hi => hne (by rw [hi])
      have ho := he.others c i hne
      have hsame : (((s.exitSection c code sched task).1.dropProcess c task.process).exitRemote c code task).taskAt c i =
          ((s.exitSection c code sched task).1.dropProcess c task.process).taskAt c i := by
        rw [taskAt,hm,taskAt,hsd,bind_some,bind_some,modify_ne (by rw [hcur]; exact hi)]
      rwa [hsame]
    · exact optionRel_trans (he.others c i hne) (hk c i hc)
  · obtain ⟨t,ht,hti,htg,hp,-⟩ := he.left
    rw [taskAt,hsd,bind_some] at ht
    refine ⟨t.reap,?_,hti,htg,hp,.inr rfl⟩
    rw [taskAt,hm,bind_some,hcur,modify_self ht]
  · rw [countP_reap]
    exact hr
  · rw [hn] at hi
    cases hi

end

/-- The exiting task leaves, the others are kept, and the next one that runs can run. -/
def System.ExitKept (s : System) (cpu code : Nat) (sched : Scheduler) (task : Task) : Prop :=
  ∃ left s' next, s.exitCurrent cpu code = some (s',next) ∧ Exited s left cpu sched.current code task ∧
    NextOk left s' cpu next ∧ ∀ t ∈ s'.tasks, t.Ended → t.process = none

lemma System.switchTo_tasks (h : s.switchTo cpu index = some s') (hat : s.taskAt cpu i = some t) : t ∈ s'.tasks := by
  obtain ⟨sched,hs,ht⟩ := bind_eq_some_iff.1 hat
  rw [switchTo,hs] at h
  dsimp only at h
  split at h
  · cases h
  cases h
  refine mem_tasks.2 ⟨cpu,i,?_⟩
  rw [taskAt,sched_of_set (s.lt_of_sched hs) rfl cpu,if_pos rfl]
  exact ht

theorem exit_current_bookkeeping (s : System) (cpu code : Nat) (sched : Scheduler) (task : Task)
    (hsched : s.sched cpu = some sched) (htask : sched.tasks[sched.current]? = some task)
    (hstate : ∀ uaddr bitset, task.state ≠ .futexWait uaddr bitset) (hwf : s.EndedExact) :
    s.ExitKept cpu code sched task ↔
      (s.ParentElsewhere cpu task → s.GroupLeft cpu sched.current task ∨ sched.NoneFreed task) := by
  constructor
  · rintro ⟨left,s',next,hex,-,-,hen⟩ hpa
    by_contra hno
    obtain ⟨hgl,hnf⟩ := not_or.1 hno
    rw [← exitSection_next_iff hsched htask hstate hgl code] at hnf
    obtain ⟨index,hi⟩ := Option.ne_none_iff_exists'.1 hnf
    have hga : groupAlive task.tgid ((s.exitSection cpu code sched task).1.dropProcess cpu task.process).tasks = false := by
      rw [← Bool.not_eq_true,(exited_drop hsched htask code).groupAlive_iff]
      exact hgl
    obtain ⟨sched',hsc',-,-,hcu,-⟩ := (exitSection_spec hsched htask code).mine
    rw [hi] at hcu
    have hsd : ((s.exitSection cpu code sched task).1.dropProcess cpu task.process).sched cpu = some sched' := by
      rw [System.sched,dropProcess_schedulers]
      exact hsc'
    obtain ⟨hm,-⟩ := exitRemote_spec code (parentElsewhere_drop hsched htask hpa) hga hsd
    rw [exitCurrent,hsched] at hex
    dsimp only at hex
    rw [htask] at hex
    dsimp only at hex
    rw [hi] at hex
    dsimp only at hex
    split_ifs at hex with hp
    obtain ⟨s'',hsw,he⟩ := map_eq_some_iff.1 hex
    obtain ⟨rfl,-⟩ := Prod.mk.injEq .. ▸ he
    rw [taskAt,hsc',bind_some] at hp
    obtain ⟨t,ht,hpt⟩ := (Option.any_eq_true _ _).1 hp
    have hin : t.reap ∈ s''.tasks := by
      refine switchTo_tasks (i := index) hsw ?_
      rw [taskAt,hm,bind_some,show sched'.current = index from hcu,modify_self ht]
    have hnone : t.process = none := hen t.reap hin (.inr rfl)
    simp [hnone] at hpt
  · intro hcond
    have hle : ∃ left, Leaves s left cpu code sched task := by
      by_cases hpa : s.ParentElsewhere cpu task
      · by_cases hgl : s.GroupLeft cpu sched.current task
        · refine ⟨_,Leaves.of_same hsched htask ?_⟩
          rw [exitRemote,(exited_drop hsched htask code).groupAlive_iff.2 hgl]
          split <;> rfl
        · exact Leaves.of_remote hsched htask hpa hgl
            ((exitSection_next_iff hsched htask hstate hgl code).2 ((hcond hpa).resolve_left hgl))
      · exact ⟨_,Leaves.of_same hsched htask (exitRemote_eq (not_parentElsewhere hsched htask hpa) code)⟩
    obtain ⟨left,hle⟩ := hle
    obtain ⟨s',next,hex,hn,hen,-⟩ := hle.chooses hsched htask hwf
    exact ⟨left,s',next,hex,hle.exited,hn,hen⟩

def childSystem (parent : TaskState) : System :=
  {waiterSystem 1 with
    schedulers := [some ⟨[{plainTask 2 2 .runnable with parentPid := some 1},plainTask 3 3 .runnable],0⟩,
        some ⟨[plainTask 1 1 parent],0⟩]}

theorem exit_current_bookkeeping_here : (childSystem .runnable).ExitKept 0 7
    ⟨[{plainTask 2 2 .runnable with parentPid := some 1},plainTask 3 3 .runnable],0⟩
    {plainTask 2 2 .runnable with parentPid := some 1} := by
  have hr : ∀ t ∈ (childSystem .runnable).tasks, t.state = .runnable ∧ t.process ≠ none := by
    intro t ht
    simp only [childSystem,tasks,flatMap_cons,Option.map_some,Option.getD_some,flatMap_nil,
      append_nil,mem_append,mem_cons,not_mem_nil,or_false] at ht
    obtain (rfl | rfl) | rfl := ht <;> simp [plainTask]
  refine (exit_current_bookkeeping (childSystem .runnable) 0 7 _ _ rfl rfl (by simp [plainTask]) (fun t ht => ?_)).2 ?_
  · simp [Task.Ended,hr t ht]
  rintro ⟨c,i,t,hc,ha,-,hw⟩
  rw [(hr t (mem_tasks.2 ⟨c,i,ha⟩)).1] at hw
  cases hw

/-- The parent waits on the other processor: the task that runs next is marked as reaped, and the exited one stays a
zombie. -/
theorem exit_current_reaps_next :
    ((childSystem (.waiting anyChild 0)).exitCurrent 0 7).map (fun r => (r.2,r.1.tasks.map (fun t => (t.tid,t.state,t.process)))) =
      some (.runs 1,[(2,.zombie 7,none),(3,.reaped,some 3),(1,.runnable,some 1)]) := by
  decide +kernel

end Vanta.Sched
