import Mathlib.Algebra.Order.BigOperators.Group.Finset
import Vanta.Sched.Futex

namespace Vanta.Sched
open Finset (range)

/-- The loop of `next_runnable_yield`: here a later task of the same tier replaces the best one so far. -/
def nextYieldLoop (tasks : List Task) : List Nat → Nat → Option Nat → Option Nat
  | [], _, best => best
  | index::rest, bestTier, best =>
    match tasks[index]? with
    | none => nextYieldLoop tasks rest bestTier best
    | some task =>
      if task.state = .runnable ∧ priorityTier task.priority ≤ bestTier then
        if priorityTier task.priority = 0 then some index
        else nextYieldLoop tasks rest (priorityTier task.priority) (some index)
      else nextYieldLoop tasks rest bestTier best

def nextRunnableYield (sched : Scheduler) (current : Nat) : Nat :=
  (nextYieldLoop sched.tasks (rotation sched.tasks.length current).dropLast 255 none).getD current

def prioBatchMax : Nat := 19

def Task.age (t : Task) : Task :=
  let priority := if t.priority < prioBatchMax then t.priority+1 else t.priority
  {t with priority, timeSliceRemaining := sliceForPriority priority}

/-- The slice of the current task ends in `timer_tick`, or it calls `yield_current`. -/
inductive Decision where
  | expiry
  | yield

def Scheduler.decision (sched : Scheduler) (d : Decision) : Scheduler :=
  let sched := {sched with tasks := sched.tasks.modify sched.current Task.age}
  match d with
  | .expiry => {sched with current := (nextAlive sched sched.current).getD sched.current}
  | .yield => {sched with current := nextRunnableYield sched sched.current}

def priorityAt (tasks : List Task) (i : Nat) : Nat := (tasks[i]?).elim 0 Task.priority

variable {tasks : List Task} {sched : Scheduler} {n current next target : Nat} {p p' : Nat → Nat}

/-- The loop keeps what it starts with if no task is better, and else ends with the best one, the first one if that is
as good. -/
lemma nextAliveLoop_least (hr : ∀ t ∈ tasks, t.state = .runnable) (indices : List Nat)
    (hin : ∀ j ∈ indices, j < tasks.length) (bestTier : Nat) (best : Option Nat) :
    let tier := fun i => priorityTier (priorityAt tasks i)
    nextAliveLoop tasks indices bestTier best = best ∧ (∀ j ∈ indices, bestTier ≤ tier j) ∨
      ∃ i ∈ indices, nextAliveLoop tasks indices bestTier best = some i ∧ tier i < bestTier ∧
        (∀ j ∈ indices, tier i ≤ tier j) ∧ ∀ j, indices.head? = some j → tier j ≤ tier i → i = j := by
  intro tier
  induction indices generalizing bestTier best with
  | nil => exact .inl ⟨rfl,by simp⟩
  | cons j rest ih =>
    simp only [List.forall_mem_cons,List.head?_cons,Option.some.injEq,forall_eq'] at hin ⊢
    have hj : tasks[j]? = some tasks[j] := List.getElem?_eq_getElem hin.1
    have ht : priorityTier tasks[j].priority = tier j := by simp [tier,priorityAt,hj]
    simp only [nextAliveLoop,hj,hr _ (List.getElem_mem hin.1),true_and,ht]
    split_ifs with hl hz
    · exact .inr ⟨j,.head _,rfl,hl,⟨le_refl _,fun i _ => by omega⟩,fun _ => rfl⟩
    · rcases ih hin.2 (tier j) (some j) with ⟨h,ha⟩ | ⟨i,hi,h,hl',ha,-⟩
      · exact .inr ⟨j,.head _,h,hl,⟨le_refl _,ha⟩,fun _ => rfl⟩
      · exact .inr ⟨i,.tail _ hi,h,hl'.trans hl,⟨hl'.le,ha⟩,by omega⟩
    · rcases ih hin.2 bestTier best with ⟨h,ha⟩ | ⟨i,hi,h,hl',ha,-⟩
      · exact .inl ⟨h,by omega,ha⟩
      · exact .inr ⟨i,.tail _ hi,h,hl',⟨by omega,ha⟩,by omega⟩

/-- A bound for the decisions until the task is selected: every task can sink to the lowest tier, and then they take turns. -/
def delay (n : Nat) (p : Nat → Nat) (current target : Nat) : Nat :=
  2*(∑ i ∈ range n, (16-p i))+(if 16 ≤ p current then 1 else 0)+
    if ∀ i < n, 16 ≤ p i then if current < target then target-current-1 else n+target-current-1 else n

lemma delay_lt (hc : current < n) (ht : target < n) (hn : next < n)
    (ha : ∀ i, p' i = if i = current ∧ p i < prioBatchMax then p i+1 else p i)
    (hl : ∀ i < n, priorityTier (p' next) ≤ priorityTier (p' i)) (htu : (∀ i < n, 16 ≤ p' i) → next = (current+1)%n) :
    next = target ∨ delay n p' next target < delay n p current target := by
  have hle : ∀ i, 16-p' i ≤ 16-p i := by grind
  have hs := Finset.sum_le_sum (fun i (_ : i ∈ range n) => hle i)
  unfold delay
  by_cases h16 : 16 ≤ p current
  · have hi : ∀ i, 16 ≤ p i ↔ 16 ≤ p' i := by grind
    simp only [hi,(hi current).1 h16,if_true]
    by_cases hlo : ∀ i < n, 16 ≤ p' i
    · have htu := htu hlo
      by_cases hla : current+1 = n
      · rw [hla,Nat.mod_self] at htu
        split_ifs <;> omega
      · rw [Nat.mod_eq_of_lt (by omega)] at htu
        split_ifs <;> omega
    · obtain ⟨j,hj,hlt⟩ : ∃ j < n, p' j < 16 := by simpa using hlo
      have hf := hl j hj
      have h1 := priorityTier_le (p' j)
      have h2 := priorityTier_le (p' next)
      simp only [if_neg hlo,show ¬16 ≤ p' next by omega,if_false]
      omega
  have hlt : ∑ i ∈ range n, (16-p' i) < ∑ i ∈ range n, (16-p i) := by
    refine Finset.sum_lt_sum (fun i _ => hle i) ⟨current,Finset.mem_range.2 hc,?_⟩
    rw [ha,if_pos ⟨rfl,by rw [prioBatchMax]; omega⟩]
    omega
  have hno : ¬∀ i < n, 16 ≤ p i := fun hal => h16 (hal current hc)
  split_ifs <;> omega

/-- `n` tasks, all runnable, one of them current. -/
structure Scheduler.Ready (n : Nat) (sched : Scheduler) : Prop where
  length : sched.tasks.length = n
  current : sched.current < n
  runnable : ∀ t ∈ sched.tasks, t.state = .runnable

lemma Scheduler.Ready.nextAlive (h : sched.Ready n) : ∃ next < n, nextAlive sched sched.current = some next ∧
      (∀ i < n, priorityTier (priorityAt sched.tasks next) ≤ priorityTier (priorityAt sched.tasks i)) ∧
      ((∀ i < n, 16 ≤ priorityAt sched.tasks i) → next = (sched.current+1)%n) := by
  obtain ⟨hl,hc,hr⟩ := h
  have hin := fun i => mem_rotation (i := i) hc
  have ht := fun i => priorityTier_le (priorityAt sched.tasks i)
  have hh : (rotation n sched.current).head? = some ((sched.current+1)%n) := by
    obtain ⟨m,rfl⟩ := Nat.exists_eq_add_of_lt hc
    rw [rotation,List.range_succ_eq_map]
    rfl
  rw [Vanta.Sched.nextAlive,hl]
  rcases nextAliveLoop_least hr (rotation n sched.current) (fun i hi => hl ▸ (hin i).1 hi) 255 none with
    ⟨-,ha⟩ | ⟨next,hm,hn,-,hle,hf⟩
  · have hla := (ha _ ((hin _).2 hc)).trans (ht _).1
    omega
  refine ⟨next,(hin next).1 hm,hn,fun i hi => hle i ((hin i).2 hi),fun hlo => hf _ hh ?_⟩
  have hlo := Nat.not_lt.2 (hlo next ((hin next).1 hm))
  exact (ht _).1.trans (Nat.not_lt.1 (mt (ht next).2.1 hlo))

lemma Scheduler.Ready.expiry (h : sched.Ready n) (hta : target < n) : let s := sched.decision .expiry
    s.Ready n ∧ (s.current = target ∨
      delay n (priorityAt s.tasks) s.current target < delay n (priorityAt sched.tasks) sched.current target) := by
  obtain ⟨hl,hc,hru⟩ := h
  let aged : Scheduler := {sched with tasks := sched.tasks.modify sched.current Task.age}
  have hr : aged.Ready n := by
    refine ⟨by simp [aged,hl],hc,fun t ht => ?_⟩
    obtain ⟨i,hi⟩ := List.mem_iff_getElem?.1 ht
    rw [List.getElem?_modify] at hi
    obtain ⟨u,hu,rfl⟩ := Option.map_eq_some_iff.1 hi
    split_ifs <;> exact hru u (List.mem_of_getElem? hu)
  obtain ⟨next,hn,he,hle,htu⟩ := hr.nextAlive
  have hcu : (sched.decision .expiry).current = next := by
    show (Vanta.Sched.nextAlive aged aged.current).getD _ = next
    rw [he]
    rfl
  refine ⟨⟨hr.length,hcu ▸ hn,hr.runnable⟩,?_⟩
  rw [hcu]
  refine delay_lt hc hta hn (fun i => ?_) hle htu
  rw [← hl] at hc
  simp only [Scheduler.decision,priorityAt,List.getElem?_modify]
  by_cases hi : sched.current = i
  · subst hi
    simp [List.getElem?_eq_getElem hc,Task.age]
  · simp [hi,Ne.symm hi]

lemma Scheduler.Ready.selected (h : sched.Ready n) (ht : target < n) (decisions : List Decision)
    (hd : ∀ d ∈ decisions, d = .expiry)
    (hde : delay n (priorityAt sched.tasks) sched.current target < decisions.length) :
    ∃ k < decisions.length, ((decisions.take (k+1)).foldl Scheduler.decision sched).current = target := by
  induction decisions generalizing sched with
  | nil => cases hde
  | cons d rest ih =>
    obtain ⟨rfl,hre⟩ := List.forall_mem_cons.1 hd
    obtain ⟨hr,hs | hl⟩ := h.expiry ht
    · exact ⟨0,by simp,hs⟩
    · obtain ⟨k,hk,hs⟩ := ih hr hre (by simp at hde; omega)
      exact ⟨k+1,by simpa using hk,hs⟩

/-- While only expiries decide, every task is selected within any `20*n*n` decisions. -/
theorem expiries_select_all (sched : Scheduler) (n : Nat) (h : sched.Ready n) (target : Nat) (htarget : target < n)
    (decisions : List Decision) (hd : ∀ d ∈ decisions, d = .expiry) (hlength : decisions.length = 20*n*n) :
    ∃ k < 20*n*n, ((decisions.take (k+1)).foldl Scheduler.decision sched).current = target := by
  rw [← hlength]
  have hs : ∑ i ∈ range n, (16-priorityAt sched.tasks i) ≤ n*16 := by
    simpa using Finset.sum_le_card_nsmul (range n) _ 16 (fun i _ => Nat.sub_le 16 _)
  by_cases ho : n = 1
  · obtain ⟨d,rest,rfl⟩ := List.exists_cons_of_length_pos (l := decisions) (by rw [hlength,ho]; decide)
    obtain rfl := hd d (.head _)
    exact ⟨0,by simp,by have := (h.expiry htarget).1.current; simp only [List.take,List.foldl]; omega⟩
  refine h.selected htarget decisions hd ?_
  have hn : 20*2*n ≤ 20*n*n := Nat.mul_le_mul_right n (Nat.mul_le_mul_left 20 (by omega))
  have := h.current
  unfold delay
  split_ifs <;> omega

theorem expiries_select_all_two : ∃ k < 20*2*2, (((List.replicate 80 .expiry).take (k+1)).foldl Scheduler.decision
    ⟨[plainTask 1 1 .runnable,plainTask 2 2 .runnable],0⟩).current = 1 :=
  expiries_select_all _ 2 ⟨rfl,by decide,by simp [plainTask]⟩ 1 (by decide) _ (fun _ => List.eq_of_mem_replicate) rfl

theorem third_task_left_out :
    let sched : Scheduler := ⟨List.replicate 3 {plainTask 1 1 .runnable with priority := 19},0⟩
    sched.Ready 3 ∧ ∀ k < 20*3*3,
      (((List.replicate 90 [.expiry,.yield]).flatten.take (k+1)).foldl Scheduler.decision sched).current ≠ 2 :=
  ⟨⟨rfl,by decide,by simp [plainTask]⟩,by decide +kernel⟩

end Vanta.Sched
