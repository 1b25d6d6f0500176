import Vanta.Timer.Exact

namespace Vanta.Timer
open Library TimerWheel Function List

/-- Between two calls: every entry is in its place and still ahead of the tick. -/
structure Stable (w : TimerWheel) : Prop where
  placed : Placed w 1 1 1 1
  later : ∀ e ∈ w.pending, w.currentTick < e.targetTick
  tickBound : w.currentTick < 2^64
  targetBound : ∀ e ∈ w.pending, e.targetTick < 2^64

variable {w : TimerWheel} {e : TimerEntry}

lemma mem_pending : e ∈ w.pending ↔ (∃ s < lvl0Size, e ∈ w.level0 s) ∨ (∃ s < lvl1Size, e ∈ w.level1 s) ∨
      (∃ s < lvl2Size, e ∈ w.level2 s) ∨ (∃ s < lvl3Size, e ∈ w.level3 s) ∨ e ∈ w.overflow := by
  simp only [pending,Multiset.mem_add,Slots.mem_total,Multiset.mem_coe,or_assoc]

lemma new_stable : Stable new := by
  have hem : new.pending = 0 := by
    simp [pending,new,Slots.total]
  refine ⟨⟨?_,?_,?_,?_,?_⟩,?_,by decide,?_⟩
  · intro s e he; cases he
  · intro s e he; cases he
  · intro s e he; cases he
  · intro s e he; cases he
  · intro e he; cases he
  · simp [hem]
  · simp [hem]

/-- The placement after the tick and before the cascades. When the tick wraps to zero
every target has passed, so the wheel is empty. -/
lemma tick_placed (hw : Stable w) : let c := (w.currentTick+1)%2^64
    Placed {w with currentTick := c} (startOf (2^lvl1Shift) c) (startOf (2^lvl2Shift) c)
      (startOf (2^lvl3Shift) c) (startOf (2^lvl3Shift) c) := by
  obtain ⟨⟨p0,p1,p2,p3,p4⟩,hl,hb,ht⟩ := hw
  by_cases hlt : w.currentTick+1 < 2^64
  · rw [Nat.mod_eq_of_lt hlt]
    refine ⟨?_,p1.tick,p2.tick,p3.tick,?_⟩
    · intro s e he
      obtain ⟨hs,h1,h2⟩ := p0 s e he
      have hsi : s < lvl0Size := by rw [← hs]; exact Nat.mod_lt _ (by decide)
      have := hl e (mem_pending.2 (.inl ⟨s,hsi,he⟩))
      refine ⟨hs,this,?_⟩
      show e.targetTick < w.currentTick+1+256
      omega
    · intro e he
      have h := p4 e he
      unfold startOf
      split_ifs with hz
      · simp only [lvl3Shift] at h hz ⊢; omega
      · simp only [lvl3Shift] at h hz ⊢; omega
  · -- no entry is pending any more
    have hno : ∀ e, e ∉ w.pending := by
      intro e he
      have h1 := hl e he
      have h2 := ht e he
      omega
    have hle : ∀ {b lo c : Nat} {l : Slots}, (∀ s < 64, ∀ e, e ∉ l s) →
        Level b 1 w.currentTick l → Level b lo c l := by
      intro b lo c l hn hlev s e he
      have hs : s < 64 := by rw [← (hlev s e he).1]; exact Nat.mod_lt _ (by decide)
      exact absurd he (hn s hs e)
    refine ⟨?_,hle ?_ p1,hle ?_ p2,hle ?_ p3,?_⟩
    · intro s e he
      have hs : s < lvl0Size := by rw [← (p0 s e he).1]; exact Nat.mod_lt _ (by decide)
      exact absurd (mem_pending.2 (.inl ⟨s,hs,he⟩)) (hno e)
    · intro s hs e he
      exact hno e (mem_pending.2 (.inr (.inl ⟨s,hs,he⟩)))
    · intro s hs e he
      exact hno e (mem_pending.2 (.inr (.inr (.inl ⟨s,hs,he⟩))))
    · intro s hs e he
      exact hno e (mem_pending.2 (.inr (.inr (.inr (.inl ⟨s,hs,he⟩)))))
    · intro e he
      exact absurd (mem_pending.2 (.inr (.inr (.inr (.inr he))))) (hno e)

variable {b c : Nat} {l : Slots}

lemma Level.later (hl : Level b 1 c l) {s : Nat} (he : e ∈ l s) : c < e.targetTick := by
  obtain ⟨_,h,_⟩ := hl s e he
  by_contra hle
  have := Nat.div_le_div_right (c := b) (Nat.le_of_not_lt hle)
  omega

lemma expire_spec (hp : Placed w 1 1 1 1) : (w.expire.1 : Multiset TimerEntry) =
      w.pending.filter (fun e => e.targetTick = w.currentTick) ∧
    w.expire.2.pending = w.pending.filter (fun e => e.targetTick ≠ w.currentTick) ∧
    Placed w.expire.2 1 1 1 1 ∧ w.expire.2.currentTick = w.currentTick := by
  have hs : w.currentTick%lvl0Size < lvl0Size := Nat.mod_lt _ (by decide)
  have hsl : ∀ e ∈ w.level0 (w.currentTick%lvl0Size), e.targetTick = w.currentTick := by
    intro e he
    obtain ⟨h0,h1,h2⟩ := hp.lvl0 _ e he
    simp only [lvl0Size] at h0
    omega
  have hex : (w.level0 (w.currentTick%lvl0Size)).filter
      (fun e => decide (e.targetTick ≤ w.currentTick)) = w.level0 (w.currentTick%lvl0Size) := by
    apply filter_eq_self.2
    intro e he
    simp [hsl e he]
  have hre : (w.level0 (w.currentTick%lvl0Size)).filter
      (fun e => !decide (e.targetTick ≤ w.currentTick)) = [] := by
    apply filter_eq_nil_iff.2
    intro e he
    simp [hsl e he]
  have h2 : w.expire.2 =
      {w with level0 := update w.level0 (w.currentTick%lvl0Size) []} := by
    simp only [expire,hre]
  have hpl : Placed w.expire.2 1 1 1 1 := by
    rw [h2]
    refine ⟨?_,hp.lvl1,hp.lvl2,hp.lvl3,hp.far⟩
    intro s e he
    by_cases hsc : s = w.currentTick%lvl0Size
    · subst hsc; simp at he
    · simp only [update_of_ne hsc] at he
      exact hp.lvl0 s e he
  have hsp : w.expire.2.pending+w.expire.1 = w.pending := by
    rw [h2]
    simp only [expire,hex,pending]
    rw [← Slots.total_clear hs w.level0]
    abel
  have hr : ∀ e ∈ w.expire.2.pending, e.targetTick ≠ w.currentTick := by
    intro e he
    rcases mem_pending.1 he with ⟨s,_,hm⟩ | ⟨s,_,hm⟩ | ⟨s,_,hm⟩ | ⟨s,_,hm⟩ | hm
    · rw [h2] at hm
      by_cases hsc : s = w.currentTick%lvl0Size
      · subst hsc; simp at hm
      simp only [update_of_ne hsc] at hm
      intro heq
      have := (hp.lvl0 s e hm).1
      rw [heq] at this
      exact hsc this.symm
    · exact Nat.ne_of_gt (hp.lvl1.later hm)
    · exact Nat.ne_of_gt (hp.lvl2.later hm)
    · exact Nat.ne_of_gt (hp.lvl3.later hm)
    have := hp.far e hm
    simp only [lvl3Shift] at this
    omega
  have hd : ∀ e ∈ (w.expire.1 : Multiset TimerEntry), e.targetTick = w.currentTick := by
    intro e he
    simp only [expire,hex] at he
    exact hsl e he
  refine ⟨?_,?_,hpl,rfl⟩
  · rw [← hsp,Multiset.filter_add,Multiset.filter_eq_nil.2 hr,Multiset.filter_eq_self.2 hd,zero_add]
  · rw [← hsp,Multiset.filter_add,Multiset.filter_eq_self.2 hr,
      Multiset.filter_eq_nil.2 (fun e he => not_not.2 (hd e he)),add_zero]

/-- One call of `advance_tick` returns the pending timers whose target is the new
tick, all of them and no others, and keeps the rest. -/
lemma advanceTick_spec (hw : Stable w) : let c := (w.currentTick+1)%2^64
    w.advanceTick.2.currentTick = c ∧
    (w.advanceTick.1 : Multiset TimerEntry) = w.pending.filter (fun e => e.targetTick = c) ∧
    w.advanceTick.2.pending = w.pending.filter (fun e => e.targetTick ≠ c) ∧
    Stable w.advanceTick.2 := by
  intro c
  have hp := cascade_placed (tick_placed hw)
  have hpe := cascade_pending {w with currentTick := c}
  have hti := cascade_currentTick {w with currentTick := c}
  obtain ⟨h1,h2,h3,h4⟩ := expire_spec hp
  rw [hpe,hti] at h1 h2
  rw [hti] at h4
  have hs : ({w with currentTick := c} : TimerWheel).pending = w.pending := rfl
  refine ⟨h4,h1,h2,h3,?_,?_,?_⟩
  · intro e he
    have hm : e ∈ w.pending.filter (fun e => e.targetTick ≠ c) := h2 ▸ he
    obtain ⟨hme,hn⟩ := Multiset.mem_filter.1 hm
    have hl := hw.later e hme
    rw [show w.advanceTick.2.currentTick = c from h4]
    omega
  · show w.advanceTick.2.currentTick < 2^64
    rw [show w.advanceTick.2.currentTick = c from h4]
    exact Nat.mod_lt _ (by decide)
  · intro e he
    have hm : e ∈ w.pending.filter (fun e => e.targetTick ≠ c) := h2 ▸ he
    exact hw.targetBound e (Multiset.mem_filter.1 hm).1

lemma addTimer_spec (hw : Stable w) {t : Nat} (kind : TimerKind)
    (h1 : w.currentTick < t) (h2 : t < 2^64) : (w.addTimer t kind).2.pending = ⟨w.nextTimerId,t,kind⟩ ::ₘ w.pending ∧
    (w.addTimer t kind).2.currentTick = w.currentTick ∧ Stable (w.addTimer t kind).2 := by
  have hb : Placed {w with nextTimerId := (w.nextTimerId+1)%2^64} 1 1 1 1 :=
    ⟨hw.placed.lvl0,hw.placed.lvl1,hw.placed.lvl2,hw.placed.lvl3,hw.placed.far⟩
  have hp : (w.addTimer t kind).2.pending = ⟨w.nextTimerId,t,kind⟩ ::ₘ w.pending := pending_reinsert _ _
  have ht : (w.addTimer t kind).2.currentTick = w.currentTick := reinsert_currentTick _ _
  refine ⟨hp,ht,?_,?_,?_,?_⟩
  · exact reinsert_placed hb (.inl rfl) (.inl rfl) (.inl rfl) (by decide)
      (Nat.le_of_lt h1)
  · intro e he
    rw [hp] at he
    rw [ht]
    rcases Multiset.mem_cons.1 he with rfl | he
    · exact h1
    · exact hw.later e he
  · rw [ht]; exact hw.tickBound
  intro e he
  rw [hp] at he
  rcases Multiset.mem_cons.1 he with rfl | he
  · exact h2
  · exact hw.targetBound e he

variable {p : TimerEntry → Bool} {n : Nat} {l' : Slots}

lemma removeFirst_some
    (h : l.removeFirst p n = some (e,l')) : p e = true ∧ e ::ₘ l'.total n = l.total n ∧ ∀ s, ∀ x ∈ l' s, x ∈ l s := by
  simp only [Slots.removeFirst,Option.bind_eq_bind,Option.pure_def] at h
  cases hs : (range n).find? (fun s => (l s).any p) with
  | none => simp [hs] at h
  | some s =>
    cases he : (l s).find? p with
    | none => simp [hs,he] at h
    | some x =>
      simp only [hs,he,Option.bind_some] at h
      cases h
      have hl : s < n := mem_range.1 (mem_of_find?_eq_some hs)
      refine ⟨find?_some he,?_,?_⟩
      · have hu := Slots.total_update hl l ((l s).eraseP p)
        rw [← coe_eraseP he,Multiset.add_cons,← Multiset.cons_add] at hu
        exact add_right_cancel hu
      intro t y hy
      by_cases ht : t = s
      · subst ht
        rw [update_self] at hy
        exact mem_of_mem_eraseP hy
      · rwa [update_of_ne ht] at hy

lemma removeFirst_none (h : l.removeFirst p n = none) {s : Nat} (hs : s < n) (he : e ∈ l s) : p e = false := by
  simp only [Slots.removeFirst,Option.bind_eq_bind,Option.pure_def] at h
  cases hf : (range n).find? (fun s => (l s).any p) with
  | none =>
    have hn := find?_eq_none.1 hf s (mem_range.2 hs)
    simp only [any_eq_true,not_exists,not_and] at hn
    simpa using hn e he
  | some t =>
    have ha : (l t).any p = true := by simpa using find?_some hf
    obtain ⟨x,hx,hp⟩ := any_eq_true.1 ha
    cases hfx : (l t).find? p with
    | none => exact absurd hp (find?_eq_none.1 hfx x hx)
    | some y => simp [hf,hfx] at h

lemma Level.sub {lo : Nat} (hl : Level b lo c l) (h : ∀ s, ∀ x ∈ l' s, x ∈ l s) : Level b lo c l' :=
  fun s e he => hl s e (h s e he)

variable {w' : TimerWheel}

lemma stable_of_sub (hw : Stable w) (hc : w'.currentTick = w.currentTick) (hp : Placed w' 1 1 1 1)
    (hm : ∀ e ∈ w'.pending, e ∈ w.pending) : Stable w' := by
  refine ⟨hp,?_,?_,?_⟩
  · intro e he; rw [hc]; exact hw.later e (hm e he)
  · rw [hc]; exact hw.tickBound
  · intro e he; exact hw.targetBound e (hm e he)

lemma cancelFirst_some (hw : Stable w) (h : w.cancelFirst p = some (e,w')) :
    p e = true ∧ e ::ₘ w'.pending = w.pending ∧ w'.currentTick = w.currentTick ∧ Stable w' := by
  -- it is enough to name the level that lost the entry
  have key : p e = true → e ::ₘ w'.pending = w.pending → w'.currentTick = w.currentTick →
      Placed w' 1 1 1 1 → p e = true ∧ e ::ₘ w'.pending = w.pending ∧ w'.currentTick = w.currentTick ∧ Stable w' := by
    intro h1 h2 h3 h4
    refine ⟨h1,h2,h3,stable_of_sub hw h3 h4 ?_⟩
    intro x hx
    rw [← h2]
    exact Multiset.mem_cons_of_mem hx
  obtain ⟨p0,p1,p2,p3,p4⟩ := hw.placed
  unfold cancelFirst at h
  split at h
  · next h0 =>
    cases h
    obtain ⟨hp,ht,hs⟩ := removeFirst_some h0
    refine key hp ?_ rfl ⟨fun s y hy => p0 s y (hs s y hy),p1,p2,p3,p4⟩
    simp only [pending,← ht,Multiset.cons_add]
  split at h
  · next h1 =>
    cases h
    obtain ⟨hp,ht,hs⟩ := removeFirst_some h1
    refine key hp ?_ rfl ⟨p0,p1.sub hs,p2,p3,p4⟩
    simp only [pending,← ht,Multiset.cons_add,Multiset.add_cons]
  split at h
  · next h2 =>
    cases h
    obtain ⟨hp,ht,hs⟩ := removeFirst_some h2
    refine key hp ?_ rfl ⟨p0,p1,p2.sub hs,p3,p4⟩
    simp only [pending,← ht,Multiset.cons_add,Multiset.add_cons]
  split at h
  · next h3 =>
    cases h
    obtain ⟨hp,ht,hs⟩ := removeFirst_some h3
    refine key hp ?_ rfl ⟨p0,p1,p2,p3.sub hs,p4⟩
    simp only [pending,← ht,Multiset.cons_add,Multiset.add_cons]
  split at h
  · next h4 =>
    cases h
    refine key (find?_some h4) ?_ rfl ⟨p0,p1,p2,p3,fun y hy => p4 y (mem_of_mem_eraseP hy)⟩
    simp only [pending,← coe_eraseP h4,Multiset.add_cons]
  · cases h

lemma cancelFirst_none (h : w.cancelFirst p = none) (he : e ∈ w.pending) : p e = false := by
  unfold cancelFirst at h
  split at h
  · cases h
  · next h0 =>
    split at h
    · cases h
    · next h1 =>
      split at h
      · cases h
      · next h2 =>
        split at h
        · cases h
        · next h3 =>
          split at h
          · cases h
          · next h4 =>
            rcases mem_pending.1 he with ⟨s,hs,hm⟩ | ⟨s,hs,hm⟩ | ⟨s,hs,hm⟩ | ⟨s,hs,hm⟩ | hm
            · exact removeFirst_none h0 hs hm
            · exact removeFirst_none h1 hs hm
            · exact removeFirst_none h2 hs hm
            · exact removeFirst_none h3 hs hm
            · simpa using find?_eq_none.1 h4 e hm

inductive Op where
  | addTimer (targetTick : Nat) (kind : TimerKind)
  | cancelSleepTimer (tid : Nat)
  | cancelItimer (pid : Nat)
  | advanceTick

/-- What a call did to the timers: one was added or removed, a cancel found nothing, or a tick gave back a batch. -/
inductive Event where
  | added (e : TimerEntry)
  | cancelled (e : TimerEntry)
  | missed
  | fired (tick : Nat) (batch : List TimerEntry)

def Op.matches : Op → TimerEntry → Bool
  | .cancelSleepTimer tid, e => e.isSleep tid
  | .cancelItimer pid, e => e.isItimer pid
  | _, _ => false

def cancelEvent (w : TimerWheel) (op : Op) : Event :=
  match w.cancelFirst op.matches with
  | some (e,_) => .cancelled e
  | none => .missed

def TimerWheel.step (w : TimerWheel) : Op → Event × TimerWheel
  | .addTimer t kind =>
    let r := w.addTimer t kind
    (.added ⟨r.1,t,kind⟩, r.2)
  | .cancelSleepTimer tid =>
    (cancelEvent w (.cancelSleepTimer tid), (w.cancelSleepTimer tid).2)
  | .cancelItimer pid =>
    (cancelEvent w (.cancelItimer pid), (w.cancelItimer pid).2)
  | .advanceTick =>
    let r := w.advanceTick
    (.fired r.2.currentTick r.1, r.2)

def TimerWheel.run (w : TimerWheel) : List Op → List Event × TimerWheel
  | [] => ([], w)
  | op::ops =>
    let r := w.step op
    let rest := r.2.run ops
    (r.1::rest.1, rest.2)

def Op.admissible (w : TimerWheel) : Op → Prop
  | .addTimer t _ => w.currentTick < t ∧ t < 2^64
  | _ => True

def Admissible (w : TimerWheel) : List Op → Prop
  | [] => True
  | op::ops => op.admissible w ∧ Admissible (w.step op).2 ops

/-- What a timer service is for: a bag of timers and a tick, with no structure. -/
structure Timers where
  tick : Nat
  pending : Multiset TimerEntry

inductive Timers.Step : Timers → Op → Event → Timers → Prop where
  | add {c t : Nat} {k : TimerKind} {P : Multiset TimerEntry} (id : Nat) (h : c < t) :
      Step ⟨c,P⟩ (.addTimer t k) (.added ⟨id,t,k⟩) ⟨c,⟨id,t,k⟩ ::ₘ P⟩
  | cancel {c : Nat} {op : Op} {e : TimerEntry} {P : Multiset TimerEntry}
      (h : op.matches e = true) : Step ⟨c,e ::ₘ P⟩ op (.cancelled e) ⟨c,P⟩
  | miss {c : Nat} {op : Op} {P : Multiset TimerEntry}
      (h : ∀ e ∈ P, op.matches e = false) : Step ⟨c,P⟩ op .missed ⟨c,P⟩
  | advance {c : Nat} {P : Multiset TimerEntry} (batch : List TimerEntry)
      (h : (batch : Multiset TimerEntry) = P.filter (fun e => e.targetTick = (c+1)%2^64)) :
      Step ⟨c,P⟩ .advanceTick (.fired ((c+1)%2^64) batch)
        ⟨(c+1)%2^64,P.filter (fun e => e.targetTick ≠ (c+1)%2^64)⟩

def TimerWheel.abs (w : TimerWheel) : Timers := ⟨w.currentTick,w.pending⟩

lemma cancel_refines (hw : Stable w) (op : Op) (hw' : w' = ((w.cancelFirst op.matches).map Prod.snd).getD w) :
    Timers.Step w.abs op (cancelEvent w op) w'.abs ∧ Stable w' := by
  subst hw'
  unfold cancelEvent
  cases h : w.cancelFirst op.matches with
  | none => exact ⟨.miss (fun e he => cancelFirst_none h he),hw⟩
  | some r =>
    obtain ⟨e,w'⟩ := r
    obtain ⟨h1,h2,h3,h4⟩ := cancelFirst_some hw h
    refine ⟨?_,h4⟩
    simp only [TimerWheel.abs,← h2,← h3]
    exact .cancel h1

variable {op : Op}

lemma step_refines (hw : Stable w) (ha : op.admissible w) :
    Timers.Step w.abs op (w.step op).1 (w.step op).2.abs ∧ Stable (w.step op).2 := by
  cases op with
  | addTimer t kind =>
    obtain ⟨h1,h2,h3⟩ := addTimer_spec hw kind ha.1 ha.2
    refine ⟨?_,h3⟩
    simp only [TimerWheel.step,TimerWheel.abs,h1,h2]
    exact .add _ ha.1
  | cancelSleepTimer tid =>
    refine cancel_refines hw (.cancelSleepTimer tid) ?_
    rw [step,cancelSleepTimer,show Op.matches (.cancelSleepTimer tid) = TimerEntry.isSleep tid from rfl]
    cases w.cancelFirst (TimerEntry.isSleep tid) <;> rfl
  | cancelItimer pid =>
    refine cancel_refines hw (.cancelItimer pid) ?_
    rw [step,cancelItimer,show Op.matches (.cancelItimer pid) = TimerEntry.isItimer pid from rfl]
    cases w.cancelFirst (TimerEntry.isItimer pid) <;> rfl
  | advanceTick =>
    obtain ⟨h1,h2,h3,h4⟩ := advanceTick_spec hw
    refine ⟨?_,h4⟩
    simp only [TimerWheel.step,TimerWheel.abs,h1,h3]
    exact .advance _ h2

def Event.addedTimers : Event → Multiset TimerEntry
  | .added e => {e}
  | _ => 0

def Event.cancelledTimers : Event → Multiset TimerEntry
  | .cancelled e => {e}
  | _ => 0

def Event.firedTimers : Event → Multiset TimerEntry
  | .fired _ batch => batch
  | _ => 0

def total (f : Event → Multiset TimerEntry) (log : List Event) : Multiset TimerEntry :=
  (log.map f).sum

variable {s t : Timers}

lemma Timers.step_balance {ev : Event} (h : s.Step op ev t) :
    s.pending+ev.addedTimers = ev.cancelledTimers+ev.firedTimers+t.pending := by
  cases h with
  | add id h =>
    simp only [Event.addedTimers,Event.cancelledTimers,Event.firedTimers,zero_add]
    rw [add_comm,Multiset.singleton_add]
  | cancel h => simp [Event.addedTimers,Event.cancelledTimers,Event.firedTimers,Multiset.singleton_add]
  | miss h => simp [Event.addedTimers,Event.cancelledTimers,Event.firedTimers]
  | advance batch h =>
    simp only [Event.addedTimers,Event.cancelledTimers,Event.firedTimers,h,add_zero,zero_add]
    exact (Multiset.filter_add_not _ _).symm

variable {batch : List TimerEntry}

lemma Timers.step_fired (h : s.Step op (.fired c batch) t) : ∀ e ∈ batch, e.targetTick = c := by
  cases h with
  | advance _ h =>
    intro e he
    have hm : e ∈ (batch : Multiset TimerEntry) := he
    rw [h] at hm
    exact (Multiset.mem_filter.1 hm).2

inductive Timers.Run : Timers → List Op → List Event → Timers → Prop where
  | nil (s : Timers) : Run s [] [] s
  | cons {s t u : Timers} {op : Op} {ops : List Op} {ev : Event} {log : List Event} :
      s.Step op ev t → Run t ops log u → Run s (op::ops) (ev::log) u

variable {ops : List Op} {log : List Event}

lemma Timers.run_balance (h : s.Run ops log t) :
    s.pending+total Event.addedTimers log = total Event.cancelledTimers log+total Event.firedTimers log+t.pending := by
  induction h with
  | nil s => simp [total]
  | cons hs _ ih =>
    have hst := step_balance hs
    simp only [total,map_cons,sum_cons] at ih ⊢
    rw [← add_assoc,hst,add_assoc,ih]
    abel

lemma Timers.run_fired (h : s.Run ops log t) (hm : Event.fired c batch ∈ log) : ∀ e ∈ batch, e.targetTick = c := by
  induction h with
  | nil s => simp at hm
  | cons hs _ ih =>
    rcases mem_cons.1 hm with rfl | hm
    · exact step_fired hs
    · exact ih hm

lemma run_refines (ops : List Op) (hw : Stable w) (ha : Admissible w ops) :
    w.abs.Run ops (w.run ops).1 (w.run ops).2.abs ∧ Stable (w.run ops).2 := by
  induction ops generalizing w with
  | nil => exact ⟨.nil _,hw⟩
  | cons op ops ih =>
    obtain ⟨hst,hs⟩ := step_refines hw ha.1
    obtain ⟨hr,he⟩ := ih hs ha.2
    exact ⟨.cons hst hr,he⟩

/-- Every timer added is, exactly once, cancelled, returned by the call that moves the tick to its target, or still
pending. -/
theorem timer_wheel_exact (ops : List Op) (ha : Admissible TimerWheel.new ops) :
    let log := (TimerWheel.new.run ops).1
    let w := (TimerWheel.new.run ops).2
    Timers.Run ⟨0,0⟩ ops log w.abs ∧
    total Event.addedTimers log = total Event.cancelledTimers log+total Event.firedTimers log+w.pending ∧
    (∀ c batch, Event.fired c batch ∈ log → ∀ e ∈ batch, e.targetTick = c) ∧
    ∀ e ∈ w.pending, w.currentTick < e.targetTick := by
  intro log w
  obtain ⟨hr,hs⟩ := run_refines ops new_stable ha
  have he : TimerWheel.new.abs = ⟨0,0⟩ := by
    simp [TimerWheel.abs,TimerWheel.pending,TimerWheel.new,Slots.total]
  rw [he] at hr
  refine ⟨hr,?_,fun c batch hm => Timers.run_fired hr hm,hs.later⟩
  have hb := Timers.run_balance hr
  rw [zero_add] at hb
  exact hb

theorem timer_wheel_exact_at_two_sleeps : Admissible TimerWheel.new
      [.addTimer 300 (.sleep 7),.addTimer 2 (.sleep 9),.cancelSleepTimer 7, .advanceTick,.advanceTick] ∧
    total Event.addedTimers (TimerWheel.new.run [.addTimer 300 (.sleep 7),.addTimer 2 (.sleep 9),.cancelSleepTimer 7,
        .advanceTick,.advanceTick]).1 = {⟨1,300,.sleep 7⟩,⟨2,2,.sleep 9⟩} ∧ ∀ e ∈ (TimerWheel.new.run
      [.addTimer 300 (.sleep 7),.addTimer 2 (.sleep 9),.cancelSleepTimer 7,
        .advanceTick,.advanceTick]).2.pending, 2 < e.targetTick := by
  have ha : Admissible TimerWheel.new
      [.addTimer 300 (.sleep 7),.addTimer 2 (.sleep 9),.cancelSleepTimer 7,.advanceTick,.advanceTick] := by
    refine ⟨⟨by decide,by decide⟩,⟨by decide,by decide⟩,trivial,trivial,trivial,trivial⟩
  obtain ⟨_,_,_,hl⟩ := timer_wheel_exact _ ha
  exact ⟨ha,rfl,hl⟩

end Vanta.Timer
