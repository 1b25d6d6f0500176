import Mathlib.Data.List.Basic
import Vanta.Sched.Descriptors

namespace Vanta.Sched.Files
open Function List

/-- Some task refers to the table, and the table has a descriptor for the end at this number. -/
def At (w : Files) (t fd : Nat) (res : DescriptorResource) : Prop :=
  (∃ k ∈ w.tasks, k.table = t) ∧ ∃ d, w.entry t fd = some d ∧ d.resource = res

variable {res : DescriptorResource} {d : FileDescriptor} {fd id t : Nat}
variable {l : Table}

lemma tableHas_iff :
    tableHas l res = true ↔ ∃ fd : Nat, ∃ d : FileDescriptor, l[fd]?.join = some d ∧ d.resource = res := by
  rw [tableHas,any_eq_true]
  constructor
  · rintro ⟨o,ho,hr⟩
    obtain ⟨fd,hf⟩ := mem_iff_getElem?.mp ho
    cases o with
    | none => cases hr
    | some d => exact ⟨fd,d,by rw [hf]; rfl,by simpa using hr⟩
  · rintro ⟨fd,d,hf,hr⟩
    exact ⟨some d,mem_of_getElem? (Option.join_eq_some_iff.1 hf),by simpa using hr⟩

variable {w : Files}

lemma referred_iff : w.referred res = true ↔ ∃ t fd, w.At t fd res := by
  rw [referred,any_eq_true]
  constructor
  · rintro ⟨k,hk,hh⟩
    obtain ⟨fd,d,hf,hr⟩ := tableHas_iff.1 hh
    exact ⟨k.table,fd,⟨k,hk,rfl⟩,d,hf,hr⟩
  · rintro ⟨t,fd,⟨k,hk,rfl⟩,d,hf,hr⟩
    exact ⟨k,hk,tableHas_iff.2 ⟨fd,d,hf,hr⟩⟩

lemma held_iff : w.held res = true ↔ ∃ k ∈ w.tasks, k.live = true ∧ ∃ fd, w.At k.table fd res := by
  rw [held,any_eq_true]
  refine exists_congr fun k => and_congr_right fun hk => ?_
  rw [Bool.and_eq_true,tableHas_iff]
  refine and_congr_right fun _ => exists_congr fun fd => ?_
  exact ⟨fun h => ⟨⟨k,hk,rfl⟩,h⟩,fun h => h.2⟩

/-- Flags are right, dead tasks alone hold no flagged end, and an end of a pair has one descriptor. -/
structure Inv (w : Files) : Prop where
  flags : ∀ res, res.flagged = true → (w.flag res = true ↔ ∃ t fd, w.At t fd res)
  live : ∀ t fd res, w.At t fd res → res.flagged = true → ∃ k ∈ w.tasks, k.live = true ∧ k.table = t
  single : ∀ t fd t' fd' res, res.isPty = true → w.At t fd res → w.At t' fd' res → t = t' ∧ fd = fd'
  listed : ∀ id, (w.ptys id).listed = true ∨ (w.ptys id).masterOpen = false ∧ (w.ptys id).slaveOpen = false
  tables : ∀ k ∈ w.tasks, k.table < w.nextTable
  pipes : ∀ id, w.nextPipe ≤ id → w.writerOpen id = false
  ptys : ∀ id, w.nextPty ≤ id → w.ptys id = ⟨false,false,false⟩

lemma Inv.flag_eq_held (h : w.Inv) (hr : res.flagged = true) : w.flag res = w.held res := by
  rw [Bool.eq_iff_iff,h.flags res hr,held_iff]
  constructor
  · rintro ⟨t,fd,ha⟩
    obtain ⟨k,hk,hlive,rfl⟩ := h.live t fd res ha hr
    exact ⟨k,hk,hlive,fd,ha⟩
  · rintro ⟨k,-,-,fd,ha⟩
    exact ⟨k.table,fd,ha⟩

lemma flagged_of_isPty (h : res.isPty = true) : res.flagged = true := by
  cases res <;> first | rfl | cases h

/-- The table `l'` is `l` with the slot `i` changed. -/
def Puts (l l' : Table) (i : Nat) (d : Option FileDescriptor) : Prop :=
  ∀ fd, l'[fd]?.join = if fd = i then d else l[fd]?.join

variable {l' : Table} {i : Nat}

lemma installDescriptor_puts (h : installDescriptor l d = some (l',i)) : Puts l l' i (some d) ∧ l[i]?.join = none := by
  rw [installDescriptor] at h
  split at h
  · next j hj =>
    obtain ⟨rfl,rfl⟩ := Prod.mk.inj (Option.some.inj h)
    obtain ⟨hl,hn,-⟩ := findIdx?_eq_some_iff_getElem.1 hj
    have hg : l[j]? = some none := by
      rw [getElem?_eq_getElem hl]
      simpa using hn
    refine ⟨fun fd => ?_,by rw [hg]; rfl⟩
    rw [getElem?_set]
    by_cases hf : fd = j
    · subst hf
      rw [if_pos rfl,if_pos hl,if_pos rfl]
      rfl
    · rw [if_neg (Ne.symm hf),if_neg hf]
  · split_ifs at h
    cases h
    refine ⟨fun fd => ?_,by rw [getElem?_eq_none (Nat.le_refl _)]; rfl⟩
    split_ifs with hf
    · subst hf
      simp
    by_cases hl : fd < l.length
    · rw [getElem?_append_left hl]
    · rw [getElem?_eq_none (by simp; omega),getElem?_eq_none (by omega)]

lemma padded_get (l : Table) (n fd : Nat) : (padded l n)[fd]?.join = l[fd]?.join := by
  rw [padded]
  by_cases hl : fd < l.length
  · rw [getElem?_append_left hl]
  · rw [getElem?_append_right (by omega),getElem?_replicate,getElem?_eq_none (by omega)]
    split_ifs <;> rfl

lemma set_puts (l : Table) {n : Nat} (hi : i < n) (d : FileDescriptor) :
    Puts l ((padded l n).set i (some d)) i (some d) := by
  intro fd
  rw [getElem?_set]
  by_cases hf : fd = i
  · subst hf
    have hl : fd < (padded l n).length := by
      rw [padded,length_append,length_replicate]
      omega
    rw [if_pos rfl,if_pos hl,if_pos rfl]
    rfl
  · rw [if_neg (Ne.symm hf),if_neg hf,padded_get]

lemma take_puts (l : Table) (i : Nat) : Puts l (l.set i none) i none := by
  intro fd
  rw [getElem?_set]
  by_cases hf : fd = i
  · subst hf
    split_ifs <;> rfl
  · rw [if_neg (Ne.symm hf),if_neg hf]

variable {tasks : List Holder}

section
variable {w w' : Files} {k : Holder} {l : Table} {i : Nat}

/-- One slot of one table has changed; the tasks are the same. -/
structure Changed (w w' : Files) (t i : Nat) (d : Option FileDescriptor) : Prop where
  tasks : w'.tasks = w.tasks
  entry : ∀ t' fd, w'.entry t' fd = if t' = t ∧ fd = i then d else w.entry t' fd

lemma Changed.of_puts {d : Option FileDescriptor} (hput : Puts (w.tables k.table) l i d) (htas : w'.tasks = w.tasks)
    (hta : w'.tables = update w.tables k.table l) : Changed w w' k.table i d := by
  refine ⟨htas,fun t fd => ?_⟩
  rw [Files.entry,hta]
  by_cases ht : t = k.table
  · subst ht
    rw [update_self,hput fd]
    simp only [true_and]
    rfl
  · rw [update_of_ne ht,if_neg (fun hb => ht hb.1)]
    rfl

lemma Changed.at_other {d : Option FileDescriptor} (h : Changed w w' t i d) {t' : Nat}
    (hn : ¬(t' = t ∧ fd = i)) : w'.At t' fd res ↔ w.At t' fd res := by
  rw [At,At,h.tasks,h.entry,if_neg hn]

lemma Changed.at_slot (h : Changed w w' t i (some d)) (hre : ∃ k ∈ w.tasks, k.table = t)
    : w'.At t i res ↔ d.resource = res := by
  rw [At,h.tasks,h.entry,if_pos ⟨rfl,rfl⟩]
  exact ⟨fun ⟨_,e,he,hr⟩ => Option.some.inj he ▸ hr,fun hr => ⟨hre,d,rfl,hr⟩⟩

lemma Changed.not_at_slot (h : Changed w w' t i none) : ¬w'.At t i res := by
  rintro ⟨-,d,hd,-⟩
  rw [h.entry,if_pos ⟨rfl,rfl⟩] at hd
  cases hd

section
variable (h : w.Inv) (hk : k ∈ w.tasks) (hlive : k.live = true)
  (hput : Puts (w.tables k.table) l i (some d))

include h hk hlive hput

lemma Inv.put (hp : d.resource.isPty = false) (ho : ∀ e, w.entry k.table i = some e → e.resource.flagged = false)
    (hs : d.resource.flagged = true → ∃ t fd, w.At t fd d.resource) : (w.setTable k.table l).Inv := by
  have hc : Changed w (w.setTable k.table l) k.table i (some d) := .of_puts hput rfl rfl
  have hre : ∃ k' ∈ w.tasks, k'.table = k.table := ⟨k,hk,rfl⟩
  have hol : ∀ t fd res, res.flagged = true → w.At t fd res → ¬(t = k.table ∧ fd = i) := by
    rintro t fd res hr ⟨-,e,he,rfl⟩ ⟨rfl,rfl⟩
    rw [ho e he] at hr
    cases hr
  refine ⟨fun res hr => ?_,fun t fd res ha hr => ?_,fun t fd t' fd' res hr ha ha' => ?_,h.listed,h.tables,
    h.pipes,h.ptys⟩
  · refine (h.flags res hr).trans ⟨?_,?_⟩
    · rintro ⟨t,fd,ha⟩
      exact ⟨t,fd,(hc.at_other (hol t fd res hr ha)).2 ha⟩
    rintro ⟨t,fd,ha⟩
    by_cases hsl : t = k.table ∧ fd = i
    · obtain ⟨rfl,rfl⟩ := hsl
      obtain rfl := (hc.at_slot hre).1 ha
      exact hs hr
    · exact ⟨t,fd,(hc.at_other hsl).1 ha⟩
  · by_cases hsl : t = k.table ∧ fd = i
    · exact ⟨k,hk,hlive,hsl.1.symm⟩
    · exact h.live t fd res ((hc.at_other hsl).1 ha) hr
  have hb : ∀ t fd, (w.setTable k.table l).At t fd res → w.At t fd res := by
    intro t fd ha
    refine (hc.at_other ?_).1 ha
    rintro ⟨rfl,rfl⟩
    rw [← (hc.at_slot hre).1 ha,hp] at hr
    cases hr
  exact h.single t fd t' fd' res hr (hb t fd ha) (hb t' fd' ha')

lemma Inv.first (hem : w.entry k.table i = none)
    (ho : d.resource.flagged = true → w.flag d.resource = false) (ht : w'.tasks = w.tasks)
    (hta : w'.tables = update w.tables k.table l) (hn : w'.nextTable = w.nextTable)
    (hfl : ∀ res, res.flagged = true → w'.flag res = if res = d.resource then true else w.flag res)
    (hl : ∀ id, (w'.ptys id).listed = true ∨ (w'.ptys id).masterOpen = false ∧ (w'.ptys id).slaveOpen = false)
    (hp : ∀ id, w'.nextPipe ≤ id → w'.writerOpen id = false)
    (hpt : ∀ id, w'.nextPty ≤ id → w'.ptys id = ⟨false,false,false⟩) : w'.Inv := by
  have hc : Changed w w' k.table i (some d) := .of_puts hput ht hta
  have hre : ∃ k' ∈ w.tasks, k'.table = k.table := ⟨k,hk,rfl⟩
  have hf : ∀ t fd, d.resource.flagged = true → ¬w.At t fd d.resource := by
    intro t fd hr ha
    have hon := (h.flags d.resource hr).2 ⟨t,fd,ha⟩
    rw [ho hr] at hon
    cases hon
  have hol : ∀ t fd res, w.At t fd res → ¬(t = k.table ∧ fd = i) := by
    rintro t fd res ⟨-,e,he,-⟩ ⟨rfl,rfl⟩
    rw [hem] at he
    cases he
  refine ⟨fun res hr => ?_,fun t fd res ha hr => ?_,fun t fd t' fd' res hr ha ha' => ?_,hl,?_,hp,hpt⟩
  · rw [hfl res hr]
    split_ifs with heq
    · subst heq
      exact ⟨fun _ => ⟨k.table,i,(hc.at_slot hre).2 rfl⟩,fun _ => rfl⟩
    refine (h.flags res hr).trans ⟨?_,?_⟩
    · rintro ⟨t,fd,ha⟩
      exact ⟨t,fd,(hc.at_other (hol t fd res ha)).2 ha⟩
    rintro ⟨t,fd,ha⟩
    refine ⟨t,fd,(hc.at_other ?_).1 ha⟩
    rintro ⟨rfl,rfl⟩
    exact heq ((hc.at_slot hre).1 ha).symm
  · rw [ht]
    by_cases hs : t = k.table ∧ fd = i
    · exact ⟨k,hk,hlive,hs.1.symm⟩
    · exact h.live t fd res ((hc.at_other hs).1 ha) hr
  · by_cases heq : res = d.resource
    · subst heq
      have hs : ∀ t fd, w'.At t fd d.resource → t = k.table ∧ fd = i := by
        intro t fd ha
        by_contra hne
        exact hf t fd (flagged_of_isPty hr) ((hc.at_other hne).1 ha)
      obtain ⟨rfl,rfl⟩ := hs t fd ha
      obtain ⟨rfl,rfl⟩ := hs t' fd' ha'
      exact ⟨rfl,rfl⟩
    · have hb : ∀ t fd, w'.At t fd res → w.At t fd res := by
        intro t fd ha
        refine (hc.at_other ?_).1 ha
        rintro ⟨rfl,rfl⟩
        exact heq ((hc.at_slot hre).1 ha).symm
      exact h.single t fd t' fd' res hr (hb t fd ha) (hb t' fd' ha')
  · rw [ht,hn]
    exact h.tables

end

lemma Inv.take (h : w.Inv) (hen : w.entry t i = some d) (hc : Changed w w' t i none) (hn : w'.nextTable = w.nextTable)
    (hf : ∀ res, res.flagged = true → res ≠ d.resource → w'.flag res = w.flag res)
    (hs : d.resource.flagged = true → (w'.flag d.resource = true ↔ ∃ t fd, w'.At t fd d.resource))
    (hl : ∀ id, (w'.ptys id).listed = true ∨ (w'.ptys id).masterOpen = false ∧ (w'.ptys id).slaveOpen = false)
    (hp : ∀ id, w'.nextPipe ≤ id → w'.writerOpen id = false)
    (hpt : ∀ id, w'.nextPty ≤ id → w'.ptys id = ⟨false,false,false⟩) : w'.Inv := by
  have hb : ∀ t' fd res, w'.At t' fd res → w.At t' fd res := by
    intro t' fd res ha
    refine (hc.at_other ?_).1 ha
    rintro ⟨rfl,rfl⟩
    exact hc.not_at_slot ha
  refine ⟨fun res hr => ?_,fun t' fd res ha hr => ?_,fun t1 fd1 t2 fd2 res hr ha ha' => ?_,hl,?_,hp,hpt⟩
  · by_cases heq : res = d.resource
    · subst heq
      exact hs hr
    rw [hf res hr heq]
    refine (h.flags res hr).trans ⟨?_,?_⟩
    · rintro ⟨t',fd,ha⟩
      refine ⟨t',fd,(hc.at_other ?_).2 ha⟩
      rintro ⟨rfl,rfl⟩
      obtain ⟨-,e,he,hr'⟩ := ha
      cases hen.symm.trans he
      exact heq hr'.symm
    · rintro ⟨t',fd,ha⟩
      exact ⟨t',fd,hb t' fd res ha⟩
  · rw [hc.tasks]
    exact h.live t' fd res (hb t' fd res ha) hr
  · exact h.single t1 fd1 t2 fd2 res hr (hb _ _ _ ha) (hb _ _ _ ha')
  · rw [hc.tasks,hn]
    exact h.tables

lemma Inv.ofTasks (h : w.Inv) (hs : ∀ k ∈ tasks, ∃ k' ∈ w.tasks, k'.table = k.table)
    (hlive : ∀ t fd res, w.At t fd res → res.flagged = true → ∃ k ∈ tasks, k.live = true ∧ k.table = t) :
    ({w with tasks} : Files).Inv := by
  have hb : ∀ t fd res, ({w with tasks} : Files).At t fd res → w.At t fd res := by
    rintro t fd res ⟨⟨k,hk,rfl⟩,hd⟩
    exact ⟨hs k hk,hd⟩
  have hf : ∀ t fd res, res.flagged = true → w.At t fd res → ({w with tasks} : Files).At t fd res := by
    intro t fd res hr ha
    obtain ⟨k,hk,-,ht⟩ := hlive t fd res ha hr
    exact ⟨⟨k,hk,ht⟩,ha.2⟩
  refine ⟨fun res hr => ?_,fun t fd res ha hr => hlive t fd res (hb t fd res ha) hr,
    fun t fd t' fd' res hr ha ha' => h.single t fd t' fd' res hr (hb _ _ _ ha) (hb _ _ _ ha'),h.listed,
    fun k hk => ?_,h.pipes,h.ptys⟩
  · exact (h.flags res hr).trans ⟨fun ⟨t,fd,ha⟩ => ⟨t,fd,hf t fd res hr ha⟩,
      fun ⟨t,fd,ha⟩ => ⟨t,fd,hb t fd res ha⟩⟩
  · obtain ⟨k',hk',ht⟩ := hs k hk
    exact ht ▸ h.tables k' hk'

lemma Inv.newTable (h : w.Inv)
    (hsu : ∀ k ∈ tasks, k.table = w.nextTable ∧ k.live = true ∨ ∃ k' ∈ w.tasks, k'.table = k.table)
    (hlive : ∀ t fd res, w.At t fd res → res.flagged = true → ∃ k ∈ tasks, k.live = true ∧ k.table = t)
    (hnew : ∀ (fd : Nat) (d : FileDescriptor), l[fd]?.join = some d → d.resource.flagged = true →
      d.resource.isPty = false ∧ ∃ t fd', w.At t fd' d.resource) :
    ({w.setTable w.nextTable l with nextTable := w.nextTable+1, tasks} : Files).Inv := by
  generalize hw' : ({w.setTable w.nextTable l with nextTable := w.nextTable+1, tasks} : Files) = w'
  have he : ∀ t fd, w'.entry t fd = if t = w.nextTable then l[fd]?.join else w.entry t fd := by
    intro t fd
    subst hw'
    show (update w.tables w.nextTable l t)[fd]?.join = _
    by_cases ht : t = w.nextTable
    · rw [ht,update_self,if_pos rfl]
    · rw [update_of_ne ht,if_neg ht]
      rfl
  have hta : w'.tasks = tasks := by subst hw'; rfl
  have ho : ∀ t fd res, t ≠ w.nextTable → w'.At t fd res → w.At t fd res := by
    rintro t fd res hne ⟨⟨k,hk,rfl⟩,d,hd,hr⟩
    rw [hta] at hk
    rw [he,if_neg hne] at hd
    exact ⟨(hsu k hk).resolve_left (fun hk => hne hk.1),d,hd,hr⟩
  have hfo : ∀ t fd res, res.flagged = true → w.At t fd res → w'.At t fd res := by
    intro t fd res hr ha
    obtain ⟨k,hk,-,htab⟩ := hlive t fd res ha hr
    obtain ⟨⟨k',hk',ht'⟩,d,hd,hdr⟩ := ha
    have hl := h.tables k' hk'
    refine ⟨⟨k,hta ▸ hk,htab⟩,d,?_,hdr⟩
    rw [he,if_neg (by omega)]
    exact hd
  have hf : ∀ fd res, res.flagged = true → w'.At w.nextTable fd res →
      res.isPty = false ∧ ∃ t fd', w.At t fd' res := by
    rintro fd res hr ⟨-,d,hd,rfl⟩
    rw [he,if_pos rfl] at hd
    exact hnew fd d hd hr
  refine ⟨fun res hr => ?_,fun t fd res ha hr => ?_,fun t fd t' fd' res hr ha ha' => ?_,by subst hw'; exact h.listed,
    fun k hk => ?_,by subst hw'; exact h.pipes,by subst hw'; exact h.ptys⟩
  · have hs : w'.flag res = w.flag res := by
      subst hw'
      cases res <;> rfl
    rw [hs]
    refine (h.flags res hr).trans ⟨fun ⟨t,fd,ha⟩ => ⟨t,fd,hfo t fd res hr ha⟩,?_⟩
    rintro ⟨t,fd,ha⟩
    by_cases ht : t = w.nextTable
    · subst ht
      exact (hf fd res hr ha).2
    · exact ⟨t,fd,ho t fd res ht ha⟩
  · by_cases ht : t = w.nextTable
    · obtain ⟨⟨k,hk,htab⟩,-⟩ := ha
      rw [hta] at hk ⊢
      obtain ⟨-,hkl⟩ | ⟨k',hk',ht'⟩ := hsu k hk
      · exact ⟨k,hk,hkl,htab⟩
      · have hl := h.tables k' hk'
        omega
    · rw [hta]
      exact hlive t fd res (ho t fd res ht ha) hr
  · have hne : ∀ t fd, w'.At t fd res → t ≠ w.nextTable := by
      rintro t fd ha rfl
      rw [(hf fd res (flagged_of_isPty hr) ha).1] at hr
      cases hr
    exact h.single t fd t' fd' res hr (ho t fd res (hne t fd ha) ha) (ho t' fd' res (hne t' fd' ha') ha')
  · rw [hta] at hk
    have hn : w'.nextTable = w.nextTable+1 := by subst hw'; rfl
    obtain ⟨heq,-⟩ | ⟨k',hk',htab⟩ := hsu k hk
    · omega
    · have hl := h.tables k' hk'
      omega

end

/-- The tasks that leave take no flagged end with them: their table has none, or a living task that stays shares it. -/
def Spared (w : Files) (leaving : List Nat) (t : Nat) : Prop :=
  (∀ fd d, w.entry t fd = some d → d.resource.flagged = false) ∨
    ∃ j k, j ∉ leaving ∧ w.tasks[j]? = some k ∧ k.live = true ∧ k.table = t

def Room (l : Table) (first second : DescriptorResource) : Prop :=
  ((installDescriptor l (transferable first)).bind (fun r => installDescriptor r.1 (transferable second))).isSome = true

def NoPty (w : Files) (t : Nat) : Prop := ∀ fd d, w.entry t fd = some d → d.resource.isPty = false

/-- The slot that a new task takes belongs to none that still has its process. -/
def SlotFree (w : Files) (slot : Option Nat) : Prop := ∀ j k, slot = some j → w.tasks[j]? = some k → k.live = false

/-- Ends are dropped by `close` only, and the ends of pairs have one descriptor each. -/
def Clean (w : Files) : Op → Prop
  | .pipe i => ∀ k, w.caller i = some k → Room (w.tables k.table) (.pipeRead w.nextPipe) (.pipeWrite w.nextPipe)
  | .pty i => w.nextPty+1 < 2^32 ∧ ∀ k, w.caller i = some k → Room (w.tables k.table) (.ptyMaster w.nextPty) (.ptySlave w.nextPty)
  | .ptmx i => w.nextPty+1 < 2^32 ∧ ∀ k, w.caller i = some k →
      (installDescriptor (w.tables k.table) (transferable (.ptyMaster w.nextPty))).isSome = true
  | .pts i id => w.referred (.ptySlave id) = false ∧ ∀ k, w.caller i = some k →
      (installDescriptor (w.tables k.table) (transferable (.ptySlave id))).isSome = true
  | .dup i fd => ∀ k d, w.caller i = some k → w.entry k.table fd = some d → d.resource.isPty = false
  | .dup2 i oldFd newFd => ∀ k, w.caller i = some k → (∀ d, w.entry k.table oldFd = some d → d.resource.isPty = false) ∧
      ∀ d, w.entry k.table newFd = some d → d.resource.flagged = false
  | .clone i cloneFiles slot =>
    w.SlotFree slot ∧ (cloneFiles = false → ∀ k, w.caller i = some k → w.NoPty k.table)
  | .spawn i _ _ _ slot => w.SlotFree slot ∧ ∀ k, w.caller i = some k → w.NoPty k.table
  | .exec i => ∀ k, w.caller i = some k → w.Spared [i] k.table
  | .exit i _ => ∀ k, w.caller i = some k → w.Spared [i] k.table
  | .kill victims => ∀ i ∈ victims, ∀ k, w.caller i = some k → w.Spared victims k.table
  | .close _ _ | .wait _ => True

attribute [local simp] flag setTable createPty transferable

section
variable {w : Files} {k : Holder}

lemma caller_spec (h : w.caller i = some k) : w.tasks[i]? = some k ∧ k ∈ w.tasks ∧ k.live = true := by
  obtain ⟨hg,hlive⟩ := Option.filter_eq_some_iff.1 h
  exact ⟨hg,mem_of_getElem? hg,hlive⟩

lemma flag_createPty (w : Files) (slaveOpen : Bool) (res : DescriptorResource) : (w.createPty slaveOpen).flag res =
      if res = .ptyMaster w.nextPty then true else if res = .ptySlave w.nextPty then slaveOpen else w.flag res := by
  cases res with
  | ptyMaster id | ptySlave id =>
    by_cases hi : id = w.nextPty
    · subst hi
      simp
    · simp [hi]
  | pipeRead id => simp
  | pipeWrite id => simp
  | other => simp

lemma listed_createPty (h : w.Inv) (slaveOpen : Bool) (id : Nat) : ((w.createPty slaveOpen).ptys id).listed = true ∨
      ((w.createPty slaveOpen).ptys id).masterOpen = false ∧ ((w.createPty slaveOpen).ptys id).slaveOpen = false := by
  by_cases hi : id = w.nextPty
  · subst hi
    exact .inl (by simp)
  · simpa [hi] using h.listed id

lemma ptys_createPty (h : w.Inv) (hw : w.nextPty+1 < 2^32) (slaveOpen : Bool) (id : Nat)
    (hi : (w.createPty slaveOpen).nextPty ≤ id) : (w.createPty slaveOpen).ptys id = ⟨false,false,false⟩ := by
  have hi' : (w.nextPty+1)%2^32 ≤ id := hi
  rw [Nat.mod_eq_of_lt hw] at hi'
  have hn : id ≠ w.nextPty := by omega
  simpa [hn] using h.ptys id (by omega)

section
variable (h : w.Inv) (hk : k ∈ w.tasks) (hlive : k.live = true)
include h hk hlive

lemma Inv.openPipe
    (hr : Room (w.tables k.table) (.pipeRead w.nextPipe) (.pipeWrite w.nextPipe)) : (w.openPipeCurrent k).Inv := by
  obtain ⟨⟨l2,i2⟩,hb⟩ := Option.isSome_iff_exists.1 hr
  obtain ⟨⟨l1,i1⟩,hf,hs⟩ := Option.bind_eq_some_iff.1 hb
  obtain ⟨hp1,he1⟩ := installDescriptor_puts hf
  obtain ⟨hp2,he2⟩ := installDescriptor_puts hs
  have hre : (w.setTable k.table l1).Inv :=
    h.put hk hlive hp1 rfl (fun e he => by rw [entry,he1] at he; cases he) nofun
  have ht : (w.setTable k.table l1).tables k.table = l1 := update_self ..
  rw [openPipeCurrent,installBoth]
  rw [hf]
  dsimp only
  rw [hs]
  refine hre.first hk hlive (i := i2) (d := transferable (.pipeWrite w.nextPipe)) (l := l2) (by rw [ht]; exact hp2)
    (by rw [entry,ht]; exact he2) (fun _ => h.pipes _ (Nat.le_refl _)) rfl ?_ rfl (fun res hres => ?_) h.listed
    (fun id hi => ?_) h.ptys
  · exact (update_idem ..).symm
  · cases res with
    | pipeWrite id =>
      by_cases hi : id = w.nextPipe
      · subst hi
        simp
      · simp [hi]
    | ptyMaster id | ptySlave id => rfl
    | pipeRead id | other => cases hres
  · have hi' : w.nextPipe+1 ≤ id := hi
    have hn : id ≠ w.nextPipe := by omega
    simpa [hn] using h.pipes id (by omega)

lemma Inv.openPtmx (hw : w.nextPty+1 < 2^32) (hput : Puts (w.tables k.table) l i (some (transferable (.ptyMaster w.nextPty))))
    (he : w.entry k.table i = none) : ((w.createPty false).setTable k.table l).Inv := by
  refine h.first hk hlive hput he (fun _ => by rw [flag.eq_def]; simp [h.ptys _ (Nat.le_refl _)]) rfl rfl rfl (fun res hr => ?_)
    (listed_createPty h false) h.pipes (ptys_createPty h hw false)
  refine (flag_createPty w false res).trans ?_
  by_cases hs : res = .ptySlave w.nextPty
  · subst hs
    simp [h.ptys _ (Nat.le_refl _)]
  · rw [if_neg hs]
    rfl

lemma Inv.openPty (hw : w.nextPty+1 < 2^32)
    (hr : Room (w.tables k.table) (.ptyMaster w.nextPty) (.ptySlave w.nextPty)) : (w.openPtyCurrent k).Inv := by
  obtain ⟨⟨l2,i2⟩,hb⟩ := Option.isSome_iff_exists.1 hr
  obtain ⟨⟨l1,i1⟩,hf,hse⟩ := Option.bind_eq_some_iff.1 hb
  obtain ⟨hp1,he1⟩ := installDescriptor_puts hf
  obtain ⟨hp2,he2⟩ := installDescriptor_puts hse
  have hma := h.openPtmx hk hlive hw hp1 he1
  have ht : ((w.createPty false).setTable k.table l1).tables k.table = l1 := update_self ..
  rw [openPtyCurrent,installBoth,show (w.createPty true).tables = w.tables from rfl,hf]
  dsimp only
  rw [hse]
  refine hma.first hk hlive (i := i2) (d := transferable (.ptySlave w.nextPty)) (l := l2) (by rw [ht]; exact hp2)
    (by rw [entry,ht]; exact he2) (fun _ => ?_) rfl ?_ rfl (fun res hre => ?_)
    (listed_createPty h true) h.pipes (ptys_createPty h hw true)
  · exact (flag_createPty w false (.ptySlave w.nextPty)).trans (by simp)
  · exact (update_idem ..).symm
  refine (flag_createPty w true res).trans ?_
  rw [show ((w.createPty false).setTable k.table l1).flag res = (w.createPty false).flag res by cases res <;> rfl,
    flag_createPty]
  by_cases hm : res = .ptyMaster w.nextPty
  · subst hm
    simp
  by_cases hs : res = .ptySlave w.nextPty <;> simp [hs]

lemma Inv.openPts (hf : w.referred (.ptySlave id) = false)
    (hr : (installDescriptor (w.tables k.table) (transferable (.ptySlave id))).isSome = true) :
    (w.openPtsSlaveCurrent k id).Inv := by
  obtain ⟨⟨l,i⟩,hi⟩ := Option.isSome_iff_exists.1 hr
  obtain ⟨hput,he⟩ := installDescriptor_puts hi
  rw [openPtsSlaveCurrent]
  split_ifs with hl
  · have ho : w.flag (.ptySlave id) = false := by
      rw [Bool.eq_false_iff,ne_eq,h.flags _ rfl,← referred_iff,hf]
      nofun
    rw [install]
    rw [hi]
    refine h.first hk hlive hput he (fun _ => ho) rfl rfl rfl (fun res hre => ?_) (fun j => ?_) h.pipes
      (fun j hj => ?_)
    · cases res with
      | ptySlave j | ptyMaster j =>
        by_cases hj : j = id
        · subst hj
          simp
        · simp [hj]
      | pipeWrite j => rfl
      | pipeRead j | other => cases hre
    · by_cases hj : j = id
      · subst hj
        exact .inl (by simpa using hl)
      · simpa [hj] using h.listed j
    have hj' : w.nextPty ≤ j := hj
    have hn : j ≠ id := by
      rintro rfl
      rw [h.ptys j hj'] at hl
      cases hl
    simpa [hn] using h.ptys j hj'
  · exact h

lemma Inv.duplicate
    (hp : ∀ d, w.entry k.table fd = some d → d.resource.isPty = false) : (w.duplicateCurrent k fd).Inv := by
  rw [duplicateCurrent]
  split
  · exact h
  next d hd =>
  split_ifs
  · rw [install]
    split
    · exact h
    next l i hi =>
    obtain ⟨hput,hem⟩ := installDescriptor_puts hi
    exact h.put hk hlive hput (hp d hd) (fun e he => by rw [entry,hem] at he; cases he)
      (fun _ => ⟨k.table,fd,⟨k,hk,rfl⟩,d,hd,rfl⟩)
  · exact h

lemma Inv.duplicateTo {oldFd newFd : Nat} (hp : ∀ d, w.entry k.table oldFd = some d → d.resource.isPty = false)
    (ho : ∀ d, w.entry k.table newFd = some d → d.resource.flagged = false) :
    (w.duplicateToCurrent k oldFd newFd).Inv := by
  rw [duplicateToCurrent]
  by_cases hm : newFd ≥ maxDescriptors
  · rw [if_pos hm]
    exact h
  rw [if_neg hm]
  split
  · exact h
  next d hd =>
  split_ifs
  · exact h
  · exact h.put hk hlive (set_puts _ (Nat.lt_succ_self newFd) d) (hp d hd) ho
      (fun _ => ⟨k.table,oldFd,⟨k,hk,rfl⟩,d,hd,rfl⟩)

end

lemma place_spec {w : Files} {slot : Option Nat} (hf : w.SlotFree slot) (new : Holder) :
    ∃ tasks, w.place slot new = {w with tasks} ∧ (∀ x ∈ tasks, x = new ∨ x ∈ w.tasks) ∧
      ∀ x ∈ w.tasks, x.live = true → x ∈ tasks := by
  cases slot with
  | none =>
    refine ⟨w.tasks++[new],rfl,fun x hx => ?_,fun x hx _ => mem_append_left _ hx⟩
    obtain hx | hx := mem_append.1 hx
    · exact .inr hx
    · exact .inl (mem_singleton.1 hx)
  | some j =>
    rw [place]
    split_ifs with ho
    · refine ⟨w.tasks.set j new,rfl,fun x hx => (mem_or_eq_of_mem_set hx).symm,fun x hx hlive => ?_⟩
      obtain ⟨m,hm⟩ := mem_iff_getElem?.mp hx
      have hn : j ≠ m := by
        rintro rfl
        rw [hf j x rfl hm] at hlive
        cases hlive
      exact mem_of_getElem? (by rw [getElem?_set_ne hn]; exact hm)
    · exact ⟨w.tasks,rfl,fun x hx => .inr hx,fun x hx _ => hx⟩

lemma Inv.live_in (h : w.Inv) (hs : ∀ x ∈ w.tasks, x.live = true → x ∈ tasks) :
    ∀ t fd res, w.At t fd res → res.flagged = true → ∃ x ∈ tasks, x.live = true ∧ x.table = t := by
  intro t fd res ha hr
  obtain ⟨x,hx,hlive,ht⟩ := h.live t fd res ha hr
  exact ⟨x,hs x hx hlive,hlive,ht⟩

lemma Inv.placeCopy (h : w.Inv) (hk : k ∈ w.tasks) (hpt : w.NoPty k.table)
    (hsu : ∀ (fd : Nat) (d : FileDescriptor), l[fd]?.join = some d → ∃ fd', w.entry k.table fd' = some d)
    {slot : Option Nat} (hf : w.SlotFree slot) : (w.placeCopy slot l).Inv := by
  obtain ⟨tasks,hp,hm,hs⟩ :=
    place_spec (w := {w.setTable w.nextTable l with nextTable := w.nextTable+1}) hf ⟨w.nextTable,true,false⟩
  rw [Files.placeCopy,hp]
  refine h.newTable (fun x hx => ?_) (h.live_in hs) (fun fd d hd _ => ?_)
  · obtain rfl | hx := hm x hx
    · exact .inl ⟨rfl,rfl⟩
    · exact .inr ⟨x,hx,rfl⟩
  · obtain ⟨fd',hf'⟩ := hsu fd d hd
    exact ⟨hpt fd' d hf',k.table,fd',⟨k,hk,rfl⟩,d,hf',rfl⟩

lemma Inv.clone (h : w.Inv) (hk : k ∈ w.tasks) {cloneFiles : Bool} (hpt : cloneFiles = false → w.NoPty k.table)
    {slot : Option Nat} (hf : w.SlotFree slot) : (w.cloneTaskCurrent k cloneFiles slot).Inv := by
  rw [cloneTaskCurrent]
  cases cloneFiles with
  | true =>
    obtain ⟨tasks,hp,hm,hs⟩ := place_spec hf ⟨k.table,true,false⟩
    rw [hp]
    refine h.ofTasks (fun x hx => ?_) (h.live_in hs)
    obtain rfl | hx := hm x hx
    · exact ⟨k,hk,rfl⟩
    · exact ⟨x,hx,rfl⟩
  | false => exact h.placeCopy hk (hpt rfl) (fun fd d hd => ⟨fd,hd⟩) hf

lemma redirect_sub {specs : List (Nat × Option Nat)} (h : redirect l specs = some l')
    (hd : l'[fd]?.join = some d) : ∃ fd' : Nat, l[fd']?.join = some d := by
  induction specs generalizing l with
  | nil =>
    cases h
    exact ⟨fd,hd⟩
  | cons spec specs ih =>
    obtain ⟨target,source⟩ := spec
    cases source with
    | none => exact ih h
    | some source =>
      rw [redirect] at h
      split at h
      · cases h
      next e he =>
      obtain ⟨fd',hf'⟩ := ih h
      rw [set_puts l (Nat.lt_succ_self target) e] at hf'
      split_ifs at hf'
      · exact ⟨source,he.trans hf'⟩
      · exact ⟨fd',hf'⟩

section
variable (h : w.Inv)
include h

lemma Inv.spawn (hk : k ∈ w.tasks) (hp : w.NoPty k.table) (stdin stdout stderr : Option Nat)
    {slot : Option Nat} (hf : w.SlotFree slot) :
    (w.spawnWithStdioCurrent k stdin stdout stderr slot).Inv := by
  rw [spawnWithStdioCurrent]
  split
  · exact h
  · next l hl => exact h.placeCopy hk hp (fun fd d hd => redirect_sub hl hd) hf

lemma Inv.stays {leaving : List Nat} (hs : ∀ i ∈ leaving, ∀ k, w.caller i = some k → w.Spared leaving k.table)
    (ha : w.At t fd res) (hr : res.flagged = true) :
    ∃ j x, j ∉ leaving ∧ w.tasks[j]? = some x ∧ x.live = true ∧ x.table = t := by
  obtain ⟨x,hx,hlive,rfl⟩ := h.live t fd res ha hr
  obtain ⟨j,hj⟩ := mem_iff_getElem?.mp hx
  by_cases hm : j ∈ leaving
  · have hc : w.caller j = some x := by rw [caller,hj,Option.filter_some,if_pos hlive]
    obtain hn | hst := hs j hm x hc
    · obtain ⟨-,d,hd,rfl⟩ := ha
      rw [hn fd d hd] at hr
      cases hr
    · exact hst
  · exact ⟨j,x,hm,hj,hlive,rfl⟩

lemma Inv.exec (hc : w.caller i = some k) (hs : w.Spared [i] k.table) : (w.execCurrent i k).Inv := by
  obtain ⟨hg,hk,hlive⟩ := caller_spec hc
  refine h.newTable (fun x hx => ?_) (fun t fd res ha hr => ?_) (fun fd d hd hr => ?_)
  · obtain hx | rfl := mem_or_eq_of_mem_set hx
    · exact .inr ⟨x,hx,rfl⟩
    · exact .inl ⟨rfl,hlive⟩
  · have hl : ∀ m ∈ [i], ∀ k', w.caller m = some k' → w.Spared [i] k'.table := by
      intro m hm k' hk'
      obtain rfl := mem_singleton.1 hm
      cases hc.symm.trans hk'
      exact hs
    obtain ⟨j,x,hj,hx,hxl,ht⟩ := h.stays hl ha hr
    refine ⟨x,mem_of_getElem? (i := j) ?_,hxl,ht⟩
    rw [getElem?_set_ne (fun he => hj (by simp [he]))]
    exact hx
  · rw [standardDescriptors,getElem?_replicate] at hd
    split_ifs at hd
    · cases hd
      cases hr
    · cases hd

lemma Inv.endTasks {victims : List Nat}
    (hs : ∀ i ∈ victims, ∀ k, w.caller i = some k → w.Spared victims k.table) : (w.endTasks victims).Inv := by
  refine h.ofTasks (fun x hx => ?_) (fun t fd res ha hr => ?_)
  · obtain ⟨j,hj⟩ := mem_iff_getElem?.mp hx
    rw [getElem?_mapIdx] at hj
    obtain ⟨y,hy,rfl⟩ := Option.map_eq_some_iff.1 hj
    refine ⟨y,mem_of_getElem? hy,?_⟩
    split_ifs <;> rfl
  · obtain ⟨j,x,hj,hx,hlive,ht⟩ := h.stays hs ha hr
    refine ⟨x,mem_of_getElem? (i := j) ?_,hlive,ht⟩
    rw [getElem?_mapIdx,hx,Option.map_some,if_neg (fun h => hj h.1)]

/-- Only the marks of the tasks change. -/
lemma Inv.marks {f : Holder → Holder} (hf : ∀ x, (f x).table = x.table ∧ (f x).live = x.live) (j : Nat) :
    ({w with tasks := w.tasks.modify j f} : Files).Inv := by
  have hg : ∀ m, (w.tasks.modify j f)[m]? = w.tasks[m]?.map (fun x => if j = m then f x else x) := by
    intro m
    rw [getElem?_modify]
    split_ifs <;> rfl
  have hs : ∀ (m : Nat) (x : Holder), (if j = m then f x else x).table = x.table ∧ (if j = m then f x else x).live = x.live := by
    intro m x
    split_ifs
    · exact hf x
    · exact ⟨rfl,rfl⟩
  refine h.ofTasks (fun x hx => ?_) (fun t fd res ha hr => ?_)
  · obtain ⟨m,hm⟩ := mem_iff_getElem?.mp hx
    rw [hg] at hm
    obtain ⟨y,hy,rfl⟩ := Option.map_eq_some_iff.1 hm
    exact ⟨y,mem_of_getElem? hy,(hs m y).1.symm⟩
  · obtain ⟨x,hx,hlive,ht⟩ := h.live t fd res ha hr
    obtain ⟨m,hm⟩ := mem_iff_getElem?.mp hx
    exact ⟨_,mem_of_getElem? ((hg m).trans (by rw [hm]; rfl)),(hs m x).2.trans hlive,(hs m x).1.trans ht⟩

lemma Inv.closePipe (hk : k ∈ w.tasks) (he : w.entry k.table fd = some d) (hr : d.resource = .pipeWrite id) :
    ((w.setTable k.table ((w.tables k.table).set fd none)).closePipeWriter id).Inv := by
  have hput := take_puts (w.tables k.table) fd
  have ho : w.writerOpen id = true := (h.flags (.pipeWrite id) rfl).2 ⟨k.table,fd,⟨k,hk,rfl⟩,d,he,hr⟩
  rw [closePipeWriter]
  split_ifs with hre
  · refine h.take he (.of_puts hput rfl rfl) rfl (fun res _ _ => by cases res <;> rfl) (fun _ => ?_) h.listed h.pipes
      h.ptys
    rw [hr]
    exact ⟨fun _ => referred_iff.1 hre,fun _ => ho⟩
  refine h.take he (.of_puts hput rfl rfl) rfl (fun res hf hn => ?_) (fun _ => ?_) h.listed (fun j hj => ?_) h.ptys
  · cases res with
    | pipeWrite j =>
      have hj : j ≠ id := by
        rintro rfl
        exact hn hr.symm
      simp [hj]
    | ptyMaster j | ptySlave j => rfl
    | pipeRead j | other => cases hf
  · rw [hr]
    refine ⟨fun hs => ?_,fun ha => absurd (referred_iff.2 ha) hre⟩
    simp at hs
  · by_cases hi : j = id
    · subst hi
      simp
    · simpa [hi] using h.pipes j hj

lemma Inv.takePty (hk : k ∈ w.tasks) {p : PtyState} (he : w.entry k.table fd = some d) (hp : d.resource.isPty = true)
    (hfl : ∀ res, res.flagged = true → res ≠ d.resource →
      ({w with ptys := update w.ptys id p} : Files).flag res = w.flag res)
    (ho : ({w with ptys := update w.ptys id p} : Files).flag d.resource = false)
    (hl : p.listed = true ∨ p.masterOpen = false ∧ p.slaveOpen = false) (hi : id < w.nextPty) :
    ({w.setTable k.table ((w.tables k.table).set fd none) with ptys := update w.ptys id p} : Files).Inv := by
  have hc : Changed w ({w.setTable k.table ((w.tables k.table).set fd none) with
      ptys := update w.ptys id p} : Files) k.table fd none := .of_puts (take_puts _ fd) rfl rfl
  refine h.take he hc rfl (fun res hr hn => ?_) (fun _ => ?_) (fun j => ?_) h.pipes (fun j hj => ?_)
  · exact Eq.trans (by cases res <;> rfl) (hfl res hr hn)
  · have hf : ({w.setTable k.table ((w.tables k.table).set fd none) with
        ptys := update w.ptys id p} : Files).flag d.resource = false :=
      Eq.trans (by cases d.resource <;> rfl) ho
    rw [hf]
    refine ⟨nofun,?_⟩
    rintro ⟨t,fd',ha⟩
    by_cases hs : t = k.table ∧ fd' = fd
    · obtain ⟨rfl,rfl⟩ := hs
      exact absurd ha hc.not_at_slot
    · exact absurd (h.single t fd' k.table fd _ hp ((hc.at_other hs).1 ha) ⟨⟨k,hk,rfl⟩,d,he,rfl⟩) hs
  · by_cases hj : j = id
    · subst hj
      simpa using hl
    · simpa [hj] using h.listed j
  · have hj' : w.nextPty ≤ j := hj
    have hn : j ≠ id := by omega
    simpa [hn] using h.ptys j hj'

lemma Inv.lt_of_flag (ho : (w.ptys id).masterOpen = true ∨ (w.ptys id).slaveOpen = true) :
    id < w.nextPty ∧ (w.ptys id).listed = true := by
  constructor
  · by_contra hg
    rw [h.ptys id (by omega)] at ho
    simp at ho
  · obtain hl | ⟨hm,hs⟩ := h.listed id
    · exact hl
    · simp [hm,hs] at ho

lemma Inv.close (hk : k ∈ w.tasks) (fd : Nat) : (w.closeCurrent k fd).Inv := by
  rw [closeCurrent]
  split
  · exact h
  next d he =>
  split
  · next id hr => exact h.closePipe hk he hr
  · next id hr =>
    have ho : (w.ptys id).masterOpen = true := (h.flags (.ptyMaster id) rfl).2 ⟨k.table,fd,⟨k,hk,rfl⟩,d,he,hr⟩
    obtain ⟨hlt,hl⟩ := h.lt_of_flag (.inl ho)
    have hs : ((w.setTable k.table ((w.tables k.table).set fd none)).ptys id).listed = true := hl
    rw [closeMaster,if_pos hs]
    refine h.takePty hk he (by rw [hr]; rfl) (fun res _ hn => ?_) ?_ ?_ hlt
    · cases res with
      | ptyMaster j =>
        have hj : j ≠ id := by
          rintro rfl
          exact hn hr.symm
        simp [hj]
      | ptySlave j =>
        by_cases hj : j = id
        · subst hj
          simp
        · simp [hj]
      | pipeWrite j | pipeRead j | other => rfl
    · rw [hr]
      simp
    · cases (w.ptys id).slaveOpen <;> simp
  · next id hr =>
    have ho : (w.ptys id).slaveOpen = true := (h.flags (.ptySlave id) rfl).2 ⟨k.table,fd,⟨k,hk,rfl⟩,d,he,hr⟩
    obtain ⟨hlt,hl⟩ := h.lt_of_flag (.inr ho)
    have hs : ((w.setTable k.table ((w.tables k.table).set fd none)).ptys id).listed = true := hl
    rw [closeSlave,if_pos hs]
    refine h.takePty hk he (by rw [hr]; rfl) (fun res _ hn => ?_) ?_ ?_ hlt
    · cases res with
      | ptySlave j =>
        have hj : j ≠ id := by
          rintro rfl
          exact hn hr.symm
        simp [hj]
      | ptyMaster j =>
        by_cases hj : j = id
        · subst hj
          simp
        · simp [hj]
      | pipeWrite j | pipeRead j | other => rfl
    · rw [hr]
      simp
    · cases (w.ptys id).masterOpen <;> simp
  · next hnw hnm hns =>
    refine h.take he (.of_puts (take_puts _ fd) rfl rfl) rfl (fun res _ _ => by cases res <;> rfl) (fun hf => ?_)
      h.listed h.pipes h.ptys
    cases hr : d.resource with
    | pipeWrite id => exact absurd hr (hnw id)
    | ptyMaster id => exact absurd hr (hnm id)
    | ptySlave id => exact absurd hr (hns id)
    | pipeRead id | other => rw [hr] at hf; cases hf

lemma Inv.call {f : Holder → Files} (hf : ∀ k, w.caller i = some k → (f k).Inv) : ((w.caller i).elim w f).Inv := by
  cases hc : w.caller i with
  | none => exact h
  | some k => exact hf k hc

lemma Inv.step (op : Op) (hcl : w.Clean op) : (w.step op).Inv := by
  cases op with
  | pipe i => exact h.call (fun k hc => h.openPipe (caller_spec hc).2.1 (caller_spec hc).2.2 (hcl k hc))
  | pty i => exact h.call (fun k hc => h.openPty (caller_spec hc).2.1 (caller_spec hc).2.2 hcl.1 (hcl.2 k hc))
  | ptmx i =>
    refine h.call (fun k hc => ?_)
    obtain ⟨⟨l,j⟩,hi⟩ := Option.isSome_iff_exists.1 (hcl.2 k hc)
    obtain ⟨hput,he⟩ := installDescriptor_puts hi
    rw [openPtmxCurrent,install,show (w.createPty false).tables = w.tables from rfl,hi]
    exact h.openPtmx (caller_spec hc).2.1 (caller_spec hc).2.2 hcl.1 hput he
  | pts i id =>
    exact h.call (fun k hc => h.openPts (caller_spec hc).2.1 (caller_spec hc).2.2 hcl.1 (hcl.2 k hc))
  | dup i fd =>
    exact h.call (fun k hc => h.duplicate (caller_spec hc).2.1 (caller_spec hc).2.2 (fun d hd => hcl k d hc hd))
  | dup2 i oldFd newFd =>
    exact h.call (fun k hc => h.duplicateTo (caller_spec hc).2.1 (caller_spec hc).2.2 (hcl k hc).1 (hcl k hc).2)
  | clone i cloneFiles slot =>
    exact h.call (fun k hc => h.clone (caller_spec hc).2.1 (fun hf => hcl.2 hf k hc) hcl.1)
  | spawn i stdin stdout stderr slot =>
    exact h.call (fun k hc => h.spawn (caller_spec hc).2.1 (hcl.2 k hc) stdin stdout stderr hcl.1)
  | exec i => exact h.call (fun k hc => h.exec hc (hcl k hc))
  | close i fd => exact h.call (fun k hc => h.close (caller_spec hc).2.1 fd)
  | exit i marked =>
    have he : (w.endTasks [i]).Inv := by
      refine h.endTasks (fun j hj k hc => ?_)
      obtain rfl := mem_singleton.1 hj
      exact hcl k hc
    cases marked with
    | none => exact he
    | some current => exact he.marks (f := ({· with reaped := true})) (fun _ => ⟨rfl,rfl⟩) current
  | kill victims => exact h.endTasks hcl
  | wait j =>
    refine h.marks (fun x => ?_) j
    split_ifs <;> exact ⟨rfl,rfl⟩

end
end

def CleanRun : Files → List Op → Prop
  | _, [] => True
  | w, op::ops => w.Clean op ∧ CleanRun (w.step op) ops

lemma Inv.run {w : Files} (h : w.Inv) {ops : List Op} (hc : CleanRun w ops) : (w.run ops).Inv := by
  induction ops generalizing w with
  | nil => exact h
  | cons op ops ih => exact ih (h.step op hc.1) hc.2

lemma boot_inv : boot.Inv := by
  have hn : ∀ t fd res, res.flagged = true → ¬boot.At t fd res := by
    rintro t fd res hr ⟨⟨k,hk,rfl⟩,d,hd,rfl⟩
    obtain rfl := mem_singleton.1 hk
    have hg : standardDescriptors[fd]?.join = some d := hd
    rw [standardDescriptors,getElem?_replicate] at hg
    split_ifs at hg
    · cases hg
      cases hr
    · cases hg
  refine ⟨fun res hr => ?_,fun t fd res ha hr => absurd ha (hn t fd res hr),
    fun t fd t' fd' res hr ha _ => absurd ha (hn t fd res (flagged_of_isPty hr)),fun _ => .inr ⟨rfl,rfl⟩,
    fun k hk => ?_,fun _ _ => rfl,fun _ _ => rfl⟩
  · have ho : boot.flag res = false := by cases res <;> rfl
    rw [ho]
    exact ⟨nofun,fun ⟨t,fd,ha⟩ => absurd ha (hn t fd res hr)⟩
  · obtain rfl := mem_singleton.1 hk
    exact Nat.zero_lt_one

/-- After every run of clean steps a side is reported as closed exactly if no living task holds a descriptor for it. -/
theorem closed_exactly_when_unheld (ops : List Op) (hclean : CleanRun boot ops) (res : DescriptorResource)
    (hres : res.flagged = true) : (boot.run ops).flag res = (boot.run ops).held res :=
  (boot_inv.run hclean).flag_eq_held hres

/-- A child is made, its write end closed and the child ends while the parent waits elsewhere; the next child takes its
slot. -/
def familyOps : List Op :=
  [.pipe 0,.dup 0 4,.close 0 4,.clone 0 false none,.close 1 5,.exit 1 (some 1),.clone 0 true (some 1),.close 1 5]

lemma entry_all {w : Files} {t fd : Nat} {d : FileDescriptor} {p : FileDescriptor → Bool}
    (h : (w.tables t).all (·.all p) = true) (he : w.entry t fd = some d) : p d = true := by
  have hm := mem_of_getElem? (Option.join_eq_some_iff.1 he)
  simpa using all_eq_true.1 h _ hm

theorem closed_exactly_when_unheld_here :
    (boot.run familyOps).flag (.pipeWrite 0) = (boot.run familyOps).held (.pipeWrite 0) := by
  refine closed_exactly_when_unheld familyOps ⟨fun k hk => ?_,fun k d hk hd => ?_,trivial,⟨nofun,fun _ k hk => ?_⟩,trivial,
    fun k hk => .inl (fun fd d hd => ?_),⟨fun j k hj hk => ?_,nofun⟩,trivial,trivial⟩ _ rfl
  · obtain rfl : (⟨0,true,false⟩ : Holder) = k := Option.some.inj hk
    rfl
  · obtain rfl : (⟨0,true,false⟩ : Holder) = k := Option.some.inj hk
    obtain rfl : transferable (.pipeWrite 0) = d := Option.some.inj hd
    rfl
  · obtain rfl : (⟨0,true,false⟩ : Holder) = k := Option.some.inj hk
    intro fd d hd
    simpa using entry_all (p := fun d => !d.resource.isPty) (by decide +kernel) hd
  · obtain rfl : (⟨1,true,false⟩ : Holder) = k := Option.some.inj hk
    simpa using entry_all (p := fun d => !d.resource.flagged) (by decide +kernel) hd
  · obtain rfl := Option.some.inj hj
    obtain rfl : (⟨1,false,true⟩ : Holder) = k := Option.some.inj hk
    rfl

/-- The zombie of a child keeps a reference, `dup2` drops one without closing, and one close of two ends a pair's side. -/
theorem closed_flag_wrong : ((boot.run [.pipe 0,.clone 0 false none,.exit 1 none,.close 0 4]).flag (.pipeWrite 0) = true ∧
      (boot.run [.pipe 0,.clone 0 false none,.exit 1 none,.close 0 4]).held (.pipeWrite 0) = false) ∧
    ((boot.run [.pipe 0,.dup2 0 0 4]).flag (.pipeWrite 0) = true ∧
      (boot.run [.pipe 0,.dup2 0 0 4]).held (.pipeWrite 0) = false) ∧
    (boot.run [.pty 0,.dup 0 4,.close 0 4]).flag (.ptySlave 0) = false ∧
      (boot.run [.pty 0,.dup 0 4,.close 0 4]).held (.ptySlave 0) = true := by
  decide +kernel

end Vanta.Sched.Files
