import Mathlib.Logic.Function.Basic

namespace Vanta.Sched.Privilege
open Function

structure Credentials where
  uid : BitVec 32
  gid : BitVec 32

def Credentials.vanta : Credentials := ⟨1000,1000⟩

def Credentials.isRoot (c : Credentials) : Bool := c.uid == 0

/-- A task as far as its credentials go. `lowly` marks a task that was not root at some time, its descendants, and the
programs that root spawns. -/
structure Task where
  credentials : Credentials
  lowly : Bool

/-- `other` stands for the calls that write no credentials, `exec` among them, and a `spawn` or `clone` without a free slot. -/
inductive Call where
  | setuid (arg : BitVec 64)
  | setgid (arg : BitVec 64)
  | spawn
  | clone
  | exit
  | other

/-- The caller after the call, and the task that the call creates. -/
def Task.call (t : Task) : Call → Option Task × Option Task
  | .setuid arg =>
    let c := {t.credentials with uid := arg.setWidth 32}
    (some ⟨c,t.lowly || !c.isRoot⟩,none)
  | .setgid arg => (some {t with credentials.gid := arg.setWidth 32},none)
  | .spawn => (some t,some ⟨if t.credentials.isRoot then .vanta else t.credentials,true⟩)
  | .clone => (some t,some t)
  | .exit => (none,none)
  | .other => (some t,none)

structure Tasks where
  table : Nat → Option Task
  nextPid : Nat

def Tasks.step (s : Tasks) (call : Nat × Call) : Tasks :=
  match s.table call.1 with
  | none => s
  | some t =>
    let table := update s.table call.1 (t.call call.2).1
    match (t.call call.2).2 with
    | none => {s with table := table}
    | some new => ⟨update table s.nextPid (some new),s.nextPid+1⟩

def Task.Kept (t : Task) : Prop := t.lowly = true → t.credentials.isRoot = false

lemma Task.Kept.call {t u : Task} (h : t.Kept) {c : Call} (hc : ∀ arg, c = .setuid arg → arg.setWidth 32 ≠ 0#32)
    (hu : (t.call c).1 = some u ∨ (t.call c).2 = some u) : u.Kept := by
  cases c with
  | setuid arg =>
    have hn := hc arg rfl
    obtain rfl : _ = u := by simpa [Task.call] using hu
    simp [Kept,Credentials.isRoot,hn]
  | setgid arg =>
    obtain rfl : _ = u := by simpa [Task.call] using hu
    exact h
  | spawn =>
    rcases hu with hu | hu <;> cases hu
    · exact h
    intro _
    cases hr : t.credentials.isRoot with
    | true => rfl
    | false => simpa using hr
  | clone => rcases hu with hu | hu <;> cases hu <;> exact h
  | exit => simp [Task.call] at hu
  | other =>
    obtain rfl : t = u := by simpa [Task.call] using hu
    exact h

lemma Tasks.step_table {s : Tasks} {call : Nat × Call} {pid : Nat} {t : Task} (h : (s.step call).table pid = some t) :
    s.table pid = some t ∨ ∃ u, s.table call.1 = some u ∧ ((u.call call.2).1 = some t ∨ (u.call call.2).2 = some t) := by
  cases hu : s.table call.1 with
  | none => exact .inl (by simpa [step,hu] using h)
  | some u =>
    cases hn : (u.call call.2).2 <;> simp only [step,hu,hn,update_apply] at h <;> grind

/-- As long as nobody asks for user number 0, no task that was not root becomes root, nor do its descendants. -/
theorem no_privilege_gain (s : Tasks) (calls : List (Nat × Call))
    (hs : ∀ pid t, s.table pid = some t → t.lowly = !t.credentials.isRoot)
    (hcalls : ∀ pid arg, (pid,.setuid arg) ∈ calls → arg.setWidth 32 ≠ 0#32) :
    (∀ pid t, (calls.foldl Tasks.step s).table pid = some t → t.lowly = true → t.credentials.isRoot = false) ∧
      ∀ t u : Task, t.credentials.isRoot = true → (t.call .spawn).2 = some u → u.credentials = .vanta ∧ u.lowly = true := by
  refine ⟨List.foldlRecOn calls Tasks.step (motive := fun s => ∀ pid t, s.table pid = some t → t.Kept)
    (fun pid t ht hl => ?_) (fun s hs call hc pid t ht => ?_),fun t u hr hu => ?_⟩
  · simpa [hs pid t ht] using hl
  · rcases Tasks.step_table ht with ht | ⟨u,hu,ht⟩
    · exact hs pid t ht
    · exact (hs call.1 u hu).call (fun arg ha => hcalls call.1 arg (ha ▸ hc)) ht
  · cases hu
    simp [hr]

theorem no_privilege_gain_of_spawn :
    let start : Tasks := ⟨update (fun _ => none) 1 (some ⟨⟨0,0⟩,false⟩),2⟩
    ∃ t, ([(1,.spawn),(2,.setuid 5)].foldl Tasks.step start).table 2 = some t ∧ t.credentials.isRoot = false := by
  refine ⟨_,rfl,(no_privilege_gain ⟨update (fun _ => none) 1 (some ⟨⟨0,0⟩,false⟩),2⟩ [(1,.spawn),(2,.setuid 5)]
    (fun pid t ht => ?_) (by rintro _ arg h; simp at h; simp [h.2])).1 2 _ rfl rfl⟩
  by_cases hp : pid = 1
  · obtain rfl : _ = t := by simpa [hp] using ht
    rfl
  · simp [hp] at ht

theorem setuid_gains_root :
    (Tasks.step ⟨fun _ => some ⟨.vanta,true⟩,2⟩ (1,.setuid 0)).table 1 = some ⟨⟨0,1000⟩,true⟩ := by
  rfl

end Vanta.Sched.Privilege
