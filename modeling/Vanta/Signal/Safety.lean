import Vanta.Signal.Transparent

namespace Vanta.Signal
open Library

def privilegedFlags : Word := 0x1A7000

/-- Nothing of the kernel in the flags, and interrupts on. -/
def UserContext.Unprivileged (c : UserContext) : Prop := c.flags &&& privilegedFlags = 0 ∧ c.flags.getLsbD 9 = true

/-- A context that gives the thread nothing of the kernel. -/
structure UserContext.Safe (c : UserContext) : Prop where
  ip : c.instructionPointer.toNat < userAddressLimit
  sp : c.stackPointer.toNat < userAddressLimit
  unprivileged : c.Unprivileged

namespace Thread
variable (t : Thread) (d : Delivery)

/-- The signal's handler is entered. -/
def EntersHandler (signo : Nat) : Prop :=
  1 < (t.signalActions signo).saHandler.toNat ∧ t.FrameFits (t.signalActions signo) (t.interrupted d).stackPointer

/-- The signal ends the process by default, which only the system call path does. -/
def EndsProcess (signo : Nat) : Prop :=
  (∃ result, d = .afterSyscall result) ∧ (t.signalActions signo).saHandler = 0 ∧ Terminates signo

/-- The handler that is entered lies in the user half; without one the interrupted context is safe itself. -/
structure Checked (t : Thread) (d : Delivery) : Prop where
  entered : ∀ signo, t.nextSignal = some signo → t.EntersHandler d signo →
    (t.signalActions signo).saHandler.toNat < userAddressLimit ∧ (t.interrupted d).Unprivileged
  passed : (∀ signo, t.nextSignal = some signo → ¬t.EntersHandler d signo ∧ ¬t.EndsProcess d signo) →
    (t.interrupted d).Safe

def PathChecked : ReturnPath → Prop
  | .sigreturn =>
    match t.savedUContext with
    | some uc => Goes (.afterSyscall uc.ucMcontext.rax) → (t.resumed uc).Checked (.afterSyscall uc.ucMcontext.rax)
    | none => t.Checked (.afterSyscall syscallError)
  | .syscall result => Goes (.afterSyscall result) → t.Checked (.afterSyscall result)
  | .scheduled context => t.Checked (.onReturn context)

variable {t d} {signo : Nat}

lemma goes_of_entered (hd : Goes d) (hn : t.nextSignal = some signo) (h : t.EntersHandler d signo) :
    (∀ context, (t.goes d).2 = some context → context.Safe) ↔
      (t.signalActions signo).saHandler.toNat < userAddressLimit ∧ (t.interrupted d).Unprivileged := by
  obtain ⟨c,hc,hi,hs,-,hf,-⟩ := (goes_of_handled hd hn h.1 h.2).context
  have hsp : c.stackPointer.toNat < userAddressLimit := by
    rw [hs,saved_rsp]
    exact (h.2 0 (by decide)).1
  simp only [hc,Option.some.injEq,forall_eq']
  refine ⟨fun hsa => ⟨hi ▸ hsa.ip,?_⟩,fun ⟨hip,hu⟩ => ⟨by rw [hi]; exact hip,hsp,?_⟩⟩
  · have := hsa.unprivileged
    rwa [UserContext.Unprivileged,hf] at this
  · rwa [UserContext.Unprivileged,hf]

lemma goes_of_not_entered (hd : Goes d)
    (h : ∀ signo, t.nextSignal = some signo → ¬t.EntersHandler d signo ∧ ¬t.EndsProcess d signo) :
    (t.goes d).2 = some (t.interrupted d) := by
  cases hn : t.nextSignal with
  | none => exact (goes_of_none hd hn).context
  | some signo =>
    obtain ⟨he,hp⟩ := h signo hn
    by_cases hh : 1 < (t.signalActions signo).saHandler.toNat
    · exact (goes_of_unfit hd hn hh fun hf => he ⟨hh,hf⟩).context
    · exact (goes_of_passed hd hn hh fun result hr ht => hp ⟨⟨result,hr⟩,ht⟩).context

lemma goes_safe_iff (hd : Goes d) : (∀ context, (t.goes d).2 = some context → context.Safe) ↔ t.Checked d := by
  constructor
  · refine fun h => ⟨fun signo hn he => (goes_of_entered hd hn he).1 h,fun hp => h _ (goes_of_not_entered hd hp)⟩
  · intro h
    by_cases hp : ∀ signo, t.nextSignal = some signo → ¬t.EntersHandler d signo ∧ ¬t.EndsProcess d signo
    · rw [goes_of_not_entered hd hp]
      simpa using h.passed hp
    simp only [not_forall] at hp
    obtain ⟨signo,hn,hp⟩ := hp
    by_cases he : t.EntersHandler d signo
    · exact (goes_of_entered hd hn he).2 (h.entered signo hn he)
    · obtain ⟨⟨result,rfl⟩,h0,ht⟩ := Classical.not_not.1 (not_and.1 hp he)
      rw [(goes_of_terminates hd hn h0 ht).2.2]
      simp

lemma syscall_safe_iff (result : Word) : (∀ context, (t.goes (.afterSyscall result)).2 = some context → context.Safe) ↔
    (Goes (.afterSyscall result) → t.Checked (.afterSyscall result)) := by
  by_cases hr : result ∈ returnCodes
  · have hn : (t.goes (.afterSyscall result)).2 = none := by
      simp only [goes,returns,finishSyscall,if_pos hr,leaveSyscall]
    rw [hn]
    exact ⟨fun _ h => absurd hr h,by simp⟩
  · have hd : Goes (.afterSyscall result) := hr
    rw [goes_safe_iff hd]
    exact ⟨fun h _ => h,fun h => h hd⟩

end Thread

def forgedByte (i : Nat) : UInt8 :=
  if i = 0x10000+8*21+5 then 0x80
  else if i = 0x10000+8*21+6 ∨ i = 0x10000+8*21+7 then 0xff
  else if i = 0x10000+8*22+1 then 0x30
  else 0

def threadWithHandler : Thread :=
  {threadAt (fun _ => 0) with
    pendingSignals := 1#64 <<< 9
    signalActions := fun _ => ⟨0xffff800000000000,0,0,0⟩}

end Vanta.Signal
