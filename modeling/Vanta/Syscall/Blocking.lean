import Vanta.Io.Read
import Vanta.Syscall.Vector

/-! Reads that would block, up to the context in which the task waits. A call runs alone. -/

namespace Vanta.Syscall
open Library
open Io (Rights Source Poll readCurrent readWouldBlock ptyRead)
open Signal (Word UserContext)
open Signal.Thread (syscallError)

/-- The descriptors with their objects and the handles of sockets; `halted` after an index out of range. -/
structure Held where
  task : Io.Task
  opened : Nat → Option (Rights × Source)
  number : Nat → Nat
  halted : Bool

namespace Held

def read (poll : Poll) (h : Held) (descriptor length : Nat) : Held × Option (List UInt8) :=
  match h.opened descriptor with
  | none => (h,none)
  | some (rights,source) =>
    match readCurrent poll h.task rights source length with
    | ((task,source),reply) =>
      let h := {h with task, opened := Function.update h.opened descriptor (some (rights,source))}
      match reply with
      | .ok bytes => (h,some bytes)
      | .err => (h,none)
      | .panic => ({h with halted := true},none)

def wouldBlock (h : Held) (descriptor : Nat) : Bool :=
  match h.opened descriptor with
  | none => false
  | some (_,source) => readWouldBlock h.task source

def pipeWaitKey (h : Held) (descriptor : Nat) : Option Nat :=
  match h.opened descriptor with
  | some (_,.pipeRead pipe) => some pipe.id
  | some (_,.ipc _ state) => some state.id
  | some (_,.socket _) => some (0x50000000 ||| h.number descriptor)
  | some (_,.afUnix _) => some (h.number descriptor)
  | _ => none

def devices (poll : Poll) (D : Devices Held) : Devices Held := {D with read := read poll, wouldBlock := wouldBlock}

end Held

/-- Where the task is after a call. -/
inductive After where
  | user (context : UserContext)
  | suspended (key : Nat) (context : UserContext)
  | halted

/-- The context in which the task makes the same call again: at the two bytes of `syscall`, with its registers. -/
def rewound (context : UserContext) : UserContext :=
  {context with instructionPointer := context.instructionPointer-2}

/-- The entry code after the handler, with `block_pipe_current`. The slot of the result still holds the number of the
call when the task cannot wait. -/
def leave (h : Held) (descriptor : Nat) (context : UserContext) (result : Word) : After :=
  if h.halted then .halted
  else if result = syscallReturnBlock then
    match h.pipeWaitKey descriptor with
    | none => .user context
    | some key => .suspended key (rewound context)
  else .user {context with returnValue := result}

inductive ReadCall where
  | read
  | readv

namespace ReadCall
variable (D : Devices Held)

def handle (c : Caller Held) (context : UserContext) : ReadCall → Caller Held × Word
  | .read => readUser D context.rdi.toNat c context.rsi.toNat context.rdx.toNat
  | .readv => linuxReadvUser D context.rdi.toNat c context.rsi.toNat context.rdx.toNat

def run (c : Caller Held) (context : UserContext) (call : ReadCall) : Caller Held × After :=
  let (c,result) := call.handle D c context
  (c,leave c.dev context.rdi.toNat context result)

/-- What the elements of a readv amount to. -/
def elements (c : Caller Held) (context : UserContext) : Tally :=
  tally (readUser D context.rdi.toNat) true context.rsi.toNat context.rdx.toNat 0 c 0 0 0

/-- The readv finds no read that would block, or a single one and no byte; what it adds up otherwise is the error or
zero only by chance. -/
def Answers (c : Caller Held) (context : UserContext) : ReadCall → Prop
  | .read => True
  | .readv => context.rdx.toNat ≤ 16 →
    let t := elements D c context
    t.unreadable = true ∨ t.debt = 0 ∨ t.debt = 50006 ∧ t.moved = 0 ∧ t.lost = 0 ∨ t.moved = t.debt ∨
      t.moved+2 = t.debt

def FindsBlock (c : Caller Held) (context : UserContext) : ReadCall → Prop
  | .read => readBlocks D context.rdi.toNat c context.rsi.toNat context.rdx.toNat = true
  | .readv => context.rdx.toNat ≤ 16 ∧ (elements D c context).debt ≠ 0

end ReadCall

/-- `n` bytes in all were copied to the user. -/
inductive Copied : Signal.UserMemory → Signal.UserMemory → Nat → Prop where
  | none (m : Signal.UserMemory) : Copied m m 0
  | more {m m₁ m₂ : Signal.UserMemory} {n pointer : Nat} {bytes : List UInt8} (before : Copied m m₁ n)
      (copy : m₁.copyToUser pointer bytes = (m₂,true)) : Copied m m₂ (n+bytes.length)

/-- Waiting to make the same call again, with nothing taken; or back in user mode with an error, or with the number of
bytes that were copied. -/
def Settled (c c' : Caller Held) (context : UserContext) : After → Prop
  | .halted => False
  | .suspended _ saved => saved = rewound context ∧ c'.moved = c.moved
  | .user back => IsStatus back.returnValue ∨ ∃ m, Copied c.mem m back.returnValue.toNat

/-- The task waits to make the same call again, or it is told that it got nothing. -/
def Waits (context : UserContext) (after : After) : Prop :=
  (∃ key, after = .suspended key (rewound context)) ∨
    ∃ back, after = .user back ∧ (back.returnValue = syscallError ∨ back.returnValue = 0)

section
variable {poll : Poll} {c : Caller Held} {h h' : Held} {descriptor length pointer : Nat}

lemma waits_of_blocks {task task' : Io.Task} {rights : Rights} {source source' : Source}
    (hrea : readCurrent poll task rights source length = ((task',source'),.ok []))
    (hbl : readWouldBlock task' source' = true) :
    (∃ pipe, source' = .pipeRead pipe) ∨ (∃ socket, source' = .socket socket) ∨ ∃ socket, source' = .afUnix socket := by
  have hp {buffer left : List UInt8} {peerOpen : Bool} (h : ptyRead buffer peerOpen length = (left,.ok []))
      (he : left = []) : peerOpen = false := by
    rw [ptyRead] at h
    split_ifs at h with hb ho
    · cases h
    · simpa using ho
    obtain ⟨rfl,ht⟩ := Prod.mk.inj h
    have hn : buffer = [] := by
      rw [← List.take_append_drop length buffer,he,Io.Reply.ok.inj ht]
      rfl
    exact absurd hn hb
  cases hr : rights.contains Rights.read with
  | false => simp [readCurrent,hr] at hrea
  | true =>
    cases source with
    | pipeRead pipe =>
      simp only [readCurrent,hr,if_true,Prod.mk.injEq] at hrea
      exact .inl ⟨_,hrea.1.2.symm⟩
    | socket socket =>
      simp only [readCurrent,hr,if_true] at hrea
      refine .inr (.inl ?_)
      split at hrea
      all_goals
        simp only [Prod.mk.injEq] at hrea
        exact ⟨_,hrea.1.2.symm⟩
    | afUnix socket =>
      simp only [readCurrent,hr,if_true] at hrea
      refine .inr (.inr ?_)
      split at hrea
      all_goals
        simp only [Prod.mk.injEq] at hrea
        exact ⟨_,hrea.1.2.symm⟩
    | ptyMaster pty | ptySlave pty =>
      simp only [readCurrent,hr,if_true,Prod.mk.injEq] at hrea
      obtain ⟨⟨-,rfl⟩,hre⟩ := hrea
      simp only [readWouldBlock,Bool.and_eq_true,decide_eq_true_eq] at hbl
      have hc := hp (Prod.ext rfl hre) hbl.1
      simp [hc] at hbl
    | signalFd mask =>
      simp only [readCurrent,hr,if_true] at hrea
      split at hrea
      all_goals
        simp only [Prod.mk.injEq] at hrea
        obtain ⟨⟨-,rfl⟩,-⟩ := hrea
        simp [readWouldBlock] at hbl
    | eventFd counter semaphore =>
      simp only [readCurrent,hr,if_true] at hrea
      split_ifs at hrea
      all_goals
        simp only [Prod.mk.injEq] at hrea
        obtain ⟨⟨-,rfl⟩,-⟩ := hrea
        simp [readWouldBlock] at hbl
    | file _ | directory _ | tty _ =>
      simp only [readCurrent,hr,if_true,Prod.mk.injEq] at hrea
      obtain ⟨⟨-,rfl⟩,-⟩ := hrea
      simp [readWouldBlock] at hbl
    | serial | pipeWrite _ | ipc _ _ | epoll => simp [readCurrent,hr] at hrea

lemma Held.read_ok {bytes : List UInt8} (hr : h.read poll descriptor length = (h',some bytes)) :
    ∃ rights source task' source', readCurrent poll h.task rights source length = ((task',source'),.ok bytes) ∧
      h' = {h with task := task', opened := Function.update h.opened descriptor (some (rights,source'))} := by
  rw [Held.read] at hr
  cases ho : h.opened descriptor with
  | none => simp [ho] at hr
  | some held =>
    obtain ⟨rights,source⟩ := held
    rw [ho] at hr
    rcases hc : readCurrent poll h.task rights source length with ⟨rest,reply⟩
    obtain ⟨task',source'⟩ := rest
    cases reply with
    | err | panic => simp [hc] at hr
    | ok bytes' =>
      simp only [hc] at hr
      cases hr
      exact ⟨rights,source,task',source',hc,rfl⟩

lemma Held.waits (hr : h.read poll descriptor length = (h',some [])) (hb : h'.wouldBlock descriptor = true) :
    ∃ key, h'.pipeWaitKey descriptor = some key := by
  obtain ⟨rights,source,task',source',hc,rfl⟩ := Held.read_ok hr
  have hb' : readWouldBlock task' source' = true := by simpa [Held.wouldBlock] using hb
  obtain ⟨pipe,rfl⟩ | ⟨socket,rfl⟩ | ⟨socket,rfl⟩ := waits_of_blocks hc hb'
  · exact ⟨pipe.id,by simp [Held.pipeWaitKey]⟩
  · exact ⟨0x50000000 ||| h.number descriptor,by simp [Held.pipeWaitKey]⟩
  · exact ⟨h.number descriptor,by simp [Held.pipeWaitKey]⟩

/-- A read does not change what kind of descriptor a task could wait for. -/
lemma Held.read_waits (poll : Poll) (length : Nat) (hk : ∃ key, h.pipeWaitKey descriptor = some key) :
    ∃ key, (h.read poll descriptor length).1.pipeWaitKey descriptor = some key := by
  rw [Held.read]
  cases ho : h.opened descriptor with
  | none => exact hk
  | some held =>
    obtain ⟨rights,source⟩ := held
    rcases hc : readCurrent poll h.task rights source length with ⟨⟨task,source'⟩,reply⟩
    simp only [hc]
    suffices hw : ∃ key, ({h with task, opened := Function.update h.opened descriptor (some (rights,source'))} :
        Held).pipeWaitKey descriptor = some key by cases reply <;> exact hw
    have hkind := congrArg (fun r => r.1.2) hc
    dsimp only at hkind
    simp only [Held.pipeWaitKey,ho] at hk
    cases source with
    | pipeRead pipe =>
      obtain ⟨pipe',rfl⟩ : ∃ pipe', source' = .pipeRead pipe' := by
        rw [← hkind,readCurrent]
        split_ifs <;> exact ⟨_,rfl⟩
      exact ⟨pipe'.id,by simp [Held.pipeWaitKey]⟩
    | ipc a state =>
      obtain ⟨a',state',rfl⟩ : ∃ a' state', source' = .ipc a' state' := by
        rw [← hkind,readCurrent]
        split_ifs <;> exact ⟨_,_,rfl⟩
      exact ⟨state'.id,by simp [Held.pipeWaitKey]⟩
    | socket socket =>
      obtain ⟨socket',rfl⟩ : ∃ socket', source' = .socket socket' := by
        rw [← hkind,readCurrent]
        split_ifs
        · split <;> exact ⟨_,rfl⟩
        · exact ⟨_,rfl⟩
      exact ⟨0x50000000 ||| h.number descriptor,by simp [Held.pipeWaitKey]⟩
    | afUnix socket =>
      obtain ⟨socket',rfl⟩ : ∃ socket', source' = .afUnix socket' := by
        rw [← hkind,readCurrent]
        split_ifs
        · split <;> exact ⟨_,rfl⟩
        · exact ⟨_,rfl⟩
      exact ⟨h.number descriptor,by simp [Held.pipeWaitKey]⟩
    | file _ | directory _ | tty _ | ptyMaster _ | ptySlave _ | signalFd _ | eventFd _ _ | serial | pipeWrite _
    | epoll =>
      obtain ⟨key,hk⟩ := hk
      cases hk

/-- What a single read does: it fails, or it would block and the task can wait, or its bytes are copied. -/
lemma readUser_cases (poll : Poll) (D : Devices Held) (descriptor : Nat) (c : Caller Held) (pointer length : Nat) :
    let r := readUser (Held.devices poll D) descriptor c pointer length
    (r.2 = syscallError ∧ readBlocks (Held.devices poll D) descriptor c pointer length = false ∨
      (r.2 = syscallReturnBlock ∧ length ≤ Signal.userAddressLimit ∧ r.1.mem = c.mem ∧ r.1.moved = c.moved ∧
        ∃ key, r.1.dev.pipeWaitKey descriptor = some key) ∨
      (readBlocks (Held.devices poll D) descriptor c pointer length = false ∧
        ∃ bytes, c.mem.copyToUser pointer bytes = (r.1.mem,true) ∧ r.2 = BitVec.ofNat 64 bytes.length ∧
          r.1.moved = c.moved+bytes.length)) ∧
    ((∃ key, c.dev.pipeWaitKey descriptor = some key) → ∃ key, r.1.dev.pipeWaitKey descriptor = some key) := by
  rw [readUser,readBlocks]
  cases hv : validateUserBuffer c.mem pointer length true with
  | false => exact ⟨.inl ⟨rfl,rfl⟩,fun h => h⟩
  | true =>
    rw [if_neg (Bool.noConfusion : ¬true = false),Bool.true_and]
    have hd : (Held.devices poll D).read c.dev descriptor (min length 65536) =
        c.dev.read poll descriptor (min length 65536) := rfl
    have hkeep : (∃ key, c.dev.pipeWaitKey descriptor = some key) → _ := Held.read_waits poll (min length 65536)
    rw [hd]
    rcases hr : c.dev.read poll descriptor (min length 65536) with ⟨dev,answer⟩
    rw [hr] at hkeep
    cases answer with
    | none => exact ⟨.inl ⟨rfl,rfl⟩,hkeep⟩
    | some bytes =>
      dsimp only
      by_cases hb : (bytes.isEmpty && (Held.devices poll D).wouldBlock dev descriptor) = true
      · rw [if_pos hb]
        obtain ⟨hem,hw⟩ := Bool.and_eq_true_iff.1 hb
        obtain rfl := List.isEmpty_iff.1 hem
        exact ⟨.inr (.inl ⟨rfl,validateUserBuffer_length hv,rfl,rfl,Held.waits hr hw⟩),hkeep⟩
      · rw [if_neg hb]
        rcases hco : c.mem.copyToUser pointer bytes with ⟨mem,_ | _⟩
        · exact ⟨.inl ⟨rfl,by simpa using hb⟩,hkeep⟩
        · exact ⟨.inr (.inr ⟨by simpa using hb,bytes,hco,rfl,rfl⟩),hkeep⟩

lemma count_not_status {mem mem' : Signal.UserMemory} {bytes : List UInt8} (hc : mem.copyToUser pointer bytes = (mem',true)) :
    ¬IsStatus (BitVec.ofNat 64 bytes.length) ∧ (BitVec.ofNat 64 bytes.length).toNat = bytes.length := by
  have hl := copyToUser_length hc
  refine ⟨fun hs => ?_,toNat_ofNat_of_le hl⟩
  obtain ⟨code,hm,he⟩ := (isStatus_iff _).1 hs
  have := statusCode_le hm
  rw [toNat_ofNat_of_le hl] at he
  simp only [Signal.userAddressLimit] at hl
  omega

/-- Along the loop: the bytes that are counted are copied, and after a read that would block the task can wait. -/
lemma vectorLoop_held (poll : Poll) (D : Devices Held) {iovPointer n index moved asked debt : Nat} {c0 : Caller Held}
    (total : Word) (hco : Copied c0.mem c.mem moved)
    (hw : debt ≠ 0 → ∃ key, c.dev.pipeWaitKey descriptor = some key) :
    let t := tally (readUser (Held.devices poll D) descriptor) true iovPointer n index c moved asked debt
    let r := vectorLoop (readUser (Held.devices poll D) descriptor) true iovPointer n index c total
    (∃ m, Copied c0.mem m t.moved) ∧ (t.debt ≠ 0 → ∃ key, r.1.dev.pipeWaitKey descriptor = some key) := by
  induction n generalizing index c moved asked debt total with
  | zero => exact ⟨⟨c.mem,hco⟩,hw⟩
  | succ n ih =>
    rw [vectorLoop,tally]
    cases he : c.mem.copyFromUser ((iovPointer+index*16)%2^64) 16 with
    | none => exact ⟨⟨c.mem,hco⟩,hw⟩
    | some entry =>
      dsimp only
      by_cases hl : (wordAt entry 1).toNat = 0
      · rw [if_pos hl,if_pos hl]
        exact ih total hco hw
      rw [if_neg hl,if_neg hl]
      obtain ⟨hs,hkeep⟩ := readUser_cases poll D descriptor {c with asked := c.asked+(wordAt entry 1).toNat}
        (wordAt entry 0).toNat (wordAt entry 1).toNat
      generalize readUser (Held.devices poll D) descriptor {c with asked := c.asked+(wordAt entry 1).toNat}
        (wordAt entry 0).toNat (wordAt entry 1).toNat = call at hs hkeep
      obtain ⟨c',count⟩ := call
      dsimp only at hs hkeep ⊢
      have hw' : debt ≠ 0 → ∃ key, c'.dev.pipeWaitKey descriptor = some key := fun h => hkeep (hw h)
      obtain ⟨her,-⟩ | ⟨hb,hlen,hm,-,hkey⟩ | ⟨-,bytes,hc,hcount,hmv⟩ := hs
      · rw [if_pos her,if_pos her]
        exact ⟨⟨c.mem,hco⟩,hw'⟩
      · have hst : IsStatus count := hb ▸ (by decide)
        have hne : count ≠ syscallError := hb ▸ (by decide)
        have hfull : (wordAt entry 1).toNat ≤ count.toNat := hlen.trans (hb ▸ (by decide))
        rw [if_neg hne,if_neg hne,if_pos hst,if_neg (by simpa using hfull)]
        exact ih _ (hm ▸ hco) (fun _ => hkey)
      · obtain ⟨hst,-⟩ := count_not_status hc
        rw [← hcount] at hst
        have hne : count ≠ syscallError := fun h => hst (h ▸ by decide)
        have hg : c'.moved-c.moved = bytes.length := by omega
        have hco' : Copied c0.mem c'.mem (moved+(c'.moved-c.moved)) := hg ▸ .more hco hc
        rw [if_neg hne,if_neg hne,if_neg hst]
        split_ifs
        · exact ⟨⟨c'.mem,hco'⟩,hw'⟩
        · exact ih _ hco' hw'

lemma leave_user {context : UserContext} {result : Word} (hh : h.halted = false) (hr : result ≠ syscallReturnBlock) :
    leave h descriptor context result = .user {context with returnValue := result} := by
  rw [leave,if_neg (by simp [hh]),if_neg hr]

lemma leave_block (context : UserContext) (hh : h.halted = false)
    (hk : ∃ key, h.pipeWaitKey descriptor = some key) :
    ∃ key, leave h descriptor context syscallReturnBlock = .suspended key (rewound context) := by
  obtain ⟨key,hk⟩ := hk
  exact ⟨key,by rw [leave,if_neg (by simp [hh]),if_pos rfl,hk]⟩

lemma leave_error (c : Caller Held) {c' : Caller Held} (descriptor : Nat) (context : UserContext) (hh : c'.dev.halted = false) :
    Settled c c' context (leave c'.dev descriptor context syscallError) ∧
      Waits context (leave c'.dev descriptor context syscallError) := by
  rw [leave_user hh (by decide)]
  exact ⟨.inl (show IsStatus syscallError by decide),.inr ⟨_,rfl,.inl rfl⟩⟩

/-- The sum that the loop returns leads to a good end exactly if it is one of the four. -/
lemma tally_settled {c c' : Caller Held} {t : Tally} {context : UserContext} (hh : c'.dev.halted = false) (hs : t.Small)
    (hm : c'.moved = c.moved+t.moved+t.lost) (hco : ∃ m, Copied c.mem m t.moved)
    (hw : t.debt ≠ 0 → ∃ key, c'.dev.pipeWaitKey descriptor = some key) :
    (Settled c c' context (leave c'.dev descriptor context t.result) ∧
      (t.debt ≠ 0 → Waits context (leave c'.dev descriptor context t.result))) ↔
    (t.unreadable = true ∨ t.debt = 0 ∨ t.debt = 50006 ∧ t.moved = 0 ∧ t.lost = 0 ∨ t.moved = t.debt ∨
      t.moved+2 = t.debt) := by
  have hmo := hs.moved
  have hde := hs.debt
  have hen : syscallError.toNat = 2^64-2 := by decide
  have hbn : syscallReturnBlock.toNat = 2^64-50006 := by decide
  by_cases he : t.unreadable = true ∨ t.failed = true ∧ t.moved = t.debt
  · have hr : t.result = syscallError := by
      rcases he with he | he
      · simp [Tally.result,he]
      · simp [Tally.result,he.1,he.2]
    rw [hr]
    obtain ⟨h1,h2⟩ := leave_error c descriptor context hh
    refine ⟨fun _ => ?_,fun _ => ⟨h1,fun _ => h2⟩⟩
    rcases he with he | he
    · exact .inl he
    · exact .inr (.inr (.inr (.inl he.2)))
  obtain ⟨hu,hf⟩ := not_or.1 he
  have hrn := Tally.result_toNat (by simpa using hu) hf
  by_cases h0 : t.debt = 0
  · have hrm : t.result.toNat = t.moved := by omega
    have hnb : t.result ≠ syscallReturnBlock := fun hb => by
      rw [hb] at hrm
      omega
    rw [leave_user hh hnb]
    refine ⟨fun _ => .inr (.inl h0),fun _ => ⟨.inr ?_,fun h => absurd h0 h⟩⟩
    dsimp only
    rwa [hrm]
  by_cases hb : t.moved+50006 = t.debt
  · have hrb : t.result = syscallReturnBlock := by
      rw [← BitVec.toNat_inj]
      omega
    obtain ⟨key,hk⟩ := leave_block context hh (hw h0)
    rw [hrb,hk]
    refine ⟨fun h => ?_,fun h => ⟨⟨rfl,?_⟩,fun _ => .inl ⟨key,rfl⟩⟩⟩
    · have := h.1.2
      omega
    · have h := h.resolve_left hu
      omega
  · have hnb : t.result ≠ syscallReturnBlock := fun h => by
      have := congrArg BitVec.toNat h
      omega
    have hz : t.result = syscallError ∨ t.result = 0 ↔ t.moved+2 = t.debt ∨ t.moved = t.debt := by
      rw [← BitVec.toNat_inj,← BitVec.toNat_inj]
      change t.result.toNat = _ ∨ t.result.toNat = 0 ↔ _
      omega
    rw [leave_user hh hnb]
    constructor
    · rintro ⟨-,h⟩
      obtain ⟨key,hk⟩ | ⟨back,hba,hr⟩ := h h0
      · cases hk
      · cases hba
        rcases hz.1 hr with h | h
        · exact .inr (.inr (.inr (.inr h)))
        · exact .inr (.inr (.inr (.inl h)))
    · intro h
      have h := h.resolve_left hu
      have hr : t.result = syscallError ∨ t.result = 0 := hz.2 (by omega)
      refine ⟨?_,fun _ => .inr ⟨_,rfl,hr⟩⟩
      rcases hr with hr | hr
      · exact .inl (show IsStatus t.result from hr ▸ by decide)
      · exact .inr ⟨c.mem,show Copied c.mem c.mem t.result.toNat from hr ▸ .none c.mem⟩

end

def pipeHeld : Held where
  task := ⟨1,0,0,[]⟩
  opened := fun descriptor => if descriptor = 3 then some (Rights.read,.pipeRead ⟨7,[],true⟩) else none
  number := fun _ => 0
  halted := false

def noOutput : Devices Held where
  read h _ _ := (h,none)
  wouldBlock _ _ := false
  write h _ _ := (h,false)
  isUnix _ _ := false
  isSocket _ _ := false
  sendUnix h _ _ := (h,none)
  sendSocket h _ _ := (h,.error .other)

def pipeCaller : Caller Held := ⟨(vectorCaller []).mem,pipeHeld,0,0⟩

def callContext (number pointer length : Nat) : UserContext where
  returnValue := BitVec.ofNat 64 number
  rbx := 0
  rbp := 0
  r12 := 0
  r13 := 0
  r14 := 0
  r15 := 0
  rdi := 3
  rsi := BitVec.ofNat 64 pointer
  rdx := BitVec.ofNat 64 length
  r8 := 0
  r9 := 0
  r10 := 0
  instructionPointer := 0x400002
  flags := 0x202
  stackPointer := 0x700000000000
  rcx := 0x400002
  r11 := 0x202

end Vanta.Syscall
