import Mathlib.Data.List.Perm.Basic
import Vanta.Io.Descriptor

namespace Vanta.Io
open List

structure PipeState where
  id : Nat
  bytes : List UInt8
  writerOpen : Bool
  deriving DecidableEq

namespace PipeState
variable (state : PipeState)
variable (length : Nat)

def read : PipeState × List UInt8 :=
  let length := min length state.bytes.length
  ({state with bytes := state.bytes.drop length},state.bytes.take length)

def write (bytes : List UInt8) : PipeState :=
  if state.writerOpen then {state with bytes := state.bytes++bytes} else state

def close : PipeState := {state with writerOpen := false}

/-- A read of the pipe has to wait. -/
def blocks : Bool := state.bytes.isEmpty && state.writerOpen

@[simp] lemma read_fst_bytes : (state.read length).1.bytes = state.bytes.drop length := by
  rcases Nat.le_total length state.bytes.length with h | h
  · simp [read,h]
  · simp [read,h,drop_of_length_le]

@[simp] lemma read_snd : (state.read length).2 = state.bytes.take length := by
  rcases Nat.le_total length state.bytes.length with h | h
  · simp [read,h]
  · simp [read,h,take_of_length_le]

end PipeState

/-- The pipes, and every reference to an end: those in the tables of all tasks
and those that a call in progress has cloned. -/
structure Pipes where
  pipes : List PipeState
  holders : List FileDescriptor
  nextPipeId : Nat
  deriving DecidableEq

namespace Pipes

def boot : Pipes := ⟨[],[],1⟩

variable (w : Pipes)

def strongCount (p : Nat) : Nat := w.holders.countP (fun d => d.resource = .pipeWrite p)

def openPipe (first second : Nat) : Pipes :=
  {pipes := w.pipes++[⟨w.nextPipeId,[],true⟩]
   holders := w.holders++[⟨first,Rights.read ||| Rights.transfer,.pipeRead w.pipes.length⟩,
     ⟨second,Rights.write ||| Rights.transfer,.pipeWrite w.pipes.length⟩]
   nextPipeId := (w.nextPipeId+1)%2^64}

variable (descriptor : FileDescriptor)

def readCurrent (length : Nat) : Option (Pipes × List UInt8) :=
  if descriptor.rights.contains Rights.read then
    match descriptor.resource with
    | .pipeRead p => w.pipes[p]?.map fun state =>
      ({w with pipes := w.pipes.set p (state.read length).1},(state.read length).2)
    | _ => none
  else none

def writeCurrent (bytes : List UInt8) : Option Pipes :=
  if descriptor.rights.contains Rights.write then
    match descriptor.resource with
    | .pipeWrite p => w.pipes[p]?.map fun state => {w with pipes := w.pipes.set p (state.write bytes)}
    | _ => none
  else none

def closePipeWriter (p : Nat) : Pipes :=
  if w.strongCount p = 1 then
    match w.pipes[p]? with
    | some state => {w with pipes := w.pipes.set p state.close}
    | none => w
  else w

def closeCurrent (i : Nat) : Pipes :=
  match w.holders[i]? with
  | some ⟨_,_,.pipeWrite p⟩ => {w.closePipeWriter p with holders := w.holders.eraseIdx i}
  | some _ => {w with holders := w.holders.eraseIdx i}
  | none => w

end Pipes

/-- What can happen to the pipes; `i` is one of the references. -/
inductive PipeCall where
  | openPipe (first second : Nat)
  | copy (i : Nat)
  | drop (i : Nat)
  | close (i : Nat)
  | write (i : Nat) (bytes : List UInt8)
  | read (i : Nat) (length : Nat)

inductive PipeEntry where
  | wrote (p : Nat) (bytes : List UInt8)
  | got (p : Nat) (bytes : List UInt8)
  deriving DecidableEq

namespace PipeEntry

def written (p : Nat) : List PipeEntry → List UInt8
  | [] => []
  | wrote p' bytes::log => if p' = p then bytes++written p log else written p log
  | got _ _::log => written p log

def returned (p : Nat) : List PipeEntry → List UInt8
  | [] => []
  | wrote _ _::log => returned p log
  | got p' bytes::log => if p' = p then bytes++returned p log else returned p log

lemma written_append (p : Nat) (log new : List PipeEntry) : written p (log++new) = written p log++written p new := by
  induction log with
  | nil => rfl
  | cons entry log ih =>
    cases entry with
    | wrote p' bytes => by_cases h : p' = p <;> simp [written,h,ih]
    | got p' bytes => simp [written,ih]

lemma returned_append (p : Nat) (log new : List PipeEntry) :
    returned p (log++new) = returned p log++returned p new := by
  induction log with
  | nil => rfl
  | cons entry log ih =>
    cases entry with
    | wrote p' bytes => simp [returned,ih]
    | got p' bytes => by_cases h : p' = p <;> simp [returned,h,ih]

end PipeEntry
namespace Pipes

def step (w : Pipes) : PipeCall → Pipes × List PipeEntry
  | .openPipe first second => (w.openPipe first second,[])
  | .copy i =>
    match w.holders[i]? with
    | some descriptor => ({w with holders := w.holders++[descriptor]},[])
    | none => (w,[])
  | .drop i => ({w with holders := w.holders.eraseIdx i},[])
  | .close i => (w.closeCurrent i,[])
  | .write i bytes =>
    match w.holders[i]? with
    | some ⟨capability,rights,.pipeWrite p⟩ =>
      match w.writeCurrent ⟨capability,rights,.pipeWrite p⟩ bytes with
      | some w' => (w',[.wrote p bytes])
      | none => (w,[])
    | _ => (w,[])
  | .read i length =>
    match w.holders[i]? with
    | some ⟨capability,rights,.pipeRead p⟩ =>
      match w.readCurrent ⟨capability,rights,.pipeRead p⟩ length with
      | some (w',bytes) => (w',[.got p bytes])
      | none => (w,[])
    | _ => (w,[])

def run (w : Pipes) (log : List PipeEntry) : List PipeCall → Pipes × List PipeEntry
  | [] => (w,log)
  | call::calls => run (w.step call).1 (log++(w.step call).2) calls

attribute [local simp] PipeEntry.written PipeEntry.returned

def buffered (w : Pipes) (p : Nat) : List UInt8 := (w.pipes[p]?.map PipeState.bytes).getD []

def readAll (w : Pipes) (descriptor : FileDescriptor) : List Nat → List UInt8
  | [] => []
  | length::lengths =>
    match w.readCurrent descriptor length with
    | some (w',bytes) => bytes++readAll w' descriptor lengths
    | none => []

variable {p q capability i : Nat} {state : PipeState} {w w' : Pipes} {rights : Rights}
  {bytes : List UInt8}

lemma buffered_of_some (h : w.pipes[p]? = some state) : w.buffered p = state.bytes := by
  simp [buffered,h]

lemma buffered_set (state' : PipeState) (h : w.pipes[q]? = some state) (p : Nat) :
    ({w with pipes := w.pipes.set q state'} : Pipes).buffered p = if p = q then state'.bytes else w.buffered p := by
  obtain ⟨hl,-⟩ := List.getElem?_eq_some_iff.1 h
  by_cases hp : p = q
  · simp [buffered,hp,hl]
  · simp [buffered,hp,List.getElem?_set_ne (Ne.symm hp)]

lemma buffered_openPipe (w : Pipes) (first second p : Nat) : (w.openPipe first second).buffered p = w.buffered p := by
  rcases Nat.lt_trichotomy p w.pipes.length with hlt | rfl | hg
  · simp [buffered,openPipe,getElem?_append_left hlt]
  · simp [buffered,openPipe]
  have hl : (w.pipes++[(⟨w.nextPipeId,[],true⟩ : PipeState)]).length ≤ p := by
    rw [length_append]
    exact hg
  simp [buffered,openPipe,getElem?_eq_none hl,getElem?_eq_none (Nat.le_of_lt hg)]

lemma buffered_closePipeWriter (w : Pipes) (q p : Nat) : (w.closePipeWriter q).buffered p = w.buffered p := by
  rw [closePipeWriter]
  split
  · split
    · next state hs =>
      rw [buffered_set state.close hs]
      split
      · next hp => rw [hp,buffered_of_some hs,PipeState.close]
      · rfl
    · rfl
  · rfl

lemma buffered_closeCurrent (w : Pipes) (i p : Nat) : (w.closeCurrent i).buffered p = w.buffered p := by
  rw [closeCurrent]
  split
  · next q _ => exact buffered_closePipeWriter w q p
  · rfl
  · rfl

lemma strongCount_pos (h : w.holders[i]? = some ⟨capability,rights,.pipeWrite p⟩) : 0 < w.strongCount p := by
  rw [strongCount,countP_pos_iff]
  exact ⟨_,mem_of_getElem? h,by simp⟩

lemma strongCount_eraseIdx_le (w : Pipes) (i p : Nat) :
    ({w with holders := w.holders.eraseIdx i} : Pipes).strongCount p ≤ w.strongCount p :=
  (eraseIdx_sublist w.holders i).countP_le

lemma strongCount_eraseIdx (h : w.holders[i]? = some ⟨capability,rights,.pipeWrite p⟩) :
    (w.holders.eraseIdx i).countP (fun d => d.resource = .pipeWrite p)+1 = w.strongCount p := by
  obtain ⟨hl,hg⟩ := List.getElem?_eq_some_iff.1 h
  have hp := getElem_cons_eraseIdx_perm hl
  rw [strongCount,← hp.countP_eq,countP_cons,hg]
  simp

def Sealed (w : Pipes) : Prop :=
  ∀ (p : Nat) (state : PipeState), w.pipes[p]? = some state → state.writerOpen = false → w.strongCount p = 0

lemma boot_sealed : boot.Sealed := by
  intro p state h
  simp [boot] at h

section
variable (hw : w.Sealed)
include hw

lemma Sealed.writerOpen (hs : w.pipes[p]? = some state) (hc : 0 < w.strongCount p) : state.writerOpen = true := by
  cases ho : state.writerOpen with
  | true => rfl
  | false => exact absurd (hw p state hs ho) (Nat.ne_of_gt hc)

lemma Sealed.openPipe (first second : Nat) : (w.openPipe first second).Sealed := by
  intro p state hs hc
  rcases Nat.lt_trichotomy p w.pipes.length with hlt | rfl | hg
  · have ho : w.pipes[p]? = some state := by
      rwa [Pipes.openPipe,getElem?_append_left hlt] at hs
    have hn : w.pipes.length ≠ p := Nat.ne_of_gt hlt
    simpa [strongCount,Pipes.openPipe,hn] using hw p state ho hc
  · simp only [Pipes.openPipe,getElem?_concat_length,Option.some.injEq] at hs
    simp [← hs] at hc
  have hl : (w.pipes++[(⟨w.nextPipeId,[],true⟩ : PipeState)]).length ≤ p := by
    rw [length_append]
    exact hg
  simp [Pipes.openPipe,getElem?_eq_none hl] at hs

lemma Sealed.of_le (hco : ∀ p, w'.strongCount p ≤ w.strongCount p)
    (hf : ∀ (p : Nat) (state' : PipeState), w'.pipes[p]? = some state' →
      ∃ state, w.pipes[p]? = some state ∧ state.writerOpen = state'.writerOpen) : w'.Sealed := by
  intro p state' hs' hc
  obtain ⟨state,hs,hsa⟩ := hf p state' hs'
  have hz := hw p state hs (hsa.trans hc)
  exact Nat.le_zero.1 (hz ▸ hco p)

lemma Sealed.set {state' : PipeState} (hs : w.pipes[q]? = some state) (hsa : state'.writerOpen = state.writerOpen) :
    ({w with pipes := w.pipes.set q state'} : Pipes).Sealed := by
  refine hw.of_le (fun p => Nat.le_refl _) fun p found hf => ?_
  by_cases hp : p = q
  · subst hp
    obtain ⟨hl,-⟩ := List.getElem?_eq_some_iff.1 hs
    simp only [List.getElem?_set_self hl,Option.some.injEq] at hf
    exact ⟨state,hs,by rw [← hf,hsa]⟩
  · simp only [getElem?_set_ne (Ne.symm hp)] at hf
    exact ⟨found,hf,rfl⟩

lemma Sealed.copy {descriptor : FileDescriptor}
    (hi : w.holders[i]? = some descriptor) : ({w with holders := w.holders++[descriptor]} : Pipes).Sealed := by
  intro p state hs hc
  have hz := hw p state hs hc
  -- a copy of a write end needs a holder of it
  have hn : descriptor.resource ≠ .pipeWrite p := by
    intro hr
    obtain ⟨capability,rights,resource⟩ := descriptor
    obtain rfl : resource = .pipeWrite p := hr
    exact absurd hz (Nat.ne_of_gt (strongCount_pos hi))
  simpa [strongCount,hn] using hz

lemma Sealed.close (i : Nat) : (w.closeCurrent i).Sealed := by
  rw [closeCurrent]
  split
  · next capability rights q hi =>
    intro p state hs hc
    have hco := strongCount_eraseIdx hi
    by_cases hl : w.strongCount q = 1
    · by_cases hp : p = q
      · subst hp
        exact Nat.succ.inj (hco.trans hl)
      have ho : w.pipes[p]? = some state := by
        simp only [closePipeWriter,hl,if_true] at hs
        split at hs
        · simpa [getElem?_set_ne (Ne.symm hp)] using hs
        · exact hs
      exact Nat.le_zero.1 ((hw p state ho hc) ▸ strongCount_eraseIdx_le w i p)
    · simp only [closePipeWriter,if_neg hl] at hs
      exact Nat.le_zero.1 ((hw p state hs hc) ▸ strongCount_eraseIdx_le w i p)
  · exact hw.of_le (strongCount_eraseIdx_le w i) fun p state h => ⟨state,h,rfl⟩
  · exact hw

end

lemma readCurrent_eq_some {length : Nat} (h : w.readCurrent ⟨capability,rights,.pipeRead p⟩ length = some (w',bytes)) :
    ∃ state, w.pipes[p]? = some state ∧ w' = {w with pipes := w.pipes.set p (state.read length).1} ∧
      bytes = state.bytes.take length := by
  simp only [readCurrent,Option.ite_none_right_eq_some,Option.map_eq_some_iff,Prod.mk.injEq] at h
  obtain ⟨-,state,hs,rfl,rfl⟩ := h
  exact ⟨state,hs,rfl,state.read_snd length⟩

lemma writeCurrent_eq_some (h : w.writeCurrent ⟨capability,rights,.pipeWrite p⟩ bytes = some w') :
    ∃ state, w.pipes[p]? = some state ∧ w' = {w with pipes := w.pipes.set p (state.write bytes)} := by
  simp only [writeCurrent,Option.ite_none_right_eq_some,Option.map_eq_some_iff] at h
  obtain ⟨-,state,hs,rfl⟩ := h
  exact ⟨state,hs,rfl⟩

lemma write_writerOpen (state : PipeState) (bytes : List UInt8) :
    (state.write bytes).writerOpen = state.writerOpen := by
  rw [PipeState.write]
  split <;> rfl

lemma Sealed.write (hw : w.Sealed) (hi : w.holders[i]? = some ⟨capability,rights,.pipeWrite q⟩)
    (h : w.writeCurrent ⟨capability,rights,.pipeWrite q⟩ bytes = some w') (p : Nat) :
    w'.buffered p = if p = q then w.buffered p++bytes else w.buffered p := by
  obtain ⟨state,hs,rfl⟩ := writeCurrent_eq_some h
  have ho := hw.writerOpen hs (strongCount_pos hi)
  rw [buffered_set _ hs]
  by_cases hp : p = q
  · simp [hp,PipeState.write,ho,buffered_of_some hs]
  · simp [hp]

lemma buffered_readCurrent {length : Nat}
    (h : w.readCurrent ⟨capability,rights,.pipeRead q⟩ length = some (w',bytes)) (p : Nat) :
    bytes = (w.buffered q).take length ∧
      w'.buffered p = if p = q then (w.buffered p).drop length else w.buffered p := by
  obtain ⟨state,hs,rfl,rfl⟩ := readCurrent_eq_some h
  refine ⟨by rw [buffered_of_some hs],?_⟩
  rw [buffered_set _ hs]
  by_cases hp : p = q
  · simp [hp,buffered_of_some hs]
  · simp [hp]

lemma step_sealed (hw : w.Sealed) (call : PipeCall) : (w.step call).1.Sealed := by
  cases call with
  | openPipe first second => exact hw.openPipe first second
  | copy i =>
    rw [step]
    cases hi : w.holders[i]? with
    | none => exact hw
    | some descriptor => exact hw.copy hi
  | drop i => exact hw.of_le (strongCount_eraseIdx_le w i) fun p state h => ⟨state,h,rfl⟩
  | close i => exact hw.close i
  | write i bytes =>
    rw [step]
    split
    · split
      · next w' hwr =>
        obtain ⟨state,hs,rfl⟩ := writeCurrent_eq_some hwr
        exact hw.set hs (write_writerOpen state bytes)
      · exact hw
    · exact hw
  | read i length =>
    rw [step]
    split
    · split
      · next w' bytes hr =>
        obtain ⟨state,hs,rfl,-⟩ := readCurrent_eq_some hr
        exact hw.set hs rfl
      · exact hw
    · exact hw

lemma step_balance (hw : w.Sealed) (call : PipeCall) (p : Nat) : w.buffered p++PipeEntry.written p (w.step call).2 =
      PipeEntry.returned p (w.step call).2++(w.step call).1.buffered p := by
  cases call with
  | openPipe first second => simp [step,buffered_openPipe]
  | copy i =>
    rw [step]
    cases w.holders[i]? <;> simp [buffered]
  | drop i => simp [step,buffered]
  | close i => simp [step,buffered_closeCurrent]
  | write i bytes =>
    rw [step]
    split
    · next capability rights q hi =>
      split
      · next w' hwr =>
        have ha := hw.write hi hwr p
        by_cases hp : q = p
        · simp [ha,hp]
        · simp [ha,hp,Ne.symm hp]
      · simp
    · simp
  | read i length =>
    rw [step]
    split
    · next capability rights q hi =>
      split
      · next w' bytes hr =>
        obtain ⟨hb,hl⟩ := buffered_readCurrent hr p
        by_cases hp : q = p
        · simp [hl,hb,hp]
        · simp [hl,hp,Ne.symm hp]
      · simp
    · simp

lemma run_balance (calls : List PipeCall) (p : Nat) (w : Pipes) (log : List PipeEntry) (hw : w.Sealed)
    (hl : PipeEntry.written p log = PipeEntry.returned p log++w.buffered p) : (w.run log calls).1.Sealed ∧
      PipeEntry.written p (w.run log calls).2 =
        PipeEntry.returned p (w.run log calls).2++(w.run log calls).1.buffered p := by
  induction calls generalizing w log with
  | nil => exact ⟨hw,hl⟩
  | cons call calls ih =>
    refine ih _ _ (step_sealed hw call) ?_
    rw [PipeEntry.written_append,PipeEntry.returned_append,hl,append_assoc,append_assoc,step_balance hw call p]

lemma readAll_take (lengths : List Nat) (w : Pipes) (capability p : Nat) (rights : Rights)
    (hr : rights.contains Rights.read = true) :
    w.readAll ⟨capability,rights,.pipeRead p⟩ lengths = (w.buffered p).take lengths.sum := by
  induction lengths generalizing w with
  | nil => simp [readAll]
  | cons length lengths ih =>
    rw [readAll]
    cases hre : w.readCurrent ⟨capability,rights,.pipeRead p⟩ length with
    | none =>
      have hn : w.pipes[p]? = none := by simpa [readCurrent,hr] using hre
      simp [buffered,hn]
    | some answer =>
      obtain ⟨w',bytes⟩ := answer
      obtain ⟨rfl,hl⟩ := buffered_readCurrent hre p
      simp [ih w',hl,take_add]

/-- After any interleaving, what was written to a pipe is what its reads returned and then what it holds for further
reads. -/
theorem pipe_data_integrity (calls : List PipeCall) (p : Nat) : PipeEntry.written p (boot.run [] calls).2 =
        PipeEntry.returned p (boot.run [] calls).2++(boot.run [] calls).1.buffered p ∧
      (∀ (i capability : Nat) (rights : Rights) (bytes : List UInt8) (w' : Pipes),
        (boot.run [] calls).1.holders[i]? = some ⟨capability,rights,.pipeWrite p⟩ →
        (boot.run [] calls).1.writeCurrent ⟨capability,rights,.pipeWrite p⟩ bytes = some w' →
          w'.buffered p = (boot.run [] calls).1.buffered p++bytes) ∧
      ∀ capability rights lengths, Rights.contains rights Rights.read = true →
        (boot.run [] calls).1.readAll ⟨capability,rights,.pipeRead p⟩ lengths =
          ((boot.run [] calls).1.buffered p).take lengths.sum := by
  have hbo : PipeEntry.written p [] = PipeEntry.returned p []++boot.buffered p := by
    simp [boot,buffered]
  obtain ⟨hs,hb⟩ := run_balance calls p boot [] boot_sealed hbo
  refine ⟨hb,fun i capability rights bytes w' hi hw => ?_,fun capability rights lengths hr => ?_⟩
  · simpa using hs.write hi hw p
  · exact readAll_take lengths _ capability p rights hr

/-- In every interleaving a pipe whose writer counts as closed has no reference to its write end left. -/
theorem closed_pipe_has_no_writer (calls : List PipeCall) : (boot.run [] calls).1.Sealed :=
  (run_balance calls 0 boot [] boot_sealed (by simp [boot,buffered])).1

end Pipes
end Vanta.Io
