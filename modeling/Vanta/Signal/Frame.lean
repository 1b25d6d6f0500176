import Vanta.Library.ByteFile
import Vanta.Library.Endian

namespace Vanta.Signal
open Library Function BitVec

abbrev Word := BitVec 64

def errno (e : Nat) : Word := -BitVec.ofNat 64 e

def userAddressLimit : Nat := 0x0000800000000000

/-- User memory as the copy routines find it: the bytes, and which of them they may read and write. -/
structure UserMemory where
  readable : Nat → Bool
  writable : Nat → Bool
  byte : Nat → UInt8

namespace UserMemory

def readUserByte (m : UserMemory) (address : Nat) : Option UInt8 :=
  if address < userAddressLimit ∧ m.readable address = true then some (m.byte address) else none

def readBytes (m : UserMemory) : Nat → Nat → Option (List UInt8)
  | _, 0 => some []
  | pointer, length+1 =>
    match m.readUserByte pointer with
    | none => none
    | some b => (m.readBytes (pointer+1) length).map (b::·)

def copyFromUser (m : UserMemory) (pointer length : Nat) : Option (List UInt8) :=
  if length > 65536 then none else m.readBytes pointer length

def copyToUser (m : UserMemory) (pointer : Nat) : List UInt8 → UserMemory × Bool
  | [] => (m,true)
  | b::rest =>
    if pointer < userAddressLimit ∧ m.writable pointer = true then
      {m with byte := update m.byte pointer b}.copyToUser (pointer+1) rest
    else (m,false)

variable {m : UserMemory} {pointer : Nat}

lemma copyToUser_ok {m' : UserMemory} {bytes : List UInt8} (h : m.copyToUser pointer bytes = (m',true)) :
    m' = {m with byte := overlay m.byte pointer bytes} ∧
      ∀ i, i < bytes.length → pointer+i < userAddressLimit ∧ m.writable (pointer+i) = true := by
  induction bytes generalizing m pointer with
  | nil =>
    obtain rfl : m = m' := by simpa [copyToUser] using h
    exact ⟨by simp,by simp⟩
  | cons b rest ih =>
    simp only [copyToUser] at h
    split_ifs at h with hok
    swap
    · simp at h
    obtain ⟨rfl,hl⟩ := ih h
    refine ⟨?_,fun i hi => ?_⟩
    · have ho : update m.byte pointer b = overlay m.byte pointer [b] := by
        funext i
        by_cases hi : i = pointer
        · simp [hi,overlay]
        · rw [update_of_ne hi,overlay,if_neg (by simp; omega)]
      have ha : b::rest = [b]++rest := rfl
      rw [ha,overlay_append,ho]
      rfl
    · cases i with
      | zero => exact hok
      | succ i =>
        have := hl i (by simpa using hi)
        rwa [show pointer+1+i = pointer+(i+1) by omega] at this

lemma copyToUser_eq {bytes : List UInt8}
    (h : ∀ i, i < bytes.length → pointer+i < userAddressLimit ∧ m.writable (pointer+i) = true) :
    m.copyToUser pointer bytes = ({m with byte := overlay m.byte pointer bytes},true) := by
  have ho : (m.copyToUser pointer bytes).2 = true := by
    induction bytes generalizing m pointer with
    | nil => rfl
    | cons b rest ih =>
      have h0 : pointer < userAddressLimit ∧ m.writable pointer = true := h 0 (by simp)
      rw [copyToUser,if_pos h0]
      refine ih (fun i hi => ?_)
      have := h (i+1) (by simpa using hi)
      rwa [show pointer+1+i = pointer+(i+1) by omega]
  have he : m.copyToUser pointer bytes = ((m.copyToUser pointer bytes).1,true) := by rw [← ho]
  rw [he,(copyToUser_ok he).1]

lemma readBytes_eq {length : Nat} (h : ∀ i, i < length → pointer+i < userAddressLimit ∧ m.readable (pointer+i) = true) :
    m.readBytes pointer length = some (window m.byte pointer length) := by
  induction length generalizing pointer with
  | zero => rfl
  | succ length ih =>
    have h0 := h 0 (by omega)
    have hr : m.readBytes (pointer+1) length = some (window m.byte (pointer+1) length) := by
      refine ih (fun i hi => ?_)
      have := h (i+1) (by omega)
      rwa [show pointer+1+i = pointer+(i+1) by omega]
    rw [Nat.add_comm length,window_add]
    simp only [Nat.add_zero] at h0
    simp [readBytes,readUserByte,h0,hr,window,Nat.add_comm 1 length]

end UserMemory

structure SigAltStack where
  ssSp : Word
  ssFlags : BitVec 32
  ssSize : Word

/-- The saved processor state; the fields that are never set and never read are left out. -/
structure SigContext where
  r8 : Word
  r9 : Word
  r10 : Word
  r11 : Word
  r12 : Word
  r13 : Word
  r14 : Word
  r15 : Word
  rdi : Word
  rsi : Word
  rbp : Word
  rbx : Word
  rdx : Word
  rax : Word
  rcx : Word
  rsp : Word
  rip : Word
  rflags : Word
  cs : BitVec 16
  gs : BitVec 16
  fs : BitVec 16
  oldmask : Word

structure UContext where
  ucStack : SigAltStack
  ucMcontext : SigContext
  ucSigmask : Word

/-- The registers, the segments, then `err`, `trapno`, `oldmask`, `cr2`, `fpstate` and the reserved words. -/
def SigContext.words (c : SigContext) : List Word :=
  [c.r8,c.r9,c.r10,c.r11,c.r12,c.r13,c.r14,c.r15,c.rdi,c.rsi,c.rbp,c.rbx,c.rdx,c.rax,c.rcx,c.rsp,c.rip,c.rflags,
    0#16++c.fs++c.gs++c.cs,0,0,c.oldmask,0,0,0,0,0,0,0,0,0,0]

def UContext.words (uc : UContext) : List Word :=
  [0,0,uc.ucStack.ssSp,0#32++uc.ucStack.ssFlags,uc.ucStack.ssSize]++uc.ucMcontext.words++[uc.ucSigmask] ++
    List.replicate 64 0

def UContext.ofBytes (l : List UInt8) : UContext where
  ucStack := ⟨wordAt l 2,(wordAt l 3).setWidth 32,wordAt l 4⟩
  ucMcontext :=
    { r8 := wordAt l 5, r9 := wordAt l 6, r10 := wordAt l 7, r11 := wordAt l 8, r12 := wordAt l 9
      r13 := wordAt l 10, r14 := wordAt l 11, r15 := wordAt l 12, rdi := wordAt l 13, rsi := wordAt l 14
      rbp := wordAt l 15, rbx := wordAt l 16, rdx := wordAt l 17, rax := wordAt l 18, rcx := wordAt l 19
      rsp := wordAt l 20, rip := wordAt l 21, rflags := wordAt l 22
      cs := (wordAt l 23).setWidth 16, gs := (wordAt l 23 >>> 16).setWidth 16, fs := (wordAt l 23 >>> 32).setWidth 16
      oldmask := wordAt l 26}
  ucSigmask := wordAt l 37

def ucontextSize : Nat := 816

lemma UContext.words_length (uc : UContext) : uc.words.length = 102 := rfl

lemma UContext.wordAt_words (uc : UContext) (rest : List UInt8) {i : Nat} (h : i < 102) :
    wordAt (wordBytes uc.words++rest) i = uc.words.getD i 0 :=
  wordAt_wordBytes rest (by rw [uc.words_length]; exact h)

lemma UContext.segments_eq (cs gs fs : BitVec 16) :
    (0#16++fs++gs++cs).setWidth 16 = cs ∧ ((0#16++fs++gs++cs) >>> 16).setWidth 16 = gs ∧
      ((0#16++fs++gs++cs) >>> 32).setWidth 16 = fs := by
  refine ⟨?_,?_,?_⟩
  · apply eq_of_getLsbD_eq
    intro i hi
    rw [getLsbD_setWidth,getLsbD_append]
    simp [hi]
  · apply eq_of_getLsbD_eq
    intro i hi
    rw [getLsbD_setWidth,getLsbD_ushiftRight,getLsbD_append,getLsbD_append]
    simp [hi]
  · apply eq_of_getLsbD_eq
    intro i hi
    rw [getLsbD_setWidth,getLsbD_ushiftRight,getLsbD_append,getLsbD_append,
      getLsbD_append,if_neg (by omega),if_neg (by omega),if_pos (by omega),show 32+i-16-16 = i by omega]
    simp [hi]

lemma UContext.ofBytes_words (uc : UContext) (rest : List UInt8) :
    UContext.ofBytes (wordBytes uc.words++rest) = uc := by
  obtain ⟨⟨sp,flags,size⟩,c,mask⟩ := uc
  obtain ⟨hc,hg,hfs⟩ := segments_eq c.cs c.gs c.fs
  have hf : (0#32++flags).setWidth 32 = flags := by
    apply eq_of_getLsbD_eq
    intro i hi
    rw [getLsbD_setWidth,getLsbD_append]
    simp [hi]
  simp only [ofBytes,wordAt_words,Nat.reduceLT]
  change (⟨⟨sp,(0#32++flags).setWidth 32,size⟩,{c with
    cs := (0#16++c.fs++c.gs++c.cs).setWidth 16
    gs := ((0#16++c.fs++c.gs++c.cs) >>> 16).setWidth 16
    fs := ((0#16++c.fs++c.gs++c.cs) >>> 32).setWidth 16},mask⟩ : UContext) = _
  rw [hf,hc,hg,hfs]

end Vanta.Signal
