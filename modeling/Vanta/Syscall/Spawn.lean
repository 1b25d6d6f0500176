import Mathlib.Data.List.Basic

namespace Vanta.Syscall
open List

/-- The memory of the caller by bytes and words; nothing is readable from the user limit on, so that the sums below do
not wrap. -/
structure CallerMemory where
  byte : Nat → Option UInt8
  word : Nat → Option Nat

def copyEach {α : Type} (get : Nat → Option α) (size : Nat) : Nat → Nat → Option (List α)
  | 0, _ => some []
  | n+1, a => do
    let x ← get a
    let rest ← copyEach get size n (a+size)
    some (x::rest)

namespace CallerMemory

def copyFromUser (m : CallerMemory) (pointer length : Nat) : Option (List UInt8) :=
  if length > 65536 then none else copyEach m.byte 1 length pointer

def copyCstring (m : CallerMemory) : Nat → Nat → Option (List UInt8)
  | 0, _ => none
  | limit+1, pointer => do
    let byte ← m.byte pointer
    if byte = 0 then some []
    else
      let rest ← m.copyCstring limit (pointer+1)
      some (byte::rest)

def copyStrings (m : CallerMemory) (limit : Nat) : Nat → Nat → Option (List (List UInt8))
  | 0, _ => some []
  | n+1, a => do
    let pointer ← m.word a
    let argument ← m.copyCstring limit pointer
    let rest ← m.copyStrings limit n (a+8)
    some (argument::rest)

end CallerMemory

structure Loaded (α : Type) where
  image : α
  path : List UInt8
  linux : Bool
  arguments : List (List UInt8)
  environment : List (List UInt8)
  stdin : Nat
  stdout : Nat
  stderr : Nat

def defaultEnv : List (List UInt8) :=
  ["PATH=/bin:/sbin\x00","HOME=/home/vanta\x00","USER=root\x00"].map (·.toUTF8.toList)

section
variable {α : Type} (readRoot : List UInt8 → Option α) (isNativePath : List UInt8 → Bool)

/-- `readRoot` also fails for a path that is not UTF-8. -/
def spawnNativeUser (m : CallerMemory) (pointer length stdioPointer withArgs : Nat) : Option (Loaded α) := do
  let path ← m.copyFromUser pointer length
  let stdio ← copyEach m.word 8 (match withArgs with | 1 => 5 | 2 => 7 | _ => 3) stdioPointer
  let image ← readRoot path
  let arguments ← if withArgs = 1 ∨ withArgs = 2 then
      m.copyStrings 128 (min (stdio.getD 4 0) 8) (stdio.getD 3 0) else some []
  let environment ← if withArgs = 2 then
      m.copyStrings 256 (min (stdio.getD 6 0) 16) (stdio.getD 5 0) else some []
  let argumentReferences := if arguments = [] then [path] else arguments
  let environmentReferences := if environment = [] then defaultEnv else environment
  let full := !isNativePath path || withArgs = 2
  some {
    image := image
    path := path
    linux := !isNativePath path
    arguments := if full then argumentReferences else if withArgs = 1 then arguments else []
    environment := if full then environmentReferences else []
    stdin := stdio.getD 0 0
    stdout := stdio.getD 1 0
    stderr := stdio.getD 2 0}

/-- A slice of the caller's memory: its pointer and its bytes. -/
abbrev Slice := Nat × List UInt8

def Slice.In (s : Slice) (m : CallerMemory) : Prop := copyEach m.byte 1 s.2.length s.1 = some s.2

instance (s : Slice) (m : CallerMemory) : Decidable (s.In m) :=
  inferInstanceAs (Decidable (copyEach m.byte 1 s.2.length s.1 = some s.2))

def spawnPointers (args : List Slice) : List Nat :=
  (args.take 8).map Prod.fst++List.replicate (8-args.length) 0

/-- The block that it passes with the array at `pointers`. -/
def spawnBlock (pointers : Nat) (args : List Slice) (stdin stdout stderr : Nat) : List Nat :=
  [stdin,stdout,stderr,pointers,min args.length 8]

variable {m : CallerMemory}

/-- A string is read back as the slice exactly if its NUL comes right after the slice and within the limit. -/
lemma copyCstring_slice_iff {bytes : List UInt8} {pointer limit : Nat} (h : Slice.In (pointer,bytes) m)
    (hn : 0 ∉ bytes) : m.copyCstring limit pointer = some bytes ↔
      bytes.length < limit ∧ m.byte (pointer+bytes.length) = some 0 := by
  induction bytes generalizing pointer limit with
  | nil =>
    cases limit with
    | zero => simp [CallerMemory.copyCstring]
    | succ limit =>
      cases hb : m.byte pointer with
      | none => simp [CallerMemory.copyCstring,hb]
      | some b =>
        by_cases h0 : b = 0
        · simp [CallerMemory.copyCstring,hb,h0]
        · cases hr : m.copyCstring limit (pointer+1) <;> simp [CallerMemory.copyCstring,hb,h0,hr]
  | cons c bytes ih =>
    simp only [Slice.In,length_cons,copyEach,Option.bind_eq_bind,Option.bind_eq_some_iff] at h
    obtain ⟨x,hx,rest,hr,heq⟩ := h
    cases heq
    have hc : c ≠ 0 := fun hc => hn (by simp [hc])
    cases limit with
    | zero => simp [CallerMemory.copyCstring]
    | succ limit =>
      have ht := @ih (pointer+1) limit hr (fun hm => hn (by simp [hm]))
      rw [Nat.add_right_comm] at ht
      rw [length_cons,Nat.succ_lt_succ_iff,← Nat.add_assoc,← ht]
      cases hre : m.copyCstring limit (pointer+1) <;> simp [CallerMemory.copyCstring,hx,hc,hre]

/-- The strings at the pointers are the slices exactly if each of them is. -/
lemma copyStrings_slices_iff {args : List Slice} {rest : List Nat} {a limit : Nat}
    (hw : copyEach m.word 8 (args.length+rest.length) a = some (args.map Prod.fst++rest)) :
    m.copyStrings limit args.length a = some (args.map Prod.snd) ↔
      ∀ s ∈ args, m.copyCstring limit s.1 = some s.2 := by
  induction args generalizing a with
  | nil => simp [CallerMemory.copyStrings]
  | cons s args ih =>
    rw [length_cons,Nat.add_right_comm] at hw
    simp only [copyEach,Option.bind_eq_bind,Option.bind_eq_some_iff] at hw
    obtain ⟨x,hx,tail,ht,he⟩ := hw
    cases he
    rw [forall_mem_cons,← ih ht]
    cases hs : m.copyCstring limit s.1 with
    | none => simp [CallerMemory.copyStrings,hx,hs]
    | some argument =>
      cases hre : m.copyStrings limit args.length (a+8) <;> simp [CallerMemory.copyStrings,hx,hs,hre]

lemma copyStrings_length {limit n a : Nat} {l : List (List UInt8)} (h : m.copyStrings limit n a = some l) :
    l.length = n := by
  induction n generalizing a l with
  | zero =>
    cases h
    rfl
  | succ n ih =>
    simp only [CallerMemory.copyStrings,Option.bind_eq_bind,Option.bind_eq_some_iff] at h
    obtain ⟨_,_,_,_,rest,hr,he⟩ := h
    cases he
    rw [length_cons,ih hr]

end

def memoryWith (bytes : List UInt8) (words : List Nat) : CallerMemory where
  byte a := if 100 ≤ a then bytes[a-100]? else none
  word a := if 1000 ≤ a then words[(a-1000)/8]? else none

def commandLine : CallerMemory :=
  memoryWith [97,32,98,0] (spawnPointers [(100,[97]),(102,[98])]++spawnBlock 1000 [(100,[97]),(102,[98])] 0 1 2)

end Vanta.Syscall
