import Vanta.Library.Endian
import Vanta.Mm.Process

/-! The first stack of a program, from the stack pointer up to `userStackTop`. -/

namespace Vanta.Mm.InitialStack
open Library List Memory

abbrev Word := BitVec 64

structure ProgramHeader where
  kind : Nat
  offset : Nat
  virtualAddress : Word
  fileSize : Nat

structure ElfImage where
  entry : Word
  programHeaderOffset : Nat
  programHeaderSize : Nat
  programHeaders : List ProgramHeader

variable (e : ElfImage)

def ElfImage.phdrVirtualAddress (base : Word) : Word :=
  let phoff := e.programHeaderOffset
  match e.programHeaders.find? (·.kind = 6) with
  | some h => base+h.virtualAddress
  | none =>
    match e.programHeaders.find? (fun h => h.kind = 1 ∧ h.offset ≤ phoff ∧
        h.offset+h.fileSize ≥ phoff+e.programHeaderSize*e.programHeaders.length) with
    | some h => base+h.virtualAddress+BitVec.ofNat 64 (phoff-h.offset)
    | none => base+((e.entry &&& ~~~4095)+BitVec.ofNat 64 phoff)

abbrev stackSize : Nat := userStackPages*pageSize

variable (s : List UInt8)

def stackPointer : Nat := userStackTop-s.length

def pointer : Word := BitVec.ofNat 64 (stackPointer s)

/-- The bytes are written below the stack, as far as pages are mapped there. -/
def push (s bytes : List UInt8) : Option (List UInt8) :=
  if s.length+bytes.length ≤ stackSize then some (bytes++s) else none

def pushStrings (s : List UInt8) : List (List UInt8) → Option (List UInt8 × List Word)
  | [] => some (s,[])
  | a::l => do
    let s ← push s (a++[0])
    let (t,pointers) ← pushStrings s l
    some (t,pointer s::pointers)

def pushWords (s : List UInt8) : List Word → Option (List UInt8)
  | [] => some s
  | w::ws => do pushWords (← push s (leBytes 8 w.toNat)) ws

def auxv (base interpBase random : Word) : List (Word × Word) :=
  [(0,0),(25,random),(23,0),(17,100),(14,0),(13,0),(12,0),(11,0),(9,base+e.entry),(8,0),(7,interpBase),
    (6,BitVec.ofNat 64 pageSize),(5,BitVec.ofNat 64 e.programHeaders.length),
    (4,BitVec.ofNat 64 e.programHeaderSize),(3,e.phdrVirtualAddress base)]

/-- The words below the strings, in the order in which they are written. -/
def startWords (aux : List (Word × Word)) (argc : Nat) (argv envp : List Word) : List Word :=
  (aux.flatMap fun (key,val) => [val,key])++0::envp.reverse++0::argv.reverse++[BitVec.ofNat 64 argc]

def initializeStack (base interpBase : Word) (args environment : List (List UInt8)) : Option (List UInt8) := do
  let (s,argv) ← pushStrings [] args
  let (s,envp) ← pushStrings s environment
  let s ← push s (replicate 16 0x5a)
  let aligned := replicate (stackPointer s%16) 0++s
  pushWords aligned (startWords (auxv e base interpBase (pointer s)) args.length argv envp)

structure Decoded where
  argc : Word
  argv : List (List UInt8)
  envp : List (List UInt8)
  auxv : List (Word × Word)

def words : List Word := (range (s.length/8)).map (wordAt s)

def stringAt (p : Word) : List UInt8 := (s.drop (p.toNat-stackPointer s)).takeWhile (· ≠ 0)

def pointers (ws : List Word) : List Word × List Word := (ws.takeWhile (· ≠ 0),(ws.dropWhile (· ≠ 0)).tail)

def pairs : List Word → List (Word × Word)
  | key::val::ws => (key,val)::if key = 0 then [] else pairs ws
  | _ => []

def decode : Decoded :=
  let (argv,ws) := pointers (words s).tail
  let (envp,ws) := pointers ws
  ⟨(words s).headD 0,argv.map (stringAt s),envp.map (stringAt s),pairs ws⟩

lemma words_wordBytes (ws : List Word) (rest : List UInt8) : ws <+: words (wordBytes ws++rest) := by
  rw [prefix_iff_getElem?]
  intro i hi
  have hl : i < (wordBytes ws++rest).length/8 := by
    simp only [length_append,wordBytes_length]
    omega
  rw [words,getElem?_map,getElem?_range hl,Option.map_some,wordAt_wordBytes rest hi,getD_eq_getElem _ _ hi]

lemma pointers_append {l rest : List Word} (h : 0 ∉ l) : pointers (l++0::rest) = (l,rest) := by
  have hn : ∀ w ∈ l, decide (w ≠ 0) = true := fun w hw => by simpa using ne_of_mem_of_not_mem hw h
  rw [pointers,takeWhile_append_of_pos hn,dropWhile_append_of_pos hn]
  simp

lemma pushWords_eq {s : List UInt8} {ws : List Word} (h : s.length+8*ws.length ≤ stackSize) :
    pushWords s ws = some (wordBytes ws.reverse++s) := by
  induction ws generalizing s with
  | nil => rfl
  | cons w ws ih =>
    rw [length_cons] at h
    rw [pushWords,push,if_pos (by rw [leBytes_length]; omega)]
    change pushWords _ ws = _
    rw [ih (by rw [length_append,leBytes_length]; omega)]
    simp [wordBytes]

lemma pointer_toNat : (pointer s).toNat = stackPointer s := by
  rw [pointer,BitVec.toNat_ofNat,Nat.mod_eq_of_lt]
  rw [stackPointer,userStackTop]
  omega

lemma stringAt_pushed {above s a : List UInt8} (ha : 0 ∉ a) (h : (above++(a++[0]++s)).length ≤ stackSize) :
    stringAt (above++(a++[0]++s)) (pointer (a++[0]++s)) = a := by
  have hn : ∀ b ∈ a, decide (b ≠ 0) = true := fun b hb => by simpa using ne_of_mem_of_not_mem hb ha
  have hs : stackSize ≤ userStackTop := by decide
  rw [length_append] at h
  have ho : stackPointer (a++[0]++s)-stackPointer (above++(a++[0]++s)) = above.length := by
    rw [stackPointer,stackPointer,@length_append _ above]
    omega
  rw [stringAt,pointer_toNat,ho,drop_left,append_assoc,takeWhile_append_of_pos hn]
  simp

def stringBytes (l : List (List UInt8)) : Nat := (l.map (·.length+1)).sum

lemma pushStrings_spec {s : List UInt8} {l : List (List UInt8)} (hn : ∀ a ∈ l, 0 ∉ a)
    (h : s.length+stringBytes l ≤ stackSize) :
    ∃ t ps, pushStrings s l = some (t,ps) ∧ t.length = s.length+stringBytes l ∧ s <:+ t ∧
      ps.length = l.length ∧ 0 ∉ ps ∧ ∀ u, t <:+ u → u.length ≤ stackSize → ps.map (stringAt u) = l := by
  induction l generalizing s with
  | nil => exact ⟨s,[],rfl,rfl,suffix_rfl,rfl,not_mem_nil,fun _ _ _ => rfl⟩
  | cons a l ih =>
    have hs : stackSize < userStackTop := by decide
    have hl : (a++[0]++s).length = s.length+(a.length+1) := by simp; omega
    have hsu : stringBytes (a::l) = a.length+1+stringBytes l := by simp [stringBytes]
    obtain ⟨t,ps,hp,ht,hst,hps,hz,hr⟩ := @ih (a++[0]++s) (fun b hb => hn b (mem_cons_of_mem _ hb))
      (by omega)
    have hne : 0 ≠ pointer (a++[0]++s) := by
      intro h0
      have hna := pointer_toNat (a++[0]++s)
      rw [← h0,stackPointer] at hna
      change 0 = _ at hna
      omega
    refine ⟨t,pointer (a++[0]++s)::ps,?_,by omega,(suffix_append _ s).trans hst,by simp [hps],
      fun hm => (mem_cons.1 hm).elim hne hz,fun u hu hf => ?_⟩
    · rw [pushStrings,push,if_pos (by simp; omega)]
      simp only [Option.bind_eq_bind,Option.bind_some,hp]
    · obtain ⟨above,rfl⟩ := hst.trans hu
      rw [map_cons,hr _ hu hf,stringAt_pushed (hn a mem_cons_self) hf]

def stackBytes (args environment : List (List UInt8)) : Nat :=
  (stringBytes args+stringBytes environment+16+15)/16*16+8*(args.length+environment.length+33)

variable {e : ElfImage} {base interpBase : Word} {args environment : List (List UInt8)}

lemma initializeStack_spec (hn : ∀ a ∈ args++environment, 0 ∉ a)
    (hf : stackBytes args environment ≤ stackSize) : ∃ s u argv envp random,
      u = wordBytes (startWords (auxv e base interpBase random) args.length argv envp).reverse++s ∧
      initializeStack e base interpBase args environment = some u ∧ u.length = stackBytes args environment ∧
      0 ∉ argv ∧ 0 ∉ envp ∧ argv.map (stringAt u) = args ∧ envp.map (stringAt u) = environment := by
  have hb := hf
  rw [stackBytes] at hb
  obtain ⟨t,argv,har,ht,_,harg,hargv,hr⟩ := @pushStrings_spec [] args
    (fun a ha => hn a (mem_append_left _ ha)) (by simp; omega)
  rw [length_nil,Nat.zero_add] at ht
  obtain ⟨t',envp,henv,ht',htt,he,hen,hre⟩ := @pushStrings_spec t environment
    (fun a ha => hn a (mem_append_right _ ha)) (by omega)
  let r := replicate 16 0x5a++t'
  let s := replicate (stackPointer r%16) 0++r
  let ws := startWords (auxv e base interpBase (pointer r)) args.length argv envp
  have hs : s.length = (stringBytes args+stringBytes environment+16+15)/16*16 := by
    have : stackSize ≤ 0x10000 := by decide
    simp only [s,r,length_append,length_replicate,ht',ht,stackPointer,userStackTop]
    omega
  have hw : ws.length = args.length+environment.length+33 := by
    simp [ws,startWords,auxv,harg,he]
    omega
  have hp : pushWords s ws = some (wordBytes ws.reverse++s) := pushWords_eq (by omega)
  have hl : (wordBytes ws.reverse++s).length = stackBytes args environment := by
    rw [length_append,wordBytes_length,length_reverse,stackBytes]
    omega
  have hsu : t' <:+ wordBytes ws.reverse++s :=
    ((suffix_append _ _).trans (suffix_append _ r)).trans (suffix_append _ s)
  refine ⟨s,_,argv,envp,_,rfl,?_,hl,hargv,hen,hr _ (htt.trans hsu) (hl.trans_le hf),
    hre _ hsu (hl.trans_le hf)⟩
  simp only [initializeStack,har,Option.bind_eq_bind,Option.bind_some,henv]
  rw [push,if_pos (by rw [length_replicate]; omega),Option.bind_some]
  exact hp

lemma pairs_auxv (random : Word) (rest : List Word) :
    pairs (((auxv e base interpBase random).flatMap fun (key,val) => [val,key]).reverse++rest) =
      (auxv e base interpBase random).reverse := by
  simp [auxv,pairs]

/-- The program finds all of its strings on an aligned stack exactly if their number is odd. -/
theorem initial_stack_abi (hnul : ∀ a ∈ args++environment, 0 ∉ a) (hfit : stackBytes args environment ≤ stackSize) :
    (∃ s, initializeStack e base interpBase args environment = some s ∧ stackPointer s%16 = 0 ∧
      (decode s).argc.toNat = args.length ∧ (decode s).argv = args ∧ (decode s).envp = environment ∧
      (decode s).auxv.getLast? = some (0,0) ∧ (decode s).auxv.lookup 9 = some (base+e.entry) ∧
      (decode s).auxv.lookup 3 = some (e.phdrVirtualAddress base) ∧ (decode s).auxv.lookup 7 = some interpBase) ↔
      (args.length+environment.length)%2 = 1 := by
  obtain ⟨s,u,argv,envp,random,hu,hi,hl,ha,he,hr,hre⟩ :=
    @initializeStack_spec e base interpBase args environment hnul hfit
  have hs : stackSize ≤ 0x10000 := by decide
  rw [stackBytes] at hfit hl
  have hal : stackPointer u%16 = 0 ↔ (args.length+environment.length)%2 = 1 := by
    rw [stackPointer,hl,userStackTop]
    omega
  rw [← hal]
  refine ⟨fun ⟨s',hi',h,_⟩ => by cases hi.symm.trans hi'; exact h,fun hp => ⟨u,hi,hp,?_⟩⟩
  obtain ⟨rest,hres⟩ := words_wordBytes
    (startWords (auxv e base interpBase random) args.length argv envp).reverse s
  rw [← hu] at hres
  simp only [startWords,reverse_append,reverse_cons,reverse_reverse,reverse_nil,nil_append,cons_append,
    append_assoc] at hres
  simp only [decode,← hres,tail_cons,pointers_append ha,pointers_append he,headD_cons,pairs_auxv,hr,hre]
  refine ⟨?_,trivial,trivial,rfl,rfl,rfl,rfl⟩
  rw [BitVec.toNat_ofNat,Nat.mod_eq_of_lt (by omega)]

def program : ElfImage := ⟨0x401000,64,56,[⟨1,0,0x400000,0x1000⟩]⟩

theorem initial_stack_abi_one_argument : ∃ s, initializeStack program 0 0 [[115,104]] [] = some s ∧
    stackPointer s%16 = 0 ∧ (decode s).argv = [[115,104]] :=
  have ⟨s,h,ha,_,har,_⟩ := (@initial_stack_abi program 0 0 [[115,104]] [] (by decide) (by decide)).2 (by decide)
  ⟨s,h,ha,har⟩

/-- Without arguments and environment the stack pointer is 8 modulo 16. -/
theorem initial_stack_unaligned : ∃ s, initializeStack program 0 0 [] [] = some s ∧ stackPointer s%16 = 8 := by
  obtain ⟨_,s,_,_,_,_,h,hl,_⟩ := @initializeStack_spec program 0 0 [] [] (by simp) (by decide)
  exact ⟨s,h,by rw [stackPointer,hl]; decide⟩

end Vanta.Mm.InitialStack
