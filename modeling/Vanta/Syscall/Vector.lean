import Vanta.Signal.Deliver

namespace Vanta.Syscall
open Library
open Signal (Word UserMemory errno userAddressLimit)
open Signal.Thread (syscallError)

def syscallReturnBlock : Word := BitVec.ofInt 64 (-50006)

inductive NetworkError where
  | brokenPipe
  | wouldBlock
  | other
  deriving DecidableEq

/-- The resources behind the descriptors of the caller, with `read_current`, `read_would_block`, `write_current` and the
two ways to send. -/
structure Devices (σ : Type) where
  read : σ → Nat → Nat → σ × Option (List UInt8)
  wouldBlock : σ → Nat → Bool
  write : σ → Nat → List UInt8 → σ × Bool
  isUnix : σ → Nat → Bool
  isSocket : σ → Nat → Bool
  sendUnix : σ → Nat → List UInt8 → σ × Option Nat
  sendSocket : σ → Nat → List UInt8 → σ × Except NetworkError Nat

/-- The memory and the resources of the caller, with the bytes that went through a descriptor and the bytes asked for.
-/
structure Caller (σ : Type) where
  mem : UserMemory
  dev : σ
  moved : Nat
  asked : Nat

variable {σ : Type}

def accessible (m : UserMemory) (writable : Bool) (address : Nat) : Bool :=
  address < userAddressLimit && (if writable then m.writable address else m.readable address)

def validateUserBuffer (m : UserMemory) (pointer length : Nat) (writable : Bool) : Bool :=
  length == 0 || (pointer+(length-1) < 2^64 && accessible m writable pointer &&
    accessible m writable (pointer+(length-1)))

def readUser (D : Devices σ) (descriptor : Nat) (c : Caller σ) (pointer length : Nat) : Caller σ × Word :=
  if validateUserBuffer c.mem pointer length true = false then (c,syscallError)
  else
    match D.read c.dev descriptor (min length 65536) with
    | (dev,none) => ({c with dev},syscallError)
    | (dev,some bytes) =>
      let c := {c with dev, moved := c.moved+bytes.length}
      if bytes.isEmpty && D.wouldBlock dev descriptor then (c,syscallReturnBlock)
      else
        match c.mem.copyToUser pointer bytes with
        | (mem,false) => ({c with mem},syscallError)
        | (mem,true) => ({c with mem},BitVec.ofNat 64 bytes.length)

/-- The read of the call finds nothing and would have to wait. -/
def readBlocks (D : Devices σ) (descriptor : Nat) (c : Caller σ) (pointer length : Nat) : Bool :=
  validateUserBuffer c.mem pointer length true &&
    match D.read c.dev descriptor (min length 65536) with
    | (dev,some bytes) => bytes.isEmpty && D.wouldBlock dev descriptor
    | (_,none) => false

def writeUser (D : Devices σ) (descriptor : Nat) (c : Caller σ) (pointer length : Nat) : Caller σ × Word :=
  match c.mem.copyFromUser pointer length with
  | none => (c,syscallError)
  | some bytes =>
    if descriptor = 1 ∨ descriptor = 2 then
      -- what the descriptor does not take goes to the serial line
      ({c with dev := (D.write c.dev descriptor bytes).1, moved := c.moved+length},BitVec.ofNat 64 length)
    else if D.isUnix c.dev descriptor then
      match D.sendUnix c.dev descriptor bytes with
      | (dev,some n) => ({c with dev, moved := c.moved+n},BitVec.ofNat 64 n)
      | (dev,none) => ({c with dev},errno 32)
    else if D.isSocket c.dev descriptor then
      match D.sendSocket c.dev descriptor bytes with
      | (dev,.ok n) => ({c with dev, moved := c.moved+n},BitVec.ofNat 64 n)
      | (dev,.error .brokenPipe) => ({c with dev},errno 32)
      | (dev,.error .wouldBlock) => ({c with dev},errno 11)
      | (dev,.error .other) => ({c with dev},syscallError)
    else
      match D.write c.dev descriptor bytes with
      | (dev,true) => ({c with dev, moved := c.moved+length},BitVec.ofNat 64 length)
      | (dev,false) => ({c with dev},syscallError)

/-- The loop of `linux_readv_user` and `linux_writev_user`; the first one stops at a short transfer. -/
def vectorLoop (scalar : Caller σ → Nat → Nat → Caller σ × Word) (stopShort : Bool) (iovPointer : Nat) :
    Nat → Nat → Caller σ → Word → Caller σ × Word
  | 0, _, c, total => (c,total)
  | n+1, index, c, total =>
    match c.mem.copyFromUser ((iovPointer+index*16)%2^64) 16 with
    | none => (c,syscallError)
    | some entry =>
      let base := (wordAt entry 0).toNat
      let len := (wordAt entry 1).toNat
      if len = 0 then vectorLoop scalar stopShort iovPointer n (index+1) c total
      else
        let (c,count) := scalar {c with asked := c.asked+len} base len
        if count = syscallError then (c,if total ≠ 0 then total else syscallError)
        else if stopShort && count.toNat < len then (c,total+count)
        else vectorLoop scalar stopShort iovPointer n (index+1) c (total+count)

def linuxReadvUser (D : Devices σ) (descriptor : Nat) (c : Caller σ) (iovPointer iovcnt : Nat) : Caller σ × Word :=
  if iovcnt > 16 then (c,syscallError)
  else vectorLoop (readUser D descriptor) true iovPointer iovcnt 0 c 0

def linuxWritevUser (D : Devices σ) (descriptor : Nat) (c : Caller σ) (iovPointer iovcnt : Nat) : Caller σ × Word :=
  if iovcnt > 16 then (c,syscallError)
  else vectorLoop (writeUser D descriptor) false iovPointer iovcnt 0 c 0

/-- What the calls return instead of a count, as the kernel writes it: -2, -EAGAIN, -EPIPE and the request to wait. -/
def statusCodes : List Nat := [2,11,32,50006]

def IsStatus (result : Word) : Prop := (-result).toNat ∈ statusCodes

instance (result : Word) : Decidable (IsStatus result) := inferInstanceAs (Decidable ((-result).toNat ∈ statusCodes))

/-- The call returned an error and moved nothing, or returned the number of bytes moved, no more than was asked for. -/
def Counts (c c' : Caller σ) (result : Word) : Prop :=
  IsStatus result ∧ c'.moved = c.moved ∨ c'.moved = c.moved+result.toNat ∧ c.asked+result.toNat ≤ c'.asked

/-- What the elements that a call reaches amount to: the bytes moved and asked for, the sum of the status codes other
than the plain error, the bytes that were read and could not be copied, and whether an entry of the array could not be
read or an element failed. -/
structure Tally where
  moved : Nat
  asked : Nat
  debt : Nat
  lost : Nat
  unreadable : Bool
  failed : Bool

def tally (scalar : Caller σ → Nat → Nat → Caller σ × Word) (stopShort : Bool) (iovPointer : Nat) :
    Nat → Nat → Caller σ → Nat → Nat → Nat → Tally
  | 0, _, _, moved, asked, debt => ⟨moved,asked,debt,0,false,false⟩
  | n+1, index, c, moved, asked, debt =>
    match c.mem.copyFromUser ((iovPointer+index*16)%2^64) 16 with
    | none => ⟨moved,asked,debt,0,true,false⟩
    | some entry =>
      let base := (wordAt entry 0).toNat
      let len := (wordAt entry 1).toNat
      if len = 0 then tally scalar stopShort iovPointer n (index+1) c moved asked debt
      else
        let r := scalar {c with asked := c.asked+len} base len
        let got := r.1.moved-c.moved
        if r.2 = syscallError then ⟨moved,asked+len,debt,got,false,true⟩
        else if IsStatus r.2 then
          tally scalar stopShort iovPointer n (index+1) r.1 moved (asked+len) (debt+(-r.2).toNat)
        else if stopShort && r.2.toNat < len then ⟨moved+got,asked+len,debt,0,false,false⟩
        else tally scalar stopShort iovPointer n (index+1) r.1 (moved+got) (asked+len) debt

/-- The sum that the loop returns. -/
def Tally.result (t : Tally) : Word :=
  if t.unreadable || t.failed && t.moved == t.debt then syscallError else BitVec.ofNat 64 (t.moved+(2^64-t.debt))

/-- No status was added to the count, or a single one to nothing; no byte went missing. -/
structure Tally.Sound (t : Tally) : Prop where
  lost : t.lost = 0
  unreadable : t.unreadable = true → t.moved = 0
  sum : t.unreadable = false → t.debt = 0 ∧ t.moved ≤ t.asked ∨ t.debt ∈ statusCodes ∧ t.moved = 0

/-- What a single read or write answers: the error, another status with nothing moved, or what it moved. -/
structure Answer (c c' : Caller σ) (stopShort : Bool) (len : Nat) (result : Word) : Prop where
  asked : c'.asked = c.asked
  moved : ∃ got, c'.moved = c.moved+got ∧
    (result = syscallError ∨ IsStatus result ∧ got = 0 ∧ (stopShort = true → len ≤ result.toNat) ∨
      ¬IsStatus result ∧ result.toNat = got ∧ got ≤ userAddressLimit)

/-- No answer is longer than the memory, and a socket takes no more than it is given. -/
structure Devices.Small (D : Devices σ) : Prop where
  read : ∀ s descriptor n bytes, (D.read s descriptor n).2 = some bytes → bytes.length ≤ userAddressLimit
  sendUnix : ∀ s descriptor bytes n, (D.sendUnix s descriptor bytes).2 = some n → n ≤ bytes.length
  sendSocket : ∀ s descriptor bytes n, (D.sendSocket s descriptor bytes).2 = .ok n → n ≤ bytes.length

variable {c : Caller σ} {iovPointer n length descriptor : Nat} {D : Devices σ}
variable {stopShort : Bool}

lemma isStatus_iff (result : Word) : IsStatus result ↔ ∃ code ∈ statusCodes, result.toNat = 2^64-code := by
  have h := result.isLt
  rw [IsStatus,BitVec.toNat_neg]
  simp only [statusCodes,List.mem_cons,List.not_mem_nil,or_false,exists_eq_or_imp,exists_eq_left]
  omega

lemma statusCode_le {code : Nat} (h : code ∈ statusCodes) : 2 ≤ code ∧ code ≤ 50006 := by
  simp only [statusCodes,List.mem_cons,List.not_mem_nil,or_false] at h
  omega

lemma neg_toNat_of_status {result : Word} (h : IsStatus result) : result.toNat+(-result).toNat = 2^64 := by
  have hl := result.isLt
  have hc := statusCode_le h
  rw [BitVec.toNat_neg] at *
  omega

structure Tally.Small (t : Tally) : Prop where
  moved : t.moved ≤ 2^47*16
  debt : t.debt ≤ 50006*16

/-- The loop does what the tally says. -/
lemma vectorLoop_tally {scalar : Caller σ → Nat → Nat → Caller σ × Word}
    (hsc : ∀ c base len, Answer c (scalar c base len).1 stopShort len (scalar c base len).2)
    {index moved asked debt : Nat} {c0 : Caller σ} {total : Word} (hmo : c.moved = c0.moved+moved)
    (ha : c.asked = c0.asked+asked) (ht : total = BitVec.ofNat 64 (moved+(2^64-debt)))
    (hm : moved ≤ 2^47*index) (hd : debt ≤ 50006*index) (hi : index+n ≤ 16) :
    let t := tally scalar stopShort iovPointer n index c moved asked debt
    let r := vectorLoop scalar stopShort iovPointer n index c total
    r.1.moved = c0.moved+t.moved+t.lost ∧ r.1.asked = c0.asked+t.asked ∧ r.2 = t.result ∧ t.Small := by
  have hlim : userAddressLimit = 2^47 := rfl
  induction n generalizing index c moved asked debt total with
  | zero => exact ⟨hmo,ha,ht,by constructor <;> dsimp only [tally] <;> omega⟩
  | succ n ih =>
    rw [vectorLoop,tally]
    cases he : c.mem.copyFromUser ((iovPointer+index*16)%2^64) 16 with
    | none => exact ⟨hmo,ha,rfl,by constructor <;> dsimp only <;> omega⟩
    | some entry =>
      dsimp only
      by_cases hl : (wordAt entry 1).toNat = 0
      · rw [if_pos hl,if_pos hl]
        exact ih hmo ha ht (by omega) (by omega) (by omega)
      rw [if_neg hl,if_neg hl]
      have hs := hsc {c with asked := c.asked+(wordAt entry 1).toNat} (wordAt entry 0).toNat (wordAt entry 1).toNat
      generalize scalar {c with asked := c.asked+(wordAt entry 1).toNat} (wordAt entry 0).toNat
        (wordAt entry 1).toNat = call at hs
      obtain ⟨c',count⟩ := call
      obtain ⟨hsa,got,hgm,hans⟩ := hs
      dsimp only at hsa hgm hans ⊢
      have hg : c'.moved-c.moved = got := by omega
      have ha' : c'.asked = c0.asked+(asked+(wordAt entry 1).toNat) := by omega
      rw [hg]
      by_cases her : count = syscallError
      · rw [if_pos her,if_pos her]
        have hz : total = 0 ↔ moved = debt := by
          rw [ht,← BitVec.toNat_inj,BitVec.toNat_ofNat]
          change (moved+(2^64-debt))%2^64 = 0 ↔ _
          omega
        refine ⟨by dsimp only; omega,ha',?_,by constructor <;> dsimp only <;> omega⟩
        simp only [Tally.result,Bool.false_or,Bool.true_and,beq_iff_eq,← hz,ite_not]
        split_ifs
        · rfl
        · exact ht
      rw [if_neg her,if_neg her]
      obtain hb | ⟨hst,h0,hlen⟩ | ⟨hst,hcount,hgl⟩ := hans
      · exact absurd hb her
      · have hcode := statusCode_le hst
        have hneg := neg_toNat_of_status hst
        rw [if_pos hst,if_neg (by simpa using hlen)]
        refine ih (by omega) ha' ?_ (by omega) (by omega) (by omega)
        rw [ht,← BitVec.toNat_inj,BitVec.toNat_add,BitVec.toNat_ofNat,BitVec.toNat_ofNat]
        omega
      · rw [if_neg hst]
        have hsum : total+count = BitVec.ofNat 64 (moved+got+(2^64-debt)) := by
          rw [ht,← BitVec.toNat_inj,BitVec.toNat_add,BitVec.toNat_ofNat,BitVec.toNat_ofNat]
          omega
        by_cases hsh : (stopShort && count.toNat < (wordAt entry 1).toNat) = true
        · rw [if_pos hsh,if_pos hsh]
          refine ⟨by dsimp only; omega,ha',?_,by constructor <;> dsimp only <;> omega⟩
          simpa [Tally.result] using hsum
        · rw [if_neg hsh,if_neg hsh]
          exact ih (by omega) ha' hsum (by omega) (by omega) (by omega)

lemma vectorLoop_start {scalar : Caller σ → Nat → Nat → Caller σ × Word}
    (hsc : ∀ c base len, Answer c (scalar c base len).1 stopShort len (scalar c base len).2) (c : Caller σ)
    (iovPointer : Nat) {iovcnt : Nat} (hn : iovcnt ≤ 16) :
    let t := tally scalar stopShort iovPointer iovcnt 0 c 0 0 0
    let r := vectorLoop scalar stopShort iovPointer iovcnt 0 c 0
    r.1.moved = c.moved+t.moved+t.lost ∧ r.1.asked = c.asked+t.asked ∧ r.2 = t.result ∧ t.Small :=
  vectorLoop_tally hsc rfl rfl (by decide) (Nat.zero_le _) (Nat.zero_le _) (by omega)

lemma Tally.result_toNat {t : Tally} (hu : t.unreadable = false)
    (hf : ¬(t.failed = true ∧ t.moved = t.debt)) : t.result.toNat = (t.moved+(2^64-t.debt))%2^64 := by
  rw [Tally.result,if_neg (by simpa [hu] using hf),BitVec.toNat_ofNat]

/-- The result is a count exactly if the elements amount to one. -/
lemma counts_iff {c' : Caller σ} {t : Tally} (hm : c'.moved = c.moved+t.moved+t.lost) (ha : c'.asked = c.asked+t.asked)
    (hs : t.Small) (hl : t.lost ≤ userAddressLimit) : Counts c c' t.result ↔ t.Sound := by
  obtain ⟨hmo,hd⟩ := hs
  have hlim : userAddressLimit = 2^47 := rfl
  have herr : IsStatus syscallError := by decide
  have hen : syscallError.toNat = 2^64-2 := by decide
  by_cases hu : t.unreadable = true
  · have hr : t.result = syscallError := by simp [Tally.result,hu]
    rw [Counts,hr,hen]
    refine ⟨fun h => ⟨?_,fun _ => ?_,by simp [hu]⟩,fun h => .inl ⟨herr,?_⟩⟩
    · omega
    · omega
    · have := h.unreadable hu
      have := h.lost
      omega
  have hu : t.unreadable = false := by simpa using hu
  by_cases hf : t.failed = true ∧ t.moved = t.debt
  · have hr : t.result = syscallError := by simp [Tally.result,hf.1,hf.2]
    rw [Counts,hr,hen]
    refine ⟨fun h => ⟨by omega,by simp [hu],fun _ => .inl ⟨by omega,by omega⟩⟩,fun h => .inl ⟨herr,?_⟩⟩
    have h0 := h.lost
    obtain ⟨h1,-⟩ | ⟨-,h1⟩ := h.sum hu
    · omega
    · omega
  have hr := Tally.result_toNat hu hf
  rw [Counts,isStatus_iff,hr]
  constructor
  · intro h
    have hz : t.lost = 0 ∧ (t.debt = 0 ∧ t.moved ≤ t.asked ∨ t.debt ∈ statusCodes ∧ t.moved = 0) := by
      obtain ⟨⟨code,hc,he⟩,h0⟩ | ⟨he,hle⟩ := h
      · have := statusCode_le hc
        have hcd : code = t.debt := by omega
        exact ⟨by omega,.inr ⟨hcd ▸ hc,by omega⟩⟩
      · exact ⟨by omega,.inl ⟨by omega,by omega⟩⟩
    exact ⟨hz.1,by simp [hu],fun _ => hz.2⟩
  · intro h
    have h0 := h.lost
    obtain ⟨h1,h2⟩ | ⟨h1,h2⟩ := h.sum hu
    · exact .inr ⟨by omega,by omega⟩
    · have := statusCode_le h1
      exact .inl ⟨⟨t.debt,h1,by omega⟩,by omega⟩

lemma toNat_ofNat_of_le (h : n ≤ userAddressLimit) : (BitVec.ofNat 64 n).toNat = n := by
  rw [BitVec.toNat_ofNat,Nat.mod_eq_of_lt]
  simp only [userAddressLimit] at h
  omega

lemma answer_of_error {c' : Caller σ} (ha : c'.asked = c.asked) (got : Nat) (hm : c'.moved = c.moved+got) :
    Answer c c' stopShort length syscallError :=
  ⟨ha,got,hm,.inl rfl⟩

lemma answer_of_count {c' : Caller σ} (ha : c'.asked = c.asked) (hm : c'.moved = c.moved+n)
    (hn : n ≤ userAddressLimit) : Answer c c' stopShort length (BitVec.ofNat 64 n) := by
  refine ⟨ha,n,hm,.inr (.inr ⟨?_,toNat_ofNat_of_le hn,hn⟩)⟩
  rw [isStatus_iff,toNat_ofNat_of_le hn]
  rintro ⟨code,hc,he⟩
  have := statusCode_le hc
  simp only [userAddressLimit] at hn
  omega

variable {pointer : Nat}

lemma validateUserBuffer_length {m : UserMemory} {writable : Bool} (h : validateUserBuffer m pointer length writable = true) :
    length ≤ userAddressLimit := by
  simp only [validateUserBuffer,Bool.or_eq_true,beq_iff_eq,Bool.and_eq_true,accessible,decide_eq_true_eq] at h
  omega

lemma copyToUser_length {m m' : UserMemory} {bytes : List UInt8} (h : m.copyToUser pointer bytes = (m',true)) :
    bytes.length ≤ userAddressLimit := by
  obtain ⟨-,hi⟩ := UserMemory.copyToUser_ok h
  cases hl : bytes.length with
  | zero => exact Nat.zero_le _
  | succ n =>
    have := (hi n (by omega)).1
    omega

lemma readUser_answer (D : Devices σ) (descriptor : Nat) (c : Caller σ) (pointer length : Nat) :
    Answer c (readUser D descriptor c pointer length).1 true length (readUser D descriptor c pointer length).2 := by
  rw [readUser]
  by_cases hv : validateUserBuffer c.mem pointer length true = true
  · rw [if_neg (by simp [hv])]
    obtain ⟨dev,answer⟩ := D.read c.dev descriptor (min length 65536)
    cases answer with
    | none => exact answer_of_error rfl 0 rfl
    | some bytes =>
      dsimp only
      by_cases hb : (bytes.isEmpty && D.wouldBlock dev descriptor) = true
      · rw [if_pos hb]
        have h0 : bytes = [] := List.isEmpty_iff.1 (Bool.and_eq_true_iff.1 hb).1
        have hv := validateUserBuffer_length hv
        have hs : IsStatus syscallReturnBlock := by decide
        have hbl : length ≤ syscallReturnBlock.toNat := hv.trans (by decide)
        exact ⟨rfl,0,by simp [h0],.inr (.inl ⟨hs,rfl,fun _ => hbl⟩)⟩
      · rw [if_neg hb]
        rcases hc : c.mem.copyToUser pointer bytes with ⟨mem,ok⟩
        cases ok with
        | false => exact answer_of_error rfl bytes.length rfl
        | true => exact answer_of_count rfl rfl (copyToUser_length hc)
  · rw [if_pos (by simpa using hv)]
    exact answer_of_error rfl 0 rfl

lemma copyFromUser_length {m : UserMemory} {bytes : List UInt8} (h : m.copyFromUser pointer length = some bytes) :
    bytes.length = length := by
  rw [UserMemory.copyFromUser] at h
  split_ifs at h
  induction length generalizing pointer bytes with
  | zero =>
    cases h
    rfl
  | succ length ih =>
    rw [UserMemory.readBytes] at h
    split at h
    · cases h
    · obtain ⟨rest,hr,rfl⟩ := Option.map_eq_some_iff.1 h
      rw [List.length_cons,ih (by omega) hr]

lemma writeUser_answer (hD : D.Small) (descriptor : Nat) (c : Caller σ) (pointer length : Nat) :
    let r := writeUser D descriptor c pointer length
    Answer c r.1 false length r.2 ∧ r.1.moved ≤ c.moved+userAddressLimit := by
  have herr (dev : σ) : Answer c {c with dev} false length syscallError ∧ c.moved ≤ c.moved+userAddressLimit :=
    ⟨answer_of_error rfl 0 rfl,Nat.le_add_right _ _⟩
  rw [writeUser]
  cases hc : c.mem.copyFromUser pointer length with
  | none => exact herr c.dev
  | some bytes =>
    have hlim : userAddressLimit = 2^47 := rfl
    have hl : length ≤ userAddressLimit := by
      rw [UserMemory.copyFromUser] at hc
      split_ifs at hc with hlo
      omega
    have hb : bytes.length ≤ userAddressLimit := copyFromUser_length hc ▸ hl
    have hst (dev : σ) {r : Word} (hr : IsStatus r) :
        Answer c {c with dev} false length r ∧ c.moved ≤ c.moved+userAddressLimit :=
      ⟨⟨rfl,0,rfl,.inr (.inl ⟨hr,rfl,nofun⟩)⟩,Nat.le_add_right _ _⟩
    have hcount (dev : σ) {n : Nat} (hn : n ≤ userAddressLimit) :
        Answer c {c with dev, moved := c.moved+n} false length (BitVec.ofNat 64 n) ∧
          c.moved+n ≤ c.moved+userAddressLimit :=
      ⟨answer_of_count rfl rfl hn,Nat.add_le_add_left hn _⟩
    have hpipe : IsStatus (errno 32) := by decide
    have hagain : IsStatus (errno 11) := by decide
    dsimp only
    split_ifs
    · exact hcount _ hl
    · have hn := hD.sendUnix c.dev descriptor bytes
      generalize D.sendUnix c.dev descriptor bytes = sent at hn
      obtain ⟨dev,_ | n⟩ := sent
      · exact hst dev hpipe
      · exact hcount dev ((hn n rfl).trans hb)
    · have hn := hD.sendSocket c.dev descriptor bytes
      generalize D.sendSocket c.dev descriptor bytes = sent at hn
      obtain ⟨dev,(_ | _ | _) | n⟩ := sent
      · exact hst dev hpipe
      · exact hst dev hagain
      · exact herr dev
      · exact hcount dev ((hn n rfl).trans hb)
    · rcases D.write c.dev descriptor bytes with ⟨dev,_ | _⟩
      · exact herr dev
      · exact hcount dev hl

lemma readUser_moved (hD : D.Small) (descriptor : Nat) (c : Caller σ) (pointer length : Nat) :
    (readUser D descriptor c pointer length).1.moved ≤ c.moved+userAddressLimit := by
  rw [readUser]
  split_ifs
  · exact Nat.le_add_right _ _
  have hsmall := hD.read c.dev descriptor (min length 65536)
  generalize D.read c.dev descriptor (min length 65536) = answer at hsmall
  obtain ⟨dev,answer⟩ := answer
  cases answer with
  | none => exact Nat.le_add_right _ _
  | some bytes =>
    have hl := Nat.add_le_add_left (hsmall bytes rfl) c.moved
    dsimp only
    split_ifs
    · exact hl
    · rcases c.mem.copyToUser pointer bytes with ⟨mem,_ | _⟩ <;> exact hl

lemma tally_lost {scalar : Caller σ → Nat → Nat → Caller σ × Word}
    (hsc : ∀ c base len, (scalar c base len).1.moved ≤ c.moved+userAddressLimit) (c : Caller σ)
    (n index moved asked debt : Nat) :
    (tally scalar stopShort iovPointer n index c moved asked debt).lost ≤ userAddressLimit := by
  induction n generalizing index c moved asked debt with
  | zero => exact Nat.zero_le _
  | succ n ih =>
    rw [tally]
    split
    · exact Nat.zero_le _
    dsimp only
    split_ifs
    · exact ih _ _ _ _ _
    · exact Nat.sub_le_iff_le_add'.2 (hsc _ _ _)
    · exact ih _ _ _ _ _
    · exact Nat.zero_le _
    · exact ih _ _ _ _ _

lemma vectorLoop_counts_iff {scalar : Caller σ → Nat → Nat → Caller σ × Word}
    (hsc : ∀ c base len, Answer c (scalar c base len).1 stopShort len (scalar c base len).2)
    (hmv : ∀ c base len, (scalar c base len).1.moved ≤ c.moved+userAddressLimit) (c : Caller σ)
    {iovcnt : Nat} (hn : iovcnt ≤ 16) : Counts c (vectorLoop scalar stopShort iovPointer iovcnt 0 c 0).1
      (vectorLoop scalar stopShort iovPointer iovcnt 0 c 0).2 ↔
        (tally scalar stopShort iovPointer iovcnt 0 c 0 0 0).Sound := by
  obtain ⟨hm,ha,hr,hs⟩ := vectorLoop_start hsc c iovPointer hn
  rw [hr]
  exact counts_iff hm ha hs (tally_lost hmv c iovcnt 0 0 0 0)

def pipeDevices : Devices (List UInt8) where
  read bytes _ n := (bytes.drop (min n 65536),some (bytes.take (min n 65536)))
  wouldBlock bytes _ := bytes.isEmpty
  write bytes _ _ := (bytes,false)
  isUnix _ _ := false
  isSocket _ _ := false
  sendUnix bytes _ _ := (bytes,none)
  sendSocket bytes _ _ := (bytes,.error .other)

def vectorCaller (pipe : List UInt8) : Caller (List UInt8) where
  mem :=
    { readable := fun _ => true
      writable := fun _ => true
      byte := fun i =>
        if i = 0x1001 then 0x20 else if i = 0x1011 then 0x30 else if i = 0x1008 ∨ i = 0x1018 then 5 else 0}
  dev := pipe
  moved := 0
  asked := 0

lemma pipeDevices_small : pipeDevices.Small where
  read s _ n bytes h := by
    obtain rfl : s.take (min n 65536) = bytes := Option.some.inj h
    rw [List.length_take]
    simp only [userAddressLimit]
    omega
  sendUnix := nofun
  sendSocket := nofun

end Vanta.Syscall
