import Vanta.Memory.Buddy

/-! Page-table entries. A frame's number is its address divided by the page size. -/

namespace Vanta.Mm
open Memory BitVec

abbrev Entry := BitVec 64

def bit (i : Nat) : Entry := 1#64 <<< i

def flagPresent : Entry := bit 0
def mapWritable : Entry := bit 1
def mapUser : Entry := bit 2
def flagAccessed : Entry := bit 5
/-- Set by the processor on a store; the kernel never reads it. -/
def flagDirty : Entry := bit 6
def flagHugePage : Entry := bit 7
def mapCow : Entry := bit 9
def mapSwapped : Entry := bit 10
def mapNoExecute : Entry := bit 63
def addressMask : Entry := 0x000ffffffffff000#64
def slotMask : Entry := 0x000fffff#64

def hasFlag (e flag : Entry) : Bool := e &&& flag != 0

variable (e : Entry)

def frameOf : Nat := (e &&& addressMask).toNat / pageSize

def frameBits (f : Nat) : Entry := BitVec.ofNat 64 (f*pageSize) &&& addressMask

def flagsOf : Entry := e &&& ~~~addressMask

def slotOf : Nat := ((e >>> 12) &&& slotMask).toNat

def slotBits (slot : Nat) : Entry := (BitVec.ofNat 64 slot &&& slotMask) <<< 12

lemma hasFlag_bit (i : Nat) : hasFlag e (bit i) = e.getLsbD i := by
  have ht : bit i = BitVec.twoPow 64 i := rfl
  rw [hasFlag,ht,and_twoPow]
  cases h : e.getLsbD i with
  | false => simp
  | true =>
    have hi : i < 64 := lt_of_getLsbD h
    have hn : BitVec.twoPow 64 i ≠ 0#64 := by
      intro hz
      have := congrArg (fun x => x.getLsbD i) hz
      simp [hi] at this
    simpa using hn

lemma getLsbD_bit (i j : Nat) (hj : j < 64) : (bit i).getLsbD j = decide (i = j) := by
  have ht : bit i = BitVec.twoPow 64 i := rfl
  rw [ht,getLsbD_twoPow,Bool.and_eq_decide]
  by_cases h : i = j
  · simp [h,hj]
  · simp [h]

def FlagBit (i : Nat) : Prop := i < 12 ∨ (52 ≤ i ∧ i < 64)

instance : DecidablePred FlagBit := fun i => inferInstanceAs (Decidable (i < 12 ∨ (52 ≤ i ∧ i < 64)))

lemma getLsbD_addressMask (i : Nat) : addressMask.getLsbD i = decide (12 ≤ i ∧ i < 52) := by
  by_cases hi : i < 64
  · have ha : ∀ j : Fin 64, addressMask.getLsbD j = decide (12 ≤ j.val ∧ j.val < 52) := by decide
    exact ha ⟨i,hi⟩
  rw [getLsbD_of_ge _ _ (by omega)]
  simp only [false_eq_decide_iff]
  omega

@[simp] lemma hasFlag_or (a b : Entry) (i : Nat) :
    hasFlag (a ||| b) (bit i) = (hasFlag a (bit i) || hasFlag b (bit i)) := by
  simp [hasFlag_bit]

@[simp] lemma hasFlag_and (a b : Entry) (i : Nat) :
    hasFlag (a &&& b) (bit i) = (hasFlag a (bit i) && hasFlag b (bit i)) := by
  simp [hasFlag_bit]

variable {i : Nat}

lemma hasFlag_not (a : Entry) (hi : i < 64) : hasFlag (~~~a) (bit i) = !hasFlag a (bit i) := by
  simp [hasFlag_bit,hi]

@[simp] lemma hasFlag_zero (i : Nat) : hasFlag 0 (bit i) = false := by
  simp [hasFlag_bit]

lemma hasFlag_bit_bit (i : Nat) {j : Nat} (hj : j < 64) : hasFlag (bit i) (bit j) = decide (i = j) := by
  rw [hasFlag_bit,getLsbD_bit i j hj]

lemma hasFlag_address (e : Entry) {i : Nat} (hi : FlagBit i) : hasFlag (e &&& addressMask) (bit i) = false := by
  rw [hasFlag_bit,getLsbD_and,getLsbD_addressMask,decide_eq_false,Bool.and_false]
  rcases hi with hi | hi <;> omega

lemma hasFlag_frameBits (f : Nat) (hi : FlagBit i) : hasFlag (frameBits f) (bit i) = false :=
  hasFlag_address _ hi

lemma hasFlag_flagsOf (hi : FlagBit i) : hasFlag (flagsOf e) (bit i) = hasFlag e (bit i) := by
  have hl : i < 64 := by
    rcases hi with hi | hi <;> omega
  have hm : addressMask.getLsbD i = false := by
    rw [getLsbD_addressMask,decide_eq_false]
    rcases hi with hi | hi <;> omega
  rw [flagsOf,hasFlag_bit,hasFlag_bit,getLsbD_and,getLsbD_not,hm]
  simp [hl]

lemma hasFlag_slotBits (slot : Nat) (hi : FlagBit i) : hasFlag (slotBits slot) (bit i) = false := by
  have ha : ∀ j, 32 ≤ j+12 → slotMask.getLsbD j = false := by
    intro j hj
    by_cases hl : j < 64
    · have hd : ∀ x : Fin 64, 20 ≤ x.val → slotMask.getLsbD x = false := by decide
      exact hd ⟨j,hl⟩ (by simp only; omega)
    · exact getLsbD_of_ge _ _ (by omega)
  rw [slotBits,hasFlag_bit,getLsbD_shiftLeft]
  rcases hi with hi | hi
  · simp [hi]
  · rw [getLsbD_and,ha (i-12) (by omega)]
    simp

def NoAddress : Prop := e &&& addressMask = 0

instance : DecidablePred NoAddress := fun e => inferInstanceAs (Decidable (e &&& addressMask = 0))

lemma noAddress_iff {e : Entry} : NoAddress e ↔ ∀ i, 12 ≤ i → i < 52 → e.getLsbD i = false := by
  constructor
  · intro h i hl hh
    have := congrArg (fun x => x.getLsbD i) h
    simpa [getLsbD_addressMask,hl,hh] using this
  intro h
  apply eq_of_getLsbD_eq
  intro i hi
  rw [getLsbD_and,getLsbD_addressMask]
  by_cases hin : 12 ≤ i ∧ i < 52
  · simp [h i hin.1 hin.2]
  · simp [hin]

variable {a b : Entry}

lemma NoAddress.or (ha : NoAddress a) (hb : NoAddress b) : NoAddress (a ||| b) := by
  rw [noAddress_iff] at *
  intro i hl hh
  simp [ha i hl hh,hb i hl hh]

lemma NoAddress.and (ha : NoAddress a) (b : Entry) : NoAddress (a &&& b) := by
  rw [noAddress_iff] at *
  intro i hl hh
  simp [ha i hl hh]

lemma noAddress_flagsOf : NoAddress (flagsOf e) := by
  rw [noAddress_iff]
  intro i hl hh
  simp [flagsOf,getLsbD_addressMask,hl,hh]

lemma noAddress_bit (hi : FlagBit i) : NoAddress (bit i) := by
  rw [noAddress_iff]
  intro j hl hh
  rw [getLsbD_bit i j (by omega)]
  rcases hi with hi | hi <;> simp <;> omega

lemma frameOf_or (hb : NoAddress b) : frameOf (a ||| b) = frameOf a := by
  have ha : (a ||| b) &&& addressMask = a &&& addressMask := by
    apply eq_of_getLsbD_eq
    intro i hi
    have hbi := congrArg (fun x => x.getLsbD i) hb
    simp only [getLsbD_and,getLsbD_or] at hbi ⊢
    cases hm : addressMask.getLsbD i with
    | false => simp
    | true =>
      rw [hm,Bool.and_true] at hbi
      simp [hbi]
  rw [frameOf,ha,← frameOf]

lemma frameOf_address : frameOf (e &&& addressMask) = frameOf e := by
  rw [frameOf,BitVec.and_assoc,BitVec.and_self,← frameOf]

lemma frameOf_frameBits {f : Nat} (hf : f < 2^40) : frameOf (frameBits f) = f := by
  have hm : BitVec.ofNat 64 (f*pageSize) &&& addressMask = BitVec.ofNat 64 (f*pageSize) := by
    apply eq_of_getLsbD_eq
    intro i hi
    rw [getLsbD_and,getLsbD_addressMask,getLsbD_ofNat,pageSize,show 4096 = 2^12 from rfl,Nat.testBit_mul_two_pow]
    by_cases hl : 12 ≤ i
    · by_cases hh : i < 52
      · simp [hl,hh]
      have : f.testBit (i-12) = false :=
        Nat.testBit_lt_two_pow (lt_of_lt_of_le hf (Nat.pow_le_pow_right (by decide) (by omega)))
      simp [this]
    · simp [hl]
  rw [frameBits,frameOf_address,frameOf,hm,toNat_ofNat]
  simp only [pageSize]
  omega

lemma frameOf_clear (hi : FlagBit i) : frameOf (e &&& ~~~bit i) = frameOf e := by
  have ha : e &&& ~~~bit i &&& addressMask = e &&& addressMask := by
    apply eq_of_getLsbD_eq
    intro j hj
    have hb := noAddress_iff.1 (noAddress_bit hi) j
    simp only [getLsbD_and,getLsbD_not,getLsbD_addressMask,hj,decide_true,Bool.true_and]
    by_cases hin : 12 ≤ j ∧ j < 52
    · simp [hb hin.1 hin.2]
    · simp [hin]
  rw [frameOf,ha,← frameOf]

end Vanta.Mm
