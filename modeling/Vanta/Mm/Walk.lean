import Vanta.Mm.Entry

namespace Vanta.Mm
open BitVec

structure Translation where
  physicalAddress : Entry
  pageSize : Nat
  deriving DecidableEq

def addressMask2m : Entry := 0x000fffffffe00000#64
def addressMask1g : Entry := 0x000fffc000000000#64

def tableIndex (va : Entry) (shift : Nat) : Nat := (va >>> shift &&& 0x1ff).toNat

def translateIn (mem : Entry → Nat → Entry) (pml4 va : Entry) : Option Translation :=
  let e := mem pml4 (tableIndex va 39)
  if !hasFlag e flagPresent then none
  else
    let e := mem (e &&& addressMask) (tableIndex va 30)
    if !hasFlag e flagPresent then none
    else if hasFlag e flagHugePage then some ⟨e &&& addressMask1g ||| va &&& (bit 30-1),2^30⟩
    else
      let e := mem (e &&& addressMask) (tableIndex va 21)
      if !hasFlag e flagPresent then none
      else if hasFlag e flagHugePage then some ⟨e &&& addressMask2m ||| va &&& (bit 21-1),2^21⟩
      else
        let e := mem (e &&& addressMask) (tableIndex va 12)
        if !hasFlag e flagPresent then none
        else some ⟨e &&& addressMask ||| va &&& (bit 12-1),2^12⟩

/-- Bits 51 down to `shift` of the entry, above the low bits of `va`. -/
def fields (e va : Entry) (shift : Nat) : Entry := (e.extractLsb' shift (52-shift)++va.extractLsb' 0 shift).setWidth 64

/-- The walk that the architecture defines, from the level of the first shift on. -/
def hardwareWalk (mem : Entry → Nat → Entry) (va : Entry) : List Nat → Entry → Option Translation
  | [], _ => none
  | shift::rest, table =>
    let e := mem table (va.extractLsb' shift 9).toNat
    if !e.getLsbD 0 then none
    else if rest = [] ∨ shift ≤ 30 ∧ e.getLsbD 7 = true then some ⟨fields e va shift,2^shift⟩
    else hardwareWalk mem va rest (fields e 0 12)

lemma tableIndex_eq (va : Entry) (shift : Nat) : tableIndex va shift = (va.extractLsb' shift 9).toNat := by
  exact Nat.and_two_pow_sub_one_eq_mod _ 9

lemma fields_eq (e va mask low : Entry) (shift : Nat) (hs : shift ≤ 52)
    (hma : ∀ i : Fin 64, mask.getLsbD i = decide (shift ≤ i.val ∧ i.val < 52))
    (hlo : ∀ i : Fin 64, low.getLsbD i = decide (i.val < shift)) : e &&& mask ||| va &&& low = fields e va shift := by
  apply eq_of_getLsbD_eq
  intro i hi
  have hm := hma ⟨i,hi⟩
  have hl := hlo ⟨i,hi⟩
  rw [getLsbD_or,getLsbD_and,getLsbD_and,hm,hl,fields,getLsbD_setWidth,getLsbD_append]
  by_cases h : i < shift
  · simp [h,hi,not_le.2 h]
  have hsu : i-shift < 52-shift ↔ i < 52 := by omega
  have ha : shift+(i-shift) = i := by omega
  simp [h,hi,not_lt.1 h,hsu,ha,Bool.and_comm]

lemma table_eq (e : Entry) : e &&& addressMask = fields e 0 12 := by
  rw [← fields_eq e 0 addressMask 0xfff 12 (by decide) (by decide) (by decide)]
  simp

/-- The mask of the code leaves out bits 30 to 37 of the address. -/
lemma address1g_eq_iff (e va : Entry) :
    e &&& addressMask1g ||| va &&& (bit 30-1) = fields e va 30 ↔ e.extractLsb' 30 8 = 0 := by
  rw [← fields_eq e va 0x000fffffc0000000 (bit 30-1) 30 (by decide) (by decide) (by decide)]
  constructor
  · intro h
    apply eq_of_getLsbD_eq
    intro i hi
    have hb := congrArg (fun x => x.getLsbD (30+i)) h
    have hm : ∀ j : Fin 8, addressMask1g.getLsbD (30+j) = false ∧ (bit 30-1).getLsbD (30+j) = false ∧
        (0x000fffffc0000000 : Entry).getLsbD (30+j) = true := by decide
    obtain ⟨h0,h1,h2⟩ := hm ⟨i,hi⟩
    simp only [getLsbD_or,getLsbD_and,h0,h1,h2,Bool.and_false,Bool.and_true,Bool.or_false] at hb
    simp [hi,← hb]
  intro h
  congr 1
  apply eq_of_getLsbD_eq
  intro i hi
  rw [getLsbD_and,getLsbD_and]
  have hm : ∀ j : Fin 64, ¬(30 ≤ j.val ∧ j.val < 38) →
      addressMask1g.getLsbD j = (0x000fffffc0000000 : Entry).getLsbD j := by decide
  by_cases hb : 30 ≤ i ∧ i < 38
  · have hz := congrArg (fun x => x.getLsbD (i-30)) h
    have ha : 30+(i-30) = i := by omega
    have hl : i-30 < 8 := by omega
    simp only [getLsbD_extractLsb',ha,hl,decide_true,Bool.true_and] at hz
    simp [hz]
  · rw [hm ⟨i,hi⟩ hb]

/-- The walks agree exactly if no 1 GiB page is at an address with one of the bits 30 to 37. -/
theorem translateIn_eq_hardware (mem : Entry → Nat → Entry) (pml4 va : Entry) :
    translateIn mem pml4 va = hardwareWalk mem va [39,30,21,12] pml4 ↔
      let first := mem pml4 (tableIndex va 39)
      let e := mem (first &&& addressMask) (tableIndex va 30)
      hasFlag first flagPresent = true → hasFlag e flagPresent = true → hasFlag e flagHugePage = true →
        e.extractLsb' 30 8 = 0 := by
  have h1 : ∀ e, fields e 0 12 ||| va &&& (bit 12-1) = fields e va 12 := fun e => by
    rw [← table_eq,fields_eq e va addressMask (bit 12-1) 12 (by decide) (by decide) (by decide)]
  have h2 : ∀ e, e &&& addressMask2m ||| va &&& (bit 21-1) = fields e va 21 := fun e =>
    fields_eq e va addressMask2m (bit 21-1) 21 (by decide) (by decide) (by decide)
  simp only [translateIn,hardwareWalk,tableIndex_eq,table_eq,flagPresent,flagHugePage,hasFlag_bit,h1,h2,
    reduceCtorEq,false_or,true_or,if_true,Nat.reduceLeDiff,true_and,false_and,if_false]
  generalize mem (fields (mem pml4 (va.extractLsb' 39 9).toNat) 0 12) (va.extractLsb' 30 9).toNat = e
  generalize mem pml4 (va.extractLsb' 39 9).toNat = first
  cases first.getLsbD 0 with
  | false => simp
  | true =>
    cases e.getLsbD 0 with
    | false => simp
    | true =>
      cases e.getLsbD 7 with
      | false => simp
      | true => simpa using address1g_eq_iff e va

theorem translateIn_eq_hardware_at_page : translateIn (fun _ _ => 0x8000000000005f7f) 0 0x7ffffffff123 =
      hardwareWalk (fun _ _ => 0x8000000000005f7f) 0x7ffffffff123 [39,30,21,12] 0 :=
  (translateIn_eq_hardware _ _ _).2 (by decide)

theorem huge_page_misread : translateIn (fun _ _ => 0x40000083) 0 0x1234 = some ⟨0x1234,2^30⟩ ∧
      hardwareWalk (fun _ _ => 0x40000083) 0x1234 [39,30,21,12] 0 = some ⟨0x40001234,2^30⟩ := by
  decide

end Vanta.Mm
