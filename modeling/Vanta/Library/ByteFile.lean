import Mathlib.Data.List.GetD
import Mathlib.Data.List.Range
import Mathlib.Tactic.Ext

/-! Zero-extended byte arrays with windows and overlays. -/

namespace Vanta.Library
open List
variable {i : Nat}

section
variable {f g : Nat → UInt8} {off n : Nat}

def window (f : Nat → UInt8) (off n : Nat) : List UInt8 := (List.range n).map (fun i => f (off+i))

@[simp] lemma window_length : (window f off n).length = n := by simp [window]

@[simp] lemma window_zero : window f off 0 = [] := rfl

lemma window_getElem? (f : Nat → UInt8) (off : Nat) (h : i < n) : (window f off n)[i]? = some (f (off+i)) := by
  simp [window,h]

lemma window_add (m : Nat) : window f off (m+n) = window f off m++window f (off+m) n := by
  simp [window,range_add,Nat.add_assoc]

lemma window_congr {a : Nat} (h : ∀ i, i < n → f (off+i) = g (a+i)) : window f off n = window g a n :=
  map_congr_left (fun i hi => h i (mem_range.1 hi))

lemma window_eq_iff : window f off n = window g off n ↔ ∀ i, off ≤ i → i < off+n → f i = g i := by
  constructor
  · intro h i hi hl
    have hf := window_getElem? f off (show i-off < n by omega)
    rw [h,window_getElem? g off (by omega),Option.some.injEq,Nat.add_sub_cancel' hi] at hf
    exact hf.symm
  · intro h
    refine map_congr_left (fun i hi => h (off+i) (by omega) ?_)
    have := mem_range.1 hi
    omega

/-- `f` with the bytes of `buf` written over it from `off` on. -/
def overlay (f : Nat → UInt8) (off : Nat) (buf : List UInt8) (i : Nat) : UInt8 :=
  if off ≤ i ∧ i < off+buf.length then buf.getD (i-off) 0 else f i

@[simp] lemma overlay_nil : overlay f off [] = f := by
  funext i
  rw [overlay,if_neg (by simp)]

variable {buf : List UInt8}

lemma overlay_of_lt (h : i < off) : overlay f off buf i = f i := by
  rw [overlay,if_neg (by omega)]

lemma overlay_of_ge (h : off+buf.length ≤ i) : overlay f off buf i = f i := by
  rw [overlay,if_neg (by omega)]

lemma overlay_zero (buf : List UInt8) (i : Nat) : overlay (fun _ => 0) 0 buf i = buf.getD i 0 := by
  rw [overlay]
  split_ifs with hi
  · rfl
  · rw [getD_eq_default _ _ (by omega)]

/-- An overlay may be written in two pieces. -/
lemma overlay_append (f : Nat → UInt8) (off : Nat) (a b : List UInt8) :
    overlay f off (a++b) = overlay (overlay f off a) (off+a.length) b := by
  funext i
  simp only [overlay,length_append]
  by_cases hl : i < off
  · rw [if_neg (by omega),if_neg (by omega),if_neg (by omega)]
  by_cases ha : i < off+a.length
  · rw [if_pos (by omega),if_neg (by omega),if_pos (by omega),getD_append _ _ _ _ (by omega)]
  by_cases hb : i < off+a.length+b.length
  · rw [if_pos (by omega),if_pos (by omega),getD_append_right _ _ _ _ (by omega)]
    congr 1
    omega
  · rw [if_neg (by omega),if_neg (by omega),if_neg (by omega)]

end
section
variable {f g : Nat → UInt8} {off a n : Nat} {buf : List UInt8}

/-- Inside an overlay one reads the buffer. -/
lemma window_overlay (h : a+n ≤ buf.length) : window (overlay f off buf) (off+a) n = (buf.drop a).take n := by
  apply ext_getElem?
  intro i
  by_cases hi : i < n
  · rw [window_getElem? _ _ hi,getElem?_take_of_lt hi,getElem?_drop,overlay,
      if_pos (by omega),getElem?_eq_getElem (by omega),getD_eq_getElem _ _ (by omega)]
    congr 2
    omega
  · rw [getElem?_eq_none (by rw [window_length]; omega),getElem?_eq_none]
    rw [length_take]
    omega

/-- An overlay seen from another origin. -/
lemma overlay_shift (h : ¬(off ≤ i ∧ i < off+buf.length) → f i = g (a+i)) :
    overlay f off buf i = overlay g (a+off) buf (a+i) := by
  by_cases hi : off ≤ i ∧ i < off+buf.length
  · rw [overlay,overlay,if_pos hi,if_pos (by omega)]
    congr 1
    omega
  · rw [overlay,overlay,if_neg hi,if_neg (by omega)]
    exact h hi

lemma overlay_getElem? (f : Nat → UInt8) (off : Nat) (h : i < buf.length) :
    some (overlay f off buf (off+i)) = buf[i]? := by
  rw [overlay,if_pos (by omega),getElem?_eq_getElem h,Nat.add_sub_cancel_left,getD_eq_getElem _ _ h]

end

/-- Windows of `n` bytes, one after the other. -/
lemma getD_flatMap_window {α : Type} (g : α → Nat → UInt8) (n : Nat) (l : List α) {j o : Nat} {x : α}
    (hx : l[j]? = some x) (ho : o < n) : (l.flatMap (fun y => window (g y) 0 n)).getD (j*n+o) 0 = g x o := by
  induction l generalizing j with
  | nil => simp at hx
  | cons y l ih =>
    rw [flatMap_cons]
    cases j with
    | zero =>
      obtain rfl : y = x := by simpa using hx
      rw [Nat.zero_mul,Nat.zero_add,getD_append _ _ _ _ (by simpa using ho),getD_eq_getElem?_getD,
        window_getElem? _ _ ho,Option.getD_some,Nat.zero_add]
    | succ j =>
      rw [getD_append_right _ _ _ _ (by rw [window_length,Nat.succ_mul]; omega),window_length,
        show (j+1)*n+o-n = j*n+o by rw [Nat.succ_mul]; omega]
      exact ih (by simpa using hx)

lemma length_flatMap_window {α : Type} (g : α → Nat → UInt8) (n : Nat) (l : List α) :
    (l.flatMap (fun y => window (g y) 0 n)).length = l.length*n := by
  induction l with
  | nil => simp
  | cons y l ih => simp [ih,Nat.succ_mul,Nat.add_comm]

/-- A byte array of a given size that reads as zero beyond it. -/
@[ext] structure ByteFile where
  size : Nat
  byte : Nat → UInt8
  zero : ∀ i, size ≤ i → byte i = 0

namespace ByteFile

def empty : ByteFile := ⟨0,fun _ => 0,fun _ _ => rfl⟩

variable (a : ByteFile)

/-- Overwrite from `off` on, growing the array with zeros up to there; an empty write does nothing. -/
def write (off : Nat) (buf : List UInt8) : ByteFile where
  size := if buf = [] then a.size else max a.size (off+buf.length)
  byte := overlay a.byte off buf
  zero i hi := by
    by_cases hb : buf = []
    · subst hb
      simpa using a.zero i (by simpa using hi)
    rw [if_neg hb] at hi
    rw [overlay_of_ge (by omega)]
    exact a.zero i (by omega)

@[simp] lemma write_byte (off : Nat) (buf : List UInt8) : (a.write off buf).byte = overlay a.byte off buf := rfl

@[simp] lemma write_nil (off : Nat) : a.write off [] = a := by
  ext i <;> simp [write]

/-- Cut to `n` bytes, or grow to `n` bytes with zeros. -/
def truncate (n : Nat) : ByteFile where
  size := n
  byte i := if i < n then a.byte i else 0
  zero i hi := if_neg (by omega)

@[simp] lemma truncate_zero : a.truncate 0 = empty := by
  ext i <;> simp [truncate,empty]

@[simp] lemma write_empty_size (buf : List UInt8) : (empty.write 0 buf).size = buf.length := by
  cases buf <;> simp [write,empty]

lemma write_empty_byte (buf : List UInt8) (i : Nat) : (empty.write 0 buf).byte i = buf.getD i 0 :=
  overlay_zero buf i

/-- At most `n` bytes from `off` on, as many as there are. -/
def read (off n : Nat) : List UInt8 := window a.byte off (min n (a.size-off))

lemma getD_read (off n i : Nat) : (a.read off n).getD i 0 = if i < n then a.byte (off+i) else 0 := by
  by_cases hi : i < min n (a.size-off)
  · rw [getD_eq_getElem?_getD,read,window_getElem? _ _ hi,if_pos (by omega),Option.getD_some]
  rw [getD_eq_default _ _ (by rw [read,window_length]; omega)]
  split_ifs with hn
  · exact (a.zero _ (by omega)).symm
  · rfl

end ByteFile
end Vanta.Library
