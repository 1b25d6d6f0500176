import Mathlib.Data.Nat.Basic
import Mathlib.Tactic.NormNum

/-! The ones' complement sum of 16-bit words. -/

namespace Vanta.Library

/-- The sum of the big-endian words of a byte string; an odd byte at the end is the high byte of a word. -/
def wordSum : List UInt8 → Nat
  | [] => 0
  | [b] => b.toNat*256
  | a::b::rest => a.toNat*256+b.toNat+wordSum rest

lemma wordSum_append {l : List UInt8} (h : l.length%2 = 0) (l' : List UInt8) : wordSum (l++l') = wordSum l+wordSum l' := by
  induction l using wordSum.induct with
  | case1 => simp [wordSum]
  | case2 b => simp at h
  | case3 a b rest ih =>
    simp only [List.length_cons] at h
    simp only [List.cons_append,wordSum,ih (by omega)]
    omega

lemma wordSum_le (l : List UInt8) : wordSum l ≤ 65535*((l.length+1)/2) := by
  induction l using wordSum.induct with
  | case1 => simp [wordSum]
  | case2 b =>
    have := b.toNat_lt
    simp only [wordSum,List.length_cons,List.length_nil]
    omega
  | case3 a b rest ih =>
    have := a.toNat_lt
    have := b.toNat_lt
    simp only [wordSum,List.length_cons]
    omega

/-- The carries are added to the low word, `fuel` times at most. -/
def foldCarries : Nat → Nat → Nat
  | 0, n => n
  | fuel+1, n => if n/65536 = 0 then n else foldCarries fuel (n%65536+n/65536)

lemma foldCarries_mod (fuel n : Nat) : foldCarries fuel n%65535 = n%65535 := by
  induction fuel generalizing n with
  | zero => rfl
  | succ fuel ih =>
    rw [foldCarries]
    split_ifs with h
    · rfl
    · rw [ih]
      omega

variable {fuel n : Nat}

lemma foldCarries_pos (h : 0 < n) : 0 < foldCarries fuel n := by
  induction fuel generalizing n with
  | zero => exact h
  | succ fuel ih =>
    rw [foldCarries]
    split_ifs with hl
    · exact h
    · exact ih (by omega)

lemma foldCarries_of_lt (h : n < 65536) : foldCarries fuel n = n := by
  cases fuel with
  | zero => rfl
  | succ fuel => rw [foldCarries,if_pos (by omega)]

/-- Two turns are enough for a sum of 32 bits. -/
lemma foldCarries_lt (h : n < 2^32) : foldCarries (fuel+2) n < 65536 := by
  rw [foldCarries]
  split_ifs with hl
  · omega
  rw [foldCarries]
  split_ifs with hl'
  · omega
  · rw [foldCarries_of_lt (by omega)]
    omega

/-- A sum that is a positive multiple of 65535 folds to all ones. -/
lemma foldCarries_ones (h : n < 2^32) (hp : 0 < n) (hm : n%65535 = 0) : foldCarries (fuel+2) n = 65535 := by
  have hl := @foldCarries_lt fuel n h
  have hk := foldCarries_mod (fuel+2) n
  have hn := @foldCarries_pos (fuel+2) n hp
  omega

end Vanta.Library
