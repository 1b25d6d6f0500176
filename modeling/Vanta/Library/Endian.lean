import Mathlib.Data.List.GetD
import Mathlib.Algebra.Group.Nat.Defs

namespace Vanta.Library
open List

/-- The `w` low bytes of `v`, lowest first. -/
def leBytes : Nat → Nat → List UInt8
  | 0, _ => []
  | w+1, v => UInt8.ofNat v::leBytes w (v/256)

def ofLe : List UInt8 → Nat
  | [] => 0
  | b::l => b.toNat+256*ofLe l

@[simp] lemma leBytes_length (w v : Nat) : (leBytes w v).length = w := by
  induction w generalizing v with
  | zero => rfl
  | succ w ih => simp [leBytes,ih]

lemma ofLe_leBytes (w v : Nat) : ofLe (leBytes w v) = v%256^w := by
  induction w generalizing v with
  | zero => simp [leBytes,ofLe,Nat.mod_one]
  | succ w ih =>
    have hb : (UInt8.ofNat v).toNat = v%256 := by simp
    rw [leBytes,ofLe,ih,hb,Nat.pow_succ,Nat.mul_comm (256^w),Nat.mod_mul]

lemma ofLe_leBytes_of_lt {w v : Nat} (h : v < 256^w) : ofLe (leBytes w v) = v := by
  rw [ofLe_leBytes,Nat.mod_eq_of_lt h]

lemma ofLe_lt (l : List UInt8) : ofLe l < 256^l.length := by
  induction l with
  | nil => simp [ofLe]
  | cons b l ih =>
    have hb : b.toNat < 256 := b.toNat_lt
    rw [ofLe,length_cons,Nat.pow_succ]
    omega

def wordBytes (ws : List (BitVec 64)) : List UInt8 := ws.flatMap (fun w => leBytes 8 w.toNat)

def wordAt (l : List UInt8) (i : Nat) : BitVec 64 := BitVec.ofNat 64 (ofLe ((l.drop (8*i)).take 8))

@[simp] lemma wordBytes_length (ws : List (BitVec 64)) : (wordBytes ws).length = 8*ws.length := by
  induction ws with
  | nil => rfl
  | cons w ws ih =>
    simp only [wordBytes,flatMap_cons,length_append,leBytes_length,length_cons] at ih ⊢
    omega

lemma wordAt_wordBytes {ws : List (BitVec 64)} (rest : List UInt8) {i : Nat} (h : i < ws.length) :
    wordAt (wordBytes ws++rest) i = ws.getD i 0 := by
  induction ws generalizing i with
  | nil => simp at h
  | cons w ws ih =>
    have hc : wordBytes (w::ws)++rest = leBytes 8 w.toNat++(wordBytes ws++rest) := by
      simp [wordBytes]
    cases i with
    | zero =>
      have hl : (leBytes 8 w.toNat).length = 8 := leBytes_length 8 _
      rw [wordAt,hc,Nat.mul_zero,drop_zero,take_left' hl,ofLe_leBytes_of_lt (by simpa using w.isLt)]
      simp
    | succ i =>
      have hd : (wordBytes (w::ws)++rest).drop (8*(i+1)) = (wordBytes ws++rest).drop (8*i) := by
        rw [hc,Nat.mul_succ,Nat.add_comm,← drop_drop,drop_left' (leBytes_length 8 _)]
      have hi : i < ws.length := by simpa using h
      exact ih hi

end Vanta.Library
