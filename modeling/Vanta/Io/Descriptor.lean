import Mathlib.Data.BitVec

namespace Vanta.Io
open List

abbrev Rights := BitVec 32

namespace Rights

def read : Rights := 1
def write : Rights := 2
def transfer : Rights := 8
def connect : Rights := 128

def contains (rights required : Rights) : Bool := rights &&& required == required

end Rights

/-- What a descriptor refers to, by the identity of its shared cell. -/
inductive DescriptorResource where
  | file (id : Nat)
  | directory (id : Nat)
  | serial
  | tty
  | pipeRead (id : Nat)
  | pipeWrite (id : Nat)
  | socket (id : Nat)
  | afUnix (id : Nat)
  | ipc (id : Nat)
  | epoll (id : Nat)
  | eventFd (id : Nat)
  | signalFd (id : Nat)
  | ptyMaster (id : Nat)
  | ptySlave (id : Nat)
  deriving DecidableEq

structure FileDescriptor where
  capability : Nat
  rights : Rights
  resource : DescriptorResource
  deriving DecidableEq

abbrev Table := List (Option FileDescriptor)

namespace Table

def maxDescriptors : Nat := 256

def currentDescriptor (l : Table) (fd : Nat) : Option FileDescriptor := l[fd]?.join

def installDescriptor (l : Table) (d : FileDescriptor) : Option (Table × Nat) :=
  match l.findIdx? Option.isNone with
  | some i => some (l.set i (some d),i)
  | none => if l.length = maxDescriptors then none else some (l++[some d],l.length)

@[simp] lemma currentDescriptor_set (l : Table) (i fd : Nat) (d : Option FileDescriptor) (h : i < l.length) :
    (Table.currentDescriptor (l.set i d) fd) = if fd = i then d else l.currentDescriptor fd := by
  rw [currentDescriptor,getElem?_set]
  by_cases hf : fd = i
  · simp [hf,h]
  · simp [hf,Ne.symm hf,currentDescriptor]

lemma currentDescriptor_of_ge {l : Table} {fd : Nat} (h : l.length ≤ fd) : l.currentDescriptor fd = none := by
  simp [currentDescriptor,getElem?_eq_none h]

lemma currentDescriptor_append (l l' : Table) (fd : Nat) : Table.currentDescriptor (l++l') fd =
      if fd < l.length then l.currentDescriptor fd else Table.currentDescriptor l' (fd-l.length) := by
  rw [currentDescriptor,getElem?_append]
  split_ifs <;> rfl

lemma installDescriptor_spec {l l' : Table} {d : FileDescriptor} {new : Nat}
    (h : l.installDescriptor d = some (l',new)) :
    l.currentDescriptor new = none ∧ (∀ i, i < new → l.currentDescriptor i ≠ none) ∧
      ∀ fd, Table.currentDescriptor l' fd = if fd = new then some d else l.currentDescriptor fd := by
  rw [installDescriptor] at h
  split at h
  · next i hi =>
    obtain ⟨rfl,rfl⟩ := Prod.mk.inj (Option.some.inj h)
    obtain ⟨hl,hn,hb⟩ := findIdx?_eq_some_iff_getElem.1 hi
    refine ⟨?_,fun j hj => ?_,fun fd => currentDescriptor_set l i fd (some d) hl⟩
    · rw [currentDescriptor,getElem?_eq_getElem hl,Option.isNone_iff_eq_none.1 hn]
      rfl
    have hs := hb j hj
    rw [currentDescriptor,getElem?_eq_getElem (hj.trans hl),Option.join_some]
    simpa using hs
  next hf =>
  split_ifs at h
  cases h
  refine ⟨currentDescriptor_of_ge le_rfl,fun i hi => ?_,fun fd => ?_⟩
  · have hs := findIdx?_eq_none_iff.1 hf l[i] (getElem_mem hi)
    rw [currentDescriptor,getElem?_eq_getElem hi,Option.join_some]
    simpa [Option.isSome_iff_ne_none] using hs
  rw [currentDescriptor_append]
  rcases Nat.lt_trichotomy fd l.length with hl | rfl | hg
  · simp [hl,Nat.ne_of_lt hl]
  · simp [currentDescriptor]
  have hge : l.length ≤ fd := Nat.le_of_lt hg
  rw [if_neg (Nat.not_lt.2 hge),if_neg (Nat.ne_of_gt hg),currentDescriptor_of_ge hge]
  exact currentDescriptor_of_ge (Nat.sub_pos_of_lt hg)

end Table
end Vanta.Io
