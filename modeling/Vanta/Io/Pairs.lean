import Vanta.Io.Descriptor

namespace Vanta.Io
open List

def Table.free (l : Table) : Nat := l.count none+(Table.maxDescriptors-l.length)

/-- `nextId` names the next shared cell and `ptys` lists the pty table, each pty with its cell. -/
structure Opener where
  table : Table
  nextCapability : Nat
  nextId : Nat
  nextPtyId : Nat
  ptys : List (Nat × Nat)

inductive PairCall where
  | socketpair (domain socketType : Nat)
  | pipe
  | pty
  | ipcPair
  deriving DecidableEq

namespace Opener

def installDescriptor (k : Opener) (rights : Rights) (resource : DescriptorResource) : Opener × Option Nat :=
  match k.table.installDescriptor ⟨k.nextCapability%2^32,rights,resource⟩ with
  | some (table,fd) => ({k with table := table, nextCapability := k.nextCapability+1},some fd)
  | none => ({k with nextCapability := k.nextCapability+1},none)

variable (k : Opener)

def installPair (first second : Rights × DescriptorResource) : Opener × Option (Nat × Nat) :=
  match k.installDescriptor first.1 first.2 with
  | (k,none) => (k,none)
  | (k,some fd) =>
    match k.installDescriptor second.1 second.2 with
    | (k,none) => (k,none)
    | (k,some fd') => (k,some (fd,fd'))

def socketpairCurrent (domain socketType : Nat) : Opener × Option (Nat × Nat) :=
  if domain ≠ 1 then (k,none)
  else if socketType%16 = 1 ∨ socketType%16 = 2 then
    let rights := .read ||| .write ||| .transfer ||| .connect
    installPair {k with nextId := k.nextId+2} (rights,.afUnix k.nextId) (rights,.afUnix (k.nextId+1))
  else (k,none)

def openPipeCurrent : Opener × Option (Nat × Nat) :=
  installPair {k with nextId := k.nextId+2} (.read ||| .transfer,.pipeRead k.nextId)
    (.write ||| .transfer,.pipeWrite (k.nextId+1))

def createPty : Opener :=
  {k with
    nextId := k.nextId+1, nextPtyId := (k.nextPtyId+1)%2^32
    ptys := (k.nextPtyId,k.nextId)::k.ptys.filter (·.1 ≠ k.nextPtyId)}

def openPtyCurrent : Opener × Option (Nat × Nat) :=
  let rights := .read ||| .write ||| .transfer
  installPair k.createPty (rights,.ptyMaster k.nextId) (rights,.ptySlave k.nextId)

def openIpcPairCurrent : Opener × Option (Nat × Nat) :=
  installPair {k with nextId := k.nextId+2} (.write ||| .transfer,.ipc k.nextId)
    (.read ||| .transfer,.ipc (k.nextId+1))

def openPair : PairCall → Opener × Option (Nat × Nat)
  | .socketpair domain socketType => k.socketpairCurrent domain socketType
  | .pipe => k.openPipeCurrent
  | .pty => k.openPtyCurrent
  | .ipcPair => k.openIpcPairCurrent

/-- A failed call leaves the descriptors and the ptys as they were, a successful one fills two free places. -/
def Atomic (result : Opener × Option (Nat × Nat)) : Prop :=
  match result.2 with
  | none => result.1.table = k.table ∧ result.1.ptys = k.ptys
  | some (fd,fd') => fd ≠ fd' ∧ k.table.currentDescriptor fd = none ∧ k.table.currentDescriptor fd' = none ∧
      ∃ d d', ∀ i, result.1.table.currentDescriptor i =
        if i = fd' then some d' else if i = fd then some d else k.table.currentDescriptor i

end Opener

/-- The call gets as far as to open the two ends. -/
def PairCall.Opens : PairCall → Prop
  | .socketpair domain socketType => domain = 1 ∧ (socketType%16 = 1 ∨ socketType%16 = 2)
  | _ => True

/-- The table is no longer than the kernel lets it grow, and the next cell is a new one. -/
structure Opener.Valid (k : Opener) : Prop where
  bounded : k.table.length ≤ Table.maxDescriptors
  fresh : ∀ p ∈ k.ptys, p.2 < k.nextId

lemma Table.installDescriptor_none {l : Table} {d : FileDescriptor} (h : l.installDescriptor d = none) :
    l.free = 0 := by
  rw [Table.installDescriptor] at h
  split at h
  · cases h
  next hf =>
  split_ifs at h with hl
  have hc : l.count none = 0 := count_eq_zero.2 fun hm => by simpa using findIdx?_eq_none_iff.1 hf none hm
  rw [Table.free,hl,hc,Nat.sub_self]

lemma Table.installDescriptor_free {l l' : Table} {d : FileDescriptor} {fd : Nat}
    (hl : l.length ≤ Table.maxDescriptors) (h : l.installDescriptor d = some (l',fd)) :
    l'.free+1 = l.free ∧ l'.length ≤ Table.maxDescriptors := by
  rw [Table.installDescriptor] at h
  split at h
  · next i hi =>
    cases h
    obtain ⟨hlt,hn,-⟩ := findIdx?_eq_some_iff_getElem.1 hi
    have hn := Option.isNone_iff_eq_none.1 hn
    have hp : 0 < l.count none := count_pos_iff.2 (hn ▸ getElem_mem hlt)
    have hc : (l.set fd (some d)).count none = l.count none-1 := by rw [count_set hlt]; simp [hn]
    rw [Table.free,Table.free,hc,length_set]
    exact ⟨by omega,hl⟩
  · next hf =>
    split_ifs at h with he
    cases h
    have hc : (l++[some d]).count none = l.count none := by simp
    rw [Table.free,Table.free,hc,length_append,length_singleton]
    omega

namespace Opener
variable {k : Opener}

/-- What the two installations do: the second one fails alone if a single place is free. -/
lemma installPair_cases (hv : k.table.length ≤ Table.maxDescriptors) (first second : Rights × DescriptorResource) :
    let r := k.installPair first second
    r.1.ptys = k.ptys ∧ r.1.nextId = k.nextId ∧ r.1.table.length ≤ Table.maxDescriptors ∧
      (k.table.free = 0 → r.2 = none ∧ r.1.table = k.table) ∧
      (k.table.free = 1 → r.2 = none ∧ r.1.table ≠ k.table) ∧
      (1 < k.table.free → r.2 ≠ none ∧ Atomic k r) := by
  simp only [installPair,installDescriptor]
  cases ho : k.table.installDescriptor ⟨k.nextCapability%2^32,first.1,first.2⟩ with
  | none =>
    have hf := Table.installDescriptor_none ho
    exact ⟨rfl,rfl,hv,fun _ => ⟨rfl,rfl⟩,fun h => by omega,fun h => by omega⟩
  | some opened =>
    obtain ⟨table,fd⟩ := opened
    obtain ⟨hf,hl⟩ := Table.installDescriptor_free hv ho
    cases ht : Table.installDescriptor table ⟨(k.nextCapability+1)%2^32,second.1,second.2⟩ with
    | none =>
      have hf' := Table.installDescriptor_none ht
      simp only [ht]
      refine ⟨trivial,trivial,hl,fun h => by omega,fun _ => ⟨trivial,fun he => ?_⟩,fun h => by omega⟩
      rw [he] at hf'
      omega
    | some opened =>
      obtain ⟨table',fd'⟩ := opened
      obtain ⟨hf',hl'⟩ := Table.installDescriptor_free hl ht
      obtain ⟨hn,-,hs⟩ := Table.installDescriptor_spec ho
      obtain ⟨hn',-,hs'⟩ := Table.installDescriptor_spec ht
      rw [hs] at hn'
      split_ifs at hn' with he
      simp only [hs] at hs'
      simp only [ht]
      exact ⟨trivial,trivial,hl',fun h => by omega,fun h => by omega,
        fun _ => ⟨by simp,Ne.symm he,hn,hn',_,_,hs'⟩⟩

/-- The two ends are installed after the cells are there. -/
lemma atomic_installPair_iff (k' : Opener) (hv : k.table.length ≤ Table.maxDescriptors) (ht : k'.table = k.table)
    (first second : Rights × DescriptorResource) :
    Atomic k (k'.installPair first second) ↔ k.table.free ≠ 1 ∧ (k'.ptys ≠ k.ptys → k.table.free ≠ 0) := by
  obtain ⟨hp,-,-,h0,h1,h2⟩ := installPair_cases (k := k') (ht ▸ hv) first second
  simp only [ht] at h0 h1 h2
  obtain hf | hf | hf : k.table.free = 0 ∨ k.table.free = 1 ∨ 1 < k.table.free := by omega
  · obtain ⟨hn,hta⟩ := h0 hf
    rw [Atomic,hn,hta,hp]
    simp only [hf]
    simp
  · obtain ⟨hn,hta⟩ := h1 hf
    rw [Atomic,hn]
    simp [hf,hta]
  · obtain ⟨hn,ha⟩ := h2 hf
    refine ⟨fun _ => ⟨by omega,fun _ => by omega⟩,fun _ => ?_⟩
    obtain ⟨⟨fd,fd'⟩,hs⟩ := Option.ne_none_iff_exists'.1 hn
    simp only [Atomic,hs,ht] at ha ⊢
    exact ha

lemma createPty_ptys (hv : k.Valid) : k.createPty.ptys ≠ k.ptys := by
  intro he
  have hm : (k.nextPtyId,k.nextId) ∈ k.ptys := by
    rw [← he,createPty]
    exact mem_cons_self
  exact absurd (hv.fresh _ hm) (Nat.lt_irrefl _)

lemma openPair_valid (hv : k.Valid) (c : PairCall) : (k.openPair c).1.Valid := by
  have hpair : ∀ (k' : Opener) first second, k'.Valid → (k'.installPair first second).1.Valid := by
    intro k' first second hk
    obtain ⟨hp,hi,hl,-⟩ := installPair_cases hk.bounded first second
    exact ⟨hl,by rw [hp,hi]; exact hk.fresh⟩
  have htwo : ({k with nextId := k.nextId+2} : Opener).Valid :=
    ⟨hv.bounded,fun p hp => (hv.fresh p hp).trans_le (Nat.le_add_right _ _)⟩
  have hpty : k.createPty.Valid := by
    refine ⟨hv.bounded,fun p hp => ?_⟩
    rw [createPty,mem_cons] at hp
    obtain rfl | hp := hp
    · exact Nat.lt_succ_self _
    · exact (hv.fresh p (mem_of_mem_filter hp)).trans (Nat.lt_succ_self _)
  cases c with
  | socketpair domain socketType =>
    rw [openPair,socketpairCurrent]
    split_ifs
    · exact hv
    · exact hpair _ _ _ htwo
    · exact hv
  | pipe => exact hpair _ _ _ htwo
  | pty => exact hpair _ _ _ hpty
  | ipcPair => exact hpair _ _ _ htwo

/-- A call that opens its ends needs two free places or, but for a pty, none. -/
theorem pair_call_atomic (k : Opener) (c : PairCall) (hv : k.Valid) :
    (Atomic k (k.openPair c) ↔ (c.Opens → k.table.free ≠ 1 ∧ (c = .pty → k.table.free ≠ 0))) ∧
      (k.openPair c).1.Valid := by
  refine ⟨?_,openPair_valid hv c⟩
  have hpair : ∀ first second, Atomic k (installPair {k with nextId := k.nextId+2} first second) ↔
      k.table.free ≠ 1 := fun first second => by
    simpa using atomic_installPair_iff {k with nextId := k.nextId+2} hv.bounded rfl first second
  cases c with
  | socketpair domain socketType =>
    rw [openPair,socketpairCurrent,PairCall.Opens]
    split_ifs with hd ht
    · exact ⟨fun _ ho => absurd ho.1 hd,fun _ => ⟨rfl,rfl⟩⟩
    · simp [hpair,Classical.not_not.1 hd,ht]
    · exact ⟨fun _ ho => absurd ho.2 ht,fun _ => ⟨rfl,rfl⟩⟩
  | pipe => simp [openPair,openPipeCurrent,PairCall.Opens,hpair]
  | pty =>
    have := atomic_installPair_iff k.createPty hv.bounded rfl
      (.read ||| .write ||| .transfer,.ptyMaster k.nextId) (.read ||| .write ||| .transfer,.ptySlave k.nextId)
    simpa [openPair,openPtyCurrent,PairCall.Opens,createPty_ptys hv] using this
  | ipcPair => simp [openPair,openIpcPairCurrent,PairCall.Opens,hpair]

def serial : FileDescriptor := ⟨1,.write,.serial⟩

theorem pair_call_atomic_empty : (⟨[some serial],2,0,0,[]⟩ : Opener).Atomic (openPair ⟨[some serial],2,0,0,[]⟩ .pty) :=
  (pair_call_atomic ⟨[some serial],2,0,0,[]⟩ .pty ⟨by decide,by simp⟩).1.2 fun _ => by decide

/-- One free place: the reading end stays open. A full table: the pty stays listed. -/
theorem failed_pair_left :
    let one := openPair ⟨.replicate 255 (some serial),2,0,0,[]⟩ .pipe
    let full := openPair ⟨.replicate 256 (some serial),2,0,0,[]⟩ .pty
    one.2 = none ∧ one.1.table.currentDescriptor 255 = some ⟨2,9,.pipeRead 0⟩ ∧ full.2 = none ∧ full.1.ptys = [(0,0)] := by
  decide +kernel

end Opener
end Vanta.Io
