import Vanta.Fs.ResolveSpec

/-! The loop over path strings finds what the walk over objects finds. -/

namespace Vanta.Fs
open Library List

def walkFs (m : Mount) : List Text → Nat → Except VfsError Nat
  | [], current => .ok current
  | comp::rest, current =>
    match m.fs.lookup current comp with
    | .error e => .error e
    | .ok child =>
      match m.fs.readInode child with
      | .error e => .error e
      | .ok _ => walkFs m rest child

variable (t : MountTable)

def covering (ns : List Text) : Option Mount :=
  match t.find? (fun m => decide (m.point ≠ [] ∧ m.point <+: ns)) with
  | some m => some m
  | none => mountAt t []

def locate (ns : List Text) : Except VfsError (Mount × Nat) :=
  match covering t ns with
  | none => .error .notMounted
  | some m =>
    match walkFs m (ns.drop m.point.length) m.fs.rootInode with
    | .error e => .error e
    | .ok ino => .ok (m,ino)

def Dentries (d : DentryCache) : Prop :=
  ∀ entry ∈ d.entries, ∀ m ∈ t, m.id = entry.1.1 →
    m.fs.lookup entry.1.2.1 entry.1.2.2 = .ok entry.2.ino ∧ ∃ mode, m.fs.readInode entry.2.ino = .ok mode

/-- Mount points are clean paths, deepest first, and no root is a symlink. -/
structure Canonical (t : MountTable) : Prop where
  names : ∀ m ∈ t, ∀ w ∈ m.point, Name w
  target : ∀ m ∈ t, m.target = textOf m.point
  sorted : t.Pairwise fun a b => b.target.length ≤ a.target.length
  distinct : ∀ m ∈ t, ∀ m' ∈ t, m.target = m'.target → m = m'
  ids : ∀ m ∈ t, ∀ m' ∈ t, m.id = m'.id → m = m'
  root : ∀ m ∈ t, ∀ mode, m.fs.readInode m.fs.rootInode = .ok mode → isLink mode = false

/-- A mount point lies below the path. -/
def Above (ns : List Text) : Prop := ∃ m ∈ t, ∃ vs, vs ≠ [] ∧ m.point = ns++vs

/-- Where the path leads above a mount point, the code goes on without a look. That is right for a directory, at the end
of the path for anything that is not to be followed, and before a component that fails as this one does. -/
def Passable (follow : Bool) (ns rest : List Text) : Prop :=
  match locate t ns with
  | .ok (m,ino) => ∃ mode, m.fs.readInode ino = .ok mode ∧
      (isDirectory mode = true ∨ rest = [] ∧ (isLink mode = true → follow = false))
  | .error _ => rest = [] ∨ ∃ c rest', rest = c::rest' ∧ c ≠ ['.','.'] ∧ t.findMount (textOf (ns++[c])) = none ∧
      mountAt t (ns++[c]) = none ∧ ¬Above t (ns++[c])

/-- The name is that of a mount only with its blanks, and a missing directory is not passed over. -/
def ClearStep (follow : Bool) (way : List Place) (comp : Text) (rest : List Text) : Prop :=
  comp ≠ ['.','.'] → t.findMount (textOf (namesOf way++[comp])) = mountAt t (namesOf way++[comp]) ∧
    (mountAt t (namesOf way++[comp]) = none → Above t (namesOf way++[comp]) →
      Passable t follow (namesOf way++[comp]) rest)

/-- The places that the walk comes to, and how many symlinks it has expanded by then. -/
inductive Visits (t : MountTable) (follow : Bool) (path : List Text) : Nat → List Place → List Text → Prop where
  | start : Visits t follow path 0 [] path
  | move {n : Nat} {way way' : List Place} {comp : Text} {rest : List Text} (before : Visits t follow path n way (comp::rest))
      (h : walkStep t follow way comp rest = .move way') : Visits t follow path n way' rest
  | expand {n : Nat} {way way' : List Place} {comp : Text} {rest rest' : List Text}
      (before : Visits t follow path n way (comp::rest))
      (h : walkStep t follow way comp rest = .expand (.ok (way',rest'))) : Visits t follow path (n+1) way' rest'

def Clear (follow : Bool) (path : List Text) : Prop :=
  ∀ n ≤ 40, ∀ way comp rest, Visits t follow path n way (comp::rest) → ClearStep t follow way comp rest

section
variable {t : MountTable} {d : DentryCache} {ns : List Text}

lemma evict_subset (maxEntries : Nat) (keys : List DentryKey) (entries : List (DentryKey × DentryValue)) :
    (DentryCache.evict maxEntries keys entries).2 ⊆ entries := by
  induction keys generalizing entries with
  | nil => simp [DentryCache.evict]
  | cons key keys ih =>
    rw [DentryCache.evict]
    split
    · exact List.Subset.trans (ih _) (filter_subset_self _)
    · exact List.Subset.refl _

lemma insert_entries {key : DentryKey} {value : DentryValue} {entry : DentryKey × DentryValue}
    (h : entry ∈ (d.insert key value).entries) : entry = (key,value) ∨ entry ∈ d.entries := by
  rw [DentryCache.insert] at h
  split at h
  · rcases mem_cons.1 h with rfl | h
    · exact .inl rfl
    · exact .inr (mem_filter.1 h).1
  · rcases mem_cons.1 h with rfl | h
    · exact .inl rfl
    · exact .inr (evict_subset _ _ _ h)

variable {m : Mount} {comp : Text}

lemma Dentries.insert (hd : Dentries t d) (hc : Canonical t) (hm : m ∈ t) {current child mode : Nat}
    (hl : m.fs.lookup current comp = .ok child) (hr : m.fs.readInode child = .ok mode) :
    Dentries t (d.insert (m.id,current,comp) ⟨child,mode⟩) := by
  intro entry he m' hm' hi
  rcases insert_entries he with rfl | ho
  · obtain rfl := hc.ids m' hm' m hm hi
    exact ⟨hl,mode,hr⟩
  · exact hd entry ho m' hm' hi

lemma lookupComponents_spec (hc : Canonical t) (hm : m ∈ t) (rest : List Text) (current : Nat)
    (hd : Dentries t d) : (lookupComponents m rest current d).2 = walkFs m rest current ∧
      Dentries t (lookupComponents m rest current d).1 := by
  induction rest generalizing current d with
  | nil => exact ⟨rfl,hd⟩
  | cons comp rest ih =>
    rw [lookupComponents,walkFs]
    cases hca : d.lookup (m.id,current,comp) with
    | some value =>
      rw [DentryCache.lookup,Option.map_eq_some_iff] at hca
      obtain ⟨entry,hf,rfl⟩ := hca
      have hk : entry.1 = (m.id,current,comp) := by simpa using find?_some hf
      obtain ⟨hl,mode,hr⟩ := hd entry (mem_of_find?_eq_some hf) m hm (by rw [hk])
      rw [hk] at hl
      simp only [hl,hr]
      exact ih entry.2.ino hd
    | none =>
      cases hl : m.fs.lookup current comp with
      | error e => exact ⟨rfl,hd⟩
      | ok child =>
        cases hr : m.fs.readInode child with
        | error e =>
          simpa only [hr,true_and] using hd
        | ok mode =>
          simp only [hr]
          exact ih child (hd.insert hc hm hl hr)

lemma written_head (hns : ∀ w ∈ ns, Name w) : components ((written '/' ns).dropWhile (· = '/')) = ns := by
  cases ns with
  | nil => simp [written,components]
  | cons n ns =>
    have hn := hns n (by simp)
    obtain ⟨c,cs,rfl⟩ := exists_cons_of_ne_nil hn.word.ne_nil
    have hc : c ≠ '/' := by
      rintro rfl
      exact hn.word.free (by simp)
    have hd : (written '/' ((c::cs)::ns)).dropWhile (· = '/') = (c::cs)++written '/' ns := by
      simp [written,hc]
    rw [hd,components,wordsOf_append hn.word (cut_written ns),
      wordsOf_written fun w hw => (hns w (by simp [hw])).word]
    exact filter_eq_self.2 fun w hw => by simpa using (hns w hw).dot

lemma point_eq_nil (hc : Canonical t) (hm : m ∈ t) : m.target = ['/'] ↔ m.point = [] := by
  rw [hc.target m hm,textOf_eq_slash (hc.names m hm)]

section
variable (hc : Canonical t) (hns : ∀ w ∈ ns, Name w)
include hc hns

lemma under_of_start (hm : m ∈ t) (hn : m.point ≠ []) (hs : m.point <+: ns) :
    ∃ rel, MountTable.under (textOf ns) m = some (m,rel) ∧ components rel = ns.drop m.point.length := by
  obtain ⟨vs,rfl⟩ := hs
  have hv : ∀ w ∈ vs, Name w := fun w hw => hns w (by simp [hw])
  have ht : m.target = written '/' m.point := by rw [hc.target m hm,textOf_of_ne hn]
  have hr : m.target ≠ ['/'] := by rwa [ne_eq,point_eq_nil hc hm]
  have hte : textOf (m.point++vs) = m.target++written '/' vs := by
    rw [textOf_of_ne (by simp [hn]),written_append,ht]
  rw [MountTable.under,if_neg hr,hte]
  cases vs with
  | nil => exact ⟨[],by simp [written],by simp [components]⟩
  | cons v vs =>
    refine ⟨(written '/' (v::vs)).dropWhile (· = '/'),?_,?_⟩
    · rw [if_neg (by simp [written]),if_pos (by simp)]
      simp [written]
    · rw [written_head hv]
      simp

lemma under_of_not_start (hm : m ∈ t)
    (h : ¬(m.point ≠ [] ∧ m.point <+: ns)) : MountTable.under (textOf ns) m = none := by
  rw [MountTable.under]
  split
  · rfl
  next hro =>
  have hne : m.point ≠ [] := by rwa [ne_eq,← point_eq_nil hc hm]
  have ht : m.target = written '/' m.point := by rw [hc.target m hm,textOf_of_ne hne]
  have hno {rest : Text} (hcu : Cut '/' rest) : textOf ns ≠ m.target++rest := by
    intro hte
    have hn : ns ≠ [] := by
      rintro rfl
      obtain ⟨p,ps,hp⟩ := exists_cons_of_ne_nil hne
      have hwo := (hc.names m hm p (by simp [hp])).word.ne_nil
      simp [ht,hp,written,hwo] at hte
    rw [textOf_of_ne hn,ht] at hte
    obtain ⟨vs,rfl,-⟩ := written_start (fun w hw => (hc.names m hm w hw).word) (fun w hw => (hns w hw).word) hcu hte
    exact h ⟨hne,prefix_append _ _⟩
  split
  · next he => exact absurd (by simpa using he) (hno (.inl rfl))
  split
  · next hpr =>
    obtain ⟨rest,hr⟩ := isPrefixOf_iff_prefix.1 hpr
    dsimp only
    split
    · next hs =>
      rw [← hr,drop_left] at hs
      exact absurd hr.symm (hno (.inr hs))
    · rfl
  · rfl

lemma findSome_under (l : List Mount) (hl : l ⊆ t) :
    (l.find? (fun m => decide (m.point ≠ [] ∧ m.point <+: ns)) = none → l.findSome? (MountTable.under (textOf ns)) = none) ∧
      ∀ m, l.find? (fun m => decide (m.point ≠ [] ∧ m.point <+: ns)) = some m →
        ∃ rel, l.findSome? (MountTable.under (textOf ns)) = some (m,rel) ∧ components rel = ns.drop m.point.length := by
  induction l with
  | nil => simp
  | cons m l ih =>
    have hm : m ∈ t := hl (by simp)
    by_cases h : m.point ≠ [] ∧ m.point <+: ns
    · obtain ⟨rel,hu,hr⟩ := under_of_start hc hns hm h.1 h.2
      rw [find?_cons_of_pos (by simpa using h)]
      refine ⟨fun hn => by simp at hn,fun m' hm' => ?_⟩
      obtain rfl : m = m' := by simpa using hm'
      exact ⟨rel,by simp [hu],hr⟩
    · rw [find?_cons_of_neg (by simpa using h)]
      simpa [findSome?_cons,under_of_not_start hc hns hm h] using ih fun x hx => hl (by simp [hx])

end

lemma find_congr {l : List Mount} {p q : Mount → Bool} (h : ∀ m ∈ l, p m = q m) : l.find? p = l.find? q := by
  induction l with
  | nil => rfl
  | cons m l ih => simp [find?_cons,h m (by simp),ih fun x hx => h x (by simp [hx])]

lemma mountAt_eq (hc : Canonical t) (hns : ∀ w ∈ ns, Name w) :
    t.find? (fun m => decide (m.target = textOf ns)) = mountAt t ns := by
  refine find_congr fun m hm => ?_
  rw [hc.target m hm]
  simp only [decide_eq_decide]
  exact ⟨textOf_injective (hc.names m hm) hns,fun h => by rw [h]⟩

lemma resolve_textOf (hc : Canonical t) (hns : ∀ w ∈ ns, Name w) :
    (covering t ns = none → t.resolve (textOf ns) = .error .notMounted) ∧ ∀ m, covering t ns = some m → m ∈ t ∧
        ∃ rel, t.resolve (textOf ns) = .ok (m,rel) ∧ components rel = ns.drop m.point.length := by
  have hne : textOf ns ≠ [] := by
    rw [textOf]
    split
    · simp
    next h =>
    obtain ⟨n,ns,rfl⟩ := exists_cons_of_ne_nil h
    simp [written]
  obtain ⟨hn,hs⟩ := findSome_under hc hns t (List.Subset.refl t)
  rw [covering,MountTable.resolve,if_neg hne]
  cases hf : t.find? (fun m => decide (m.point ≠ [] ∧ m.point <+: ns)) with
  | some m =>
    obtain ⟨rel,hu,hre⟩ := hs m hf
    refine ⟨fun h => by simp at h,fun m' hm' => ?_⟩
    obtain rfl : m = m' := by simpa using hm'
    exact ⟨mem_of_find?_eq_some hf,rel,by simp [hu],hre⟩
  | none =>
    have hr : t.find? (fun m => decide (m.target = ['/'])) = mountAt t [] := mountAt_eq hc (forall_mem_nil Name)
    simp only [hn hf,hr]
    cases hm : mountAt t [] with
    | none => simp
    | some m =>
      refine ⟨fun h => by simp at h,fun m' hm' => ?_⟩
      obtain rfl : m = m' := by simpa using hm'
      have hp : m.point = [] := by simpa using find?_some hm
      refine ⟨mem_of_find?_eq_some hm,_,rfl,?_⟩
      rw [hp,length_nil,drop_zero,textOf]
      split
      · next h => simp [h,components]
      · exact written_head hns

variable {c : Text} {m : Mount} {ino mode : Nat}

lemma covering_snoc (hn : mountAt t (ns++[c]) = none) : covering t (ns++[c]) = covering t ns := by
  have hf : t.find? (fun m => decide (m.point ≠ [] ∧ m.point <+: ns++[c])) =
      t.find? (fun m => decide (m.point ≠ [] ∧ m.point <+: ns)) := by
    refine find_congr fun m hm => ?_
    have hne : m.point ≠ ns++[c] := by simpa using (find?_eq_none.1 hn) m hm
    simp [prefix_concat_iff,hne]
  rw [covering,covering,hf]

lemma written_length_lt {us vs : List Text} (hv : vs ≠ []) :
    (written '/' us).length < (written '/' (us++vs)).length := by
  obtain ⟨v,vs,rfl⟩ := exists_cons_of_ne_nil hv
  simp only [written_append,written,length_append,length_cons]
  omega

lemma covering_mount (hc : Canonical t) (hm : mountAt t ns = some m) (hne : ns ≠ []) : covering t ns = some m := by
  have hp : m.point = ns := by simpa using find?_some hm
  have hme : m ∈ t := mem_of_find?_eq_some hm
  have hta : decide (m.point ≠ [] ∧ m.point <+: ns) = true := by simp [hp,hne]
  rw [covering]
  cases hf : t.find? (fun m => decide (m.point ≠ [] ∧ m.point <+: ns)) with
  | none => exact absurd hta (by simpa using (find?_eq_none.1 hf) m hme)
  | some m' =>
    have ht : m'.point ≠ [] ∧ m'.point <+: ns := by simpa using find?_some hf
    obtain ⟨vs,hv⟩ := ht.2
    -- what stands before the mount in the table has a target at least as long
    obtain ⟨-,before,after,rfl,hb⟩ := find?_eq_some_iff_append.1 hf
    have hm' : m' ∈ before++m'::after := by simp
    by_cases hn : vs = []
    · have hsa : m'.target = m.target := by
        rw [hc.target m' hm',hc.target m hme,hp,← hv,hn,append_nil]
      rw [hc.distinct m' hm' m hme hsa]
    have hl : m'.target.length < m.target.length := by
      rw [hc.target m' hm',hc.target m hme,hp,textOf_of_ne ht.1,textOf_of_ne hne,← hv]
      exact written_length_lt hn
    rcases mem_append.1 hme with hi | hi
    · have hs := hb m hi
      rw [hta] at hs
      simp at hs
    · rcases mem_cons.1 hi with rfl | hi
      · rfl
      · have hle := (pairwise_cons.1 (pairwise_append.1 hc.sorted).2.1).1 m hi
        omega

lemma walkFs_snoc (m : Mount) (c : Text) (rest : List Text) (current : Nat) : walkFs m (rest++[c]) current =
      match walkFs m rest current with
      | .error e => .error e
      | .ok dir => walkFs m [c] dir := by
  induction rest generalizing current with
  | nil => rfl
  | cons comp rest ih =>
    rw [cons_append,walkFs,walkFs]
    cases m.fs.lookup current comp with
    | error e => rfl
    | ok child =>
      dsimp only
      cases m.fs.readInode child with
      | error e => rfl
      | ok mode => exact ih child

lemma locate_snoc (hn : mountAt t (ns++[c]) = none) : locate t (ns++[c]) = match locate t ns with
      | .error e => .error e
      | .ok (m,dir) =>
        match walkFs m [c] dir with
        | .error e => .error e
        | .ok ino => .ok (m,ino) := by
  rw [locate,locate,covering_snoc hn]
  cases hco : covering t ns with
  | none => rfl
  | some m =>
    have hl : m.point.length ≤ ns.length := by
      rw [covering] at hco
      split at hco
      · next hf =>
        cases hco
        have ht : m.point ≠ [] ∧ m.point <+: ns := by simpa using find?_some hf
        exact ht.2.length_le
      · have hr : m.point = [] := by simpa using find?_some hco
        simp [hr]
    simp only [drop_append_of_le_length hl,walkFs_snoc]
    cases walkFs m (ns.drop m.point.length) m.fs.rootInode with
    | error e | ok dir => rfl

lemma locate_snoc_ok (hn : mountAt t (ns++[c]) = none) (h : locate t (ns++[c]) = .ok (m,ino)) :
    ∃ dir mode, locate t ns = .ok (m,dir) ∧ m.fs.lookup dir c = .ok ino ∧ m.fs.readInode ino = .ok mode := by
  rw [locate_snoc hn] at h
  cases hlo : locate t ns with
  | error e => simp [hlo] at h
  | ok object =>
    obtain ⟨m',dir⟩ := object
    simp only [hlo,walkFs] at h
    cases hl : m'.fs.lookup dir c with
    | error e => simp [hl] at h
    | ok child =>
      simp only [hl] at h
      cases hch : m'.fs.readInode child with
      | error e => simp [hch] at h
      | ok mode =>
        simp only [hch,Except.ok.injEq] at h
        cases h
        exact ⟨dir,mode,rfl,hl,hch⟩

lemma locate_mount (hc : Canonical t) (hm : mountAt t ns = some m) (hn : ns ≠ []) :
    locate t ns = .ok (m,m.fs.rootInode) := by
  have hp : m.point = ns := by simpa using find?_some hm
  simp [locate,covering_mount hc hm hn,hp,walkFs]

lemma locate_nil : locate t [] = standing t [] := by
  have hf : t.find? (fun m => decide (m.point ≠ [] ∧ m.point <+: ([] : List Text))) = none := by
    refine find?_eq_none.2 fun m _ => ?_
    simp
  rw [locate,covering,hf,standing]
  cases hr : mountAt t [] with
  | none => rfl
  | some m => simp [walkFs]

/-- Every place of a way is the object that its path names, and is no symlink. -/
inductive Standing (t : MountTable) : List Place → Prop where
  | root : Standing t []
  | push {place : Place} {way : List Place} {mode : Nat} (below : Standing t way) (name : Name place.name)
      (object : locate t (namesOf (place::way)) = .ok (place.mount,place.ino))
      (read : place.mount.fs.readInode place.ino = .ok mode) (plain : isLink mode = false) : Standing t (place::way)

@[simp] lemma namesOf_cons (place : Place) (way : List Place) : namesOf (place::way) = namesOf way++[place.name] := by
  simp [namesOf]

lemma names_snoc (hns : ∀ w ∈ ns, Name w) (hc : Name c) : ∀ w ∈ ns++[c], Name w := by
  intro w hw
  rcases mem_append.1 hw with hw | hw
  · exact hns w hw
  · rwa [mem_singleton.1 hw]

variable {way : List Place}

lemma Standing.names (h : Standing t way) : ∀ w ∈ namesOf way, Name w := by
  induction h with
  | root => simp [namesOf]
  | push below name object read plain ih =>
    rw [namesOf_cons]
    exact names_snoc ih name

lemma Standing.into (h : Standing t way) (hn : Name comp) (ho : locate t (namesOf way++[comp]) = .ok (m,ino)) (hr : m.fs.readInode ino = .ok mode)
    (hp : isLink mode = false) : Standing t (⟨comp,m,ino⟩::way) :=
  .push h hn (by rw [namesOf_cons]; exact ho) hr hp

lemma Standing.located (h : Standing t way) : locate t (namesOf way) = standing t way := by
  cases h with
  | root => exact locate_nil
  | push below name object read plain => exact object

lemma Standing.tail {way : List Place} (h : Standing t way) : Standing t way.tail := by
  cases h with
  | root => exact .root
  | push below name object read plain => exact below

lemma namesOf_tail (way : List Place) : namesOf way.tail = (namesOf way).dropLast := by
  cases way with
  | nil => rfl
  | cons place way => simp

/-- A component that resolution can meet. -/
structure Component (w : Text) : Prop where
  word : Word '/' w
  dot : w ≠ ['.']

lemma component_of_mem {path w : Text} (h : w ∈ components path) : Component w := by
  obtain ⟨hw,hd⟩ := mem_filter.1 h
  exact ⟨word_of_mem_wordsOf hw,by simpa using hd⟩

def answer : Option (Except VfsError Found) → Except VfsError Resolved
  | none => .error .loop
  | some (.error e) => .error e
  | some (.ok found) => .ok ⟨found.mount,found.ino,found.mode,textOf found.names⟩

def Agree (t : MountTable) (code : Resolution) (walk : Option (Except VfsError Found)) : Prop :=
  Dentries t code.1 ∧ code.2 = answer walk

lemma resolve_lookup (hc : Canonical t) (hd : Dentries t d) (hns : ∀ w ∈ ns, Name w) :
    (t.resolve (textOf ns) = .error .notMounted ∧ locate t ns = .error .notMounted) ∨
      ∃ m rel, m ∈ t ∧ t.resolve (textOf ns) = .ok (m,rel) ∧ Dentries t (lookupInFs d m rel).1 ∧
        (rel = [] → lookupInFs d m rel = (d,.ok m.fs.rootInode)) ∧
        ((∃ e, (lookupInFs d m rel).2 = .error e ∧ locate t ns = .error e) ∨
          ∃ ino, (lookupInFs d m rel).2 = .ok ino ∧ locate t ns = .ok (m,ino)) := by
  obtain ⟨hn,hs⟩ := resolve_textOf hc hns
  cases hco : covering t ns with
  | none => exact .inl ⟨hn hco,by simp [locate,hco]⟩
  | some m =>
    obtain ⟨hm,rel,hr,hre⟩ := hs m hco
    obtain ⟨hf,hd'⟩ := lookupComponents_spec hc hm (components rel) m.fs.rootInode hd
    refine .inr ⟨m,rel,hm,hr,hd',?_,?_⟩
    · rintro rfl
      simp [lookupInFs,components,lookupComponents]
    rw [hre] at hf
    rw [lookupInFs,hre,hf]
    cases hw : walkFs m (ns.drop m.point.length) m.fs.rootInode with
    | error e => exact .inl ⟨e,rfl,by simp [locate,hco,hw]⟩
    | ok ino => exact .inr ⟨ino,rfl,by simp [locate,hco,hw]⟩

/-- The object at a path, as the walk finds it there. -/
def objectAt (t : MountTable) (ns : List Text) : Except VfsError Found :=
  match locate t ns with
  | .error e => .error e
  | .ok (m,ino) =>
    match m.fs.readInode ino with
    | .error e => .error e
    | .ok mode => .ok ⟨m,ino,mode,ns⟩

lemma arrive_at (hc : Canonical t) (hd : Dentries t d) (hns : ∀ w ∈ ns, Name w) :
    Agree t (arrive t (textOf ns) d) (some (objectAt t ns)) := by
  rw [arrive,objectAt]
  rcases resolve_lookup hc hd hns with ⟨hre,hlo⟩ | ⟨m,rel,-,hre,hd',he,hf⟩
  · simp only [hre,hlo]
    exact ⟨hd,rfl⟩
  have hro : (if rel = [] then (d,.ok m.fs.rootInode) else lookupInFs d m rel) = lookupInFs d m rel := by
    split
    · next h => exact (he h).symm
    · rfl
  simp only [hre,hro]
  rcases hl : lookupInFs d m rel with ⟨d',r⟩
  rw [hl] at hd' hf
  rcases hf with ⟨e,hr,hlo⟩ | ⟨ino,hr,hlo⟩
  · obtain rfl : r = .error e := hr
    simp only [hlo]
    exact ⟨hd',rfl⟩
  obtain rfl : r = .ok ino := hr
  simp only [hlo]
  cases m.fs.readInode ino with
  | error e | ok mode => exact ⟨hd',rfl⟩

lemma arrive_agrees (hc : Canonical t) (hd : Dentries t d) (hw : Standing t way) :
    Agree t (arrive t (textOf (namesOf way)) d) (some (walkEnd t way)) := by
  have h := arrive_at hc hd hw.names
  rwa [objectAt,hw.located] at h

lemma not_link_of_directory (h : isDirectory mode = true) : isLink mode = false := by
  simp only [isDirectory,isLink,decide_eq_true_eq,decide_eq_false_iff_not] at *
  omega

lemma above_of_any (hc : Canonical t) (hns : ∀ w ∈ ns, Name w) (hne : ns ≠ [])
    (ha : t.any (fun m => (textOf ns++['/']).isPrefixOf m.target) = true) : Above t ns := by
  obtain ⟨m,hm,hpr⟩ := any_eq_true.1 ha
  obtain ⟨rest,hr⟩ := isPrefixOf_iff_prefix.1 hpr
  have hwo : ∀ w ∈ ns, Word '/' w := fun w hw => (hns w hw).word
  have hp : m.point ≠ [] := by
    intro hn
    obtain ⟨n,ms,rfl⟩ := exists_cons_of_ne_nil hne
    rw [hc.target m hm,hn,textOf_nil,textOf_of_ne (by simp),append_assoc] at hr
    have hl := congrArg length hr
    simp [written] at hl
  have ht : written '/' m.point = written '/' ns++('/'::rest) := by
    rw [← textOf_of_ne hp,← hc.target m hm,← hr,textOf_of_ne hne]
    simp
  obtain ⟨vs,hv,hr'⟩ := written_start hwo (fun w hw => (hc.names m hm w hw).word) (.inr rfl) ht
  refine ⟨m,hm,vs,?_,hv⟩
  rintro rfl
  simp [written] at hr'

def AgreeAgain (t : MountTable) (follow : Bool) (path : List Text) (n : Nat) :
    Option (List Text → Text → DentryCache → Resolution) →
    Option (List Text → List Place → Option (Except VfsError Found)) → Prop
  | none, none => True
  | some code, some walk => ∀ rest way d, Visits t follow path n way rest → (∀ w ∈ rest, Component w) → Standing t way →
      Dentries t d → Agree t (code rest (textOf (namesOf way)) d) (walk rest way)
  | _, _ => False

lemma walkStep_of_object (hw : Standing t way) (hd : comp ≠ ['.','.'])
    (ha : mountAt t (namesOf way++[comp]) = none) (follow : Bool) (rest : List Text)
    (ho : locate t (namesOf way++[comp]) = .ok (m,ino)) (hr : m.fs.readInode ino = .ok mode) :
    walkStep t follow way comp rest = walkObject follow way comp rest m ino mode := by
  obtain ⟨dir,mode',hlo,hl,hch⟩ := locate_snoc_ok ha ho
  obtain rfl : mode' = mode := by simpa [hch] using hr
  rw [hw.located] at hlo
  simp [walkStep,hd,ha,hlo,hl,hch]

lemma walkStep_of_error (hw : Standing t way) (hd : comp ≠ ['.','.'])
    (ha : mountAt t (namesOf way++[comp]) = none) (follow : Bool) (rest : List Text) {e : VfsError}
    (he : locate t (namesOf way++[comp]) = .error e) : walkStep t follow way comp rest = .done (.error e) := by
  rw [locate_snoc ha,hw.located] at he
  simp only [walkStep,if_neg hd,ha]
  cases hs : standing t way with
  | error e' => simpa [hs] using he
  | ok object =>
    obtain ⟨m,dir⟩ := object
    simp only [hs,walkFs] at he
    cases hl : m.fs.lookup dir comp with
    | error e' => simpa [hl] using he
    | ok child =>
      simp only [hl] at he
      cases hch : m.fs.readInode child with
      | error e' => simpa [hl,hch] using he
      | ok mode => simp [hch] at he

variable {code : Option (List Text → Text → DentryCache → Resolution)}
    {walk : Option (List Text → List Place → Option (Except VfsError Found))} {rest : List Text}

variable {follow : Bool} {path : List Text} {n : Nat}

lemma link_agrees (hr : ∀ w ∈ rest, Component w) (hwa : Standing t way) (hd : Dentries t d) {r : Except VfsError Text} :
    AgreeAgain t follow path n code walk → (∀ target, r = .ok target →
      Visits t follow path n (if target.head? = some '/' then [] else way) (components target++rest)) →
    Agree t (match code with
      | none => (d,.error .loop)
      | some go =>
        match r with
        | .error e => (d,.error e)
        | .ok target => go (components target++rest) (if target.head? = some '/' then ['/'] else textOf (namesOf way)) d)
      (match walk with
      | none => none
      | some go =>
        match r with
        | .error e => some (.error e)
        | .ok target => go (components target++rest) (if target.head? = some '/' then [] else way)) := by
  intro ha hv
  match code, walk, ha with
  | none, none, _ => exact ⟨hd,rfl⟩
  | some code, some walk, ha =>
    cases r with
    | error e => exact ⟨hd,rfl⟩
    | ok target =>
      have hn : ∀ w ∈ components target++rest, Component w := by
        intro w hw
        rcases mem_append.1 hw with hw | hw
        · exact component_of_mem hw
        · exact hr w hw
      have hv := hv target rfl
      by_cases hab : target.head? = some '/'
      · simp only [if_pos hab] at hv ⊢
        exact ha _ [] d hv hn .root hd
      · simp only [if_neg hab] at hv ⊢
        exact ha _ way d hv hn hwa hd

/-- The code looks at nothing on the way to a mount point; where it would have found an error, the next component gives
it. -/
lemma skip_agrees (hc : Canonical t) (hd : Dentries t d) (hwa : Standing t way) (hna : Name comp)
    (hat : mountAt t (namesOf way++[comp]) = none) (hres : ∀ w ∈ rest, Component w)
    (hpa : Passable t follow (namesOf way++[comp]) rest)
    (hne : ∀ place d, place.name = comp → Standing t (place::way) → walkStep t follow way comp rest = .move (place::way) →
      Dentries t d → Agree t (resolveLoop t follow code rest (textOf (namesOf way++[comp])) d)
        (walkLoop t follow walk rest (place::way))) :
    Agree t (resolveLoop t follow code rest (textOf (namesOf way++[comp])) d) (walkLoop t follow walk (comp::rest) way) := by
  have hn := names_snoc hwa.names hna
  rw [walkLoop]
  rw [Passable] at hpa
  cases hlo : locate t (namesOf way++[comp]) with
  | ok object =>
    obtain ⟨m,ino⟩ := object
    rw [hlo] at hpa
    obtain ⟨mode,hrea,hcase⟩ := hpa
    have hst := walkStep_of_object hwa hna.dots hat follow rest hlo hrea
    by_cases hla : rest = []
    · -- at the end the object itself is looked up
      subst hla
      have hag := arrive_at hc hd hn
      rw [objectAt,hlo] at hag
      simp only [hrea] at hag
      rw [hst,walkObject]
      have hno : isLink mode = true → follow = false := by
        intro hl
        obtain hdi | ⟨-,hf⟩ := hcase
        · rw [not_link_of_directory hdi] at hl
          cases hl
        · exact hf hl
      by_cases hl : isLink mode = true
      · simpa [hl,hno hl,resolveLoop] using hag
      · simpa [hl,resolveLoop] using hag
    · have hdi : isDirectory mode = true := hcase.resolve_right (fun h => hla h.1)
      have hp := not_link_of_directory hdi
      have hmv : walkStep t follow way comp rest = .move (⟨comp,m,ino⟩::way) := by
        rw [hst,walkObject]
        simp [hp,hla,hdi]
      rw [hmv]
      exact hne _ d rfl (hwa.into hna hlo hrea hp) hmv hd
  | error e =>
    rw [hlo] at hpa
    rw [walkStep_of_error hwa hna.dots hat follow rest hlo]
    obtain rfl | ⟨c,rest',rfl,hdo,hfm,hmo,hab⟩ := hpa
    · have hag := arrive_at hc hd hn
      rw [objectAt,hlo] at hag
      exact hag
    have hco := hres c (by simp)
    have hn' : ∀ w ∈ namesOf way++[comp]++[c], Name w := names_snoc hn ⟨hco.word,hco.dot,hdo⟩
    have hlo' : locate t (namesOf way++[comp]++[c]) = .error e := by rw [locate_snoc hmo,hlo]
    have hany : t.any (fun m => (textOf (namesOf way++[comp]++[c])++['/']).isPrefixOf m.target) = false := by
      rw [← Bool.not_eq_true]
      exact fun h => hab (above_of_any hc hn' (by simp) h)
    rw [resolveLoop,if_neg hdo,childText_textOf hn]
    simp only [hfm,hany,Bool.false_eq_true,if_false]
    rcases resolve_lookup hc hd hn' with ⟨hre,hlo2⟩ | ⟨m,rel,-,hre,hd',-,hf⟩
    · simp only [hre]
      rw [hlo'] at hlo2
      cases hlo2
      exact ⟨hd,rfl⟩
    simp only [hre]
    rcases hl : lookupInFs d m rel with ⟨d',r⟩
    rw [hl] at hd' hf
    rcases hf with ⟨e',hr,hlo2⟩ | ⟨ino,hr,hlo2⟩
    · obtain rfl : r = .error e' := hr
      rw [hlo'] at hlo2
      cases hlo2
      exact ⟨hd',rfl⟩
    · rw [hlo'] at hlo2
      cases hlo2

lemma resolveLoop_agrees (hc : Canonical t) (hcl : Clear t follow path) (hle : n ≤ 40)
    (ha : AgreeAgain t follow path (n+1) code walk) (rest : List Text) (way : List Place) (d : DentryCache)
    (hv : Visits t follow path n way rest) (hres : ∀ w ∈ rest, Component w) (hwa : Standing t way) (hd : Dentries t d) :
    Agree t (resolveLoop t follow code rest (textOf (namesOf way)) d) (walkLoop t follow walk rest way) := by
  induction rest generalizing way d with
  | nil => exact arrive_agrees hc hd hwa
  | cons comp rest ih =>
    have hco := hres comp (by simp)
    have hr' : ∀ w ∈ rest, Component w := fun w hw => hres w (by simp [hw])
    have hclear := hcl n hle way comp rest hv
    rw [resolveLoop]
    by_cases hdo : comp = ['.','.']
    · have hmv : walkStep t follow way comp rest = .move way.tail := by rw [walkStep,if_pos hdo]
      rw [walkLoop,hmv]
      simp only [if_pos hdo,parentText_textOf hwa.names,← namesOf_tail]
      exact ih way.tail d (hv.move hmv) hr' hwa.tail hd
    have hna : Name comp := ⟨hco.word,hco.dot,hdo⟩
    have hn := names_snoc hwa.names hna
    obtain ⟨hmo,hpass⟩ := hclear hdo
    have hne : ∀ (place : Place) (d : DentryCache), place.name = comp → Standing t (place::way) →
        walkStep t follow way comp rest = .move (place::way) → Dentries t d →
        Agree t (resolveLoop t follow code rest (textOf (namesOf way++[comp])) d)
          (walkLoop t follow walk rest (place::way)) := by
      intro place d hpn hpl hmv hd
      have h := ih (place::way) d (hv.move hmv) hr' hpl hd
      rwa [namesOf_cons,hpn] at h
    simp only [if_neg hdo,childText_textOf hwa.names,hmo]
    cases hat : mountAt t (namesOf way++[comp]) with
    | some m =>
      rw [walkLoop]
      cases hrea : m.fs.readInode m.fs.rootInode with
      | error e =>
        simp only [walkStep,if_neg hdo,hat,hrea]
        exact ⟨hd,rfl⟩
      | ok mode =>
        have hm : m ∈ t := mem_of_find?_eq_some hat
        have hmv : walkStep t follow way comp rest = .move (⟨comp,m,m.fs.rootInode⟩::way) := by
          simp only [walkStep,if_neg hdo,hat,hrea]
        rw [hmv]
        simp only [hrea]
        exact hne _ d rfl (hwa.into hna (locate_mount hc hat (by simp)) hrea (hc.root m hm mode hrea)) hmv hd
    | none =>
      dsimp only
      split
      · next han => exact skip_agrees hc hd hwa hna hat hr' (hpass hat (above_of_any hc hn (by simp) han)) hne
      rw [walkLoop]
      rcases resolve_lookup hc hd hn with ⟨hre,hlo⟩ | ⟨m,rel,hm,hre,hd',-,hf⟩
      · simp only [hre,walkStep_of_error hwa hdo hat follow rest hlo]
        exact ⟨hd,rfl⟩
      simp only [hre]
      rcases hl : lookupInFs d m rel with ⟨d',r⟩
      rw [hl] at hd' hf
      rcases hf with ⟨e,hr,hlo⟩ | ⟨ino,hr,ho⟩
      · obtain rfl : r = .error e := hr
        simp only [walkStep_of_error hwa hdo hat follow rest hlo]
        exact ⟨hd',rfl⟩
      obtain rfl : r = .ok ino := hr
      obtain ⟨-,mode,-,-,hrea⟩ := locate_snoc_ok hat ho
      have hst := walkStep_of_object hwa hdo hat follow rest ho hrea
      rw [walkObject] at hst
      simp only [hrea]
      by_cases hlin : isLink mode = true
      · rw [if_pos hlin] at hst ⊢
        by_cases hs : rest = [] ∧ follow = false
        · rw [if_pos hs] at hst ⊢
          rw [hst]
          exact ⟨hd',rfl⟩
        rw [if_neg hs] at hst ⊢
        have hvi : ∀ target, m.fs.readlink ino = .ok target →
            Visits t follow path (n+1) (if target.head? = some '/' then [] else way) (components target++rest) := by
          intro target ht
          rw [ht] at hst
          exact hv.expand hst
        have h := link_agrees hr' hwa hd' ha hvi
        rw [hst]
        cases ht : m.fs.readlink ino with
        | error e | ok target =>
          rw [ht] at h
          exact h
      · have hp : isLink mode = false := by simpa using hlin
        rw [if_neg hlin] at hst ⊢
        by_cases hla : rest = []
        · rw [if_pos hla] at hst ⊢
          rw [hst]
          exact ⟨hd',rfl⟩
        rw [if_neg hla] at hst ⊢
        by_cases hdi : isDirectory mode = true
        · rw [if_pos hdi] at hst ⊢
          rw [hst]
          exact hne _ d' rfl (hwa.into hna ho hrea hp) hst hd'
        · rw [if_neg hdi] at hst ⊢
          rw [hst]
          exact ⟨hd',rfl⟩

lemma resolveFrom_agrees (hc : Canonical t) (hcl : Clear t follow path) (ho : Nat) (rest : List Text)
    (way : List Place) (d : DentryCache) (hn : n+ho = 40) (hv : Visits t follow path n way rest)
    (hr : ∀ w ∈ rest, Component w) (hw : Standing t way) (hd : Dentries t d) :
    Agree t (resolveFrom t follow ho rest (textOf (namesOf way)) d) (walkFrom t follow ho rest way) := by
  induction ho generalizing rest way d n with
  | zero =>
    have ha : AgreeAgain t follow path (n+1) none none := trivial
    exact resolveLoop_agrees hc hcl (by omega) ha rest way d hv hr hw hd
  | succ ho ih =>
    have ha : AgreeAgain t follow path (n+1) (some (resolveFrom t follow ho)) (some (walkFrom t follow ho)) :=
      fun rest way d hv hr hw hd => ih rest way d (by omega) hv hr hw hd
    exact resolveLoop_agrees hc hcl (by omega) ha rest way d hv hr hw hd

/-- Every name but the last leads to something that is no symlink, and so does the last one unless it was
not to be followed. -/
structure CanonicalPath (t : MountTable) (follow : Bool) (found : Found) : Prop where
  names : ∀ w ∈ found.names, Name w
  plain : ∀ ms c vs, found.names = ms++[c]++vs → vs ≠ [] →
    ∃ m ino mode, locate t (ms++[c]) = .ok (m,ino) ∧ m.fs.readInode ino = .ok mode ∧ isLink mode = false
  last : locate t found.names = .ok (found.mount,found.ino) ∧ found.mount.fs.readInode found.ino = .ok found.mode ∧
    (found.names ≠ [] → isLink found.mode = true → follow = false)

lemma Standing.plain (h : Standing t way) (ms vs : List Text) (c : Text) (he : namesOf way = ms++[c]++vs) :
    ∃ m ino mode, locate t (ms++[c]) = .ok (m,ino) ∧ m.fs.readInode ino = .ok mode ∧ isLink mode = false := by
  induction h generalizing vs with
  | root => simp [namesOf] at he
  | @push place way mode below name object read plain ih =>
    rcases eq_nil_or_concat vs with rfl | ⟨init,last,rfl⟩
    · rw [append_nil] at he
      rw [← he]
      exact ⟨_,_,mode,object,read,plain⟩
    · rw [namesOf_cons,concat_eq_append,← append_assoc] at he
      exact ih init (append_inj_left' he rfl)

lemma Standing.canonical (hw : Standing t way) (hn : Name comp) (hlo : locate t (namesOf way++[comp]) = .ok (m,ino))
    (hr : m.fs.readInode ino = .ok mode) (hl : isLink mode = true → follow = false) :
    CanonicalPath t follow ⟨m,ino,mode,namesOf way++[comp]⟩ := by
  refine ⟨names_snoc hw.names hn,fun ms c vs he hv => ?_,hlo,hr,fun _ => hl⟩
  rcases eq_nil_or_concat vs with rfl | ⟨init,last,rfl⟩
  · exact absurd rfl hv
  · rw [concat_eq_append,← append_assoc] at he
    exact hw.plain ms init c (append_inj_left' he rfl)

/-- What one component leaves: a way stays one, and an object found at its end has a canonical path. -/
def Next.Sound (t : MountTable) (follow : Bool) (rest : List Text) : Next → Prop
  | .done r => ∀ found, r = .ok found → CanonicalPath t follow found
  | .move way => Standing t way
  | .expand r => ∀ way' rest', r = .ok (way',rest') → Standing t way' ∧
      ∃ m ∈ t, ∃ ino target, m.fs.readlink ino = .ok target ∧ rest' = components target++rest

lemma locate_mem {ns : List Text} (h : locate t ns = .ok (m,ino)) : m ∈ t := by
  rw [locate] at h
  cases hc : covering t ns with
  | none => simp [hc] at h
  | some m' =>
    simp only [hc] at h
    cases hw : walkFs m' (ns.drop m'.point.length) m'.fs.rootInode with
    | error e => simp [hw] at h
    | ok ino' =>
      obtain ⟨rfl,-⟩ : m' = m ∧ ino' = ino := by simpa [hw] using h
      rw [covering] at hc
      split at hc
      · next hf =>
        cases hc
        exact mem_of_find?_eq_some hf
      · exact mem_of_find?_eq_some hc

lemma walkObject_sound (hw : Standing t way) (hn : Name comp)
    (rest : List Text) (hlo : locate t (namesOf way++[comp]) = .ok (m,ino))
    (hr : m.fs.readInode ino = .ok mode) : (walkObject follow way comp rest m ino mode).Sound t follow rest := by
  have hf (hla : isLink mode = true → follow = false) :
      Next.Sound t follow rest (.done (.ok ⟨m,ino,mode,namesOf way++[comp]⟩)) := by
    intro found h
    cases h
    exact hw.canonical hn hlo hr hla
  rw [walkObject]
  by_cases hl : isLink mode = true
  · rw [if_pos hl]
    split
    · next hs => exact hf fun _ => hs.2
    split
    · simp [Next.Sound]
    next target ht =>
    intro way' rest' h
    cases h
    refine ⟨?_,m,locate_mem hlo,ino,target,ht,rfl⟩
    split
    · exact .root
    · exact hw
  · rw [if_neg hl]
    split
    · exact hf fun h => absurd h hl
    split
    · exact hw.into hn hlo hr (by simpa using hl)
    · simp [Next.Sound]

lemma walkStep_sound (hc : Canonical t) {follow : Bool} {way : List Place} (hwa : Standing t way) {comp : Text}
    (hw : Word '/' comp) (hdo : comp ≠ ['.']) (rest : List Text) :
    (walkStep t follow way comp rest).Sound t follow rest := by
  by_cases hd : comp = ['.','.']
  · rw [walkStep,if_pos hd]
    exact hwa.tail
  have hn : Name comp := ⟨hw,hdo,hd⟩
  cases ha : mountAt t (namesOf way++[comp]) with
  | some m =>
    simp only [walkStep,if_neg hd,ha]
    cases hr : m.fs.readInode m.fs.rootInode with
    | error e => simp [Next.Sound]
    | ok mode =>
      have hp := hc.root m (mem_of_find?_eq_some ha) mode hr
      exact hwa.into hn (locate_mount hc ha (by simp)) hr hp
  | none =>
    cases hl : locate t (namesOf way++[comp]) with
    | error e => simp [walkStep_of_error hwa hd ha follow rest hl,Next.Sound]
    | ok object =>
      obtain ⟨m,ino⟩ := object
      obtain ⟨-,mode,-,-,hr⟩ := locate_snoc_ok ha hl
      rw [walkStep_of_object hwa hd ha follow rest hl hr]
      exact walkObject_sound hwa hn rest hl hr

variable {found : Found}

lemma walkEnd_canonical (hw : Standing t way) (h : walkEnd t way = .ok found) : CanonicalPath t follow found := by
  rw [walkEnd,← hw.located] at h
  cases hlo : locate t (namesOf way) with
  | error e => simp [hlo] at h
  | ok object =>
    obtain ⟨m,ino⟩ := object
    simp only [hlo] at h
    cases hr : m.fs.readInode ino with
    | error e => simp [hr] at h
    | ok mode =>
      simp only [hr,Except.ok.injEq] at h
      subst h
      refine ⟨hw.names,fun ms c vs he _ => hw.plain ms vs c he,hlo,hr,fun hn hl => ?_⟩
      -- the innermost place of a way is no symlink
      obtain ⟨ms,c,he⟩ := (eq_nil_or_concat (namesOf way)).resolve_left hn
      rw [concat_eq_append] at he
      obtain ⟨m',ino',mode',hl',hr',hp⟩ := hw.plain ms [] c (by simpa using he)
      rw [← he,hlo] at hl'
      cases hl'
      rw [hr] at hr'
      cases hr'
      simp [hp] at hl

lemma Walks.canonical (hc : Canonical t) {n : Nat}
    {r : Except VfsError Found} (h : Walks t follow way rest n r) (hwa : Standing t way)
    (hre : ∀ w ∈ rest, Word '/' w ∧ w ≠ ['.']) (hr : r = .ok found) : CanonicalPath t follow found := by
  induction h with
  | finish way => exact walkEnd_canonical hwa hr
  | @done way comp rest r h =>
    obtain ⟨hwo,hd⟩ := hre comp (by simp)
    have hs := @walkStep_sound t hc follow way hwa comp hwo hd rest
    rw [h] at hs
    exact hs found hr
  | @move way way' comp rest n r h next ih =>
    obtain ⟨hwo,hd⟩ := hre comp (by simp)
    have hs := @walkStep_sound t hc follow way hwa comp hwo hd rest
    rw [h] at hs
    exact ih hs (fun w hw => hre w (by simp [hw])) hr
  | unreadable h => cases hr
  | @expand way way' comp rest rest' n r h next ih =>
    obtain ⟨hwo,hd⟩ := hre comp (by simp)
    have hs := @walkStep_sound t hc follow way hwa comp hwo hd rest
    rw [h] at hs
    obtain ⟨hw',-,-,-,target,-,rfl⟩ := hs way' rest' rfl
    refine ih hw' (fun w hw => ?_) hr
    rcases mem_append.1 hw with hw | hw
    · obtain ⟨hw,hd⟩ := mem_filter.1 hw
      exact ⟨word_of_mem_wordsOf hw,by simpa using hd⟩
    · exact hre w (by simp [hw])

end

lemma resolvePathVfs_walk {t : MountTable} {d : DentryCache} {path : Text} {follow : Bool} (hc : Canonical t)
    (hd : Dentries t d) (hclear : Clear t follow (components path)) :
    (resolvePathVfs t d path follow).2 = answer (walkFrom t follow 40 (components path) []) :=
  (resolveFrom_agrees hc hclear 40 _ [] d rfl .start (fun _ => component_of_mem) .root hd).2

def TidyLinks (t : MountTable) : Prop :=
  ∀ m ∈ t, ∀ ino target, m.fs.readlink ino = .ok target → ∀ w ∈ components target, Tidy w

/-- Every mount point is reached through directories. -/
def DirectoriesAbove (t : MountTable) : Prop :=
  ∀ ns, Above t ns → mountAt t ns = none →
    ∃ m ino mode, locate t ns = .ok (m,ino) ∧ m.fs.readInode ino = .ok mode ∧ isDirectory mode = true

lemma Visits.tidy {t : MountTable} (hc : Canonical t) (hl : TidyLinks t) {follow : Bool} {path rest : List Text} {n : Nat}
    {way : List Place} (hp : ∀ w ∈ path, Component w ∧ Tidy w) (h : Visits t follow path n way rest) :
    Standing t way ∧ ∀ w ∈ rest, Component w ∧ Tidy w := by
  induction h with
  | start => exact ⟨.root,hp⟩
  | @move n way way' comp rest before h ih =>
    obtain ⟨hs,hr⟩ := ih
    obtain ⟨hco,-⟩ := hr comp (by simp)
    have hso := @walkStep_sound t hc follow way hs comp hco.word hco.dot rest
    rw [h] at hso
    exact ⟨hso,fun w hw => hr w (by simp [hw])⟩
  | @expand n way way' comp rest rest' before h ih =>
    obtain ⟨hs,hr⟩ := ih
    obtain ⟨hco,-⟩ := hr comp (by simp)
    have hso := @walkStep_sound t hc follow way hs comp hco.word hco.dot rest
    rw [h] at hso
    obtain ⟨hs',m,hm,ino,target,ht,rfl⟩ := hso way' rest' rfl
    refine ⟨hs',fun w hw => ?_⟩
    rcases mem_append.1 hw with hw | hw
    · exact ⟨component_of_mem hw,hl m hm ino target ht w hw⟩
    · exact hr w (by simp [hw])

/-- With directories above the mount points and no blanks at the ends of names every path is clear. -/
lemma clear_of_tidy {t : MountTable} (hc : Canonical t) (ha : DirectoriesAbove t) (hl : TidyLinks t) (follow : Bool)
    {path : Text} (hp : ∀ w ∈ components path, Tidy w) : Clear t follow (components path) := by
  intro n _ way comp rest hv hdo
  obtain ⟨hs,hr⟩ := hv.tidy hc hl (fun w hw => ⟨component_of_mem hw,hp w hw⟩)
  obtain ⟨hco,hti⟩ := hr comp (by simp)
  have hna : Name comp := ⟨hco.word,hco.dot,hdo⟩
  refine ⟨?_,fun hat hab => ?_⟩
  · rw [MountTable.findMount,normalizeMountTarget_textOf hna hti]
    exact mountAt_eq hc (names_snoc hs.names hna)
  · obtain ⟨m,ino,mode,hlo,hrea,hdi⟩ := ha _ hab hat
    rw [Passable,hlo]
    exact ⟨mode,hrea,.inl hdi⟩

/-- A root directory with names: inode 1 is the root, inodes from 10 on are symlinks with a target, the others files. -/
def flatTree (entries : List (Text × Nat × Text)) : Tree where
  rootInode := 1
  lookup dir name :=
    match entries.find? (fun entry => dir = 1 ∧ entry.1 = name) with
    | some entry => .ok entry.2.1
    | none => .error .notFound
  readInode ino := .ok (if ino = 1 then 0o040755 else if 10 ≤ ino then 0o120777 else 0o100644)
  readlink ino :=
    match entries.find? (fun entry => entry.2.1 = ino) with
    | some entry => .ok entry.2.2
    | none => .error .invalidPath

lemma flatTree_tidy {entries : List (Text × Nat × Text)} (h : ∀ entry ∈ entries, ∀ w ∈ components entry.2.2, Tidy w)
    {ino : Nat} {target : Text} (ht : (flatTree entries).readlink ino = .ok target) :
    ∀ w ∈ components target, Tidy w := by
  simp only [flatTree] at ht
  split at ht
  · next entry hf =>
    cases ht
    exact h entry (mem_of_find?_eq_some hf)
  · cases ht

def linkedTable : MountTable :=
  [⟨2,['/','m'],flatTree [(['f'],2,[])],0⟩,⟨1,['/'],flatTree [(['l'],10,['m','/','f'])],0⟩]

lemma linkedTable_point {m : Mount} (hm : m ∈ linkedTable) : m.point = [['m']] ∨ m.point = [] := by
  simp only [linkedTable,mem_cons,not_mem_nil,or_false] at hm
  rcases hm with rfl | rfl
  · exact .inl (by decide +kernel)
  · exact .inr (by decide +kernel)

lemma linkedTable_canonical : Canonical linkedTable := by
  refine ⟨fun m hm w hw => ?_,?_,?_,?_,?_,fun m hm mode hr => ?_⟩
  · rcases linkedTable_point hm with h | h
    · rw [h,mem_singleton] at hw
      rw [hw]
      exact ⟨⟨by decide,by decide⟩,by decide,by decide⟩
    · simp [h] at hw
  · simp only [linkedTable,forall_mem_cons,not_mem_nil,false_implies,implies_true,and_true]
    exact ⟨by decide +kernel,by decide +kernel⟩
  · simp [linkedTable]
  · simp [linkedTable]
  · simp [linkedTable]
  · simp only [linkedTable,mem_cons,not_mem_nil,or_false] at hm
    rcases hm with rfl | rfl
    · cases hr
      decide
    · cases hr
      decide

lemma linkedTable_above : DirectoriesAbove linkedTable := by
  rintro ns ⟨m,hm,vs,hv,he⟩ hat
  -- only the root lies above a mount point, and something is mounted there
  have hl := congrArg length he
  have hpo := length_pos_iff.2 hv
  rw [length_append] at hl
  have hns : ns = [] := by
    rcases linkedTable_point hm with h | h
    · rw [h] at hl
      exact length_eq_zero_iff.1 (by simp at hl; omega)
    · rw [h] at hl
      exact length_eq_zero_iff.1 (by simp at hl; omega)
  subst hns
  have hn := find?_eq_none.1 hat ⟨1,['/'],flatTree [(['l'],10,['m','/','f'])],0⟩ (by simp [linkedTable])
  exact absurd (by decide +kernel) hn

lemma linkedTable_tidy : TidyLinks linkedTable := by
  intro m hm ino target ht
  simp only [linkedTable,mem_cons,not_mem_nil,or_false] at hm
  rcases hm with rfl | rfl <;> exact flatTree_tidy (by decide +kernel) ht

def Resolved.brief (r : Resolved) : Nat × Nat × Text := (r.mount.id,r.ino,r.path)

end Vanta.Fs
