import Vanta.Fs.TmpfsNames

/-! The directory graph stays a tree, and its nodes are those that are linked or open. -/

namespace Vanta.Fs
open Library Function Option

/-- What matters of a node besides its links. -/
@[ext] structure NodeView where
  nlink : Nat
  openCount : Nat
  directory : Bool

def TmpNode.view (node : TmpNode) : NodeView := ⟨node.nlink,node.openCount,node.kind.isDirectory⟩

namespace TmpTree
variable {fs fs' : TmpTree} {held : Nat → Nat}

def view (fs : TmpTree) (ino : Nat) : Option NodeView := (fs.nodes ino).map TmpNode.view

def Linked (fs : TmpTree) (ino : Nat) : Prop := ∃ p n, fs.link p n = some ino

@[simp] lemma setNode_nodes (fs : TmpTree) (ino : Nat) (node : Option TmpNode) (x : Nat) :
    (fs.setNode ino node).nodes x = if x = ino then node else fs.nodes x := by
  simp [setNode,update_apply]

lemma setNode_view (fs : TmpTree) (ino : Nat) (node : Option TmpNode) (x : Nat) :
    (fs.setNode ino node).view x = if x = ino then node.map TmpNode.view else fs.view x := by
  by_cases hx : x = ino <;> simp [view,hx]

lemma setNode_link (fs : TmpTree) (ino : Nat) (node : Option TmpNode) (p : Nat) (n : String) :
    (fs.setNode ino node).link p n = if p = ino then node.bind (fun node => node.kind.link n) else fs.link p n := by
  by_cases hp : p = ino <;> simp [link,hp]

variable {p : Nat} {node : TmpNode}

lemma link_of_node (h : fs.nodes p = some node) (n : String) : fs.link p n = node.kind.link n := by
  simp [link,h]

variable {ino : Nat}

lemma view_of_node (h : fs.nodes ino = some node) : fs.view ino = some node.view := by
  simp [view,h]

lemma view_eq_none : fs.view ino = none ↔ fs.nodes ino = none := by
  simp [view]

variable {c : Nat} {n : String}

lemma directory_of_link (h : fs.link p n = some c) : ∃ v, fs.view p = some v ∧ v.directory = true := by
  obtain ⟨node,hn,hl⟩ := bind_eq_some_iff.1 h
  refine ⟨node.view,view_of_node hn,?_⟩
  cases hk : node.kind <;> simp_all [TmpNodeKind.link,TmpNodeKind.isDirectory,TmpNode.view]

variable {v : NodeView}

lemma link_of_view (h : fs.view p = some v) (hv : v.directory = false) (n : String) : fs.link p n = none := by
  cases hl : fs.link p n with
  | none => rfl
  | some c =>
    obtain ⟨v',hv',hd⟩ := directory_of_link hl
    rw [h,some.injEq] at hv'
    rw [← hv',hv] at hd
    cases hd

lemma setEntries_spec {parent : Nat} {dir : TmpNode} {entries : List (String × Nat)} (hd : fs.nodes parent = some dir)
    (hk : dir.kind = .directory entries) (entries' : List (String × Nat)) :
    (∀ x, (fs.setNode parent (some {dir with kind := .directory entries'})).view x = fs.view x) ∧
      ∀ p n, (fs.setNode parent (some {dir with kind := .directory entries'})).link p n =
        if p = parent then entryGet entries' n else fs.link p n := by
  constructor
  · intro x
    rw [setNode_view]
    split
    · next hx => simp [hx,view_of_node hd,TmpNode.view,hk,TmpNodeKind.isDirectory]
    · rfl
  · intro p n
    rw [setNode_link]
    rfl

/-- What the nodes keep in every run. -/
structure Inv (fs : TmpTree) (held : Nat → Nat) : Prop where
  tree : LinkTree fs.link rootInode
  root : ∃ v, fs.view rootInode = some v ∧ v.directory = true
  live : ∀ {p n c}, fs.link p n = some c → fs.view c ≠ none
  dirs : ∀ {ino v}, fs.view ino = some v → v.directory = true → v.nlink = 2 ∧ (ino = rootInode ∨ fs.Linked ino)
  /-- A file or symlink is linked once, or not at all and open. -/
  files : ∀ {ino v}, fs.view ino = some v → v.directory = false →
    v.nlink = 1 ∧ fs.Linked ino ∨ v.nlink = 0 ∧ ¬fs.Linked ino ∧ v.openCount ≠ 0
  opened : ∀ {ino v}, fs.view ino = some v → v.openCount = held ino
  gone : ∀ {ino}, fs.view ino = none → held ino = 0
  fresh : ∀ ino, fs.nextIno ≤ ino → fs.view ino = none

lemma new_view (ino : Nat) : new.view ino = if ino = 1 then some ⟨2,0,true⟩ else none := by
  by_cases h : ino = 1 <;> simp [view,new,h,TmpNode.view,TmpNodeKind.isDirectory]

lemma new_link (p : Nat) (n : String) : new.link p n = none := by
  by_cases h : p = 1 <;> simp [link,new,h,TmpNodeKind.link,entryGet]

lemma new_inv : new.Inv (fun _ => 0) where
  tree := by
    have hl : new.link = fun _ _ => none := funext fun p => funext fun n => new_link p n
    rw [hl]
    exact .empty _
  root := ⟨⟨2,0,true⟩,by simp [new_view,rootInode],rfl⟩
  live h := by simp [new_link] at h
  dirs {ino v} h hd := by
    rw [new_view,ite_none_right_eq_some] at h
    obtain ⟨rfl,hv⟩ := h
    simp [← some.inj hv,rootInode]
  files {ino v} h hd := by
    rw [new_view,ite_none_right_eq_some] at h
    simp [← some.inj h.2] at hd
  opened {ino v} h := by
    rw [new_view,ite_none_right_eq_some] at h
    simp [← some.inj h.2]
  gone _ := rfl
  fresh ino h := by
    have hn : ino ≠ 1 := by
      rintro rfl
      exact absurd h (by decide)
    simp [new_view,hn]

namespace Inv
variable (h : fs.Inv held)
include h

lemma reached (hv : fs.view ino = some v) (hd : v.directory = true) : Reaches fs.link rootInode ino := by
  rcases (h.dirs hv hd).2 with rfl | ⟨p,n,hl⟩
  · exact .refl
  · exact h.tree.reached hl

lemma exact (ino : Nat) : fs.nodes ino ≠ none ↔ ino = rootInode ∨ fs.Linked ino ∨ held ino ≠ 0 := by
  rw [ne_eq,← view_eq_none]
  constructor
  · intro hs
    obtain ⟨v,hv⟩ := ne_none_iff_exists'.1 hs
    cases hd : v.directory with
    | true => exact (h.dirs hv hd).2.imp_right Or.inl
    | false =>
      rcases h.files hv hd with ⟨-,hl⟩ | ⟨-,-,ho⟩
      · exact .inr (.inl hl)
      · exact .inr (.inr (h.opened hv ▸ ho))
  · rintro (rfl | ⟨p,n,hli⟩ | hh) hn
    · obtain ⟨v,hv,-⟩ := h.root
      simp [hv] at hn
    · exact h.live hli hn
    · exact hh (h.gone hn)

lemma file_nlink (hl : fs.link p n = some c) (hv : fs.view c = some v) (hd : v.directory = false) : v.nlink = 1 := by
  rcases h.files hv hd with ⟨ho,-⟩ | ⟨-,hn,-⟩
  · exact ho
  · exact absurd ⟨p,n,hl⟩ hn

end Inv

/-- A new node is hung under a free name of a directory. -/
structure Added (fs fs' : TmpTree) (parent : Nat) (name : String) (v : NodeView) : Prop where
  directory : ∃ w, fs.view parent = some w ∧ w.directory = true
  free : fs.link parent name = none
  link : ∀ p n, fs'.link p n = if p = parent ∧ n = name then some fs.nextIno else fs.link p n
  view : ∀ x, fs'.view x = if x = fs.nextIno then some v else fs.view x
  next : fs'.nextIno = (fs.nextIno+1)%2^64

lemma addNode_spec (parent : Nat) (name : String) (hf : fs.view fs.nextIno = none) (hl : ∀ n, node.kind.link n = none) :
    (fs.addNode parent name node).1 = fs ∨ Added fs (fs.addNode parent name node).1 parent name node.view := by
  rw [addNode]
  split
  · exact .inl rfl
  next dir hd =>
  split
  · next entries hk =>
    split
    · exact .inl rfl
    next hfr =>
    obtain ⟨hv,hli⟩ := setEntries_spec hd hk (entryInsert entries name fs.nextIno)
    have hne : fs.nextIno ≠ parent := by
      rintro he
      rw [← he,view_eq_none.1 hf] at hd
      cases hd
    have ho : ∀ n, fs.link parent n = entryGet entries n := fun n => by rw [link_of_node hd,hk]; rfl
    refine .inr ⟨⟨dir.view,view_of_node hd,by simp [TmpNode.view,hk,TmpNodeKind.isDirectory]⟩,
      by rw [ho]; simpa using hfr,fun p n => ?_,fun x => ?_,rfl⟩
    · refine (setNode_link _ _ _ p n).trans ?_
      rw [hli,entryGet_insert]
      by_cases hp : p = fs.nextIno
      · have hno : fs.link p n = none := by simp [link,hp,view_eq_none.1 hf]
        simp [hp,hne,hl,hp ▸ hno]
      by_cases hpp : p = parent
      · by_cases hn : n = name <;> simp [hpp,hn,Ne.symm hne,ho]
      · simp [hp,hpp]
    · refine (setNode_view _ _ _ x).trans ?_
      rw [hv]
      rfl
  · exact .inl rfl

variable {x : Nat}

namespace Added
variable {parent : Nat} {name : String} {v : NodeView} (a : Added fs fs' parent name v)
include a

lemma linked_new : fs'.Linked fs.nextIno := ⟨parent,name,by simp [a.link]⟩

lemma linked_old (hx : x ≠ fs.nextIno) : fs'.Linked x ↔ fs.Linked x := by
  constructor
  · rintro ⟨p,n,hk⟩
    rw [a.link] at hk
    split_ifs at hk
    · exact absurd (some.inj hk).symm hx
    · exact ⟨p,n,hk⟩
  · rintro ⟨p,n,hk⟩
    refine ⟨p,n,?_⟩
    rw [a.link,if_neg]
    · exact hk
    · rintro ⟨rfl,rfl⟩
      simp [a.free] at hk

lemma inv (h : fs.Inv held) (hcl : v.openCount = 0) (hco : v.nlink = if v.directory then 2 else 1)
    (hroo : fs.nextIno+1 < 2^64) : fs'.Inv held := by
  have hi := h.fresh _ (Nat.le_refl _)
  obtain ⟨w,hw,hd⟩ := a.directory
  obtain ⟨r,hr,hrd⟩ := h.root
  have hro : fs.nextIno ≠ rootInode := by
    intro he
    simp [← he,hi] at hr
  have ho : ∀ {x u}, fs'.view x = some u → x ≠ fs.nextIno → fs.view x = some u := by
    intro x u hu hx
    rwa [a.view,if_neg hx] at hu
  have hn : ∀ {u}, fs'.view fs.nextIno = some u → u = v := by
    intro u hu
    rw [a.view,if_pos rfl] at hu
    exact (some.inj hu).symm
  refine ⟨h.tree.insert (h.reached hw hd) a.free hro (fun p n hk => h.live hk hi) a.link,
    ⟨r,by rw [a.view,if_neg (Ne.symm hro),hr],hrd⟩,fun {p n c} hk => ?_,fun {x u} hu hud => ?_,
    fun {x u} hu hud => ?_,fun {x u} hu => ?_,fun {x} hx => ?_,fun x hx => ?_⟩
  · by_cases hc : c = fs.nextIno
    · simp [a.view,hc]
    rw [a.link] at hk
    rw [a.view,if_neg hc]
    split_ifs at hk
    · exact absurd (some.inj hk).symm hc
    · exact h.live hk
  · by_cases hx : x = fs.nextIno
    · subst hx
      obtain rfl := hn hu
      exact ⟨by simpa [hud] using hco,.inr a.linked_new⟩
    · rw [a.linked_old hx]
      exact h.dirs (ho hu hx) hud
  · by_cases hx : x = fs.nextIno
    · subst hx
      obtain rfl := hn hu
      exact .inl ⟨by simpa [hud] using hco,a.linked_new⟩
    · rw [a.linked_old hx]
      exact h.files (ho hu hx) hud
  · by_cases hx : x = fs.nextIno
    · subst hx
      rw [hn hu,hcl,h.gone hi]
    · exact h.opened (ho hu hx)
  · rw [a.view] at hx
    split_ifs at hx
    exact h.gone hx
  · rw [a.next,Nat.mod_eq_of_lt hroo] at hx
    rw [a.view,if_neg (by omega)]
    exact h.fresh x (by omega)

end Added

lemma addNode_inv (h : fs.Inv held) (parent : Nat) (name : String)
    (hl : ∀ n, node.kind.link n = none) (hc : node.view.openCount = 0)
    (hco : node.view.nlink = if node.view.directory then 2 else 1) (hr : fs.nextIno+1 < 2^64) :
    (fs.addNode parent name node).1.Inv held := by
  rcases addNode_spec parent name (h.fresh _ (Nat.le_refl _)) hl with hs | a
  · rwa [hs]
  · exact a.inv h hc hco hr

variable {name : String} {parent target : Nat}

lemma entryAt_ok (h : fs.entryAt parent name = .ok target) :
    ∃ dir entries, fs.nodes parent = some dir ∧ dir.kind = .directory entries ∧ entryGet entries name = some target := by
  rw [entryAt] at h
  split at h
  · cases h
  next dir hd =>
  split at h
  · next entries hk =>
    split at h
    · next found hf => exact ⟨dir,entries,hd,hk,by rw [hf,Except.ok.inj h]⟩
    · cases h
  · cases h

lemma link_of_entryAt (h : fs.entryAt parent name = .ok target) : fs.link parent name = some target := by
  obtain ⟨dir,entries,hd,hk,hg⟩ := entryAt_ok h
  rw [link_of_node hd,hk]
  exact hg

lemma entryAt_of_link (h : fs.link parent name = some target) : fs.entryAt parent name = .ok target := by
  obtain ⟨dir,hd,hl⟩ := bind_eq_some_iff.1 h
  cases hk : dir.kind <;> simp_all [entryAt,TmpNodeKind.link]

lemma removeEntry_spec (h : fs.entryAt parent name = .ok target) :
    (∀ x, (fs.removeEntry parent name).view x = fs.view x) ∧ (fs.removeEntry parent name).nextIno = fs.nextIno ∧
      ∀ p n, (fs.removeEntry parent name).link p n = if p = parent ∧ n = name then none else fs.link p n := by
  obtain ⟨dir,entries,hd,hk,-⟩ := entryAt_ok h
  obtain ⟨hv,hl⟩ := setEntries_spec hd hk (entryErase entries name)
  have hr : fs.removeEntry parent name = fs.setNode parent (some {dir with kind := .directory (entryErase entries name)}) := by
    simp only [removeEntry,hd,hk]
  rw [hr]
  refine ⟨hv,rfl,fun p n => ?_⟩
  rw [hl,entryGet_erase]
  by_cases hp : p = parent
  · subst hp
    have ho : fs.link p n = entryGet entries n := by
      rw [link_of_node hd,hk]
      rfl
    simp [ho]
  · simp [hp]

/-- The one link of a node that is not a directory is removed. -/
structure Unlinked (fs fs' : TmpTree) (parent : Nat) (name : String) (target : Nat) (v : NodeView) : Prop where
  found : fs.link parent name = some target
  old : fs.view target = some v
  file : v.directory = false
  link : ∀ p n, fs'.link p n = if p = parent ∧ n = name then none else fs.link p n
  view : ∀ x, fs'.view x = if x = target then
    if v.nlink-1 = 0 ∧ v.openCount = 0 then none else some {v with nlink := v.nlink-1} else fs.view x
  next : fs'.nextIno = fs.nextIno

lemma unlink_spec (fs : TmpTree) (parent : Nat) (name : String) :
    (fs.unlink parent name).1 = fs ∨ ∃ target v, Unlinked fs (fs.unlink parent name).1 parent name target v := by
  rw [unlink]
  split
  · exact .inl rfl
  next target he =>
  split
  · exact .inl rfl
  next node hn =>
  split
  · exact .inl rfl
  next hf =>
  obtain ⟨hv,hnex,hli⟩ := removeEntry_spec he
  have hf' : node.view.directory = false := by simpa [TmpNode.view] using hf
  -- the entry that goes is the parent's, and the parent is a directory
  have hs : (fs.removeEntry parent name).nodes target = some node := by
    have hne : target ≠ parent := by
      rintro rfl
      obtain ⟨dir,entries,hd,hki,-⟩ := entryAt_ok he
      cases hd.symm.trans hn
      simp [hki,TmpNodeKind.isDirectory] at hf
    obtain ⟨dir,entries,hd,hki,-⟩ := entryAt_ok he
    simp [removeEntry,hd,hki,hne,hn]
  refine .inr ⟨target,node.view,link_of_entryAt he,view_of_node hn,hf',fun p n => ?_,fun x => ?_,?_⟩
  · have hl : (fs.removeEntry parent name).link target n = none := link_of_view (view_of_node hs) hf' n
    rw [← hli,dropLink]
    simp only [hs]
    have hk : node.kind.link n = none := by rw [← link_of_node hs,hl]
    split
    · rw [setNode_link]
      by_cases hp : p = target <;> simp [hp,hl]
    · rw [setNode_link]
      by_cases hp : p = target <;> simp [hp,hl,hk]
  · rw [dropLink]
    simp only [hs]
    by_cases hx : x = target
    · by_cases hla : node.nlink-1 = 0 ∧ node.openCount = 0
      · simp [hx,hla,setNode_view,TmpNode.view]
      · simp only [if_neg hla,setNode_view,hx,if_true,map_some]
        exact (if_neg hla).symm
    · split <;> simp [setNode_view,hx,hv]
  · rw [dropLink]
    simp only [hs]
    split <;> exact hnex

namespace Unlinked
variable {parent target : Nat} {name : String} {v : NodeView} (u : Unlinked fs fs' parent name target v)
include u

lemma linked (h : fs.Inv held) : fs'.Linked x ↔ fs.Linked x ∧ x ≠ target := by
  constructor
  · rintro ⟨p,n,hk⟩
    rw [u.link] at hk
    split_ifs at hk with hp
    refine ⟨⟨p,n,hk⟩,?_⟩
    rintro rfl
    exact hp (h.tree.unique u.found hk)
  · rintro ⟨⟨p,n,hk⟩,hx⟩
    refine ⟨p,n,?_⟩
    rw [u.link,if_neg]
    · exact hk
    · rintro ⟨rfl,rfl⟩
      exact hx (some.inj (hk.symm.trans u.found))

lemma inv (h : fs.Inv held) : fs'.Inv held := by
  obtain ⟨r,hr,hrd⟩ := h.root
  have hon := h.file_nlink u.found u.old u.file
  have hro : rootInode ≠ target := fun he => h.tree.orphan parent name (he ▸ u.found)
  have hle : ∀ n, fs.link target n = none := link_of_view u.old u.file
  have ht : fs'.view target = if v.openCount = 0 then none else some {v with nlink := 0} := by
    simp [u.view,hon]
  have hol : ∀ {x w}, fs'.view x = some w → x ≠ target → fs.view x = some w := by
    intro x w hw hx
    rwa [u.view,if_neg hx] at hw
  have hnew : ∀ {w}, fs'.view target = some w → v.openCount ≠ 0 ∧ w = {v with nlink := 0} := by
    intro w hw
    rw [ht] at hw
    split_ifs at hw with hc
    exact ⟨hc,(some.inj hw).symm⟩
  refine ⟨h.tree.erase u.found hle u.link,⟨r,by rw [u.view,if_neg hro,hr],hrd⟩,fun {p n c} hk => ?_,
    fun {x w} hw hd => ?_,fun {x w} hw hd => ?_,fun {x w} hw => ?_,fun {x} hx => ?_,fun x hx => ?_⟩
  · have hne : c ≠ target := ((u.linked h).1 ⟨p,n,hk⟩).2
    rw [u.link] at hk
    split_ifs at hk
    rw [u.view,if_neg hne]
    exact h.live hk
  · have hne : x ≠ target := by
      rintro rfl
      simp [(hnew hw).2,u.file] at hd
    obtain ⟨htw,hli⟩ := h.dirs (hol hw hne) hd
    exact ⟨htw,hli.imp_right fun hl => (u.linked h).2 ⟨hl,hne⟩⟩
  · by_cases hx : x = target
    · subst hx
      obtain ⟨ho,rfl⟩ := hnew hw
      exact .inr ⟨rfl,fun hl => ((u.linked h).1 hl).2 rfl,ho⟩
    · have hco := h.files (hol hw hx) hd
      rw [u.linked h]
      simpa [hx] using hco
  · by_cases hx : x = target
    · subst hx
      obtain ⟨-,rfl⟩ := hnew hw
      have hco := h.opened u.old
      exact hco
    · exact h.opened (hol hw hx)
  · by_cases hxt : x = target
    · subst hxt
      rw [ht] at hx
      split_ifs at hx with hc
      rw [← h.opened u.old,hc]
    · rw [u.view,if_neg hxt] at hx
      exact h.gone hx
  · rw [u.next] at hx
    have hn := h.fresh x hx
    have hne : x ≠ target := by
      rintro rfl
      simp [u.old] at hn
    rw [u.view,if_neg hne,hn]

end Unlinked

/-- A link moves to a new place in a directory. -/
structure Moved (fs fs' : TmpTree) (oldParent : Nat) (old : String) (newParent : Nat) (new : String) (target : Nat) :
    Prop where
  found : fs.link oldParent old = some target
  link : ∀ p n, fs'.link p n = if p = newParent ∧ n = new then some target
    else if p = oldParent ∧ n = old then none else fs.link p n
  view : ∀ x, fs'.view x = fs.view x
  next : fs'.nextIno = fs.nextIno

lemma rename_spec {oldParent newParent : Nat} {old new : String}
    (hd : fs.link oldParent old ≠ none → ∃ v, fs.view newParent = some v ∧ v.directory = true) :
    (∃ e, fs.rename oldParent old newParent new = (fs,.error e) ∧ fs.link oldParent old = none) ∨
      ∃ fs' target, fs.rename oldParent old newParent new = (fs',.ok ()) ∧
        Moved fs fs' oldParent old newParent new target := by
  rw [rename]
  cases he : fs.entryAt oldParent old with
  | error e =>
    refine .inl ⟨e,rfl,?_⟩
    cases hl : fs.link oldParent old with
    | none => rfl
    | some target =>
      rw [entryAt_of_link hl] at he
      cases he
  | ok target =>
    have hf := link_of_entryAt he
    obtain ⟨hvi,hne,hl⟩ := removeEntry_spec he
    obtain ⟨v,hv,hvd⟩ := hd (by simp [hf])
    rw [← hvi] at hv
    obtain ⟨dir,hno,rfl⟩ := map_eq_some_iff.1 hv
    obtain ⟨entries,hk⟩ : ∃ entries, dir.kind = .directory entries := by
      cases hk : dir.kind <;> simp_all [TmpNode.view,TmpNodeKind.isDirectory]
    obtain ⟨hv',hl'⟩ := setEntries_spec hno hk (entryInsert entries new target)
    simp only [hno,hk]
    refine .inr ⟨_,target,rfl,hf,fun p n => ?_,fun x => (hv' x).trans (hvi x),hne⟩
    rw [hl',entryGet_insert,← hl]
    by_cases hp : p = newParent
    · by_cases hn : n = new
      · simp [hp,hn]
      have ho : (fs.removeEntry oldParent old).link newParent n = entryGet entries n := by
        rw [link_of_node hno,hk]
        rfl
      simp [hp,hn,ho]
    · simp [hp]

namespace Moved
variable {oldParent newParent target : Nat} {old new : String} (m : Moved fs fs' oldParent old newParent new target)
include m

lemma linked (hf : fs.link newParent new = none ∨ newParent = oldParent ∧ new = old) : fs'.Linked x ↔ fs.Linked x := by
  constructor
  · rintro ⟨p,n,hk⟩
    rw [m.link] at hk
    split_ifs at hk
    · exact ⟨oldParent,old,by rw [m.found,← some.inj hk]⟩
    · exact ⟨p,n,hk⟩
  · rintro ⟨p,n,hk⟩
    by_cases hp : p = oldParent ∧ n = old
    · obtain ⟨rfl,rfl⟩ := hp
      exact ⟨newParent,new,by simp [m.link,← m.found,hk]⟩
    · exact ⟨p,n,LinkTree.moved_link hf m.link hk hp⟩

lemma inv (h : fs.Inv held) (hdi : ∃ v, fs.view newParent = some v ∧ v.directory = true)
    (hf : fs.link newParent new = none ∨ newParent = oldParent ∧ new = old)
    (hb : ¬Reaches fs.link target newParent) : fs'.Inv held := by
  obtain ⟨v,hv,hvd⟩ := hdi
  refine ⟨h.tree.move m.found hf hb m.link (h.reached hv hvd),by simpa [m.view] using h.root,
    fun {p n c} hk => ?_,fun hw hd => ?_,fun hw hd => ?_,fun hw => h.opened (m.view _ ▸ hw),
    fun hx => h.gone (m.view _ ▸ hx),fun x hx => ?_⟩
  · obtain ⟨q,k,ho⟩ := (m.linked hf).1 ⟨p,n,hk⟩
    rw [m.view]
    exact h.live ho
  · rw [m.linked hf]
    exact h.dirs (m.view _ ▸ hw) hd
  · rw [m.linked hf]
    exact h.files (m.view _ ▸ hw) hd
  · rw [m.view]
    exact h.fresh x (m.next ▸ hx)

end Moved

/-- The open count of a node changes. -/
structure Recounted (fs fs' : TmpTree) (ino : Nat) (v : NodeView) (count : Nat) : Prop where
  old : fs.view ino = some v
  link : ∀ p n, fs'.link p n = fs.link p n
  view : ∀ x, fs'.view x = if x = ino then some ⟨v.nlink,count,v.directory⟩ else fs.view x
  next : fs'.nextIno = fs.nextIno

variable {ino : Nat}

lemma setNode_recounted (hn : fs.nodes ino = some node) (count : Nat) :
    Recounted fs (fs.setNode ino (some {node with openCount := count})) ino node.view count where
  old := view_of_node hn
  link p n := by
    rw [setNode_link]
    split
    · next hp => simp [hp,link_of_node hn]
    · rfl
  view x := setNode_view fs ino _ x
  next := rfl

variable {he' : Nat → Nat}

lemma Recounted.inv {count : Nat} (c : Recounted fs fs' ino v count)
    (h : fs.Inv held) (hh : ∀ x, he' x = if x = ino then count else held x)
    (hs : v.nlink = 0 → count ≠ 0) : fs'.Inv he' := by
  have hli : fs'.link = fs.link := funext fun p => funext fun n => c.link p n
  have hl : ∀ x, fs'.Linked x ↔ fs.Linked x := by simp [Linked,hli]
  -- every view is the old one but for the count
  have hol : ∀ {x w}, fs'.view x = some w → ∃ u, fs.view x = some u ∧ w.nlink = u.nlink ∧
      w.directory = u.directory ∧ w.openCount = (if x = ino then count else u.openCount) ∧ (x = ino → u = v) := by
    intro x w hw
    rw [c.view] at hw
    split_ifs at hw with hx
    · cases hw
      exact ⟨v,hx ▸ c.old,rfl,rfl,by simp [hx],fun _ => rfl⟩
    · exact ⟨w,hw,rfl,rfl,by simp [hx],fun he => absurd he hx⟩
  have hno : ∀ {x}, fs'.view x = none ↔ fs.view x = none := by
    intro x
    rw [c.view]
    split
    · next hx => simp [hx,c.old]
    · rfl
  refine ⟨hli ▸ h.tree,?_,fun {p n x} hk hx => ?_,fun {x w} hw hd => ?_,fun {x w} hw hd => ?_,fun {x w} hw => ?_,
    fun {x} hx => ?_,fun x hx => ?_⟩
  · obtain ⟨r,hr,hrd⟩ := h.root
    have hso : fs'.view rootInode ≠ none := fun hn => by simp [hno.1 hn] at hr
    obtain ⟨w,hw⟩ := ne_none_iff_exists'.1 hso
    obtain ⟨u,hu,-,hdi,-⟩ := hol hw
    cases hr.symm.trans hu
    exact ⟨w,hw,hdi.trans hrd⟩
  · exact h.live (c.link p n ▸ hk) (hno.1 hx)
  · obtain ⟨u,hu,hn,hdi,-⟩ := hol hw
    rw [hl,hn]
    exact h.dirs hu (hdi ▸ hd)
  · obtain ⟨u,hu,hn,hdi,hc,hv⟩ := hol hw
    rw [hl,hn,hc]
    refine (h.files hu (hdi ▸ hd)).imp_right fun ⟨hz,hnot,ho⟩ => ⟨hz,hnot,?_⟩
    split
    · next hx => exact hs (hv hx ▸ hz)
    · exact ho
  · obtain ⟨u,hu,-,-,hc,-⟩ := hol hw
    rw [hc,hh,h.opened hu]
  · have hne : x ≠ ino := by
      rintro rfl
      simp [hno,c.old] at hx
    rw [hh,if_neg hne]
    exact h.gone (hno.1 hx)
  · rw [hno]
    exact h.fresh x (c.next ▸ hx)

lemma openInode_inv (h : fs.Inv held) (hr : ∀ node, fs.nodes ino = some node → node.openCount < 2^32-1) :
    (fs.openInode ino).Inv (fs.holds held (.openInode ino)) := by
  rw [openInode,holds]
  cases hn : fs.nodes ino with
  | none => exact h
  | some node =>
    have hc : min (node.openCount+1) (2^32-1) = node.openCount+1 := Nat.min_eq_left (hr node hn)
    have hh : node.openCount = held ino := h.opened (view_of_node hn)
    simp only [hc]
    refine (setNode_recounted hn (node.openCount+1)).inv h (fun x => ?_) (fun _ => Nat.succ_ne_zero _)
    simp [update_apply,hh]

lemma removed_inv (h : fs.Inv held) (hv : fs.view ino = some v)
    (hz : v.nlink = 0) (hh : ∀ x, he' x = if x = ino then 0 else held x) : (fs.setNode ino none).Inv he' := by
  have hf : v.directory = false := by
    cases hdi : v.directory with
    | false => rfl
    | true => simp [(h.dirs hv hdi).1] at hz
  have hu : ¬fs.Linked ino := by
    rcases h.files hv hf with ⟨hon,-⟩ | ⟨-,hn,-⟩
    · simp [hon] at hz
    · exact hn
  have hli : (fs.setNode ino none).link = fs.link := by
    funext p n
    rw [setNode_link]
    split
    · next hp => simp [hp,link_of_view hv hf]
    · rfl
  have hl : ∀ x, (fs.setNode ino none).Linked x ↔ fs.Linked x := by simp [Linked,hli]
  have ho : ∀ {x w}, (fs.setNode ino none).view x = some w → x ≠ ino ∧ fs.view x = some w := by
    intro x w hw
    rw [setNode_view] at hw
    split_ifs at hw with hx
    · cases hw
    · exact ⟨hx,hw⟩
  refine ⟨hli ▸ h.tree,?_,fun {p n x} hk => ?_,fun {x w} hw hd => ?_,fun {x w} hw hd => ?_,fun {x w} hw => ?_,
    fun {x} hx => ?_,fun x hx => ?_⟩
  · obtain ⟨r,hr,hrd⟩ := h.root
    have hne : rootInode ≠ ino := by
      rintro rfl
      cases hr.symm.trans hv
      simp [hrd] at hf
    exact ⟨r,by rw [setNode_view,if_neg hne,hr],hrd⟩
  · rw [hli] at hk
    have hne : x ≠ ino := fun he => hu ⟨p,n,he ▸ hk⟩
    rw [setNode_view,if_neg hne]
    exact h.live hk
  · rw [hl]
    exact h.dirs (ho hw).2 hd
  · rw [hl]
    exact h.files (ho hw).2 hd
  · rw [hh,if_neg (ho hw).1]
    exact h.opened (ho hw).2
  · rw [hh]
    split
    · rfl
    next hne =>
    rw [setNode_view,if_neg hne] at hx
    exact h.gone hx
  · rw [setNode_view]
    split
    · rfl
    · exact h.fresh x hx

lemma closeInode_inv (h : fs.Inv held) (ino : Nat) : (fs.closeInode ino).Inv (fs.holds held (.closeInode ino)) := by
  rw [closeInode,holds]
  cases hn : fs.nodes ino with
  | none =>
    have hsa : update held ino (held ino-1) = held := by
      rw [update_eq_self_iff,h.gone (view_eq_none.2 hn)]
    rw [hsa]
    exact h
  | some node =>
    have hh : node.openCount = held ino := h.opened (view_of_node hn)
    simp only
    split
    · next hl =>
      refine removed_inv h (view_of_node hn) hl.1 fun x => ?_
      rw [update_apply,← hh,hl.2]
    · next hs =>
      refine (setNode_recounted hn (node.openCount-1)).inv h (fun x => ?_) fun hz hl => hs ⟨hz,hl⟩
      rw [update_apply,← hh]

lemma isDirectory_iff : fs.isDirectory ino = true ↔ ∃ v, fs.view ino = some v ∧ v.directory = true := by
  rw [isDirectory,view]
  cases fs.nodes ino with
  | none => simp
  | some node => simp [TmpNode.view]

lemma rmdir_ok {parent : Nat} {name : String} (h : (fs.rmdir parent name).2 = .ok ()) :
    ∃ target node, fs.link parent name = some target ∧ fs.nodes target = some node ∧ node.kind = .directory [] := by
  rw [rmdir] at h
  split at h
  · cases h
  next target he =>
  split at h
  · cases h
  next node hn =>
  split at h
  · next entries hk =>
    split at h
    · next hem =>
      exact ⟨target,node,link_of_entryAt he,hn,by rw [hk,List.isEmpty_iff.1 hem]⟩
    · cases h
  · cases h

lemma rmdir_error {parent : Nat} {name : String} (h : (fs.rmdir parent name).2 ≠ .ok ()) :
    (fs.rmdir parent name).1 = fs := by
  rw [rmdir] at h ⊢
  split at h
  · rfl
  split at h
  · rfl
  split at h
  · split at h
    · exact absurd rfl h
    · next he => simp [he]
  · rfl

/-- An unused node number, no empty directory to remove, a rename to a free name that is not below the node, and room in
the open count. -/
def Safe (fs : TmpTree) : TmpCall → Prop
  | .create _ _ _ | .mkdir _ _ _ | .symlink _ _ _ => fs.nextIno+1 < 2^64
  | .rmdir parent name => ∀ target node, fs.link parent name = some target → fs.nodes target = some node →
    node.kind ≠ .directory []
  | .rename oldParent old newParent new => ∀ target, fs.link oldParent old = some target →
    fs.isDirectory newParent = true ∧ (fs.link newParent new = none ∨ newParent = oldParent ∧ new = old) ∧
      ¬Reaches fs.link target newParent
  | .openInode ino => ∀ node, fs.nodes ino = some node → node.openCount < 2^32-1
  | _ => True

lemma rename_safe {oldParent newParent : Nat} {old new : String} (hs : fs.Safe (.rename oldParent old newParent new)) :
    (∃ e, fs.rename oldParent old newParent new = (fs,.error e)) ∨
      ∃ fs' target, fs.rename oldParent old newParent new = (fs',.ok ()) ∧
        Moved fs fs' oldParent old newParent new target := by
  have hd : fs.link oldParent old ≠ none → ∃ v, fs.view newParent = some v ∧ v.directory = true := by
    intro hn
    obtain ⟨target,ht⟩ := ne_none_iff_exists'.1 hn
    exact isDirectory_iff.1 (hs target ht).1
  exact (rename_spec hd).imp_left fun ⟨e,hr,_⟩ => ⟨e,hr⟩

lemma step_inv (h : fs.Inv held) {call : TmpCall} (hs : fs.Safe call) : (fs.step call).Inv (fs.holds held call) := by
  cases call with
  | create parent name mode | mkdir parent name mode => exact addNode_inv h parent name (fun _ => rfl) rfl rfl hs
  | symlink parent name target => exact addNode_inv h parent name (fun _ => rfl) rfl rfl hs
  | unlink parent name =>
    rcases unlink_spec fs parent name with hsa | ⟨target,v,u⟩
    · exact (congrArg (Inv · held) hsa).mpr h
    · exact u.inv h
  | rmdir parent name =>
    have hf : (fs.rmdir parent name).2 ≠ .ok () := by
      intro ho
      obtain ⟨target,node,hl,hn,he⟩ := rmdir_ok ho
      exact hs target node hl hn he
    exact (congrArg (Inv · held) (rmdir_error hf)).mpr h
  | rename oldParent old newParent new =>
    rw [step,holds]
    · rcases rename_safe hs with ⟨e,hr⟩ | ⟨fs',target,hr,m⟩
      · rw [hr]
        exact h
      obtain ⟨hd,hfr,hb⟩ := hs target m.found
      rw [hr]
      exact m.inv h (isDirectory_iff.1 hd) hfr hb
    all_goals simp
  | openInode ino => exact openInode_inv h hs
  | closeInode ino => exact closeInode_inv h ino

def SafeRun (fs : TmpTree) : List TmpCall → Prop
  | [] => True
  | call::calls => fs.Safe call ∧ (fs.step call).SafeRun calls

lemma run_inv (calls : List TmpCall) (h : fs.Inv held) (hs : fs.SafeRun calls) :
    (fs.run held calls).1.Inv (fs.run held calls).2 := by
  induction calls generalizing fs held with
  | nil => exact h
  | cons call calls ih => exact ih (step_inv h hs.1) hs.2

/-- An error changes nothing; a success makes the new name denote what the old one did and loses no reachable node. -/
def RenameLaw (fs : TmpTree) (oldParent : Nat) (old : String) (newParent : Nat) (new : String) : Prop :=
  (∀ e, (fs.rename oldParent old newParent new).2 = .error e → (fs.rename oldParent old newParent new).1 = fs) ∧
    ((fs.rename oldParent old newParent new).2 = .ok () →
      (fs.rename oldParent old newParent new).1.link newParent new = fs.link oldParent old ∧
        ∀ ino, Reaches fs.link rootInode ino → Reaches (fs.rename oldParent old newParent new).1.link rootInode ino)

lemma rename_law (h : fs.Inv held) {oldParent newParent : Nat} {old new : String}
    (hs : fs.Safe (.rename oldParent old newParent new)) : fs.RenameLaw oldParent old newParent new := by
  rcases rename_safe hs with ⟨e,hr⟩ | ⟨fs',target,hr,m⟩
  · rw [RenameLaw,hr]
    exact ⟨fun _ _ => rfl,fun ho => by cases ho⟩
  rw [RenameLaw,hr]
  refine ⟨fun e he => (by cases he),fun _ => ⟨?_,fun ino hi => ?_⟩⟩
  · simp [m.link,m.found]
  obtain ⟨hd,hf,hb⟩ := hs target m.found
  obtain ⟨v,hv,hvd⟩ := isDirectory_iff.1 hd
  exact LinkTree.moved_reaches h.tree m.found hf hb m.link (h.reached hv hvd) hi

/-- After safe calls the links are a tree that reaches every directory, and a node exists while it is the root, linked
or held open. -/
theorem tmpfs_namespace_integrity (calls : List TmpCall) (hsafe : new.SafeRun calls) :
    let fs := (new.run (fun _ => 0) calls).1
    LinkTree fs.link rootInode ∧ (∀ ino, fs.isDirectory ino = true → Reaches fs.link rootInode ino) ∧
      (∀ ino, fs.nodes ino ≠ none ↔ ino = rootInode ∨ fs.Linked ino ∨ (new.run (fun _ => 0) calls).2 ino ≠ 0) ∧
      (∀ parent name, (fs.rmdir parent name).2 = .ok () → ∃ target node,
        fs.link parent name = some target ∧ fs.nodes target = some node ∧ node.kind = .directory []) ∧
      ∀ oldParent old newParent new, fs.Safe (.rename oldParent old newParent new) →
        fs.RenameLaw oldParent old newParent new := by
  intro fs
  have h := run_inv calls new_inv hsafe
  refine ⟨h.tree,fun ino hd => ?_,h.exact,fun parent name ho => rmdir_ok ho,
    fun oldParent old newParent new hr => rename_law h hr⟩
  obtain ⟨v,hv,hvd⟩ := isDirectory_iff.1 hd
  exact h.reached hv hvd

theorem tmpfs_namespace_integrity_renamed :
    LinkTree (new.run (fun _ => 0) [.create 1 "a" 0o644,.rename 1 "a" 1 "b"]).1.link rootInode := by
  refine (tmpfs_namespace_integrity [.create 1 "a" 0o644,.rename 1 "a" 1 "b"] ⟨by simp [Safe,new],fun target ht => ?_,trivial⟩).1
  obtain rfl : 2 = target := some.inj ht
  exact ⟨rfl,.inl rfl,not_reaches_of_leaf (fun _ => rfl) (by decide)⟩

/-- A removed directory stays; a rename loses the old name, moves a directory into its own child, or replaces one with a
file in it. -/
theorem tmpfs_namespace_broken : (let fs := ((new.mkdir 1 "d" 0o755).1.rmdir 1 "d").1;
      (fs.nodes 2).isSome = true ∧ ∀ p n, fs.link p n = none) ∧
    (let r := (new.create 1 "a" 0o644).1.rename 1 "a" 9 "b";
      r.2 = .error .notFound ∧ r.1.link 1 "a" = none) ∧
    (let r := ((new.mkdir 1 "d" 0o755).1.mkdir 2 "e" 0o755).1.rename 1 "d" 3 "x";
      r.2 = .ok () ∧ r.1.link 2 "e" = some 3 ∧ r.1.link 3 "x" = some 2 ∧ r.1.link 1 "d" = none) ∧
    (let r := (((new.mkdir 1 "d" 0o755).1.create 2 "f" 0o644).1.mkdir 1 "e" 0o755).1.rename 1 "e" 1 "d";
      r.2 = .ok () ∧ r.1.link 2 "f" = some 3 ∧ r.1.link 1 "d" = some 4) := by
  refine ⟨⟨rfl,fun p n => ?_⟩,⟨rfl,by decide⟩,⟨rfl,by decide,by decide,by decide⟩,⟨rfl,by decide,by decide⟩⟩
  match p with
  | 0 => rfl
  | 1 => rfl
  | 2 => rfl
  | p+3 => rfl

end TmpTree
end Vanta.Fs
