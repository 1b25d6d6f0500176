import Vanta.Fs.ResolveText

namespace Vanta.Fs
open Library

/-- An object on the way, under the name by which it was reached. -/
structure Place where
  name : Text
  mount : Mount
  ino : Nat

structure Found where
  mount : Mount
  ino : Nat
  mode : Nat
  names : List Text

def namesOf (way : List Place) : List Text := (way.map Place.name).reverse

def Mount.point (m : Mount) : List Text := components m.target

variable (t : MountTable)

def mountAt (ns : List Text) : Option Mount := t.find? fun m => m.point = ns

def standing : List Place → Except VfsError (Mount × Nat)
  | place::_ => .ok (place.mount,place.ino)
  | [] =>
    match mountAt t [] with
    | some m => .ok (m,m.fs.rootInode)
    | none => .error .notMounted

inductive Next where
  | done (r : Except VfsError Found)
  | move (way : List Place)
  | expand (r : Except VfsError (List Place × List Text))

/-- A symlink that is found is replaced by its target, and the way goes on only through directories. -/
def walkObject (follow : Bool) (way : List Place) (comp : Text) (rest : List Text) (m : Mount) (ino mode : Nat) : Next :=
  if isLink mode then
    if rest = [] ∧ follow = false then .done (.ok ⟨m,ino,mode,namesOf way++[comp]⟩)
    else
      match m.fs.readlink ino with
      | .error e => .expand (.error e)
      | .ok target => .expand (.ok (if target.head? = some '/' then [] else way,components target++rest))
  else if rest = [] then .done (.ok ⟨m,ino,mode,namesOf way++[comp]⟩)
  else if isDirectory mode then .move (⟨comp,m,ino⟩::way)
  else .done (.error .notDirectory)

/-- One component. A mount on the new path wins over what the filesystem below has there. -/
def walkStep (follow : Bool) (way : List Place) (comp : Text) (rest : List Text) : Next :=
  if comp = ['.','.'] then .move way.tail
  else
    match mountAt t (namesOf way++[comp]) with
    | some m =>
      match m.fs.readInode m.fs.rootInode with
      | .error e => .done (.error e)
      | .ok _ => .move (⟨comp,m,m.fs.rootInode⟩::way)
    | none =>
      match standing t way with
      | .error e => .done (.error e)
      | .ok (m,dir) =>
        match m.fs.lookup dir comp with
        | .error e => .done (.error e)
        | .ok ino =>
          match m.fs.readInode ino with
          | .error e => .done (.error e)
          | .ok mode => walkObject follow way comp rest m ino mode

def walkEnd (way : List Place) : Except VfsError Found :=
  match standing t way with
  | .error e => .error e
  | .ok (m,ino) =>
    match m.fs.readInode ino with
    | .error e => .error e
    | .ok mode => .ok ⟨m,ino,mode,namesOf way⟩

/-- The walk comes to an answer after expanding `n` symlinks; it has no limit of its own. -/
inductive Walks (t : MountTable) (follow : Bool) : List Place → List Text → Nat → Except VfsError Found → Prop where
  | finish (way : List Place) : Walks t follow way [] 0 (walkEnd t way)
  | done {way : List Place} {comp : Text} {rest : List Text} {r : Except VfsError Found}
      (h : walkStep t follow way comp rest = .done r) : Walks t follow way (comp::rest) 0 r
  | move {way way' : List Place} {comp : Text} {rest : List Text} {n : Nat} {r : Except VfsError Found}
      (h : walkStep t follow way comp rest = .move way') (next : Walks t follow way' rest n r) :
      Walks t follow way (comp::rest) n r
  | unreadable {way : List Place} {comp : Text} {rest : List Text} {e : VfsError}
      (h : walkStep t follow way comp rest = .expand (.error e)) : Walks t follow way (comp::rest) 1 (.error e)
  | expand {way way' : List Place} {comp : Text} {rest rest' : List Text} {n : Nat} {r : Except VfsError Found}
      (h : walkStep t follow way comp rest = .expand (.ok (way',rest'))) (next : Walks t follow way' rest' n r) :
      Walks t follow way (comp::rest) (n+1) r

/-- The walk has to expand at least `n` symlinks. -/
inductive Expands (t : MountTable) (follow : Bool) : List Place → List Text → Nat → Prop where
  | zero (way : List Place) (rest : List Text) : Expands t follow way rest 0
  | move {way way' : List Place} {comp : Text} {rest : List Text} {n : Nat}
      (h : walkStep t follow way comp rest = .move way') (next : Expands t follow way' rest n) :
      Expands t follow way (comp::rest) n
  | unreadable {way : List Place} {comp : Text} {rest : List Text} {e : VfsError}
      (h : walkStep t follow way comp rest = .expand (.error e)) : Expands t follow way (comp::rest) 1
  | expand {way way' : List Place} {comp : Text} {rest rest' : List Text} {n : Nat}
      (h : walkStep t follow way comp rest = .expand (.ok (way',rest'))) (next : Expands t follow way' rest' n) :
      Expands t follow way (comp::rest) (n+1)

/-- The walk up to the next symlink to expand, and from there as `again` says; `none` is a walk that was
given up. -/
def walkLoop (t : MountTable) (follow : Bool)
    (again : Option (List Text → List Place → Option (Except VfsError Found))) :
    List Text → List Place → Option (Except VfsError Found)
  | [], way => some (walkEnd t way)
  | comp::rest, way =>
    match walkStep t follow way comp rest with
    | .done r => some r
    | .move way => walkLoop t follow again rest way
    | .expand r =>
      match again with
      | none => none
      | some go =>
        match r with
        | .error e => some (.error e)
        | .ok (way,rest) => go rest way

def walkFrom (t : MountTable) (follow : Bool) : Nat → List Text → List Place → Option (Except VfsError Found)
  | 0 => walkLoop t follow none
  | hops+1 => walkLoop t follow (some (walkFrom t follow hops))

section
variable {t : MountTable} {follow : Bool}
variable {rest : List Text} {way : List Place} {r : Except VfsError Found}

lemma expands_of_walkLoop_none (h : walkLoop t follow none rest way = none) : Expands t follow way rest 1 := by
  induction rest generalizing way with
  | nil => simp [walkLoop] at h
  | cons comp rest ih =>
    rw [walkLoop] at h
    cases hs : walkStep t follow way comp rest with
    | done r => simp [hs] at h
    | move way' => exact .move hs (ih (by simpa [hs] using h))
    | expand r =>
      cases r with
      | error e => exact .unreadable hs
      | ok next => exact .expand hs (.zero _ _)

lemma walks_of_walkLoop_none (h : walkLoop t follow none rest way = some r) : Walks t follow way rest 0 r := by
  induction rest generalizing way with
  | nil =>
    obtain rfl : walkEnd t way = r := by simpa [walkLoop] using h
    exact .finish way
  | cons comp rest ih =>
    rw [walkLoop] at h
    cases hs : walkStep t follow way comp rest with
    | done r' =>
      obtain rfl : r' = r := by simpa [hs] using h
      exact .done hs
    | move way' => exact .move hs (ih (by simpa [hs] using h))
    | expand r' => simp [hs] at h

lemma walkFrom_spec (ho : Nat) (rest : List Text) (way : List Place) :
    (walkFrom t follow ho rest way = none → Expands t follow way rest (ho+1)) ∧
      ∀ r, walkFrom t follow ho rest way = some r → ∃ n ≤ ho, Walks t follow way rest n r := by
  induction ho generalizing rest way with
  | zero =>
    exact ⟨expands_of_walkLoop_none,fun r h => ⟨0,Nat.le_refl 0,walks_of_walkLoop_none h⟩⟩
  | succ ho ih =>
    rw [walkFrom]
    induction rest generalizing way with
    | nil =>
      refine ⟨fun h => by simp [walkLoop] at h,fun r h => ?_⟩
      obtain rfl : walkEnd t way = r := by simpa [walkLoop] using h
      exact ⟨0,Nat.zero_le _,.finish way⟩
    | cons comp rest ihrest =>
      rw [walkLoop]
      cases hs : walkStep t follow way comp rest with
      | done r' =>
        refine ⟨fun h => by simp at h,fun r h => ?_⟩
        obtain rfl : r' = r := by simpa using h
        exact ⟨0,Nat.zero_le _,.done hs⟩
      | move way' =>
        obtain ⟨hno,hso⟩ := ihrest way'
        refine ⟨fun h => .move hs (hno h),fun r h => ?_⟩
        obtain ⟨n,hn,hw⟩ := hso r h
        exact ⟨n,hn,.move hs hw⟩
      | expand r' =>
        cases r' with
        | error e =>
          refine ⟨fun h => by simp at h,fun r h => ?_⟩
          obtain rfl : Except.error e = r := by simpa using h
          exact ⟨1,by omega,.unreadable hs⟩
        | ok next =>
          obtain ⟨way',rest'⟩ := next
          obtain ⟨hno,hso⟩ := ih rest' way'
          refine ⟨fun h => .expand hs (hno h),fun r h => ?_⟩
          obtain ⟨n,hn,hw⟩ := hso r h
          exact ⟨n+1,by omega,.expand hs hw⟩

lemma Walks.not_expands {n m : Nat} (h : Walks t follow way rest n r) (hm : Expands t follow way rest m) : m ≤ n := by
  induction h generalizing m with
  | finish way => cases hm; exact Nat.le_refl 0
  | done h =>
    cases hm with
    | zero => exact Nat.zero_le _
    | move h' | unreadable h' | expand h' => simp [h] at h'
  | move h _ ih =>
    cases hm with
    | zero => exact Nat.zero_le _
    | move h' hm =>
      obtain rfl : _ = _ := by simpa [h] using h'
      exact ih hm
    | unreadable h' | expand h' => simp [h] at h'
  | unreadable h =>
    cases hm with
    | zero => exact Nat.zero_le _
    | unreadable => exact Nat.le_refl 1
    | move h' | expand h' => simp [h] at h'
  | expand h _ ih =>
    cases hm with
    | zero => exact Nat.zero_le _
    | expand h' hm =>
      simp only [h,Next.expand.injEq,Except.ok.injEq,Prod.mk.injEq] at h'
      obtain ⟨rfl,rfl⟩ := h'
      exact Nat.succ_le_succ (ih hm)
    | move h' | unreadable h' => simp [h] at h'

lemma Walks.unique {n m : Nat} {s : Except VfsError Found}
    (h : Walks t follow way rest n r) (hm : Walks t follow way rest m s) : r = s := by
  induction h generalizing m with
  | finish way =>
    cases hm
    rfl
  | done h =>
    cases hm with
    | done h' => simpa [h] using h'
    | move h' | unreadable h' | expand h' => simp [h] at h'
  | move h _ ih =>
    cases hm with
    | move h' hm =>
      obtain rfl : _ = _ := by simpa [h] using h'
      exact ih hm
    | done h' | unreadable h' | expand h' => simp [h] at h'
  | unreadable h =>
    cases hm with
    | unreadable h' => simpa [h] using h'
    | done h' | move h' | expand h' => simp [h] at h'
  | expand h _ ih =>
    cases hm with
    | expand h' hm =>
      simp only [h,Next.expand.injEq,Except.ok.injEq,Prod.mk.injEq] at h'
      obtain ⟨rfl,rfl⟩ := h'
      exact ih hm
    | done h' | move h' | unreadable h' => simp [h] at h'

lemma Walks.walkFrom_eq {n ho : Nat} (h : Walks t follow way rest n r) (hn : n ≤ ho) :
    walkFrom t follow ho rest way = some r := by
  obtain ⟨hno,hs⟩ := @walkFrom_spec t follow ho rest way
  cases hw : walkFrom t follow ho rest way with
  | none =>
    have hl := h.not_expands (hno hw)
    omega
  | some r' =>
    obtain ⟨m,-,hm⟩ := hs r' hw
    rw [hm.unique h]

end
end Vanta.Fs
