import Vanta.Mm.Around
import Vanta.Mm.CacheContents
import Vanta.Mm.Process

namespace Vanta.Mm
open Library Memory Kernel Function

/-- Page `v` gets the entry `e` with the frame `f`, which no one else has. -/
structure Gets (c : Scope) (hand : List Nat) (n s v f : Nat) (e : Entry) (k k' : Kernel) : Prop where
  owned : Owned c k' hand
  around : Around c n (At s v) k k'
  content : ¬Swapped (k.leaf s v) → SameContent c (At s v) k k'
  leaf : k'.leaf s v = e
  frame : frameOf e = f
  present : hasFlag e flagPresent = true
  single : k'.frames.refcounts f = 1

/-- Besides, the frame holds `bytes`, and the page cache is not concerned. -/
structure Puts (c : Scope) (hand : List Nat) (n s v f : Nat) (e : Entry) (bytes : Nat → UInt8) (k k' : Kernel) :
    Prop extends Gets c hand n s v f e k k' where
  cache : SameCache (k.Pressed n) k k'
  bytes : k'.mem f = bytes

/-- Nothing but allocations has happened. -/
structure Idle (c : Scope) (hand : List Nat) (n : Nat) (k k' : Kernel) : Prop where
  owned : Owned c k' hand
  around : Around c n (fun _ _ => False) k k'
  content : SameContent c (fun _ _ => False) k k'
  procs : k'.procs = k.procs

section
variable {c : Scope} {hand : List Nat} {n m s v t f va : Nat} {p q r : Prop} {k k' k'' : Kernel} {e flags : Entry}
  {bytes : Nat → UInt8}

namespace SameCache

lemma fill (h : Owned c k (f::hand)) (hf : k.frames.refcounts f = 1) (bytes : Nat → UInt8) :
    SameCache p k {k with mem := update k.mem f bytes} := by
  refine .of_eq rfl rfl (fun key e he => ?_)
  have hn := h.fresh_ne hf (u := .cached key) ⟨e,he,rfl⟩
  simp [hn.symm]

end SameCache

lemma frameOf_mapped (hf : f < maxSupportedFrames) (hfl : NoAddress flags) :
    frameOf (frameBits f ||| flags ||| flagPresent) = f := by
  rw [frameOf_or (by decide),frameOf_or hfl,frameOf_frameBits (lt_trans hf (by decide))]

lemma mapped_present : hasFlag (frameBits f ||| flags ||| flagPresent) flagPresent = true := by
  rw [flagPresent,hasFlag_or,hasFlag_bit_bit 0 (by decide)]
  simp

lemma Puts.setLeaf (h : Owned c k (f::hand)) (hf : k.frames.refcounts f = 1) (hs : c.live s) (hv : v < userPages)
    (ht : k.leafTable s v = some t) (hfr : frameOf e = f) (hp : hasFlag e flagPresent = true)
    (hu : hasFlag e mapUser = true) : Puts c hand 0 s v f e (k.mem f) k (k.setLeaf s v e) where
  owned := by
    rw [setLeaf_eq ht]
    exact h.writeLeaf_put hs hv ht hfr (fun v' _ => h.unheld hf) hu
  around := (Around.setLeaf h hs hv e)
  content := fun ho => .setLeaf h hs hv ho (not_swapped_of_present hp)
  cache := .of_eq (by simp) (by simp) (by simp)
  leaf := h.leaf_setLeaf_self hs hv ht e
  frame := hfr
  present := hp
  single := by simpa using hf
  bytes := by simp

lemma Gets.after (h : Gets c hand m s v f e k' k'') (ha : Around c n (At s v) k k')
    (hc : SameContent c (At s v) k k') (hl : ¬Swapped (k.leaf s v) → ¬Swapped (k'.leaf s v)) :
    Gets c hand (n+m) s v f e k k'' :=
  {h with
    around := ha.trans h.around
    content := fun ho => hc.trans (h.content (hl ho))}

lemma Puts.after (h : Puts c hand m s v f e bytes k' k'') (ha : Around c n (At s v) k k')
    (hc : SameContent c (At s v) k k') (hca : SameCache (k.Pressed n) k k')
    (hl : ¬Swapped (k.leaf s v) → ¬Swapped (k'.leaf s v)) : Puts c hand (n+m) s v f e bytes k k'' :=
  {h.toGets.after ha hc hl with
    bytes := h.bytes
    cache := hca.trans h.cache (fun hp => hp.mono (by omega)) (fun hp => by
      have hf := ha.free
      obtain ⟨hpo,hlt⟩ := hp
      rw [ha.watermark] at hpo hlt
      exact ⟨hpo,by omega⟩)}

lemma Gets.mono (h : Gets c hand n s v f e k k') (hn : n ≤ m) : Gets c hand m s v f e k k' :=
  {h with around := h.around.mono hn (fun _ _ => id)}

lemma Gets.procs (h : Gets c hand n s v f e k k') (procs : Nat → Option Process) :
    Gets c hand n s v f e k {k' with procs := procs} where
  owned := h.owned.congr rfl rfl (fun _ => rfl) h.owned.tracked
  around := h.around.trans (.procs procs)
  content := fun ho => (h.content ho).trans (.of_eq rfl rfl rfl rfl)
  leaf := h.leaf
  frame := h.frame
  present := h.present
  single := h.single

lemma Puts.procs (h : Puts c hand n s v f e bytes k k') (procs : Nat → Option Process) :
    Puts c hand n s v f e bytes k {k' with procs := procs} :=
  {h.toGets.procs procs with
    cache := h.cache.trans (r := k.Pressed n) (.of_eq rfl rfl (fun _ _ _ => rfl)) id (id : k.Pressed n → _)
    bytes := h.bytes}

lemma Gets.track (h : Gets c hand n s v f e k k') (hs : c.live s) (hva : va < userAddressLimit)
    (hv : va/pageSize = v) (hl : ¬c.lent s v) : Gets c hand n s v f e k {k' with swap := k'.swap.trackPage s va} where
  owned := h.owned.track hs hva (hv ▸ hl)
  around := h.around.trans (.track va ⟨rfl,hv⟩)
  content := fun ho => (h.content ho).trans (.of_eq rfl rfl rfl (SwapManager.trackPage_bitmap _ _ _))
  leaf := h.leaf
  frame := h.frame
  present := h.present
  single := h.single

lemma Puts.track (h : Puts c hand n s v f e bytes k k') (hs : c.live s) (hva : va < userAddressLimit)
    (hv : va/pageSize = v) (hl : ¬c.lent s v) :
    Puts c hand n s v f e bytes k {k' with swap := k'.swap.trackPage s va} :=
  {h.toGets.track hs hva hv hl with
    cache := h.cache.trans (r := k.Pressed n) (.of_eq rfl rfl (fun _ _ _ => rfl)) id (id : k.Pressed n → _)
    bytes := h.bytes}

lemma Faded.of_absent {e e' : Entry} (h : Faded e e') (he : hasFlag e flagPresent = false) : e' = e := by
  rcases h with ⟨-,hp,-⟩ | ⟨-,rfl⟩ | ⟨-,-,hp,-⟩
  · rw [he] at hp
    cases hp
  · rfl
  · rw [he] at hp
    cases hp

lemma Puts.mapped (h : Owned c k (f::hand)) (hf : k.frames.refcounts f = 1) (hs : c.live s) (hv : v < userPages)
    (ht : k.leafTable s v = some t) (hu : hasFlag flags mapUser = true) (hfl : NoAddress flags) :
    Puts c hand 0 s v f (frameBits f ||| flags ||| flagPresent) (k.mem f) k
      (k.setLeaf s v (frameBits f ||| flags ||| flagPresent)) := by
  refine .setLeaf h hf hs hv ht (frameOf_mapped (h.frame_lt (by omega)) hfl) mapped_present ?_
  rw [mapUser] at hu ⊢
  rw [hasFlag_or,hasFlag_or,hu]
  simp

lemma Kernel.mapFresh_spec (h : Owned c k (f::hand)) (hf : k.frames.refcounts f = 1) (hs : c.live s)
    (hva : va < userAddressLimit) (halign : va%pageSize = 0)
    (hn : hasFlag (k.leaf s (va/pageSize)) flagPresent = false) (hu : hasFlag flags mapUser = true)
    (hfl : NoAddress flags) {r : Except MapError Unit} (hru : k.map s va f flags = (k',r)) :
    k'.procs = k.procs ∧ match r with
      | .ok _ => Puts c hand 3 s (va/pageSize) f (frameBits f ||| flags ||| flagPresent) (k.mem f) k k'
      | .error _ => Allocs c 3 k k' ∧ Owned c k' (f::hand) ∧ k'.frames.refcounts f = 1 ∧
          k.frames.freeFrames < 3 := by
  have hv := div_lt_userPages hva
  obtain ⟨k1,ha,ho,hr⟩ := map_spec h hs hva halign hu hru
  have hl : k1.leaf s (va/pageSize) = k.leaf s (va/pageSize) := (ha.quiet.leaf s _ hs hv).of_absent hn
  have hon : k1.frames.refcounts f = 1 := by
    have := ha.quiet.count f
    have := ho.counted.hand_pos (f := f) (by simp)
    omega
  cases r with
  | error e =>
    obtain ⟨rfl,⟨-,hfr⟩ | ⟨-,hp⟩⟩ := hr
    · exact ⟨ha.quiet.procs,ha,ho,hon,hfr⟩
    · rw [hl,hn] at hp
      cases hp
  | ok u =>
    obtain ⟨⟨t,ht⟩,-,rfl⟩ := hr
    have hpu := Puts.mapped ho hon hs hv ht hu hfl
    rw [ha.quiet.mem] at hpu
    refine ⟨by simpa using ha.quiet.procs,?_⟩
    exact hpu.after ((Around.of_allocs ha _)) (.of_allocs ha _)
      (.of_quiet ha.quiet) (fun hol => hl ▸ hol)

lemma Idle.of_allocs (h : Allocs c n k k') (ho : Owned c k' hand) : Idle c hand n k k' :=
  ⟨ho,.of_allocs h _,.of_allocs h _,h.quiet.procs⟩

lemma Idle.refl (h : Owned c k hand) : Idle c hand 0 k k := .of_allocs (.refl c k) h

section
variable (h : Idle c hand n k k')
include h

lemma Idle.mono (hn : n ≤ m) : Idle c hand m k k' :=
  {h with around := h.around.mono hn (fun _ _ => id)}

lemma Idle.trans (h' : Idle c hand m k' k'') : Idle c hand (n+m) k k'' :=
  ⟨h'.owned,h.around.trans h'.around,h.content.trans h'.content,h'.procs.trans h.procs⟩

lemma Idle.free (ho : Owned c k' (f::hand)) : Idle c hand n k (k'.freeFrame f).1 := by
  have ha := h.around.trans (.freeFrame ho)
  obtain ⟨frames,hf,ho',-⟩ := ho.free
  rw [hf] at ha ⊢
  exact ⟨ho',ha,h.content.trans (.of_eq rfl rfl rfl rfl),h.procs⟩

end

lemma Kernel.mapNew_spec {k1 : Kernel} (h : Owned c k hand) (hal : k.allocFrame = (k1,some f)) (hs : c.live s)
    (hva : va < userAddressLimit) (halign : va%pageSize = 0)
    (hn : hasFlag (k.leaf s (va/pageSize)) flagPresent = false) (hu : hasFlag flags mapUser = true)
    (hf : NoAddress flags) {r : Except MapError Unit}
    (hru : {k1 with mem := update k1.mem f bytes}.map s va f flags = (k',r)) :
    match r with
      | .ok _ => k'.procs = k.procs ∧ Puts c hand 4 s (va/pageSize) f (frameBits f ||| flags ||| flagPresent) bytes k k'
      | .error _ => Idle c hand 4 k k' ∧ Owned c k' (f::hand) ∧ k.frames.freeFrames < 4 := by
  have hv := div_lt_userPages hva
  obtain ⟨ha,-,ho,hon⟩ := Allocs.allocFrame h hal
  have hl : k1.leaf s (va/pageSize) = k.leaf s (va/pageSize) := (ha.quiet.leaf s _ hs hv).of_absent hn
  set k2 : Kernel := {k1 with mem := update k1.mem f bytes} with hk2
  have ho2 : Owned c k2 (f::hand) := ho.congr rfl rfl (fun _ => rfl) ho.tracked
  have hb : ∀ P, Around c 1 P k k2 := fun P => (Around.of_allocs ha P).trans (.mem _)
  have hc : ∀ P, SameContent c P k k2 := fun P => (SameContent.of_allocs ha P).trans (.fill ho hon bytes)
  have hca : SameCache (k.Pressed 1) k k2 :=
    (SameCache.of_quiet ha.quiet).trans (r := k.Pressed 1) (.fill ho hon bytes) id (id : k.Pressed 1 → _)
  obtain ⟨hp,hr⟩ := mapFresh_spec ho2 hon hs hva halign (by rw [← hn,← hl]; rfl) hu hf hru
  have hp' : k'.procs = k.procs := hp.trans ha.quiet.procs
  cases r with
  | ok u =>
    have hby : k2.mem f = bytes := by simp [hk2]
    rw [hby] at hr
    exact ⟨hp',hr.after (hb _) (hc _) hca (fun hol => hl ▸ hol)⟩
  | error e =>
    obtain ⟨ha',ho',-,hfr⟩ := hr
    have hle := ha.quiet.free
    have hf' : k1.frames.freeFrames < 3 := hfr
    refine ⟨⟨ho'.forget (fun g => by simp only [List.count_cons]; omega),?_,?_,hp'⟩,ho',by omega⟩
    · exact (hb _).trans ((Around.of_allocs ha' _))
    · exact (hc _).trans (.of_allocs ha' _)

lemma pteFlags_user (w x : Bool) : hasFlag (pteFlags w x) mapUser = true ∧ NoAddress (pteFlags w x) := by
  revert w x
  decide

section
variable (h : Owned c k hand) (hs : c.live s) (hva : va < userAddressLimit) (halign : va%pageSize = 0)
include h hs hva halign

lemma Kernel.demandZero_spec (hl : ¬c.lent s (va/pageSize))
    (hn : hasFlag (k.leaf s (va/pageSize)) flagPresent = false) (w x : Bool) {r : Except Unit Bool}
    (hr : k.demandZero s va (pteFlags w x) = (k',r)) : match r with
      | .ok b => b = true ∧ k'.procs = (k.pushDynamic s va).procs ∧ ∃ f,
          Puts c hand 4 s (va/pageSize) f (frameBits f ||| pteFlags w x ||| flagPresent) (fun _ => 0) k k'
      | .error _ => Idle c hand 4 k k' ∧ k.frames.freeFrames < 4 := by
  obtain ⟨hu,hf⟩ := pteFlags_user w x
  rw [demandZero] at hr
  rcases ha : k.allocFrame with ⟨k1,a⟩
  cases a with
  | none =>
    obtain ⟨hal,-,ho,hz⟩ := Allocs.allocFrame h ha
    rw [ha] at hr
    cases hr
    exact ⟨(Idle.of_allocs hal ho).mono (by omega),by omega⟩
  | some f =>
    simp only [ha,fillFrame,overlay_nil] at hr
    rcases hm : {k1 with mem := update k1.mem f (fun _ => 0)}.map s va f (pteFlags w x) with ⟨k2,a⟩
    have hsp := mapNew_spec h ha hs hva halign hn hu hf hm
    simp only [hm] at hr
    cases a with
    | ok u =>
      cases hr
      obtain ⟨hp,hpu⟩ := hsp
      refine ⟨rfl,?_,f,(hpu.procs _).track hs hva rfl hl⟩
      simp [pushDynamic,modifyProc,hp]
    | error e =>
      cases hr
      exact ⟨hsp.1.free hsp.2.1,hsp.2.2⟩

lemma Kernel.loadPage_spec (hn : hasFlag (k.leaf s (va/pageSize)) flagPresent = false) (w x : Bool) {r : Bool}
    (hr : k.loadPage s va (pteFlags w x) = (k',r)) :
    if r then k'.procs = (k.modifyProc s (fun p => {p with mappings := p.mappings++[va]})).procs ∧ ∃ f,
        Puts c hand 4 s (va/pageSize) f (frameBits f ||| pteFlags w x ||| flagPresent) (fun _ => 0) k k'
      else Idle c hand 4 k k' ∧ k.frames.freeFrames < 4 := by
  obtain ⟨hu,hf⟩ := pteFlags_user w x
  rw [loadPage] at hr
  rcases ha : k.allocFrame with ⟨k1,a⟩
  cases a with
  | none =>
    obtain ⟨hal,-,ho,hz⟩ := Allocs.allocFrame h ha
    rw [ha] at hr
    cases hr
    exact ⟨(Idle.of_allocs hal ho).mono (by omega),by omega⟩
  | some f =>
    simp only [ha,fillFrame,overlay_nil] at hr
    rcases hm : {k1 with mem := update k1.mem f (fun _ => 0)}.map s va f (pteFlags w x) with ⟨k2,a⟩
    have hsp := mapNew_spec h ha hs hva halign hn hu hf hm
    simp only [hm] at hr
    cases a with
    | ok u =>
      cases hr
      obtain ⟨hp,hpu⟩ := hsp
      refine ⟨?_,f,hpu.procs _⟩
      simp [modifyProc,hp]
    | error e =>
      cases hr
      exact ⟨hsp.1.free hsp.2.1,hsp.2.2⟩

end

lemma Kernel.writeEntry_writeEntry (k : Kernel) (t i : Nat) (a b : Entry) :
    (k.writeEntry t i a).writeEntry t i b = k.writeEntry t i b := by
  simp [writeEntry]

lemma Puts.replace (h : Owned c k (f::hand)) (hf : k.frames.refcounts f = 1) (hs : c.live s) (hv : v < userPages)
    (hl : ¬c.lent s v) (hol : hasFlag (k.leaf s v) flagPresent = true) (hfr : frameOf e = f)
    (hp : hasFlag e flagPresent = true) (hu : hasFlag e mapUser = true) :
    Puts c hand 0 s v f e (k.mem f) k ((k.setLeaf s v e).freeFrame (frameOf (k.leaf s v))).1 := by
  obtain ⟨t,ht⟩ := leafTable_of_flag hol
  have hg : hasFlag 0 flagPresent = false := by decide
  have hn : f ≠ frameOf (k.leaf s v) := h.fresh_ne hf (u := .page s v) ⟨hs,hv,hl,hol,rfl⟩
  have hc : Owned c (k.writeEntry t (v%512) 0) (f::frameOf (k.leaf s v)::hand) :=
    (h.writeLeaf_clear hs hv ht hl hol hg).forget (fun g => by simp only [List.count_cons]; omega)
  have ht' : (k.writeEntry t (v%512) 0).leafTable s v = some t := (h.leafTable_writeEntry hs hv ht _ _ hs hv).trans ht
  have ho := (Puts.setLeaf hc hf hs hv ht' hfr hp hu).owned
  rw [setLeaf_eq ht',writeEntry_writeEntry,← setLeaf_eq ht] at ho
  have ha := ((Around.setLeaf h hs hv e)).trans (.freeFrame ho)
  have hle := h.leaf_setLeaf_self hs hv ht e
  obtain ⟨frames,hfre,ho',-,hco⟩ := ho.free
  rw [hfre] at ha ⊢
  exact {
    owned := ho'
    around := ha
    content := fun hol => (SameContent.setLeaf h hs hv hol (not_swapped_of_present hp)).trans
      (.of_eq rfl rfl rfl rfl)
    cache := .of_eq (by simp) (by simp) (by simp)
    leaf := hle
    frame := hfr
    present := hp
    single := by
      rw [hco,update_of_ne hn]
      simpa using hf
    bytes := by simp}

lemma Faded.of_cow {e e' : Entry} (h : Faded e e') (hpr : hasFlag e flagPresent = true)
    (hc : hasFlag e mapCow = true) : hasFlag e' flagPresent = true ∧ frameOf e' = frameOf e := by
  rcases h with ⟨hp,-,hf,-⟩ | ⟨-,rfl⟩ | ⟨-,-,-,hn,-⟩
  · exact ⟨hp,hf⟩
  · exact ⟨hpr,rfl⟩
  · rw [hc] at hn
    cases hn

def cowFlags (e : Entry) : Entry := (flagsOf e &&& ~~~mapCow) ||| mapWritable

lemma noAddress_cowFlags (e : Entry) : NoAddress (cowFlags e) :=
  ((noAddress_flagsOf e).and _).or (by decide)

lemma hasFlag_cowFlags (e : Entry) {i : Nat} (hi : FlagBit i) (hc : i ≠ 9) (hw : i ≠ 1) :
    hasFlag (cowFlags e) (bit i) = hasFlag e (bit i) := by
  have hl : i < 64 := by rcases hi with hi | hi <;> omega
  rw [cowFlags,hasFlag_or,hasFlag_and,hasFlag_flagsOf e hi,mapCow,hasFlag_not _ hl,hasFlag_bit_bit 9 hl,mapWritable,
    hasFlag_bit_bit 1 hl]
  simp [Ne.symm hc,Ne.symm hw]

lemma cowFlags_writable (e : Entry) : hasFlag (cowFlags e) mapWritable = true ∧ hasFlag (cowFlags e) mapCow = false := by
  simp (disch := decide) [cowFlags,mapWritable,mapCow,hasFlag_not,hasFlag_bit_bit]

lemma Kernel.resolveCowPage_eq (h : Owned c k hand) (hs : c.live s) (hva : va < userAddressLimit)
    (hn : hasFlag (k.leaf s (va/pageSize)) flagPresent = false ∨ hasFlag (k.leaf s (va/pageSize)) mapCow = false) :
    k.resolveCowPage s va = (k,.ok false) := by
  obtain ⟨hl,hi⟩ := h.pteLocation_page hs hva
  rw [resolveCowPage,hl]
  cases ht : k.leafTable s (va/pageSize) with
  | none => rfl
  | some t =>
    simp only [hi,← leaf_eq ht]
    rw [if_pos (by rcases hn with hn | hn <;> simp [hn])]

lemma Kernel.resolveCowPage_spec (h : Owned c k hand) (hs : c.live s) (hva : va < userAddressLimit)
    (hl : ¬c.lent s (va/pageSize)) (hp : hasFlag (k.leaf s (va/pageSize)) flagPresent = true)
    (hco : hasFlag (k.leaf s (va/pageSize)) mapCow = true) {r : Except MapError Bool}
    (hru : k.resolveCowPage s va = (k',r)) : match r with
      | .ok b => b = true ∧ ((k.frames.refcounts (frameOf (k.leaf s (va/pageSize))) = 1 ∧ k' = k.setLeaf s (va/pageSize)
            ((k.leaf s (va/pageSize) &&& addressMask) ||| cowFlags (k.leaf s (va/pageSize)))) ∨
          (k'.procs = k.procs ∧ ∃ f, Puts c hand 1 s (va/pageSize) f (frameBits f ||| cowFlags (k.leaf s (va/pageSize)))
            (k.mem (frameOf (k.leaf s (va/pageSize)))) k k'))
      | .error _ => Idle c hand 1 k k' ∧ k.frames.freeFrames = 0 := by
  have hv := div_lt_userPages hva
  obtain ⟨hlo,hi⟩ := h.pteLocation_page hs hva
  obtain ⟨t,ht⟩ := leafTable_of_flag hp
  set e := k.leaf s (va/pageSize) with he
  have hh : Holds c k (.page s (va/pageSize)) (frameOf e) := ⟨hs,hv,hl,hp,rfl⟩
  have hpo := h.counted.pos hh
  have hc : k.frames.refcount (frameOf e) = k.frames.refcounts (frameOf e) := if_pos (h.lt_of_pos hpo)
  rw [resolveCowPage,hlo,ht] at hru
  simp only [hi,← leaf_eq ht,← he,hp,hco,hc,Bool.not_true,Bool.or_self,Bool.false_eq_true,
    if_false] at hru
  split_ifs at hru with hon
  · cases hru
    exact ⟨rfl,.inl ⟨by omega,(setLeaf_eq ht _).symm⟩⟩
  rcases hal : k.allocFrame with ⟨k1,a⟩
  obtain ⟨ha,-,hr⟩ := Allocs.allocFrame h hal
  rw [hal] at hru
  cases a with
  | none =>
    cases hru
    exact ⟨.of_allocs ha hr.1,hr.2⟩
  | some f =>
    cases hru
    refine ⟨rfl,.inr ⟨ha.quiet.procs,f,?_⟩⟩
    obtain ⟨ho,hf⟩ := hr
    obtain ⟨hp1,hf1⟩ := (ha.quiet.leaf s _ hs hv).of_cow hp hco
    have ht1 : (k1.copyFrame (frameOf e) f).leafTable s (va/pageSize) = some t :=
      ha.quiet.toStill.leafTable hs hv ht
    have ho2 : Owned c (k1.copyFrame (frameOf e) f) (f::hand) :=
      ho.congr rfl rfl (fun _ => rfl) ho.tracked
    have hlt : f < maxSupportedFrames := ho.frame_lt (by omega)
    have hfl : hasFlag (frameBits f ||| cowFlags e) flagPresent = true ∧
        hasFlag (frameBits f ||| cowFlags e) mapUser = true := by
      have hu := h.user s _ hs hv hp
      constructor
      · rw [flagPresent,hasFlag_or,hasFlag_cowFlags e (by decide) (by decide) (by decide),← flagPresent,hp]
        simp
      · rw [mapUser,hasFlag_or,hasFlag_cowFlags e (by decide) (by decide) (by decide),← mapUser,hu]
        simp
    have hfr : frameOf (frameBits f ||| cowFlags e) = f := by
      rw [frameOf_or (noAddress_cowFlags e),frameOf_frameBits (lt_trans hlt (by decide))]
    have hpu := Puts.replace ho2 hf hs hv hl hp1 hfr hfl.1 hfl.2
    rw [show frameOf ((k1.copyFrame (frameOf e) f).leaf s (va/pageSize)) = frameOf e from hf1,
      setLeaf_eq ht1,show (k1.copyFrame (frameOf e) f).mem f = k.mem (frameOf e) by
        simp [copyFrame,ha.quiet.mem]] at hpu
    exact hpu.after ((Around.of_allocs ha _).trans (.mem _))
      ((SameContent.of_allocs ha _).trans (.fill ho hf _))
      ((SameCache.of_quiet ha.quiet).trans (r := k.Pressed 1) (.fill ho hf _) id (id : k.Pressed 1 → _))
      (fun _ => not_swapped_of_present hp1)

lemma Gets.reswap (h : Gets c hand n s v f e k k') (ho : Swapped (k.leaf s v)) {swap : SwapManager}
    (ht : ∀ i p, swap.trackedPages i = some p → k'.swap.trackedPages i = some p) :
    Gets c hand n s v f e k {k' with swap := swap} where
  owned := h.owned.reswap swap k'.swapDisk ht
  around := by
    have hst : Around c 0 (At s v) k' {k' with swap := swap} := .of_eq rfl rfl rfl rfl rfl (by
      rintro s' v' ⟨i,p,hi,hp⟩
      exact .inl ⟨i,p,ht i p hi,hp⟩)
    exact h.around.trans hst
  content := fun hn => absurd ho hn
  leaf := h.leaf
  frame := h.frame
  present := h.present
  single := h.single

lemma Kernel.resolveSwappedPage_eq (h : Owned c k hand) (hs : c.live s) (hva : va < userAddressLimit)
    (hn : ¬Swapped (k.leaf s (va/pageSize))) : k.resolveSwappedPage s va = (k,.ok false) := by
  obtain ⟨hl,hi⟩ := h.pteLocation_page hs hva
  rw [resolveSwappedPage,hl]
  cases ht : k.leafTable s (va/pageSize) with
  | none => rfl
  | some t =>
    simp only [hi,← leaf_eq ht]
    rw [if_pos]
    by_contra hf
    simp only [Bool.or_eq_true,Bool.not_eq_true',not_or,Bool.not_eq_true,Bool.not_eq_false] at hf
    exact hn hf

def restored (f : Nat) (e : Entry) : Entry :=
  frameBits f ||| (e &&& (mapWritable ||| mapUser ||| mapNoExecute)) ||| flagPresent

lemma restored_rights (f : Nat) (e : Entry) : SameRights e (restored f e) := by
  constructor <;>
  simp (disch := decide) [restored,flagPresent,mapWritable,mapUser,mapNoExecute,hasFlag_frameBits,hasFlag_bit_bit]

lemma Kernel.resolveSwappedPage_spec (h : Owned c k hand) (hs : c.live s) (hva : va < userAddressLimit)
    (hle : ¬c.lent s (va/pageSize)) (hsw : Swapped (k.leaf s (va/pageSize)))
    (hu : hasFlag (k.leaf s (va/pageSize)) mapUser = true) {r : Except MapError Bool}
    (hru : k.resolveSwappedPage s va = (k',r)) : match r with
      | .ok b => b = true ∧ k'.procs = k.procs ∧ SameContent c (fun _ _ => False) k k' ∧ ∃ f,
          Gets c hand 1 s (va/pageSize) f (restored f (k.leaf s (va/pageSize))) k k'
      | .error _ => Idle c hand 1 k k' ∧ k.frames.freeFrames = 0 := by
  have hv := div_lt_userPages hva
  obtain ⟨hlo,hin⟩ := h.pteLocation_page hs hva
  obtain ⟨t,ht⟩ := leafTable_of_flag hsw.2
  set e := k.leaf s (va/pageSize) with he
  rw [resolveSwappedPage,hlo,ht] at hru
  simp only [hin,← leaf_eq ht,← he,hsw.1,hsw.2,Bool.not_true,Bool.or_self,Bool.false_eq_true,
    if_false] at hru
  rcases hal : k.allocFrame with ⟨k1,a⟩
  obtain ⟨ha,-,hr⟩ := Allocs.allocFrame h hal
  rw [hal] at hru
  cases a with
  | none =>
    cases hru
    exact ⟨.of_allocs ha hr.1,hr.2⟩
  | some f =>
    obtain ⟨ho,hf⟩ := hr
    cases hru
    set k2 : Kernel := {k1 with mem := update k1.mem f (k1.swapDisk (slotOf e))} with hk2
    have ho2 : Owned c k2 (f::hand) := ho.congr rfl rfl (fun _ => rfl) ho.tracked
    have hl : k2.leaf s (va/pageSize) = e := (ha.quiet.leaf s _ hs hv).of_absent hsw.1
    have ht2 : k2.leafTable s (va/pageSize) = some t := ha.quiet.toStill.leafTable hs hv ht
    have hlt : f < maxSupportedFrames := ho.frame_lt (by omega)
    have hfl : NoAddress (e &&& (mapWritable ||| mapUser ||| mapNoExecute)) := by
      rw [BitVec.and_comm]
      exact NoAddress.and (by decide) e
    have hfr : frameOf (restored f e) = f := frameOf_mapped hlt hfl
    have hp : hasFlag (restored f e) flagPresent = true := mapped_present
    have hpu := Puts.setLeaf ho2 hf hs hv ht2 hfr hp ((restored_rights f e).user.trans hu)
    have hb : SameContent c (fun _ _ => False) k k2 :=
      (SameContent.of_allocs ha _).trans (.fill ho hf _)
    have hc := SameContent.clearSwapped ho2 hs hv (hl ▸ hsw) (not_swapped_of_present hp)
    have haf := hpu.toGets.after (k := k) (n := 1) ((Around.of_allocs ha _).trans (.mem _))
      (hb.mono (fun _ _ hn => hn.elim)) (fun hol => absurd hsw hol)
    rw [hl] at hc
    rw [setLeaf_eq ht2] at hc haf
    have htr : ∀ i p, (k1.swap.freeSlot (slotOf e)).trackedPages i = some p → k1.swap.trackedPages i = some p := by
      intro i p hi
      rwa [freeSlot_tracked] at hi
    refine ⟨rfl,ha.quiet.procs,fun hsl => ?_,f,
      (haf.reswap hsw htr).track hs (alignDown_lt hva) (alignDown_div va) hle⟩
    obtain ⟨hs2,hsa2⟩ := hb hsl
    obtain ⟨hs3,hsa3⟩ := hc hs2
    refine ⟨hs3.congr rfl (SwapManager.trackPage_bitmap _ _ _),fun s' v' hs' hv' hno hl' => ?_⟩
    by_cases hat : At s (va/pageSize) s' v'
    · obtain ⟨rfl,rfl⟩ := hat
      have hk := (ha.kept hsl).2 s' _ hs hv
      have hl1 : k1.leaf s' (va/pageSize) = e := hl
      rw [content,hl1,contentOf_swapped hsw] at hk
      have hne := ho2.content_writeLeaf hs hv ht2 (e := restored f e) hs hv
      rw [if_pos ⟨rfl,rfl⟩,contentOf_present hp,hfr] at hne
      rw [← hk]
      refine (content_congr rfl rfl rfl _ _).trans (hne.trans ?_)
      simp [hk2]
    · exact (hsa3 s' v' hs' hv' hat hl').trans (hsa2 s' v' hs' hv' hno hl')

lemma Kernel.getOrFetchFrame_spec {mountId ino fileSize page : Nat} (h : Owned c k hand) {r : Option Nat}
    (hru : k.getOrFetchFrame mountId ino fileSize page = (k',r)) : Idle c hand 1 k k' := by
  rw [getOrFetchFrame] at hru
  cases hk : k.cache.entries.get ⟨mountId,ino,page⟩ with
  | some entry =>
    simp only [hk] at hru
    cases hru
    have hi : Idle c hand 0 k (k.modifyEntry ⟨mountId,ino,page⟩ (fun e => {e with lruSeq := e.lruSeq+1})).countHit :=
      ⟨h.hit _ (fun _ => rfl),.of_eq rfl rfl rfl rfl rfl (fun _ _ => .inl),.of_eq rfl rfl rfl rfl,rfl⟩
    exact hi.mono (by omega)
  | none =>
    have hm : Owned c k.countMiss hand := h.congr rfl rfl (fun _ => rfl) h.tracked
    simp only [hk] at hru
    rcases hal : k.countMiss.allocFrame with ⟨k1,a⟩
    obtain ⟨ha,-,hr⟩ := Allocs.allocFrame hm hal
    have hst : ∀ P, Around c 0 P k k.countMiss := fun P => .of_eq rfl rfl rfl rfl rfl (fun _ _ => .inl)
    have hsa : ∀ P, SameContent c P k k.countMiss := fun P => .of_eq rfl rfl rfl rfl
    rw [hal] at hru
    cases a with
    | none =>
      cases hru
      exact ⟨hr.1,((hst _).trans (.of_allocs ha _)).mono (by omega) (fun _ _ => id),
        (hsa _).trans (.of_allocs ha _),ha.quiet.procs⟩
    | some f =>
      cases hru
      obtain ⟨ho,hf⟩ := hr
      refine ⟨(ho.setMem _).insertPage _ _ _,?_,?_,ha.quiet.procs⟩
      · exact ((hst _).trans (.of_allocs ha _)).trans (m := 0) (.of_eq rfl rfl rfl rfl rfl (fun _ _ => .inl))
      · exact (((hsa _).trans (.of_allocs ha _)).trans (.fill ho hf _)).trans (.of_eq rfl rfl rfl rfl)

/-- The fault would map a frame of the page cache: the page belongs to a shared file mapping, or it is read in
a private one. -/
def Kernel.mapsCached (k : Kernel) (s va : Nat) (isWrite : Bool) : Bool :=
  match k.memoryMap s with
  | none => false
  | some m =>
    match m.findVma va with
    | none => false
    | some vma =>
      match vma.backing with
      | .fileBacked _ _ _ _ shared => shared || !isWrite
      | _ => false

/-- Why a page is mapped, with which rights, and what becomes of the process records. -/
inductive Grounds (k : Kernel) (s va : Nat) (isWrite : Bool) : Bool → Bool → (Nat → Option Process) → Prop
  | stack {p : Process} {m : ProcessMemoryMap} (hp : k.procs s = some p) (hregistered : p.registered = true)
      (hcan : p.memoryMap.canGrowStack va = true) (hgrow : p.memoryMap.growStackTo va = some m) :
      Grounds k s va isWrite true false ((k.setMemoryMap s m).pushDynamic s (alignDown va)).procs
  | area {p : Process} {vma : Vma} (hp : k.procs s = some p) (hregistered : p.registered = true)
      (hfind : p.memoryMap.findVma va = some vma) (hwrite : isWrite = true → grants vma.flags vmaWrite = true) :
      Grounds k s va isWrite (grants vma.flags vmaWrite) (grants vma.flags vmaExec)
        (k.pushDynamic s (alignDown va)).procs

lemma Kernel.demandPrivate_spec {vma : Vma} {mountId inode offset fileSize : Nat} (h : Owned c k hand) (hs : c.live s)
    (hva : va < userAddressLimit) (halign : va%pageSize = 0)
    (hn : hasFlag (k.leaf s (va/pageSize)) flagPresent = false) {r : Except Unit Bool}
    (hr : k.demandFile s va vma mountId inode offset fileSize false true = (k',r)) : match r with
      | .ok b => b = true ∧ k'.procs = (k.pushDynamic s va).procs ∧ ∃ f, Gets c hand 5 s (va/pageSize) f
          (frameBits f ||| pteFlags (grants vma.flags vmaWrite) (grants vma.flags vmaExec) ||| flagPresent) k k'
      | .error _ => Idle c hand 5 k k' := by
  obtain ⟨hu,hfl⟩ := pteFlags_user (grants vma.flags vmaWrite) (grants vma.flags vmaExec)
  have hv := div_lt_userPages hva
  rw [demandFile] at hr
  by_cases ho : va-vma.start+offset ≥ 2^64
  · rw [if_pos ho] at hr
    cases hr
    exact (Idle.refl h).mono (by omega)
  rw [if_neg ho] at hr
  dsimp only at hr
  rcases hfe : k.getOrFetchFrame mountId inode fileSize ((va-vma.start+offset)/pageSize) with ⟨k1,a⟩
  have hi := getOrFetchFrame_spec h hfe
  rw [hfe] at hr
  cases a with
  | none =>
    cases hr
    exact hi.mono (by omega)
  | some cached =>
    simp only [Bool.false_eq_true,if_false,if_true] at hr
    have hl : k1.leaf s (va/pageSize) = k.leaf s (va/pageSize) :=
      (hi.around.leaf s _ hs hv (fun hf => hf)).of_absent hn
    rcases ha : k1.allocFrame with ⟨k2,a⟩
    cases a with
    | none =>
      obtain ⟨hal,-,how,-⟩ := Allocs.allocFrame hi.owned ha
      rw [ha] at hr
      cases hr
      exact (hi.trans (.of_allocs hal how)).mono (by omega)
    | some f =>
      simp only [ha,demandMap,copyFrame] at hr
      cases hm : {k2 with mem := update k2.mem f (k2.mem cached)}.map s va f
          (pteFlags (grants vma.flags vmaWrite) (grants vma.flags vmaExec)) with
      | mk k3 a =>
        have hsp := mapNew_spec hi.owned ha hs hva halign (by rw [hl,hn]) hu hfl hm
        simp only [hm] at hr
        cases a with
        | ok u =>
          cases hr
          obtain ⟨hp,hpu⟩ := hsp
          refine ⟨rfl,by simp [pushDynamic,modifyProc,hp,hi.procs],f,?_⟩
          exact (hpu.toGets.procs _).after (hi.around.mono (le_refl _) (fun _ _ hf => hf.elim))
            (hi.content.mono (fun _ _ hf => hf.elim)) (fun hol => hl ▸ hol)
        | error e =>
          cases hr
          exact hi.trans hsp.1

end
end Vanta.Mm
