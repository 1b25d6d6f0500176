import Vanta.Io.Descriptor

namespace Vanta.Io
open List
namespace FileDescriptor

def transferable (d : FileDescriptor) : Bool := d.rights.contains Rights.transfer

end FileDescriptor
namespace Table
variable (l : Table)

def put (i : Nat) (d : FileDescriptor) : Table :=
  (if l.length ≤ i then l++List.replicate (i+1-l.length) none else l).set i (some d)

def duplicateCurrent (descriptor : Nat) : Option (Table × Nat) :=
  match l.currentDescriptor descriptor with
  | some duplicate =>
    if duplicate.capability = 0 || !duplicate.transferable then none else l.installDescriptor duplicate
  | none => none

def duplicateToCurrent (old new : Nat) : Option (Table × Nat) :=
  if new ≥ maxDescriptors then none
  else
    match l.currentDescriptor old with
    | some duplicate => if old = new then some (l,new) else some (l.put new duplicate,new)
    | none => none

def linuxFcntlUser (descriptor cmd arg : Nat) : Option (Table × Nat) :=
  match cmd with
  | 0 => l.duplicateToCurrent descriptor arg
  | 1030 => l.duplicateToCurrent descriptor arg
  | 3 => some (l,2)
  | _ => some (l,0)

def keep : Nat := 2^64-1

def redirect (target source : Nat) : Option Table :=
  if source = keep then some l
  else (l.currentDescriptor source).map fun descriptor => l.put target descriptor

def spawnWithStdioCurrent (stdin stdout stderr : Nat) : Option Table := do
  let l₀ ← redirect l 0 stdin
  let l₁ ← redirect l₀ 1 stdout
  redirect l₁ 2 stderr

def passedFds (fds : List Nat) : List FileDescriptor := fds.filterMap l.currentDescriptor

def installPassed (l : Table) : List FileDescriptor → Table
  | [] => l
  | d::rest =>
    match l.installDescriptor d with
    | some (l',_) => installPassed l' rest
    | none => installPassed l rest

lemma currentDescriptor_replicate (n fd : Nat) : Table.currentDescriptor (List.replicate n none) fd = none := by
  rw [currentDescriptor,List.getElem?_replicate]
  split <;> rfl

lemma currentDescriptor_put (i fd : Nat) (d : FileDescriptor) :
    (l.put i d).currentDescriptor fd = if fd = i then some d else l.currentDescriptor fd := by
  rw [put]
  split
  · next hl =>
    have hlt : i < (l++List.replicate (i+1-l.length) none).length := by
      simp only [length_append,length_replicate]
      omega
    rw [currentDescriptor_set _ _ _ _ hlt,currentDescriptor_append]
    split
    · rfl
    split
    · rfl
    · next hg => rw [currentDescriptor_replicate,currentDescriptor_of_ge (Nat.le_of_not_lt hg)]
  · next hl => exact currentDescriptor_set l i fd (some d) (Nat.lt_of_not_le hl)

end Table

/-- A way to hand a descriptor on. -/
inductive Route where
  | dup (descriptor : Nat)
  | dup2 (old new : Nat)
  | fcntl (descriptor cmd arg : Nat)
  | spawn (stdin stdout stderr : Nat)
  | message (receiver : Table) (fds : List Nat)

variable (l : Table)

/-- The lowest free slot that is not below `start`. -/
def LowestFree (start new : Nat) : Prop :=
  start ≤ new ∧ l.currentDescriptor new = none ∧ ∀ i, start ≤ i → i < new → l.currentDescriptor i ≠ none

def Duplicated (old : Nat) (l' : Table) (new : Nat) : Prop :=
  ∃ d, l.currentDescriptor old = some d ∧ d.transferable = true ∧
    ∀ fd, l'.currentDescriptor fd = if fd = new then some d else l.currentDescriptor fd

def stdioSource (stdin stdout stderr fd : Nat) : Nat :=
  if fd = 0 ∧ stdin ≠ Table.keep then stdin
  else if fd = 1 ∧ stdout ≠ Table.keep then stdout
  else if fd = 2 ∧ stderr ≠ Table.keep then stderr
  else fd

def Route.Law : Route → Prop
  | .dup descriptor => ∀ l' new, l.duplicateCurrent descriptor = some (l',new) →
    Duplicated l descriptor l' new ∧ LowestFree l 0 new
  | .dup2 old requested => ∀ l' new, l.duplicateToCurrent old requested = some (l',new) →
    Duplicated l old l' new ∧ new = requested
  | .fcntl descriptor cmd arg => ∀ l' new, l.linuxFcntlUser descriptor cmd arg = some (l',new) →
    if cmd = 0 ∨ cmd = 1030 then Duplicated l descriptor l' new ∧ LowestFree l arg new else l' = l
  | .spawn stdin stdout stderr => ∀ child, l.spawnWithStdioCurrent stdin stdout stderr = some child →
    ∀ fd, child.currentDescriptor fd = l.currentDescriptor (stdioSource stdin stdout stderr fd) ∧
      ∀ d, child.currentDescriptor fd = some d → d.transferable = true
  | .message receiver fds => ∀ l', receiver.installPassed (l.passedFds fds) = l' →
    (∀ d ∈ l.passedFds fds, d.transferable = true) ∧
      (∀ fd d, receiver.currentDescriptor fd = some d → l'.currentDescriptor fd = some d) ∧
      ∀ fd d, receiver.currentDescriptor fd = none → l'.currentDescriptor fd = some d →
        d ∈ l.passedFds fds ∧ ∀ i, i < fd → l'.currentDescriptor i ≠ none

/-- What a descriptor of the child was in the parent, after the first redirection and after two. -/
def afterStdin (stdin fd : Nat) : Nat := if fd = 0 ∧ stdin ≠ Table.keep then stdin else fd

def afterStdout (stdin stdout fd : Nat) : Nat :=
  if fd = 1 ∧ stdout ≠ Table.keep then afterStdin stdin stdout else afterStdin stdin fd

/-- Each redirection finds its source open. -/
structure StdioOpen (stdin stdout stderr : Nat) : Prop where
  first : stdin ≠ Table.keep → l.currentDescriptor stdin ≠ none
  second : stdout ≠ Table.keep → l.currentDescriptor (afterStdin stdin stdout) ≠ none
  third : stderr ≠ Table.keep → l.currentDescriptor (afterStdout stdin stdout stderr) ≠ none

/-- A call that gets through hands on only descriptors that may be handed on; `fcntl` is asked for a free slot; a
redirection that reads a slot which an earlier one has replaced finds there what the parent has. -/
def Route.Allowed : Route → Prop
  | .dup _ => True
  | .dup2 old new => new < Table.maxDescriptors → ∀ d, l.currentDescriptor old = some d → d.transferable = true
  | .fcntl descriptor cmd arg => (cmd = 0 ∨ cmd = 1030) ∧ arg < Table.maxDescriptors →
    ∀ d, l.currentDescriptor descriptor = some d → d.transferable = true ∧ l.currentDescriptor arg = none
  | .spawn stdin stdout stderr => StdioOpen l stdin stdout stderr →
    (∀ fd d, l.currentDescriptor (stdioSource stdin stdout stderr fd) = some d → d.transferable = true) ∧
      (stdout = 0 ∨ stderr = 0 → l.currentDescriptor (afterStdin stdin 0) = l.currentDescriptor 0) ∧
      (stderr = 1 → l.currentDescriptor (afterStdout stdin stdout 1) = l.currentDescriptor 1)
  | .message _ fds => ∀ fd ∈ fds, ∀ d, l.currentDescriptor fd = some d → d.transferable = true

namespace Table

lemma duplicateCurrent_law (l : Table) (descriptor : Nat) : (Route.dup descriptor).Law l := by
  intro l' new h
  rw [duplicateCurrent] at h
  split at h
  · next d hd =>
    split_ifs at h with hba
    obtain ⟨hf,hb,ha⟩ := installDescriptor_spec h
    simp only [Bool.or_eq_true,decide_eq_true_eq,Bool.not_eq_true',not_or,Bool.not_eq_false] at hba
    exact ⟨⟨d,hd,hba.2,ha⟩,Nat.zero_le new,hf,fun i _ hi => hb i hi⟩
  · cases h

variable {l l' : Table}

lemma duplicateToCurrent_spec {old requested new : Nat} (h : l.duplicateToCurrent old requested = some (l',new)) :
    new = requested ∧ ∃ d, l.currentDescriptor old = some d ∧
      ∀ fd, l'.currentDescriptor fd = if fd = new then some d else l.currentDescriptor fd := by
  rw [duplicateToCurrent] at h
  split at h
  · cases h
  split at h
  · next d hd =>
    split_ifs at h with hs
    · cases h
      refine ⟨rfl,d,hd,fun fd => ?_⟩
      split
      · next hf => rw [hf,← hs,hd]
      · rfl
    · cases h
      exact ⟨rfl,d,hd,fun fd => currentDescriptor_put l requested fd d⟩
  · cases h

lemma duplicateToCurrent_isSome {old requested : Nat} {d : FileDescriptor} (hr : requested < maxDescriptors)
    (hd : l.currentDescriptor old = some d) : ∃ l', l.duplicateToCurrent old requested = some (l',requested) := by
  rw [duplicateToCurrent,if_neg (Nat.not_le.2 hr),hd]
  by_cases hs : old = requested
  · exact ⟨l,by simp [hs]⟩
  · exact ⟨l.put requested d,by simp [hs]⟩

lemma duplicateToCurrent_bound {old requested new : Nat} (h : l.duplicateToCurrent old requested = some (l',new)) :
    requested < maxDescriptors := by
  rw [duplicateToCurrent] at h
  split at h
  · cases h
  · next hr => exact Nat.lt_of_not_le hr

lemma duplicateToCurrent_law (l : Table) (old requested : Nat) :
    (Route.dup2 old requested).Law l ↔ (Route.dup2 old requested).Allowed l := by
  refine ⟨fun h hr d hd => ?_,fun h l' new hc => ?_⟩
  · obtain ⟨l',hc⟩ := duplicateToCurrent_isSome hr hd
    obtain ⟨⟨e,he,ht,-⟩,-⟩ := h l' requested hc
    exact Option.some.inj (hd.symm.trans he) ▸ ht
  · obtain ⟨hn,d,hd,ha⟩ := duplicateToCurrent_spec hc
    exact ⟨⟨d,hd,h (duplicateToCurrent_bound hc) d hd,ha⟩,hn⟩

lemma linuxFcntlUser_law (l : Table) (descriptor cmd arg : Nat) :
    (Route.fcntl descriptor cmd arg).Law l ↔ (Route.fcntl descriptor cmd arg).Allowed l := by
  by_cases hcm : cmd = 0 ∨ cmd = 1030
  · have hdu : l.linuxFcntlUser descriptor cmd arg = l.duplicateToCurrent descriptor arg := by
      rcases hcm with rfl | rfl <;> rfl
    simp only [Route.Law,Route.Allowed,hdu,hcm,true_and]
    refine ⟨fun h hr d hd => ?_,fun h l' new hc => ?_⟩
    · obtain ⟨l',hc⟩ := duplicateToCurrent_isSome hr hd
      obtain ⟨⟨e,he,ht,-⟩,-,hf,-⟩ := h l' arg hc
      exact ⟨Option.some.inj (hd.symm.trans he) ▸ ht,hf⟩
    · obtain ⟨rfl,d,hd,ha⟩ := duplicateToCurrent_spec hc
      obtain ⟨ht,hf⟩ := h (duplicateToCurrent_bound hc) d hd
      exact ⟨⟨d,hd,ht,ha⟩,Nat.le_refl new,hf,fun i hl hlt => absurd hl (Nat.not_le.2 hlt)⟩
  · refine ⟨fun _ h => absurd h.1 hcm,fun _ l' new hc => ?_⟩
    rw [if_neg hcm]
    unfold linuxFcntlUser at hc
    split at hc
    · simp at hcm
    · simp at hcm
    · exact (Prod.mk.inj (Option.some.inj hc)).1.symm
    · exact (Prod.mk.inj (Option.some.inj hc)).1.symm

/-- A redirection that may keep its target: the target then denotes what the
source did, and the rest is as it was. -/
lemma redirect_spec {target source : Nat} (h : l.redirect target source = some l') (fd : Nat) :
    l'.currentDescriptor fd =
      if fd = target ∧ source ≠ keep then l.currentDescriptor source else l.currentDescriptor fd := by
  rw [redirect] at h
  split_ifs at h with hk
  · cases h
    simp [hk]
  obtain ⟨d,hd,rfl⟩ := Option.map_eq_some_iff.1 h
  rw [currentDescriptor_put,hd]
  simp [hk]

lemma redirect_isSome_iff (l : Table) (target source : Nat) :
    (∃ l', l.redirect target source = some l') ↔ (source ≠ keep → l.currentDescriptor source ≠ none) := by
  rw [redirect]
  split_ifs with hk
  · simp [hk]
  · cases l.currentDescriptor source <;> simp [hk]

lemma afterStdin_spec {l0 : Table} {stdin : Nat} (h0 : l.redirect 0 stdin = some l0) (fd : Nat) :
    l0.currentDescriptor fd = l.currentDescriptor (afterStdin stdin fd) := by
  rw [redirect_spec h0,afterStdin]
  split_ifs <;> rfl

lemma afterStdout_spec {l0 l1 : Table} {stdin stdout : Nat} (h0 : l.redirect 0 stdin = some l0)
    (h1 : l0.redirect 1 stdout = some l1) (fd : Nat) :
    l1.currentDescriptor fd = l.currentDescriptor (afterStdout stdin stdout fd) := by
  rw [redirect_spec h1,afterStdout,afterStdin_spec h0,afterStdin_spec h0]
  split_ifs <;> rfl

lemma spawnWithStdioCurrent_child {child : Table} {stdin stdout stderr : Nat}
    (hc : l.spawnWithStdioCurrent stdin stdout stderr = some child) (fd : Nat) :
    child.currentDescriptor fd = l.currentDescriptor
      (if fd = 2 ∧ stderr ≠ keep then afterStdout stdin stdout stderr else afterStdout stdin stdout fd) := by
  simp only [spawnWithStdioCurrent,bind,Option.bind_eq_some_iff] at hc
  obtain ⟨l0,h0,l1,h1,h2⟩ := hc
  rw [redirect_spec h2,afterStdout_spec h0 h1,afterStdout_spec h0 h1]
  split_ifs <;> rfl

lemma spawnWithStdioCurrent_isSome_iff (l : Table) (stdin stdout stderr : Nat) :
    (∃ child, l.spawnWithStdioCurrent stdin stdout stderr = some child) ↔ StdioOpen l stdin stdout stderr := by
  simp only [spawnWithStdioCurrent,bind,Option.bind_eq_some_iff]
  constructor
  · rintro ⟨child,l0,h0,l1,h1,h2⟩
    have hi := (redirect_isSome_iff l 0 stdin).1 ⟨l0,h0⟩
    have ho := (redirect_isSome_iff l0 1 stdout).1 ⟨l1,h1⟩
    have he := (redirect_isSome_iff l1 2 stderr).1 ⟨child,h2⟩
    rw [afterStdin_spec h0] at ho
    rw [afterStdout_spec h0 h1] at he
    exact ⟨hi,ho,he⟩
  · rintro ⟨hi,ho,he⟩
    obtain ⟨l0,h0⟩ := (redirect_isSome_iff l 0 stdin).2 hi
    obtain ⟨l1,h1⟩ := (redirect_isSome_iff l0 1 stdout).2 (by rw [afterStdin_spec h0]; exact ho)
    obtain ⟨child,h2⟩ := (redirect_isSome_iff l1 2 stderr).2 (by rw [afterStdout_spec h0 h1]; exact he)
    exact ⟨child,l0,h0,l1,h1,h2⟩

/-- The order of the redirections is not seen exactly if the slots that are read twice hold the same. -/
lemma stdioSource_iff (l : Table) (stdin stdout stderr : Nat) :
    (∀ fd, l.currentDescriptor
        (if fd = 2 ∧ stderr ≠ keep then afterStdout stdin stdout stderr else afterStdout stdin stdout fd) =
      l.currentDescriptor (stdioSource stdin stdout stderr fd)) ↔
    (stdout = 0 ∨ stderr = 0 → l.currentDescriptor (afterStdin stdin 0) = l.currentDescriptor 0) ∧
      (stderr = 1 → l.currentDescriptor (afterStdout stdin stdout 1) = l.currentDescriptor 1) := by
  have hk0 : (0 : Nat) ≠ keep := by decide
  have hk1 : (1 : Nat) ≠ keep := by decide
  constructor
  · intro h
    refine ⟨?_,?_⟩
    · rintro (rfl | rfl)
      · have := h 1
        simpa [afterStdout,stdioSource,hk0] using this
      · have := h 2
        simpa [afterStdout,stdioSource,hk0] using this
    · rintro rfl
      have := h 2
      simpa [afterStdout,stdioSource,hk1] using this
  · rintro ⟨hz,hon⟩ fd
    have hout : l.currentDescriptor (afterStdin stdin stdout) = l.currentDescriptor stdout := by
      by_cases h0 : stdout = 0
      · rw [h0]
        exact hz (.inl h0)
      · rw [afterStdin,if_neg (fun hb => h0 hb.1)]
    by_cases h2 : fd = 2 ∧ stderr ≠ keep
    · obtain ⟨rfl,he⟩ := h2
      have hse : stdioSource stdin stdout stderr 2 = stderr := by simp [stdioSource,he]
      rw [if_pos ⟨rfl,he⟩,hse]
      by_cases h1 : stderr = 1
      · rw [h1]
        exact hon h1
      by_cases h0 : stderr = 0
      · rw [afterStdout,if_neg (fun hb => h1 hb.1),h0]
        exact hz (.inr h0)
      · rw [afterStdout,if_neg (fun hb => h1 hb.1),afterStdin,if_neg (fun hb => h0 hb.1)]
    rw [if_neg h2,afterStdout,stdioSource]
    by_cases h1 : fd = 1 ∧ stdout ≠ keep
    · rw [if_pos h1,hout,if_neg (by simp [h1.1]),if_pos h1]
    by_cases h0 : fd = 0 ∧ stdin ≠ keep
    · rw [if_neg h1,afterStdin,if_pos h0,if_pos h0]
    · rw [if_neg h1,afterStdin,if_neg h0,if_neg h0,if_neg h1,if_neg h2]

lemma spawnWithStdioCurrent_law (l : Table) (stdin stdout stderr : Nat) :
    (Route.spawn stdin stdout stderr).Law l ↔ (Route.spawn stdin stdout stderr).Allowed l := by
  constructor
  · intro h ho
    obtain ⟨child,hc⟩ := (spawnWithStdioCurrent_isSome_iff l stdin stdout stderr).2 ho
    have hl := h child hc
    refine ⟨fun fd d hd => (hl fd).2 d ((hl fd).1.trans hd),(stdioSource_iff l stdin stdout stderr).1 fun fd => ?_⟩
    rw [← spawnWithStdioCurrent_child hc]
    exact (hl fd).1
  · intro h child hc fd
    obtain ⟨ht,horder⟩ := h ((spawnWithStdioCurrent_isSome_iff l stdin stdout stderr).1 ⟨child,hc⟩)
    have hs := (spawnWithStdioCurrent_child hc fd).trans ((stdioSource_iff l stdin stdout stderr).2 horder fd)
    exact ⟨hs,fun d hd => ht fd d (hs.symm.trans hd)⟩

variable (ds : List FileDescriptor)
variable {fd : Nat} {d : FileDescriptor}

lemma installPassed_keeps (l : Table)
    (h : l.currentDescriptor fd = some d) : (l.installPassed ds).currentDescriptor fd = some d := by
  induction ds generalizing l with
  | nil => exact h
  | cons e rest ih =>
    rw [installPassed]
    split
    · next l' new hi =>
      obtain ⟨hf,-,ha⟩ := installDescriptor_spec hi
      refine ih l' ?_
      have hn : fd ≠ new := by
        intro he
        simp [he,hf] at h
      rw [ha,if_neg hn,h]
    · exact ih l h

/-- A slot that was free and is now in use has a passed descriptor, and there is
no free slot below it. -/
lemma installPassed_new (l : Table)
    (hf : l.currentDescriptor fd = none) (h : (l.installPassed ds).currentDescriptor fd = some d) :
    d ∈ ds ∧ ∀ i, i < fd → (l.installPassed ds).currentDescriptor i ≠ none := by
  induction ds generalizing l with
  | nil => simp [installPassed,hf] at h
  | cons e rest ih =>
    rw [installPassed] at h ⊢
    split at h
    · next l' new hin =>
      obtain ⟨-,hb,ha⟩ := installDescriptor_spec hin
      by_cases hn : fd = new
      · subst hn
        have hp : l'.currentDescriptor fd = some e := by simp [ha]
        have hd : d = e := Option.some.inj (h.symm.trans (installPassed_keeps rest l' hp))
        refine ⟨by simp [hd],fun i hi => ?_⟩
        obtain ⟨other,ho⟩ := Option.ne_none_iff_exists'.1 (hb i hi)
        have hk : l'.currentDescriptor i = some other := by simp [ha,Nat.ne_of_lt hi,ho]
        simp [installPassed_keeps rest l' hk]
      · have hs : l'.currentDescriptor fd = none := by simp [ha,hn,hf]
        obtain ⟨hm,hl⟩ := ih l' hs h
        exact ⟨mem_cons_of_mem e hm,hl⟩
    · obtain ⟨hm,hl⟩ := ih l hf h
      exact ⟨mem_cons_of_mem e hm,hl⟩

end Table

/-- From any table, a way of handing a descriptor on keeps its law exactly if it is allowed to. -/
theorem descriptor_duplication_law (l : Table) (route : Route) : route.Law l ↔ route.Allowed l := by
  cases route with
  | dup descriptor => exact ⟨fun _ => trivial,fun _ => l.duplicateCurrent_law descriptor⟩
  | dup2 old requested => exact l.duplicateToCurrent_law old requested
  | fcntl descriptor cmd arg => exact l.linuxFcntlUser_law descriptor cmd arg
  | spawn stdin stdout stderr => exact l.spawnWithStdioCurrent_law stdin stdout stderr
  | message receiver fds =>
    constructor
    · intro h fd hm d hd
      exact (h _ rfl).1 d (List.mem_filterMap.2 ⟨fd,hm,hd⟩)
    · rintro h l' rfl
      refine ⟨fun d hd => ?_,fun fd d hd => Table.installPassed_keeps _ receiver hd,
        fun fd d hf hd => Table.installPassed_new _ receiver hf hd⟩
      obtain ⟨fd,hm,hfd⟩ := List.mem_filterMap.1 hd
      exact h fd hm d hfd

/-- Slot 0 is an `epoll` descriptor, which may not be handed on; slot 1 a file. -/
theorem descriptor_handed_on_without_right :
    let l : Table := [some ⟨2^32+1,Rights.read ||| Rights.write,.epoll 0⟩,
      some ⟨2^32+2,Rights.read ||| Rights.transfer,.file 0⟩]
    ¬(Route.dup2 0 5).Law l ∧ ¬(Route.fcntl 1 0 0).Law l ∧
      ¬(Route.spawn Table.keep Table.keep Table.keep).Law l ∧ ¬(Route.spawn 1 0 Table.keep).Law l ∧
      ¬(Route.message [] [0]).Law l := by
  intro l
  refine ⟨fun h => ?_,fun h => ?_,fun h => ?_,fun h => ?_,fun h => ?_⟩
  · obtain ⟨⟨d,hd,hr,-⟩,-⟩ := h _ _ rfl
    cases hd
    exact absurd hr (by decide)
  · obtain ⟨-,-,hf,-⟩ := h _ _ rfl
    exact absurd hf (by decide)
  · exact absurd ((h _ rfl 0).2 _ rfl) (by decide)
  · exact absurd (h _ rfl 1).1 (by decide)
  · exact absurd ((h _ rfl).1 _ (List.mem_singleton.2 rfl)) (by decide)

end Vanta.Io
