import Mathlib.Data.List.Nodup
import Vanta.Fs.VantaFsMap

namespace Vanta.Fs
open Library Function List

lemma stripSlash_valid {l : List UInt8} (h : validUtf8 l = true) : validUtf8 (stripSlash l) = true := by
  cases l with
  | nil => exact h
  | cons b l =>
    simp only [stripSlash]
    split_ifs with hb
    · subst hb
      rw [validUtf8.eq_def] at h
      exact h
    · exact h

variable {path : Str} {p : List UInt8}

lemma normalizePath_ok (h : normalizePath path = .ok p) : p ≠ [] ∧ p.length ≤ maxPathLength ∧ validUtf8 p = true := by
  unfold normalizePath at h
  dsimp only at h
  split_ifs at h with hb hl
  cases h
  simp only [not_or,Nat.not_lt] at hb
  exact ⟨hb.1,hb.2.1,stripSlash_valid path.valid⟩

lemma nameField_length (h : p.length ≤ maxPathLength) : (nameField p).length = maxPathLength := by
  simp only [nameField,length_append,length_replicate]
  omega

lemma nameField_take (p : List UInt8) : (nameField p).take p.length = p := take_left

variable {sectors : Nat} {d : BlockDevice}

namespace VantaFs
variable {fs : VantaFs} {dir : Nat → FileRecord} {m : Entries} {p : List UInt8} {i : Nat}
  {r : FileRecord}

lemma firstFreeIndex_ok (h : Represents fs dir m) (hf : fs.firstFreeIndex = .ok i) :
    i < maxDirectoryEntries ∧ ¬(dir i).Active := by
  simp only [firstFreeIndex,h.records_eq] at hf
  split at hf
  · simp at hf
  next index hi =>
  obtain rfl := Except.ok.inj hf
  obtain ⟨hl,hp,-⟩ := findIdx?_eq_some_iff_getElem.1 hi
  simp only [getElem_map,getElem_range,beq_iff_eq] at hp
  exact ⟨hl,by simp [FileRecord.Active,hp]⟩

variable {ignored : Option Nat} {c : Nat}

lemma allocateFrom_ok {rs : List FileRecord} {fuel candidate : Nat}
    (h : allocateFrom rs ignored sectors fuel candidate = .ok c) :
    candidate ≤ c ∧ c < candidate+fuel ∧ c < 2^32 ∧ availableAt rs ignored sectors c = true := by
  induction fuel generalizing candidate with
  | zero => simp [allocateFrom] at h
  | succ fuel ih =>
    rw [allocateFrom] at h
    split_ifs at h with ha hlt
    · obtain rfl := Except.ok.inj h
      exact ⟨le_refl _,by omega,hlt,ha⟩
    · obtain ⟨hl,hh,hr⟩ := ih h
      exact ⟨by omega,by omega,hr⟩

lemma allocate_ok (h : Represents fs dir m)
    (ha : fs.allocate sectors ignored = .ok c) : firstDataSector ≤ c ∧ c+sectors ≤ fs.sectorCount ∧ c < 2^32 ∧
      ∀ j < maxDirectoryEntries, ignored ≠ some j → (dir j).Active →
        c+sectors ≤ (dir j).startSector ∨ (dir j).startSector+(dir j).sectorCount ≤ c := by
  simp only [allocate,h.records_eq] at ha
  split_ifs at ha with hs
  obtain ⟨hl,hh,hlt,hav⟩ := allocateFrom_ok ha
  refine ⟨hl,by omega,hlt,fun j hj hi hac => ?_⟩
  simp only [availableAt,length_map,length_range,all_eq_true,mem_range] at hav
  have hj' := hav j hj
  have hg : ((range maxDirectoryEntries).map dir)[j]? = some (dir j) := by simp [hj]
  rw [hg] at hj'
  simp only [Bool.or_eq_true,beq_iff_eq,decide_eq_true_eq] at hj'
  rcases hj' with ((he | he) | he) | he
  · exact absurd he hi
  · exact absurd he hac
  · exact .inl he
  · exact .inr he

/-- The entry that `write_file` prepares for the path `p`. -/
structure Target (fs : VantaFs) (dir : Nat → FileRecord) (p : List UInt8) (required i : Nat)
    (r : FileRecord) : Prop where
  index : i < maxDirectoryEntries
  kind : r.kind = .file
  name : r.name.length = maxPathLength
  nameLength : r.nameLength = p.length
  key : r.key = p
  count : r.sectorCount = required
  data : firstDataSector ≤ r.startSector
  inside : r.startSector+required ≤ fs.sectorCount
  start_lt : r.startSector < 2^32
  others : ∀ j < maxDirectoryEntries, j ≠ i → (dir j).Active → (dir j).key ≠ p ∧ extentsApart (dir j) r
  old : (dir i).Active → (dir i).key = p ∧ (dir i).kind = .file

variable {required i : Nat}

lemma targetRecord_ok (h : Represents fs dir m) (hr : 0 < required)
    (hp : p.length ≤ maxPathLength) (ht : fs.targetRecord p required = .ok (i,r)) : Target fs dir p required i r := by
  simp only [targetRecord,findRecord,h.records_eq] at ht
  cases hf : findIn ((range maxDirectoryEntries).map dir) p with
  | some found =>
    obtain ⟨index,rec⟩ := found
    obtain ⟨hi,rfl,hac,hke⟩ := findIn_some hf
    have hs := h.stored hi hac
    have ho : ∀ j < maxDirectoryEntries, j ≠ index → (dir j).Active → (dir j).key ≠ p :=
      fun j hj hji hj' he => hji (h.unique j hj index hi hj' hac (he.trans hke.symm))
    have hnl : (dir index).nameLength = p.length := by rw [← key_length hs,hke]
    simp only [hf] at ht
    split_ifs at ht with hdi hc
    · obtain ⟨rfl,rfl⟩ := Prod.mk.inj (Except.ok.inj ht)
      have hki : (dir index).kind = .file := by
        cases hk : (dir index).kind with
        | file => rfl
        | directory => exact absurd hk hdi
      obtain ⟨hd,hin⟩ := hs.extent (by omega)
      exact ⟨hi,hki,hs.name,hnl,hke,hc,hd,by omega,hs.start_lt,
        fun j hj hji ha => ⟨ho j hj hji ha,h.apart j hj index hi hji ha hac⟩,fun _ => ⟨hke,hki⟩⟩
    have hki : (dir index).kind = .file := by
      cases hk : (dir index).kind with
      | file => rfl
      | directory => exact absurd hk hdi
    split at ht
    · simp at ht
    next start hal =>
    cases ht
    obtain ⟨hd,hin,hl,hap⟩ := allocate_ok h hal
    refine ⟨hi,hki,hs.name,hnl,hke,rfl,hd,hin,hl,fun j hj hji ha => ?_,fun _ => ⟨hke,hki⟩⟩
    exact ⟨ho j hj hji ha,(hap j hj (fun he => hji (Option.some.inj he).symm) ha).symm⟩
  | none =>
    have hn := h.findIn_none hf
    simp only [hf] at ht
    split at ht
    · simp at ht
    next index hfr =>
    obtain ⟨hi,hna⟩ := firstFreeIndex_ok h hfr
    split at ht
    · simp at ht
    next start hal =>
    cases ht
    obtain ⟨hd,hin,hl,hap⟩ := allocate_ok h hal
    exact ⟨hi,rfl,nameField_length hp,rfl,nameField_take p,rfl,hd,hin,hl,
      fun j hj _ ha => ⟨h.key_ne_of_none hj ha hn,(hap j hj (by simp) ha).symm⟩,
      fun ha => absurd ha hna⟩

lemma restore_of_same_key {old : FileRecord} (hk : old.Active → old.key = r.key) (hr : r.Active) :
    Represents.restore m d old r = update m r.key (some (entryAt d r)) := by
  funext q
  have hr : r.nameLength ≠ 0 := hr
  by_cases hq : q = r.key
  · subst hq
    simp [Represents.restore,hr]
  have hgo : ¬(old.nameLength ≠ 0 ∧ q = old.key) := fun hg => hq (hg.2.trans (hk hg.1))
  simp only [Represents.restore,hq,and_false,if_false,hgo]
  rw [update_of_ne hq]

lemma requiredSectors_spec (data : List UInt8) :
    0 < requiredSectors data ∧ data.length ≤ requiredSectors data*sectorSize := by
  simp only [requiredSectors,sectorSize]
  omega

lemma Target.stored (ht : Target fs dir p required i r) (hne : p ≠ [])
    (hl : p.length ≤ maxPathLength) (hr : required < 2^32) {n : Nat} (hn : n < 2^32)
    (hf : n ≤ required*sectorSize) : {r with length := n}.Stored fs.sectorCount := by
  have hnl := ht.nameLength
  have hp := length_pos_of_ne_nil hne
  have hc := ht.count
  refine ⟨ht.name,?_,?_,ht.start_lt,?_,hn,fun _ => ⟨ht.data,?_⟩,?_,fun hd => ?_⟩
  · simp only [FileRecord.Active]
    omega
  · simp only [hnl]
    exact hl
  · simp only [hc]
    exact hr
  · rw [hc]
    exact ht.inside
  · rw [hc]
    exact hf
  · rw [ht.kind] at hd
    exact absurd hd (by decide)

lemma Target.entry_old (h : Represents fs dir m) (ht : Target fs dir p required i r) :
    (∃ bytes, (dir i).Active ∧ m p = some (.file bytes)) ∨ (¬(dir i).Active ∧ m p = none) := by
  by_cases ha : (dir i).Active
  · obtain ⟨hk,hki⟩ := ht.old ha
    have := h.entry_of_active ht.index ha
    rw [hk,entryAt,hki] at this
    exact .inl ⟨_,ha,this⟩
  refine .inr ⟨ha,?_⟩
  cases hm : m p with
  | none => rfl
  | some e =>
    obtain ⟨j,hj,haj,hk,-⟩ := (h.maps p e).1 hm
    have hji : j ≠ i := by
      rintro rfl
      exact ha haj
    exact absurd hk (ht.others j hj hji haj).1

lemma Target.frame (ht : Target fs dir p required i r) (data : List UInt8) :
    (∀ s < firstDataSector, (writeSectors fs.device r.startSector data r.sectorCount 0).sectors s =
      fs.device.sectors s) ∧ ∀ j < maxDirectoryEntries, j ≠ i → (dir j).Active → ∀ s, (dir j).startSector ≤ s →
      s < (dir j).startSector+(dir j).sectorCount →
        (writeSectors fs.device r.startSector data r.sectorCount 0).sectors s = fs.device.sectors s := by
  have hd := ht.data
  refine ⟨fun s hs => ?_,fun j hj hji ha s hs hl => ?_⟩
  · rw [writeSectors_sectors,if_neg (by omega)]
  have hap : (dir j).startSector+(dir j).sectorCount ≤ r.startSector ∨
      r.startSector+r.sectorCount ≤ (dir j).startSector := (ht.others j hj hji ha).2
  rw [writeSectors_sectors,if_neg (by omega)]

end VantaFs

inductive FsOp where
  | createDir (path : Str)
  | writeFile (path : Str) (data : List UInt8)
  | removeFile (path : Str)
  | renameFile (oldPath newPath : Str)

def Entries.Step (m : Entries) (op : FsOp) (m' : Entries) : Prop :=
  match op with
  | .createDir path => ∃ p, normalizePath path = .ok p ∧ m p = none ∧ m' = update m p (some .directory)
  | .writeFile path data => ∃ p, normalizePath path = .ok p ∧ m p ≠ some .directory ∧
      m' = update m p (some (.file data))
  | .removeFile path => ∃ p, normalizePath path = .ok p ∧ m p ≠ none ∧
      (m p = some .directory → ¬m.HasChild p) ∧ m' = update m p none
  | .renameFile oldPath newPath => ∃ o n, normalizePath oldPath = .ok o ∧ normalizePath newPath = .ok n ∧
      ((o = n ∧ m' = m) ∨ (o ≠ n ∧ ∃ e, m o = some e ∧ (e = .directory → ¬m.HasChild o) ∧ m n = none ∧
        m' = update (update m o none) n (some e)))

namespace VantaFs

def step (fs : VantaFs) : FsOp → VantaFs × Except VfsError Unit
  | .createDir path => fs.createDir path
  | .writeFile path data => fs.writeFile path data
  | .removeFile path => fs.removeFile path
  | .renameFile oldPath newPath => fs.renameFile oldPath newPath

variable {fs : VantaFs} {dir : Nat → FileRecord} {m : Entries} {p : List UInt8} {i : Nat}
  {r : FileRecord}

/-- After a call the device represents the map that the call leaves: the abstract operation's if it
succeeded, the old one if it returned an error. -/
def Refined (m : Entries) (op : FsOp) (result : VantaFs × Except VfsError Unit) : Prop :=
  ∃ dir' m', Represents result.1 dir' m' ∧
    match result.2 with
    | .ok _ => m.Step op m'
    | .error _ => m' = m

lemma refined_error (h : Represents fs dir m) (op : FsOp) (e : VfsError) : Refined m op (fs,.error e) := ⟨dir,m,h,rfl⟩

lemma writeRecord_ok (fs : VantaFs) {sc : Nat} (hr : r.Stored sc) (i : Nat) :
    fs.writeRecord i r = (⟨fs.device.writeSector directorySector (overlay (fs.device.sectors directorySector)
      (i*directoryEntrySize) (encodeRecord r)),fs.sectorCount⟩,.ok ()) := by
  rw [writeRecord,if_pos hr.length_lt]

lemma directoryRecord_stored (hn : p ≠ []) (hl : p.length ≤ maxPathLength) (sc : Nat) :
    FileRecord.Stored ⟨.directory,nameField p,p.length,0,0,0⟩ sc where
  name := nameField_length hl
  active := fun h => hn (length_eq_zero_iff.1 h)
  nameLength := hl
  start_lt := Nat.two_pow_pos 32
  count_lt := Nat.two_pow_pos 32
  length_lt := Nat.two_pow_pos 32
  extent := fun h => absurd rfl h
  fits := Nat.zero_le _
  directory := fun _ => ⟨rfl,rfl,rfl⟩

section
variable (h : Represents fs dir m)
include h

lemma createDir_refined (path : Str) : Refined m (.createDir path) (fs.createDir path) := by
  unfold createDir
  cases hp : normalizePath path with
  | error e => exact refined_error h _ e
  | ok p =>
    obtain ⟨hne,hl,hu⟩ := normalizePath_ok hp
    simp only [findRecord,h.records_eq]
    cases hf : findIn ((range maxDirectoryEntries).map dir) p with
    | some found => exact refined_error h _ _
    | none =>
      have hn := h.findIn_none hf
      cases hfr : fs.firstFreeIndex with
      | error e => exact refined_error h _ e
      | ok index =>
        obtain ⟨hi,hna⟩ := firstFreeIndex_ok h hfr
        have hs := directoryRecord_stored hne hl fs.sectorCount
        have hk : FileRecord.key ⟨.directory,nameField p,p.length,0,0,0⟩ = p := nameField_take p
        have hst := h.store hi rfl (fun _ _ => rfl) (fun _ _ _ _ _ _ _ => rfl) hs (hk.symm ▸ hu)
          (fun j hj _ ha => ⟨h.key_ne_of_none hj ha (hk.symm ▸ hn),.inr (Nat.zero_le _)⟩)
        rw [restore_of_same_key (fun ha => absurd ha hna) hs.active,hk] at hst
        exact ⟨_,_,hst,p,hp,hn,rfl⟩

lemma removeFile_refined (path : Str) : Refined m (.removeFile path) (fs.removeFile path) := by
  unfold removeFile
  cases hp : normalizePath path with
  | error e => exact refined_error h _ e
  | ok p =>
    simp only [findRecord,hasChildren,h.records_eq]
    cases hf : findIn ((range maxDirectoryEntries).map dir) p with
    | none => exact refined_error h _ _
    | some found =>
      obtain ⟨index,r⟩ := found
      have hm := h.findIn_isSome hf
      obtain ⟨hi,rfl,ha,hk⟩ := findIn_some hf
      dsimp only
      split_ifs with hch
      · exact refined_error h _ _
      refine ⟨_,_,h.clear hi,p,hp,by simp [hm],fun hd hc => hch ⟨?_,h.childIn_iff.2 hc⟩,?_⟩
      · rw [hm] at hd
        exact kind_of_entryAt (Option.some.inj hd)
      funext q
      by_cases hq : q = p
      · have : (dir index).nameLength ≠ 0 := ha
        simp [Represents.restore,FileRecord.empty,hq,hk,this]
      · simp [Represents.restore,FileRecord.empty,hq,hk]

lemma renameFile_refined (oldPath newPath : Str) :
    Refined m (.renameFile oldPath newPath) (fs.renameFile oldPath newPath) := by
  unfold renameFile
  cases ho : normalizePath oldPath with
  | error e => exact refined_error h _ e
  | ok o =>
    cases hn : normalizePath newPath with
    | error e => exact refined_error h _ e
    | ok n =>
      obtain ⟨hne,hl,hu⟩ := normalizePath_ok hn
      dsimp only
      split_ifs with he
      · exact ⟨dir,m,h,o,n,ho,hn,.inl ⟨he,rfl⟩⟩
      simp only [findRecord,hasChildren,h.records_eq]
      cases hf : findIn ((range maxDirectoryEntries).map dir) o with
      | none => exact refined_error h _ _
      | some found =>
        obtain ⟨index,r⟩ := found
        have hm := h.findIn_isSome hf
        obtain ⟨hi,rfl,ha,hk⟩ := findIn_some hf
        cases hfn : findIn ((range maxDirectoryEntries).map dir) n with
        | some found' =>
          simp only [Option.isSome_some,if_true]
          split_ifs <;> exact refined_error h _ _
        | none =>
          simp only [Option.isSome_none,Bool.false_eq_true,if_false]
          split_ifs with hch
          · exact refined_error h _ _
          have hno := h.findIn_none hfn
          have hol := h.stored hi ha
          have hs : FileRecord.Stored {dir index with name := nameField n, nameLength := n.length}
              fs.sectorCount :=
            {hol with
              name := nameField_length hl
              active := fun h => hne (length_eq_zero_iff.1 h)
              nameLength := hl}
          have hnew : FileRecord.key {dir index with name := nameField n, nameLength := n.length} = n :=
            nameField_take n
          have hst := h.store hi rfl (fun _ _ => rfl) (fun _ _ _ _ _ _ _ => rfl) hs (hnew.symm ▸ hu)
            (fun j hj hji hj' => ⟨h.key_ne_of_none hj hj' (hnew.symm ▸ hno),h.apart j hj index hi hji hj' ha⟩)
          rw [writeRecord_ok fs hs]
          refine ⟨_,_,hst,o,n,ho,hn,.inr ⟨he,_,hm,fun hd hc => hch ⟨kind_of_entryAt hd,
            h.childIn_iff.2 hc⟩,hno,?_⟩⟩
          funext q
          have hp : (dir index).nameLength ≠ 0 := ha
          have hp' : n.length ≠ 0 := hs.active
          unfold Represents.restore
          rw [hnew,hk]
          by_cases hq : q = n
          · subst hq
            rw [if_pos ⟨hp',rfl⟩,update_self]
            rfl
          rw [if_neg (fun hc => hq hc.2),update_of_ne hq]
          by_cases hqo : q = o
          · subst hqo
            rw [if_pos ⟨hp,rfl⟩,update_self]
          · rw [if_neg (fun hc => hqo hc.2),update_of_ne hqo]

lemma readFile_eq (hp : normalizePath path = .ok p) : fs.readFile path = match m p with
      | none => .error .notFound
      | some .directory => .error .isDirectory
      | some (.file bytes) => .ok bytes := by
  simp only [readFile,hp,findRecord,h.records_eq]
  cases hf : findIn ((range maxDirectoryEntries).map dir) p with
  | none => rw [h.findIn_none hf]
  | some found =>
    obtain ⟨index,r⟩ := found
    have hm := h.findIn_isSome hf
    obtain ⟨hi,rfl,ha,hke⟩ := findIn_some hf
    rw [hm,entryAt]
    dsimp only
    cases hk : (dir index).kind with
    | directory => rfl
    | file => rw [if_neg (by decide),readSectors_eq _ _ _ _ (h.stored hi ha).fits]

lemma writeFile_refined (path : Str) (data : List UInt8)
    (hsa : data.length < 2^32 ∨ ∀ bytes, fs.readFile path ≠ .ok bytes) :
    Refined m (.writeFile path data) (fs.writeFile path data) := by
  unfold writeFile
  cases hp : normalizePath path with
  | error e => exact refined_error h _ e
  | ok p =>
    obtain ⟨hn,hle,hu⟩ := normalizePath_ok hp
    obtain ⟨hpo,hfi⟩ := requiredSectors_spec data
    dsimp only
    split_ifs with hb
    · exact refined_error h _ _
    cases ht : fs.targetRecord p (requiredSectors data) with
    | error e => exact refined_error h _ e
    | ok target =>
      obtain ⟨index,r⟩ := target
      have hta := targetRecord_ok h hpo hle ht
      have ho := hta.entry_old h
      obtain ⟨hme,hf⟩ := hta.frame data
      dsimp only
      by_cases hlt : data.length < 2^32
      · have hs := hta.stored hn hle (by omega) hlt hfi
        have hk : FileRecord.key {r with length := data.length} = p := hta.key
        have hst := h.store hta.index (writeSectors_sectorCount _ _ _ _ _) hme hf hs
          (hk.symm ▸ hu) (fun j hj hji ha => hk.symm ▸ hta.others j hj hji ha)
        rw [restore_of_same_key (fun ha => (hta.old ha).1.trans hk.symm) hs.active,hk] at hst
        rw [writeRecord_ok _ hs]
        refine ⟨_,_,hst,p,hp,?_,?_⟩
        · rcases ho with ⟨bytes,-,hm⟩ | ⟨-,hm⟩ <;> simp [hm]
        · simp only [entryAt,hta.kind,hta.count]
          rw [window_writeSectors _ _ _ (le_refl _) hfi,take_length]
      · rw [writeRecord,if_neg hlt]
        refine ⟨dir,m,h.frame (writeSectors_sectorCount _ _ _ _ _) hme (fun j hj ha => ?_),rfl⟩
        refine hf j hj ?_ ha
        rintro rfl
        rcases ho with ⟨bytes,-,hm⟩ | ⟨hna,-⟩
        · refine hsa.elim (fun hl => hlt hl) (fun hno => hno bytes ?_)
          rw [readFile_eq h hp,hm]
        · exact hna ha

end

/-- `write_file` never replaces a file by more bytes than a record can count. -/
def Safe (fs : VantaFs) : FsOp → Prop
  | .writeFile path data => data.length < 2^32 ∨ ∀ bytes, fs.readFile path ≠ .ok bytes
  | _ => True

lemma step_refined (h : Represents fs dir m) {op : FsOp} (hs : Safe fs op) : Refined m op (fs.step op) := by
  cases op with
  | createDir path => exact createDir_refined h path
  | writeFile path data => exact writeFile_refined h path data hs
  | removeFile path => exact removeFile_refined h path
  | renameFile oldPath newPath => exact renameFile_refined h oldPath newPath

lemma listNames_eq {l : List FileRecord} (h : ∀ r ∈ l, r.Active → validUtf8 r.key = true) :
    listNames l = .ok ((l.filter (fun r => decide (r.nameLength ≠ 0))).map (fun r => listedPath r.key r.kind)) := by
  induction l with
  | nil => rfl
  | cons r l ih =>
    have ih := ih (fun r' hr' => h r' (by simp [hr']))
    by_cases hr : r.nameLength = 0
    · simp [listNames,hr,ih]
    have hu := h r (by simp) hr
    rw [FileRecord.key] at hu
    simp [listNames,hr,ih,hu,FileRecord.key]

lemma entryAt_kind (d : BlockDevice) (r : FileRecord) : (entryAt d r).kind = r.kind := by
  unfold entryAt
  cases r.kind <;> rfl

lemma listFiles_eq (h : Represents fs dir m) :
    ∃ paths : List (List UInt8), paths.Nodup ∧ (∀ p, p ∈ paths ↔ (m p).isSome) ∧
      fs.listFiles = .ok (paths.map m.listed) := by
  have hm : ∀ i ∈ (range maxDirectoryEntries).filter (fun i => decide ((dir i).nameLength ≠ 0)),
      i < maxDirectoryEntries ∧ (dir i).Active := by
    intro i hi
    simpa [FileRecord.Active] using hi
  refine ⟨((range maxDirectoryEntries).filter (fun i => decide ((dir i).nameLength ≠ 0))).map
    (fun i => (dir i).key),?_,fun p => ?_,?_⟩
  · refine List.Nodup.map_on (fun i hi j hj he => ?_) (nodup_range.filter _)
    exact h.unique i (hm i hi).1 j (hm j hj).1 (hm i hi).2 (hm j hj).2 he
  · rw [Option.isSome_iff_exists]
    constructor
    · intro hp
      obtain ⟨i,hi,rfl⟩ := mem_map.1 hp
      exact ⟨_,h.entry_of_active (hm i hi).1 (hm i hi).2⟩
    · rintro ⟨e,he⟩
      obtain ⟨i,hi,ha,rfl,-⟩ := (h.maps p e).1 he
      have hpo : (dir i).nameLength ≠ 0 := ha
      exact mem_map.2 ⟨i,by simp [hi,hpo],rfl⟩
  · rw [listFiles,h.records_eq]
    dsimp only
    rw [listNames_eq,filter_map,map_map,map_map]
    · congr 1
      refine map_congr_left (fun i hi => ?_)
      obtain ⟨hl,ha⟩ := hm i hi
      simp only [comp_apply,Entries.listed,h.entry_of_active hl ha,entryAt_kind]
    · intro r hr ha
      obtain ⟨i,hi,rfl⟩ := mem_map.1 hr
      exact h.utf8 i (mem_range.1 hi) ha

/-- What `read_file`, `list_files` and a new mount show is the map `m`. -/
structure Observes (fs : VantaFs) (m : Entries) : Prop where
  read : ∀ path p, normalizePath path = .ok p → fs.readFile path = match m p with
    | none => .error .notFound
    | some .directory => .error .isDirectory
    | some (.file bytes) => .ok bytes
  list : ∃ paths : List (List UInt8), paths.Nodup ∧ (∀ p, p ∈ paths ↔ (m p).isSome) ∧
    fs.listFiles = .ok (paths.map m.listed)
  remount : mount fs.device = .ok fs

lemma Represents.observes (h : Represents fs dir m) : Observes fs m where
  read := fun _ _ hp => readFile_eq h hp
  list := listFiles_eq h
  remount := by
    rw [mount,if_pos h.formatted,← h.count]

lemma superblock_formatted (n : Nat) (hn : n < 2^64) (d : BlockDevice) (hd : d.sectorCount = n)
    (hs : d.sectors superblockSector = overlay (fun _ => 0) 0 (superblockBytes n)) : isFormatted d = true := by
  have hl : (superblockBytes n).length = 32 := by simp [superblockBytes,magic]
  have hf : ∀ (a w v : Nat) (front rest : List UInt8), superblockBytes n = front++(leBytes w v++rest) →
      front.length = a → v < 256^w → getLe (d.sectors superblockSector) a w = v := by
    intro a w v front rest he ha hv
    have hdr : (superblockBytes n).drop a = leBytes w v++rest := by rw [he,← ha,drop_left]
    have hle : a ≤ (superblockBytes n).length := by
      rw [he,length_append]
      omega
    have := getLe_overlay (s := fun _ => 0) 0 hdr hle hv
    rwa [← hs,Nat.zero_add] at this
  have hm : window (d.sectors superblockSector) 0 8 = magic := by
    rw [hs,show window (overlay (fun _ => 0) 0 (superblockBytes n)) 0 8 = _ from window_overlay (a := 0) (by omega)]
    simp [superblockBytes,magic]
  have h8 := hf 8 4 1 magic (leBytes 4 sectorSize++(leBytes 8 n++(leBytes 4 directorySector ++
    leBytes 4 maxDirectoryEntries))) (by simp [superblockBytes]) rfl (by decide)
  have h1 := hf 12 4 sectorSize (magic++leBytes 4 1) (leBytes 8 n++(leBytes 4 directorySector ++
    leBytes 4 maxDirectoryEntries)) (by simp [superblockBytes]) (by simp [magic]) (by decide)
  have h16 := hf 16 8 n (magic++leBytes 4 1++leBytes 4 sectorSize) (leBytes 4 directorySector ++
    leBytes 4 maxDirectoryEntries) (by simp [superblockBytes]) (by simp [magic]) hn
  have h2 := hf 24 4 directorySector (magic++leBytes 4 1++leBytes 4 sectorSize++leBytes 8 n)
    (leBytes 4 maxDirectoryEntries) (by simp [superblockBytes]) (by simp [magic]) (by decide)
  have h28 := hf 28 4 maxDirectoryEntries
    (magic++leBytes 4 1++leBytes 4 sectorSize++leBytes 8 n++leBytes 4 directorySector) []
    (by simp [superblockBytes]) (by simp [magic]) (by decide)
  simp [isFormatted,hm,h8,h1,h16,h2,h28,hd]

lemma format_represents (h : format d = .ok fs) : Represents fs (fun _ => .empty) (fun _ => none) := by
  unfold format at h
  split_ifs at h with hs
  cases h
  refine ⟨rfl,?_,fun i _ => ?_,?_,?_,?_,?_⟩
  · exact superblock_formatted d.sectorCount d.bound _ rfl rfl
  · rw [writeSector_sectors,if_pos rfl,decodeEntry,checkRecord,if_pos rfl]
  · exact fun i _ j _ ha => absurd ha empty_not_active
  · exact fun i _ j _ _ ha => absurd ha empty_not_active
  · exact fun i _ ha => absurd ha empty_not_active
  intro p e
  constructor
  · intro hm
    cases hm
  · rintro ⟨i,-,ha,-⟩
    exact absurd ha empty_not_active

/-- Along the calls, what is observed is the map that the successful ones make. -/
def Refines (fs : VantaFs) (m : Entries) : List FsOp → Prop
  | [] => Observes fs m
  | op::ops => Observes fs m ∧ ∃ m', (match (fs.step op).2 with
      | .ok _ => m.Step op m'
      | .error _ => m' = m) ∧ Refines (fs.step op).1 m' ops

def SafeRun (fs : VantaFs) : List FsOp → Prop
  | [] => True
  | op::ops => Safe fs op ∧ SafeRun (fs.step op).1 ops

lemma refines_of_represents {ops : List FsOp} (h : Represents fs dir m) (hs : SafeRun fs ops) : Refines fs m ops := by
  induction ops generalizing fs dir m with
  | nil => exact h.observes
  | cons op ops ih =>
    obtain ⟨ho,hr⟩ := hs
    obtain ⟨dir',m',hre,hst⟩ := step_refined h ho
    exact ⟨h.observes,m',hst,ih hre hr⟩

/-- A new filesystem and the calls made on it behave as the map from paths to entries. -/
theorem vantafs_refines_map {d : BlockDevice} (hf : format d = .ok fs) {ops : List FsOp}
    (hsafe : SafeRun fs ops) : Refines fs (fun _ => none) ops :=
  refines_of_represents (format_represents hf) hsafe

/-- Every directory entry can be read, and those in use have their own paths and their own sectors of the data area. -/
def LaidOut (fs : VantaFs) : Prop :=
  ∃ dir, fs.records = .ok ((range maxDirectoryEntries).map dir) ∧ ∀ i < maxDirectoryEntries, (dir i).Active →
    (dir i).Stored fs.sectorCount ∧ ∀ j < maxDirectoryEntries, i ≠ j → (dir j).Active →
      (dir i).key ≠ (dir j).key ∧ extentsApart (dir i) (dir j)

lemma Represents.laidOut (h : Represents fs dir m) : fs.LaidOut := by
  refine ⟨dir,h.records_eq,fun i hi ha => ⟨h.stored hi ha,fun j hj hne ha' => ?_⟩⟩
  exact ⟨fun hk => hne (h.unique i hi j hj ha ha' hk),h.apart i hi j hj hne ha ha'⟩

-- A file replaced by more bytes than its record can count is lost, but the directory stays as it was.
lemma writeFile_represents (h : Represents fs dir m) (path : Str) (data : List UInt8) :
    ∃ dir' m', Represents (fs.writeFile path data).1 dir' m' := by
  by_cases hlt : data.length < 2^32
  · obtain ⟨dir',m',h',-⟩ := writeFile_refined h path data (.inl hlt)
    exact ⟨dir',m',h'⟩
  unfold writeFile
  cases hp : normalizePath path with
  | error e => exact ⟨dir,m,h⟩
  | ok p =>
    obtain ⟨-,hle,-⟩ := normalizePath_ok hp
    dsimp only
    split_ifs with hb
    · exact ⟨dir,m,h⟩
    cases ht : fs.targetRecord p (requiredSectors data) with
    | error e => exact ⟨dir,m,h⟩
    | ok target =>
      obtain ⟨index,r⟩ := target
      obtain ⟨hme,-⟩ := (targetRecord_ok h (requiredSectors_spec data).1 hle ht).frame data
      dsimp only
      rw [writeRecord,if_neg hlt]
      exact ⟨dir,h.exists_remap (writeSectors_sectorCount _ _ _ _ _) hme⟩

lemma step_represents (h : Represents fs dir m) (op : FsOp) : ∃ dir' m', Represents (fs.step op).1 dir' m' := by
  by_cases hs : Safe fs op
  · obtain ⟨dir',m',h',-⟩ := step_refined h hs
    exact ⟨dir',m',h'⟩
  cases op with
  | writeFile path data => exact writeFile_represents h path data
  | createDir | removeFile | renameFile => exact absurd trivial hs

lemma laidOut_of_represents (h : Represents fs dir m) (ops : List FsOp) :
    (ops.foldl (fun fs op => (fs.step op).1) fs).LaidOut := by
  induction ops generalizing fs dir m with
  | nil => exact h.laidOut
  | cons op ops ih =>
    obtain ⟨dir',m',h'⟩ := step_represents h op
    exact ih h'

/-- No run of calls, failed ones included, makes two files share a sector or a path. -/
theorem files_never_overlap {d : BlockDevice} (hf : format d = .ok fs) (ops : List FsOp) :
    (ops.foldl (fun fs op => (fs.step op).1) fs).LaidOut :=
  laidOut_of_represents (format_represents hf) ops

def smallDevice : BlockDevice := ⟨16,fun _ _ => 0,by decide⟩

def pathA : Str := ⟨[slash,97],by decide⟩

def pathB : Str := ⟨[98],by decide⟩

theorem vantafs_refines_map_at_rename : ∃ fs, format smallDevice = .ok fs ∧
      SafeRun fs [.createDir pathB,.writeFile pathA [1,2,3],.removeFile pathB,.renameFile pathA pathB] ∧
      Refines fs (fun _ => none)
        [.createDir pathB,.writeFile pathA [1,2,3],.removeFile pathB,.renameFile pathA pathB] := by
  have hs : ∀ fs : VantaFs, SafeRun fs
      [.createDir pathB,.writeFile pathA [1,2,3],.removeFile pathB,.renameFile pathA pathB] :=
    fun fs => ⟨trivial,.inl (by decide),trivial,trivial,trivial⟩
  exact ⟨_,rfl,hs _,vantafs_refines_map (d := smallDevice) rfl (hs _)⟩

theorem files_never_overlap_two : ∃ fs, format smallDevice = .ok fs ∧
    ([.writeFile pathA [1,2,3],.writeFile pathB [4]].foldl (fun fs op => (fs.step op).1) fs).LaidOut :=
  ⟨_,rfl,files_never_overlap (d := smallDevice) rfl _⟩

def fullDevice : BlockDevice := ⟨8388610,fun _ _ => 0,by decide⟩

section
variable {data : List UInt8}

lemma requiredSectors_max (hl : 2^32-512 < data.length) (hh : data.length ≤ 2^32) : requiredSectors data = 8388608 := by
  simp only [requiredSectors,sectorSize]
  omega

lemma allocate_empty (h : Represents fs (fun _ => .empty) m)
    (hr : firstDataSector+sectors ≤ fs.sectorCount) : fs.allocate sectors none = .ok firstDataSector := by
  have ha : availableAt ((range maxDirectoryEntries).map (fun _ => FileRecord.empty)) none sectors
      firstDataSector = true := by
    simp only [availableAt,length_map,length_range,all_eq_true,mem_range]
    intro j hj
    have hg : ((range maxDirectoryEntries).map (fun _ => FileRecord.empty))[j]? = some .empty := by
      simp [hj]
    rw [hg]
    simp [FileRecord.empty]
  have hf : fs.sectorCount-sectors+1-firstDataSector = fs.sectorCount-sectors-firstDataSector+1 := by
    omega
  rw [allocate,h.records_eq]
  dsimp only
  rw [if_neg (by omega),hf,allocateFrom,if_pos ha,if_pos (by decide)]

lemma writeFile_empty (h : Represents fs (fun _ => .empty) (fun _ => none))
    (hp : normalizePath path = .ok p) (hl : data.length < 2^32)
    (hr : firstDataSector+requiredSectors data ≤ fs.sectorCount) :
    (fs.writeFile path data).2 = .ok () ∧ (fs.writeFile path data).1.sectorCount = fs.sectorCount := by
  have hf : fs.findRecord p = .ok none := by
    rw [findRecord,h.records_eq]
    rfl
  have hfr : fs.firstFreeIndex = .ok 0 := by
    rw [firstFreeIndex,h.records_eq]
    rfl
  have hre : requiredSectors data < 2^32 := by
    simp only [requiredSectors,sectorSize]
    omega
  simp only [writeFile,hp,targetRecord,hf,hfr,allocate_empty h hr]
  rw [if_neg (by omega),writeRecord,if_pos hl]
  exact ⟨rfl,rfl⟩

variable {old : List UInt8}

lemma targetRecord_full (h : Represents fs dir m) (hsc : fs.sectorCount = 8388610)
    (hm : m p = some (.file old)) (ho : old.length = 2^32-1) :
    ∃ i r, fs.findRecord p = .ok (some (i,r)) ∧ fs.targetRecord p 8388608 = .ok (i,r) ∧
      r.kind = .file ∧ r.startSector = 2 ∧ r.sectorCount = 8388608 ∧ r.length = 2^32-1 := by
  cases hf : findIn ((range maxDirectoryEntries).map dir) p with
  | none =>
    rw [h.findIn_none hf] at hm
    cases hm
  | some found =>
    obtain ⟨i,r⟩ := found
    have he := h.findIn_isSome hf
    obtain ⟨hi,rfl,ha,-⟩ := findIn_some hf
    have hs := h.stored hi ha
    have hfi : fs.findRecord p = .ok (some (i,dir i)) := by
      simp only [findRecord,h.records_eq,hf]
    rw [he,entryAt] at hm
    cases hk : (dir i).kind with
    | directory => simp [hk] at hm
    | file =>
      simp only [hk,Option.some.injEq,Entry.file.injEq] at hm
      have hl : (dir i).length = 2^32-1 := by rw [← ho,← hm,window_length]
      have hfit := hs.fits
      simp only [sectorSize,hl] at hfit
      have hex := hs.extent (by omega)
      simp only [firstDataSector,hsc] at hex
      have hc : (dir i).sectorCount = 8388608 := by omega
      refine ⟨i,dir i,hfi,?_,hk,by omega,hc,hl⟩
      simp [targetRecord,hfi,hk,hc]

lemma writeFile_full (h : Represents fs dir m) (hsc : fs.sectorCount = 8388610)
    (hp : normalizePath path = .ok p) (hm : m p = some (.file old))
    (ho : old.length = 2^32-1) (hd : data.length = 2^32) : (fs.writeFile path data).2 = .error .fileTooLarge ∧
      (fs.writeFile path data).1.readFile path = .ok (data.take (2^32-1)) := by
  obtain ⟨i,r,hf,ht,hk,hs,hc,hl⟩ := targetRecord_full h hsc hm ho
  have hre : requiredSectors data = 8388608 := requiredSectors_max (by omega) (by omega)
  have hr : fs.writeFile path data =
      (⟨writeSectors fs.device r.startSector data r.sectorCount 0,fs.sectorCount⟩,.error .fileTooLarge) := by
    simp only [writeFile,hp,hre,ht]
    rw [if_neg (by decide),writeRecord,if_neg (by simp only [hd]; decide)]
  have hf' : findRecord ⟨writeSectors fs.device r.startSector data r.sectorCount 0,fs.sectorCount⟩ p =
      .ok (some (i,r)) := by
    rw [← hf,findRecord,findRecord,records,records,writeSectors_sectors,
      if_neg (by simp [directorySector,hs])]
  have hfi : 2^32-1 ≤ r.sectorCount*sectorSize := by
    rw [hc]
    decide
  rw [hr]
  refine ⟨rfl,?_⟩
  simp only [readFile,hp,hf',hk,hl]
  rw [if_neg (by decide),readSectors_eq _ _ _ _ hfi,window_writeSectors _ _ _ (by omega) hfi]

lemma not_refines_full {ones twos : List UInt8} (ho : ones.length = 2^32-1)
    (ht : twos.length = 2^32) (hn : twos.take (2^32-1) ≠ ones) (hf : format fullDevice = .ok fs) :
    ¬Refines fs (fun _ => none) [.writeFile pathA ones,.writeFile pathA twos] := by
  have hs : fs.sectorCount = 8388610 := by
    have := hf
    rw [← Except.ok.inj this]
    rfl
  have hp : normalizePath pathA = .ok [97] := rfl
  have hrep := format_represents hf
  have hreq : requiredSectors ones = 8388608 := requiredSectors_max (by omega) (by omega)
  have hr : firstDataSector+requiredSectors ones ≤ fs.sectorCount := by
    rw [hreq,hs]
    decide
  obtain ⟨hok,hsc1⟩ := writeFile_empty hrep hp (by omega) hr
  obtain ⟨dir,m1,hr1,hs1⟩ := writeFile_refined hrep pathA ones (.inl (by omega))
  rintro ⟨-,m',hm',-,m'',hm'',hob⟩
  simp only [step,hok] at hs1 hm'
  obtain ⟨q,hq,-,rfl⟩ := hs1
  cases hp.symm.trans hq
  obtain ⟨q',hq',-,rfl⟩ := hm'
  cases hp.symm.trans hq'
  obtain ⟨he,hre⟩ := writeFile_full hr1 (hsc1.trans hs) hp (update_self _ _ _) ho ht
  simp only [step,he] at hm''
  have := hob.read pathA _ hp
  rw [hm'',update_self] at this
  exact hn (Except.ok.inj (hre.symm.trans this))

/-- A call that fails can change what is read: the file of ones reads as twos after an oversize write. -/
theorem vantafs_failed_write_changes_file : ∃ fs, format fullDevice = .ok fs ∧ ¬Refines fs (fun _ => none)
      [.writeFile pathA (List.replicate (2^32-1) 1),.writeFile pathA (List.replicate (2^32) 2)] := by
  refine ⟨_,rfl,not_refines_full length_replicate length_replicate ?_ rfl⟩
  intro h
  have hh := congrArg (fun l => l[0]?) h
  exact absurd (Option.some.inj hh) (by decide)

end
end VantaFs
end Vanta.Fs
