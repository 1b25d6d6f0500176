import Vanta.Fs.Resolve

namespace Vanta.Fs.DentryCache
open List
variable (d : DentryCache)

def invalidate (key : DentryKey) : DentryCache := {d with entries := d.entries.filter (·.1 ≠ key)}

def invalidateFs (fsId : Nat) : DentryCache :=
  {d with entries := d.entries.filter (·.1.1 ≠ fsId), keys := d.keys.filter (·.1 ≠ fsId)}

inductive Call where
  | insert (key : DentryKey) (value : DentryValue)
  | invalidate (key : DentryKey)
  | invalidateFs (fsId : Nat)

def call : Call → DentryCache
  | .insert key value => d.insert key value
  | .invalidate key => d.invalidate key
  | .invalidateFs fsId => d.invalidateFs fsId

/-- The cached keys, the one cached longest first. -/
def ageing (maxEntries : Nat) (keys : List DentryKey) : Call → List DentryKey
  | .insert key _ =>
    if key ∈ keys then keys else (if keys.length < maxEntries then keys else keys.tail)++[key]
  | .invalidate key => keys.erase key
  | .invalidateFs fsId => keys.filter (·.1 ≠ fsId)

/-- No call invalidates a cached key. -/
def Misses (d : DentryCache) : List Call → Prop
  | [] => True
  | c::calls => (∀ key, c = .invalidate key → d.lookup key = none) ∧ Misses (d.call c) calls

/-- The queue lists every cached key once. -/
structure Queued (d : DentryCache) : Prop where
  once : d.keys.Nodup
  cached : d.entries.map (·.1) ~ d.keys
  bound : d.keys.length ≤ d.maxEntries

variable {d : DentryCache} {key : DentryKey}

lemma lookup_isSome : (d.lookup key).isSome ↔ key ∈ d.entries.map (·.1) := by
  simp only [lookup,Option.isSome_map,find?_isSome,decide_eq_true_eq,mem_map]

lemma map_filter_ne (entries : List (DentryKey × DentryValue)) (key : DentryKey) :
    (entries.filter (·.1 ≠ key)).map (·.1) = (entries.map (·.1)).filter (· ≠ key) := by
  rw [filter_map]
  rfl

namespace Queued

section
variable (h : Queued d)
include h

lemma mem_keys : key ∈ d.keys ↔ (d.lookup key).isSome := by
  rw [lookup_isSome,h.cached.mem_iff]

lemma length_eq : d.entries.length = d.keys.length := by
  rw [← h.cached.length_eq,length_map]

lemma replaced (value : DentryValue) (hk : (d.lookup key).isSome) : Queued (d.insert key value) := by
  have hm := h.mem_keys.2 hk
  rw [insert,if_pos hk]
  refine ⟨h.once,?_,h.bound⟩
  rw [map_cons,map_filter_ne]
  calc key::(d.entries.map (·.1)).filter (· ≠ key)
    _ ~ key::d.keys.filter (· ≠ key) := (h.cached.filter _).cons key
    _ = key::d.keys.erase key := by
      rw [h.once.erase_eq_filter]
      exact congrArg (key::·) (filter_congr fun x _ => Bool.eq_iff_iff.2 (by simp))
    _ ~ d.keys := (perm_cons_erase hm).symm

lemma evict_spec (hp : 0 < d.maxEntries) : let kept := evict d.maxEntries d.keys d.entries
    kept.1 = (if d.keys.length < d.maxEntries then d.keys else d.keys.tail) ∧ kept.2.map (·.1) ~ kept.1 := by
  obtain ⟨entries,keys,maxEntries⟩ := d
  have hle := h.length_eq
  have hb := h.bound
  have hc := h.cached
  have hn := h.once
  simp only at hle hb hc hn hp ⊢
  cases keys with
  | nil => simpa [evict,hp] using hc
  | cons k ks =>
    obtain ⟨hk,_⟩ := nodup_cons.1 hn
    have hf : (entries.filter (·.1 ≠ k)).map (·.1) ~ ks := by
      have hks : (k::ks).filter (· ≠ k) = ks := by
        rw [filter_cons_of_neg (by simp)]
        exact filter_eq_self.2 fun x hx => by simpa using ne_of_mem_of_not_mem hx hk
      rw [map_filter_ne,← hks]
      exact hc.filter _
    have hl := hf.length_eq
    rw [length_map] at hl
    rw [evict,hle]
    by_cases hfu : (k::ks).length < maxEntries
    · rw [if_neg (by omega),if_pos hfu]
      exact ⟨rfl,hc⟩
    · rw [if_pos (by omega),if_neg hfu,tail_cons]
      have hs : evict maxEntries ks (entries.filter (·.1 ≠ k)) = (ks,entries.filter (·.1 ≠ k)) := by
        rw [length_cons] at hb
        cases ks with
        | nil => rfl
        | cons k' ks =>
          rw [evict,if_neg]
          omega
      rw [hs]
      exact ⟨rfl,hf⟩

lemma call_step (hp : 0 < d.maxEntries) {c : Call} (hmi : ∀ key, c = .invalidate key → d.lookup key = none) :
    Queued (d.call c) ∧ (d.call c).keys = ageing d.maxEntries d.keys c ∧ (d.call c).maxEntries = d.maxEntries := by
  cases c with
  | insert key value =>
    simp only [call,ageing]
    by_cases hk : (d.lookup key).isSome
    · rw [if_pos (h.mem_keys.2 hk)]
      refine ⟨h.replaced value hk,?_⟩
      simp [DentryCache.insert,hk]
    · have hm := mt h.mem_keys.1 hk
      obtain ⟨hke,hkep⟩ := h.evict_spec hp
      rw [if_neg hm,DentryCache.insert,if_neg hk]
      simp only
      have hl := h.bound
      have hs : (if d.keys.length < d.maxEntries then d.keys else d.keys.tail) <+ d.keys := by
        split
        · exact .refl _
        · exact tail_sublist _
      rw [hke] at hkep ⊢
      refine ⟨⟨?_,?_,?_⟩,rfl,trivial⟩
      · exact nodup_append.2 ⟨h.once.sublist hs,by simp,fun x hx y hy heq => hm (mem_singleton.1 hy ▸ heq ▸ hs.subset hx)⟩
      · exact (hkep.cons key).trans (perm_append_singleton key _).symm
      · simp only [length_append,length_singleton]
        split
        · omega
        · rw [length_tail]
          omega
  | invalidate key =>
    have hk : key ∉ d.entries.map (·.1) := by simpa [← lookup_isSome] using hmi key rfl
    have he : d.entries.filter (·.1 ≠ key) = d.entries := by
      refine filter_eq_self.2 fun e he => ?_
      simpa using fun heq => hk (mem_map.2 ⟨e,he,heq⟩)
    have hs : d.call (.invalidate key) = d := by rw [call,DentryCache.invalidate,he]
    have hke : key ∉ d.keys := fun hm => hk (h.cached.mem_iff.2 hm)
    rw [hs,ageing,erase_of_not_mem hke]
    exact ⟨h,rfl,rfl⟩
  | invalidateFs fsId =>
    refine ⟨⟨h.once.filter _,?_,Nat.le_trans (length_filter_le _ _) h.bound⟩,rfl,rfl⟩
    have hf := h.cached.filter (·.1 ≠ fsId)
    rw [filter_map] at hf
    exact hf

lemma run (hp : 0 < d.maxEntries) {calls : List Call} (hm : Misses d calls) :
    Queued (calls.foldl call d) ∧ (calls.foldl call d).keys = calls.foldl (ageing d.maxEntries) d.keys ∧
      (calls.foldl call d).maxEntries = d.maxEntries := by
  induction calls generalizing d with
  | nil => exact ⟨h,rfl,rfl⟩
  | cons c calls ih =>
    obtain ⟨hc,hm⟩ := hm
    obtain ⟨h,hk,hma⟩ := h.call_step hp hc
    have hr := ih h (by rwa [hma]) hm
    rwa [hk,hma] at hr

end
end Queued

theorem cache_queue_bounded {maxEntries : Nat} (hp : 0 < maxEntries) (calls : List Call)
    (hm : Misses ⟨[],[],maxEntries⟩ calls) :
    let d := calls.foldl call ⟨[],[],maxEntries⟩
    d.entries.length ≤ maxEntries ∧ d.keys.length ≤ maxEntries ∧ d.keys.Nodup ∧
      (∀ key, key ∈ d.keys ↔ (d.lookup key).isSome) ∧ d.keys = calls.foldl (ageing maxEntries) [] := by
  have hq : Queued ⟨[],[],maxEntries⟩ := ⟨nodup_nil,.refl _,Nat.zero_le _⟩
  obtain ⟨h,hk,hma⟩ := hq.run hp hm
  have hb := h.bound
  rw [hma] at hb
  exact ⟨h.length_eq ▸ hb,hb,h.once,fun _ => h.mem_keys,hk⟩

theorem cache_queue_bounded_miss :
    ([.insert (1,2,['a']) ⟨3,0⟩,.insert (1,2,['b']) ⟨4,0⟩,.insert (1,2,['c']) ⟨5,0⟩,.invalidate (1,2,['a'])].foldl call
      ⟨[],[],2⟩).keys = [(1,2,['b']),(1,2,['c'])] :=
  (cache_queue_bounded Nat.two_pos [.insert (1,2,['a']) ⟨3,0⟩,.insert (1,2,['b']) ⟨4,0⟩,.insert (1,2,['c']) ⟨5,0⟩,
    .invalidate (1,2,['a'])] ⟨by simp,by simp,by simp,fun key hk => (Call.invalidate.inj hk) ▸ (by decide +kernel),trivial⟩).2.2.2.2

/-- An invalidated key stays queued; cached again, it is queued twice and evicted for its first place. -/
theorem invalidated_key_queued :
    let d := [.insert (1,2,['a']) ⟨3,0⟩,.invalidate (1,2,['a']),.insert (1,2,['b']) ⟨4,0⟩,.insert (1,2,['a']) ⟨3,0⟩].foldl
      call ⟨[],[],2⟩
    d.keys = [(1,2,['a']),(1,2,['b']),(1,2,['a'])] ∧
      (d.insert (1,2,['c']) ⟨5,0⟩).entries.map (·.1) = [(1,2,['c']),(1,2,['b'])] := by
  decide +kernel

end Vanta.Fs.DentryCache
