import Mathlib.Data.List.Induction
import Mathlib.Data.List.Nodup

/-! Dictionaries with their insertion order. Setting a present key keeps its place. -/
structure OrderedDict (κ ν : Type) where
  entries : List (κ × ν)
  distinct : (entries.map Prod.fst).Nodup

namespace OrderedDict

variable {κ ν : Type} [DecidableEq κ]

def empty : OrderedDict κ ν := ⟨[],List.nodup_nil⟩

def keys (d : OrderedDict κ ν) : List κ := d.entries.map Prod.fst

def get? (d : OrderedDict κ ν) (k : κ) : Option ν :=
  (d.entries.find? (fun entry => entry.1 = k)).map Prod.snd

def getD (d : OrderedDict κ ν) (k : κ) (default : ν) : ν := (d.get? k).getD default

def set (d : OrderedDict κ ν) (k : κ) (v : ν) : OrderedDict κ ν where
  entries := if k ∈ d.keys then d.entries.map (fun entry => if entry.1 = k then (k,v) else entry)
    else d.entries ++ [(k,v)]
  distinct := by
    have distinct := d.distinct
    split
    · have same : (d.entries.map (fun entry => if entry.1 = k then (k,v) else entry)).map Prod.fst =
          d.entries.map Prod.fst := by
        rw [List.map_map]
        refine List.map_congr_left (fun entry _ => ?_)
        simp only [Function.comp_apply]
        split
        · simp [*]
        · rfl
      rwa [same]
    · rename_i fresh
      rw [List.map_append,List.nodup_append]
      refine ⟨distinct,List.nodup_singleton _,?_⟩
      rintro a member b last rfl
      obtain rfl := List.mem_singleton.mp last
      exact fresh member

/-- The same keys with values computed from the old ones. -/
def mapWithKey {ω : Type} (f : κ → ν → ω) (d : OrderedDict κ ν) : OrderedDict κ ω where
  entries := d.entries.map (fun entry => (entry.1,f entry.1 entry.2))
  distinct := by
    rw [List.map_map]
    exact d.distinct

/-- The same keys, with values that may fail to be computed. -/
def mapValuesM {ε ω : Type} (f : κ → ν → Except ε ω) (d : OrderedDict κ ν) : Except ε (OrderedDict κ ω) :=
  d.entries.foldlM (fun acc entry => acc.set entry.1 <$> f entry.1 entry.2) .empty

def pop (d : OrderedDict κ ν) (k : κ) : OrderedDict κ ν where
  entries := d.entries.filter (fun entry => entry.1 ≠ k)
  distinct := d.distinct.sublist ((List.filter_sublist).map Prod.fst)

theorem mem_entries (d : OrderedDict κ ν) (k : κ) (v : ν) :
    (k,v) ∈ d.entries ↔ d.get? k = some v := by
  constructor
  · intro member
    cases search : d.entries.find? (fun entry => entry.1 = k) with
    | none =>
      have missing := List.find?_eq_none.mp search (k,v) member
      simp at missing
    | some entry =>
      have named : entry.1 = k := by simpa using List.find?_some search
      have same := List.inj_on_of_nodup_map d.distinct (List.mem_of_find?_eq_some search) member named
      rw [get?,search,same]
      rfl
  · intro found
    obtain ⟨⟨j,w⟩,search,rfl⟩ := Option.map_eq_some_iff.mp found
    have named : j = k := by simpa using List.find?_some search
    exact named ▸ List.mem_of_find?_eq_some search

theorem mem_keys (d : OrderedDict κ ν) (k : κ) : k ∈ d.keys ↔ (d.get? k).isSome = true := by
  rw [Option.isSome_iff_exists,keys,List.mem_map]
  constructor
  · rintro ⟨⟨j,v⟩,member,rfl⟩
    exact ⟨v,(d.mem_entries j v).mp member⟩
  · rintro ⟨v,found⟩
    exact ⟨(k,v),(d.mem_entries k v).mpr found,rfl⟩

theorem entries_set_fresh (d : OrderedDict κ ν) (k : κ) (v : ν) (fresh : k ∉ d.keys) :
    (d.set k v).entries = d.entries ++ [(k,v)] := if_neg fresh

theorem ext_get? (d : OrderedDict κ ν) (k : κ) (found : Option ν)
    (agree : ∀ v, (k,v) ∈ d.entries ↔ found = some v) : d.get? k = found := by
  cases found with
  | some v => exact (d.mem_entries k v).mp ((agree v).mpr rfl)
  | none =>
    cases given : d.get? k with
    | none => rfl
    | some v => cases (agree v).mp ((d.mem_entries k v).mpr given)

@[simp] theorem get?_set_same (d : OrderedDict κ ν) (k : κ) (v : ν) : (d.set k v).get? k = some v := by
  rw [← mem_entries]
  simp only [set]
  split
  · rename_i present
    obtain ⟨entry,member,rfl⟩ := List.mem_map.mp present
    exact List.mem_map.mpr ⟨entry,member,by simp⟩
  · simp

@[simp] theorem get?_set_other (d : OrderedDict κ ν) (j k : κ) (v : ν) (h : j ≠ k) :
    (d.set k v).get? j = d.get? j := by
  refine ext_get? _ j _ (fun w => ?_)
  rw [← mem_entries]
  simp only [set]
  split
  · constructor
    · intro member
      obtain ⟨entry,inside,same⟩ := List.mem_map.mp member
      split at same
      · exact absurd (congrArg Prod.fst same).symm h
      · exact same ▸ inside
    · intro member
      exact List.mem_map.mpr ⟨(j,w),member,by simp [h]⟩
  · simp [h]

theorem keys_set (d : OrderedDict κ ν) (k : κ) (v : ν) (present : k ∈ d.keys) : (d.set k v).keys = d.keys := by
  have entries : (d.set k v).entries = d.entries.map (fun entry => if entry.1 = k then (k,v) else entry) :=
    if_pos present
  rw [keys,keys,entries,List.map_map]
  refine List.map_congr_left (fun entry _ => ?_)
  rw [Function.comp_apply]
  split
  · exact Eq.symm ‹_›
  · rfl

@[simp] theorem get?_pop_same (d : OrderedDict κ ν) (k : κ) : (d.pop k).get? k = none :=
  ext_get? _ k _ (fun w => by simp [pop])

@[simp] theorem get?_pop_other (d : OrderedDict κ ν) (j k : κ) (h : j ≠ k) :
    (d.pop k).get? j = d.get? j := by
  refine ext_get? _ j _ (fun w => ?_)
  rw [← mem_entries]
  simp [pop,h]

@[simp] theorem get?_empty (k : κ) : (empty : OrderedDict κ ν).get? k = none := rfl

omit [DecidableEq κ] in
@[simp] theorem keys_mapWithKey {ω : Type} (f : κ → ν → ω) (d : OrderedDict κ ν) :
    (d.mapWithKey f).keys = d.keys := by
  rw [keys,keys,mapWithKey,List.map_map]
  rfl

theorem get?_mapWithKey {ω : Type} (f : κ → ν → ω) (d : OrderedDict κ ν) (k : κ) :
    (d.mapWithKey f).get? k = (d.get? k).map (f k) := by
  apply ext_get?
  intro w
  simp only [mapWithKey,List.mem_map,Prod.mk.injEq,Option.map_eq_some_iff,← d.mem_entries,Prod.exists]
  constructor
  · rintro ⟨j,v,member,rfl,rfl⟩
    exact ⟨v,member,rfl⟩
  · rintro ⟨v,member,rfl⟩
    exact ⟨k,v,member,rfl,rfl⟩

theorem getD_of_mem (d : OrderedDict κ ν) (entry : κ × ν) (member : entry ∈ d.entries) (default : ν) :
    d.getD entry.1 default = entry.2 := by
  rw [getD,(d.mem_entries entry.1 entry.2).mp member]
  rfl

/-- A dictionary is its keys with what they read. -/
theorem entries_eq_keys (d : OrderedDict κ ν) (default : ν) :
    d.entries = d.keys.map (fun k => (k,d.getD k default)) := by
  rw [keys,List.map_map]
  symm
  refine (List.map_congr_left fun entry member => ?_).trans (List.map_id _)
  exact congrArg (entry.1,·) (d.getD_of_mem entry member default)

theorem foldlM_set_get? {ε ω : Type} (f : κ → ν → Except ε ω) (entries : List (κ × ν)) (acc : OrderedDict κ ω)
    (distinct : (entries.map Prod.fst).Nodup) (total : ∀ entry ∈ entries, ∃ w, f entry.1 entry.2 = .ok w) :
    ∃ d, entries.foldlM (fun acc entry => acc.set entry.1 <$> f entry.1 entry.2) acc = .ok d ∧
      ∀ k, d.get? k = (entries.find? (fun entry => entry.1 = k)).elim (acc.get? k)
        (fun entry => (f entry.1 entry.2).toOption) := by
  induction entries generalizing acc with
  | nil => exact ⟨acc,rfl,fun _ => rfl⟩
  | cons entry entries ih =>
    obtain ⟨fresh,rest⟩ := List.nodup_cons.mp distinct
    obtain ⟨w,made⟩ := total entry List.mem_cons_self
    obtain ⟨d,run,read⟩ := ih (acc.set entry.1 w) rest (fun e later => total e (List.mem_cons_of_mem entry later))
    refine ⟨d,?_,fun k => ?_⟩
    · rw [List.foldlM_cons,made]
      exact run
    · rw [read k]
      by_cases here : entry.1 = k
      · subst here
        have absent : entries.find? (fun e => e.1 = entry.1) = none := by
          refine List.find?_eq_none.mpr (fun e later => ?_)
          simp only [decide_eq_true_eq]
          intro same
          exact fresh (same ▸ List.mem_map_of_mem later)
        rw [absent,List.find?_cons_of_pos (by simp),get?_set_same,Option.elim_none,Option.elim_some,made]
        rfl
      · rw [List.find?_cons_of_neg (by simpa using here),get?_set_other _ _ _ _ (Ne.symm here)]

/-- Every key reads what its own value was turned into. -/
theorem mapValuesM_get? {ε ω : Type} (f : κ → ν → Except ε ω) (d : OrderedDict κ ν)
    (total : ∀ k v, d.get? k = some v → ∃ w, f k v = .ok w) :
    ∃ d', d.mapValuesM f = .ok d' ∧ ∀ k, d'.get? k = (d.get? k).bind (fun v => (f k v).toOption) := by
  obtain ⟨d',run,read⟩ := foldlM_set_get? f d.entries .empty d.distinct
    (fun entry member => total entry.1 entry.2 ((d.mem_entries entry.1 entry.2).mp member))
  refine ⟨d',run,fun k => ?_⟩
  rw [read k]
  cases found : d.entries.find? (fun entry => entry.1 = k) with
  | none =>
    have absent : d.get? k = none := by rw [get?,found,Option.map_none]
    rw [absent]
    rfl
  | some entry =>
    have key : entry.1 = k := by simpa using List.find?_some found
    simp [get?,found,key]

theorem foldlM_set_eq_ok_iff {ε ω : Type} (f : κ → ν → Except ε ω) (entries : List (κ × ν)) (acc d : OrderedDict κ ω)
    (distinct : (entries.map Prod.fst).Nodup) (fresh : ∀ entry ∈ entries, entry.1 ∉ acc.keys) :
    entries.foldlM (fun acc entry => acc.set entry.1 <$> f entry.1 entry.2) acc = .ok d ↔
      ∃ made, d.entries = acc.entries ++ made ∧
        List.Forall₂ (fun entry new => entry.1 = new.1 ∧ f entry.1 entry.2 = .ok new.2) entries made := by
  induction entries generalizing acc with
  | nil =>
    constructor
    · intro run
      obtain rfl : acc = d := Except.ok.inj run
      exact ⟨[],(List.append_nil _).symm,.nil⟩
    · rintro ⟨made,same,paired⟩
      obtain rfl := List.forall₂_nil_left_iff.mp paired
      rw [List.append_nil] at same
      cases acc
      cases d
      cases same
      rfl
  | cons entry entries ih =>
    obtain ⟨new,rest⟩ := List.nodup_cons.mp distinct
    have absent := fresh entry List.mem_cons_self
    rw [List.foldlM_cons]
    cases value : f entry.1 entry.2 with
    | error e =>
      constructor
      · intro run
        cases run
      · rintro ⟨made,_,paired⟩
        obtain ⟨first,_,head,_,_⟩ := List.forall₂_cons_left_iff.mp paired
        rw [value] at head
        cases head.2
    | ok w =>
      have next := ih (acc.set entry.1 w) rest (by
        intro later member
        rw [keys,entries_set_fresh acc _ _ absent,List.map_append,List.mem_append,not_or]
        refine ⟨fresh later (List.mem_cons_of_mem entry member),fun same => ?_⟩
        have key : later.1 = entry.1 := List.mem_singleton.mp same
        exact new (key ▸ List.mem_map_of_mem member))
      refine next.trans ?_
      rw [entries_set_fresh acc _ _ absent]
      constructor
      · rintro ⟨made,same,paired⟩
        exact ⟨(entry.1,w) :: made,by rw [same,List.append_assoc]; rfl,.cons ⟨rfl,value⟩ paired⟩
      · rintro ⟨made,same,paired⟩
        obtain ⟨first,others,head,tail,rfl⟩ := List.forall₂_cons_left_iff.mp paired
        obtain ⟨key,found⟩ := head
        rw [value] at found
        obtain rfl := Except.ok.inj found
        refine ⟨others,?_,tail⟩
        rw [same,List.append_assoc,key]
        rfl

/-- The result has the same keys in the same places, each with what its value was turned into. -/
theorem mapValuesM_eq_ok_iff {ε ω : Type} (f : κ → ν → Except ε ω) (d : OrderedDict κ ν) (d' : OrderedDict κ ω) :
    d.mapValuesM f = .ok d' ↔
      List.Forall₂ (fun entry new => entry.1 = new.1 ∧ f entry.1 entry.2 = .ok new.2) d.entries d'.entries := by
  rw [mapValuesM,foldlM_set_eq_ok_iff f d.entries .empty d' d.distinct (fun _ _ => by simp [keys,empty])]
  simp [empty]

theorem mapValuesM_ok {ε ω : Type} (f : κ → ν → Except ε ω) (g : κ → ν → ω) (d : OrderedDict κ ν)
    (each : ∀ k v, d.get? k = some v → f k v = .ok (g k v)) : d.mapValuesM f = .ok (d.mapWithKey g) := by
  rw [mapValuesM_eq_ok_iff]
  refine List.forall₂_map_right_iff.mpr (List.forall₂_same.mpr (fun entry member => ⟨rfl,?_⟩))
  exact each entry.1 entry.2 ((d.mem_entries entry.1 entry.2).mp member)

/-- A traversal succeeds when every value can be turned. -/
theorem mapValuesM_total_iff {ε ω : Type} (f : κ → ν → Except ε ω) (d : OrderedDict κ ν) :
    (∃ d', d.mapValuesM f = .ok d') ↔ ∀ k v, d.get? k = some v → ∃ w, f k v = .ok w := by
  constructor
  · rintro ⟨d',run⟩ k v found
    have paired := (mapValuesM_eq_ok_iff f d d').mp run
    obtain ⟨place,here,bound⟩ := List.mem_iff_getElem.mp ((d.mem_entries k v).mpr found)
    have there : place < d'.entries.length := paired.length_eq ▸ here
    have value := ((List.forall₂_iff_get.mp paired).2 place here there).2
    have entry : d.entries[place] = (k,v) := bound
    simp only [List.get_eq_getElem,entry] at value
    exact ⟨_,value⟩
  · intro each
    obtain ⟨d',run,_⟩ := mapValuesM_get? f d each
    exact ⟨d',run⟩

theorem mapValuesM_made {ε ω : Type} (f : κ → ν → Except ε ω) (d : OrderedDict κ ν) (d' : OrderedDict κ ω)
    (made : d.mapValuesM f = .ok d') (k : κ) (v : ν) (found : d.get? k = some v) :
    ∃ w, f k v = .ok w ∧ d'.get? k = some w := by
  have total := (mapValuesM_total_iff f d).mp ⟨d',made⟩
  obtain ⟨_,run,reads⟩ := mapValuesM_get? f d total
  obtain rfl := Except.ok.inj (made.symm.trans run)
  obtain ⟨w,value⟩ := total k v found
  refine ⟨w,value,?_⟩
  rw [reads k,found,Option.bind_some,value]
  rfl

/-- The result reads as expected when each value is turned into the value expected of its key. -/
theorem mapValuesM_reads {ε ω : Type} (f : κ → ν → Except ε ω) (d : OrderedDict κ ν) (expected : κ → Option ω)
    (same : ∀ k, (expected k).isSome = (d.get? k).isSome) :
    (∃ d', d.mapValuesM f = .ok d' ∧ ∀ k, d'.get? k = expected k) ↔
      ∀ k v, d.get? k = some v → ∃ w, expected k = some w ∧ f k v = .ok w := by
  constructor
  · rintro ⟨d',run,reads⟩ k v found
    have paired := (mapValuesM_eq_ok_iff f d d').mp run
    obtain ⟨place,here,bound⟩ := List.mem_iff_getElem.mp ((d.mem_entries k v).mpr found)
    have there : place < d'.entries.length := paired.length_eq ▸ here
    obtain ⟨key,value⟩ := (List.forall₂_iff_get.mp paired).2 place here there
    have entry : d.entries[place] = (k,v) := bound
    simp only [List.get_eq_getElem,entry] at key value
    have named : (k,d'.entries[place].2) ∈ d'.entries := by
      rw [key]
      exact List.getElem_mem there
    exact ⟨_,(reads k).symm.trans ((d'.mem_entries k _).mp named),value⟩
  · intro each
    obtain ⟨d',run,reads⟩ := mapValuesM_get? f d (fun k v found => by
      obtain ⟨w,_,made⟩ := each k v found
      exact ⟨w,made⟩)
    refine ⟨d',run,fun k => ?_⟩
    rw [reads k]
    cases found : d.get? k with
    | none =>
      have absent := same k
      rw [found] at absent
      exact (Option.isSome_eq_false_iff.mp absent |> Option.isNone_iff_eq_none.mp).symm
    | some v =>
      obtain ⟨w,named,made⟩ := each k v found
      rw [named,Option.bind_some,made]
      rfl

theorem foldl_set_get? (ks : List κ) (v : ν) (d : OrderedDict κ ν) (j : κ) :
    (ks.foldl (fun d k => d.set k v) d).get? j = if j ∈ ks then some v else d.get? j := by
  induction ks using List.reverseRecOn with
  | nil => simp
  | append_singleton ks k ih =>
    rw [List.foldl_append,List.foldl_cons,List.foldl_nil]
    by_cases same : j = k
    · simp [same]
    · rw [get?_set_other _ _ _ _ same,ih]
      exact if_congr (by simp [same]) rfl rfl

omit [DecidableEq κ] in
theorem ext_entries {d d' : OrderedDict κ ν} (same : d.entries = d'.entries) : d = d' := by
  cases d
  cases d'
  cases same
  rfl

/-- Setting fresh distinct keys appends. -/
theorem entries_foldl_set (pairs : List (κ × ν)) (acc : OrderedDict κ ν) (distinct : (pairs.map Prod.fst).Nodup)
    (fresh : ∀ pair ∈ pairs, pair.1 ∉ acc.keys) :
    (pairs.foldl (fun d pair => d.set pair.1 pair.2) acc).entries = acc.entries ++ pairs := by
  induction pairs generalizing acc with
  | nil => rw [List.foldl_nil,List.append_nil]
  | cons pair pairs ih =>
    rw [List.map_cons,List.nodup_cons] at distinct
    have step := entries_set_fresh acc pair.1 pair.2 (fresh pair List.mem_cons_self)
    rw [List.foldl_cons,ih _ distinct.2,step,List.append_assoc]
    · rfl
    · intro other member known
      rw [keys,step,List.map_append,List.mem_append] at known
      rcases known with old | same
      · exact fresh other (List.mem_cons_of_mem pair member) old
      · have named : other.1 = pair.1 := by simpa using same
        exact distinct.1 (named ▸ List.mem_map_of_mem member)

/-- Every entry was set. -/
theorem mem_foldl_set (pairs : List (κ × ν)) (acc : OrderedDict κ ν) (entry : κ × ν)
    (member : entry ∈ (pairs.foldl (fun d pair => d.set pair.1 pair.2) acc).entries) :
    entry ∈ acc.entries ∨ entry ∈ pairs := by
  induction pairs generalizing acc with
  | nil => exact .inl member
  | cons pair pairs ih =>
    rcases ih _ member with old | later
    · simp only [set] at old
      split at old
      · obtain ⟨before,inside,same⟩ := List.mem_map.mp old
        split at same
        · exact .inr (same ▸ List.mem_cons_self)
        · exact .inl (same ▸ inside)
      · rcases List.mem_append.mp old with before | last
        · exact .inl before
        · obtain rfl := List.mem_singleton.mp last
          exact .inr List.mem_cons_self
    · exact .inr (List.mem_cons_of_mem pair later)

end OrderedDict
