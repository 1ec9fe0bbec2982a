import RelayOpd.OrderedDict
import RelayOpd.LocalLoop
import Mathlib.Data.List.FinRange
import Mathlib.Data.Fintype.Basic
import Mathlib.Algebra.Group.Equiv.Basic

/-! Rows collected by key in a dictionary of lists, and what of it does not depend on the
order of the rows. -/
namespace GroupBy

variable {n : Nat} {κ α β : Type} [DecidableEq κ]

/-- `d[k].append(v)` on a `defaultdict(list)`. -/
def append (d : OrderedDict κ (List α)) (k : κ) (v : α) : OrderedDict κ (List α) :=
  d.set k (d.getD k [] ++ [v])

def groupBy (index : Fin n → κ) (value : Fin n → α) : OrderedDict κ (List α) :=
  (List.finRange n).foldl (fun d i => append d (index i) (value i)) .empty

/-- Some of the rows by key. -/
def groupRows (rows : List (Fin n)) (index : Fin n → κ) (value : Fin n → α) : OrderedDict κ (List α) :=
  rows.foldl (fun d i => append d (index i) (value i)) .empty

/-- The rows of a key, in order. -/
def members (index : Fin n → κ) (k : κ) : List (Fin n) := (List.finRange n).filter (fun i => index i = k)

/-- The dictionary after some rows. -/
theorem foldl_append_getD (index : Fin n → κ) (value : Fin n → α) (rows : List (Fin n)) (k : κ) :
    (rows.foldl (fun d i => append d (index i) (value i)) .empty).getD k [] =
      (rows.filter (fun i => index i = k)).map value := by
  induction rows using List.reverseRecOn with
  | nil => rfl
  | append_singleton rows i ih =>
    rw [List.foldl_append,List.foldl_cons,List.foldl_nil,List.filter_append,List.map_append,← ih,append,
      OrderedDict.getD]
    by_cases same : k = index i
    · subst same
      simp
    · rw [OrderedDict.get?_set_other _ _ _ _ same]
      simp [OrderedDict.getD,Ne.symm same]

theorem groupBy_getD (index : Fin n → κ) (value : Fin n → α) (k : κ) :
    (groupBy index value).getD k [] = (members index k).map value := foldl_append_getD index value _ k

theorem foldl_append_keys (index : Fin n → κ) (value : Fin n → α) (rows : List (Fin n)) (k : κ) :
    k ∈ (rows.foldl (fun d i => append d (index i) (value i)) .empty).keys ↔ ∃ i ∈ rows, index i = k := by
  induction rows using List.reverseRecOn with
  | nil => simp [OrderedDict.keys,OrderedDict.empty]
  | append_singleton rows i ih =>
    rw [List.foldl_append,List.foldl_cons,List.foldl_nil,append,OrderedDict.mem_keys]
    by_cases same : k = index i
    · subst same
      simp
    · rw [OrderedDict.get?_set_other _ _ _ _ same,← OrderedDict.mem_keys,ih]
      simp only [List.mem_append,List.mem_singleton]
      constructor
      · rintro ⟨j,member,equal⟩
        exact ⟨j,.inl member,equal⟩
      · rintro ⟨j,member | rfl,equal⟩
        · exact ⟨j,member,equal⟩
        · exact absurd equal.symm same

/-- The entries are the keys of the rows with the values of their rows. -/
theorem groupRows_entries (rows : List (Fin n)) (index : Fin n → κ) (value : Fin n → α) (entry : κ × List α)
    (member : entry ∈ (groupRows rows index value).entries) :
    (∃ i ∈ rows, index i = entry.1) ∧ entry.2 = (rows.filter (fun i => index i = entry.1)).map value := by
  constructor
  · exact (foldl_append_keys index value rows entry.1).mp (List.mem_map_of_mem member)
  · have found := ((groupRows rows index value).mem_entries entry.1 entry.2).mp member
    have read := foldl_append_getD index value rows entry.1
    rw [OrderedDict.getD] at read
    exact (Option.getD_eq_iff.mpr (.inl found)).symm.trans read

theorem groupRows_entry (rows : List (Fin n)) (index : Fin n → κ) (value : Fin n → α) (i : Fin n) (member : i ∈ rows) :
    (index i,(rows.filter (fun j => index j = index i)).map value) ∈ (groupRows rows index value).entries := by
  obtain ⟨entry,listed,same⟩ := List.mem_map.mp ((foldl_append_keys index value rows (index i)).mpr ⟨i,member,rfl⟩)
  have held := (groupRows_entries rows index value entry listed).2
  rw [← same,← held]
  exact listed

/-- The entries are the keys of the rows with the values of their members. -/
theorem groupBy_entries (index : Fin n → κ) (value : Fin n → α) (entry : κ × List α)
    (member : entry ∈ (groupBy index value).entries) :
    (∃ i, index i = entry.1) ∧ entry.2 = (members index entry.1).map value := by
  obtain ⟨⟨i,_,same⟩,values⟩ := groupRows_entries (List.finRange n) index value entry member
  exact ⟨⟨i,same⟩,values⟩

theorem groupBy_entry (index : Fin n → κ) (value : Fin n → α) (i : Fin n) :
    (index i,(members index (index i)).map value) ∈ (groupBy index value).entries :=
  groupRows_entry (List.finRange n) index value i (List.mem_finRange i)

@[simp] theorem mem_members (index : Fin n → κ) (k : κ) (i : Fin n) : i ∈ members index k ↔ index i = k := by
  simp [members]

theorem members_nodup (index : Fin n → κ) (k : κ) : (members index k).Nodup :=
  (List.nodup_finRange n).filter _

theorem members_ne_nil (index : Fin n → κ) (i : Fin n) : members index (index i) ≠ [] :=
  List.ne_nil_of_mem ((mem_members index (index i) i).mpr rfl)

/-- A list without repetitions has one entry when every entry is that one. -/
theorem length_one_iff {l : List α} {x : α} (distinct : l.Nodup) (member : x ∈ l) : l.length = 1 ↔ ∀ y ∈ l, y = x := by
  constructor
  · intro one y listed
    obtain ⟨z,only⟩ := List.length_eq_one_iff.mp one
    rw [only,List.mem_singleton] at listed member
    exact listed.trans member.symm
  · intro same
    have positive := List.length_pos_of_mem member
    rw [List.eq_replicate_of_mem same,List.nodup_replicate] at distinct
    omega

/-- Permuting the rows permutes the members of every key. -/
theorem members_perm (index : Fin n → κ) (σ : Equiv.Perm (Fin n)) (k : κ) :
    ((members (index ∘ σ) k).map σ).Perm (members index k) := by
  rw [List.perm_ext_iff_of_nodup ((members_nodup _ k).map σ.injective) (members_nodup index k)]
  intro i
  rw [List.mem_map,mem_members]
  constructor
  · rintro ⟨j,member,rfl⟩
    exact (mem_members _ k j).mp member
  · intro same
    exact ⟨σ.symm i,(mem_members _ k _).mpr (by simpa using same),σ.apply_symm_apply i⟩

theorem members_map_perm (index : Fin n → κ) (value : Fin n → α) (σ : Equiv.Perm (Fin n)) (k : κ) :
    ((members (index ∘ σ) k).map (value ∘ σ)).Perm ((members index k).map value) := by
  rw [← List.map_map]
  exact (members_perm index σ k).map value

/-- A loop over the groups of some rows whose step for a group writes its rows only, each from
its own value: a row ends with what the step for its group writes. -/
theorem foldl_groupRows (rows : List (Fin n)) (index : Fin n → κ) (value : Fin n → α)
    (body : (Fin n → β) → κ × List α → Fin n → β) (own : κ × List α → Fin n → β → β)
    (written : ∀ entry ∈ (groupRows rows index value).entries, ∀ s, ∀ i ∈ rows,
      body s entry i = if index i = entry.1 then own entry i (s i) else s i) (s : Fin n → β) (i : Fin n)
    (member : i ∈ rows) :
    (groupRows rows index value).entries.foldl body s i =
      own (index i,(rows.filter (fun j => index j = index i)).map value) i (s i) := by
  let part := fun k (s : Fin n → β) => if index i = k then some (s i) else none
  let only := fun (s : Fin n → β) (entry : κ × List α) j =>
    if j = i then (if index i = entry.1 then own entry i (s i) else s i) else body s entry j
  have framed : LocalLoop.Framed Prod.fst part only := by
    intro s entry k apart
    by_cases same : index i = k
    · simp [part,only,same,Ne.symm apart]
    · simp [part,same]
  have acts : LocalLoop.Acts Prod.fst part only (fun entry p => p.map (own entry i)) := by
    intro s entry
    by_cases same : index i = entry.1 <;> simp [part,only,same]
  have run := List.foldl_ext body only s (fun s entry listed => funext fun j => by
    by_cases here : j = i
    · subst here
      simp only [only,if_true]
      exact written entry listed s j member
    · simp only [only,if_neg here])
  have row := LocalLoop.foldl_member framed acts _ (groupRows rows index value).distinct _
    (groupRows_entry rows index value i member) s
  rw [run]
  simpa [part] using row

/-- The same for a loop over the groups of all rows. -/
theorem foldl_entries (index : Fin n → κ) (value : Fin n → α) (body : (Fin n → β) → κ × List α → Fin n → β)
    (own : κ × List α → Fin n → β → β)
    (written : ∀ entry ∈ (groupBy index value).entries, ∀ s i,
      body s entry i = if index i = entry.1 then own entry i (s i) else s i) (s : Fin n → β) (i : Fin n) :
    (groupBy index value).entries.foldl body s i =
      own (index i,(members index (index i)).map value) i (s i) :=
  foldl_groupRows (List.finRange n) index value body own (fun entry member s i _ => written entry member s i) s i
    (List.mem_finRange i)

/-- `for i in range(n): xs[i] = step(i, xs[i])`. -/
def rowLoop (step : Fin n → α → α) (xs : Fin n → α) : Fin n → α :=
  (List.finRange n).foldl (fun xs i => Function.update xs i (step i (xs i))) xs

theorem rowLoop_apply (step : Fin n → α → α) (xs : Fin n → α) (i : Fin n) :
    rowLoop step xs i = step i (xs i) := by
  have framed : LocalLoop.Framed id (fun k (xs : Fin n → α) => xs k)
      (fun xs i => Function.update xs i (step i (xs i))) :=
    fun xs i k apart => Function.update_of_ne (Ne.symm apart) _ _
  have acts : LocalLoop.Acts id (fun k (xs : Fin n → α) => xs k)
      (fun xs i => Function.update xs i (step i (xs i))) step :=
    fun xs i => Function.update_self _ _ _
  exact LocalLoop.foldl_member framed acts (List.finRange n) (by simpa using List.nodup_finRange n) i
    (List.mem_finRange i) xs

/-- A loop over the entries that stores one result under each key. -/
def forEntries (f : κ → List α → Except String β) (d : OrderedDict κ (List α)) :
    Except String (OrderedDict κ β) :=
  d.entries.foldlM (fun results entry => do
    let result ← f entry.1 entry.2
    return results.set entry.1 result) .empty

theorem forEntries_ok (f : κ → List α → Except String β) (g : κ → List α → β) (d : OrderedDict κ (List α))
    (each : ∀ entry ∈ d.entries, f entry.1 entry.2 = .ok (g entry.1 entry.2)) :
    ∃ results, forEntries f d = .ok results ∧
      ∀ entry ∈ d.entries, results.get? entry.1 = some (g entry.1 entry.2) := by
  obtain ⟨entries,distinct⟩ := d
  unfold forEntries
  simp only at each ⊢
  induction entries using List.reverseRecOn with
  | nil => exact ⟨.empty,rfl,fun entry member => absurd member (List.not_mem_nil)⟩
  | append_singleton entries last ih =>
    rw [List.map_append,List.nodup_append] at distinct
    obtain ⟨results,made,held⟩ := ih distinct.1
      (fun entry member => each entry (List.mem_append_left _ member))
    refine ⟨results.set last.1 (g last.1 last.2),?_,fun entry member => ?_⟩
    · rw [List.foldlM_append,made]
      simp only [bind,Except.bind,List.foldlM_cons,List.foldlM_nil,
        each last (List.mem_append_right _ (List.mem_singleton_self last))]
      rfl
    · rcases List.mem_append.mp member with before | here
      · have apart : entry.1 ≠ last.1 :=
          distinct.2.2 entry.1 (List.mem_map_of_mem before) last.1 (by simp)
        rw [OrderedDict.get?_set_other _ _ _ _ apart]
        exact held entry before
      · obtain rfl := List.mem_singleton.mp here
        exact OrderedDict.get?_set_same _ _ _

end GroupBy
