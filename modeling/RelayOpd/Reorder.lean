import RelayOpd.LocalLoop
import Mathlib.Data.List.Nodup
import Mathlib.Data.List.Perm.Basic

/-! Rows picked by a list of indices, and the inverse of such a list. -/
namespace RelayOpd

variable {α : Type}

/-- `DataProto.reorder` on one column, and any other indexing by a list of rows; every
column of a batch is picked by the same indices. -/
def reorder (indices : List Nat) (column : List α) : Except String (List α) :=
  if indices = [] then .error "tensors used as indices must be long, int, byte or bool tensors"
  else indices.mapM (fun i =>
    if bound : i < column.length then .ok column[i] else .error "index is out of bounds")

theorem reorder_ok (indices : List Nat) (column : List α) (default : α) (some_ : indices ≠ [])
    (inside : ∀ i ∈ indices, i < column.length) :
    reorder indices column = .ok (indices.map (column.getD · default)) := by
  rw [reorder,if_neg some_]
  refine LocalLoop.mapM_ok _ _ indices (fun i member => ?_)
  simp [inside i member]

/-- Rows that are all there are picked entry by entry. -/
theorem reorder_entries (indices : List Nat) (column : List α) (some_ : indices ≠ [])
    (inside : ∀ i ∈ indices, i < column.length) :
    ∃ picked, reorder indices column = .ok picked ∧ picked.map some = indices.map (column[·]?) := by
  obtain ⟨i,rest,rfl⟩ := List.exists_cons_of_ne_nil some_
  have first := inside i List.mem_cons_self
  refine ⟨_,reorder_ok _ column column[i] some_ inside,?_⟩
  rw [List.map_map]
  refine List.map_congr_left (fun j member => ?_)
  simp [inside j member]

/-- Entry `j` of the picked rows is the row the `j`-th index names. -/
theorem reorder_rows (indices : List Nat) (column : List α) (n : Nat) (full : column.length = n)
    (some_ : indices ≠ []) (inside : ∀ i ∈ indices, i < n) :
    ∃ picked, reorder indices column = .ok picked ∧ picked.length = indices.length ∧
      ∀ (j : Nat) (bound : j < indices.length), picked[j]? = column[indices[j]]? := by
  obtain ⟨picked,made,entries⟩ := reorder_entries indices column some_ (full ▸ inside)
  refine ⟨picked,made,?_,fun j bound => ?_⟩
  · simpa using congrArg List.length entries
  · have entry := congrArg (fun xs => xs[j]?) entries
    simp only [List.getElem?_map,List.getElem?_eq_getElem bound,Option.map_some] at entry
    obtain ⟨value,found,equal⟩ := Option.map_eq_some_iff.mp entry
    rw [found,equal]

def getReverseIdx (idxMap : List Nat) : Except String (List Nat) :=
  idxMap.zipIdx.foldlM (fun reverseIdxMap entry =>
    if entry.1 < reverseIdxMap.length then .ok (reverseIdxMap.set entry.1 entry.2)
    else .error "list assignment index out of range") idxMap

theorem foldlM_set (entries : List (Nat × Nat)) (xs : List Nat)
    (inside : ∀ entry ∈ entries, entry.1 < xs.length) :
    entries.foldlM (fun reverseIdxMap entry =>
      if entry.1 < reverseIdxMap.length then .ok (reverseIdxMap.set entry.1 entry.2)
      else .error "list assignment index out of range") xs =
      (.ok (entries.foldl (fun xs entry => xs.set entry.1 entry.2) xs) : Except String (List Nat)) := by
  induction entries generalizing xs with
  | nil => rfl
  | cons entry entries ih =>
    rw [List.foldlM_cons,if_pos (inside entry List.mem_cons_self)]
    refine ih (xs.set entry.1 entry.2) (fun later member => ?_)
    rw [List.length_set]
    exact inside later (List.mem_cons_of_mem entry member)

theorem foldl_set_length (entries : List (Nat × Nat)) (xs : List Nat) :
    (entries.foldl (fun xs entry => xs.set entry.1 entry.2) xs).length = xs.length := by
  induction entries generalizing xs with
  | nil => rfl
  | cons entry entries ih => rw [List.foldl_cons,ih,List.length_set]

section Permutation

variable {n : Nat} {idxMap : List Nat} (perm : idxMap.Perm (List.range n))

include perm

theorem idxMap_length : idxMap.length = n := by rw [perm.length_eq,List.length_range]

theorem idxMap_bound (i : Nat) (member : i ∈ idxMap) : i < n :=
  List.mem_range.mp (perm.mem_iff.mp member)

/-- The reverse map leads from an entry back to its place. -/
theorem getReverseIdx_ok :
    ∃ reversed, getReverseIdx idxMap = .ok reversed ∧ reversed.length = n ∧
      ∀ (i : Nat) (bound : i < idxMap.length), reversed[idxMap[i]]? = some i := by
  have length := idxMap_length perm
  have inside : ∀ entry ∈ idxMap.zipIdx, entry.1 < idxMap.length := by
    intro entry member
    rw [length]
    exact idxMap_bound perm entry.1 (List.fst_mem_of_mem_zipIdx member)
  refine ⟨_,foldlM_set _ _ inside,by rw [foldl_set_length,length],fun i bound => ?_⟩
  have framed : LocalLoop.Framed Prod.fst (fun k (xs : List Nat) => xs[k]?)
      (fun xs (entry : Nat × Nat) => xs.set entry.1 entry.2) := by
    intro xs entry k apart
    exact List.getElem?_set_ne apart
  have acts : LocalLoop.Acts Prod.fst (fun k (xs : List Nat) => xs[k]?)
      (fun xs (entry : Nat × Nat) => xs.set entry.1 entry.2)
      (fun entry old => old.map (fun _ => entry.2)) := by
    intro xs entry
    exact List.getElem?_set_self'
  have distinct : (idxMap.zipIdx.map Prod.fst).Nodup := by
    rw [List.zipIdx_map_fst]
    exact perm.nodup_iff.mpr List.nodup_range
  have member : (idxMap[i],i) ∈ idxMap.zipIdx := by
    rw [List.mem_zipIdx_iff_getElem?]
    exact List.getElem?_eq_getElem bound
  have set_ := LocalLoop.foldl_member framed acts idxMap.zipIdx distinct (idxMap[i],i) member idxMap
  have there : idxMap[i] < idxMap.length := inside _ member
  simpa [there] using set_

/-- Picking by the reverse map undoes picking by the map. -/
theorem reorder_reverse (reversed : List Nat) (length : reversed.length = n) (some_ : 0 < n)
    (inverse : ∀ (i : Nat) (bound : i < idxMap.length), reversed[idxMap[i]]? = some i)
    (column picked : List α) (full : column.length = n)
    (entries : picked.map some = idxMap.map (column[·]?)) : reorder reversed picked = .ok column := by
  have size : picked.length = n := by
    have same := congrArg List.length entries
    rwa [List.length_map,List.length_map,idxMap_length perm] at same
  have placed : ∀ j < n, ∃ i, ∃ bound : i < idxMap.length, idxMap[i] = j ∧ reversed[j]? = some i := by
    intro j bound
    obtain ⟨i,inner,same⟩ := List.mem_iff_getElem.mp (perm.mem_iff.mpr (List.mem_range.mpr bound))
    exact ⟨i,inner,same,same ▸ inverse i inner⟩
  have within : ∀ i ∈ reversed, i < picked.length := by
    intro i member
    obtain ⟨j,bound,rfl⟩ := List.mem_iff_getElem.mp member
    obtain ⟨k,inner,_,there⟩ := placed j (length ▸ bound)
    rw [List.getElem?_eq_getElem bound] at there
    rw [Option.some.inj there,size,← idxMap_length perm]
    exact inner
  have nonempty : reversed ≠ [] := by
    rintro rfl
    exact some_.ne length
  obtain ⟨restored,made,found⟩ := reorder_entries reversed picked nonempty within
  rw [made]
  congr 1
  have back : restored.map some = column.map some := by
    rw [found]
    apply List.ext_getElem?
    intro j
    rw [List.getElem?_map,List.getElem?_map]
    by_cases bound : j < n
    · obtain ⟨i,inner,same,there⟩ := placed j bound
      have within' : j < column.length := full ▸ bound
      have entry := congrArg (fun xs => xs[i]?) entries
      simp only [List.getElem?_map,List.getElem?_eq_getElem inner,Option.map_some,same,
        List.getElem?_eq_getElem within'] at entry
      rw [there,List.getElem?_eq_getElem within',Option.map_some,Option.map_some]
      obtain ⟨value,found,equal⟩ := Option.map_eq_some_iff.mp entry
      rw [found,← equal]
    · rw [List.getElem?_eq_none (by omega),List.getElem?_eq_none (by omega)]
      rfl
  exact List.map_injective_iff.mpr (Option.some_injective α) back

end Permutation

end RelayOpd
