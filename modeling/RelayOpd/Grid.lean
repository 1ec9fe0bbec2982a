import RelayOpd.Ragged

/-! Two-dimensional tensors as functions of row and column, with the indexed
writes and reductions used on them. Shapes are carried by the caller; no
operation reads an entry outside the shape it is given. -/
namespace Grid

def anyFlat (n : Nat) (mask : Nat → Bool) : Bool := (List.range n).any mask

def any (rows cols : Nat) (mask : Nat → Nat → Bool) : Bool :=
  (List.range rows).any (fun r => (List.range cols).any (mask r))

/-- `nonzero` of a vector: the set positions in increasing order. -/
def nonzero (n : Nat) (mask : Nat → Bool) : List Nat := (List.range n).filter mask

def count (n : Nat) (mask : Nat → Bool) : Nat := (nonzero n mask).length

/-- `g[row[mask], col[mask]] = val[mask]` over the `n` slots of flat vectors. -/
def indexPut (n : Nat) (mask : Nat → Bool) (row col : Nat → Nat) (val : Nat → α)
    (g : Nat → Nat → α) : Nat → Nat → α := fun r c =>
  match (List.range n).find? (fun i => mask i && row i == r && col i == c) with
  | some i => val i
  | none => g r c

/-- `self.scatter_reduce_(0, index, src, reduce="amin", include_self=True)`. -/
def scatterAmin (n : Nat) (index src self : Nat → Nat) : Nat → Nat := fun r =>
  ((List.range n).filter (fun i => index i == r)).foldl (fun least i => min least (src i)) (self r)

@[simp] theorem anyFlat_eq_true (n : Nat) (mask : Nat → Bool) :
    anyFlat n mask = true ↔ ∃ i, i < n ∧ mask i = true := by simp [anyFlat]

theorem anyFlat_eq_false (n : Nat) (mask : Nat → Bool) :
    anyFlat n mask = false ↔ ∀ i, i < n → mask i = false := by simp [anyFlat]

@[simp] theorem any_eq_true (rows cols : Nat) (mask : Nat → Nat → Bool) :
    any rows cols mask = true ↔ ∃ r, r < rows ∧ ∃ c, c < cols ∧ mask r c = true := by simp [any]

@[simp] theorem mem_nonzero (n : Nat) (mask : Nat → Bool) (i : Nat) :
    i ∈ nonzero n mask ↔ i < n ∧ mask i = true := by simp [nonzero]

theorem nonzero_nodup (n : Nat) (mask : Nat → Bool) : (nonzero n mask).Nodup :=
  List.nodup_range.filter _

theorem nonzero_sorted (n : Nat) (mask : Nat → Bool) :
    (nonzero n mask).Pairwise (· < ·) := (List.pairwise_lt_range).filter _

theorem nonzero_congr (n : Nat) (left right : Nat → Bool)
    (same : ∀ i, i < n → left i = right i) : nonzero n left = nonzero n right := by
  apply List.filter_congr
  intro i member
  exact same i (List.mem_range.mp member)

theorem nonzero_eq_of_mem (n : Nat) (mask : Nat → Bool) (xs : List Nat) (sorted : xs.Pairwise (· < ·))
    (same : ∀ i, i ∈ xs ↔ i < n ∧ mask i = true) : nonzero n mask = xs :=
  (nonzero_sorted n mask).eq_of_mem_iff sorted (fun i => (mem_nonzero n mask i).trans (same i).symm)

/-- The index of an entry counts the set positions in front of it. -/
theorem nonzero_index (n : Nat) (mask : Nat → Bool) (k c : Nat) (entry : (nonzero n mask)[k]? = some c) :
    k ≤ c ∧ (k = c ↔ ∀ d, d < c → mask d = true) := by
  obtain ⟨bound,here⟩ := List.getElem?_eq_some_iff.mp entry
  have member : c ∈ nonzero n mask := here ▸ List.getElem_mem bound
  obtain ⟨inside,set_⟩ := (mem_nonzero _ _ _).mp member
  obtain ⟨rest,rfl⟩ := Nat.exists_eq_add_of_lt inside
  have split : nonzero (c + rest + 1) mask =
      (List.range c).filter mask ++ c :: ((List.range rest).map (c + 1 + ·)).filter mask := by
    rw [nonzero,show c + rest + 1 = c + 1 + rest by omega,List.range_add,List.range_succ,List.append_assoc,
      List.filter_append,List.filter_append,List.filter_singleton,set_]
    rfl
  have count : k = ((List.range c).filter mask).length := by
    have own : (nonzero (c + rest + 1) mask)[((List.range c).filter mask).length]? = some c := by
      rw [split,List.getElem?_append_right (Nat.le_refl _),Nat.sub_self]
      rfl
    obtain ⟨within,same⟩ := List.getElem?_eq_some_iff.mp own
    exact (nonzero_nodup _ _).getElem_inj_iff.mp (here.trans same.symm)
  have le := List.length_filter_le mask (List.range c)
  rw [List.length_range] at le
  refine ⟨count ▸ le,?_⟩
  rw [count]
  constructor
  · intro full d before
    have all := List.length_filter_eq_length_iff.mp (full.trans (List.length_range).symm)
    exact all d (List.mem_range.mpr before)
  · intro all
    rw [List.filter_eq_self.mpr (fun d member => all d (List.mem_range.mp member)),List.length_range]

/-- A prefix of an increasing list holds its entries up to the prefix's last one. -/
theorem mem_prefix_of_sorted {xs before : List Nat} {last : Nat} (sorted : xs.Pairwise (· < ·))
    (within : before ++ [last] <+: xs) (i : Nat) : i ∈ before ++ [last] ↔ i ∈ xs ∧ i ≤ last := by
  obtain ⟨rest,rfl⟩ := within
  rw [List.pairwise_append] at sorted
  obtain ⟨inner,_,apart⟩ := sorted
  rw [List.pairwise_append] at inner
  obtain ⟨_,_,below⟩ := inner
  have upper : ∀ j ∈ before ++ [last], j ≤ last := by
    intro j member
    rcases List.mem_append.mp member with early | here
    · exact le_of_lt (below j early last (List.mem_singleton_self last))
    · exact le_of_eq (List.mem_singleton.mp here)
  constructor
  · exact fun member => ⟨List.mem_append_left rest member,upper i member⟩
  · rintro ⟨member,bounded⟩
    rcases List.mem_append.mp member with early | late
    · exact early
    · have := apart last (by simp) i late
      omega

/-- A selected slot with unique coordinates determines the entry written there. -/
theorem indexPut_hit (n : Nat) (mask : Nat → Bool) (row col : Nat → Nat) (val : Nat → α)
    (g : Nat → Nat → α) (i : Nat) (bound : i < n) (selected : mask i = true)
    (unique : ∀ j, j < n → mask j = true → row j = row i → col j = col i → j = i) :
    indexPut n mask row col val g (row i) (col i) = val i := by
  unfold indexPut
  cases found : (List.range n).find? (fun j => mask j && row j == row i && col j == col i) with
  | none =>
    have absent := List.find?_eq_none.mp found i (List.mem_range.mpr bound)
    simp [selected] at absent
  | some j =>
    have holds := List.find?_some found
    have member := List.mem_range.mp (List.mem_of_find?_eq_some found)
    simp only [Bool.and_eq_true,beq_iff_eq] at holds
    rw [unique j member holds.1.1 holds.1.2 holds.2]

theorem indexPut_miss (n : Nat) (mask : Nat → Bool) (row col : Nat → Nat) (val : Nat → α)
    (g : Nat → Nat → α) (r c : Nat)
    (absent : ∀ i, i < n → mask i = true → row i = r → col i ≠ c) :
    indexPut n mask row col val g r c = g r c := by
  unfold indexPut
  have none : (List.range n).find? (fun i => mask i && row i == r && col i == c) = none := by
    apply List.find?_eq_none.mpr
    intro i member
    have := absent i (List.mem_range.mp member)
    simp only [Bool.and_eq_true,beq_iff_eq,not_and]
    exact fun h => this h.1 h.2
  rw [none]

theorem indexPut_none (n : Nat) (mask : Nat → Bool) (row col : Nat → Nat) (val : Nat → α)
    (g : Nat → Nat → α) (unselected : anyFlat n mask = false) :
    indexPut n mask row col val g = g := by
  funext r c
  apply indexPut_miss
  intro i bound selected
  simp [(anyFlat_eq_false n mask).mp unselected i bound] at selected

/-- A write that is skipped when it selects nothing. -/
theorem indexPut_guarded (n : Nat) (mask : Nat → Bool) (row col : Nat → Nat) (val : Nat → α)
    (g : Nat → Nat → α) :
    (if anyFlat n mask then indexPut n mask row col val g else g) = indexPut n mask row col val g := by
  split
  next => rfl
  next off => rw [indexPut_none n mask row col val g (Bool.eq_false_iff.mpr off)]

theorem indexPut_congr (n : Nat) (left right : Nat → Bool) (row col : Nat → Nat) (val : Nat → α)
    (g : Nat → Nat → α) (same : ∀ i, i < n → left i = right i) :
    indexPut n left row col val g = indexPut n right row col val g := by
  funext r c
  have found : (List.range n).find? (fun i => left i && row i == r && col i == c) =
      (List.range n).find? (fun i => right i && row i == r && col i == c) := by
    apply List.find?_congr
    intro i member
    rw [same i (List.mem_range.mp member)]
  simp only [indexPut,found]

theorem anyFlat_congr (n : Nat) (left right : Nat → Bool) (same : ∀ i, i < n → left i = right i) :
    anyFlat n left = anyFlat n right := by
  rw [Bool.eq_iff_iff,anyFlat_eq_true,anyFlat_eq_true]
  constructor <;> rintro ⟨i,bound,selected⟩
  · exact ⟨i,bound,same i bound ▸ selected⟩
  · exact ⟨i,bound,(same i bound).symm ▸ selected⟩

theorem foldl_min_le (xs : List Nat) (src : Nat → Nat) (init bound : Nat) :
    bound ≤ xs.foldl (fun least i => min least (src i)) init ↔
      bound ≤ init ∧ ∀ i ∈ xs, bound ≤ src i := by
  induction xs generalizing init with
  | nil => simp
  | cons x xs ih => rw [List.foldl_cons,ih,Nat.le_min,List.forall_mem_cons,and_assoc]

/-- The reduced entry is the greatest lower bound of the initial one and its sources. -/
theorem le_scatterAmin (n : Nat) (index src self : Nat → Nat) (r bound : Nat) :
    bound ≤ scatterAmin n index src self r ↔
      bound ≤ self r ∧ ∀ i, i < n → index i = r → bound ≤ src i := by
  simp only [scatterAmin,foldl_min_le,List.mem_filter,List.mem_range,beq_iff_eq,and_imp]

section Layout

variable (lens : List Nat) (mask : Nat → Bool) (row col : Nat → Nat)

/-- Coordinates that follow a ragged layout on the selected slots. -/
structure Follows : Prop where
  row : ∀ r c, c < Ragged.len lens r → mask (Ragged.start lens r + c) = true →
    row (Ragged.start lens r + c) = r
  col : ∀ r c, c < Ragged.len lens r → mask (Ragged.start lens r + c) = true →
    col (Ragged.start lens r + c) = c

variable {lens mask row col}

/-- Writing selected slots in their own row, `k` columns past their own column, is
a per-row selection. -/
theorem indexPut_shift (follows : Follows lens mask row col) (k : Nat) (val : Nat → α)
    (g : Nat → Nat → α) (r c : Nat) :
    indexPut lens.sum mask row (fun i => col i + k) val g r (c + k) =
      if c < Ragged.len lens r ∧ mask (Ragged.start lens r + c) = true
      then val (Ragged.start lens r + c) else g r (c + k) := by
  split
  next h =>
    have atRow := follows.row r c h.1 h.2
    have atCol := follows.col r c h.1 h.2
    have unique : ∀ j, j < lens.sum → mask j = true → row j = row (Ragged.start lens r + c) →
        col j + k = col (Ragged.start lens r + c) + k → j = Ragged.start lens r + c := by
      intro j bound selected sameRow sameCol
      obtain ⟨s,d,inside,rfl⟩ := Ragged.slot_exists lens j bound
      rw [follows.row s d inside selected,atRow] at sameRow
      rw [follows.col s d inside selected,atCol] at sameCol
      rw [sameRow,Nat.add_right_cancel sameCol]
    have hit := indexPut_hit lens.sum mask row (fun i => col i + k) val g _
      (Ragged.slot_bound lens r c h.1) h.2 unique
    simpa only [atRow,atCol] using hit
  next h =>
    apply indexPut_miss
    intro j bound selected sameRow sameCol
    obtain ⟨s,d,inside,rfl⟩ := Ragged.slot_exists lens j bound
    rw [follows.row s d inside selected] at sameRow
    rw [follows.col s d inside selected] at sameCol
    obtain rfl := sameRow
    obtain rfl := Nat.add_right_cancel sameCol
    exact h ⟨inside,selected⟩

theorem indexPut_layout (follows : Follows lens mask row col) (val : Nat → α)
    (g : Nat → Nat → α) (r c : Nat) :
    indexPut lens.sum mask row col val g r c =
      if c < Ragged.len lens r ∧ mask (Ragged.start lens r + c) = true
      then val (Ragged.start lens r + c) else g r c :=
  indexPut_shift follows 0 val g r c

/-- No shifted write reaches the columns before the shift. -/
theorem indexPut_before (k : Nat) (val : Nat → α) (g : Nat → Nat → α) (n r c : Nat) (before : c < k) :
    indexPut n mask row (fun i => col i + k) val g r c = g r c := by
  apply indexPut_miss
  intro i _ _ _ same
  omega

/-- Reducing by row index reduces over the row's own slots. -/
theorem le_scatterAmin_layout (index src self : Nat → Nat)
    (rows : ∀ r c, c < Ragged.len lens r → index (Ragged.start lens r + c) = r) (r bound : Nat) :
    bound ≤ scatterAmin lens.sum index src self r ↔
      bound ≤ self r ∧ ∀ c, c < Ragged.len lens r → bound ≤ src (Ragged.start lens r + c) := by
  rw [le_scatterAmin]
  apply and_congr_right
  intro _
  constructor
  · intro h c inside
    exact h _ (Ragged.slot_bound lens r c inside) (rows r c inside)
  · intro h i bound' same
    obtain ⟨s,c,inside,rfl⟩ := Ragged.slot_exists lens i bound'
    rw [rows s c inside] at same
    subst same
    exact h c inside

end Layout

end Grid
