import RelayOpd.TensorCat

/-! Jagged tensors: samples that differ in the length of one dimension, stored as one tensor
of values with the lengths it is cut into. -/
namespace Jagged

open TensorCat

variable {α : Type}

/-- Consecutive pieces of the given sizes. -/
def cut : List Nat → List α → List (List α)
  | [], _ => []
  | size :: sizes, xs => xs.take size :: cut sizes (xs.drop size)

theorem cut_flatMap (parts : List β) (size : β → Nat) (part : β → List α)
    (sized : ∀ b ∈ parts, (part b).length = size b) : cut (parts.map size) (parts.flatMap part) = parts.map part := by
  induction parts with
  | nil => rfl
  | cons b parts ih =>
    have first := sized b List.mem_cons_self
    have rest := ih (fun c later => sized c (List.mem_cons_of_mem b later))
    simp only [List.map_cons,List.flatMap_cons,cut,← first,List.take_left,List.drop_left,rest]

/-- `lengths` are the differences of the offsets; `raggedIdx` counts the batch dimension too. -/
structure Nested (α : Type) where
  values : ShapedTensor α
  lengths : List Nat
  raggedIdx : Nat

/-- The samples joined along dimension `d`. -/
def join (d : Nat) (t : ShapedTensor α) (samples : List (ShapedTensor α)) (axis : d < t.shape.length)
    (fits : ∀ s ∈ samples, Fits d t s) : Nested α :=
  ⟨joined d t samples axis fits,samples.map (ShapedTensor.extent · d),d + 1⟩

namespace Nested

variable (nt : Nested α)

def dim : Nat := nt.values.shape.length + 1

/-- The dimension of the values that is cut. -/
def cutDim : Nat := nt.raggedIdx - 1

/-- The lengths cover the dimension that is cut. -/
structure Covered : Prop where
  ragged : 0 < nt.raggedIdx
  axis : nt.cutDim < nt.values.shape.length
  cover : nt.lengths.sum = nt.values.extent nt.cutDim
  some_ : nt.lengths ≠ []

/-- The samples. -/
def rows : List (ShapedTensor α) :=
  if axis : nt.cutDim < nt.values.shape.length then
    (List.range nt.lengths.length).map (nt.values.part nt.cutDim axis nt.lengths)
  else []

variable {nt} (covered : nt.Covered)

include covered

theorem rows_eq : nt.rows = (List.range nt.lengths.length).map (nt.values.part nt.cutDim covered.axis nt.lengths) :=
  dif_pos covered.axis

theorem rows_length : nt.rows.length = nt.lengths.length := by simp [rows_eq covered]

theorem rows_fits : ∀ s ∈ nt.rows, Fits nt.cutDim nt.values s := by
  intro s member
  rw [rows_eq covered] at member
  obtain ⟨r,inside,rfl⟩ := List.mem_map.mp member
  exact part_fits nt.values nt.cutDim covered.axis nt.lengths r (List.mem_range.mp inside) covered.cover

theorem rows_extents : nt.rows.map (ShapedTensor.extent · nt.cutDim) = nt.lengths := by
  rw [rows_eq covered,List.map_map]
  apply List.ext_getElem
  · simp
  · intro r _ bound
    have inside := part_inside nt.values nt.cutDim nt.lengths r bound covered.cover
    rw [List.getElem_map,List.getElem_range,Function.comp_apply,ShapedTensor.part,
      nt.values.narrow_extent nt.cutDim _ _ covered.axis inside,Ragged.len_of_bound nt.lengths r bound]

/-- A nested tensor of two dimensions is cut along the only one there is. -/
theorem cutDim_flat (flat : nt.dim = 2) : nt.raggedIdx = 1 := by
  have axis := covered.axis
  have ragged := covered.ragged
  simp only [dim,cutDim] at flat axis
  omega

end Nested

section Join

variable (d : Nat) (t : ShapedTensor α) (samples : List (ShapedTensor α)) (axis : d < t.shape.length)
  (fits : ∀ s ∈ samples, Fits d t s)

/-- Joining loses nothing. -/
theorem rows_join : (join d t samples axis fits).rows = samples := by
  refine (dif_pos (joined_axis d t samples axis fits)).trans ?_
  apply List.ext_getElem
  · simp [join]
  · intro r _ bound
    rw [List.getElem_map,List.getElem_range]
    exact part_joined d t samples axis fits r bound

end Join

namespace Nested

/-- The `r`-th share of `size` samples, read between two offsets. -/
def share (size : Nat) (nt : Nested α) (r : Nat) : Nested α where
  values :=
    if axis : nt.cutDim < nt.values.shape.length then
      nt.values.narrow nt.cutDim (Ragged.start nt.lengths (r * size)) (Chunks.chunk size nt.lengths r).sum axis
    else nt.values
  lengths := Chunks.chunk size nt.lengths r
  raggedIdx := nt.raggedIdx

section Share

variable {nt : Nested α} (covered : nt.Covered) {chunks size : Nat} (full : nt.lengths.length = chunks * size) (r : Nat)
  (bound : r < chunks)

include covered

theorem share_values : (nt.share size r).values = nt.values.narrow nt.cutDim (Ragged.start nt.lengths (r * size))
    (Chunks.chunk size nt.lengths r).sum covered.axis := dif_pos covered.axis

omit covered in
theorem share_start (lengths : List Nat) (j : Nat) (below : j ≤ size) :
    Ragged.start lengths (r * size) + Ragged.start (Chunks.chunk size lengths r) j =
      Ragged.start lengths (r * size + j) := by
  rw [Ragged.start,Ragged.start,Ragged.start,Chunks.chunk,List.take_take,Nat.min_eq_left below,List.take_add,
    List.sum_append]

theorem share_inside : Ragged.start nt.lengths (r * size) + (Chunks.chunk size nt.lengths r).sum ≤
    nt.values.extent nt.cutDim := by
  have whole : (Chunks.chunk size nt.lengths r).sum = Ragged.start (Chunks.chunk size nt.lengths r) size := by
    rw [Ragged.start,Chunks.chunk,List.take_take,Nat.min_self]
  rw [whole,share_start r nt.lengths size le_rfl,← covered.cover,Ragged.start]
  exact (List.take_sublist _ _).sum_le_sum (by simp)

theorem share_axis : (nt.share size r).cutDim < (nt.share size r).values.shape.length := by
  rw [share_values covered]
  exact nt.values.narrow_axis nt.cutDim _ _ covered.axis

theorem share_dim : (nt.share size r).dim = nt.dim := by
  rw [dim,dim,share_values covered]
  exact congrArg (· + 1) List.length_set

theorem share_cover : (nt.share size r).lengths.sum = (nt.share size r).values.extent (nt.share size r).cutDim := by
  rw [share_values covered]
  exact (nt.values.narrow_extent nt.cutDim _ _ covered.axis (share_inside covered r)).symm

include full bound

theorem share_covered (some_ : 0 < size) : (nt.share size r).Covered where
  ragged := covered.ragged
  axis := share_axis covered r
  cover := share_cover covered r
  some_ := by
    have length := Chunks.chunk_length chunks size nt.lengths full r bound
    intro empty
    have none_ : Chunks.chunk size nt.lengths r = [] := empty
    rw [none_] at length
    exact Nat.ne_of_gt some_ length.symm

/-- The samples of a share. -/
theorem share_rows : (nt.share size r).rows = Chunks.chunk size nt.rows r := by
  have length := Chunks.chunk_length chunks size nt.lengths full r bound
  rw [rows,dif_pos (share_axis covered r),rows_eq covered,Chunks.chunk_map]
  have room : (r + 1) * size ≤ chunks * size := Nat.mul_le_mul_right size bound
  rw [Nat.succ_mul] at room
  apply List.ext_getElem
  · rw [List.length_map,List.length_map,List.length_range]
    rw [Chunks.chunk_length chunks size _ (by rw [List.length_range,full]) r bound]
    exact length
  · intro j first second
    have below : j < size := by simpa [share,length] using first
    have place : j < (Chunks.chunk size nt.lengths r).length := by rwa [length]
    have here : j < (Chunks.chunk size (List.range nt.lengths.length) r).length := by simpa using second
    have entry : (Chunks.chunk size (List.range nt.lengths.length) r)[j] = r * size + j := by
      simp [Chunks.chunk]
    rw [List.getElem_map,List.getElem_map,List.getElem_range,entry]
    have lens : Ragged.len (Chunks.chunk size nt.lengths r) j = Ragged.len nt.lengths (r * size + j) := by
      simp [Ragged.len,Chunks.chunk,List.getD_eq_getElem?_getD,List.getElem?_take_of_lt below]
    have inside : Ragged.start (Chunks.chunk size nt.lengths r) j + Ragged.len (Chunks.chunk size nt.lengths r) j ≤
        (Chunks.chunk size nt.lengths r).sum := by
      rw [← Ragged.start_succ _ j place,Ragged.start]
      exact (List.take_sublist _ _).sum_le_sum (by simp)
    have window := nt.values.narrow_narrow nt.cutDim _ _ _ _ covered.axis (share_inside covered r) inside
    rw [share_start r nt.lengths j below.le] at window
    simp only [share_values covered,ShapedTensor.part,← lens]
    exact window

/-- The samples of a share are joined to the share. -/
theorem share_cat (some_ : 0 < size) :
    cat nt.cutDim (Chunks.chunk size nt.rows r) = .ok (nt.share size r).values := by
  have parts := cat_parts (nt.share size r).values nt.cutDim (share_axis covered r) (nt.share size r).lengths
    (share_covered covered full r bound some_).some_ (share_cover covered r)
  rw [← share_rows covered full r bound,rows,dif_pos (share_axis covered r)]
  exact parts

omit full bound in
theorem share_extents : (Chunks.chunk size nt.rows r).map (ShapedTensor.extent · nt.cutDim) = (nt.share size r).lengths := by
  rw [← Chunks.chunk_map,rows_extents covered]
  rfl

end Share

end Nested

section Padding

variable (zero : α)

theorem filled_size (shape : List Nat) : (List.replicate shape.prod zero).length = shape.prod := List.length_replicate

def filled (shape : List Nat) : ShapedTensor α := ⟨shape,List.replicate shape.prod zero,filled_size zero shape⟩

theorem filled_extent (shape : List Nat) (d n : Nat) (axis : d < shape.length) :
    (filled zero (shape.set d n)).extent d = n := ShapedTensor.extent_set shape d n axis

theorem padTo_fits (d size : Nat) (t : ShapedTensor α) (axis : d < t.shape.length) :
    ∀ u ∈ [t,filled zero (t.shape.set d (size - t.extent d))], Fits d t u := by
  intro u member
  rcases List.mem_pair.mp member with rfl | rfl
  · exact fits_self d u axis
  · rw [Fits,filled_extent zero t.shape d _ axis]
    rfl

/-- Dimension `d` padded at its end up to `size`. -/
def padTo (d size : Nat) (t : ShapedTensor α) (axis : d < t.shape.length) : ShapedTensor α :=
  joined d t [t,filled zero (t.shape.set d (size - t.extent d))] axis (padTo_fits zero d size t axis)

theorem padTo_shape (d size : Nat) (t : ShapedTensor α) (axis : d < t.shape.length) :
    (padTo zero d size t axis).shape = t.shape.set d (t.extent d + (size - t.extent d)) := by
  have extents : catExtent d [t,filled zero (t.shape.set d (size - t.extent d))] = t.extent d + (size - t.extent d) := by
    rw [catExtent,List.map_cons,List.map_singleton,List.sum_cons,List.sum_singleton,filled_extent zero t.shape d _ axis]
  rw [← extents]
  rfl

/-- `t[:size]`, which cuts the first dimension. -/
def narrowFirst (size : Nat) (t : ShapedTensor α) : ShapedTensor α :=
  if axis : 0 < t.shape.length then t.narrow 0 0 size axis else t

theorem narrowFirst_shape (size : Nat) (t : ShapedTensor α) (axis : 0 < t.shape.length) :
    (narrowFirst size t).shape = t.shape.set 0 (min size (t.extent 0)) := by
  rw [narrowFirst,dif_pos axis]
  rfl

/-- A tensor padded in its first dimension is found again. -/
theorem narrowFirst_padTo (size : Nat) (t : ShapedTensor α) (axis : 0 < t.shape.length) :
    narrowFirst (t.extent 0) (padTo zero 0 size t axis) = t := by
  have fits := padTo_fits zero 0 size t axis
  have part := part_joined 0 t _ axis fits 0 (by simp)
  exact (dif_pos (joined_axis 0 t _ axis fits)).trans part

theorem padTo_full (d size : Nat) (t : ShapedTensor α) (axis : d < t.shape.length) (full : size = t.extent d) :
    padTo zero d size t axis = t := by
  subst full
  have extent : (filled zero (t.shape.set d (t.extent d - t.extent d))).extent d = 0 := by
    rw [Nat.sub_self,filled_extent zero t.shape d 0 axis]
  refine joined_eq d t _ axis _ ?_ (fun o _ => ?_)
  · rw [catExtent,List.map_cons,List.map_singleton,List.sum_cons,List.sum_singleton,extent]
    rfl
  · rw [catRow,List.flatMap_cons,List.flatMap_singleton,ShapedTensor.block,ShapedTensor.block,extent,Nat.zero_mul]
    simp [Chunks.chunk]

namespace Nested

/-- The samples padded to the longest one. -/
def toPadded (nt : Nested α) : List (ShapedTensor α) :=
  nt.rows.map (fun s =>
    if axis : nt.cutDim < s.shape.length then padTo zero nt.cutDim (nt.lengths.foldl max 0) s axis else s)

/-- Cutting the first dimension of a padded sample removes the padding: it is the ragged one, or
there was no padding and nothing is cut. -/
def Restored (nt : Nested α) : Prop :=
  nt.cutDim = 0 ∨ ∀ length ∈ nt.lengths, length = nt.lengths.foldl max 0 ∧ nt.values.extent 0 ≤ length

/-- A sample that was padded and cut again. -/
def restore (nt : Nested α) (s : ShapedTensor α) : ShapedTensor α :=
  narrowFirst (s.extent nt.cutDim)
    (if axis : nt.cutDim < s.shape.length then padTo zero nt.cutDim (nt.lengths.foldl max 0) s axis else s)

variable {nt : Nested α} (covered : nt.Covered) (s : ShapedTensor α) (inside : s ∈ nt.rows)

include covered inside

theorem row_length : s.extent nt.cutDim ∈ nt.lengths := by
  rw [← rows_extents covered]
  exact List.mem_map_of_mem inside

theorem row_first (apart : nt.cutDim ≠ 0) : s.extent 0 = nt.values.extent 0 := by
  have fits := rows_fits covered s inside
  rw [ShapedTensor.extent,fits]
  exact ShapedTensor.extent_set_other _ _ _ _ (Ne.symm apart)

theorem restore_eq (restored : nt.Restored) : nt.restore zero s = s := by
  have axis := (rows_fits covered s inside).axis covered.axis
  rw [restore,dif_pos axis]
  rcases restored with first | level
  · simp only [first] at axis ⊢
    exact narrowFirst_padTo zero _ s axis
  · obtain ⟨longest,fit⟩ := level _ (row_length covered s inside)
    rw [padTo_full zero _ _ s axis longest.symm]
    by_cases first : nt.cutDim = 0
    · rw [first,narrowFirst,dif_pos (by omega)]
      exact s.narrow_all 0 _ (by omega) le_rfl
    · rw [narrowFirst,dif_pos (by omega)]
      exact s.narrow_all 0 _ (by omega) (row_first covered s inside first ▸ fit)

omit covered inside in
/-- The extents of a sample that was padded and cut in different dimensions. -/
theorem restore_extents (apart : nt.cutDim ≠ 0) (axis : nt.cutDim < s.shape.length) :
    (nt.restore zero s).extent nt.cutDim = s.extent nt.cutDim + (nt.lengths.foldl max 0 - s.extent nt.cutDim) ∧
      (nt.restore zero s).extent 0 = min (s.extent nt.cutDim) (s.extent 0) ∧
      (nt.restore zero s).shape.length = s.shape.length := by
  have first : 0 < (padTo zero nt.cutDim (nt.lengths.foldl max 0) s axis).shape.length := by
    rw [padTo_shape,List.length_set]
    omega
  have shape : (nt.restore zero s).shape =
      (s.shape.set nt.cutDim (s.extent nt.cutDim + (nt.lengths.foldl max 0 - s.extent nt.cutDim))).set 0
        (min (s.extent nt.cutDim) (s.extent 0)) := by
    have extent : (padTo zero nt.cutDim (nt.lengths.foldl max 0) s axis).extent 0 = s.extent 0 := by
      rw [ShapedTensor.extent,padTo_shape,ShapedTensor.extent_set_other _ _ _ _ (Ne.symm apart)]
      rfl
    rw [restore,dif_pos axis,narrowFirst_shape _ _ first,extent,padTo_shape]
  refine ⟨?_,?_,by rw [shape,List.length_set,List.length_set]⟩
  · rw [ShapedTensor.extent,shape,ShapedTensor.extent_set_other _ _ _ _ apart,ShapedTensor.extent_set _ _ _ axis]
  · rw [ShapedTensor.extent,shape,ShapedTensor.extent_set]
    rw [List.length_set]
    omega

end Nested

end Padding

end Jagged
