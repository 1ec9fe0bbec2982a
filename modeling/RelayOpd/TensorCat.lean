import RelayOpd.Chunks
import RelayOpd.Ragged

/-! Row-major tensors cut along one dimension into parts of any sizes, and the concatenation
that puts the parts together again. -/
namespace TensorCat

structure ShapedTensor (α : Type) where
  shape : List Nat
  data : List α
  size : data.length = shape.prod
deriving DecidableEq

namespace ShapedTensor

variable {α : Type}

theorem ext_data {t u : ShapedTensor α} (shapes : t.shape = u.shape) (datas : t.data = u.data) : t = u := by
  cases t; cases u; simp_all

theorem map_size (f : α → β) (t : ShapedTensor α) : (t.data.map f).length = t.shape.prod := by
  rw [List.length_map,t.size]

protected def map (f : α → β) (t : ShapedTensor α) : ShapedTensor β := ⟨t.shape,t.data.map f,map_size f t⟩

theorem vector_size (xs : List α) : xs.length = [xs.length].prod := by simp

/-- `np.array(xs)`. -/
def vector (xs : List α) : ShapedTensor α := ⟨[xs.length],xs,vector_size xs⟩

def extent (t : ShapedTensor α) (d : Nat) : Nat := t.shape.getD d 1

/-- The number of positions before dimension `d`, and the size of one step along it. -/
def outer (t : ShapedTensor α) (d : Nat) : Nat := (t.shape.take d).prod

def inner (t : ShapedTensor α) (d : Nat) : Nat := (t.shape.drop (d + 1)).prod

/-- The entries below the `o`-th position before dimension `d`. -/
def block (t : ShapedTensor α) (d o : Nat) : List α := Chunks.chunk (t.extent d * t.inner d) t.data o

theorem prod_eq (t : ShapedTensor α) (d : Nat) (axis : d < t.shape.length) :
    t.shape.prod = t.outer d * (t.extent d * t.inner d) := by
  have whole := List.prod_take_mul_prod_drop t.shape d
  rw [List.drop_eq_getElem_cons axis,List.prod_cons] at whole
  simpa [outer,extent,inner,axis] using whole.symm

theorem block_length (t : ShapedTensor α) (d o : Nat) (axis : d < t.shape.length) (inside : o < t.outer d) :
    (t.block d o).length = t.extent d * t.inner d :=
  Chunks.chunk_length (t.outer d) _ t.data (by rw [t.size,t.prod_eq d axis]) o inside

theorem blocks_flatten (t : ShapedTensor α) (d : Nat) (axis : d < t.shape.length) :
    (List.range (t.outer d)).flatMap (t.block d) = t.data := by
  have whole := Chunks.chunks_flatten (t.outer d) (t.extent d * t.inner d) t.data
  rw [← t.prod_eq d axis,← t.size,List.take_length] at whole
  exact whole

theorem flatMap_length (count size : Nat) (row : Nat → List α) (equal : ∀ o, o < count → (row o).length = size) :
    ((List.range count).flatMap row).length = count * size := by
  have rows := Chunks.flatten_length size ((List.range count).map row) (by simpa using equal)
  simpa [List.flatMap] using rows

theorem set_prod (t : ShapedTensor α) (d n : Nat) (axis : d < t.shape.length) :
    (t.shape.set d n).prod = t.outer d * (n * t.inner d) := by
  rw [List.set_eq_take_append_cons_drop,if_pos axis]
  simp [outer,inner]

/-- One row of a part. -/
def cutBlock (t : ShapedTensor α) (d start len o : Nat) : List α :=
  ((t.block d o).drop (start * t.inner d)).take (len * t.inner d)

theorem cutBlock_length (t : ShapedTensor α) (d start len o : Nat) (axis : d < t.shape.length) (inside : o < t.outer d) :
    (t.cutBlock d start len o).length = min len (t.extent d - start) * t.inner d := by
  simp only [cutBlock,List.length_take,List.length_drop,t.block_length d o axis inside,← Nat.sub_mul,
    Nat.mul_min_mul_right]

theorem narrow_size (t : ShapedTensor α) (d start len : Nat) (axis : d < t.shape.length) :
    ((List.range (t.outer d)).flatMap (t.cutBlock d start len)).length =
      (t.shape.set d (min len (t.extent d - start))).prod := by
  rw [t.set_prod d _ axis]
  exact flatMap_length _ _ _ (fun o inside => t.cutBlock_length d start len o axis inside)

/-- The positions from `start` on along dimension `d`, `len` of them at most. -/
def narrow (t : ShapedTensor α) (d start len : Nat) (axis : d < t.shape.length) : ShapedTensor α :=
  ⟨t.shape.set d (min len (t.extent d - start)),(List.range (t.outer d)).flatMap (t.cutBlock d start len),
    t.narrow_size d start len axis⟩

theorem narrow_map (f : α → α) (t : ShapedTensor α) (d start len : Nat) (axis : d < t.shape.length)
    (fixed : ∀ x ∈ t.data, f x = x) : (t.narrow d start len axis).map f = t.narrow d start len axis := by
  have kept : ∀ x ∈ (t.narrow d start len axis).data, f x = x := by
    intro x member
    obtain ⟨o,_,cut⟩ := List.mem_flatMap.mp member
    exact fixed x (List.mem_of_mem_drop (List.mem_of_mem_take (List.mem_of_mem_drop (List.mem_of_mem_take cut))))
  exact ext_data rfl ((List.map_congr_left kept).trans (List.map_id _))

theorem narrow_extent (t : ShapedTensor α) (d start len : Nat) (axis : d < t.shape.length)
    (inside : start + len ≤ t.extent d) : (t.narrow d start len axis).extent d = len := by
  have all : min len (t.extent d - start) = len := by omega
  simp [narrow,extent,axis] at all ⊢
  exact all

theorem narrow_inner (t : ShapedTensor α) (d start len : Nat) (axis : d < t.shape.length) :
    (t.narrow d start len axis).inner d = t.inner d := by
  simp only [inner,narrow]
  rw [List.drop_set_of_lt (by omega)]

theorem narrow_block (t : ShapedTensor α) (d start len o : Nat) (axis : d < t.shape.length) (place : o < t.outer d)
    (inside : start + len ≤ t.extent d) : (t.narrow d start len axis).block d o = t.cutBlock d start len o := by
  have all : min len (t.extent d - start) = len := by omega
  have rows : ∀ row ∈ (List.range (t.outer d)).map (t.cutBlock d start len), row.length = len * t.inner d := by
    intro row member
    obtain ⟨i,below,rfl⟩ := List.mem_map.mp member
    rw [t.cutBlock_length d start len i axis (List.mem_range.mp below),all]
  have read := Chunks.chunk_flatten (len * t.inner d) _ rows o (by simpa using place)
  have same := t.narrow_inner d start len axis
  rw [block,t.narrow_extent d start len axis inside,same]
  simpa [narrow,List.flatMap] using read

theorem narrow_outer (t : ShapedTensor α) (d start len : Nat) (axis : d < t.shape.length) :
    (t.narrow d start len axis).outer d = t.outer d := by
  simp only [outer,narrow]
  rw [List.take_set_of_le (Nat.le_refl d)]

theorem narrow_axis (t : ShapedTensor α) (d start len : Nat) (axis : d < t.shape.length) :
    d < (t.narrow d start len axis).shape.length := by
  rw [narrow,List.length_set]
  exact axis

theorem extent_set (shape : List Nat) (d n : Nat) (axis : d < shape.length) : (shape.set d n).getD d 1 = n := by
  rw [List.getD_eq_getElem _ _ (by simpa using axis),List.getElem_set_self]

theorem extent_set_other (shape : List Nat) (d e n : Nat) (apart : e ≠ d) : (shape.set d n).getD e 1 = shape.getD e 1 := by
  rw [List.getD_eq_getElem?_getD,List.getD_eq_getElem?_getD,List.getElem?_set_ne (Ne.symm apart)]

/-- A window of a window. -/
theorem narrow_narrow (t : ShapedTensor α) (d start len start' len' : Nat) (axis : d < t.shape.length)
    (outside : start + len ≤ t.extent d) (inside : start' + len' ≤ len) :
    (t.narrow d start len axis).narrow d start' len' (t.narrow_axis d start len axis) =
      t.narrow d (start + start') len' axis := by
  have extents := t.narrow_extent d start len axis outside
  apply ext_data
  · change ((t.narrow d start len axis).shape.set d (min len' ((t.narrow d start len axis).extent d - start'))) =
      t.shape.set d (min len' (t.extent d - (start + start')))
    rw [extents,Nat.min_eq_left (by omega),Nat.min_eq_left (by omega),narrow,List.set_set]
  · change (List.range ((t.narrow d start len axis).outer d)).flatMap _ = (List.range (t.outer d)).flatMap _
    rw [t.narrow_outer d start len axis]
    refine List.flatMap_congr (fun o place => ?_)
    have width := Nat.mul_le_mul_right (t.inner d) inside
    rw [Nat.add_mul] at width
    rw [cutBlock,cutBlock,t.narrow_inner d start len axis,
      t.narrow_block d start len o axis (List.mem_range.mp place) outside,cutBlock,List.drop_take,List.take_take,
      List.drop_drop,← Nat.add_mul,Nat.min_eq_left (by omega)]

/-- The window over everything. -/
theorem narrow_all (t : ShapedTensor α) (d len : Nat) (axis : d < t.shape.length) (whole : t.extent d ≤ len) :
    t.narrow d 0 len axis = t := by
  apply ext_data
  · change t.shape.set d (min len (t.extent d - 0)) = t.shape
    rw [Nat.sub_zero,Nat.min_eq_right whole,extent,List.getD_eq_getElem _ _ axis,List.set_getElem_self]
  · conv_rhs => rw [← t.blocks_flatten d axis]
    refine List.flatMap_congr (fun o place => ?_)
    have length := t.block_length d o axis (List.mem_range.mp place)
    rw [cutBlock,Nat.zero_mul,List.drop_zero,List.take_of_length_le]
    rw [length]
    exact Nat.mul_le_mul_right _ whole

/-- The `r`-th of the parts of the given sizes. -/
def part (t : ShapedTensor α) (d : Nat) (axis : d < t.shape.length) (sizes : List Nat) (r : Nat) : ShapedTensor α :=
  t.narrow d (Ragged.start sizes r) (Ragged.len sizes r) axis

end ShapedTensor

variable {α : Type}

def Fits (d : Nat) (t u : ShapedTensor α) : Prop := u.shape = t.shape.set d (u.extent d)

def catExtent (d : Nat) (ts : List (ShapedTensor α)) : Nat := (ts.map (ShapedTensor.extent · d)).sum

def catRow (d : Nat) (ts : List (ShapedTensor α)) (o : Nat) : List α := ts.flatMap (ShapedTensor.block · d o)

theorem Fits.inner {d : Nat} {t u : ShapedTensor α} (fits : Fits d t u) : u.inner d = t.inner d := by
  rw [ShapedTensor.inner,fits,List.drop_set_of_lt (by omega),ShapedTensor.inner]

theorem Fits.outer {d : Nat} {t u : ShapedTensor α} (fits : Fits d t u) : u.outer d = t.outer d := by
  rw [ShapedTensor.outer,fits,List.take_set_of_le (Nat.le_refl d),ShapedTensor.outer]

theorem Fits.axis {d : Nat} {t u : ShapedTensor α} (fits : Fits d t u) (axis : d < t.shape.length) : d < u.shape.length := by
  rw [fits,List.length_set]
  exact axis

theorem catRow_length (d : Nat) (t : ShapedTensor α) (ts : List (ShapedTensor α)) (axis : d < t.shape.length)
    (fits : ∀ u ∈ ts, Fits d t u) (o : Nat) (inside : o < t.outer d) :
    (catRow d ts o).length = catExtent d ts * t.inner d := by
  induction ts with
  | nil => simp [catRow,catExtent]
  | cons u ts ih =>
    have head := fits u List.mem_cons_self
    have rest := ih (fun v later => fits v (List.mem_cons_of_mem u later))
    have own := u.block_length d o (head.axis axis) (by rw [head.outer]; exact inside)
    simp only [catRow,catExtent,List.flatMap_cons,List.length_append,List.map_cons,List.sum_cons,Nat.add_mul] at rest ⊢
    rw [own,rest,head.inner]

theorem cat_size (d : Nat) (t : ShapedTensor α) (ts : List (ShapedTensor α)) (axis : d < t.shape.length)
    (fits : ∀ u ∈ ts, Fits d t u) :
    ((List.range (t.outer d)).flatMap (catRow d ts)).length = (t.shape.set d (catExtent d ts)).prod := by
  rw [t.set_prod d _ axis]
  exact ShapedTensor.flatMap_length _ _ _ (fun o inside => catRow_length d t ts axis fits o inside)

/-- The tensors side by side along dimension `d`, in the shape of `t` elsewhere. -/
def joined (d : Nat) (t : ShapedTensor α) (ts : List (ShapedTensor α)) (axis : d < t.shape.length)
    (fits : ∀ u ∈ ts, Fits d t u) : ShapedTensor α :=
  ⟨t.shape.set d (catExtent d ts),(List.range (t.outer d)).flatMap (catRow d ts),cat_size d t ts axis fits⟩

theorem joined_axis (d : Nat) (t : ShapedTensor α) (ts : List (ShapedTensor α)) (axis : d < t.shape.length)
    (fits : ∀ u ∈ ts, Fits d t u) : d < (joined d t ts axis fits).shape.length := by
  rw [joined,List.length_set]
  exact axis

theorem joined_block (d : Nat) (t : ShapedTensor α) (ts : List (ShapedTensor α)) (axis : d < t.shape.length)
    (fits : ∀ u ∈ ts, Fits d t u) (o : Nat) (inside : o < t.outer d) :
    (joined d t ts axis fits).block d o = catRow d ts o := by
  have rows : ∀ row ∈ (List.range (t.outer d)).map (catRow d ts), row.length = catExtent d ts * t.inner d := by
    intro row member
    obtain ⟨i,below,rfl⟩ := List.mem_map.mp member
    exact catRow_length d t ts axis fits i (List.mem_range.mp below)
  have read := Chunks.chunk_flatten (catExtent d ts * t.inner d) _ rows o (by simpa using inside)
  have inner : (joined d t ts axis fits).inner d = t.inner d := by
    simp only [ShapedTensor.inner,joined]
    rw [List.drop_set_of_lt (by omega)]
  have extent : (joined d t ts axis fits).extent d = catExtent d ts := ShapedTensor.extent_set t.shape d _ axis
  rw [ShapedTensor.block,inner,extent]
  simpa [joined,List.flatMap] using read

/-- The part of a joined row that came from one tensor. -/
theorem catRow_part (d o width : Nat) (ts : List (ShapedTensor α))
    (blocks : ∀ u ∈ ts, (u.block d o).length = u.extent d * width) (r : Nat) (below : r < ts.length) :
    ((catRow d ts o).drop (Ragged.start (ts.map (ShapedTensor.extent · d)) r * width)).take
      (Ragged.len (ts.map (ShapedTensor.extent · d)) r * width) = ts[r].block d o := by
  induction ts generalizing r with
  | nil => cases below
  | cons u ts ih =>
    have own := blocks u List.mem_cons_self
    cases r with
    | zero => simp [catRow,Ragged.len,← own]
    | succ r =>
      have rest := ih (fun v later => blocks v (List.mem_cons_of_mem u later)) r (by simpa using below)
      have start : Ragged.start ((u :: ts).map (ShapedTensor.extent · d)) (r + 1) * width =
          (u.block d o).length + Ragged.start (ts.map (ShapedTensor.extent · d)) r * width := by
        rw [own,← Nat.add_mul]
        rfl
      rw [start,catRow,List.flatMap_cons,List.drop_append,List.drop_eq_nil_of_le (Nat.le_add_right _ _),
        Nat.add_sub_cancel_left,List.nil_append]
      exact rest

/-- A tensor is found again among the joined ones. -/
theorem part_joined (d : Nat) (t : ShapedTensor α) (ts : List (ShapedTensor α)) (axis : d < t.shape.length)
    (fits : ∀ u ∈ ts, Fits d t u) (r : Nat) (below : r < ts.length) :
    (joined d t ts axis fits).part d (joined_axis d t ts axis fits) (ts.map (ShapedTensor.extent · d)) r = ts[r] := by
  have own := fits ts[r] (List.getElem_mem below)
  have extent : (joined d t ts axis fits).extent d = catExtent d ts := ShapedTensor.extent_set t.shape d _ axis
  have outer : (joined d t ts axis fits).outer d = t.outer d := by
    simp only [ShapedTensor.outer,joined]
    rw [List.take_set_of_le (Nat.le_refl d)]
  have inner : (joined d t ts axis fits).inner d = t.inner d := by
    simp only [ShapedTensor.inner,joined]
    rw [List.drop_set_of_lt (by omega)]
  have len : Ragged.len (ts.map (ShapedTensor.extent · d)) r = ts[r].extent d := by
    rw [Ragged.len_of_bound _ r (by simpa using below),List.getElem_map]
  have inside : Ragged.start (ts.map (ShapedTensor.extent · d)) r + ts[r].extent d ≤ catExtent d ts := by
    rw [← len,← Ragged.start_succ _ r (by simpa using below),Ragged.start]
    exact (List.take_sublist (r + 1) _).sum_le_sum (by simp)
  apply ShapedTensor.ext_data
  · change (t.shape.set d _).set d (min (Ragged.len _ r) ((joined d t ts axis fits).extent d - _)) = ts[r].shape
    rw [List.set_set,extent,len,Nat.min_eq_left (by omega)]
    exact own.symm
  · conv_rhs => rw [← ts[r].blocks_flatten d (own.axis axis),own.outer]
    change (List.range ((joined d t ts axis fits).outer d)).flatMap _ = _
    rw [outer]
    refine List.flatMap_congr (fun o place => ?_)
    have row := List.mem_range.mp place
    rw [ShapedTensor.cutBlock,inner,joined_block d t ts axis fits o row]
    refine catRow_part d o (t.inner d) ts (fun u member => ?_) r below
    have fit := fits u member
    rw [u.block_length d o (fit.axis axis) (by rw [fit.outer]; exact row),fit.inner]

theorem nothing_size : ([] : List α).length = [0].prod := rfl

def nothing : ShapedTensor α := ⟨[0],[],nothing_size⟩

instance (d : Nat) (t : ShapedTensor α) (ts : List (ShapedTensor α)) : Decidable (∀ u ∈ ts, Fits d t u) :=
  inferInstanceAs (Decidable (∀ u ∈ ts, u.shape = t.shape.set d (u.extent d)))

/-- `torch.cat(ts, dim=d)`, which passes over tensors of shape `(0,)`. -/
def cat (d : Nat) (ts : List (ShapedTensor α)) : Except String (ShapedTensor α) :=
  if ts = [] then .error "torch.cat(): expected a non-empty list of Tensors"
  else if ts.any (fun t => t.shape.isEmpty) then .error "zero-dimensional tensor cannot be concatenated"
  else match ts.filter (fun t => t.shape ≠ [0]) with
    | [] => .ok nothing
    | t :: rest =>
      if axis : d < t.shape.length then
        if fits : ∀ u ∈ t :: rest, Fits d t u then .ok (joined d t (t :: rest) axis fits)
        else .error s!"Sizes of tensors must match except in dimension {d}"
      else .error "Dimension out of range"

theorem empty_extent (u : ShapedTensor α) (d : Nat) (axis : d < u.shape.length) (empty : u.shape = [0]) : u.extent d = 0 := by
  rw [empty] at axis
  obtain rfl : d = 0 := by simpa using axis
  rw [ShapedTensor.extent,empty]
  rfl

theorem empty_block (u : ShapedTensor α) (d o : Nat) (axis : d < u.shape.length) (empty : u.shape = [0]) :
    u.block d o = [] := by
  rw [ShapedTensor.block,empty_extent u d axis empty,Nat.zero_mul,Chunks.chunk,List.take_zero]

section Filter

variable (d : Nat) (ts : List (ShapedTensor α)) (axes : ∀ u ∈ ts, d < u.shape.length)
include axes

theorem catExtent_filter : catExtent d (ts.filter (fun t => t.shape ≠ [0])) = catExtent d ts := by
  induction ts with
  | nil => rfl
  | cons u ts ih =>
    have rest := ih (fun v later => axes v (List.mem_cons_of_mem u later))
    by_cases empty : u.shape = [0]
    · have none := empty_extent u d (axes u List.mem_cons_self) empty
      simp [catExtent,empty,none] at rest ⊢
      exact rest
    · simp [catExtent,empty] at rest ⊢
      exact rest

theorem catRow_filter (o : Nat) : catRow d (ts.filter (fun t => t.shape ≠ [0])) o = catRow d ts o := by
  induction ts with
  | nil => rfl
  | cons u ts ih =>
    have rest := ih (fun v later => axes v (List.mem_cons_of_mem u later))
    by_cases empty : u.shape = [0]
    · have none := empty_block u d o (axes u List.mem_cons_self) empty
      simp [catRow,empty,none] at rest ⊢
      exact rest
    · simp [catRow,empty] at rest ⊢
      exact rest

end Filter

theorem Fits.trans {d : Nat} {t u v : ShapedTensor α} (left : Fits d t u) (right : Fits d t v) : Fits d u v := by
  rw [Fits,left,List.set_set]
  exact right

/-- Parts that agree with `t` outside dimension `d` are joined, empty ones included. -/
theorem cat_ok (d : Nat) (t : ShapedTensor α) (ts : List (ShapedTensor α)) (some : ts ≠ []) (axis : d < t.shape.length)
    (fits : ∀ u ∈ ts, Fits d t u) : cat d ts = .ok (joined d t ts axis fits) := by
  have axes : ∀ u ∈ ts, d < u.shape.length := fun u member => (fits u member).axis axis
  have dims : ts.any (fun t => t.shape.isEmpty) = false := by
    apply List.any_eq_false.mpr
    intro u member scalar
    have long := axes u member
    rw [List.isEmpty_iff.mp scalar] at long
    exact Nat.not_lt_zero d long
  have extents := catExtent_filter d ts axes
  have rows := catRow_filter d ts axes
  rw [cat,if_neg some,dims,if_neg (by simp)]
  cases kept : ts.filter (fun t => t.shape ≠ [0]) with
  | nil =>
    obtain ⟨u,member⟩ := List.exists_mem_of_ne_nil ts some
    have empty : u.shape = [0] := by simpa using List.filter_eq_nil_iff.mp kept u member
    have one : t.shape.length = 1 := by
      have lengths := congrArg List.length (fits u member)
      rw [empty,List.length_set] at lengths
      exact lengths.symm
    obtain rfl : d = 0 := by omega
    obtain ⟨n,single⟩ := List.length_eq_one_iff.mp one
    rw [kept] at extents
    have shape : (joined 0 t ts axis fits).shape = [0] := by
      change t.shape.set 0 (catExtent 0 ts) = [0]
      rw [single,← extents]
      rfl
    have data : (joined 0 t ts axis fits).data = [] := by
      apply List.length_eq_zero_iff.mp
      rw [(joined 0 t ts axis fits).size,shape]
      rfl
    exact congrArg _ (ShapedTensor.ext_data shape.symm data.symm)
  | cons v rest =>
    have within : ∀ u ∈ v :: rest, u ∈ ts := by
      intro u member
      rw [← kept] at member
      exact List.mem_of_mem_filter member
    have first := fits v (within v List.mem_cons_self)
    have all : ∀ u ∈ v :: rest, Fits d v u := fun u member => first.trans (fits u (within u member))
    rw [kept] at extents rows
    simp only [dif_pos (first.axis axis),dif_pos all]
    have shapes : (joined d v (v :: rest) (first.axis axis) all).shape = (joined d t ts axis fits).shape := by
      change v.shape.set d _ = t.shape.set d _
      rw [extents,first,List.set_set]
    have datas : (joined d v (v :: rest) (first.axis axis) all).data = (joined d t ts axis fits).data := by
      change (List.range (v.outer d)).flatMap (catRow d (v :: rest)) = _
      rw [first.outer,funext rows]
      rfl
    exact congrArg _ (ShapedTensor.ext_data shapes datas)

/-- A concatenation of tensors none of which is passed over. -/
theorem cat_made (d : Nat) (t u : ShapedTensor α) (ts : List (ShapedTensor α)) (made : cat d (t :: ts) = .ok u)
    (solid : ∀ v ∈ t :: ts, v.shape ≠ [0]) :
    ∃ (axis : d < t.shape.length) (fits : ∀ v ∈ t :: ts, Fits d t v), u = joined d t (t :: ts) axis fits := by
  have all : (t :: ts).filter (fun v => v.shape ≠ [0]) = t :: ts :=
    List.filter_eq_self.mpr (fun v member => decide_eq_true (solid v member))
  unfold cat at made
  rw [if_neg (List.cons_ne_nil t ts),all] at made
  split at made
  · cases made
  · dsimp only at made
    split at made
    · rename_i axis
      split at made
      · rename_i fits
        exact ⟨axis,fits,(Except.ok.inj made).symm⟩
      · cases made
    · cases made

theorem joined_eq (d : Nat) (t : ShapedTensor α) (ts : List (ShapedTensor α)) (axis : d < t.shape.length)
    (fits : ∀ u ∈ ts, Fits d t u) (extents : catExtent d ts = t.extent d)
    (rows : ∀ o, o < t.outer d → catRow d ts o = t.block d o) : joined d t ts axis fits = t := by
  apply ShapedTensor.ext_data
  · change t.shape.set d _ = t.shape
    rw [extents,ShapedTensor.extent,List.getD_eq_getElem _ _ axis,List.set_getElem_self]
  · change (List.range (t.outer d)).flatMap (catRow d ts) = t.data
    rw [← t.blocks_flatten d axis]
    exact List.flatMap_congr (fun o place => rows o (List.mem_range.mp place))

section Parts

variable (t : ShapedTensor α) (d : Nat) (axis : d < t.shape.length) (sizes : List Nat)

theorem part_inside (r : Nat) (below : r < sizes.length) (cover : sizes.sum = t.extent d) :
    Ragged.start sizes r + Ragged.len sizes r ≤ t.extent d := by
  rw [← Ragged.start_succ sizes r below,← cover,Ragged.start]
  exact (List.take_sublist (r + 1) sizes).sum_le_sum (by simp)

theorem part_fits (r : Nat) (below : r < sizes.length) (cover : sizes.sum = t.extent d) :
    Fits d t (t.part d axis sizes r) := by
  have inside := part_inside t d sizes r below cover
  rw [Fits,ShapedTensor.part,t.narrow_extent d _ _ axis inside]
  change t.shape.set d (min (Ragged.len sizes r) _) = _
  rw [Nat.min_eq_left (by omega)]

theorem take_parts (xs : List α) (width count : Nat) (below : count ≤ sizes.length) :
    (List.range count).flatMap (fun r => (xs.drop (Ragged.start sizes r * width)).take (Ragged.len sizes r * width)) =
      xs.take (Ragged.start sizes count * width) := by
  induction count with
  | zero => simp
  | succ count ih =>
    rw [List.range_succ,List.flatMap_append,ih (by omega),List.flatMap_singleton,
      Ragged.start_succ sizes count (by omega),Nat.add_mul,List.take_add]

/-- The concatenation puts the parts together again. -/
theorem cat_parts (some : sizes ≠ []) (cover : sizes.sum = t.extent d) :
    cat d ((List.range sizes.length).map (t.part d axis sizes)) = .ok t := by
  have fits : ∀ u ∈ (List.range sizes.length).map (t.part d axis sizes), Fits d t u := by
    intro u member
    obtain ⟨r,below,rfl⟩ := List.mem_map.mp member
    exact part_fits t d axis sizes r (List.mem_range.mp below) cover
  have filled : (List.range sizes.length).map (t.part d axis sizes) ≠ [] := by simpa using some
  have extents : catExtent d ((List.range sizes.length).map (t.part d axis sizes)) = t.extent d := by
    have each : ∀ r ∈ List.range sizes.length, (t.part d axis sizes r).extent d = Ragged.len sizes r :=
      fun r member => t.narrow_extent d _ _ axis (part_inside t d sizes r (List.mem_range.mp member) cover)
    have lens : (List.range sizes.length).map (Ragged.len sizes) = sizes :=
      List.ext_getElem (by simp) (fun r _ below => by simp [Ragged.len_of_bound sizes r below])
    rw [catExtent,List.map_map,← cover]
    exact congrArg List.sum ((List.map_congr_left each).trans lens)
  rw [cat_ok d t _ filled axis fits]
  apply congrArg Except.ok
  apply joined_eq d t _ axis fits extents
  intro o place
  have cuts : ∀ r ∈ List.range sizes.length, (t.part d axis sizes r).block d o =
      ((t.block d o).drop (Ragged.start sizes r * t.inner d)).take (Ragged.len sizes r * t.inner d) :=
    fun r member => t.narrow_block d _ _ o axis place
      (part_inside t d sizes r (List.mem_range.mp member) cover)
  rw [catRow,List.flatMap_map,List.flatMap_congr cuts,take_parts sizes _ _ _ (Nat.le_refl _)]
  have length := t.block_length d o axis place
  rw [Ragged.start,List.take_length,cover,← length,List.take_length]

end Parts

/-- A concatenation returns `t` only when the extents add up to its own. -/
theorem cat_extent (d : Nat) (t : ShapedTensor α) (ts : List (ShapedTensor α)) (some : ts ≠ []) (axis : d < t.shape.length)
    (fits : ∀ u ∈ ts, Fits d t u) (whole : cat d ts = .ok t) : catExtent d ts = t.extent d := by
  rw [cat_ok d t ts some axis fits] at whole
  have shapes := congrArg (ShapedTensor.extent · d) (Except.ok.inj whole)
  simpa [joined,ShapedTensor.extent,axis] using shapes

theorem fits_self (d : Nat) (t : ShapedTensor α) (axis : d < t.shape.length) : Fits d t t := by
  rw [Fits,ShapedTensor.extent,List.getD_eq_getElem _ _ axis,List.set_getElem_self]

/-- Copies of one tensor make the tensor itself when there is one copy, or nothing to copy. -/
theorem cat_copies (d count : Nat) (t : ShapedTensor α) (some : 0 < count) (axis : d < t.shape.length) :
    cat d (List.replicate count t) = .ok t ↔ count = 1 ∨ t.extent d = 0 := by
  have fits : ∀ u ∈ List.replicate count t, Fits d t u := by
    intro u copy
    rw [List.eq_of_mem_replicate copy]
    exact fits_self d t axis
  have filled : List.replicate count t ≠ [] := by simp; omega
  have extents : catExtent d (List.replicate count t) = count * t.extent d := by simp [catExtent]
  constructor
  · intro whole
    have total := cat_extent d t _ filled axis fits whole
    rw [extents] at total
    by_cases one : count = 1
    · exact .inl one
    · right
      have more : 2 * t.extent d ≤ count * t.extent d := Nat.mul_le_mul_right _ (by omega)
      omega
  · intro single
    have total : catExtent d (List.replicate count t) = t.extent d := by
      rw [extents]
      rcases single with rfl | empty
      · simp
      · rw [empty,Nat.mul_zero]
    rw [cat_ok d t _ filled axis fits]
    apply congrArg Except.ok
    apply joined_eq d t _ axis fits total
    intro o place
    rcases single with rfl | empty
    · simp [catRow]
    · have none : t.block d o = [] := by simp [ShapedTensor.block,empty,Chunks.chunk]
      rw [none,catRow,List.flatMap_replicate,none]
      simp

end TensorCat
