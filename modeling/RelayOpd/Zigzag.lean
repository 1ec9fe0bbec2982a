import Mathlib.Data.List.Basic
import Mathlib.Tactic.Ring

/-! Slices of a list and assignments to them, and a list cut into two chunks for each rank, one
from the front and one from the back. -/
namespace Zigzag

variable {α : Type}

/-- `xs[start : stop]`. -/
def slice (start stop : Nat) (xs : List α) : List α := (xs.take stop).drop start

/-- Rows for so many places; a single row goes to all of them. -/
def spread (size : Nat) (rows : List α) : Option (List α) :=
  if rows.length = size then some rows
  else
    match rows with
    | [row] => some (List.replicate size row)
    | _ => none

/-- `xs[start : stop] = rows`. -/
def setSlice (start stop : Nat) (rows xs : List α) : Option (List α) :=
  let size := (slice start stop xs).length
  (spread size rows).map (fun rows => xs.take start ++ rows ++ xs.drop (start + size))

/-- The chunks of every rank back in one list. -/
def gather (half full ranks : Nat) (fronts backs : Nat → List α) (empty : List α) : Option (List α) :=
  (List.range ranks).foldlM
    (fun tmp j => do
      let tmp ← setSlice (j * half) ((j + 1) * half) (fronts j) tmp
      setSlice (full - (j + 1) * half) (full - j * half) (backs j) tmp)
    empty

/-- What a rank holds of `xs`. -/
def zigzag (half full rank : Nat) (xs : List α) : List α :=
  slice (half * rank) (half * (rank + 1)) xs ++ slice (full - half * (rank + 1)) (full - half * rank) xs

/-- The rank that holds the `t`-th row, and its place there. -/
def slot (half ranks t : Nat) : Nat × Nat :=
  if t / half < ranks then (t / half,t % half) else (2 * ranks - 1 - t / half,half + t % half)

theorem slice_getElem? (start stop : Nat) (xs : List α) (k : Nat) :
    (slice start stop xs)[k]? = if start + k < stop then xs[start + k]? else none := by
  rw [slice,List.getElem?_drop,List.getElem?_take]

theorem slice_length (start stop : Nat) (xs : List α) : (slice start stop xs).length = min stop xs.length - start := by
  rw [slice,List.length_drop,List.length_take]

theorem slice_map {β : Type} (f : α → β) (start stop : Nat) (xs : List α) :
    slice start stop (xs.map f) = (slice start stop xs).map f := by
  rw [slice,slice,List.map_drop,List.map_take]

theorem slice_append_left (start stop : Nat) (xs ys : List α) (within : stop ≤ xs.length) :
    slice start stop (xs ++ ys) = slice start stop xs := by
  rw [slice,slice,List.take_append_of_le_length within]

theorem take_slice (start stop : Nat) (xs : List α) (le : start ≤ stop) :
    xs.take start ++ slice start stop xs = xs.take stop := by
  have front : xs.take start = (xs.take stop).take start := by rw [List.take_take,Nat.min_eq_left le]
  rw [front,slice,List.take_append_drop]

theorem slice_drop (start stop : Nat) (xs : List α) (le : start ≤ stop) :
    slice start stop xs ++ xs.drop stop = xs.drop start := by
  by_cases within : stop ≤ xs.length
  · have whole : xs.drop start = (xs.take stop ++ xs.drop stop).drop start := by rw [List.take_append_drop]
    rw [whole,List.drop_append_of_le_length (by rw [List.length_take]; omega),slice]
  · have overrun : xs.length ≤ stop := Nat.le_of_not_le within
    rw [slice,List.take_of_length_le overrun,List.drop_of_length_le overrun,List.append_nil]

/-- A slice inside the middle of a list is a slice of the middle. -/
theorem slice_middle (start stop : Nat) (front mid back : List α) (within : stop ≤ mid.length) :
    slice (front.length + start) (front.length + stop) (front ++ mid ++ back) = slice start stop mid := by
  rw [slice,slice,List.append_assoc,List.take_length_add_append,List.take_append_of_le_length within,
    List.drop_length_add_append]

theorem spread_exact (rows : List α) : spread rows.length rows = some rows := if_pos rfl

theorem spread_single (size : Nat) (row : α) : spread size [row] = some (List.replicate size row) := by
  unfold spread
  split
  · rename_i one
    rw [← one]
    rfl
  · rfl

theorem spread_length {size : Nat} {rows out : List α} (given : spread size rows = some out) : out.length = size := by
  unfold spread at given
  split at given
  · obtain rfl := Option.some.inj given
    assumption
  · split at given
    · obtain rfl := Option.some.inj given
      exact List.length_replicate
    · nomatch given

/-- Which rows can be assigned to so many places. -/
theorem spread_isSome (size : Nat) (rows : List α) : (spread size rows).isSome = true ↔ rows.length = size ∨ rows.length = 1 := by
  unfold spread
  split
  · rename_i same
    simp [same]
  · rename_i other
    match rows with
    | [] => simp_all
    | [row] => simp
    | _ :: _ :: _ => simp_all

/-- Slices that follow one another. -/
theorem slice_slice (start mid stop : Nat) (xs : List α) (first : start ≤ mid) (second : mid ≤ stop) :
    slice start mid xs ++ slice mid stop xs = slice start stop xs := by
  have inner : slice start mid (xs.take stop) = slice start mid xs := by
    rw [slice,slice,List.take_take,Nat.min_eq_left second]
  rw [← inner]
  exact slice_drop start mid (xs.take stop) first

/-- An assignment to the middle of a list. -/
theorem setSlice_middle (front mid back rows : List α) :
    setSlice front.length (front.length + mid.length) rows (front ++ mid ++ back) =
      (spread mid.length rows).map (fun rows => front ++ rows ++ back) := by
  have size : (slice front.length (front.length + mid.length) (front ++ mid ++ back)).length = mid.length := by
    have inner := slice_middle 0 mid.length front mid back (Nat.le_refl _)
    rw [Nat.add_zero] at inner
    rw [inner,slice,List.take_length,List.drop_zero]
  rw [setSlice,size]
  have before : (front ++ mid ++ back).take front.length = front := by
    rw [List.append_assoc,List.take_left]
  have after : (front ++ mid ++ back).drop (front.length + mid.length) = back := by
    rw [← List.length_append,List.drop_left]
  rw [before,after]

theorem setSlice_eq (start stop : Nat) (front mid back rows : List α) (before : front.length = start)
    (after : start + mid.length = stop) (size : rows.length = mid.length) :
    setSlice start stop rows (front ++ mid ++ back) = some (front ++ rows ++ back) := by
  rw [← after,← before,setSlice_middle,← size,spread_exact]
  rfl

theorem setSlice_length {start stop : Nat} {rows xs out : List α} (given : setSlice start stop rows xs = some out) :
    out.length = xs.length := by
  obtain ⟨written,spread_,rfl⟩ := Option.map_eq_some_iff.mp given
  have size := spread_length spread_
  simp only [List.length_append,List.length_take,List.length_drop,size,slice_length]
  omega

/-- An assignment of as many rows as there are places. -/
theorem setSlice_exact (start stop : Nat) (rows xs : List α) (within : stop ≤ xs.length) (size : rows.length = stop - start) :
    ∃ out, setSlice start stop rows xs = some out ∧ out.length = xs.length := by
  have places : (slice start stop xs).length = rows.length := by
    rw [slice_length,size,Nat.min_eq_left within]
  obtain ⟨out,given⟩ : ∃ out, setSlice start stop rows xs = some out := by
    rw [setSlice,places,spread_exact]
    exact ⟨_,rfl⟩
  exact ⟨out,given,setSlice_length given⟩

/-- After `j` ranks the front and the back of the list are there. -/
theorem gather_front (half ranks : Nat) (xs empty : List α) (fronts backs : Nat → List α) (size : xs.length = 2 * ranks * half)
    (blank : empty.length = xs.length) (front : ∀ j < ranks, fronts j = slice (j * half) ((j + 1) * half) xs)
    (back : ∀ j < ranks, backs j = slice (xs.length - (j + 1) * half) (xs.length - j * half) xs) (j : Nat) (le : j ≤ ranks) :
    gather half xs.length j fronts backs empty =
      some (xs.take (j * half) ++ slice (j * half) (xs.length - j * half) empty ++ xs.drop (xs.length - j * half)) := by
  induction j with
  | zero =>
    have whole : slice 0 xs.length empty = empty := by rw [← blank,slice,List.take_length,List.drop_zero]
    rw [Nat.zero_mul,Nat.sub_zero,whole,List.take_zero,List.drop_length,List.append_nil]
    rfl
  | succ j ih =>
    have inside : (j + 1) * half ≤ ranks * half := Nat.mul_le_mul_right half le
    have next : (j + 1) * half = j * half + half := Nat.succ_mul j half
    have twice : 2 * ranks * half = ranks * half + ranks * half := by rw [Nat.mul_assoc,Nat.two_mul]
    have frontSize : (xs.take (j * half)).length = j * half := by rw [List.length_take]; omega
    have frontSize' : (xs.take ((j + 1) * half)).length = (j + 1) * half := by rw [List.length_take]; omega
    have chunk : (slice (j * half) ((j + 1) * half) xs).length = half := by rw [slice_length]; omega
    have chunk' : (slice (xs.length - (j + 1) * half) (xs.length - j * half) xs).length = half := by rw [slice_length]; omega
    have hole : slice (j * half) (xs.length - j * half) empty =
        slice (j * half) ((j + 1) * half) empty ++ slice ((j + 1) * half) (xs.length - (j + 1) * half) empty ++
          slice (xs.length - (j + 1) * half) (xs.length - j * half) empty := by
      rw [slice_slice _ _ _ _ (by omega) (by omega),slice_slice _ _ _ _ (by omega) (by omega)]
    have first : (slice (j * half) ((j + 1) * half) empty).length = half := by rw [slice_length]; omega
    have last : (slice (xs.length - (j + 1) * half) (xs.length - j * half) empty).length = half := by rw [slice_length]; omega
    have both : (slice (j * half) ((j + 1) * half) empty ++ slice ((j + 1) * half) (xs.length - (j + 1) * half) empty).length =
        xs.length - (j + 1) * half - j * half := by
      rw [slice_slice _ _ _ _ (by omega) (by omega),slice_length]
      omega
    have frontSet := setSlice_eq (j * half) ((j + 1) * half) (xs.take (j * half)) (slice (j * half) ((j + 1) * half) empty)
      (slice ((j + 1) * half) (xs.length - (j + 1) * half) empty ++
        (slice (xs.length - (j + 1) * half) (xs.length - j * half) empty ++ xs.drop (xs.length - j * half)))
      (slice (j * half) ((j + 1) * half) xs) frontSize (by omega) (chunk.trans first.symm)
    have backSet := setSlice_eq (xs.length - (j + 1) * half) (xs.length - j * half) (xs.take ((j + 1) * half) ++ slice ((j + 1) * half) (xs.length - (j + 1) * half) empty)
      (slice (xs.length - (j + 1) * half) (xs.length - j * half) empty) (xs.drop (xs.length - j * half))
      (slice (xs.length - (j + 1) * half) (xs.length - j * half) xs) (by
        rw [List.length_append] at both ⊢
        omega) (by omega) (chunk'.trans last.symm)
    rw [gather,List.range_succ,List.foldlM_append,← gather,ih (Nat.le_of_succ_le le),hole,Option.bind_eq_bind,
      Option.bind_some,List.foldlM_cons,Option.bind_eq_bind,front j le,back j le]
    simp only [List.append_assoc] at frontSet backSet ⊢
    rw [frontSet,Option.bind_some,← List.append_assoc,take_slice _ _ _ (by omega),backSet,Option.bind_some,
      slice_drop _ _ _ (by omega)]
    rfl

/-- The chunks of all ranks give the list back. -/
theorem gather_zigzag (half ranks : Nat) (xs empty : List α) (fronts backs : Nat → List α) (size : xs.length = 2 * ranks * half)
    (blank : empty.length = xs.length) (front : ∀ j < ranks, fronts j = slice (j * half) ((j + 1) * half) xs)
    (back : ∀ j < ranks, backs j = slice (xs.length - (j + 1) * half) (xs.length - j * half) xs) :
    gather half xs.length ranks fronts backs empty = some xs := by
  have twice : 2 * ranks * half = ranks * half + ranks * half := by rw [Nat.mul_assoc,Nat.two_mul]
  have none_ : slice (ranks * half) (xs.length - ranks * half) empty = [] :=
    List.eq_nil_of_length_eq_zero (by rw [slice_length]; omega)
  rw [gather_front half ranks xs empty fronts backs size blank front back ranks (Nat.le_refl _),none_,List.append_nil,
    show xs.length - ranks * half = ranks * half by omega,List.take_append_drop]

/-- The two halves of what a rank holds are the chunks that are gathered. -/
theorem zigzag_halves (half ranks j : Nat) (xs : List α) (size : xs.length = 2 * ranks * half) (inside : j < ranks) :
    (zigzag half xs.length j xs).take half = slice (j * half) ((j + 1) * half) xs ∧
      (zigzag half xs.length j xs).drop half = slice (xs.length - (j + 1) * half) (xs.length - j * half) xs ∧
      (zigzag half xs.length j xs).length = 2 * half := by
  have next : half * (j + 1) = half * j + half := Nat.mul_succ half j
  have most : half * (j + 1) ≤ half * ranks := Nat.mul_le_mul_left half inside
  have twice : 2 * ranks * half = half * ranks + half * ranks := by ring
  have first : (slice (half * j) (half * (j + 1)) xs).length = half := by rw [slice_length]; omega
  have second : (slice (xs.length - half * (j + 1)) (xs.length - half * j) xs).length = half := by rw [slice_length]; omega
  rw [Nat.mul_comm j,Nat.mul_comm (j + 1),zigzag]
  exact ⟨List.take_left' first,List.drop_left' first,by rw [List.length_append,first,second,Nat.two_mul]⟩

theorem zigzag_map {β : Type} (f : α → β) (half full rank : Nat) (xs : List α) :
    zigzag half full rank (xs.map f) = (zigzag half full rank xs).map f := by
  rw [zigzag,zigzag,List.map_append,slice_map,slice_map]

/-- The rank that holds a row has it in its slot. -/
theorem zigzag_slot (half ranks t : Nat) (xs : List α) (size : xs.length = 2 * ranks * half) (inside : t < xs.length) :
    (slot half ranks t).1 < ranks ∧ (zigzag half xs.length (slot half ranks t).1 xs)[(slot half ranks t).2]? = xs[t]? := by
  have pos : 0 < half := Nat.pos_of_ne_zero (by rintro rfl; omega)
  have place := Nat.div_add_mod t half
  have below := Nat.mod_lt t pos
  have chunks : t / half < 2 * ranks := (Nat.div_lt_iff_lt_mul pos).mpr (size ▸ inside)
  obtain ⟨c,given⟩ : ∃ c, t / half = c := ⟨_,rfl⟩
  obtain ⟨k,given'⟩ : ∃ k, t % half = k := ⟨_,rfl⟩
  rw [given,given'] at place
  rw [given] at chunks
  rw [given'] at below
  unfold slot zigzag
  rw [given,given']
  split
  · rename_i near
    have next : half * (c + 1) = half * c + half := Nat.mul_succ half c
    refine ⟨near,?_⟩
    dsimp only
    have most : half * (c + 1) ≤ half * (2 * ranks) := Nat.mul_le_mul_left half (by omega)
    rw [Nat.mul_comm (2 * ranks)] at size
    rw [List.getElem?_append_left (by rw [slice_length]; omega),slice_getElem?,if_pos (by omega),place]
  · rename_i far
    obtain ⟨r,rfl⟩ : ∃ r, c = 2 * ranks - 1 - r := ⟨2 * ranks - 1 - c,by omega⟩
    obtain ⟨other,rfl⟩ : ∃ other, ranks = r + 1 + other := ⟨ranks - (r + 1),by omega⟩
    have same : 2 * (r + 1 + other) - 1 - (2 * (r + 1 + other) - 1 - r) = r := by omega
    have start : 2 * (r + 1 + other) - 1 - r = r + 1 + 2 * other := by omega
    dsimp only
    rw [same]
    rw [start] at place
    have full : xs.length = half * (r + 1) + half * (r + 1 + 2 * other) := by rw [size]; ring
    have next : half * (r + 1) = half * r + half := Nat.mul_succ half r
    have front : (slice (half * r) (half * (r + 1)) xs).length = half := by rw [slice_length]; omega
    refine ⟨by omega,?_⟩
    rw [List.getElem?_append_right (by omega),slice_getElem?,front,if_pos (by omega)]
    congr 1
    omega

end Zigzag
