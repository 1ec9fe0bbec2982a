import Mathlib

/-! Ragged batches stored flat. A batch of rows with given lengths is one flat
vector; slot `start lens r + c` holds entry `c` of row `r`. Vectors are read
through functions of the slot, so entries past the end are never observed. -/
namespace Ragged

/-- Inclusive prefix sums, as `torch.cumsum` returns them. -/
def cumsum (lens : List Nat) : List Nat :=
  (List.range lens.length).map (fun r => (lens.take (r+1)).sum)

/-- First slot of a row. -/
def start (lens : List Nat) (r : Nat) : Nat := (lens.take r).sum

def len (lens : List Nat) (r : Nat) : Nat := lens.getD r 0

/-- Each entry repeated as often as its row is long. -/
def repeatInterleave (xs : List α) (lens : List Nat) : List α :=
  (xs.zip lens).flatMap (fun p => List.replicate p.2 p.1)

@[simp] theorem start_zero (lens : List Nat) : start lens 0 = 0 := rfl

@[simp] theorem start_cons_succ (n : Nat) (lens : List Nat) (r : Nat) :
    start (n :: lens) (r+1) = n + start lens r := by simp [start]

@[simp] theorem len_cons_zero (n : Nat) (lens : List Nat) : len (n :: lens) 0 = n := rfl

@[simp] theorem len_cons_succ (n : Nat) (lens : List Nat) (r : Nat) :
    len (n :: lens) (r+1) = len lens r := by simp [len]

theorem len_of_bound (lens : List Nat) (r : Nat) (bound : r < lens.length) :
    len lens r = lens[r] := by simp [len,bound]

theorem lt_length_of_len (lens : List Nat) (r c : Nat) (inside : c < len lens r) :
    r < lens.length := by
  by_contra past
  simp [len,Nat.le_of_not_lt past] at inside

theorem cumsum_getD (lens : List Nat) (r : Nat) (bound : r < lens.length) :
    (cumsum lens).getD r 0 = start lens r + len lens r := by
  have step : (lens.take (r+1)).sum = (lens.take r).sum + lens[r] := by
    rw [List.take_succ_eq_append_getElem bound,List.sum_append]
    simp
  simp [cumsum,bound,start,len,step]

@[simp] theorem repeatInterleave_nil_right (xs : List α) : repeatInterleave xs [] = [] := by
  simp [repeatInterleave]

@[simp] theorem repeatInterleave_cons (x : α) (xs : List α) (n : Nat) (lens : List Nat) :
    repeatInterleave (x :: xs) (n :: lens) = List.replicate n x ++ repeatInterleave xs lens := by
  simp [repeatInterleave]

/-- The repeated vector holds a row's entry at every slot of that row. -/
theorem repeatInterleave_slot (xs : List α) (lens : List Nat) (r c : Nat)
    (same : xs.length = lens.length) (inside : c < len lens r) :
    (repeatInterleave xs lens)[start lens r + c]? = xs[r]? := by
  induction lens generalizing xs r with
  | nil => simp [len] at inside
  | cons n lens ih =>
    cases xs with
    | nil => simp at same
    | cons x xs =>
      cases r with
      | zero =>
        have bound : c < n := by simpa using inside
        simp [List.getElem?_append_left,bound]
      | succ r =>
        have past : n ≤ n + start lens r + c := by omega
        rw [repeatInterleave_cons,start_cons_succ,List.getElem?_append_right (by simpa using past)]
        have rest : n + start lens r + c - (List.replicate n x).length = start lens r + c := by
          simp; omega
        rw [rest]
        exact ih xs r (by simpa using same) (by simpa using inside)

/-- Every slot belongs to exactly one row. -/
theorem slot_exists (lens : List Nat) (i : Nat) (bound : i < lens.sum) :
    ∃ r c, c < len lens r ∧ i = start lens r + c := by
  induction lens generalizing i with
  | nil => simp at bound
  | cons n lens ih =>
    by_cases first : i < n
    · exact ⟨0,i,by simpa using first,by simp⟩
    · obtain ⟨r,c,inside,eq⟩ := ih (i - n) (by simp at bound; omega)
      exact ⟨r+1,c,by simpa using inside,by simp; omega⟩

theorem slot_bound (lens : List Nat) (r c : Nat) (inside : c < len lens r) :
    start lens r + c < lens.sum := by
  induction lens generalizing r with
  | nil => simp [len] at inside
  | cons n lens ih =>
    cases r with
    | zero => simp at inside ⊢; omega
    | succ r =>
      have := ih r (by simpa using inside)
      simp at this ⊢; omega

/-- A flattened list of rows holds each row's entries at that row's slots. -/
theorem flatten_slot (rows : List (List α)) (r c : Nat)
    (inside : c < len (rows.map List.length) r) :
    rows.flatten[start (rows.map List.length) r + c]? = rows[r]?.bind (fun row => row[c]?) := by
  induction rows generalizing r with
  | nil => simp [len] at inside
  | cons row rows ih =>
    cases r with
    | zero =>
      have bound : c < row.length := by simpa using inside
      simp [List.getElem?_append_left,bound]
    | succ r =>
      have past : row.length ≤ row.length + start (rows.map List.length) r + c := by omega
      have rest : row.length + start (rows.map List.length) r + c - row.length =
          start (rows.map List.length) r + c := by omega
      rw [List.flatten_cons,List.map_cons,start_cons_succ,List.getElem?_append_right past,rest]
      simpa using ih r (by simpa using inside)

theorem start_succ (lens : List Nat) (r : Nat) (bound : r < lens.length) :
    start lens (r+1) = start lens r + len lens r := by
  rw [start,List.take_succ_eq_append_getElem bound,List.sum_append,len_of_bound lens r bound]
  simp [start]

/-- `F.pad(lens.cumsum(0), (1, 0))`, the bounds of all rows. -/
def offsets (lens : List Nat) : List Nat := 0 :: cumsum lens

theorem offsets_getD (lens : List Nat) (r : Nat) (bound : r ≤ lens.length) :
    (offsets lens).getD r 0 = start lens r := by
  cases r with
  | zero => rfl
  | succ r =>
    have inside : r < lens.length := bound
    simp [offsets,cumsum,start,inside]

/-- The slice between two bounds is the row. -/
theorem flatten_drop_take (rows : List (List α)) (r : Nat) (bound : r < rows.length) :
    (rows.flatten.drop (start (rows.map List.length) r)).take (len (rows.map List.length) r) =
      rows[r] := by
  induction rows generalizing r with
  | nil => simp at bound
  | cons row rows ih =>
    cases r with
    | zero => simp
    | succ r =>
      rw [List.map_cons,start_cons_succ,len_cons_succ,List.flatten_cons,List.drop_append,
        List.drop_of_length_le (by omega)]
      simpa using ih r (by simpa using bound)

/-- Rows of one common length start at its multiples. -/
theorem start_replicate (n k r : Nat) (bound : r ≤ n) : start (List.replicate n k) r = r * k := by
  simp [start,List.take_replicate,Nat.min_eq_left bound]

end Ragged
