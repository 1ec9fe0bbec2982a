import Mathlib.Data.List.Basic
import Mathlib.Algebra.BigOperators.Group.List.Basic

/-! Lists cut into consecutive pieces of one size, as an equal split along the first
dimension does, and slices with a step. -/
namespace Chunks

def chunk (size : Nat) (xs : List α) (r : Nat) : List α := (xs.drop (r * size)).take size

/-- The first `count` pieces. -/
def chunks (count size : Nat) (xs : List α) : List (List α) := (List.range count).map (chunk size xs)

theorem chunks_flatten (count size : Nat) (xs : List α) :
    (chunks count size xs).flatten = xs.take (count * size) := by
  induction count with
  | zero => simp [chunks]
  | succ count ih =>
    rw [chunks,List.range_succ,List.map_append,List.flatten_append,← chunks,ih]
    simp [chunk,Nat.succ_mul,List.take_add]

theorem head_mem_take (size : Nat) (some : 0 < size) (x : α) (xs : List α) : x ∈ (x :: xs).take size := by
  obtain ⟨below,rfl⟩ := Nat.exists_eq_succ_of_ne_zero (Nat.ne_of_gt some)
  exact List.mem_cons_self

theorem chunk_length (count size : Nat) (xs : List α) (total : xs.length = count * size) (r : Nat)
    (bound : r < count) : (chunk size xs r).length = size := by
  have room : (r + 1) * size ≤ count * size := Nat.mul_le_mul_right size bound
  rw [Nat.succ_mul] at room
  simp only [chunk,List.length_take,List.length_drop,total]
  omega

/-- Cutting a concatenation of equally long parts gives the parts back. -/
theorem chunk_flatten (size : Nat) (parts : List (List α)) (equal : ∀ part ∈ parts, part.length = size)
    (r : Nat) (bound : r < parts.length) : chunk size parts.flatten r = parts[r] := by
  induction parts generalizing r with
  | nil => simp at bound
  | cons part parts ih =>
    have first := equal part List.mem_cons_self
    have rest : ∀ p ∈ parts, p.length = size := fun p later => equal p (List.mem_cons_of_mem part later)
    cases r with
    | zero => simp [chunk,← first]
    | succ r =>
      have skip : (r + 1) * size = part.length + r * size := by rw [first,Nat.succ_mul,Nat.add_comm]
      have later := ih rest r (by simpa using bound)
      rw [chunk] at later ⊢
      rw [List.flatten_cons,skip,List.drop_append,List.drop_eq_nil_of_le (by omega)]
      simpa using later

theorem flatten_length (size : Nat) (parts : List (List α))
    (equal : ∀ part ∈ parts, part.length = size) : parts.flatten.length = parts.length * size := by
  induction parts with
  | nil => simp
  | cons part parts ih =>
    rw [List.flatten_cons,List.length_append,equal part List.mem_cons_self,
      ih (fun p later => equal p (List.mem_cons_of_mem part later)),List.length_cons,Nat.succ_mul,
      Nat.add_comm]

theorem chunk_append_before (size count : Nat) (xs ys : List α) (filled : xs.length = count * size)
    (r : Nat) (before : r < count) : chunk size (xs ++ ys) r = chunk size xs r := by
  have room : (r + 1) * size ≤ count * size := Nat.mul_le_mul_right size before
  rw [Nat.succ_mul] at room
  rw [chunk,List.drop_append_of_le_length (by omega),List.take_append_of_le_length (by simp; omega)]
  rfl

theorem chunk_append_next (size count : Nat) (xs ys : List α) (filled : xs.length = count * size)
    (next : ys.length = size) : chunk size (xs ++ ys) count = ys := by
  rw [chunk,← filled,List.drop_left,← next,List.take_length]

theorem chunk_past (size count : Nat) (xs : List α) (filled : xs.length = count * size) (r : Nat)
    (past : count ≤ r) : chunk size xs r = [] := by
  have beyond : xs.length ≤ r * size := filled ▸ Nat.mul_le_mul_right size past
  rw [chunk,List.drop_eq_nil_of_le beyond,List.take_nil]

theorem chunk_map (size : Nat) (f : α → β) (xs : List α) (r : Nat) :
    chunk size (xs.map f) r = (chunk size xs r).map f := by
  rw [chunk,chunk,List.map_take,List.map_drop]

/-- Parts extended one by one hold the old and the new entries. -/
theorem zipWith_append_flatten (xs ys : List (List α)) (same : xs.length = ys.length) :
    (List.zipWith (· ++ ·) xs ys).flatten.Perm (xs.flatten ++ ys.flatten) := by
  induction xs generalizing ys with
  | nil =>
    obtain rfl := List.length_eq_zero_iff.mp same.symm
    exact .refl _
  | cons x xs ih =>
    cases ys with
    | nil => simp at same
    | cons y ys =>
      have rest := ih ys (by simpa using same)
      simp only [List.zipWith_cons_cons,List.flatten_cons,List.append_assoc]
      refine .append_left _ ((rest.append_left _).trans ?_)
      rw [← List.append_assoc,← List.append_assoc]
      exact .append_right _ List.perm_append_comm

theorem flatten_map_perm (f : List α → List α) (perm : ∀ xs, (f xs).Perm xs) (parts : List (List α)) :
    (parts.map f).flatten.Perm parts.flatten := by
  induction parts with
  | nil => exact .refl _
  | cons part parts ih => exact (perm part).append ih

/-- Consecutive blocks of indices. -/
theorem range_blocks (count size : Nat) :
    (List.range count).flatMap (fun g => List.range' (g * size) size) = List.range (count * size) := by
  induction count with
  | zero => simp
  | succ count ih =>
    rw [List.range_succ,List.flatMap_append,ih,List.flatMap_singleton,List.range_eq_range',Nat.succ_mul,
      List.range_eq_range']
    have joined := List.range'_append_1 (s := 0) (m := count * size) (n := size)
    rwa [Nat.zero_add] at joined

/-- `xs[::n]`. -/
def everyNth (n : Nat) (xs : List α) : List α :=
  (xs.zipIdx.filter (fun entry => entry.2 % n = 0)).map Prod.fst

/-- `xs[::2]`; the slice `xs[1::2]` is that of the tail. -/
def everyOther : List α → List α
  | [] => []
  | [x] => [x]
  | x :: _ :: xs => x :: everyOther xs

theorem everyOther_cons (x : α) (xs : List α) : everyOther (x :: xs) = x :: everyOther xs.tail := by
  cases xs <;> rfl

theorem everyOther_perm (xs : List α) : (everyOther xs ++ everyOther xs.tail).Perm xs := by
  induction xs with
  | nil => exact .refl _
  | cons x xs ih =>
    rw [everyOther_cons,List.cons_append,List.tail_cons]
    exact (List.perm_append_comm.trans ih).cons x

end Chunks
