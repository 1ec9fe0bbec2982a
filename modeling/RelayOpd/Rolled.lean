import Mathlib.Data.List.Rotate
import Mathlib.Data.List.Basic

/-! A list rolled left by one place, and what that does to the parts it is joined from:
each part keeps its length and gets the head of the next one at its end. -/
namespace Rolled

variable {α β : Type}

/-- `torch.roll(xs, shifts=-1)`. -/
def roll (xs : List α) : List α := xs.rotate 1

/-- Every part without its head and with the head of what follows it, which is `last`
after the last part. -/
def follow : List (List α) → α → List (List α)
  | [],_ => []
  | [] :: parts,last => [] :: follow parts last
  | (_ :: rest) :: parts,last => (rest ++ [parts.flatten.headD last]) :: follow parts last

@[simp] theorem roll_length (xs : List α) : (roll xs).length = xs.length := List.length_rotate _ _

theorem roll_perm (xs : List α) : (roll xs).Perm xs := List.rotate_perm xs 1

@[simp] theorem follow_length (parts : List (List α)) (last : α) : (follow parts last).length = parts.length := by
  induction parts with
  | nil => rfl
  | cons part parts ih => cases part <;> simp [follow,ih]

/-- Rolling keeps the lengths of the parts. -/
theorem follow_lengths (parts : List (List α)) (last : α) :
    (follow parts last).map List.length = parts.map List.length := by
  induction parts with
  | nil => rfl
  | cons part parts ih => cases part <;> simp [follow,ih]

theorem follow_flatten (parts : List (List α)) (last : α) :
    (follow parts last).flatten = (parts.flatten ++ [last]).tail := by
  induction parts with
  | nil => rfl
  | cons part parts ih =>
    cases part with
    | nil => simpa [follow] using ih
    | cons x rest =>
      rw [follow,List.flatten_cons,ih,List.flatten_cons]
      cases joined : parts.flatten with
      | nil => simp
      | cons y ys => simp

/-- Rolling joined parts is following each by the next, cyclically. -/
theorem roll_flatten (parts : List (List α)) (default : α) :
    roll parts.flatten = (follow parts (parts.flatten.headD default)).flatten := by
  rw [follow_flatten]
  cases joined : parts.flatten with
  | nil => rfl
  | cons x xs =>
    rw [roll,List.rotate_cons_succ,List.rotate_zero]
    rfl

/-- Before the last slot of a part, the roll is within the part. -/
theorem follow_inside (parts : List (List α)) (last : α) (r : Nat) (part : List α) (given : parts[r]? = some part)
    (t : Nat) (slot : t + 1 < part.length) :
    ∃ row, (follow parts last)[r]? = some row ∧ row[t]? = part[t+1]? := by
  induction parts generalizing r with
  | nil => simp at given
  | cons first parts ih =>
    cases r with
    | zero =>
      obtain rfl := Option.some.inj given
      cases first with
      | nil => simp at slot
      | cons x rest =>
        refine ⟨_,rfl,?_⟩
        rw [List.getElem?_append_left (by simpa using slot),List.getElem?_cons_succ]
    | succ r =>
      obtain ⟨row,found,entry⟩ := ih r given
      refine ⟨row,?_,entry⟩
      cases first <;> simpa [follow] using found

theorem head_flatten (parts : List (List α)) (x : α) (head : parts.flatten.head? = some x) :
    ∃ part ∈ parts, part.head? = some x := by
  rw [List.head?_flatten] at head
  exact List.exists_of_findSome?_eq_some head

/-- What a model predicts at every position of a sequence, from the entries up to there. -/
def causal (model : List α → β) (sequence : List α) : List β :=
  (List.range sequence.length).map (fun s => model (sequence.take (s+1)))

@[simp] theorem causal_length (model : List α → β) (sequence : List α) :
    (causal model sequence).length = sequence.length := by simp [causal]

theorem causal_getElem? (model : List α → β) (sequence : List α) (t : Nat) (inside : t < sequence.length) :
    (causal model sequence)[t]? = some (model (sequence.take (t+1))) := by simp [causal,inside]

end Rolled
