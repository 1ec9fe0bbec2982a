import Mathlib.Data.List.Basic

/-! Priority queues as bags, and the loop that combines the two least entries until one
is left. Among equally least entries the first is taken. -/
namespace MinQueue

variable {α : Type} (lt : α → α → Bool)

/-- A least entry and the entries left. -/
def popMin : List α → Option (α × List α)
  | [] => none
  | x :: xs =>
    match popMin xs with
    | none => some (x,[])
    | some (y,ys) => if lt y x then some (y,x :: ys) else some (x,xs)

/-- `while len(pq) > 1`, run at most as often as the fuel says. -/
def reduce (merge : α → α → α) : Nat → List α → List α
  | 0, pq => pq
  | fuel+1, pq =>
    match popMin lt pq with
    | none => pq
    | some (first,rest) =>
      match popMin lt rest with
      | none => pq
      | some (second,rest) => reduce merge fuel (merge first second :: rest)

theorem popMin_none {xs : List α} : popMin lt xs = none ↔ xs = [] := by
  cases xs with
  | nil => simp [popMin]
  | cons x xs =>
    simp only [popMin,reduceCtorEq,iff_false]
    split
    · simp
    · split <;> simp

theorem popMin_perm {xs ys : List α} {y : α} (popped : popMin lt xs = some (y,ys)) :
    xs.Perm (y :: ys) := by
  induction xs generalizing y ys with
  | nil => simp [popMin] at popped
  | cons x xs ih =>
    rw [popMin] at popped
    cases least : popMin lt xs with
    | none =>
      simp only [least,Option.some.injEq,Prod.mk.injEq] at popped
      obtain ⟨rfl,rfl⟩ := popped
      rw [(popMin_none lt).mp least]
    | some found =>
      obtain ⟨z,zs⟩ := found
      simp only [least] at popped
      split at popped
      · obtain ⟨rfl,rfl⟩ := Prod.mk.inj (Option.some.inj popped)
        exact ((ih least).cons x).trans (.swap z x zs)
      · obtain ⟨rfl,rfl⟩ := Prod.mk.inj (Option.some.inj popped)
        exact .refl _

variable {lt}

/-- What survives reordering and one combination survives the loop. -/
theorem reduce_induct {merge : α → α → α} (keeps : List α → Prop)
    (reorder : ∀ xs ys, xs.Perm ys → keeps xs → keeps ys)
    (combine : ∀ x y rest, keeps (x :: y :: rest) → keeps (merge x y :: rest))
    (fuel : Nat) (pq : List α) (initial : keeps pq) : keeps (reduce lt merge fuel pq) := by
  induction fuel generalizing pq with
  | zero => exact initial
  | succ fuel ih =>
    rw [reduce]
    cases first : popMin lt pq with
    | none => exact initial
    | some found =>
      obtain ⟨x,rest⟩ := found
      cases second : popMin lt rest with
      | none => simpa only [second] using initial
      | some found =>
        obtain ⟨y,rest'⟩ := found
        have pair := (popMin_perm lt first).trans ((popMin_perm lt second).cons x)
        simpa only [second] using ih _ (combine x y rest' (reorder pq _ pair initial))

/-- With enough fuel the loop ends with a single entry. -/
theorem reduce_single (merge : α → α → α) (fuel : Nat) (pq : List α) (enough : pq.length ≤ fuel + 1)
    (some : pq ≠ []) : ∃ last, reduce lt merge fuel pq = [last] := by
  induction fuel generalizing pq with
  | zero =>
    rw [reduce]
    exact List.length_eq_one_iff.mp (Nat.le_antisymm enough (List.length_pos_iff.mpr some))
  | succ fuel ih =>
    rw [reduce]
    cases first : popMin lt pq with
    | none => exact absurd ((popMin_none lt).mp first) some
    | some found =>
      obtain ⟨x,rest⟩ := found
      have size := (popMin_perm lt first).length_eq
      cases second : popMin lt rest with
      | none =>
        obtain rfl := (popMin_none lt).mp second
        simp only [second]
        exact List.length_eq_one_iff.mp (by simpa using size)
      | some found =>
        obtain ⟨y,rest'⟩ := found
        have size' := (popMin_perm lt second).length_eq
        simp only [second]
        refine ih _ ?_ (List.cons_ne_nil _ _)
        simp only [List.length_cons] at size size' ⊢
        omega

end MinQueue
