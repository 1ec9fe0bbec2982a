import Mathlib

/-! Descending orders of scored indices. Equal scores may come in any order, so there may be
several, and several selections of the first `k`. -/
namespace TopSelection

variable {𝕜 : Type} [LinearOrder 𝕜] (n : Nat) (v : Nat → 𝕜)

structure Descending (order : List Nat) : Prop where
  all : order.Perm (List.range n)
  falling : order.Pairwise (fun t u => v u ≤ v t)

/-- How many indices score more. -/
def larger (t : Nat) : Nat := ((Finset.range n).filter (fun u => v t < v u)).card

/-- How many others score at least as much. -/
def rivals (t : Nat) : Nat := ((Finset.range n).filter (fun u => u ≠ t ∧ v t ≤ v u)).card

section Order

variable {n v} {order : List Nat} (descending : Descending n v order)

include descending

theorem Descending.mem (t : Nat) : t ∈ order ↔ t < n := by
  rw [descending.all.mem_iff,List.mem_range]

theorem Descending.length : order.length = n := by
  rw [descending.all.length_eq,List.length_range]

theorem Descending.nodup : order.Nodup := descending.all.nodup_iff.mpr List.nodup_range

theorem Descending.take_drop (k t u : Nat) (early : t ∈ order.take k) (late : u ∈ order.drop k) : v u ≤ v t := by
  have falling := descending.falling
  rw [← List.take_append_drop k order,List.pairwise_append] at falling
  exact falling.2.2 t early u late

theorem Descending.mem_drop (k u : Nat) (inside : u < n) (late : u ∉ order.take k) : u ∈ order.drop k := by
  have member := (descending.mem u).mpr inside
  rw [← List.take_append_drop k order,List.mem_append] at member
  exact member.resolve_left late

/-- Nothing among the first `k` has `k` better ones. -/
theorem Descending.larger_lt (k t : Nat) (member : t ∈ order.take k) : larger n v t < k := by
  have better : (Finset.range n).filter (fun u => v t < v u) ⊆ (order.take k).toFinset.erase t := by
    intro u found
    obtain ⟨inside,above⟩ := Finset.mem_filter.mp found
    rw [Finset.mem_erase,List.mem_toFinset]
    refine ⟨fun same => absurd above (by rw [same]; exact lt_irrefl _),?_⟩
    by_contra late
    have drop := descending.mem_drop k u (Finset.mem_range.mp inside) late
    exact absurd above (not_lt.mpr (descending.take_drop k t u member drop))
  have size := Finset.card_le_card better
  rw [Finset.card_erase_of_mem (List.mem_toFinset.mpr member)] at size
  have taken : (order.take k).toFinset.card ≤ k := (List.toFinset_card_le _).trans (List.length_take_le k order)
  have some_ : 0 < (order.take k).toFinset.card := Finset.card_pos.mpr ⟨t,List.mem_toFinset.mpr member⟩
  rw [larger]
  omega

/-- Whatever is not among the first `k` has as many rivals. -/
theorem Descending.le_rivals (k t : Nat) (inside : t < n) (late : t ∉ order.take k) : k ≤ rivals n v t := by
  have drop := descending.mem_drop k t inside late
  have taken : (order.take k).toFinset ⊆ (Finset.range n).filter (fun u => u ≠ t ∧ v t ≤ v u) := by
    intro u found
    have early := List.mem_toFinset.mp found
    refine Finset.mem_filter.mpr ⟨Finset.mem_range.mpr ((descending.mem u).mp (List.mem_of_mem_take early)),?_,
      descending.take_drop k u t early drop⟩
    rintro rfl
    exact late early
  have size := Finset.card_le_card taken
  rw [List.toFinset_card_of_nodup (descending.nodup.sublist (List.take_sublist k order)),List.length_take] at size
  have long : k < order.length := by
    by_contra short
    rw [List.drop_eq_nil_of_le (not_lt.mp short)] at drop
    cases drop
  rw [Nat.min_eq_left long.le] at size
  exact size

end Order

section Ranked

/-- Larger scores first, preferred indices first among equal ones. -/
def rankKey (prefer : Nat → Bool) (t : Nat) : 𝕜ᵒᵈ ×ₗ Bool := toLex (OrderDual.toDual (v t),!prefer t)

def ranked (prefer : Nat → Bool) : List Nat :=
  (List.range n).insertionSort (fun t u => rankKey v prefer t ≤ rankKey v prefer u)

variable (prefer : Nat → Bool)

theorem ranked_pairwise : (ranked n v prefer).Pairwise (fun t u => rankKey v prefer t ≤ rankKey v prefer u) := by
  have total : Std.Total (fun t u => rankKey v prefer t ≤ rankKey v prefer u) := ⟨fun t u => le_total _ _⟩
  have trans_ : IsTrans Nat (fun t u => rankKey v prefer t ≤ rankKey v prefer u) := ⟨fun t u w => le_trans⟩
  exact List.pairwise_insertionSort _ _

theorem ranked_descending : Descending n v (ranked n v prefer) where
  all := List.perm_insertionSort _ _
  falling := by
    refine (ranked_pairwise n v prefer).imp (fun {t u} order => ?_)
    rcases Prod.Lex.toLex_le_toLex.mp order with less | same
    · exact (OrderDual.toDual_lt_toDual.mp less).le
    · exact (OrderDual.toDual_inj.mp same.1).ge

theorem ranked_take_drop (k t u : Nat) (early : t ∈ (ranked n v prefer).take k)
    (late : u ∈ (ranked n v prefer).drop k) : rankKey v prefer t ≤ rankKey v prefer u := by
  have falling := ranked_pairwise n v prefer
  rw [← List.take_append_drop k (ranked n v prefer),List.pairwise_append] at falling
  exact falling.2.2 t early u late

/-- An index that has fewer than `k` better ones can be among the first `k`. -/
theorem mem_preferred (k t : Nat) (inside : t < n) (few : larger n v t < k) :
    t ∈ (ranked n v (· == t)).take k := by
  have descending := ranked_descending n v (· == t)
  by_contra late
  have drop := descending.mem_drop k t inside late
  have better : ((ranked n v (· == t)).take k).toFinset ⊆ (Finset.range n).filter (fun u => v t < v u) := by
    intro u found
    have early := List.mem_toFinset.mp found
    refine Finset.mem_filter.mpr ⟨Finset.mem_range.mpr ((descending.mem u).mp (List.mem_of_mem_take early)),?_⟩
    have other : u ≠ t := by
      rintro rfl
      exact late early
    rcases Prod.Lex.toLex_le_toLex.mp (ranked_take_drop n v _ k u t early drop) with less | same
    · exact OrderDual.toDual_lt_toDual.mp less
    · have flags : (!u == t) ≤ (!t == t) := same.2
      rw [beq_eq_false_iff_ne.mpr other,beq_self_eq_true] at flags
      exact absurd flags (by decide)
  have size := Finset.card_le_card better
  have long : k < (ranked n v (· == t)).length := by
    by_contra short
    rw [List.drop_eq_nil_of_le (not_lt.mp short)] at drop
    cases drop
  rw [List.toFinset_card_of_nodup (descending.nodup.sublist (List.take_sublist k _)),List.length_take,
    Nat.min_eq_left long.le] at size
  exact absurd size (not_le.mpr few)

end Ranked

end TopSelection
