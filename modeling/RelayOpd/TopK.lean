import Mathlib.Data.List.Sort
import Mathlib.Data.List.FinRange
import Mathlib.Data.Fintype.Card

/-! The places of the `k` largest entries of a vector. Ties are broken in any way; without a
tie at rank `k` the chosen set is determined, and it can be found in parts. -/

structure TopK (𝕜 : Type) [LinearOrder 𝕜] where
  indices : {n k : Nat} → k ≤ n → (Fin n → 𝕜) → Fin k → Fin n
  injective : ∀ {n k : Nat} (bound : k ≤ n) (x : Fin n → 𝕜), Function.Injective (indices bound x)
  sorted : ∀ {n k : Nat} (bound : k ≤ n) (x : Fin n → 𝕜) (i j : Fin k), i ≤ j →
    x (indices bound x j) ≤ x (indices bound x i)
  largest : ∀ {n k : Nat} (bound : k ≤ n) (x : Fin n → 𝕜) (i : Fin k) (p : Fin n),
    (∀ j, indices bound x j ≠ p) → x p ≤ x (indices bound x i)

namespace TopK

variable {𝕜 ι : Type} [LinearOrder 𝕜]

/-- A set whose entries are above all others. -/
def Above (x : ι → 𝕜) (top : Finset ι) : Prop := ∀ a ∈ top, ∀ b, b ∉ top → x b < x a

/-- No tie at rank `k`: some `k` entries are above all others. -/
def NoTie (x : ι → 𝕜) (k : Nat) : Prop := ∃ top : Finset ι, top.card = k ∧ Above x top

/-- An entry without a rank below `i` is at most the entry of rank `i`. -/
theorem le_rank (topk : TopK 𝕜) {n k : Nat} (bound : k ≤ n) (x : Fin n → 𝕜) (i : Fin k) (p : Fin n)
    (later : ∀ j, j < i → topk.indices bound x j ≠ p) : x p ≤ x (topk.indices bound x i) := by
  by_cases picked : ∃ j, topk.indices bound x j = p
  · obtain ⟨j,rfl⟩ := picked
    exact topk.sorted bound x i j (not_lt.mp fun before => later j before rfl)
  · exact topk.largest bound x i p (not_exists.mp picked)

/-- Entries above all others are chosen when there is room for them. -/
theorem mem_indices (topk : TopK 𝕜) {n k : Nat} (bound : k ≤ n) (x : Fin n → 𝕜) (top : Finset (Fin n))
    (above : Above x top) (room : top.card ≤ k) (p : Fin n) (member : p ∈ top) :
    ∃ j, topk.indices bound x j = p := by
  by_contra missed
  have missed : ∀ j, topk.indices bound x j ≠ p := not_exists.mp missed
  have chosen : ∀ j, topk.indices bound x j ∈ top := by
    intro j
    by_contra outside
    exact absurd (topk.largest bound x j p missed) (not_le.mpr (above p member _ outside))
  have inside : Finset.univ.image (topk.indices bound x) ⊆ top.erase p := by
    intro q image
    obtain ⟨j,_,rfl⟩ := Finset.mem_image.mp image
    exact Finset.mem_erase.mpr ⟨missed j,chosen j⟩
  have counted := Finset.card_le_card inside
  rw [Finset.card_image_of_injective _ (topk.injective bound x),Finset.card_univ,Fintype.card_fin,
    Finset.card_erase_of_mem member] at counted
  have filled : 0 < top.card := Finset.card_pos.mpr ⟨p,member⟩
  omega

/-- Candidates `id` that include the largest entries: the best `k` of them are these. -/
theorem mem_candidates (topk : TopK 𝕜) [DecidableEq ι] {n k : Nat} (bound : k ≤ n) (z : ι → 𝕜)
    (id : Fin n → ι) (distinct : Function.Injective id) (top : Finset ι) (above : Above z top)
    (size : top.card = k) (covered : ∀ a ∈ top, ∃ p, id p = a) (a : ι) :
    (∃ j, id (topk.indices bound (z ∘ id) j) = a) ↔ a ∈ top := by
  let kept := Finset.univ.filter (fun p => id p ∈ top)
  have above' : Above (z ∘ id) kept := by
    intro p member q outside
    refine above _ (Finset.mem_filter.mp member).2 _ (fun inside => outside ?_)
    exact Finset.mem_filter.mpr ⟨Finset.mem_univ q,inside⟩
  have room : kept.card ≤ k := by
    rw [← size,← Finset.card_image_of_injective kept distinct]
    refine Finset.card_le_card (fun b image => ?_)
    obtain ⟨p,member,rfl⟩ := Finset.mem_image.mp image
    exact (Finset.mem_filter.mp member).2
  have found : top ⊆ Finset.univ.image (fun j => id (topk.indices bound (z ∘ id) j)) := by
    intro b member
    obtain ⟨p,rfl⟩ := covered b member
    obtain ⟨j,rfl⟩ := topk.mem_indices bound (z ∘ id) kept above' room p
      (Finset.mem_filter.mpr ⟨Finset.mem_univ p,member⟩)
    exact Finset.mem_image_of_mem _ (Finset.mem_univ j)
  have chosen : Finset.univ.image (fun j => id (topk.indices bound (z ∘ id) j)) = top := by
    refine (Finset.eq_of_subset_of_card_le found ?_).symm
    rw [size]
    exact Finset.card_image_le.trans (by simp)
  rw [← chosen]
  simp

/-- All places, the largest entry first. -/
def descending {n : Nat} (x : Fin n → 𝕜) : List (Fin n) :=
  (List.finRange n).insertionSort (fun a b => x b ≤ x a)

theorem descending_perm {n : Nat} (x : Fin n → 𝕜) : (descending x).Perm (List.finRange n) :=
  List.perm_insertionSort _ _

@[simp] theorem descending_length {n : Nat} (x : Fin n → 𝕜) : (descending x).length = n := by
  rw [(descending_perm x).length_eq,List.length_finRange]

theorem descending_pairwise {n : Nat} (x : Fin n → 𝕜) : (descending x).Pairwise (fun a b => x b ≤ x a) := by
  have total : Std.Total (fun a b : Fin n => x b ≤ x a) := ⟨fun a b => le_total (x b) (x a)⟩
  have transitive : IsTrans (Fin n) (fun a b => x b ≤ x a) := ⟨fun a b c first second => second.trans first⟩
  exact List.pairwise_insertionSort _ _

theorem descending_get {n : Nat} (x : Fin n → 𝕜) (i j : Fin (descending x).length) (below : i ≤ j) :
    x ((descending x).get j) ≤ x ((descending x).get i) := by
  rcases below.eq_or_lt with rfl | earlier
  · exact le_rfl
  · exact List.pairwise_iff_get.mp (descending_pairwise x) i j earlier

/-- Choosing by a stable sort. -/
def stable (𝕜 : Type) [LinearOrder 𝕜] : TopK 𝕜 where
  indices bound x i := (descending x).get ⟨i,by rw [descending_length]; omega⟩
  injective bound x := by
    intro i j same
    have nodup : (descending x).Nodup := (descending_perm x).nodup_iff.mpr (List.nodup_finRange _)
    exact Fin.ext (Fin.mk.inj (nodup.injective_get same))
  sorted bound x i j below := descending_get x _ _ below
  largest bound x i p missed := by
    obtain ⟨q,rfl⟩ := List.mem_iff_get.mp ((descending_perm x).mem_iff.mpr (List.mem_finRange p))
    refine descending_get x _ _ (show i.val ≤ q.val from ?_)
    by_contra early
    exact missed ⟨q.val,by omega⟩ rfl

end TopK
