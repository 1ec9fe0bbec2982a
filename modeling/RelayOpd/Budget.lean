import Mathlib.Data.List.Basic
import Mathlib.Data.List.Infix
import Mathlib.Data.Int.Cast.Basic

/-! Streams read under a double budget: at most `cap` entries and at most `marks`
marked ones. `Cut` is the shortest prefix that spends either budget, or the whole
stream; cutting a stream chunk by chunk is cutting it at once. -/
namespace Budget

variable {α : Type} (mark : α → Bool)

def Spent (cap marks : Int) (xs : List α) : Prop :=
  cap ≤ xs.length ∨ marks ≤ xs.countP mark

instance (xs : List α) : Decidable (Spent mark cap marks xs) := inferInstanceAs (Decidable (_ ∨ _))

structure Cut (cap marks : Int) (stream kept : List α) : Prop where
  before : kept <+: stream
  least : ∀ p, p <+: kept → p ≠ kept → ¬ Spent mark cap marks p
  full : Spent mark cap marks kept ∨ kept = stream

variable {mark} {cap marks : Int}

theorem spent_append (xs ys : List α) :
    Spent mark cap marks (xs ++ ys) ↔
      Spent mark (cap - xs.length) (marks - xs.countP mark) ys := by
  simp only [Spent,List.length_append,List.countP_append]
  omega

theorem Spent.mono {xs ys : List α} (before : xs <+: ys) (spent : Spent mark cap marks xs) :
    Spent mark cap marks ys := by
  obtain ⟨rest,rfl⟩ := before
  rcases spent with long | marked
  · exact .inl (by simp only [List.length_append]; omega)
  · exact .inr (by simp only [List.countP_append]; omega)

/-- The cut of a stream is unique. -/
theorem Cut.unique {stream left right : List α} (first : Cut mark cap marks stream left)
    (second : Cut mark cap marks stream right) : left = right := by
  have shorter : ∀ {a b : List α}, Cut mark cap marks stream a → Cut mark cap marks stream b →
      a <+: b → a = b := by
    intro a b cut other before
    by_contra apart
    rcases cut.full with spent | whole
    · exact other.least a before apart spent
    · subst whole
      exact apart (before.eq_of_length_le other.before.length_le)
  rcases List.prefix_or_prefix_of_prefix first.before second.before with before | before
  · exact shorter first second before
  · exact (shorter second first before).symm

/-- A chunk that leaves budget is kept whole, and the rest is cut with what is left. -/
theorem Cut.append_open {xs ys kept : List α} (fresh : ¬ Spent mark cap marks xs)
    (rest : Cut mark (cap - xs.length) (marks - xs.countP mark) ys kept) :
    Cut mark cap marks (xs ++ ys) (xs ++ kept) where
  before := (List.prefix_append_right_inj xs).mpr rest.before
  least := by
    intro p before apart spent
    rcases List.prefix_or_prefix_of_prefix before (List.prefix_append xs kept) with inside | past
    · exact fresh (spent.mono inside)
    · obtain ⟨q,rfl⟩ := past
      have within := (List.prefix_append_right_inj xs).mp before
      refine rest.least q within (fun same => apart (by rw [same])) ?_
      exact (spent_append xs q).mp spent
  full := by
    rcases rest.full with spent | whole
    · exact .inl ((spent_append xs kept).mpr spent)
    · exact .inr (by rw [whole])

theorem Cut.whole {xs kept : List α} (cut : Cut mark cap marks xs kept)
    (fresh : ¬ Spent mark cap marks kept) : kept = xs :=
  cut.full.resolve_left fresh

theorem spent_map {β : Type} {flag : β → Bool} (f : α → β) (xs : List α)
    (same : ∀ x ∈ xs, flag (f x) = mark x) :
    Spent flag cap marks (xs.map f) ↔ Spent mark cap marks xs := by
  have count : (xs.map f).countP flag = xs.countP mark := by
    rw [List.countP_map]
    apply List.countP_congr
    intro x member
    rw [Function.comp_apply,same x member]
  simp only [Spent,List.length_map,count]

/-- Cutting commutes with reading the entries through a map. -/
theorem Cut.map {β : Type} {flag : β → Bool} (f : α → β) {xs kept : List α}
    (cut : Cut mark cap marks xs kept) (same : ∀ x ∈ xs, flag (f x) = mark x) :
    Cut flag cap marks (xs.map f) (kept.map f) := by
  have spent : ∀ p, p <+: kept → (Spent flag cap marks (p.map f) ↔ Spent mark cap marks p) :=
    fun p before => spent_map f p (fun x member => same x ((before.trans cut.before).subset member))
  refine ⟨cut.before.map f,?_,?_⟩
  · intro p before apart
    obtain ⟨q,within,rfl⟩ := List.prefix_map_iff.mp before
    rw [spent q within]
    exact cut.least q within (fun eq => apart (by rw [eq]))
  · rcases cut.full with full | whole
    · exact .inl ((spent kept (List.prefix_refl kept)).mpr full)
    · exact .inr (by rw [whole])

end Budget
