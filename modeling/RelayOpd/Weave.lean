import RelayOpd.Chunks
import Mathlib.Tactic.Ring

/-! Lists woven group by group: the first group of each list, then the second group of each, and
so on. A woven list is read back in blocks of groups, whatever the size of the blocks. -/
namespace Weave

variable {α : Type}

/-- The size of the groups of a list, and the list. -/
abbrev Strand (α : Type) := Nat × List α

def width (strands : List (Strand α)) : Nat := (strands.map Prod.fst).sum

/-- Group `j` of every strand. -/
def group (strands : List (Strand α)) (j : Nat) : List α := strands.flatMap (fun s => Chunks.chunk s.1 s.2 j)

def weave (groups : Nat) (strands : List (Strand α)) : List α := (List.range groups).flatMap (group strands)

/-- Every strand has so many groups. -/
def Even (groups : Nat) (strands : List (Strand α)) : Prop := ∀ s ∈ strands, s.2.length = groups * s.1

/-- The groups of the strands from `i * inner` on. -/
def block (inner i : Nat) (strands : List (Strand α)) : List (Strand α) :=
  strands.map (fun s => (s.1,Chunks.chunk (inner * s.1) s.2 i))

theorem width_block (inner i : Nat) (strands : List (Strand α)) : width (block inner i strands) = width strands := by
  rw [width,block,List.map_map]
  rfl

theorem Even.tail {groups : Nat} {s : Strand α} {strands : List (Strand α)} (even : Even groups (s :: strands)) :
    Even groups strands := fun t member => even t (List.mem_cons_of_mem s member)

theorem group_length {groups : Nat} {strands : List (Strand α)} (even : Even groups strands) (j : Nat) (inside : j < groups) :
    (group strands j).length = width strands := by
  induction strands with
  | nil => rfl
  | cons s strands ih =>
    have first := Chunks.chunk_length groups s.1 s.2 (even s List.mem_cons_self) j inside
    have rest := ih even.tail
    rw [group] at rest
    rw [group,List.flatMap_cons,List.length_append,first,rest,width,width,List.map_cons,List.sum_cons]

theorem weave_succ (groups : Nat) (strands : List (Strand α)) :
    weave (groups + 1) strands = weave groups strands ++ group strands groups := by
  rw [weave,List.range_succ,List.flatMap_append,List.flatMap_singleton]
  rfl

theorem weave_length {groups : Nat} {strands : List (Strand α)} (even : Even groups strands) :
    (weave groups strands).length = groups * width strands := by
  rw [weave,List.flatMap_def]
  rw [Chunks.flatten_length (width strands) _ (fun part member => ?_),List.length_map,List.length_range]
  obtain ⟨j,inside,rfl⟩ := List.mem_map.mp member
  exact group_length even j (List.mem_range.mp inside)

/-- A group of the woven list is that group of every strand. -/
theorem chunk_weave {groups : Nat} {strands : List (Strand α)} (even : Even groups strands) (j : Nat) (inside : j < groups) :
    Chunks.chunk (width strands) (weave groups strands) j = group strands j := by
  rw [weave,List.flatMap_def]
  rw [Chunks.chunk_flatten (width strands) _ (fun part member => ?_) j (by simpa using inside)]
  · simp
  · obtain ⟨i,below,rfl⟩ := List.mem_map.mp member
    exact group_length even i (List.mem_range.mp below)

/-- A piece of a piece. -/
theorem chunk_chunk (size inner i j : Nat) (xs : List α) (inside : j < inner) :
    Chunks.chunk size (Chunks.chunk (inner * size) xs i) j = Chunks.chunk size xs (i * inner + j) := by
  have room : (j + 1) * size ≤ inner * size := Nat.mul_le_mul_right size inside
  rw [Nat.succ_mul] at room
  rw [Chunks.chunk,Chunks.chunk,Chunks.chunk,List.drop_take,List.take_take,List.drop_drop]
  have start : i * (inner * size) + j * size = (i * inner + j) * size := by ring
  rw [start,Nat.min_eq_left (by omega)]

theorem block_even {outer inner : Nat} {strands : List (Strand α)} (even : Even (outer * inner) strands) (i : Nat)
    (inside : i < outer) : Even inner (block inner i strands) := by
  intro s member
  obtain ⟨t,held,rfl⟩ := List.mem_map.mp member
  apply Chunks.chunk_length outer (inner * t.1) t.2 _ i inside
  rw [even t held,Nat.mul_assoc]

theorem group_block (inner i j : Nat) (strands : List (Strand α)) (inside : j < inner) :
    group (block inner i strands) j = group strands (i * inner + j) := by
  rw [group,block,List.flatMap_map,group]
  exact List.flatMap_congr (fun s _ => chunk_chunk s.1 inner i j s.2 inside)

/-- A woven list is woven block by block. -/
theorem weave_blocks (outer inner : Nat) (strands : List (Strand α)) :
    weave (outer * inner) strands = (List.range outer).flatMap (fun i => weave inner (block inner i strands)) := by
  induction outer with
  | zero => rw [Nat.zero_mul]; rfl
  | succ outer ih =>
    have more : ∀ n, weave (outer * inner + n) strands = weave (outer * inner) strands ++
        (List.range n).flatMap (fun j => group strands (outer * inner + j)) := by
      intro n
      induction n with
      | zero => simp
      | succ n step =>
        rw [← Nat.add_assoc,weave_succ,step,List.range_succ,List.flatMap_append,List.flatMap_singleton,List.append_assoc]
    rw [Nat.succ_mul,more,List.range_succ,List.flatMap_append,← ih,List.flatMap_singleton]
    congr 1
    exact List.flatMap_congr (fun j member => (group_block inner outer j strands (List.mem_range.mp member)).symm)

/-- A block of the woven list is woven from that block of every strand. -/
theorem chunk_weave_block {outer inner : Nat} {strands : List (Strand α)} (even : Even (outer * inner) strands) (i : Nat)
    (inside : i < outer) :
    Chunks.chunk (inner * width strands) (weave (outer * inner) strands) i = weave inner (block inner i strands) := by
  rw [weave_blocks,List.flatMap_def]
  rw [Chunks.chunk_flatten (inner * width strands) _ (fun part member => ?_) i (by simpa using inside)]
  · simp
  · obtain ⟨k,below,rfl⟩ := List.mem_map.mp member
    rw [weave_length (block_even even k (List.mem_range.mp below)),width_block]

/-- The groups of a list one after another. -/
theorem groups_joined (groups size : Nat) (xs : List α) (total : xs.length = groups * size) :
    (List.range groups).flatMap (Chunks.chunk size xs) = xs := by
  rw [List.flatMap_def]
  have whole := Chunks.chunks_flatten groups size xs
  rw [← total,List.take_length] at whole
  exact whole

end Weave
