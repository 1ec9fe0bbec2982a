import RelayOpd.ContextParallel
import Mathlib.Algebra.BigOperators.Ring.List

/-! The padded lengths of a packed batch, and what one rank takes of one sequence: its two chunks,
when they can be cut out, and the rows that it saves for the roll. -/
namespace RelayOpd.ContextParallel

open Zigzag

section Sizes

variable (p : Parallel)

/-- What is known of the padded length of a sequence. -/
structure PaddedTo (seqlen padded : Nat) : Prop where
  le : seqlen ≤ padded
  whole : alignSize p ∣ padded
  align : 0 < seqlen → thdAlignSize p ≤ padded

theorem alignSize_pos (tp : 0 < p.tpSize) (cp : 0 < p.cpSize) : 0 < alignSize p := by
  unfold alignSize
  split
  · exact Nat.mul_pos (Nat.mul_pos tp cp) (by decide)
  · exact tp

theorem alignSize_dvd_thd : alignSize p ∣ thdAlignSize p := by
  unfold thdAlignSize
  split
  · exact Nat.dvd_lcm_right 16 (alignSize p)
  · exact Nat.dvd_refl _

theorem thdAlignSize_pos (tp : 0 < p.tpSize) (cp : 0 < p.cpSize) : 0 < thdAlignSize p := by
  unfold thdAlignSize
  split
  · exact Nat.lcm_pos (by decide) (alignSize_pos p tp cp)
  · exact alignSize_pos p tp cp

theorem dvd_add_padSize (align len : Nat) (pos : 0 < align) : align ∣ len + padSize align len := by
  have split_ := Nat.div_add_mod len align
  have below := Nat.mod_lt len pos
  unfold padSize
  rcases Nat.eq_zero_or_pos (len % align) with even | odd
  · rw [even,Nat.sub_zero,Nat.mod_self]
    exact Nat.dvd_of_mod_eq_zero even
  · rw [Nat.mod_eq_of_lt (by omega)]
    exact ⟨len / align + 1,by rw [Nat.mul_succ]; omega⟩

theorem dvd_padSize (align total len : Nat) (divides : align ∣ total) (whole : align ∣ len) : align ∣ padSize total len :=
  (Nat.dvd_mod_iff divides).mpr (Nat.dvd_sub divides ((Nat.dvd_mod_iff divides).mpr whole))

theorem forall₂_modify {R : Nat → Nat → Prop} {g : Nat → Nat} (keeps : ∀ a b, R a b → R a (g b)) {as bs : List Nat}
    (related : List.Forall₂ R as bs) (k : Nat) : List.Forall₂ R as (bs.modify k g) := by
  induction related generalizing k with
  | nil => simp
  | cons first rest ih =>
    cases k with
    | zero => exact .cons (keeps _ _ first) rest
    | succ k => exact .cons first (ih k)

theorem seqlensPadded_padded (tp : 0 < p.tpSize) (cp : 0 < p.cpSize) (seqlens : List Nat) :
    List.Forall₂ (PaddedTo p) seqlens (seqlensPadded p seqlens) := by
  have each : List.Forall₂ (PaddedTo p) seqlens (seqlens.map (fun len => len + padSize (thdAlignSize p) len)) := by
    rw [List.forall₂_map_right_iff]
    refine List.forall₂_same.mpr fun len _ => ?_
    have divides := dvd_add_padSize (thdAlignSize p) len (thdAlignSize_pos p tp cp)
    exact ⟨Nat.le_add_right _ _,(alignSize_dvd_thd p).trans divides,fun pos => Nat.le_of_dvd (by omega) divides⟩
  unfold seqlensPadded
  dsimp only
  split
  · have whole : alignSize p ∣ (seqlens.map (fun len => len + padSize (thdAlignSize p) len)).sum := by
      refine List.dvd_sum fun padded member => ?_
      obtain ⟨len,_,rfl⟩ := List.mem_map.mp member
      exact (alignSize_dvd_thd p).trans (dvd_add_padSize (thdAlignSize p) len (thdAlignSize_pos p tp cp))
    have extra := dvd_padSize (alignSize p) (computeFp8ThdAlignSize (alignSize p)).2 _ (Nat.dvd_mul_right _ _) whole
    refine forall₂_modify (fun len padded known => ?_) each _
    exact ⟨known.le.trans (Nat.le_add_right _ _),Nat.dvd_add known.whole extra,
      fun pos => (known.align pos).trans (Nat.le_add_right _ _)⟩
  · exact each

/-- The two chunks of every rank make up a padded sequence. -/
theorem PaddedTo.chunks {p : Parallel} {seqlen padded : Nat} (known : PaddedTo p seqlen padded) (pos : 0 < seqlen)
    (several : 1 < p.cpSize) : ∃ half, 0 < half ∧ padded = 2 * p.cpSize * half ∧ padded / p.cpSize = 2 * half ∧
      padded / 2 = half * p.cpSize := by
  obtain ⟨whole,rfl⟩ := known.whole
  have align : alignSize p = p.tpSize * p.cpSize * 2 := if_pos several
  have le := known.le
  rw [align] at le ⊢
  refine ⟨p.tpSize * whole,?_,by ring,?_,?_⟩
  · rcases Nat.eq_zero_or_pos (p.tpSize * whole) with zero | pos
    · have none_ : p.tpSize * p.cpSize * 2 * whole = p.tpSize * whole * (p.cpSize * 2) := by ring
      rw [none_,zero] at le
      omega
    · exact pos
  · rw [show p.tpSize * p.cpSize * 2 * whole = p.cpSize * (2 * (p.tpSize * whole)) by ring]
    exact Nat.mul_div_cancel_left _ (by omega)
  · rw [show p.tpSize * p.cpSize * 2 * whole = 2 * (p.tpSize * whole * p.cpSize) by ring]
    exact Nat.mul_div_cancel_left _ (by decide)

end Sizes

section Chunks

variable {α : Type} (zero : α)

/-- A sequence as the ranks hold it: where a single row stands for a first chunk it is repeated,
and zeros follow. -/
def fullRow (padded : Nat) (d : List α) : List α :=
  d ++ List.replicate (padded / 2 - d.length) (d.getLastD zero) ++
    List.replicate (padded - max d.length (padded / 2)) zero

theorem fullRow_length (padded : Nat) (d : List α) (le : d.length ≤ padded) : (fullRow zero padded d).length = padded := by
  simp only [fullRow,List.length_append,List.length_replicate]
  omega

theorem fullRow_front (padded : Nat) (d : List α) (t : Nat) (inside : t < d.length) :
    (fullRow zero padded d)[t]? = d[t]? := by
  rw [fullRow,List.append_assoc,List.getElem?_append_left inside]

theorem fullRow_back (padded : Nat) (d : List α) (t : Nat) (behind : d.length ≤ t) (half : padded / 2 ≤ t)
    (inside : t < padded) : (fullRow zero padded d)[t]? = some zero := by
  have size : (d ++ List.replicate (padded / 2 - d.length) (d.getLastD zero)).length = max d.length (padded / 2) := by
    rw [List.length_append,List.length_replicate]
    omega
  rw [fullRow,List.getElem?_append_right (by omega),List.getElem?_replicate,if_pos (by omega)]

variable {half ranks padded : Nat} {d : List α}

/-- The first chunk of every rank, when there are enough rows. -/
theorem first_chunk (size : padded = 2 * (half * ranks))
    (enough : padded / 2 ≤ d.length ∨ padded / 2 + 1 = d.length + half) (rank : Nat) (inside : rank < ranks) :
    spread half (Zigzag.slice (half * rank) (half * (rank + 1)) d) =
      some (Zigzag.slice (half * rank) (half * (rank + 1)) (fullRow zero padded d)) := by
  have next : half * (rank + 1) = half * rank + half := Nat.mul_succ half rank
  have most : half * (rank + 1) ≤ half * ranks := Nat.mul_le_mul_left half inside
  by_cases within : half * (rank + 1) ≤ d.length
  · have length : (Zigzag.slice (half * rank) (half * (rank + 1)) d).length = half := by rw [slice_length]; omega
    rw [fullRow,List.append_assoc,slice_append_left _ _ _ _ within]
    conv_lhs => rw [← length]
    rw [length]
    exact if_pos length
  · have one : d.length = half * rank + 1 := by
      rcases Nat.lt_or_ge (rank + 1) ranks with early | late
      · have more : half * (rank + 2) ≤ half * ranks := Nat.mul_le_mul_left half early
        have next' : half * (rank + 2) = half * rank + 2 * half := by ring
        omega
      · have last : ranks = rank + 1 := by omega
        rw [last] at size
        omega
    obtain ⟨front,row,rfl⟩ : ∃ front row, d = front ++ [row] := by
      rcases List.eq_nil_or_concat d with rfl | ⟨front,row,same⟩
      · nomatch one
      · exact ⟨front,row,same.trans (List.concat_eq_append ..)⟩
    have place : front.length = half * rank := by simpa using one
    have single : Zigzag.slice (half * rank) (half * (rank + 1)) (front ++ [row]) = [row] := by
      rw [Zigzag.slice,List.take_of_length_le (by omega),← place,List.drop_left]
    rw [single,spread_single]
    have end_ : padded / 2 = half * (rank + 1) := by omega
    have full : fullRow zero padded (front ++ [row]) =
        front ++ List.replicate half row ++ List.replicate (padded - max (front ++ [row]).length (padded / 2)) zero := by
      have more : List.replicate half row = row :: List.replicate (padded / 2 - (front ++ [row]).length) row := by
        rw [← List.replicate_succ]
        congr 1
        omega
      rw [fullRow,more,List.getLastD_concat,List.append_assoc front [row]]
      rfl
    have middle_ := Zigzag.slice_middle 0 half front (List.replicate half row)
      (List.replicate (padded - max (front ++ [row]).length (padded / 2)) zero) (by rw [List.length_replicate])
    have whole : Zigzag.slice 0 half (List.replicate half row) = List.replicate half row := by
      rw [Zigzag.slice,List.drop_zero,List.take_of_length_le (by rw [List.length_replicate])]
    rw [full,next,← place]
    rw [Nat.add_zero] at middle_
    rw [middle_,whole]

/-- The last rank's first chunk shows that there are enough. -/
theorem enough_of_last (size : padded = 2 * (half * ranks)) (pos : 0 < half) (some_ : 0 < ranks)
    (spread_ : (spread half (Zigzag.slice (half * (ranks - 1)) (half * ranks) d)).isSome = true) :
    padded / 2 ≤ d.length ∨ padded / 2 + 1 = d.length + half := by
  have last : half * ranks = half * (ranks - 1) + half := by
    rw [← Nat.mul_succ,Nat.succ_eq_add_one,Nat.sub_add_cancel some_]
  rcases (spread_isSome _ _).mp spread_ with full | one
  · rw [slice_length] at full
    omega
  · rw [slice_length] at one
    omega

/-- The second chunk is what there is of it, and zeros. -/
theorem second_chunk (size : padded = 2 * (half * ranks)) (rank : Nat) (inside : rank < ranks) (le : d.length ≤ padded) :
    Zigzag.slice (remainStart rank half padded) (remainEnd rank half padded d.length) d ++
        List.replicate (half - (remainEnd rank half padded d.length - remainStart rank half padded)) zero =
      Zigzag.slice (padded - half * (rank + 1)) (padded - half * rank) (fullRow zero padded d) := by
  have next : half * (rank + 1) = half * rank + half := Nat.mul_succ half rank
  have most : half * (rank + 1) ≤ half * ranks := Nat.mul_le_mul_left half inside
  have length := fullRow_length zero padded d le
  obtain ⟨first,given⟩ : ∃ first, padded - half * (rank + 1) = first := ⟨_,rfl⟩
  have stop : padded - half * rank = first + half := by omega
  unfold remainStart remainEnd
  rw [given,stop]
  apply List.ext_getElem?
  intro k
  rw [slice_getElem?]
  by_cases there : first + k < min (first + half) d.length
  · rw [List.getElem?_append_left (by rw [slice_length]; omega),slice_getElem?,if_pos there,if_pos (by omega),
      fullRow_front zero padded d _ (by omega)]
  · rw [List.getElem?_append_right (by rw [slice_length]; omega),slice_length,List.getElem?_replicate]
    by_cases within : first + k < first + half
    · rw [if_pos within,if_pos (by omega),fullRow_back zero padded d _ (by omega) (by omega) (by omega)]
    · rw [if_neg within,if_neg (by omega)]

/-- The two chunks of a rank take the zeros at the sequence's place. -/
theorem packIds_eq (size : padded = 2 * (half * ranks)) (rank : Nat) (inside : rank < ranks) (le : d.length ≤ padded)
    (front back : List α) :
    packIds rank half padded front.length d (front ++ List.replicate (2 * half) zero ++ back) =
      (spread half (Zigzag.slice (half * rank) (half * (rank + 1)) d)).map (fun first =>
        front ++ (first ++ Zigzag.slice (padded - half * (rank + 1)) (padded - half * rank) (fullRow zero padded d)) ++ back) := by
  have next : half * (rank + 1) = half * rank + half := Nat.mul_succ half rank
  have most : half * (rank + 1) ≤ half * ranks := Nat.mul_le_mul_left half inside
  have two : List.replicate (2 * half) zero = List.replicate half zero ++ List.replicate half zero := by
    rw [List.replicate_append_replicate,Nat.two_mul]
  have first := setSlice_middle front (List.replicate half zero) (List.replicate half zero ++ back)
    (Zigzag.slice (half * rank) (half * (rank + 1)) d)
  rw [List.length_replicate] at first
  rw [packIds,two,List.append_assoc,List.append_assoc,← List.append_assoc,first,← second_chunk zero size rank inside le]
  cases given : spread half (Zigzag.slice (half * rank) (half * (rank + 1)) d) with
  | none => rfl
  | some rows =>
    have length := spread_length given
    obtain ⟨start,given'⟩ : ∃ start, remainStart rank half padded = start := ⟨_,rfl⟩
    obtain ⟨stop,given''⟩ : ∃ stop, remainEnd rank half padded d.length = stop := ⟨_,rfl⟩
    have bounds : stop ≤ start + half ∧ stop ≤ d.length := by
      unfold remainStart remainEnd at *
      omega
    simp only [Option.map_some,Option.bind_eq_bind,Option.bind_some,given',given'']
    split
    · rename_i more
      have rest : List.replicate half zero = List.replicate (stop - start) zero ++ List.replicate (half - (stop - start)) zero := by
        rw [List.replicate_append_replicate]
        congr 1
        omega
      have second := setSlice_eq (front.length + half) (front.length + half + (stop - start)) (front ++ rows)
        (List.replicate (stop - start) zero) (List.replicate (half - (stop - start)) zero ++ back) (Zigzag.slice start stop d)
        (by rw [List.length_append,length]) (by rw [List.length_replicate])
        (by rw [slice_length,List.length_replicate]; omega)
      rw [rest]
      simp only [List.append_assoc] at second ⊢
      exact second
    · rename_i none_
      have empty : Zigzag.slice start stop d = [] := List.eq_nil_of_length_eq_zero (by rw [slice_length]; omega)
      rw [empty,show half - (stop - start) = half by omega]
      simp

theorem packPositions_ok (size : padded = 2 * (half * ranks)) (rank : Nat) (inside : rank < ranks) (start rows seqlen : Nat)
    (positionIds : List Nat) (room : start + 2 * half ≤ positionIds.length) :
    ∃ out, packPositions rank half padded start rows seqlen positionIds = some out ∧ out.length = positionIds.length := by
  have next : half * (rank + 1) = half * rank + half := Nat.mul_succ half rank
  have most : half * (rank + 1) ≤ half * ranks := Nat.mul_le_mul_left half inside
  obtain ⟨first,given,length⟩ := setSlice_exact start (start + half) (List.range' (half * rank) half) positionIds (by omega)
    (by rw [List.length_range']; omega)
  simp only [packPositions,given,Option.bind_eq_bind,Option.bind_some]
  split
  · rename_i more
    obtain ⟨second,given',length'⟩ := setSlice_exact (start + half)
      (start + half + (min (remainEnd rank half padded rows) seqlen - remainStart rank half padded))
      (List.range' (remainStart rank half padded) (min (remainEnd rank half padded rows) seqlen - remainStart rank half padded))
      first (by unfold remainStart remainEnd; omega) (by rw [List.length_range']; omega)
    exact ⟨second,given',length'.trans length⟩
  · exact ⟨first,rfl,length⟩

theorem savePositionRoll_ok (size : padded = 2 * (half * ranks)) (pos : 0 < half) (rank : Nat) (inside : rank < ranks)
    (start rows : Nat) (positionIds : List Nat) (room : start + 2 * half ≤ positionIds.length) :
    ∃ saved, savePositionRoll rank half padded start rows positionIds = some saved := by
  have next : half * (rank + 1) = half * rank + half := Nat.mul_succ half rank
  have most : half * (rank + 1) ≤ half * ranks := Nat.mul_le_mul_left half inside
  have last : remainEnd rank half padded rows - remainStart rank half padded ≤ half := by
    unfold remainStart remainEnd
    omega
  unfold savePositionRoll
  rw [List.getElem?_eq_getElem (by omega)]
  simp only [Option.bind_eq_bind,Option.bind_some]
  split
  · split
    · exact ⟨_,rfl⟩
    · rw [List.getElem?_eq_getElem (by omega)]
      exact ⟨_,rfl⟩
  · exact ⟨_,rfl⟩

/-- The rank whose first chunk ends at the last row has nothing to save at its end. -/
theorem saveRoll_isSome (rank start : Nat) :
    (saveRoll rank half padded start d).isSome = true ↔ (rank + 1) * half < d.length := by
  unfold saveRoll
  rcases Nat.lt_or_ge ((rank + 1) * half) d.length with inside | outside
  · refine iff_of_true ?_ inside
    have nonempty : 0 < d.length := by omega
    have within : remainEnd rank half padded d.length ≤ d.length := Nat.min_le_right _ _
    rw [List.getElem?_eq_getElem inside]
    simp only [Option.bind_eq_bind,Option.bind_some]
    split
    · split
      · rw [List.getElem?_eq_getElem nonempty]
        rfl
      · rw [List.getElem?_eq_getElem (by omega)]
        rfl
    · rfl
  · rw [List.getElem?_eq_none outside]
    exact iff_of_false (by simp) (Nat.not_lt_of_le outside)

/-- What a saved row is, and its place in the two chunks. -/
theorem saveRoll_entries {rank start : Nat} {saved : List (Nat × α)}
    (given : saveRoll rank half padded start d = some saved) :
    ∃ next, d[(rank + 1) * half]? = some next ∧
      if remainStart rank half padded < remainEnd rank half padded d.length then
        ∃ wrapped, (remainEnd rank half padded d.length ≠ d.length → d[remainEnd rank half padded d.length]? = some wrapped) ∧
          saved = [(start + half - 1,next),
            (start + half + (remainEnd rank half padded d.length - remainStart rank half padded) - 1,wrapped)]
      else saved = [(start + half - 1,next)] := by
  unfold saveRoll at given
  simp only [Option.bind_eq_bind,Option.bind_eq_some_iff] at given
  obtain ⟨next,found,given⟩ := given
  refine ⟨next,found,?_⟩
  split at given
  · rename_i more
    rw [if_pos more]
    split at given
    · rename_i wraps
      obtain ⟨wrapped,_,given⟩ := Option.bind_eq_some_iff.mp given
      exact ⟨wrapped,fun ne => absurd wraps ne,(Option.some.inj given).symm⟩
    · obtain ⟨wrapped,found',given⟩ := Option.bind_eq_some_iff.mp given
      exact ⟨wrapped,fun _ => found',(Option.some.inj given).symm⟩
  · rename_i none_
    rw [if_neg none_]
    exact (Option.some.inj given).symm

/-- The next token of a token is saved for its slot, or it is in the next slot of the rank. -/
theorem roll_slot (size : padded = 2 * (half * ranks)) (pos : 0 < half) (le : d.length ≤ padded) (start t : Nat)
    (more : t + 1 < d.length) {saved : List (Nat × α)}
    (given : saveRoll (slot half ranks t).1 half padded start d = some saved) :
    (∀ entry ∈ saved, entry.1 = start + (slot half ranks t).2 → some entry.2 = d[t + 1]?) ∧
      ((∃ entry ∈ saved, entry.1 = start + (slot half ranks t).2) ∨
        slot half ranks (t + 1) = ((slot half ranks t).1,(slot half ranks t).2 + 1)) := by
  have place := Nat.div_add_mod t half
  have below := Nat.mod_lt t pos
  obtain ⟨c,atChunk⟩ : ∃ c, t / half = c := ⟨_,rfl⟩
  obtain ⟨k,atPlace⟩ : ∃ k, t % half = k := ⟨_,rfl⟩
  have next : half * (c + 1) = half * c + half := Nat.mul_succ half c
  have later (early : k + 1 < half) : (t + 1) / half = c ∧ (t + 1) % half = k + 1 := by
    rw [← place,atChunk,atPlace,Nat.add_assoc,Nat.mul_add_div pos,Nat.mul_add_mod,Nat.div_eq_of_lt early,
      Nat.mod_eq_of_lt early]
    exact ⟨rfl,rfl⟩
  obtain ⟨first,found,rest⟩ := saveRoll_entries given
  rw [atChunk,atPlace] at place
  rw [atPlace] at below
  unfold slot at found rest ⊢
  rw [atChunk,atPlace] at found rest ⊢
  by_cases near : c < ranks
  · -- the token is in the rank's first chunk, whose end is the first saved row
    rw [if_pos near] at found rest ⊢
    dsimp only at found rest ⊢
    rw [Nat.mul_comm,next] at found
    have first_ (entry : Nat × α) (same : entry = (start + half - 1,first)) (at_ : entry.1 = start + k) :
        some entry.2 = d[t + 1]? := by
      subst same
      rw [← found]
      congr 1
      dsimp only at at_
      omega
    have key : k + 1 = half → ∃ entry ∈ saved, entry.1 = start + k := by
      intro end_
      refine ⟨(start + half - 1,first),?_,by dsimp only; omega⟩
      split at rest
      · obtain ⟨wrapped,_,rfl⟩ := rest
        exact List.mem_cons_self
      · rw [rest]
        exact List.mem_cons_self
    refine ⟨fun entry member at_ => ?_,?_⟩
    · split at rest
      · rename_i later_
        obtain ⟨wrapped,_,rfl⟩ := rest
        rcases List.mem_cons.mp member with same | member
        · exact first_ entry same at_
        · obtain rfl := List.mem_singleton.mp member
          dsimp only at at_
          omega
      · rw [rest] at member
        exact first_ entry (List.mem_singleton.mp member) at_
    · by_cases end_ : k + 1 = half
      · exact .inl (key end_)
      · obtain ⟨chunk,place_⟩ := later (by omega)
        right
        rw [chunk,place_,if_pos near]
  · -- in the second chunk the rows end where the next chunk or the padding begins
    rw [if_neg near] at found rest ⊢
    have chunks : c < 2 * ranks := by
      by_contra overrun
      have most : half * (2 * ranks) ≤ half * c := Nat.mul_le_mul_left half (Nat.le_of_not_lt overrun)
      rw [show half * (2 * ranks) = 2 * (half * ranks) by ring] at most
      omega
    have start_ : remainStart (2 * ranks - 1 - c) half padded = half * c := by
      unfold remainStart
      obtain ⟨r,rfl⟩ : ∃ r, c = 2 * ranks - (r + 1) := ⟨2 * ranks - (c + 1),by omega⟩
      rw [show 2 * ranks - 1 - (2 * ranks - (r + 1)) = r by omega,size,show 2 * (half * ranks) = half * (2 * ranks) by ring,
        Nat.mul_sub]
    have stop : remainEnd (2 * ranks - 1 - c) half padded d.length = min (half * (c + 1)) d.length := by
      unfold remainEnd
      congr 1
      have rank : 2 * ranks - 1 - c = 2 * ranks - (c + 1) := by omega
      rw [rank,Nat.mul_sub,size,show 2 * (half * ranks) = half * (2 * ranks) by ring]
      have most : half * (c + 1) ≤ half * (2 * ranks) := Nat.mul_le_mul_left half (by omega)
      omega
    dsimp only at found rest ⊢
    rw [start_,stop,if_pos (by omega)] at rest
    obtain ⟨wrapped,found',rfl⟩ := rest
    refine ⟨fun entry member at_ => ?_,?_⟩
    · rcases List.mem_cons.mp member with rfl | member
      · dsimp only at at_
        omega
      · obtain rfl := List.mem_singleton.mp member
        dsimp only at at_ ⊢
        rw [← found' (by omega)]
        congr 1
        omega
    · by_cases end_ : min (half * (c + 1)) d.length = t + 1
      · exact .inl ⟨_,List.mem_cons_of_mem _ (List.mem_singleton.mpr rfl),by dsimp only; omega⟩
      · obtain ⟨chunk,place_⟩ := later (by omega)
        right
        rw [chunk,place_,if_neg near]
        rfl

end Chunks

end RelayOpd.ContextParallel
