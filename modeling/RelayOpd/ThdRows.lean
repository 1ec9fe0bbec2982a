import RelayOpd.ContextParallelChunks
import Mathlib.Data.Nat.ModEq

/-! The rows of all sequences at the ranks after `preprocess_thd_engine`, and what
`postprocess_thd_engine` makes of a function of them. -/
namespace RelayOpd.ContextParallel

open Zigzag

section Sequence

variable {α : Type} (p : Parallel) (needRoll : Bool) (dense : List Nat) (zero : α)

theorem padSequence_ok (seq : List α) (dense_ : dense ≠ [] → thdAlignSize p ≤ seq.length * dense.prod) :
    ∃ d, padSequence p dense zero seq = some d ∧ d.length = paddedRows p dense seq.length ∧ seq <+: d := by
  unfold padSequence paddedRows
  by_cases scalars : dense = []
  · rw [if_pos scalars,if_pos scalars,scalars,List.prod_nil,Nat.mul_one]
    split
    · rename_i short
      refine ⟨_,rfl,?_,List.prefix_append _ _⟩
      rw [List.length_append,List.length_replicate]
      omega
    · rename_i long
      exact ⟨seq,rfl,(Nat.max_eq_left (Nat.le_of_not_lt long)).symm,List.prefix_rfl⟩
  · rw [if_neg (Nat.not_lt_of_le (dense_ scalars)),if_neg scalars]
    exact ⟨seq,rfl,rfl,List.prefix_rfl⟩

theorem dense_of_padSequence {seq d : List α} (given : padSequence p dense zero seq = some d) (rows : dense ≠ []) :
    thdAlignSize p ≤ seq.length * dense.prod := by
  by_contra short
  rw [padSequence,if_pos (Nat.lt_of_not_le short),if_neg rows] at given
  nomatch given

/-- What a rank gets of a sequence and its padded length. -/
def block (rank : Nat) (entry : List α × Nat) : List α :=
  if p.cpSize ≤ 1 then entry.1 ++ List.replicate (entry.2 - entry.1.length) zero
  else
    zigzag (entry.2 / p.cpSize / 2) entry.2 rank
      (fullRow zero entry.2 ((padSequence p dense zero entry.1).getD []))

/-- The rows that a rank saves of a sequence. -/
def saves (rank cuPadded : Nat) (entry : List α × Nat) : List (Nat × α) :=
  if needRoll && decide (1 < p.cpSize) then
    (saveRoll rank (entry.2 / p.cpSize / 2) entry.2 (cuPadded / p.cpSize)
      ((padSequence p dense zero entry.1).getD [])).getD []
  else []

/-- A sequence that is not empty, with a padded length that leaves enough rows for the chunks. -/
structure Packable (entry : List α × Nat) : Prop where
  pos : 0 < entry.1.length
  known : PaddedTo p entry.1.length entry.2
  fits : 1 < p.cpSize → Fits p needRoll dense entry.1.length entry.2

variable {p needRoll dense}

/-- The numbers of a sequence that is cut into chunks. -/
theorem Packable.chunks {entry : List α × Nat} (packable : Packable p needRoll dense entry) (several : 1 < p.cpSize) :
    ∃ half d, 0 < half ∧ entry.2 / p.cpSize / 2 = half ∧ entry.2 / p.cpSize = 2 * half ∧ entry.2 = 2 * (half * p.cpSize) ∧
      padSequence p dense zero entry.1 = some d ∧ d.length ≤ entry.2 ∧ entry.1 <+: d ∧
      (entry.2 / 2 ≤ d.length ∨ entry.2 / 2 + 1 = d.length + half) ∧ (needRoll = true → half * p.cpSize < d.length) := by
  obtain ⟨half,pos,whole,chunk,middle⟩ := packable.known.chunks packable.pos several
  obtain ⟨dense_,enough⟩ := packable.fits several
  obtain ⟨d,padded,length,front⟩ := padSequence_ok p dense zero entry.1 dense_
  rw [← length] at enough
  have halves : entry.2 / p.cpSize / 2 = half := by rw [chunk]; exact Nat.mul_div_cancel_left half (by decide)
  rw [halves] at enough
  have le : d.length ≤ entry.2 := by
    rw [length,paddedRows]
    have align := packable.known.align packable.pos
    have le := packable.known.le
    split
    · exact Nat.max_le.mpr ⟨le,align⟩
    · exact le
  refine ⟨half,d,pos,halves,chunk,by rw [whole]; ring,padded,le,front,?_,?_⟩
  · cases needRoll with
    | true => exact .inl (Nat.le_of_lt enough)
    | false => exact enough
  · rintro rfl
    rw [← middle]
    exact enough

theorem Packable.zigzag {entry : List α × Nat} (packable : Packable p needRoll dense entry) (several : 1 < p.cpSize) :
    ∃ half row, entry.2 / p.cpSize / 2 = half ∧ entry.2 / p.cpSize = 2 * half ∧ row.length = entry.2 ∧
      entry.2 = 2 * p.cpSize * half ∧ entry.1 <+: row ∧
      ∀ rank, block p dense zero rank entry = Zigzag.zigzag half row.length rank row := by
  obtain ⟨half,d,pos,halves,chunk,size,padded,le,front,_,_⟩ := packable.chunks zero several
  have length := fullRow_length zero entry.2 d le
  refine ⟨half,fullRow zero entry.2 d,halves,chunk,length,by rw [size]; ring,?_,fun rank => ?_⟩
  · rw [fullRow,List.append_assoc]
    exact front.trans (List.prefix_append _ _)
  · rw [block,if_neg (Nat.not_le_of_lt several),halves,padded,length]
    rfl

theorem block_length {entry : List α × Nat} (packable : Packable p needRoll dense entry) {rank : Nat} (inside : rank < p.cpSize) :
    (block p dense zero rank entry).length = entry.2 / p.cpSize := by
  rcases Nat.lt_or_ge 1 p.cpSize with several | single
  · obtain ⟨half,row,_,chunk,length,size,_,block_⟩ := packable.zigzag zero several
    have next : half * (rank + 1) = half * rank + half := Nat.mul_succ half rank
    have most : half * (rank + 1) ≤ half * p.cpSize := Nat.mul_le_mul_left half inside
    have twice : 2 * p.cpSize * half = half * p.cpSize + half * p.cpSize := by ring
    rw [block_,Zigzag.zigzag,List.length_append,slice_length,slice_length,chunk]
    omega
  · have one : p.cpSize = 1 := by omega
    have le := packable.known.le
    rw [block,if_pos single,List.length_append,List.length_replicate,one,Nat.div_one]
    omega

/-- A sequence takes its place, and what it saves is kept. -/
theorem packSequence_ok {entry : List α × Nat} (packable : Packable p needRoll dense entry) {rank : Nat}
    (inside : rank < p.cpSize) (cuPadded : Nat) (front back : List α) (at_ : front.length = cuPadded / p.cpSize)
    (s : Rmpad α) (shape : s.inputIds = front ++ List.replicate (entry.2 / p.cpSize) zero ++ back)
    (same : s.positionIds.length = s.inputIds.length) :
    ∃ s', packSequence p rank needRoll dense zero cuPadded entry.2 entry.1 s = some s' ∧
      s'.inputIds = front ++ block p dense zero rank entry ++ back ∧ s'.positionIds.length = s'.inputIds.length ∧
      s'.savedRoll = s.savedRoll ++ saves p needRoll dense zero rank cuPadded entry := by
  have kept := block_length zero packable inside
  rcases Nat.lt_or_ge 1 p.cpSize with several | single
  · obtain ⟨half,d,pos,halves,chunk,size,padded,le,_,enough,roll⟩ := packable.chunks zero several
    have ids := packIds_eq zero size rank inside le front back
    rw [first_chunk zero size enough rank inside,Option.map_some] at ids
    have room : s.inputIds.length = front.length + 2 * half + back.length := by
      rw [shape,chunk,List.length_append,List.length_append,List.length_replicate]
    obtain ⟨positions,made,length⟩ := packPositions_ok size rank inside front.length d.length entry.1.length s.positionIds
      (by omega)
    rw [chunk] at shape
    have block_ : block p dense zero rank entry = Zigzag.zigzag half entry.2 rank (fullRow zero entry.2 d) := by
      rw [block,if_neg (Nat.not_le_of_lt several),halves,padded]
      rfl
    have total : positions.length = (front ++ block p dense zero rank entry ++ back).length := by
      rw [length,same,room,List.length_append,List.length_append,kept,chunk]
    rw [packSequence,if_neg (Nat.not_le_of_lt several)]
    simp only [halves,padded,← at_,shape,ids,made,Option.bind_eq_bind,Option.bind_some]
    cases needRoll with
    | false =>
      rw [if_neg Bool.false_ne_true]
      rw [block_] at total ⊢
      refine ⟨_,rfl,rfl,total,?_⟩
      simp [saves]
    | true =>
      have next : half * (rank + 1) ≤ half * p.cpSize := Nat.mul_le_mul_left half inside
      have more : (rank + 1) * half < d.length := by
        rw [Nat.mul_comm]
        exact Nat.lt_of_le_of_lt next (roll rfl)
      obtain ⟨rows,saved⟩ : ∃ rows, saveRoll rank half entry.2 front.length d = some rows :=
        Option.isSome_iff_exists.mp ((saveRoll_isSome rank front.length).mpr more)
      obtain ⟨positionRows,saved'⟩ := savePositionRoll_ok size pos rank inside front.length d.length positions (by omega)
      simp only [if_true,saved,saved',Option.bind_some]
      rw [block_] at total ⊢
      refine ⟨_,rfl,rfl,total,?_⟩
      simp [saves,several,halves,padded,← at_,saved]
  · have one : p.cpSize = 1 := by omega
    have le := packable.known.le
    rw [one,Nat.div_one] at at_ shape
    have zeros : List.replicate entry.2 zero =
        List.replicate entry.1.length zero ++ List.replicate (entry.2 - entry.1.length) zero := by
      rw [List.replicate_append_replicate,Nat.add_sub_cancel' le]
    have ids := setSlice_eq cuPadded (cuPadded + entry.1.length) front (List.replicate entry.1.length zero)
      (List.replicate (entry.2 - entry.1.length) zero ++ back) entry.1 at_ (by rw [List.length_replicate])
      (List.length_replicate).symm
    have room : s.inputIds.length = front.length + entry.2 + back.length := by
      rw [shape,List.length_append,List.length_append,List.length_replicate]
    obtain ⟨positions,made,length⟩ := setSlice_exact cuPadded (cuPadded + entry.1.length) (List.range entry.1.length)
      s.positionIds (by omega) (by rw [List.length_range]; omega)
    have total : positions.length = (front ++ block p dense zero rank entry ++ back).length := by
      rw [length,same,room,List.length_append,List.length_append,kept,one,Nat.div_one]
    have block_ : front ++ block p dense zero rank entry ++ back =
        front ++ entry.1 ++ (List.replicate (entry.2 - entry.1.length) zero ++ back) := by
      rw [block,if_pos single]
      simp only [List.append_assoc]
    rw [block_] at total ⊢
    rw [zeros,List.append_assoc,List.append_assoc,← List.append_assoc] at shape
    rw [packSequence,if_pos single,shape,ids,Option.bind_eq_bind,Option.bind_some,made]
    refine ⟨_,rfl,rfl,total,?_⟩
    simp [saves,Nat.not_lt_of_le single]

/-- Where the last rank can pack a sequence there are enough rows for all ranks. -/
theorem fits_of_packSequence {entry : List α × Nat} (pos : 0 < entry.1.length) (known : PaddedTo p entry.1.length entry.2)
    (several : 1 < p.cpSize) (cuPadded : Nat) (front back : List α) (at_ : front.length = cuPadded / p.cpSize)
    (s s' : Rmpad α) (shape : s.inputIds = front ++ List.replicate (entry.2 / p.cpSize) zero ++ back)
    (packed : packSequence p (p.cpSize - 1) needRoll dense zero cuPadded entry.2 entry.1 s = some s') :
    Fits p needRoll dense entry.1.length entry.2 := by
  obtain ⟨half,positive,whole,chunk,middle⟩ := known.chunks pos several
  have halves : entry.2 / p.cpSize / 2 = half := by rw [chunk]; exact Nat.mul_div_cancel_left half (by decide)
  have size : entry.2 = 2 * (half * p.cpSize) := by rw [whole]; ring
  rw [packSequence,if_neg (Nat.not_le_of_lt several),Option.bind_eq_bind,Option.bind_eq_some_iff] at packed
  obtain ⟨d,padded,packed⟩ := packed
  have dense_ := dense_of_padSequence p dense zero padded
  obtain ⟨d',padded',length,_⟩ := padSequence_ok p dense zero entry.1 dense_
  obtain rfl := Option.some.inj (padded.symm.trans padded')
  have le : d.length ≤ entry.2 := by
    rw [length,paddedRows]
    have align := known.align pos
    have le := known.le
    split
    · exact Nat.max_le.mpr ⟨le,align⟩
    · exact le
  have ids := packIds_eq zero size (p.cpSize - 1) (by omega) le front back
  rw [chunk] at shape
  simp only [Option.bind_eq_bind,Option.bind_eq_some_iff,halves,← at_,shape,ids] at packed
  obtain ⟨inputIds,cut,positionIds,_,packed⟩ := packed
  obtain ⟨first,spread_,_⟩ := Option.map_eq_some_iff.mp cut
  rw [Nat.sub_add_cancel (by omega)] at spread_
  have enough := enough_of_last size positive (by omega) (Option.isSome_of_eq_some spread_)
  refine ⟨dense_,?_⟩
  rw [← length,halves]
  split at packed
  · rename_i roll
    rw [if_pos roll]
    obtain ⟨rows,saved,_⟩ := Option.bind_eq_some_iff.mp packed
    have more := (saveRoll_isSome _ _).mp (Option.isSome_of_eq_some saved)
    rw [Nat.sub_add_cancel (by omega),Nat.mul_comm] at more
    omega
  · rename_i still
    rw [if_neg still]
    exact enough

end Sequence

section Loop

variable {α : Type} {p : Parallel} {needRoll : Bool} {dense : List Nat} (zero : α)

/-- The saved rows of all sequences, from `cuPadded` on. -/
def savesFrom (p : Parallel) (needRoll : Bool) (dense : List Nat) (zero : α) (rank : Nat) :
    Nat → List (List α × Nat) → List (Nat × α)
  | _,[] => []
  | cuPadded,entry :: rest =>
    saves p needRoll dense zero rank cuPadded entry ++ savesFrom p needRoll dense zero rank (cuPadded + entry.2) rest

theorem cpSize_dvd {seqlen padded : Nat} (known : PaddedTo p seqlen padded) (pos : 0 < p.cpSize) : p.cpSize ∣ padded := by
  refine Nat.dvd_trans ?_ known.whole
  unfold alignSize
  split
  · exact ⟨p.tpSize * 2,by ring⟩
  · rename_i single
    rw [show p.cpSize = 1 by omega]
    exact Nat.one_dvd _

theorem packSequences_ok (entries : List (List α × Nat)) (packable : ∀ entry ∈ entries, Packable p needRoll dense entry)
    {rank : Nat} (inside : rank < p.cpSize) :
    ∀ (cuPadded : Nat) (front : List α) (s : Rmpad α), front.length = cuPadded / p.cpSize →
      s.inputIds = front ++ List.replicate ((entries.map Prod.snd).sum / p.cpSize) zero →
      s.positionIds.length = s.inputIds.length →
      ∃ s', packSequences p rank needRoll dense zero entries cuPadded s = some s' ∧
        s'.inputIds = front ++ entries.flatMap (block p dense zero rank) ∧
        s'.savedRoll = s.savedRoll ++ savesFrom p needRoll dense zero rank cuPadded entries := by
  induction entries with
  | nil =>
    intro cuPadded front s _ shape _
    refine ⟨s,rfl,?_,by simp [savesFrom]⟩
    simpa using shape
  | cons entry rest ih =>
    intro cuPadded front s at_ shape same
    have first := packable entry List.mem_cons_self
    have divides := cpSize_dvd first.known (by omega)
    have split_ : List.replicate (((entry :: rest).map Prod.snd).sum / p.cpSize) zero =
        List.replicate (entry.2 / p.cpSize) zero ++ List.replicate ((rest.map Prod.snd).sum / p.cpSize) zero := by
      rw [List.map_cons,List.sum_cons,Nat.add_div_of_dvd_right divides,List.replicate_append_replicate]
    rw [split_,← List.append_assoc] at shape
    obtain ⟨next,packed,ids,same',saved⟩ := packSequence_ok zero first inside cuPadded front _ at_ s shape same
    have at' : (front ++ block p dense zero rank entry).length = (cuPadded + entry.2) / p.cpSize := by
      rw [List.length_append,block_length zero first inside,at_,Nat.add_div_of_dvd_left divides]
    obtain ⟨s',packed',ids',saved'⟩ := ih (fun entry later => packable entry (List.mem_cons_of_mem _ later))
      (cuPadded + entry.2) (front ++ block p dense zero rank entry) next at' ids same'
    refine ⟨s',?_,?_,?_⟩
    · rw [packSequences,packed]
      exact packed'
    · rw [ids',List.flatMap_cons,List.append_assoc]
    · rw [saved',saved,List.append_assoc]
      rfl

theorem fits_of_packSequences (several : 1 < p.cpSize) (entries : List (List α × Nat))
    (known : ∀ entry ∈ entries, 0 < entry.1.length ∧ PaddedTo p entry.1.length entry.2) :
    ∀ (cuPadded : Nat) (front : List α) (s s' : Rmpad α), front.length = cuPadded / p.cpSize →
      s.inputIds = front ++ List.replicate ((entries.map Prod.snd).sum / p.cpSize) zero →
      s.positionIds.length = s.inputIds.length →
      packSequences p (p.cpSize - 1) needRoll dense zero entries cuPadded s = some s' →
      ∀ entry ∈ entries, Fits p needRoll dense entry.1.length entry.2 := by
  induction entries with
  | nil => exact fun _ _ _ _ _ _ _ _ entry member => nomatch member
  | cons entry rest ih =>
    intro cuPadded front s s' at_ shape same packed
    obtain ⟨pos,known_⟩ := known entry List.mem_cons_self
    have divides := cpSize_dvd known_ (by omega)
    have split_ : List.replicate (((entry :: rest).map Prod.snd).sum / p.cpSize) zero =
        List.replicate (entry.2 / p.cpSize) zero ++ List.replicate ((rest.map Prod.snd).sum / p.cpSize) zero := by
      rw [List.map_cons,List.sum_cons,Nat.add_div_of_dvd_right divides,List.replicate_append_replicate]
    rw [split_,← List.append_assoc] at shape
    rw [packSequences,Option.bind_eq_bind,Option.bind_eq_some_iff] at packed
    obtain ⟨next,first,packed⟩ := packed
    have fits := fits_of_packSequence zero pos known_ several cuPadded front _ at_ s next shape first
    have inside : p.cpSize - 1 < p.cpSize := by omega
    have packable : Packable p needRoll dense entry := ⟨pos,known_,fun _ => fits⟩
    obtain ⟨next',first',ids,same',_⟩ := packSequence_ok zero packable inside cuPadded front _ at_ s shape same
    obtain rfl := Option.some.inj (first.symm.trans first')
    have at' : (front ++ block p dense zero (p.cpSize - 1) entry).length = (cuPadded + entry.2) / p.cpSize := by
      rw [List.length_append,block_length zero packable inside,at_,Nat.add_div_of_dvd_left divides]
    have later := ih (fun entry later => known entry (List.mem_cons_of_mem _ later)) (cuPadded + entry.2) _ next s' at' ids
      same' packed
    exact List.forall_mem_cons.mpr ⟨fits,later⟩

end Loop

section Output

variable {α β : Type} {p : Parallel} {needRoll : Bool} {dense : List Nat} (zero : α)

/-- The bounds of every sequence. -/
def intervals : Nat → List Nat → List (Nat × Nat)
  | _,[] => []
  | start,padded :: rest => (start,start + padded) :: intervals (start + padded) rest

theorem intervals_eq (start : Nat) (padded : List Nat) :
    (padded.scanl (· + ·) start).zip (padded.scanl (· + ·) start).tail = intervals start padded := by
  induction padded generalizing start with
  | nil => simp [intervals]
  | cons first rest ih =>
    have next := ih (start + first)
    cases rest with
    | nil => simp [intervals]
    | cons second rest => simpa [intervals] using next

/-- What comes back of a sequence. With several ranks the values pass the dtype of `tmp`. -/
def through (p : Parallel) (narrow : β → β) (f : α → β) : α → β := if p.cpSize ≤ 1 then f else narrow ∘ f

theorem postprocessSequence_ok {entry : List α × Nat} (packable : Packable p needRoll dense entry) (cp : 0 < p.cpSize)
    (narrow : β → β) (blank : β) (f : α → β) (start : Nat) (front back outputs : Nat → List β)
    (at_ : ∀ j < p.cpSize, (front j).length = start / p.cpSize)
    (shape : ∀ j < p.cpSize, outputs j = front j ++ (block p dense zero j entry).map f ++ back j) :
    postprocessSequence p.cpSize narrow blank outputs (start,start + entry.2) entry.1.length =
      some (entry.1.map (through p narrow f)) := by
  rcases Nat.lt_or_ge 1 p.cpSize with several | single
  · obtain ⟨half,row,halves,chunk,length,size,⟨rest,whole⟩,block_⟩ := packable.zigzag zero several
    have total : 2 * half * p.cpSize = row.length := by rw [length,size]; ring
    have mapped : (row.map (narrow ∘ f)).length = row.length := List.length_map _
    have sliced (j : Nat) (inside : j < p.cpSize) (a b : Nat) (within : b ≤ 2 * half) :
        Zigzag.slice (start / p.cpSize + a) (start / p.cpSize + b) (outputs j) =
          (Zigzag.slice a b (Zigzag.zigzag half row.length j row)).map f := by
      have kept := block_length zero packable inside
      rw [shape j inside,← at_ j inside,Zigzag.slice_middle _ _ _ _ _ (by rw [List.length_map,kept,chunk]; exact within),slice_map,
        block_ j]
    have parts (j : Nat) (inside : j < p.cpSize) :
        Zigzag.slice 0 half (Zigzag.zigzag half row.length j row) = Zigzag.slice (j * half) ((j + 1) * half) row ∧
          Zigzag.slice half (2 * half) (Zigzag.zigzag half row.length j row) =
            Zigzag.slice (row.length - (j + 1) * half) (row.length - j * half) row := by
      obtain ⟨first,second,held⟩ := zigzag_halves half p.cpSize j row (length.trans size) inside
      have all : Zigzag.slice half (2 * half) (Zigzag.zigzag half row.length j row) =
          (Zigzag.zigzag half row.length j row).drop half := by
        rw [Zigzag.slice,List.take_of_length_le (Nat.le_of_eq held)]
      exact ⟨first,all.trans second⟩
    rw [postprocessSequence,if_neg (Nat.not_le_of_lt several)]
    dsimp only
    rw [Nat.add_sub_cancel_left,halves,chunk,total,← mapped,gather_zigzag half p.cpSize (row.map (narrow ∘ f)) _ _ _
      (by rw [mapped,← total]; ring) (by rw [List.length_replicate]) (fun j inside => ?_) (fun j inside => ?_)]
    · rw [Option.map_some,through,if_neg (Nat.not_le_of_lt several),← whole,List.map_append,List.take_left' (List.length_map _)]
    · have same := sliced j inside 0 half (by omega)
      rw [Nat.add_zero] at same
      rw [same,(parts j inside).1,List.map_map,slice_map]
    · rw [sliced j inside half (2 * half) (Nat.le_refl _),(parts j inside).2,List.map_map,mapped,slice_map]
  · have one : p.cpSize = 1 := by omega
    rw [postprocessSequence,if_pos single,through,if_pos single,shape 0 cp]
    have place := at_ 0 cp
    rw [one,Nat.div_one] at place
    have middle := Zigzag.slice_middle 0 entry.1.length (front 0) ((block p dense zero 0 entry).map f) (back 0) (by
      rw [List.length_map,block_length zero packable cp,one,Nat.div_one]
      exact packable.known.le)
    rw [Nat.add_zero,place] at middle
    dsimp only
    rw [middle,slice_map,block,if_pos single,slice_append_left _ _ _ _ (Nat.le_refl _),Zigzag.slice,List.take_length,List.drop_zero]

/-- The outputs of the ranks come back, sequence by sequence. -/
theorem postprocess_entries (narrow : β → β) (blank : β) (f : α → β) (cp : 0 < p.cpSize) (entries : List (List α × Nat))
    (packable : ∀ entry ∈ entries, Packable p needRoll dense entry) :
    ∀ (start : Nat) (front outputs : Nat → List β), (∀ j < p.cpSize, (front j).length = start / p.cpSize) →
      (∀ j < p.cpSize, outputs j = front j ++ (entries.flatMap (block p dense zero j)).map f) →
      ((intervals start (entries.map Prod.snd)).zip (entries.map (fun entry => entry.1.length))).mapM
          (fun entry => postprocessSequence p.cpSize narrow blank outputs entry.1 entry.2) =
        some (entries.map (fun entry => entry.1.map (through p narrow f))) := by
  induction entries with
  | nil => exact fun _ _ _ _ _ => rfl
  | cons entry rest ih =>
    intro start front outputs at_ shape
    have first := packable entry List.mem_cons_self
    have divides := cpSize_dvd first.known cp
    have shape' (j : Nat) (inside : j < p.cpSize) :
        outputs j = front j ++ (block p dense zero j entry).map f ++ (rest.flatMap (block p dense zero j)).map f := by
      rw [shape j inside,List.flatMap_cons,List.map_append,List.append_assoc]
    have later := ih (fun entry later => packable entry (List.mem_cons_of_mem _ later)) (start + entry.2)
      (fun j => front j ++ (block p dense zero j entry).map f) outputs (fun j inside => by
        rw [List.length_append,List.length_map,block_length zero first inside,at_ j inside,Nat.add_div_of_dvd_left divides])
      shape'
    rw [List.map_cons,intervals,List.map_cons,List.zip_cons_cons,List.mapM_cons,
      postprocessSequence_ok zero first cp narrow blank f start front _ outputs at_ shape',later]
    rfl

end Output

section Roll

variable {α : Type} {p : Parallel} {dense : List Nat} (zero : α)

/-- A row with a saved value, or one that was there and is not written. -/
theorem foldl_set_eq (saved : List (Nat × α)) (place : Nat) (value : α) (rows : List α) (inside : place < rows.length)
    (right : ∀ entry ∈ saved, entry.1 = place → entry.2 = value)
    (there : rows[place]? = some value ∨ ∃ entry ∈ saved, entry.1 = place) :
    (saved.foldl (fun rows entry => rows.set entry.1 entry.2) rows)[place]? = some value := by
  induction saved generalizing rows with
  | nil =>
    rcases there with there | ⟨entry,member,_⟩
    · exact there
    · nomatch member
  | cons entry rest ih =>
    refine ih (rows.set entry.1 entry.2) (by rwa [List.length_set])
      (fun other later => right other (List.mem_cons_of_mem entry later)) ?_
    by_cases at_ : entry.1 = place
    · left
      rw [at_,List.getElem?_set_self inside,right entry List.mem_cons_self at_]
    · rw [List.getElem?_set_ne at_]
      rcases there with there | ⟨other,member,same⟩
      · exact .inl there
      · rcases List.mem_cons.mp member with rfl | later
        · exact absurd same at_
        · exact .inr ⟨other,later,same⟩

/-- A rank saves rows of its place for the sequence only. -/
theorem saves_place {needRoll : Bool} {entry : List α × Nat} (packable : Packable p needRoll dense entry) {rank : Nat}
    (inside : rank < p.cpSize) (cuPadded : Nat) (saved : Nat × α)
    (member : saved ∈ saves p needRoll dense zero rank cuPadded entry) :
    cuPadded / p.cpSize ≤ saved.1 ∧ saved.1 < cuPadded / p.cpSize + entry.2 / p.cpSize := by
  unfold saves at member
  split at member
  · rename_i roll
    have several : 1 < p.cpSize := by simp_all
    obtain ⟨half,d,pos,halves,chunk,size,padded,_⟩ := packable.chunks zero several
    rw [halves,padded] at member
    have next : half * (rank + 1) = half * rank + half := Nat.mul_succ half rank
    have most : half * (rank + 1) ≤ half * p.cpSize := Nat.mul_le_mul_left half inside
    have last : remainEnd rank half entry.2 d.length - remainStart rank half entry.2 ≤ half := by
      unfold remainStart remainEnd
      omega
    rw [chunk]
    generalize cuPadded / p.cpSize = start at member ⊢
    cases given : saveRoll rank half entry.2 start d with
    | none =>
      rw [Option.getD_some,given] at member
      nomatch member
    | some rows =>
      rw [Option.getD_some,given,Option.getD_some] at member
      obtain ⟨first,_,rest⟩ := saveRoll_entries given
      split at rest
      · obtain ⟨wrapped,_,rfl⟩ := rest
        rcases List.mem_cons.mp member with rfl | member
        · dsimp only
          omega
        · obtain rfl := List.mem_singleton.mp member
          dsimp only
          omega
      · rw [rest] at member
        obtain rfl := List.mem_singleton.mp member
        dsimp only
        omega
  · nomatch member

theorem savesFrom_place {needRoll : Bool} (entries : List (List α × Nat))
    (packable : ∀ entry ∈ entries, Packable p needRoll dense entry) {rank : Nat} (inside : rank < p.cpSize) (cuPadded : Nat)
    (saved : Nat × α) (member : saved ∈ savesFrom p needRoll dense zero rank cuPadded entries) :
    cuPadded / p.cpSize ≤ saved.1 ∧ saved.1 < cuPadded / p.cpSize + (entries.map Prod.snd).sum / p.cpSize := by
  induction entries generalizing cuPadded with
  | nil => nomatch member
  | cons entry rest ih =>
    have first := packable entry List.mem_cons_self
    have divides := cpSize_dvd first.known (by omega)
    rw [List.map_cons,List.sum_cons,Nat.add_div_of_dvd_right divides]
    rcases List.mem_append.mp member with member | member
    · have place := saves_place zero first inside cuPadded saved member
      exact ⟨place.1,place.2.trans_le (Nat.add_le_add_left (Nat.le_add_right _ _) _)⟩
    · have place := ih (fun entry later => packable entry (List.mem_cons_of_mem _ later)) (cuPadded + entry.2) member
      rw [Nat.add_div_of_dvd_left divides,Nat.add_assoc] at place
      exact ⟨(Nat.le_add_right _ _).trans place.1,place.2⟩

theorem savesFrom_append (needRoll : Bool) (rank cuPadded : Nat) (before after : List (List α × Nat)) :
    savesFrom p needRoll dense zero rank cuPadded (before ++ after) =
      savesFrom p needRoll dense zero rank cuPadded before ++
        savesFrom p needRoll dense zero rank (cuPadded + (before.map Prod.snd).sum) after := by
  induction before generalizing cuPadded with
  | nil => rfl
  | cons entry before ih =>
    rw [List.cons_append,savesFrom,savesFrom,ih,List.append_assoc,List.map_cons,List.sum_cons,Nat.add_assoc]

theorem savesFrom_single (dense : List Nat) (single : p.cpSize ≤ 1) (needRoll : Bool) (rank cuPadded : Nat)
    (entries : List (List α × Nat)) : savesFrom p needRoll dense zero rank cuPadded entries = [] := by
  induction entries generalizing cuPadded with
  | nil => rfl
  | cons entry rest ih =>
    rw [savesFrom,ih]
    simp [saves,Nat.not_lt_of_le single]

theorem blocks_length {needRoll : Bool} (entries : List (List α × Nat))
    (packable : ∀ entry ∈ entries, Packable p needRoll dense entry) {rank : Nat} (inside : rank < p.cpSize) :
    (entries.flatMap (block p dense zero rank)).length = (entries.map Prod.snd).sum / p.cpSize := by
  induction entries with
  | nil => simp
  | cons entry rest ih =>
    have first := packable entry List.mem_cons_self
    rw [List.flatMap_cons,List.length_append,block_length zero first inside,List.map_cons,List.sum_cons,
      Nat.add_div_of_dvd_right (cpSize_dvd first.known (by omega)),
      ih fun entry later => packable entry (List.mem_cons_of_mem _ later)]

/-- The rows of a rank after the roll. -/
def rolledRows (p : Parallel) (dense : List Nat) (zero : α) (entries : List (List α × Nat)) (rank : Nat) : List α :=
  rolled (savesFrom p true dense zero rank 0 entries) (entries.flatMap (block p dense zero rank))

/-- The next token of the sequence is at the slot of every token but the last. -/
theorem rolled_value (cp : 0 < p.cpSize) (before after : List (List α × Nat)) (entry : List α × Nat)
    (packable : ∀ other ∈ before ++ entry :: after, Packable p true dense other) (t : Nat) (more : t + 1 < entry.1.length)
    (held : Nat → List α) (shape : ∀ j < p.cpSize, held j = rolledRows p dense zero (before ++ entry :: after) j) :
    thdValueAt p held ((before.map Prod.snd).sum,(before.map Prod.snd).sum + entry.2) t = entry.1[t + 1]? := by
  have own := packable entry (List.mem_append_right before List.mem_cons_self)
  have front_ := fun other member => packable other (List.mem_append_left _ member)
  have back_ := fun other member => packable other (List.mem_append_right before (List.mem_cons_of_mem entry member))
  obtain ⟨start,given⟩ : ∃ start, (before.map Prod.snd).sum = start := ⟨_,rfl⟩
  -- the row behind a place of the sequence, before the roll
  have next (j : Nat) (inside : j < p.cpSize) (k : Nat) (within : k + 1 < entry.2 / p.cpSize) :
      (((before ++ entry :: after).flatMap (block p dense zero j)).rotate 1)[start / p.cpSize + k]? =
        (block p dense zero j entry)[k + 1]? := by
    have lead := blocks_length zero before front_ inside
    have size := block_length zero own inside
    rw [given] at lead
    rw [List.flatMap_append,List.flatMap_cons,List.getElem?_rotate (by simp only [List.length_append,lead,size]; omega),
      Nat.mod_eq_of_lt (by simp only [List.length_append,lead,size]; omega),List.getElem?_append_right (by omega),
      List.getElem?_append_left (by omega)]
    congr 1
    omega
  have room (j : Nat) (inside : j < p.cpSize) (k : Nat) (within : k < entry.2 / p.cpSize) :
      start / p.cpSize + k < (((before ++ entry :: after).flatMap (block p dense zero j)).rotate 1).length := by
    have lead := blocks_length zero before front_ inside
    have size := block_length zero own inside
    rw [given] at lead
    simp only [List.length_rotate,List.flatMap_append,List.flatMap_cons,List.length_append,lead,size]
    omega
  rw [given,thdValueAt]
  rcases Nat.lt_or_ge 1 p.cpSize with several | single
  · obtain ⟨half,row,halves,chunk,length,size,⟨rest,whole⟩,block_⟩ := own.zigzag zero several
    obtain ⟨half',d,pos,halves',_,size',padded,le,⟨tail,seqFront⟩,_,roll⟩ := own.chunks zero several
    obtain rfl : half' = half := halves'.symm.trans halves
    have short : entry.1.length ≤ d.length := by rw [← seqFront,List.length_append]; omega
    have inRow : entry.1.length ≤ row.length := by rw [← whole,List.length_append]; omega
    have dNext : d[t + 1]? = entry.1[t + 1]? := by rw [← seqFront,List.getElem?_append_left more]
    have rowNext : row[t + 1]? = entry.1[t + 1]? := by rw [← whole,List.getElem?_append_left more]
    have rowSize : row.length = 2 * p.cpSize * half' := length.trans size
    obtain ⟨rank,_⟩ := zigzag_slot half' p.cpSize t row rowSize (by omega)
    obtain ⟨_,value⟩ := zigzag_slot half' p.cpSize (t + 1) row rowSize (by omega)
    rw [if_neg (Nat.not_le_of_lt several)]
    dsimp only
    rw [Nat.add_sub_cancel_left,halves,shape _ rank]
    obtain ⟨place,at_⟩ : ∃ place, slot half' p.cpSize t = place := ⟨_,rfl⟩
    rw [at_] at rank ⊢
    have bound : place.2 < entry.2 / p.cpSize := by
      have below := Nat.mod_lt t pos
      rw [← at_,slot,chunk]
      split <;> dsimp only <;> omega
    have savedHere : ∃ saved, saveRoll place.1 half' entry.2 (start / p.cpSize) d = some saved := by
      refine Option.isSome_iff_exists.mp ((saveRoll_isSome _ _).mpr ?_)
      have most : (place.1 + 1) * half' ≤ p.cpSize * half' := Nat.mul_le_mul_right half' rank
      rw [Nat.mul_comm p.cpSize] at most
      exact Nat.lt_of_le_of_lt most (roll rfl)
    obtain ⟨saved,savedHere⟩ := savedHere
    have slots := roll_slot size' pos le (start / p.cpSize) t (by omega) (by rw [at_]; exact savedHere)
    rw [at_,dNext] at slots
    obtain ⟨value_,found⟩ : ∃ value_, entry.1[t + 1]? = some value_ := ⟨_,List.getElem?_eq_getElem more⟩
    rw [found] at slots ⊢
    have all : savesFrom p true dense zero place.1 0 (before ++ entry :: after) =
        savesFrom p true dense zero place.1 0 before ++
          (saved ++ savesFrom p true dense zero place.1 (start + entry.2) after) := by
      have mine : saves p true dense zero place.1 start entry = saved := by
        simp [saves,several,halves,padded,savedHere]
      rw [savesFrom_append,given,Nat.zero_add,savesFrom,mine]
    rw [rolledRows,rolled,all]
    refine foldl_set_eq _ _ value_ _ (room _ rank _ bound) (fun other member at' => ?_) ?_
    · rcases List.mem_append.mp member with early | member
      · have away := (savesFrom_place zero before front_ rank 0 other early).2
        rw [given,Nat.zero_div,Nat.zero_add,at'] at away
        exact absurd away (Nat.not_lt_of_le (Nat.le_add_right _ _))
      · rcases List.mem_append.mp member with mine | late
        · exact Option.some.inj (slots.1 other mine at')
        · have away := (savesFrom_place zero after back_ rank (start + entry.2) other late).1
          rw [Nat.add_div_of_dvd_left (cpSize_dvd own.known cp),at'] at away
          exact absurd (Nat.le_of_add_le_add_left away) (Nat.not_le_of_lt bound)
    · rcases slots.2 with ⟨other,mine,at'⟩ | behind
      · exact .inr ⟨other,List.mem_append_right _ (List.mem_append_left _ mine),at'⟩
      · left
        rw [behind] at value
        have within : place.2 + 1 < entry.2 / p.cpSize := by
          have below := Nat.mod_lt (t + 1) pos
          have second : (slot half' p.cpSize (t + 1)).2 < 2 * half' := by
            rw [slot]
            split <;> dsimp only <;> omega
          rw [behind] at second
          rw [chunk]
          exact second
        rw [next _ rank _ within,block_,value,rowNext,found]
  · have one : p.cpSize = 1 := by omega
    have le := own.known.le
    have none_ := savesFrom_single zero dense single true 0 0 (before ++ entry :: after)
    rw [if_pos single,shape 0 cp,rolledRows,none_,rolled,List.foldl_nil]
    have moved := next 0 cp t (by rw [one,Nat.div_one]; omega)
    rw [one,Nat.div_one] at moved
    rw [moved,block,if_pos single,List.getElem?_append_left more]

end Roll

end RelayOpd.ContextParallel
