import RelayOpd.ThdRows
import RelayOpd.BshdRows

/-! When a batch makes the round trip through the context-parallel ranks in both formats. -/
namespace RelayOpd.ContextParallel

open Zigzag

section Trip

variable {α β : Type} (p : Parallel) (needRoll : Bool) (dense : List Nat) (zero : α)

/-- The sequences with their padded lengths. -/
def entriesOf (rows : List (List α)) : List (List α × Nat) := rows.zip (seqlensPadded p (rows.map List.length))

variable {p}

theorem entriesOf_padded (tp : 0 < p.tpSize) (cp : 0 < p.cpSize) (rows : List (List α)) :
    (entriesOf p rows).map Prod.fst = rows ∧ (entriesOf p rows).map Prod.snd = seqlensPadded p (rows.map List.length) ∧
      ∀ entry ∈ entriesOf p rows, PaddedTo p entry.1.length entry.2 := by
  have related := List.forall₂_map_left_iff.mp (seqlensPadded_padded p tp cp (rows.map List.length))
  have size := related.length_eq
  refine ⟨List.map_fst_zip (Nat.le_of_eq size),List.map_snd_zip (Nat.le_of_eq size.symm),fun entry member => ?_⟩
  exact (List.forall₂_iff_zip.mp related).2 member

theorem preprocessThdEngine_some {rank : Nat} {rows : List (List α)} {packed : List α × PackedSeqParams × List Nat}
    (given : preprocessThdEngine p rank needRoll dense zero rows = some packed) :
    rows ≠ [] ∧ ∃ s, packSequences p rank needRoll dense zero (entriesOf p rows) 0
      ⟨List.replicate ((seqlensPadded p (rows.map List.length)).sum / p.cpSize) zero,
        List.replicate ((seqlensPadded p (rows.map List.length)).sum / p.cpSize) 0,[],[]⟩ = some s := by
  simp only [preprocessThdEngine,Option.bind_eq_bind,Option.bind_eq_some_iff] at given
  obtain ⟨longest,max_,s,packed_,_⟩ := given
  refine ⟨?_,s,packed_⟩
  rintro rfl
  have empty : seqlensPadded p [] = [] := by simp [seqlensPadded]
  rw [List.map_nil,empty] at max_
  nomatch max_

/-- What every rank holds when the sequences can be packed. -/
theorem preprocessThdEngine_ok (tp : 0 < p.tpSize) (cp : 0 < p.cpSize) (rows : List (List α)) (some_ : rows ≠ [])
    (packable : ∀ entry ∈ entriesOf p rows, Packable p needRoll dense entry) :
    ∃ longest, ∀ rank < p.cpSize, ∃ positions, preprocessThdEngine p rank needRoll dense zero rows =
      some (if needRoll then rolledRows p dense zero (entriesOf p rows) rank
          else (entriesOf p rows).flatMap (block p dense zero rank),
        ⟨(seqlensPadded p (rows.map List.length)).scanl (· + ·) 0,longest⟩,positions) := by
  obtain ⟨_,padded,_⟩ := entriesOf_padded tp cp rows
  obtain ⟨longest,max_⟩ : ∃ longest, (seqlensPadded p (rows.map List.length)).max? = some longest := by
    refine Option.isSome_iff_exists.mp (List.isSome_max?_iff.mpr fun empty => some_ ?_)
    have size := (seqlensPadded_padded p tp cp (rows.map List.length)).length_eq
    rw [empty,List.length_nil,List.length_map] at size
    exact List.eq_nil_of_length_eq_zero size
  refine ⟨longest,fun rank inside => ?_⟩
  obtain ⟨s,packed,ids,saved⟩ := packSequences_ok zero (entriesOf p rows) packable inside 0 []
    ⟨List.replicate ((seqlensPadded p (rows.map List.length)).sum / p.cpSize) zero,
      List.replicate ((seqlensPadded p (rows.map List.length)).sum / p.cpSize) 0,[],[]⟩
    (Nat.zero_div _).symm (by rw [padded,List.nil_append]) (by rw [List.length_replicate,List.length_replicate])
  rw [List.nil_append] at ids saved
  simp only [preprocessThdEngine,max_,Option.bind_eq_bind,Option.bind_some]
  rw [show rows.zip (seqlensPadded p (rows.map List.length)) = entriesOf p rows from rfl,packed,Option.bind_some,ids,saved]
  cases needRoll <;> exact ⟨_,rfl⟩

theorem postprocessThdEngine_ok (tp : 0 < p.tpSize) (cp : 0 < p.cpSize) (rows : List (List α))
    (packable : ∀ entry ∈ entriesOf p rows, Packable p needRoll dense entry) (longest : Nat) (narrow : β → β) (blank : β)
    (f : α → β) (held : Nat → List α) (shape : ∀ j < p.cpSize, held j = (entriesOf p rows).flatMap (block p dense zero j)) :
    postprocessThdEngine p.cpSize narrow blank ⟨(seqlensPadded p (rows.map List.length)).scanl (· + ·) 0,longest⟩
      (rows.map List.length) (fun j => (held j).map f) = some (rows.map (List.map (through p narrow f))) := by
  obtain ⟨seqs,padded,_⟩ := entriesOf_padded tp cp rows
  have each := postprocess_entries zero narrow blank f cp (entriesOf p rows) packable 0 (fun _ => [])
    (fun j => (held j).map f) (fun _ _ => (Nat.zero_div _).symm) (fun j inside => by rw [shape j inside]; rfl)
  have lengths : (entriesOf p rows).map (fun entry => entry.1.length) = rows.map List.length := by
    conv_rhs => rw [← seqs,List.map_map]
    rfl
  have outs : (entriesOf p rows).map (fun entry => entry.1.map (through p narrow f)) =
      rows.map (List.map (through p narrow f)) := by
    conv_rhs => rw [← seqs,List.map_map]
    rfl
  rw [padded,lengths,outs] at each
  rw [postprocessThdEngine,intervals_eq]
  exact each

/-- Every sequence of the batch with its bounds. -/
theorem entry_of_bounds (entries : List (List α × Nat)) (start : Nat) (entry : List α × Nat × Nat)
    (member : entry ∈ (entries.map Prod.fst).zip (intervals start (entries.map Prod.snd))) :
    ∃ before padded after, entries = before ++ (entry.1,padded) :: after ∧
      entry.2 = (start + (before.map Prod.snd).sum,start + (before.map Prod.snd).sum + padded) := by
  induction entries generalizing start with
  | nil => nomatch member
  | cons first rest ih =>
    rw [List.map_cons,List.map_cons,intervals,List.zip_cons_cons] at member
    rcases List.mem_cons.mp member with rfl | member
    · exact ⟨[],first.2,rest,rfl,by simp⟩
    · obtain ⟨before,padded,after,rfl,bounds⟩ := ih (start + first.2) member
      refine ⟨first :: before,padded,after,rfl,?_⟩
      rw [bounds,List.map_cons,List.sum_cons,Nat.add_assoc]

theorem bshdRoundTrip_ok (tp : 0 < p.tpSize) (cp : 0 < p.cpSize) (npu : Bool) (blank : β) (f : α → β) (rows : List (List α))
    (some_ : rows ≠ []) : BshdRoundTrip p needRoll npu zero blank f rows := by
  obtain ⟨maxSeqlen,given,upper,chunks⟩ := bshdMaxSeqlen_ok tp cp (rows.map List.length) (by simpa using some_)
  have room (seq : List α) (member : seq ∈ rows) := upper seq.length (List.mem_map_of_mem member)
  refine ⟨bshdHeld p zero needRoll maxSeqlen rows,fun j => attentionMask npu (bshdMask p maxSeqlen rows j),
    fun rank inside => preprocessBshdEngine_ok p zero inside needRoll npu rows maxSeqlen given room chunks,?_,?_⟩
  · rintro rfl
    exact postprocessBshdEngine_ok p zero cp npu rows maxSeqlen room chunks blank f
  · rintro rfl i row at_ t more
    exact bshdRolled_value p zero cp rows maxSeqlen room chunks i row at_ t more

variable (p)

/-- A batch makes the round trip if and only if it has a sequence and, with several ranks, every
sequence has enough rows for its padded length and `tmp` can hold the values. -/
theorem context_parallel_round_trip_iff (tp : 0 < p.tpSize) (cp : 0 < p.cpSize) (npu : Bool) (narrow : β → β) (blank : β)
    (f : α → β) (rows : List (List α)) (nonempty : ∀ seq ∈ rows, seq ≠ []) :
    ThdRoundTrip p needRoll dense zero narrow blank f rows ∧ BshdRoundTrip p needRoll npu zero blank f rows ↔
      rows ≠ [] ∧ (1 < p.cpSize →
        (∀ entry ∈ rows.zip (seqlensPadded p (rows.map List.length)), Fits p needRoll dense entry.1.length entry.2) ∧
        (needRoll = false → ∀ seq ∈ rows, ∀ x ∈ seq, narrow (f x) = f x)) := by
  obtain ⟨seqs,padded,known⟩ := entriesOf_padded tp cp rows
  have pos (entry : List α × Nat) (member : entry ∈ entriesOf p rows) : 0 < entry.1.length :=
    List.length_pos_of_ne_nil (nonempty _ (seqs ▸ List.mem_map_of_mem member))
  constructor
  · rintro ⟨⟨held,params,packs,trip,_⟩,-⟩
    obtain ⟨_,first⟩ := packs 0 cp
    have some_ := (preprocessThdEngine_some needRoll dense zero first).1
    refine ⟨some_,fun several => ?_⟩
    obtain ⟨_,last⟩ := packs (p.cpSize - 1) (by omega)
    obtain ⟨_,s,packed⟩ := preprocessThdEngine_some needRoll dense zero last
    have fits := fits_of_packSequences zero several (entriesOf p rows) (fun entry member => ⟨pos entry member,known entry member⟩)
      0 [] _ s (Nat.zero_div _).symm (by rw [padded,List.nil_append]) (by rw [List.length_replicate,List.length_replicate]) packed
    refine ⟨fits,?_⟩
    rintro rfl seq member x inside
    have packable (entry : List α × Nat) (member : entry ∈ entriesOf p rows) : Packable p false dense entry :=
      ⟨pos entry member,known entry member,fun _ => fits entry member⟩
    obtain ⟨longest,holds⟩ := preprocessThdEngine_ok false dense zero tp cp rows some_ packable
    have same (j : Nat) (below : j < p.cpSize) : held j = (entriesOf p rows).flatMap (block p dense zero j) ∧
        params = ⟨(seqlensPadded p (rows.map List.length)).scanl (· + ·) 0,longest⟩ := by
      obtain ⟨_,given⟩ := packs j below
      obtain ⟨_,given'⟩ := holds j below
      obtain ⟨held_,rest⟩ := Prod.mk.inj (Option.some.inj (given.symm.trans given'))
      exact ⟨held_,(Prod.mk.inj rest).1⟩
    have out := postprocessThdEngine_ok false dense zero tp cp rows packable longest narrow blank f held
      fun j below => (same j below).1
    have back := trip rfl
    rw [(same 0 cp).2,out] at back
    have row := List.map_inj_left.mp (Option.some.inj back) seq member
    have value := List.map_inj_left.mp row x inside
    rwa [through,if_neg (Nat.not_le_of_lt several)] at value
  · rintro ⟨some_,enough⟩
    refine ⟨?_,bshdRoundTrip_ok needRoll zero tp cp npu blank f rows some_⟩
    have packable (entry : List α × Nat) (member : entry ∈ entriesOf p rows) : Packable p needRoll dense entry :=
      ⟨pos entry member,known entry member,fun several => (enough several).1 entry member⟩
    obtain ⟨longest,holds⟩ := preprocessThdEngine_ok needRoll dense zero tp cp rows some_ packable
    refine ⟨_,_,holds,?_,?_⟩
    · rintro rfl
      rw [postprocessThdEngine_ok false dense zero tp cp rows packable longest narrow blank f _ fun j _ => if_neg Bool.false_ne_true]
      refine congrArg some (List.map_congr_left fun seq member => List.map_congr_left fun x inside => ?_)
      unfold through
      split
      · rfl
      · rename_i several
        exact (enough (Nat.lt_of_not_le several)).2 rfl seq member x inside
    · rintro rfl entry member t more
      dsimp only at member
      rw [intervals_eq,← padded] at member
      nth_rewrite 1 [← seqs] at member
      obtain ⟨before,padded_,after,whole,bounds⟩ := entry_of_bounds (entriesOf p rows) 0 entry member
      rw [Nat.zero_add] at bounds
      rw [bounds]
      exact rolled_value zero cp before after (entry.1,padded_) (whole ▸ packable) t more _ fun j _ => by rw [if_pos rfl,whole]

/-- Scalars without the FP8 padding always have enough rows. -/
theorem fits_scalars (tp : 0 < p.tpSize) (cp : 0 < p.cpSize) (plain : p.useFp8Padding = false) (rows : List (List α)) :
    ∀ entry ∈ rows.zip (seqlensPadded p (rows.map List.length)), Fits p needRoll [] entry.1.length entry.2 := by
  intro entry member
  have padded : seqlensPadded p (rows.map List.length) =
      (rows.map List.length).map (fun len => len + padSize (thdAlignSize p) len) := by
    rw [seqlensPadded,if_neg (by simp [plain])]
  have related : List.Forall₂ (fun (seq : List α) padded => padded = seq.length + padSize (thdAlignSize p) seq.length) rows
      (seqlensPadded p (rows.map List.length)) := by
    rw [padded,List.map_map,List.forall₂_map_right_iff]
    exact List.forall₂_same.mpr fun _ _ => rfl
  have length : entry.2 = entry.1.length + padSize (thdAlignSize p) entry.1.length :=
    (List.forall₂_iff_zip.mp related).2 member
  have below : padSize (thdAlignSize p) entry.1.length < thdAlignSize p := Nat.mod_lt _ (thdAlignSize_pos p tp cp)
  have enough : entry.2 / 2 < paddedRows p [] entry.1.length := by
    rw [paddedRows,if_pos rfl]
    omega
  refine ⟨fun rows => absurd rfl rows,?_⟩
  split
  · exact enough
  · exact .inl (Nat.le_of_lt enough)

end Trip

section Examples

instance (p : Parallel) (needRoll : Bool) (dense : List Nat) (seqlen padded : Nat) :
    Decidable (Fits p needRoll dense seqlen padded) := inferInstanceAs (Decidable (_ ∧ _))

theorem round_trip_two_ranks :
    ThdRoundTrip ⟨1,2,false⟩ true [] 0 id 0 (fun x : Nat => x + 1) [[1,2,3],[4]] ∧
      BshdRoundTrip ⟨1,2,false⟩ true false 0 0 (fun x : Nat => x + 1) [[1,2,3],[4]] :=
  (context_parallel_round_trip_iff ⟨1,2,false⟩ true [] 0 (by decide) (by decide) false id 0 (fun x : Nat => x + 1) [[1,2,3],[4]]
    (by decide)).mpr ⟨by decide,fun _ => ⟨by decide,fun still => nomatch still⟩⟩

/-- A top-k tensor of fewer rows than the alignment, and a short batch with FP8 padding. -/
theorem short_rows_example :
    ¬ ThdRoundTrip ⟨2,2,false⟩ false [4] [0,0,0,0] id [0,0,0,0] (fun x : List Nat => x) [[[1,2,3,4],[5,6,7,8]]] ∧
      ¬ ThdRoundTrip ⟨1,2,true⟩ false [] 0 id 0 (fun x : Nat => x) [[1,2,3,4,5]] := by
  constructor
  · rintro ⟨held,params,packs,-⟩
    obtain ⟨_,given⟩ := packs 1 (by decide)
    have fails : (preprocessThdEngine ⟨2,2,false⟩ 1 false [4] [0,0,0,0] [[[1,2,3,4],[5,6,7,8]]]).isNone = true := by
      decide +kernel
    rw [given] at fails
    nomatch fails
  · rintro ⟨held,params,packs,-⟩
    obtain ⟨_,given⟩ := packs 0 (by decide)
    have fails : (preprocessThdEngine ⟨1,2,true⟩ 0 false [] 0 [[1,2,3,4,5]]).isNone = true := by decide +kernel
    rw [given] at fails
    nomatch fails

end Examples

end RelayOpd.ContextParallel
