import RelayOpd.ContextParallelChunks
import RelayOpd.LocalLoop

/-! The rows and masks of `preprocess_bshd_engine` at the ranks, and what `postprocess_bshd_engine`
makes of a function of them. -/
namespace RelayOpd.ContextParallel

open Zigzag

section Lengths

variable {p : Parallel}

/-- The padded length has room for every sequence, and for the two chunks of every rank. -/
theorem bshdMaxSeqlen_ok (tp : 0 < p.tpSize) (cp : 0 < p.cpSize) (seqlens : List Nat) (some_ : seqlens ≠ []) :
    ∃ maxSeqlen, bshdMaxSeqlen p seqlens = some maxSeqlen ∧ (∀ len ∈ seqlens, len ≤ maxSeqlen) ∧
      (1 < p.cpSize → ∃ chunk, maxSeqlen = 2 * p.cpSize * chunk) := by
  obtain ⟨longest,given⟩ : ∃ longest, seqlens.max? = some longest :=
    Option.isSome_iff_exists.mp (by rwa [List.isSome_max?_iff])
  have upper (len : Nat) (member : len ∈ seqlens) : len ≤ longest := (List.max?_eq_some_iff.mp given).2 len member
  have pos := alignSize_pos p tp cp
  obtain ⟨padded,same⟩ : ∃ padded,
      (if alignSize p > 1 then longest + padSize (alignSize p) longest else longest) = padded := ⟨_,rfl⟩
  have more : longest ≤ padded := by
    rw [← same]
    split
    · exact Nat.le_add_right _ _
    · exact Nat.le_refl _
  have whole : alignSize p ∣ padded := by
    rw [← same]
    split
    · exact dvd_add_padSize (alignSize p) longest pos
    · rename_i one
      rw [show alignSize p = 1 by omega]
      exact Nat.one_dvd _
  have chunks (maxSeqlen : Nat) (divides : alignSize p ∣ maxSeqlen) (several : 1 < p.cpSize) :
      ∃ chunk, maxSeqlen = 2 * p.cpSize * chunk := by
    obtain ⟨count,rfl⟩ := divides
    rw [alignSize,if_pos several]
    exact ⟨p.tpSize * count,by ring⟩
  unfold bshdMaxSeqlen
  rw [given,Option.bind_eq_bind,Option.bind_some]
  dsimp only
  rw [same]
  split
  · obtain ⟨align,given'⟩ : ∃ align, Nat.lcm (128 * p.tpSize * p.cpSize / Nat.gcd seqlens.length (128 * p.tpSize * p.cpSize))
        (alignSize p) = align := ⟨_,rfl⟩
    have total : 0 < 128 * p.tpSize * p.cpSize := Nat.mul_pos (Nat.mul_pos (by decide) tp) cp
    have share : 0 < 128 * p.tpSize * p.cpSize / Nat.gcd seqlens.length (128 * p.tpSize * p.cpSize) :=
      Nat.div_pos (Nat.le_of_dvd total (Nat.gcd_dvd_right _ _)) (Nat.gcd_pos_of_pos_right _ total)
    have positive : 0 < align := given' ▸ Nat.lcm_pos share pos
    rw [given']
    refine ⟨_,rfl,fun len member => ?_,chunks _ (Nat.dvd_mul_left_of_dvd (given' ▸ Nat.dvd_lcm_right _ _) _)⟩
    have round := Nat.div_add_mod (padded + align - 1) align
    have below := Nat.mod_lt (padded + align - 1) positive
    rw [Nat.mul_comm align] at round
    have le := upper len member
    omega
  · exact ⟨padded,rfl,fun len member => (upper len member).trans more,chunks padded whole⟩

end Lengths

section Rows

variable {α : Type} (p : Parallel) (zero : α)

/-- A sequence filled up with zeros. -/
def filled (maxSeqlen : Nat) (seq : List α) : List α := seq ++ List.replicate (maxSeqlen - seq.length) zero

/-- The mask of a whole sequence. -/
def wholeMask (maxSeqlen seqlen : Nat) : List Bool := List.replicate seqlen true ++ List.replicate (maxSeqlen - seqlen) false

/-- What a rank gets of a sequence, before the roll. -/
def bshdBlock (maxSeqlen rank : Nat) (row : List α) : List α :=
  if p.cpSize ≤ 1 then row else zigzag (maxSeqlen / (2 * p.cpSize)) maxSeqlen rank row

theorem markValid_eq (front back : List Bool) (size valid : Nat) (le : valid ≤ size) :
    markValid front.length valid (front ++ List.replicate size false ++ back) =
      some (front ++ (List.replicate valid true ++ List.replicate (size - valid) false) ++ back) := by
  unfold markValid
  split
  · have places : List.replicate size false = List.replicate valid false ++ List.replicate (size - valid) false := by
      rw [List.replicate_append_replicate,Nat.add_sub_cancel' le]
    have set_ := setSlice_middle front (List.replicate valid false) (List.replicate (size - valid) false ++ back) [true]
    rw [List.length_replicate,spread_single] at set_
    rw [places]
    simp only [List.append_assoc,Option.map_some] at set_ ⊢
    exact set_
  · rename_i none_
    rw [show valid = 0 by omega]
    rfl

/-- The valid places of a chunk. -/
theorem slice_wholeMask (maxSeqlen seqlen start chunk : Nat) (le : seqlen ≤ maxSeqlen) (within : start + chunk ≤ maxSeqlen) :
    Zigzag.slice start (start + chunk) (wholeMask maxSeqlen seqlen) =
      List.replicate (min (seqlen - start) chunk) true ++ List.replicate (chunk - min (seqlen - start) chunk) false := by
  apply List.ext_getElem?
  intro k
  rw [slice_getElem?,wholeMask]
  simp only [List.getElem?_append,List.getElem?_replicate,List.length_replicate]
  grind

theorem wholeMask_length (maxSeqlen seqlen : Nat) (le : seqlen ≤ maxSeqlen) : (wholeMask maxSeqlen seqlen).length = maxSeqlen := by
  rw [wholeMask,List.length_append,List.length_replicate,List.length_replicate,Nat.add_sub_cancel' le]

theorem filled_length (maxSeqlen : Nat) (seq : List α) (le : seq.length ≤ maxSeqlen) :
    (filled zero maxSeqlen seq).length = maxSeqlen := by
  rw [filled,List.length_append,List.length_replicate,Nat.add_sub_cancel' le]

/-- The rows at consecutive places are a slice. -/
theorem mapM_slice (read : Nat → Option α) (xs : List α) (each : ∀ place < xs.length, read place = xs[place]?)
    (start count : Nat) (within : start + count ≤ xs.length) :
    (List.range' start count).mapM read = some (Zigzag.slice start (start + count) xs) := by
  induction count generalizing start with
  | zero =>
    rw [Zigzag.slice,List.drop_of_length_le (by rw [List.length_take]; omega)]
    rfl
  | succ count ih =>
    have first : start < xs.length := by omega
    have one : Zigzag.slice start (start + 1) xs = [xs[start]] := by
      rw [Zigzag.slice,List.take_add_one,List.drop_append,List.getElem?_eq_getElem first,List.length_take,
        Nat.min_eq_left (Nat.le_of_lt first),Nat.sub_self,List.drop_of_length_le (by rw [List.length_take]; omega)]
      rfl
    rw [List.range'_succ,List.mapM_cons,each start first,List.getElem?_eq_getElem first,ih (start + 1) (by omega),
      ← slice_slice start (start + 1) (start + (count + 1)) xs (by omega) (by omega),one,
      show start + 1 + count = start + (count + 1) by omega]
    rfl

/-- The chunks of a rank, by their starts. -/
theorem bshdBlock_eq (several : 1 < p.cpSize) (chunk rank : Nat) (inside : rank < p.cpSize) (row : List α) :
    bshdBlock p (2 * p.cpSize * chunk) rank row =
        Zigzag.slice (rank * chunk) (rank * chunk + chunk) row ++
          Zigzag.slice ((2 * p.cpSize - rank - 1) * chunk) ((2 * p.cpSize - rank - 1) * chunk + chunk) row ∧
      rank * chunk + chunk ≤ 2 * p.cpSize * chunk ∧
      (2 * p.cpSize - rank - 1) * chunk + chunk ≤ 2 * p.cpSize * chunk := by
  have cut : 2 * p.cpSize * chunk / (2 * p.cpSize) = chunk := Nat.mul_div_cancel_left chunk (by omega)
  have next : chunk * (rank + 1) = rank * chunk + chunk := by rw [Nat.mul_succ,Nat.mul_comm]
  have most : chunk * (rank + 1) ≤ chunk * p.cpSize := Nat.mul_le_mul_left chunk inside
  have twice : 2 * p.cpSize * chunk = 2 * (chunk * p.cpSize) := by ring
  have second : (2 * p.cpSize - rank - 1) * chunk = 2 * p.cpSize * chunk - chunk * (rank + 1) := by
    rw [Nat.sub_sub,Nat.sub_mul,Nat.mul_comm (rank + 1)]
  have secondEnd : 2 * p.cpSize * chunk - chunk * rank = (2 * p.cpSize - rank - 1) * chunk + chunk := by
    rw [Nat.mul_comm chunk rank]
    omega
  refine ⟨?_,by omega,by omega⟩
  rw [bshdBlock,if_neg (Nat.not_le_of_lt several),cut,zigzag,secondEnd,second,next,Nat.mul_comm chunk rank]

theorem bshdBlock_length (several : 1 < p.cpSize) (chunk rank : Nat) (inside : rank < p.cpSize) (row : List α)
    (size : row.length = 2 * p.cpSize * chunk) : (bshdBlock p (2 * p.cpSize * chunk) rank row).length = chunk + chunk := by
  obtain ⟨same,first,second⟩ := bshdBlock_eq p several chunk rank inside row
  rw [same,List.length_append,slice_length,slice_length]
  omega

theorem localSeq_ok (several : 1 < p.cpSize) (needRoll : Bool) (chunk rank : Nat) (inside : rank < p.cpSize) (row : List α)
    (size : row.length = 2 * p.cpSize * chunk) :
    localSeq needRoll (2 * p.cpSize * chunk) chunk (rank * chunk) ((2 * p.cpSize - rank - 1) * chunk) row =
      some (bshdBlock p (2 * p.cpSize * chunk) rank (if needRoll then row.rotate 1 else row)) := by
  obtain ⟨same,first,second⟩ := bshdBlock_eq p several chunk rank inside (if needRoll then row.rotate 1 else row)
  rw [same,localSeq]
  cases needRoll with
  | false => rfl
  | true =>
    have turned (pos : Nat) (below : pos < (row.rotate 1).length) :
        row[(pos + 1) % (2 * p.cpSize * chunk)]? = (row.rotate 1)[pos]? := by
      rw [List.length_rotate] at below
      rw [List.getElem?_rotate below,size]
    have total : (row.rotate 1).length = 2 * p.cpSize * chunk := by rw [List.length_rotate,size]
    rw [if_pos rfl,if_pos rfl,List.mapM_append,mapM_slice _ (row.rotate 1) turned _ _ (by omega),
      mapM_slice _ (row.rotate 1) turned _ _ (by omega)]
    rfl

/-- The two parts of a rank's mask. -/
theorem markChunks_ok (several : 1 < p.cpSize) (chunk rank : Nat) (inside : rank < p.cpSize) (seqlen : Nat)
    (le : seqlen ≤ 2 * p.cpSize * chunk) :
    ((markValid 0 (min (seqlen - rank * chunk) chunk) (List.replicate (chunk + chunk) false)).bind
        (fun mask => markValid chunk (min (seqlen - (2 * p.cpSize - rank - 1) * chunk) chunk) mask)) =
      some (bshdBlock p (2 * p.cpSize * chunk) rank (wholeMask (2 * p.cpSize * chunk) seqlen)) := by
  obtain ⟨same,first,second⟩ := bshdBlock_eq p several chunk rank inside (wholeMask (2 * p.cpSize * chunk) seqlen)
  have front := markValid_eq [] (List.replicate chunk false) chunk (min (seqlen - rank * chunk) chunk) (Nat.min_le_right _ _)
  have back := markValid_eq (List.replicate (min (seqlen - rank * chunk) chunk) true ++
    List.replicate (chunk - min (seqlen - rank * chunk) chunk) false) [] chunk
    (min (seqlen - (2 * p.cpSize - rank - 1) * chunk) chunk) (Nat.min_le_right _ _)
  have size : (List.replicate (min (seqlen - rank * chunk) chunk) true ++
      List.replicate (chunk - min (seqlen - rank * chunk) chunk) false).length = chunk := by
    rw [List.length_append,List.length_replicate,List.length_replicate]
    omega
  rw [size,List.append_nil,List.append_nil] at back
  rw [List.nil_append,List.nil_append,List.length_nil,List.replicate_append_replicate] at front
  rw [front,Option.bind_some,back,same,slice_wholeMask _ _ _ _ le first,slice_wholeMask _ _ _ _ le second]

/-- The row of a rank, rolled with several ranks, and its mask. -/
theorem bshdRow_ok {rank : Nat} (inside : rank < p.cpSize) (needRoll : Bool) (maxSeqlen : Nat)
    (chunks : 1 < p.cpSize → ∃ chunk, maxSeqlen = 2 * p.cpSize * chunk) (seq : List α) (le : seq.length ≤ maxSeqlen) :
    bshdRow p rank needRoll zero maxSeqlen seq =
      some (bshdBlock p maxSeqlen rank
          (if needRoll && decide (1 < p.cpSize) then (filled zero maxSeqlen seq).rotate 1 else filled zero maxSeqlen seq),
        bshdBlock p maxSeqlen rank (wholeMask maxSeqlen seq.length)) := by
  have zeros : List.replicate maxSeqlen zero = List.replicate seq.length zero ++ List.replicate (maxSeqlen - seq.length) zero := by
    rw [List.replicate_append_replicate,Nat.add_sub_cancel' le]
  have fill := setSlice_middle [] (List.replicate seq.length zero) (List.replicate (maxSeqlen - seq.length) zero) seq
  rw [List.length_replicate,spread_exact,Option.map_some,List.nil_append,List.nil_append,← zeros,List.length_nil,
    Nat.zero_add] at fill
  have length := filled_length zero maxSeqlen seq le
  rcases Nat.lt_or_ge 1 p.cpSize with several | single
  · obtain ⟨chunk,size⟩ := chunks several
    have padded : padToMax zero maxSeqlen seq = some (filled zero maxSeqlen seq) := by
      unfold padToMax
      split
      · exact fill
      · rename_i full
        rw [filled,show maxSeqlen - seq.length = 0 by omega,List.replicate_zero,List.append_nil]
    have cut : maxSeqlen / (2 * p.cpSize) = chunk := by rw [size]; exact Nat.mul_div_cancel_left chunk (by omega)
    have local_ : maxSeqlen / p.cpSize = chunk + chunk := by
      rw [size,show 2 * p.cpSize * chunk = p.cpSize * (chunk + chunk) by ring]
      exact Nat.mul_div_cancel_left _ (by omega)
    have rows := localSeq_ok p several needRoll chunk rank inside (filled zero maxSeqlen seq) (length.trans size)
    have rowSize := bshdBlock_length p several chunk rank inside
      (if needRoll then (filled zero maxSeqlen seq).rotate 1 else filled zero maxSeqlen seq) (by
        split
        · rw [List.length_rotate,length,size]
        · rw [length,size])
    have mask := markChunks_ok p several chunk rank inside seq.length (size ▸ le)
    rw [← size] at rows rowSize mask
    obtain ⟨first,given⟩ : ∃ first, markValid 0 (min (seq.length - rank * chunk) chunk)
        (List.replicate (chunk + chunk) false) = some first ∧ markValid chunk
        (min (seq.length - (2 * p.cpSize - rank - 1) * chunk) chunk) first =
          some (bshdBlock p maxSeqlen rank (wholeMask maxSeqlen seq.length)) := Option.bind_eq_some_iff.mp mask
    have copy := setSlice_eq 0 (chunk + chunk) [] (List.replicate (chunk + chunk) zero) []
      (bshdBlock p maxSeqlen rank (if needRoll then (filled zero maxSeqlen seq).rotate 1 else filled zero maxSeqlen seq)) rfl
      (by rw [List.length_replicate,Nat.zero_add]) (by rw [List.length_replicate,rowSize])
    rw [List.nil_append,List.append_nil,List.nil_append,List.append_nil] at copy
    simp only [bshdRow,if_neg (Nat.not_le_of_lt several),padded,cut,local_,Option.bind_eq_bind,Option.bind_some,rows,copy,
      given.1,given.2,several,decide_true,Bool.and_true]
  · have mark := setSlice_middle [] (List.replicate seq.length false) (List.replicate (maxSeqlen - seq.length) false) [true]
    rw [List.length_replicate,spread_single,Option.map_some,List.nil_append,List.nil_append,List.replicate_append_replicate,
      Nat.add_sub_cancel' le,List.length_nil,Nat.zero_add] at mark
    rw [bshdRow,if_pos single,fill,mark,bshdBlock,bshdBlock,if_pos single,if_pos single]
    simp [Nat.not_lt_of_le single,filled,wholeMask]

end Rows

section Engines

variable {α β : Type} (p : Parallel) (zero : α)

/-- The rows of a rank. -/
def bshdHeld (needRoll : Bool) (maxSeqlen : Nat) (rows : List (List α)) (rank : Nat) : List (List α) :=
  rows.map (fun seq => bshdBlock p maxSeqlen rank
    (if needRoll then (filled zero maxSeqlen seq).rotate 1 else filled zero maxSeqlen seq))

def bshdMask (maxSeqlen : Nat) (rows : List (List α)) (rank : Nat) : List (List Bool) :=
  rows.map (fun seq => bshdBlock p maxSeqlen rank (wholeMask maxSeqlen seq.length))

theorem npuMaskRow_build (row : List Bool) : npuMaskRow (buildNpuAttnMask row) = row := by
  have size : (buildNpuAttnMask row).length = row.length := by simp [buildNpuAttnMask]
  rw [npuMaskRow,size]
  apply List.ext_getElem
  · simp
  · intro q _ inside
    simp [buildNpuAttnMask,inside]

def attentionMask (npu : Bool) (mask : List (List Bool)) : AttentionMask :=
  if npu then .npu (mask.map buildNpuAttnMask) else .plain mask

theorem attentionMask_rows (npu : Bool) (mask : List (List Bool)) : (attentionMask npu mask).rows = mask := by
  cases npu with
  | false => rfl
  | true =>
    have back : mask.map (npuMaskRow ∘ buildNpuAttnMask) = mask.map id := List.map_congr_left fun row _ => npuMaskRow_build row
    rw [attentionMask,if_pos rfl,AttentionMask.rows,List.map_map,back,List.map_id]

theorem preprocessBshdEngine_ok {rank : Nat} (inside : rank < p.cpSize) (needRoll npu : Bool) (rows : List (List α))
    (maxSeqlen : Nat) (given : bshdMaxSeqlen p (rows.map List.length) = some maxSeqlen)
    (room : ∀ seq ∈ rows, seq.length ≤ maxSeqlen) (chunks : 1 < p.cpSize → ∃ chunk, maxSeqlen = 2 * p.cpSize * chunk) :
    ∃ positions, preprocessBshdEngine p rank needRoll npu zero rows =
      some (bshdHeld p zero needRoll maxSeqlen rows rank,attentionMask npu (bshdMask p maxSeqlen rows rank),positions) := by
  have packed := LocalLoop.mapM_some (bshdRow p rank needRoll zero maxSeqlen) _ rows
    fun seq member => bshdRow_ok p zero inside needRoll maxSeqlen chunks seq (room seq member)
  simp only [preprocessBshdEngine,given,packed,Option.bind_eq_bind,Option.bind_some]
  obtain ⟨values,eq⟩ : ∃ values, rows.map (fun seq =>
      (bshdBlock p maxSeqlen rank
          (if needRoll && decide (1 < p.cpSize) then (filled zero maxSeqlen seq).rotate 1 else filled zero maxSeqlen seq),
        bshdBlock p maxSeqlen rank (wholeMask maxSeqlen seq.length))) = values := ⟨_,rfl⟩
  have masks : values.map Prod.snd = bshdMask p maxSeqlen rows rank := by
    rw [← eq,List.map_map]
    rfl
  have inputs : (if needRoll && decide (p.cpSize ≤ 1) then (values.map Prod.fst).map (·.rotate 1) else values.map Prod.fst) =
      bshdHeld p zero needRoll maxSeqlen rows rank := by
    rw [← eq,List.map_map,List.map_map]
    rcases Nat.lt_or_ge 1 p.cpSize with several | single
    · simp [bshdHeld,several,Nat.not_le_of_lt several]
    · cases needRoll with
      | false => simp [bshdHeld]
      | true => simp [bshdHeld,bshdBlock,single,Nat.not_lt_of_le single]
  rw [eq,masks,inputs]
  exact ⟨_,rfl⟩

/-- Only the valid places are left. -/
theorem masked_front (xs ys : List β) : masked (List.replicate xs.length true ++ List.replicate ys.length false) (xs ++ ys) = xs := by
  have front (zs : List β) : masked (List.replicate zs.length true) zs = zs := by
    induction zs with
    | nil => rfl
    | cons z zs ih => simpa [masked,List.replicate_succ] using ih
  have back (zs : List β) : masked (List.replicate zs.length false) zs = [] := by
    induction zs with
    | nil => rfl
    | cons z zs ih => simpa [masked,List.replicate_succ] using ih
  have split_ : masked (List.replicate xs.length true ++ List.replicate ys.length false) (xs ++ ys) =
      masked (List.replicate xs.length true) xs ++ masked (List.replicate ys.length false) ys := by
    rw [masked,List.zip_append (List.length_replicate).symm,List.filter_append,List.map_append]
    rfl
  rw [split_,front,back,List.append_nil]

theorem postprocessBshdRow_ok (cp : 0 < p.cpSize) (maxSeqlen : Nat)
    (chunks : 1 < p.cpSize → ∃ chunk, maxSeqlen = 2 * p.cpSize * chunk) (seq : List α) (le : seq.length ≤ maxSeqlen) (blank : β)
    (f : α → β) (outputs : Nat → List β) (masks : Nat → List Bool)
    (out : ∀ j < p.cpSize, outputs j = (bshdBlock p maxSeqlen j (filled zero maxSeqlen seq)).map f)
    (mask : ∀ j < p.cpSize, masks j = bshdBlock p maxSeqlen j (wholeMask maxSeqlen seq.length)) :
    postprocessBshdRow p.cpSize blank outputs masks = some (seq.map f) := by
  have length := filled_length zero maxSeqlen seq le
  have maskLength := wholeMask_length maxSeqlen seq.length le
  have valid : masked (wholeMask maxSeqlen seq.length) ((filled zero maxSeqlen seq).map f) = seq.map f := by
    have front := masked_front (seq.map f) ((List.replicate (maxSeqlen - seq.length) zero).map f)
    rw [List.length_map,List.length_map,List.length_replicate] at front
    rw [filled,List.map_append]
    exact front
  rcases Nat.lt_or_ge 1 p.cpSize with several | single
  · obtain ⟨chunk,rfl⟩ := chunks several
    have cut : 2 * p.cpSize * chunk / (2 * p.cpSize) = chunk := Nat.mul_div_cancel_left chunk (by omega)
    have mappedLength : ((filled zero (2 * p.cpSize * chunk) seq).map f).length = 2 * p.cpSize * chunk := by
      rw [List.length_map,length]
    have outs (j : Nat) (inside : j < p.cpSize) :
        outputs j = zigzag chunk (2 * p.cpSize * chunk) j ((filled zero (2 * p.cpSize * chunk) seq).map f) := by
      rw [out j inside,bshdBlock,if_neg (Nat.not_le_of_lt several),cut,zigzag_map]
    have marks (j : Nat) (inside : j < p.cpSize) :
        masks j = zigzag chunk (2 * p.cpSize * chunk) j (wholeMask (2 * p.cpSize * chunk) seq.length) := by
      rw [mask j inside,bshdBlock,if_neg (Nat.not_le_of_lt several),cut]
    have halves (j : Nat) (inside : j < p.cpSize) := zigzag_halves chunk p.cpSize j _ mappedLength inside
    have maskHalves (j : Nat) (inside : j < p.cpSize) := zigzag_halves chunk p.cpSize j _ maskLength inside
    have local_ : (outputs 0).length = 2 * chunk := by
      have held := (halves 0 cp).2.2
      rw [mappedLength] at held
      rw [outs 0 cp,held]
    have half : 2 * chunk / 2 = chunk := Nat.mul_div_cancel_left chunk (by decide)
    have full : 2 * chunk * p.cpSize = 2 * p.cpSize * chunk := by ring
    have gathered := gather_zigzag chunk p.cpSize ((filled zero (2 * p.cpSize * chunk) seq).map f)
      (List.replicate (2 * p.cpSize * chunk) blank) (fun j => (outputs j).take chunk) (fun j => (outputs j).drop chunk)
      mappedLength (by rw [List.length_replicate,mappedLength])
      (fun j inside => by
        have parts := halves j inside
        rw [mappedLength] at parts
        rw [outs j inside]
        exact parts.1)
      (fun j inside => by
        have parts := halves j inside
        rw [mappedLength] at parts ⊢
        rw [outs j inside]
        exact parts.2.1)
    have gatheredMask := gather_zigzag chunk p.cpSize (wholeMask (2 * p.cpSize * chunk) seq.length)
      (List.replicate (2 * p.cpSize * chunk) false) (fun j => (masks j).take chunk) (fun j => (masks j).drop chunk)
      maskLength (by rw [List.length_replicate,maskLength])
      (fun j inside => by
        have parts := maskHalves j inside
        rw [maskLength] at parts
        rw [marks j inside]
        exact parts.1)
      (fun j inside => by
        have parts := maskHalves j inside
        rw [maskLength] at parts ⊢
        rw [marks j inside]
        exact parts.2.1)
    rw [mappedLength] at gathered
    rw [maskLength] at gatheredMask
    rw [postprocessBshdRow,if_neg (Nat.not_le_of_lt several)]
    dsimp only
    rw [local_,if_pos (Nat.mul_mod_right 2 chunk),half,full,gathered,gatheredMask]
    exact congrArg some valid
  · rw [postprocessBshdRow,if_pos single,out 0 cp,mask 0 cp,bshdBlock,bshdBlock,if_pos single,if_pos single,valid]

theorem bshdBlock_sameLength {γ : Type} (maxSeqlen rank : Nat) (row : List α) (other : List γ)
    (same : row.length = other.length) : (bshdBlock p maxSeqlen rank row).length = (bshdBlock p maxSeqlen rank other).length := by
  unfold bshdBlock
  split
  · exact same
  · rw [zigzag,zigzag,List.length_append,List.length_append,slice_length,slice_length,slice_length,slice_length,same]

/-- The function of every sequence's own tokens comes back. -/
theorem postprocessBshdEngine_ok (cp : 0 < p.cpSize) (npu : Bool) (rows : List (List α)) (maxSeqlen : Nat)
    (room : ∀ seq ∈ rows, seq.length ≤ maxSeqlen) (chunks : 1 < p.cpSize → ∃ chunk, maxSeqlen = 2 * p.cpSize * chunk)
    (blank : β) (f : α → β) :
    postprocessBshdEngine p.cpSize blank (fun j => (bshdHeld p zero false maxSeqlen rows j).map (List.map f))
      (fun j => attentionMask npu (bshdMask p maxSeqlen rows j)) = some (rows.map (List.map f)) := by
  have shapes : (List.range p.cpSize).all (fun j =>
      sameShape ((bshdHeld p zero false maxSeqlen rows j).map (List.map f))
        (attentionMask npu (bshdMask p maxSeqlen rows j)).rows) = true := by
    refine List.all_eq_true.mpr fun j _ => decide_eq_true ?_
    rw [attentionMask_rows,bshdHeld,bshdMask,List.map_map,List.map_map,List.map_map]
    refine List.map_congr_left fun seq member => ?_
    have le := room seq member
    simp only [Function.comp,List.length_map]
    exact bshdBlock_sameLength p maxSeqlen j _ _ ((filled_length zero maxSeqlen seq le).trans (wholeMask_length maxSeqlen _ le).symm)
  have size : ((bshdHeld p zero false maxSeqlen rows 0).map (List.map f)).length = rows.length := by
    rw [List.length_map,bshdHeld,List.length_map]
  rw [postprocessBshdEngine,if_pos shapes,size,List.range_eq_range']
  have each := mapM_slice (fun i => postprocessBshdRow p.cpSize blank
      (fun j => ((bshdHeld p zero false maxSeqlen rows j).map (List.map f)).getD i [])
      (fun j => (attentionMask npu (bshdMask p maxSeqlen rows j)).rows.getD i []))
    (rows.map (List.map f)) (fun i inside => by
      rw [List.length_map] at inside
      rw [List.getElem?_map,List.getElem?_eq_getElem inside]
      refine postprocessBshdRow_ok p zero cp maxSeqlen chunks rows[i] (room _ (List.getElem_mem inside)) blank f _ _
        (fun j _ => ?_) (fun j _ => ?_)
      · simp [bshdHeld,inside]
      · rw [attentionMask_rows]
        simp [bshdMask,inside]) 0 rows.length (by rw [List.length_map,Nat.zero_add])
  rw [each,Nat.zero_add,Zigzag.slice,List.drop_zero,List.take_of_length_le (by rw [List.length_map])]

/-- The next token of the sequence is at the slot of every token but the last. -/
theorem bshdRolled_value (cp : 0 < p.cpSize) (rows : List (List α)) (maxSeqlen : Nat)
    (room : ∀ seq ∈ rows, seq.length ≤ maxSeqlen) (chunks : 1 < p.cpSize → ∃ chunk, maxSeqlen = 2 * p.cpSize * chunk)
    (i : Nat) (seq : List α) (given : rows[i]? = some seq) (t : Nat) (more : t + 1 < seq.length) :
    bshdValueAt p (bshdHeld p zero true maxSeqlen rows) i t = seq[t + 1]? := by
  have le := room seq (List.mem_of_getElem? given)
  have length := filled_length zero maxSeqlen seq le
  have held (j : Nat) : (bshdHeld p zero true maxSeqlen rows j).getD i [] =
      bshdBlock p maxSeqlen j ((filled zero maxSeqlen seq).rotate 1) := by
    simp [bshdHeld,List.getD_eq_getElem?_getD,given]
  have next : ((filled zero maxSeqlen seq).rotate 1)[t]? = seq[t + 1]? := by
    rw [List.getElem?_rotate (by omega),length,Nat.mod_eq_of_lt (by omega),filled,List.getElem?_append_left more]
  unfold bshdValueAt
  rcases Nat.lt_or_ge 1 p.cpSize with several | single
  · obtain ⟨chunk,rfl⟩ := chunks several
    have cut : 2 * p.cpSize * chunk / (2 * p.cpSize) = chunk := Nat.mul_div_cancel_left chunk (by omega)
    have total : ((filled zero (2 * p.cpSize * chunk) seq).rotate 1).length = 2 * p.cpSize * chunk := by
      rw [List.length_rotate,length]
    have half : (bshdBlock p (2 * p.cpSize * chunk) 0 ((filled zero (2 * p.cpSize * chunk) seq).rotate 1)).length / 2 = chunk := by
      rw [bshdBlock_length p several chunk 0 cp _ total]
      omega
    obtain ⟨_,value⟩ := zigzag_slot chunk p.cpSize t _ total (by omega)
    rw [if_neg (Nat.not_le_of_lt several)]
    dsimp only
    rw [held,held,half,bshdBlock,if_neg (Nat.not_le_of_lt several),cut,← next,← value,total]
  · rw [if_pos single,held,bshdBlock,if_pos single,next]

end Engines

end RelayOpd.ContextParallel
