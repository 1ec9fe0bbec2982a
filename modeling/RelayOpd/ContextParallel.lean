import RelayOpd.Zigzag
import Mathlib.Data.List.Rotate

/-! Jagged batches packed for the context-parallel ranks, in one row (thd) or in one row for each
sequence (bshd), and the outputs of the ranks put together again. -/
namespace RelayOpd.ContextParallel

open Zigzag

/-- `tp_size`, `cp_size` and `use_fp8_padding`. -/
structure Parallel where
  tpSize : Nat
  cpSize : Nat
  useFp8Padding : Bool

structure PackedSeqParams where
  cuSeqlensPadded : List Nat
  maxSeqlen : Nat

def alignSize (p : Parallel) : Nat := if p.cpSize > 1 then p.tpSize * p.cpSize * 2 else p.tpSize

/-- `_compute_fp8_thd_align_size`. -/
def computeFp8ThdAlignSize (alignSize : Nat) : Nat × Nat := (Nat.lcm 16 alignSize,alignSize * 128)

/-- The alignment of one sequence. -/
def thdAlignSize (p : Parallel) : Nat :=
  if p.useFp8Padding then (computeFp8ThdAlignSize (alignSize p)).1 else alignSize p

def padSize (align len : Nat) : Nat := (align - len % align) % align

/-- `seqlens_in_batch_padded`; with FP8 padding the last sequence fills up the total. -/
def seqlensPadded (p : Parallel) (seqlens : List Nat) : List Nat :=
  let padded := seqlens.map (fun len => len + padSize (thdAlignSize p) len)
  if p.useFp8Padding then
    padded.modify (padded.length - 1) (· + padSize (computeFp8ThdAlignSize (alignSize p)).2 padded.sum)
  else padded

section Thd

variable {α : Type} (p : Parallel) (cpRank : Nat) (needRoll : Bool)

/-- `input_ids_rmpad` and `position_ids_rmpad` with what is saved for the roll. -/
structure Rmpad (α : Type) where
  inputIds : List α
  positionIds : List Nat
  savedRoll : List (Nat × α) := []
  savedPositionRoll : List (Nat × Nat) := []

/-- A short `d` is padded with a row of scalars, which goes with scalars only. `dense` is the
shape of one token's entry. -/
def padSequence (dense : List Nat) (zero : α) (d : List α) : Option (List α) :=
  if d.length * dense.prod < thdAlignSize p then
    if dense = [] then some (d ++ List.replicate (thdAlignSize p - d.length) zero) else none
  else some d

def remainStart (half padded : Nat) : Nat := padded - half * (cpRank + 1)

def remainEnd (half padded rows : Nat) : Nat := min (padded - half * cpRank) rows

/-- The two chunks of `d` go to the rank's place for the sequence. -/
def packIds (half padded start : Nat) (d inputIds : List α) : Option (List α) := do
  let inputIds ← setSlice start (start + half) (Zigzag.slice (half * cpRank) (half * (cpRank + 1)) d) inputIds
  let first := remainStart cpRank half padded
  let last := remainEnd cpRank half padded d.length
  if first < last then setSlice (start + half) (start + half + (last - first)) (Zigzag.slice first last d) inputIds
  else some inputIds

def packPositions (half padded start rows seqlen : Nat) (positionIds : List Nat) : Option (List Nat) := do
  let positionIds ← setSlice start (start + half) (List.range' (half * cpRank) half) positionIds
  let first := remainStart cpRank half padded
  let posEnd := min (remainEnd cpRank half padded rows) seqlen
  if first < posEnd then
    setSlice (start + half) (start + half + (posEnd - first)) (List.range' first (posEnd - first)) positionIds
  else some positionIds

/-- What comes to the ends of the two chunks when the rows are rolled. -/
def saveRoll (half padded start : Nat) (d : List α) : Option (List (Nat × α)) := do
  let next ← d[(cpRank + 1) * half]?
  let first := remainStart cpRank half padded
  let last := remainEnd cpRank half padded d.length
  if first < last then
    let wrapped ← if last = d.length then d[0]? else d[last]?
    some [(start + half - 1,next),(start + half + (last - first) - 1,wrapped)]
  else some [(start + half - 1,next)]

def savePositionRoll (half padded start rows : Nat) (positionIds : List Nat) : Option (List (Nat × Nat)) := do
  let next ← positionIds[start + half - 1]?
  let first := remainStart cpRank half padded
  let last := remainEnd cpRank half padded rows
  if first < last then
    let wrapped ← if last = rows then some 0 else positionIds[start + half + (last - first) - 1]?
    some [(start + half - 1,next),(start + half + (last - first) - 1,wrapped)]
  else some [(start + half - 1,next)]

/-- One sequence, from `cu_seqlens_padded[i]` on. -/
def packSequence (dense : List Nat) (zero : α) (cuPadded padded : Nat) (seq : List α) (s : Rmpad α) : Option (Rmpad α) :=
  if p.cpSize ≤ 1 then do
    let inputIds ← setSlice cuPadded (cuPadded + seq.length) seq s.inputIds
    let positionIds ← setSlice cuPadded (cuPadded + seq.length) (List.range seq.length) s.positionIds
    some { s with inputIds := inputIds, positionIds := positionIds }
  else do
    let half := padded / p.cpSize / 2
    let start := cuPadded / p.cpSize
    let d ← padSequence p dense zero seq
    let inputIds ← packIds cpRank half padded start d s.inputIds
    let positionIds ← packPositions cpRank half padded start d.length seq.length s.positionIds
    if needRoll then
      let roll ← saveRoll cpRank half padded start d
      let positionRoll ← savePositionRoll cpRank half padded start d.length positionIds
      some ⟨inputIds,positionIds,s.savedRoll ++ roll,s.savedPositionRoll ++ positionRoll⟩
    else some { s with inputIds := inputIds, positionIds := positionIds }

def packSequences (dense : List Nat) (zero : α) : List (List α × Nat) → Nat → Rmpad α → Option (Rmpad α)
  | [],_,s => some s
  | (seq,padded) :: rest,cuPadded,s => do
    let s ← packSequence p cpRank needRoll dense zero cuPadded padded seq s
    packSequences dense zero rest (cuPadded + padded) s

/-- The rows move up by one, and the saved ones take the ends of the chunks. -/
def rolled {γ : Type} (saved : List (Nat × γ)) (rows : List γ) : List γ :=
  saved.foldl (fun rows entry => rows.set entry.1 entry.2) (rows.rotate 1)

/-- `preprocess_thd_engine` on the rank `cpRank`. -/
def preprocessThdEngine (dense : List Nat) (zero : α) (rows : List (List α)) : Option (List α × PackedSeqParams × List Nat) := do
  let padded := seqlensPadded p (rows.map List.length)
  let maxSeqlen ← padded.max?
  let size := padded.sum / p.cpSize
  let s ← packSequences p cpRank needRoll dense zero (rows.zip padded) 0 ⟨List.replicate size zero,List.replicate size 0,[],[]⟩
  let inputIds := if needRoll then rolled s.savedRoll s.inputIds else s.inputIds
  let positionIds := if needRoll then rolled s.savedPositionRoll s.positionIds else s.positionIds
  some (inputIds,⟨padded.scanl (· + ·) 0,maxSeqlen⟩,positionIds)

end Thd

section ThdOutput

variable {β : Type} (cpSize : Nat)

/-- One sequence of the gathered outputs. `tmp` has the default dtype: `narrow` is the conversion
to it, and `blank` what an empty tensor holds. -/
def postprocessSequence (narrow : β → β) (blank : β) (outputs : Nat → List β) (bounds : Nat × Nat) (seqlen : Nat) :
    Option (List β) :=
  if cpSize ≤ 1 then some (Zigzag.slice bounds.1 (bounds.1 + seqlen) (outputs 0))
  else
    let chunk := (bounds.2 - bounds.1) / cpSize
    let half := chunk / 2
    let start := bounds.1 / cpSize
    (gather half (chunk * cpSize) cpSize (fun j => (Zigzag.slice start (start + half) (outputs j)).map narrow)
      (fun j => (Zigzag.slice (start + half) (start + chunk) (outputs j)).map narrow) (List.replicate (chunk * cpSize) blank)).map
      (·.take seqlen)

/-- `postprocess_thd_engine` of the outputs of all ranks. -/
def postprocessThdEngine (narrow : β → β) (blank : β) (params : PackedSeqParams) (seqlens : List Nat)
    (outputs : Nat → List β) : Option (List (List β)) :=
  ((params.cuSeqlensPadded.zip params.cuSeqlensPadded.tail).zip seqlens).mapM
    (fun entry => postprocessSequence cpSize narrow blank outputs entry.1 entry.2)

end ThdOutput

section Bshd

variable {α : Type} (p : Parallel) (cpRank : Nat) (needRoll : Bool)

/-- The padded `max_seqlen`. -/
def bshdMaxSeqlen (seqlens : List Nat) : Option Nat := do
  let longest ← seqlens.max?
  let align := alignSize p
  let maxSeqlen := if align > 1 then longest + padSize align longest else longest
  if p.useFp8Padding then
    let total := 128 * p.tpSize * p.cpSize
    let fp8Align := Nat.lcm (total / Nat.gcd seqlens.length total) align
    some ((maxSeqlen + fp8Align - 1) / fp8Align * fp8Align)
  else some maxSeqlen

/-- The first places of a row of the mask become true, if there are any. -/
def markValid (start valid : Nat) (mask : List Bool) : Option (List Bool) :=
  if valid > 0 then setSlice start (start + valid) [true] mask else some mask

/-- `seq_padded`, when it is needed. -/
def padToMax (zero : α) (maxSeqlen : Nat) (seq : List α) : Option (List α) :=
  if seq.length < maxSeqlen then setSlice 0 seq.length seq (List.replicate maxSeqlen zero) else some seq

/-- The two chunks, or with the roll the rows behind their places. -/
def localSeq (maxSeqlen chunkLen firstStart secondStart : Nat) (seq : List α) : Option (List α) :=
  if needRoll then
    (List.range' firstStart chunkLen ++ List.range' secondStart chunkLen).mapM (fun pos => seq[(pos + 1) % maxSeqlen]?)
  else some (Zigzag.slice firstStart (firstStart + chunkLen) seq ++ Zigzag.slice secondStart (secondStart + chunkLen) seq)

/-- One row of `input_ids_bshd` and of `attention_mask`. -/
def bshdRow (zero : α) (maxSeqlen : Nat) (seq : List α) : Option (List α × List Bool) :=
  if p.cpSize ≤ 1 then do
    let mask ← setSlice 0 seq.length [true] (List.replicate maxSeqlen false)
    let row ← setSlice 0 seq.length seq (List.replicate maxSeqlen zero)
    some (row,mask)
  else do
    let localMaxSeqlen := maxSeqlen / p.cpSize
    let padded ← padToMax zero maxSeqlen seq
    let chunkLen := maxSeqlen / (2 * p.cpSize)
    let firstStart := cpRank * chunkLen
    let secondStart := (2 * p.cpSize - cpRank - 1) * chunkLen
    let rows ← localSeq needRoll maxSeqlen chunkLen firstStart secondStart padded
    let row ← setSlice 0 localMaxSeqlen rows (List.replicate localMaxSeqlen zero)
    let mask ← markValid 0 (min (seq.length - firstStart) chunkLen) (List.replicate localMaxSeqlen false)
    let mask ← markValid chunkLen (min (seq.length - secondStart) chunkLen) mask
    some (row,mask)

inductive AttentionMask where
  | plain (rows : List (List Bool))
  | npu (matrices : List (List (List Bool)))

/-- `_build_npu_attn_mask` for one row. -/
def buildNpuAttnMask (row : List Bool) : List (List Bool) :=
  (List.range row.length).map (fun q =>
    (List.range row.length).map (fun k => !(row.getD q false && row.getD k false && decide (k ≤ q))))

/-- The diagonal of such a mask, inverted. -/
def npuMaskRow (matrix : List (List Bool)) : List Bool :=
  (List.range matrix.length).map (fun q => !(matrix.getD q []).getD q false)

def AttentionMask.rows : AttentionMask → List (List Bool)
  | plain rows => rows
  | npu matrices => matrices.map npuMaskRow

/-- `preprocess_bshd_engine` on the rank `cpRank`. -/
def preprocessBshdEngine (npu : Bool) (zero : α) (rows : List (List α)) :
    Option (List (List α) × AttentionMask × List Nat) := do
  let maxSeqlen ← bshdMaxSeqlen p (rows.map List.length)
  let packed ← rows.mapM (bshdRow p cpRank needRoll zero maxSeqlen)
  let chunkLen := maxSeqlen / (2 * p.cpSize)
  let positionIds :=
    if p.cpSize ≤ 1 then List.range maxSeqlen
    else List.range' (cpRank * chunkLen) chunkLen ++ List.range' (maxSeqlen - (cpRank + 1) * chunkLen) chunkLen
  let inputIds := packed.map Prod.fst
  let inputIds := if needRoll && decide (p.cpSize ≤ 1) then inputIds.map (·.rotate 1) else inputIds
  let mask := packed.map Prod.snd
  some (inputIds,if npu then .npu (mask.map buildNpuAttnMask) else .plain mask,positionIds)

end Bshd

section BshdOutput

variable {β : Type} (cpSize : Nat)

/-- `row[mask]`. -/
def masked (mask : List Bool) (row : List β) : List β := ((row.zip mask).filter Prod.snd).map Prod.fst

/-- One row of the gathered outputs. -/
def postprocessBshdRow (blank : β) (outputs : Nat → List β) (masks : Nat → List Bool) : Option (List β) :=
  if cpSize ≤ 1 then some (masked (masks 0) (outputs 0))
  else
    let localSeqlen := (outputs 0).length
    if localSeqlen % 2 = 0 then do
      let half := localSeqlen / 2
      let full := localSeqlen * cpSize
      let tmp ← gather half full cpSize (fun j => (outputs j).take half) (fun j => (outputs j).drop half)
        (List.replicate full blank)
      let fullMask ← gather half full cpSize (fun j => (masks j).take half) (fun j => (masks j).drop half)
        (List.replicate full false)
      some (masked fullMask tmp)
    else none

/-- The assertion on the shapes of a rank's output and mask. -/
def sameShape (output : List (List β)) (mask : List (List Bool)) : Bool :=
  decide (output.map List.length = mask.map List.length)

/-- `postprocess_bshd_engine` of the outputs and masks of all ranks. -/
def postprocessBshdEngine (blank : β) (outputs : Nat → List (List β)) (masks : Nat → AttentionMask) : Option (List (List β)) :=
  if (List.range cpSize).all (fun j => sameShape (outputs j) (masks j).rows) then
    (List.range (outputs 0).length).mapM (fun i =>
      postprocessBshdRow cpSize blank (fun j => (outputs j).getD i []) (fun j => (masks j).rows.getD i []))
  else none

end BshdOutput

section Properties

variable {α β : Type} (p : Parallel) (needRoll : Bool)

/-- The value at the slot of token `t` of the sequence with these bounds. -/
def thdValueAt (held : Nat → List α) (bounds : Nat × Nat) (t : Nat) : Option α :=
  if p.cpSize ≤ 1 then (held 0)[bounds.1 + t]?
  else
    let place := slot ((bounds.2 - bounds.1) / p.cpSize / 2) p.cpSize t
    (held place.1)[bounds.1 / p.cpSize + place.2]?

/-- The value at the slot of token `t` of sequence `i`. -/
def bshdValueAt (held : Nat → List (List α)) (i t : Nat) : Option α :=
  if p.cpSize ≤ 1 then ((held 0).getD i [])[t]?
  else
    let place := slot (((held 0).getD i []).length / 2) p.cpSize t
    ((held place.1).getD i [])[place.2]?

/-- Every rank packs the batch, a function of what the ranks hold comes back for each sequence's
own tokens, and the roll brings the next token of the sequence. -/
def ThdRoundTrip (dense : List Nat) (zero : α) (narrow : β → β) (blank : β) (f : α → β) (rows : List (List α)) : Prop :=
  ∃ (held : Nat → List α) (params : PackedSeqParams),
    (∀ rank < p.cpSize, ∃ positions, preprocessThdEngine p rank needRoll dense zero rows = some (held rank,params,positions)) ∧
    (needRoll = false → postprocessThdEngine p.cpSize narrow blank params (rows.map List.length) (fun j => (held j).map f) =
      some (rows.map (List.map f))) ∧
    (needRoll = true → ∀ entry ∈ rows.zip (params.cuSeqlensPadded.zip params.cuSeqlensPadded.tail), ∀ t,
      t + 1 < entry.1.length → thdValueAt p held entry.2 t = entry.1[t + 1]?)

def BshdRoundTrip (npu : Bool) (zero : α) (blank : β) (f : α → β) (rows : List (List α)) : Prop :=
  ∃ (held : Nat → List (List α)) (masks : Nat → AttentionMask),
    (∀ rank < p.cpSize, ∃ positions, preprocessBshdEngine p rank needRoll npu zero rows = some (held rank,masks rank,positions)) ∧
    (needRoll = false → postprocessBshdEngine p.cpSize blank (fun j => (held j).map (List.map f)) masks =
      some (rows.map (List.map f))) ∧
    (needRoll = true → ∀ i row, rows[i]? = some row → ∀ t, t + 1 < row.length → bshdValueAt p held i t = row[t + 1]?)

/-- The rows that a sequence has for the ranks: a short one of scalars is padded. -/
def paddedRows (dense : List Nat) (seqlen : Nat) : Nat := if dense = [] then max seqlen (thdAlignSize p) else seqlen

/-- The chunks of every rank can be cut out of a sequence that is padded to `padded`: it has more
rows than the first chunks of all ranks for the roll, else no fewer, or just one in the last of
these chunks. -/
def Fits (dense : List Nat) (seqlen padded : Nat) : Prop :=
  (dense ≠ [] → thdAlignSize p ≤ seqlen * dense.prod) ∧
    if needRoll then padded / 2 < paddedRows p dense seqlen
    else padded / 2 ≤ paddedRows p dense seqlen ∨ padded / 2 + 1 = paddedRows p dense seqlen + padded / p.cpSize / 2

end Properties

end RelayOpd.ContextParallel
