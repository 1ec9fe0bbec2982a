import RelayOpd.OptimLosses

/-! The loss of a packed micro-batch: every row by itself, and its last token under the first
mask entry of the row behind it. -/
namespace RelayOpd.OptimStep

variable {n : Nat} (batch : Fin n → Row) {R : Type} [Field R] (outputs : Fin n → Nat → R)

def rowOutputs (r : Fin n) : List R := (List.range (batch r).seqLen).map (outputs r)

/-- The first entry of a row's loss mask. -/
def firstMask (r : Fin n) : Bool := (batch r).lossMask.headD false

/-- The tokens of a row before its last one. -/
def innerTerm (r : Fin n) : R := maskedSumFlat ((rowOutputs batch outputs r).dropLast) (batch r).lossMask.tail

/-- The last token of a row. -/
def lastTerm (r : Fin n) (kept : Bool) : R := outputs r ((batch r).seqLen - 1) * maskValue kept

variable {batch}

theorem Row.seqLen_pos (row : Row) : 0 < row.seqLen := Nat.add_pos_left row.prompt_pos _

omit [Field R] in
theorem rowOutputs_split (r : Fin n) : rowOutputs batch outputs r =
    (rowOutputs batch outputs r).dropLast ++ [outputs r ((batch r).seqLen - 1)] := by
  obtain ⟨len,same⟩ := Nat.exists_eq_add_one_of_ne_zero (batch r).seqLen_pos.ne'
  rw [rowOutputs,same,List.range_succ,List.map_append]
  simp

/-- A row with a mask entry behind it. -/
theorem row_packed (r : Fin n) (next : Bool) :
    maskedSumFlat (rowOutputs batch outputs r) ((batch r).lossMask.tail ++ [next]) =
      innerTerm batch outputs r + lastTerm batch outputs r next := by
  have lengths : (rowOutputs batch outputs r).dropLast.length = (batch r).lossMask.tail.length := by
    simp [rowOutputs,(batch r).sized,Row.seqLen]
  conv_lhs => rw [rowOutputs_split]
  rw [maskedSumFlat_append _ _ _ _ lengths,innerTerm,lastTerm]
  cases next <;> simp [maskedSumFlat,maskValue]

theorem lossMask_cons (r : Fin n) : (batch r).lossMask = firstMask batch r :: (batch r).lossMask.tail := by
  obtain ⟨kept,mask,shape⟩ : ∃ kept mask, (batch r).lossMask = kept :: mask := by
    refine List.exists_cons_of_ne_nil (fun empty => ?_)
    have sized := (batch r).sized
    rw [empty] at sized
    exact absurd sized (batch r).seqLen_pos.ne
  rw [firstMask,shape]
  rfl

theorem follow_row (r : Fin n) (parts : List (List Bool)) (last : Bool) :
    Rolled.follow ((batch r).lossMask :: parts) last =
      ((batch r).lossMask.tail ++ [parts.flatten.headD last]) :: Rolled.follow parts last := by
  conv_lhs => rw [lossMask_cons r]
  rfl

theorem flatten_head (rows : List (Fin n)) (last : Bool) :
    (rows.map (fun r => (batch r).lossMask)).flatten.headD last = (rows.map (firstMask batch)).headD last := by
  cases rows with
  | nil => rfl
  | cons r rows =>
    rw [List.map_cons,List.flatten_cons,lossMask_cons r]
    rfl

/-- Rows behind one another. -/
theorem rows_packed (rows : List (Fin n)) (last : Bool) :
    maskedSumFlat (rows.flatMap (rowOutputs batch outputs))
        (Rolled.follow (rows.map (fun r => (batch r).lossMask)) last).flatten =
      (rows.map (innerTerm batch outputs)).sum +
        (List.zipWith (lastTerm batch outputs) rows (rows.tail.map (firstMask batch) ++ [last])).sum := by
  induction rows with
  | nil => simp [maskedSumFlat,Rolled.follow]
  | cons r rows ih =>
    have lengths : (rowOutputs batch outputs r).length =
        ((batch r).lossMask.tail ++ [(rows.map (firstMask batch)).headD last]).length := by
      have own := congrArg List.length (@lossMask_cons n batch r)
      have sized := (batch r).sized
      simp only [rowOutputs,List.length_map,List.length_range,List.length_append,List.length_singleton,Row.seqLen]
      simp only [List.length_cons] at own
      omega
    have edges : List.zipWith (lastTerm batch outputs) (r :: rows) ((r :: rows).tail.map (firstMask batch) ++ [last]) =
        lastTerm batch outputs r ((rows.map (firstMask batch)).headD last) ::
          List.zipWith (lastTerm batch outputs) rows (rows.tail.map (firstMask batch) ++ [last]) := by
      cases rows <;> rfl
    rw [List.flatMap_cons,List.map_cons,follow_row,flatten_head,List.flatten_cons,maskedSumFlat_append _ _ _ _ lengths,
      row_packed,ih,edges,List.map_cons,List.sum_cons,List.sum_cons]
    ring

/-- The row behind a row, cyclically. -/
theorem zip_rotated {β : Type} (rows : List (Fin n)) (once : rows.Nodup) (f : Fin n → Bool → β) :
    List.zipWith f rows ((rows.rotate 1).map (firstMask batch)) =
      rows.map (fun r => f r (firstMask batch (successorIn rows r))) := by
  refine List.ext_getElem (by simp) (fun i left _ => ?_)
  have bound : i < rows.length := by simpa using left
  have positive : 0 < rows.length := i.zero_le.trans_lt bound
  rw [List.getElem_zipWith,List.getElem_map,List.getElem_map,List.getElem_rotate,successorIn,
    List.Nodup.idxOf_getElem once i bound,List.getD_eq_getElem _ _ (Nat.mod_lt _ positive)]

theorem sftLoss_eq (rows : List (Fin n)) (once : rows.Nodup) (tokens : R) (dpSize : Nat) :
    sftLoss (flatOutputs batch rows outputs) (rows.flatMap (fun r => (batch r).lossMask)) tokens dpSize =
      -((rows.map (innerTerm batch outputs)).sum +
        (rows.map (fun r => lastTerm batch outputs r (firstMask batch (successorIn rows r)))).sum) / tokens * dpSize := by
  cases rows with
  | nil => simp [sftLoss,flatOutputs,maskedSumFlat]
  | cons r rest =>
    have rotated : (r :: rest).rotate 1 = rest ++ [r] := by simp
    have flat : (r :: rest).flatMap (fun r => (batch r).lossMask) = ((r :: rest).map (fun r => (batch r).lossMask)).flatten :=
      List.flatMap_def
    rw [← zip_rotated (r :: rest) once,rotated,List.map_append,sftLoss,flat,Rolled.roll_flatten _ false,flatten_head]
    exact congrArg (fun sum => -sum / tokens * (dpSize : R)) (rows_packed outputs (r :: rest) (firstMask batch r))

end RelayOpd.OptimStep
