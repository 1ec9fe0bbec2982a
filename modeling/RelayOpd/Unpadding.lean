import RelayOpd.Ragged
import RelayOpd.PolicyLoss

/-! The flat no-padding format: tokens are taken out of padded rows by their attention
mask, and responses are put back, shifted left by one token. -/
namespace RelayOpd

section Indices

variable {B S : Nat}

/-- The attended columns of a row. -/
def attended (attentionMask : Tensor B S Bool) (i : Fin B) : List (Fin S) :=
  (List.finRange S).filter (attentionMask i)

/-- The attended slots in row-major order, as `unpad_input` returns them. -/
def indices (attentionMask : Tensor B S Bool) : List (Fin B × Fin S) :=
  (List.finRange B).flatMap (fun i => (attended attentionMask i).map (fun c => (i,c)))

/-- `values.flatten(0, 1)[indices]`. -/
def indexFirstAxis (values : Tensor B S α) (slots : List (Fin B × Fin S)) : List α :=
  slots.map (fun slot => values slot.1 slot.2)

def cuSeqlens (attentionMask : Tensor B S Bool) : List Nat :=
  Ragged.offsets ((List.finRange B).map (fun i => (attended attentionMask i).length))

/-- A jagged tensor. -/
structure Nested (α : Type) where
  values : List α
  offsets : List Nat

def Nested.row (n : Nested α) (i : Nat) : List α :=
  (n.values.drop (n.offsets.getD i 0)).take (n.offsets.getD (i+1) 0 - n.offsets.getD i 0)

/-- A padded tensor without its padding. -/
def unpad (attentionMask : Tensor B S Bool) (values : Tensor B S α) : Nested α :=
  ⟨indexFirstAxis values (indices attentionMask),cuSeqlens attentionMask⟩

theorem unpad_values (attentionMask : Tensor B S Bool) (values : Tensor B S α) :
    (unpad attentionMask values).values =
      (List.finRange B).flatMap (fun i => (attended attentionMask i).map (values i)) := by
  simp [unpad,indexFirstAxis,indices,List.map_flatMap,List.map_map,Function.comp_def]

/-- The rows of the nested tensor are the attended parts of the padded rows. -/
theorem unpad_row (attentionMask : Tensor B S Bool) (values : Tensor B S α) (i : Fin B) :
    (unpad attentionMask values).row i = (attended attentionMask i).map (values i) := by
  let rows := (List.finRange B).map (fun k => (attended attentionMask k).map (values k))
  have lens : (List.finRange B).map (fun k => (attended attentionMask k).length) = rows.map List.length := by
    simp [rows,Function.comp_def]
  have inside : (i : Nat) < (rows.map List.length).length := by simp [rows]
  have flat : (unpad attentionMask values).values = rows.flatten := by
    rw [unpad_values,List.flatMap_def]
  rw [Nested.row,flat,unpad,cuSeqlens,lens,Ragged.offsets_getD _ _ inside.le,
    Ragged.offsets_getD _ _ inside,Ragged.start_succ _ _ inside,Nat.add_sub_cancel_left,
    Ragged.flatten_drop_take rows i (by simpa using inside)]
  simp [rows]

end Indices

section Responses

variable {B : Nat}

/-- Prompt and response lengths as counted from the attention mask. -/
def Lengths.ofMask (W T : Nat) (attentionMask : Tensor B (W + T) Bool) : Lengths B where
  promptLens i := (List.finRange W).countP (fun c => attentionMask i (Fin.castAdd T c))
  responseLens i := (List.finRange T).countP (fun c => attentionMask i (Fin.natAdd W c))

variable (l : Lengths B)

theorem Lengths.sequenceOffset_eq (i : Fin B) :
    l.sequenceOffset i = Ragged.start (List.ofFn l.sequenceLen) i + l.sequenceLen i := by
  have bound : (i : Nat) < (List.ofFn l.sequenceLen).length := by simp
  have here : Ragged.len (List.ofFn l.sequenceLen) i = l.sequenceLen i := by
    rw [Ragged.len_of_bound _ _ bound]
    simp
  rw [← here,← Ragged.start_succ _ _ bound,Ragged.start,List.sum_take_ofFn,Lengths.sequenceOffset,
    ← Finset.sum_filter]
  refine Finset.sum_congr (Finset.ext fun k => ?_) (fun _ _ => rfl)
  simp only [Finset.mem_filter,Finset.mem_univ,true_and,Fin.le_def,Nat.lt_succ_iff]

/-- Flat rows come back as their responses' predictors, and zeros after them. -/
theorem noPadding2Padding_rows (T : Nat) (zero : α) (rows : Fin B → List α) (filled : B ≠ 0)
    (lens : ∀ i, (rows i).length = l.sequenceLen i) (prompts : ∀ i, 0 < l.promptLens i) :
    noPadding2Padding l T zero ((List.finRange B).flatMap rows) =
      .ok (fun i j => if (j : Nat) < l.responseLens i then
        (rows i).getD (l.promptLens i - 1 + j) zero else zero) := by
  let listed := (List.finRange B).map rows
  have sizes : listed.map List.length = List.ofFn l.sequenceLen := by
    simp [listed,List.ofFn_eq_map,Function.comp_def,lens]
  have count : ((List.finRange B).flatMap rows).length = ∑ i, l.sequenceLen i := by
    rw [List.length_flatMap,Fin.sum_univ_def]
    simp [lens]
  have positive : ¬ ∃ i, l.promptLens i = 0 := by
    rintro ⟨i,zero⟩
    exact absurd zero (Nat.ne_of_gt (prompts i))
  rw [noPadding2Padding,if_neg filled,if_neg (by simp [count]),if_neg positive]
  congr 1
  funext i j
  unfold responseValues
  by_cases inside : (j : Nat) < l.responseLens i
  · have here := prompts i
    have slot : l.sequenceOffset i - l.responseLens i - 1 + j =
        Ragged.start (listed.map List.length) i + (l.promptLens i - 1 + j) := by
      rw [l.sequenceOffset_eq i,sizes,Lengths.sequenceLen]
      omega
    have own : l.promptLens i - 1 + j < Ragged.len (listed.map List.length) i := by
      rw [sizes,Ragged.len_of_bound _ _ (by simp),List.getElem_ofFn]
      simp only [Lengths.sequenceLen,Fin.eta]
      omega
    rw [if_pos inside,if_pos inside,slot,List.flatMap_def,List.getD_eq_getElem?_getD,
      Ragged.flatten_slot listed i _ own,List.getD_eq_getElem?_getD]
    simp [listed]
  · rw [if_neg inside,if_neg inside]

end Responses

/-- `(attention_mask.cumsum(-1) - 1).clamp_min(0)`. -/
def positionIds (attentionMask : Tensor B S Bool) : Tensor B S Int := fun i c =>
  max ((((List.finRange S).filter (fun k => k ≤ c && attentionMask i k)).length : Int) - 1) 0

section Placement

/-- Rows that hold a prompt somewhere in the first `W` columns and a response at the
start of the next `T`. -/
structure Placement (B W T : Nat) extends Lengths B where
  first : Fin B → Nat
  prompt_pos : ∀ i, 0 < promptLens i
  prompt_fits : ∀ i, first i + promptLens i ≤ W
  response_fits : ∀ i, responseLens i ≤ T

variable {B W T : Nat} (p : Placement B W T)

def Placement.attentionMask : Tensor B (W + T) Bool := fun i c =>
  decide ((p.first i ≤ c ∧ (c : Nat) < p.first i + p.promptLens i) ∨
    (W ≤ c ∧ (c : Nat) < W + p.responseLens i))

/-- The column of a row's token. -/
def Placement.column (i : Fin B) (k : Nat) : Nat :=
  if k < p.promptLens i then p.first i + k else W + (k - p.promptLens i)

theorem Placement.column_lt (i : Fin B) (k : Nat) (inside : k < p.sequenceLen i) :
    p.column i k < W + T := by
  have prompt := p.prompt_fits i
  have response := p.response_fits i
  unfold Lengths.sequenceLen at inside
  unfold Placement.column
  split <;> omega

def Placement.slot (i : Fin B) (k : Fin (p.sequenceLen i)) : Fin (W + T) :=
  ⟨p.column i k,p.column_lt i k k.isLt⟩

/-- A filter that keeps two blocks of a range. -/
theorem range_filter_blocks (keep : Nat → Bool) (a b c d e : Nat)
    (left : ∀ k < a, keep k = false) (prompt : ∀ k < b, keep (a + k) = true)
    (gap : ∀ k < c, keep (a + b + k) = false) (response : ∀ k < d, keep (a + b + c + k) = true)
    (right : ∀ k < e, keep (a + b + c + d + k) = false) :
    (List.range (a + b + c + d + e)).filter keep =
      (List.range b).map (a + ·) ++ (List.range d).map (a + b + c + ·) := by
  have none : ∀ start n, (∀ k < n, keep (start + k) = false) →
      ((List.range n).map (start + ·)).filter keep = [] := by
    intro start n dropped
    simpa using dropped
  have all : ∀ start n, (∀ k < n, keep (start + k) = true) →
      ((List.range n).map (start + ·)).filter keep = (List.range n).map (start + ·) := by
    intro start n kept
    simpa using kept
  have first := none 0 a (by simpa using left)
  simp only [Nat.zero_add,List.map_id'] at first
  rw [List.range_add,List.range_add,List.range_add,List.range_add]
  simp only [List.filter_append]
  rw [first,all a b prompt,none (a + b) c gap,all (a + b + c) d response,none (a + b + c + d) e right]
  simp

/-- The attended columns of a row are those of its tokens, in order. -/
theorem Placement.attended_eq (i : Fin B) :
    attended p.attentionMask i = (List.finRange (p.sequenceLen i)).map (p.slot i) := by
  have prompt := p.prompt_fits i
  have response := p.response_fits i
  obtain ⟨gap,width⟩ := Nat.exists_eq_add_of_le prompt
  obtain ⟨rest,tail⟩ := Nat.exists_eq_add_of_le response
  apply List.map_injective_iff.mpr Fin.val_injective
  have kept := range_filter_blocks (fun c => decide ((p.first i ≤ c ∧ c < p.first i + p.promptLens i) ∨
    (W ≤ c ∧ c < W + p.responseLens i))) (p.first i) (p.promptLens i) gap (p.responseLens i) rest
    (by simp; omega) (by simp; omega) (by simp; omega) (by simp; omega) (by simp; omega)
  rw [show p.first i + p.promptLens i + gap + p.responseLens i + rest = W + T by omega,
    ← width] at kept
  have columns : (attended p.attentionMask i).map Fin.val =
      (List.range (W + T)).filter (fun c => decide ((p.first i ≤ c ∧ c < p.first i + p.promptLens i) ∨
        (W ≤ c ∧ c < W + p.responseLens i))) := by
    rw [← List.map_coe_finRange_eq_range,List.filter_map]
    rfl
  rw [columns,kept,List.map_map]
  have tokens : (List.finRange (p.sequenceLen i)).map (Fin.val ∘ p.slot i) =
      (List.range (p.sequenceLen i)).map (p.column i) := by
    rw [← List.map_coe_finRange_eq_range,List.map_map]
    rfl
  rw [tokens,Lengths.sequenceLen,List.range_add,List.map_append,List.map_map]
  congr 1
  · refine List.map_congr_left (fun k member => ?_)
    simp [Placement.column,List.mem_range.mp member]
  · refine List.map_congr_left (fun k _ => ?_)
    simp [Placement.column]

theorem countP_block (mask : Fin n → Bool) (a b : Nat) (fits : a + b ≤ n)
    (block : ∀ c, mask c = decide (a ≤ c ∧ (c : Nat) < a + b)) : (List.finRange n).countP mask = b := by
  obtain ⟨rest,width⟩ := Nat.exists_eq_add_of_le fits
  have kept := range_filter_blocks (fun c => decide (a ≤ c ∧ c < a + b)) a b rest 0 0
    (by simp; omega) (by simp) (by simp) (by simp) (by simp)
  have columns : ((List.finRange n).filter mask).map Fin.val =
      (List.range n).filter (fun c => decide (a ≤ c ∧ c < a + b)) := by
    rw [← List.map_coe_finRange_eq_range,List.filter_map]
    congr 1
    exact List.filter_congr (fun c _ => block c)
  rw [List.countP_eq_length_filter,← List.length_map Fin.val,columns,width]
  simpa using congrArg List.length kept

/-- The lengths counted from the mask are the real ones. -/
theorem Placement.ofMask_eq : Lengths.ofMask W T p.attentionMask = p.toLengths := by
  have promptLens : (Lengths.ofMask W T p.attentionMask).promptLens = p.promptLens := by
    funext i
    refine countP_block _ (p.first i) _ (p.prompt_fits i) (fun c => ?_)
    have inside := c.isLt
    simp [Placement.attentionMask]
  have responseLens : (Lengths.ofMask W T p.attentionMask).responseLens = p.responseLens := by
    funext i
    have prompt := p.prompt_fits i
    refine countP_block _ 0 _ (by have := p.response_fits i; omega) (fun c => ?_)
    simp [Placement.attentionMask]
    omega
  exact congrArg₂ Lengths.mk promptLens responseLens

theorem Placement.column_lt_column (i : Fin B) (a b : Nat) (before : a < b) : p.column i a < p.column i b := by
  have prompt := p.prompt_fits i
  unfold Placement.column
  split <;> split <;> omega

/-- A token's position id counts the tokens before it. -/
theorem Placement.positionIds_slot (i : Fin B) (k : Fin (p.sequenceLen i)) :
    positionIds p.attentionMask i (p.slot i k) = (k : Nat) := by
  have ordered : ∀ a, (p.slot i a ≤ p.slot i k) ↔ a ≤ k := by
    intro a
    simp only [Fin.le_def,Placement.slot]
    constructor
    · intro le
      by_contra later
      have := p.column_lt_column i k a (by omega)
      omega
    · intro le
      rcases Nat.lt_or_eq_of_le le with before | same
      · exact Nat.le_of_lt (p.column_lt_column i a k before)
      · rw [same]
  have count : ((List.finRange (W + T)).filter (fun c =>
      decide (c ≤ p.slot i k) && p.attentionMask i c)).length = (k : Nat) + 1 := by
    rw [← List.filter_filter]
    change ((attended p.attentionMask i).filter _).length = _
    rw [p.attended_eq i,List.filter_map,List.length_map,← List.countP_eq_length_filter]
    refine countP_block _ 0 _ (by omega) (fun a => ?_)
    rw [Function.comp_apply,decide_eq_decide,ordered,Fin.le_def]
    omega
  rw [positionIds,count]
  omega

/-- The tokens of a row in the no-padding format. -/
theorem Placement.unpad_row (values : Tensor B (W + T) α) (i : Fin B) :
    (unpad p.attentionMask values).row i =
      (List.finRange (p.sequenceLen i)).map (fun k => values i (p.slot i k)) := by
  rw [RelayOpd.unpad_row,p.attended_eq i,List.map_map]
  rfl

/-- Whatever was placed on the tokens of a row, the response columns receive the values
of the tokens before them. -/
theorem Placement.response_values (zero : α) (values : Tensor B (W + T) α) (rows : Fin B → List α)
    (filled : B ≠ 0)
    (placed : ∀ i, (List.finRange (p.sequenceLen i)).map (fun k => values i (p.slot i k)) = rows i) :
    noPadding2Padding (Lengths.ofMask W T p.attentionMask) T zero (unpad p.attentionMask values).values =
      .ok (fun i j => if (j : Nat) < p.responseLens i then
        (rows i).getD (p.promptLens i - 1 + j) zero else zero) := by
  have tokens : ∀ i, (attended p.attentionMask i).map (values i) = rows i := by
    intro i
    rw [p.attended_eq i,List.map_map,← placed i]
    rfl
  have lens : ∀ i, (rows i).length = p.sequenceLen i := by
    intro i
    rw [← placed i]
    simp
  rw [p.ofMask_eq,unpad_values]
  simp only [tokens]
  exact noPadding2Padding_rows p.toLengths T zero rows filled lens p.prompt_pos

end Placement

section LeftRight

/-- A padded tensor with `width` entries a token. -/
structure TopkTensor (B S : Nat) (α : Type) where
  width : Nat
  entries : Tensor B S (List α)

structure TopkNested (α : Type) where
  width : Nat
  entries : Nested (List α)

/-- The tensors of a left-right padded batch. The two top-k tensors come together. -/
structure PaddedBatch (B W T : Nat) (R : Type) where
  inputIds : Tensor B (W + T) Int
  attentionMask : Tensor B (W + T) Bool
  positionIds : Tensor B (W + T) Int
  responseMask : Tensor B T Bool
  pgActionInputIds : Option (Tensor B (W + T) Int) := none
  teacherTopk : Option (TopkTensor B (W + T) Int × TopkTensor B (W + T) R) := none
  teacherTokenLogprobs : Option (Tensor B (W + T) R) := none

structure NoPaddingBatch (B W T : Nat) (R : Type) where
  attentionMask : Tensor B (W + T) Bool
  responseMask : Tensor B T Bool
  maxSeqLen : Nat
  maxResponseLen : Nat
  indices : List (Fin B × Fin (W + T))
  inputIds : Nested Int
  positionIds : Nested Int
  lossMask : Tensor B T Bool
  pgActionInputIds : Option (Nested Int)
  teacherTopk : Option (TopkNested Int × TopkNested R)
  teacherTokenLogprobs : Option (Nested R)

variable {B W T : Nat}

def leftRight2NoPadding (data : PaddedBatch B W T R) : Except String (NoPaddingBatch B W T R) := do
  let mask := data.attentionMask
  let teacherTopk ← match data.teacherTopk with
    | none => pure none
    | some (ids,logprobs) =>
      if ids.width ≠ logprobs.width then
        throw (s!"teacher_ids and teacher_logprobs shape mismatch: " ++
          s!"teacher_ids=torch.Size([{B}, {W + T}, {ids.width}]) " ++
          s!"teacher_logprobs=torch.Size([{B}, {W + T}, {logprobs.width}])")
      else pure (some (TopkNested.mk ids.width (unpad mask ids.entries),
        TopkNested.mk logprobs.width (unpad mask logprobs.entries)))
  return {
    attentionMask := mask
    responseMask := data.responseMask
    maxSeqLen := W + T
    maxResponseLen := T
    indices := indices mask
    inputIds := unpad mask data.inputIds
    positionIds := unpad mask data.positionIds
    lossMask := data.responseMask
    pgActionInputIds := data.pgActionInputIds.map (unpad mask)
    teacherTopk := teacherTopk
    teacherTokenLogprobs := data.teacherTokenLogprobs.map (unpad mask) }

theorem leftRight2NoPadding_ok (data : PaddedBatch B W T R) (ids : TopkTensor B (W + T) Int)
    (logprobs : TopkTensor B (W + T) R) (topk : data.teacherTopk = some (ids,logprobs))
    (same : ids.width = logprobs.width) :
    ∃ out, leftRight2NoPadding data = .ok out ∧ out.attentionMask = data.attentionMask ∧
      out.inputIds = unpad data.attentionMask data.inputIds ∧
      out.positionIds = unpad data.attentionMask data.positionIds ∧
      out.teacherTopk = some (⟨ids.width,unpad data.attentionMask ids.entries⟩,
        ⟨logprobs.width,unpad data.attentionMask logprobs.entries⟩) ∧
      out.teacherTokenLogprobs = data.teacherTokenLogprobs.map (unpad data.attentionMask) := by
  simp only [leftRight2NoPadding,topk,same,ne_eq,not_true,if_false,bind,Except.bind,pure,Except.pure,
    Except.ok.injEq]
  exact ⟨_,rfl,rfl,rfl,rfl,rfl,rfl⟩

/-- `no_padding_2_padding` of a nested tensor against a batch with padded prompts. -/
def NoPaddingBatch.padded (data : NoPaddingBatch B W T R) (zero : α) (values : List α) :
    Except String (Tensor B T α) :=
  noPadding2Padding (Lengths.ofMask W T data.attentionMask) T zero values

end LeftRight

end RelayOpd
