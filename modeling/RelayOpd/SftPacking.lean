import RelayOpd.LocalLoop
import RelayOpd.Rolled
import RelayOpd.PolicyLoss
import Mathlib.Algebra.BigOperators.Group.List.Basic
import Mathlib.Algebra.Order.BigOperators.Group.List
import Mathlib.Data.Nat.Cast.Order.Ring
import Mathlib.Algebra.Order.Ring.Rat
import Mathlib.Tactic.Ring

/-! The loss of supervised fine-tuning over packed sequences: rows of `TokenizedSFTDataset`,
the rolled labels of `prepare_model_inputs`, and `sft_loss` with its rolled mask. -/
namespace RelayOpd

open Rolled (causal causal_length)

section Dataset

inductive Truncation where
  | error
  | left
  | right
  | unknown (method : String)
  deriving DecidableEq, Repr

inductive PadMode where
  | noPadding
  | right
  | leftRight
  | unknown (mode : String)
  deriving DecidableEq, Repr

structure SftDatasetConfig where
  padMode : PadMode := .noPadding
  truncation : Truncation := .error
  maxLength : Int := 1024
  padTokenId : Option Nat := none

structure SftRow where
  promptTokenIds : List Nat
  responseTokenIds : List Nat

structure SftSample where
  inputIds : List Nat
  positionIds : List Nat
  lossMask : List Bool
  deriving DecidableEq, Repr

/-- `xs[start:]`; a negative start counts from the end. -/
def sliceFrom (start : Int) (xs : List α) : List α :=
  xs.drop (if start < 0 then (xs.length + start).toNat else start.toNat)

/-- `xs[:stop]`. -/
def sliceTo (stop : Int) (xs : List α) : List α :=
  xs.take (if stop < 0 then (xs.length + stop).toNat else stop.toNat)

variable (cfg : SftDatasetConfig)

def truncateSample (sample : SftSample) : Except String SftSample :=
  if cfg.maxLength < sample.inputIds.length then
    match cfg.truncation with
    | .error => .error s!"sequence_length={sample.inputIds.length} is larger than max_length={cfg.maxLength}"
    | .left =>
      let inputIds := sliceFrom (-cfg.maxLength) sample.inputIds
      .ok ⟨inputIds,List.range inputIds.length,sliceFrom (-cfg.maxLength) sample.lossMask⟩
    | .right =>
      .ok ⟨sliceTo cfg.maxLength sample.inputIds,sliceTo cfg.maxLength sample.positionIds,
        sliceTo cfg.maxLength sample.lossMask⟩
    | .unknown method => .error s!"Unknown truncation method {method}"
  else .ok sample

def padSample (sample : SftSample) : SftSample :=
  let padLen := (cfg.maxLength - sample.inputIds.length).toNat
  ⟨sample.inputIds ++ List.replicate padLen (cfg.padTokenId.getD 0),
    sample.positionIds ++ List.replicate padLen 0,sample.lossMask ++ List.replicate padLen false⟩

/-- `TokenizedSFTDataset.__getitem__`. -/
def tokenizedSftItem (row : SftRow) : Except String SftSample := do
  let inputIds := row.promptTokenIds ++ row.responseTokenIds
  let lossMask := List.replicate row.promptTokenIds.length false ++
    List.replicate row.responseTokenIds.length true
  let sample ← truncateSample cfg ⟨inputIds,List.range inputIds.length,lossMask⟩
  match cfg.padMode with
  | .noPadding => .ok sample
  | .right => .ok (padSample cfg sample)
  | .leftRight => .ok (padSample cfg sample)
  | .unknown mode => .error s!"Unknown pad_mode {mode}"

end Dataset

section Loss

variable {R : Type} [Field R]

/-- `masked_sum` over two flat tensors. -/
def maskedSumFlat (values : List R) (mask : List Bool) : R :=
  (List.zipWith (fun value kept => (if kept then value else 0) * maskValue kept) values mask).sum

/-- `sft_loss` without padding. -/
def sftLoss (logProbFlatten : List R) (lossMaskFlatten : List Bool) (batchNumTokens : R) (dpSize : Nat) : R :=
  -maskedSumFlat logProbFlatten (Rolled.roll lossMaskFlatten) / batchNumTokens * dpSize

/-- The log-probs of a packed micro-batch at its rolled labels. -/
def packedLogProbs (model : List Tok → Tok → R) (sequences : List (List Tok)) : List R :=
  List.zipWith (fun dist label => dist label) (sequences.flatMap (causal model)) (Rolled.roll sequences.flatten)

/-- The negative log-likelihood of the tokens that the mask selects, the first one left out. -/
def sequenceNll (model : List Tok → Tok → R) (inputIds : List Tok) (lossMask : List Bool) : R :=
  (List.zipWith (fun entry kept => if kept then -entry else 0)
    (List.zipWith (fun dist label => dist label) (causal model inputIds) inputIds.tail) lossMask.tail).sum

variable (model : List Tok → Tok → R)

theorem maskedSumFlat_append (xs ys : List R) (ms ns : List Bool) (same : xs.length = ms.length) :
    maskedSumFlat (xs ++ ys) (ms ++ ns) = maskedSumFlat xs ms + maskedSumFlat ys ns := by
  rw [maskedSumFlat,List.zipWith_append same,List.sum_append]
  rfl

theorem neg_maskedSumFlat (values : List R) (mask : List Bool) :
    -maskedSumFlat values mask = (List.zipWith (fun entry kept => if kept then -entry else 0) values mask).sum := by
  induction values generalizing mask with
  | nil => simp [maskedSumFlat]
  | cons value values ih =>
    cases mask with
    | nil => simp [maskedSumFlat]
    | cons kept mask =>
      have rest := ih mask
      unfold maskedSumFlat at rest ⊢
      rw [List.zipWith_cons_cons,List.zipWith_cons_cons,List.sum_cons,List.sum_cons,neg_add,rest]
      cases kept <;> simp [maskValue]

/-- One sequence, with a masked slot at its end. -/
theorem sequence_loss (x next : Tok) (xs : List Tok) (kept : Bool) (mask : List Bool)
    (same : xs.length = mask.length) :
    -maskedSumFlat (List.zipWith (fun dist label => dist label) (causal model (x :: xs)) (xs ++ [next]))
      (mask ++ [false]) = sequenceNll model (x :: xs) (kept :: mask) := by
  obtain ⟨front,dist,split⟩ : ∃ front dist, causal model (x :: xs) = front ++ [dist] :=
    ⟨_,_,(List.dropLast_append_getLast (l := causal model (x :: xs)) (by simp [causal])).symm⟩
  have length : front.length = xs.length := by
    have count := congrArg List.length split
    simp only [causal_length,List.length_cons,List.length_append,List.length_nil] at count
    omega
  have short : List.zipWith (fun dist label => dist label) (front ++ [dist]) xs =
      List.zipWith (fun dist label => dist label) front xs := by
    have cut : List.zipWith (fun (dist : Tok → R) label => dist label) (front ++ [dist]) (xs ++ []) =
        List.zipWith (fun dist label => dist label) front xs ++
          List.zipWith (fun dist label => dist label) [dist] [] := List.zipWith_append length
    simpa using cut
  rw [sequenceNll,split,List.tail_cons,List.tail_cons,short,List.zipWith_append length,
    maskedSumFlat_append _ _ _ _ (by simp [length,same]),neg_add,neg_maskedSumFlat]
  simp [maskedSumFlat,maskValue]

/-- Without a mask at the head of any sequence, no sequence reads another one's tokens. -/
theorem followed_loss (samples : List (List Tok × List Bool)) (last : Tok)
    (sized : ∀ sample ∈ samples, sample.1.length = sample.2.length)
    (unmasked : ∀ sample ∈ samples, sample.2.head? ≠ some true) :
    -maskedSumFlat (List.zipWith (fun dist label => dist label) ((samples.map Prod.fst).flatMap (causal model))
        (Rolled.follow (samples.map Prod.fst) last).flatten) (Rolled.follow (samples.map Prod.snd) false).flatten =
      (samples.map (fun sample => sequenceNll model sample.1 sample.2)).sum := by
  induction samples with
  | nil => simp [maskedSumFlat]
  | cons sample samples ih =>
    obtain ⟨sequence,mask⟩ := sample
    have rest := ih (fun s later => sized s (List.mem_cons_of_mem _ later))
      (fun s later => unmasked s (List.mem_cons_of_mem _ later))
    have same : sequence.length = mask.length := sized (sequence,mask) List.mem_cons_self
    cases sequence with
    | nil =>
      obtain rfl : mask = [] := List.length_eq_zero_iff.mp same.symm
      simpa [Rolled.follow,causal,sequenceNll] using rest
    | cons x xs =>
      cases mask with
      | nil => cases same
      | cons kept mask =>
        have next : (samples.map Prod.snd).flatten.headD false = false := by
          rw [List.headD_eq_head?_getD]
          cases head : (samples.map Prod.snd).flatten.head? with
          | none => rfl
          | some b =>
            obtain ⟨part,member,top⟩ := Rolled.head_flatten _ b head
            obtain ⟨other,inside,rfl⟩ := List.mem_map.mp member
            cases b with
            | false => rfl
            | true => exact absurd top (unmasked other (List.mem_cons_of_mem _ inside))
        simp only [List.length_cons,Nat.add_right_cancel_iff] at same
        simp only [List.map_cons,List.flatMap_cons,Rolled.follow,List.flatten_cons,next,List.sum_cons]
        rw [List.zipWith_append (by simp),maskedSumFlat_append _ _ _ _ (by simp [same]),neg_add,rest,
          sequence_loss model x _ xs kept mask same]

end Loss

section Rows

variable (cfg : SftDatasetConfig)

/-- Where the kept tokens of a row of `n` tokens begin. -/
def firstKept (n : Nat) : Nat :=
  if cfg.maxLength < n ∧ cfg.truncation = .left then
    if 0 < cfg.maxLength then n - cfg.maxLength.toNat else (-cfg.maxLength).toNat
  else 0

def keptLength (n : Nat) : Nat :=
  if cfg.maxLength < n then
    match cfg.truncation with
    | .left => n - firstKept cfg n
    | .right => if cfg.maxLength < 0 then (n + cfg.maxLength).toNat else cfg.maxLength.toNat
    | _ => n
  else n

/-- A row that keeps any token keeps one of its prompt at its head. -/
def KeepsPrompt (row : SftRow) : Prop :=
  let n := row.promptTokenIds.length + row.responseTokenIds.length
  0 < keptLength cfg n → firstKept cfg n < row.promptTokenIds.length

/-- A tokenised row is a cut of the row's tokens and of their mask. -/
theorem item_cut (plain : cfg.padMode = .noPadding) (row : SftRow) (sample : SftSample)
    (made : tokenizedSftItem cfg row = .ok sample) :
    let n := row.promptTokenIds.length + row.responseTokenIds.length
    let cut := fun {α : Type} (xs : List α) => (xs.drop (firstKept cfg n)).take (keptLength cfg n)
    sample.inputIds = cut (row.promptTokenIds ++ row.responseTokenIds) ∧
      sample.lossMask = cut (List.replicate row.promptTokenIds.length false ++
        List.replicate row.responseTokenIds.length true) := by
  intro n cut
  simp only [tokenizedSftItem,plain,truncateSample,bind,Except.bind,List.length_append] at made
  by_cases long : cfg.maxLength < (n : Int)
  · have long' : cfg.maxLength < ((row.promptTokenIds.length + row.responseTokenIds.length : Nat) : Int) := long
    rw [if_pos long'] at made
    have left : ∀ {α : Type} (xs : List α), xs.length = n → cfg.truncation = .left →
        sliceFrom (-cfg.maxLength) xs = cut xs := by
      intro α xs length method
      have start : firstKept cfg n = if 0 < cfg.maxLength then n - cfg.maxLength.toNat
          else (-cfg.maxLength).toNat := if_pos ⟨long,method⟩
      have kept : keptLength cfg n = n - firstKept cfg n := by
        rw [keptLength,if_pos long,method]
      have all : (xs.drop (firstKept cfg n)).length ≤ keptLength cfg n := by
        rw [List.length_drop,length,kept]
      simp only [cut]
      rw [List.take_of_length_le all,sliceFrom,start,length]
      congr 1
      split
      next negative =>
        rw [if_pos (by omega)]
        omega
      next => rw [if_neg (by omega)]
    have right : ∀ {α : Type} (xs : List α), xs.length = n → cfg.truncation = .right →
        sliceTo cfg.maxLength xs = cut xs := by
      intro α xs length method
      have start : firstKept cfg n = 0 := if_neg (fun both => by rw [method] at both; cases both.2)
      have kept : keptLength cfg n = if cfg.maxLength < 0 then (n + cfg.maxLength).toNat else cfg.maxLength.toNat := by
        rw [keptLength,if_pos long,method]
      simp only [cut,start,List.drop_zero,kept,sliceTo,length]
    cases method : cfg.truncation with
    | error => simp [method] at made
    | unknown => simp [method] at made
    | left =>
      simp only [method,Except.ok.injEq] at made
      subst made
      exact ⟨left _ (by simp [n]) method,left _ (by simp [n]) method⟩
    | right =>
      simp only [method,Except.ok.injEq] at made
      subst made
      exact ⟨right _ (by simp [n]) method,right _ (by simp [n]) method⟩
  · have short : ¬ cfg.maxLength < ((row.promptTokenIds.length + row.responseTokenIds.length : Nat) : Int) := long
    rw [if_neg short] at made
    simp only [Except.ok.injEq] at made
    subst made
    have start : firstKept cfg n = 0 := if_neg (fun both => long both.1)
    have kept : keptLength cfg n = n := if_neg long
    simp only [cut,start,List.drop_zero,kept]
    exact ⟨(List.take_of_length_le (by simp [n])).symm,(List.take_of_length_le (by simp [n])).symm⟩

theorem item_sized (plain : cfg.padMode = .noPadding) (row : SftRow) (sample : SftSample)
    (made : tokenizedSftItem cfg row = .ok sample) : sample.inputIds.length = sample.lossMask.length := by
  obtain ⟨ids,mask⟩ := item_cut cfg plain row sample made
  rw [ids,mask]
  simp

theorem firstKept_lt (n : Nat) (kept : 0 < keptLength cfg n) : firstKept cfg n < n := by
  by_cases left : cfg.maxLength < n ∧ cfg.truncation = .left
  · rw [keptLength,if_pos left.1,left.2] at kept
    simp only at kept
    omega
  · rw [firstKept,if_neg left]
    rcases Nat.eq_zero_or_pos n with rfl | positive
    · unfold keptLength at kept
      split at kept
      next negative =>
        cases method : cfg.truncation with
        | error => simp [method] at kept
        | unknown => simp [method] at kept
        | left => exact absurd ⟨negative,method⟩ left
        | right =>
          simp only [method] at kept
          rw [if_pos (by simpa using negative)] at kept
          omega
      next => exact kept
    · exact positive

/-- The mask begins with a one exactly when the row loses its prompt. -/
theorem item_head (plain : cfg.padMode = .noPadding) (row : SftRow) (sample : SftSample)
    (made : tokenizedSftItem cfg row = .ok sample) :
    sample.lossMask.head? = some true ↔ ¬ KeepsPrompt cfg row := by
  obtain ⟨_,mask⟩ := item_cut cfg plain row sample made
  have bound := firstKept_lt cfg (row.promptTokenIds.length + row.responseTokenIds.length)
  rw [mask,List.head?_take,KeepsPrompt]
  generalize row.promptTokenIds.length = p at bound ⊢
  generalize row.responseTokenIds.length = r at bound ⊢
  by_cases kept : 0 < keptLength cfg (p + r)
  · have inside := bound kept
    rw [if_neg (by omega),List.head?_drop]
    by_cases prompt : firstKept cfg (p + r) < p
    · rw [List.getElem?_append_left (by simpa using prompt),List.getElem?_replicate,if_pos prompt]
      simp [prompt]
    · rw [List.getElem?_append_right (by simpa using prompt),List.getElem?_replicate,List.length_replicate,
        if_pos (by omega)]
      simp [prompt,kept]
  · rw [if_pos (by omega)]
    simp [kept]

end Rows

section Packing

variable {R : Type} [Field R]

/-- Under a model that gives every token the same log-prob, masks are counted. -/
theorem maskedSumFlat_const (c : R) (values : List R) (mask : List Bool) (same : values.length = mask.length)
    (const : ∀ value ∈ values, value = c) : maskedSumFlat values mask = mask.count true * c := by
  induction values generalizing mask with
  | nil =>
    obtain rfl : mask = [] := List.length_eq_zero_iff.mp same.symm
    simp [maskedSumFlat]
  | cons value values ih =>
    cases mask with
    | nil => cases same
    | cons kept mask =>
      have rest := ih mask (by simpa using same) (fun v later => const v (List.mem_cons_of_mem _ later))
      unfold maskedSumFlat at rest ⊢
      rw [List.zipWith_cons_cons,List.sum_cons,rest,const value List.mem_cons_self]
      cases kept
      · simp [maskValue]
      · simp only [if_true,maskValue,List.count_cons_self]
        push_cast
        ring

omit [Field R] in
theorem mem_zipWith_const (c : R) (dists : List (Tok → R)) (labels : List Tok)
    (const : ∀ dist ∈ dists, ∀ label, dist label = c) :
    ∀ value ∈ List.zipWith (fun dist label => dist label) dists labels, value = c := by
  intro value member
  obtain ⟨i,bound,rfl⟩ := List.mem_iff_getElem.mp member
  rw [List.getElem_zipWith]
  exact const _ (List.getElem_mem _) _

omit [Field R] in
theorem causal_const (c : R) (sequence : List Tok) :
    ∀ dist ∈ causal (fun _ _ => c : List Tok → Tok → R) sequence, ∀ label, dist label = c := by
  intro dist member label
  obtain ⟨_,_,rfl⟩ := List.mem_map.mp member
  rfl

/-- What such a model makes of one sequence. -/
theorem sequenceNll_const (inputIds : List Tok) (lossMask : List Bool) (same : inputIds.length = lossMask.length) :
    sequenceNll (fun _ _ => -1 : List Tok → Tok → R) inputIds lossMask = lossMask.tail.count true := by
  have length : (List.zipWith (fun dist label => dist label)
      (causal (fun _ _ => -1 : List Tok → Tok → R) inputIds) inputIds.tail).length = lossMask.tail.length := by
    simp [same]
  rw [sequenceNll,← neg_maskedSumFlat,maskedSumFlat_const (-1) _ _ length
    (mem_zipWith_const (-1) _ _ (causal_const (-1) inputIds))]
  simp

theorem natCast_sum_map (f : α → Nat) (xs : List α) : ((xs.map f).sum : R) = (xs.map (fun x => (f x : R))).sum := by
  induction xs with
  | nil => simp
  | cons x xs ih => rw [List.map_cons,List.map_cons,List.sum_cons,List.sum_cons,Nat.cast_add,ih]

variable [LinearOrder R] [IsStrictOrderedRing R]

/-- A packed micro-batch of tokenised rows costs what its sequences cost on their own,
for every model, exactly when every row keeps a token of its prompt at its head. -/
theorem sft_loss_exact_iff (cfg : SftDatasetConfig) (plain : cfg.padMode = .noPadding) (rows : List SftRow)
    (samples : List SftSample) (tokenised : rows.mapM (tokenizedSftItem cfg) = .ok samples) (dpSize : Nat)
    (ranks : 0 < dpSize) (batchNumTokens : R) (tokens : batchNumTokens ≠ 0) :
    (∀ model : List Nat → Nat → R,
      sftLoss (packedLogProbs model (samples.map SftSample.inputIds)) (samples.flatMap SftSample.lossMask)
          batchNumTokens dpSize =
        dpSize / batchNumTokens * (samples.map (fun s => sequenceNll model s.inputIds s.lossMask)).sum) ↔
      ∀ row ∈ rows, KeepsPrompt cfg row := by
  obtain ⟨origins,images⟩ := LocalLoop.mapM_made _ rows samples tokenised
  have sized : ∀ s ∈ samples, s.inputIds.length = s.lossMask.length := by
    intro s member
    obtain ⟨row,_,made⟩ := origins s member
    exact item_sized cfg plain row s made
  have joined : (samples.map SftSample.inputIds).flatten.length = (samples.flatMap SftSample.lossMask).length := by
    rw [List.length_flatten,List.map_map,List.length_flatMap]
    exact congrArg List.sum (List.map_congr_left sized)
  have positive : (0 : R) < dpSize := by exact_mod_cast ranks
  constructor
  · intro exact' row member
    by_contra lost
    obtain ⟨s,inside,made⟩ := images row member
    have head := (item_head cfg plain row s made).mpr lost
    have equal := exact' (fun _ _ => -1)
    have dists : ∀ dist ∈ (samples.map SftSample.inputIds).flatMap (causal (fun _ _ => -1 : List Nat → Nat → R)),
        ∀ label, dist label = -1 := by
      intro dist member
      obtain ⟨sequence,_,own⟩ := List.mem_flatMap.mp member
      exact causal_const (-1) sequence dist own
    have packed : (packedLogProbs (fun _ _ => -1 : List Nat → Nat → R)
        (samples.map SftSample.inputIds)).length = (Rolled.roll (samples.flatMap SftSample.lossMask)).length := by
      simp only [packedLogProbs,List.length_zipWith,Rolled.roll_length,← joined,List.length_flatMap,
        List.length_flatten,causal_length,Nat.min_self]
    rw [sftLoss,maskedSumFlat_const (-1) _ _ packed (mem_zipWith_const (-1) _ _ dists),
      (Rolled.roll_perm _).count_eq,mul_neg_one,neg_neg,List.count_flatMap,
      List.map_congr_left (fun s member => sequenceNll_const s.inputIds s.lossMask (sized s member)),
      div_mul_eq_mul_div,div_mul_eq_mul_div,div_left_inj' tokens,mul_comm,
      mul_right_inj' (ne_of_gt positive)] at equal
    have counts : (samples.map (fun s => s.lossMask.tail.count true)).sum <
        (samples.map (fun s => s.lossMask.count true)).sum := by
      refine List.sum_lt_sum _ _ (fun s _ => ?_) ⟨s,inside,?_⟩
      · exact (List.tail_sublist _).count_le true
      · obtain ⟨rest,shape⟩ := List.head?_eq_some_iff.mp head
        rw [shape]
        simp
    have same : (samples.map (fun s => s.lossMask.count true)).sum =
        (samples.map (fun s => s.lossMask.tail.count true)).sum := by
      rw [← natCast_sum_map (fun s => s.lossMask.tail.count true) samples] at equal
      exact Nat.cast_injective equal
    omega
  · intro keeps model
    have unmasked : ∀ s ∈ samples, s.lossMask.head? ≠ some true := by
      intro s member
      obtain ⟨row,inside,made⟩ := origins s member
      exact fun head => (item_head cfg plain row s made).mp head (keeps row inside)
    have masked : (samples.map SftSample.lossMask).flatten.headD false = false := by
      rw [List.headD_eq_head?_getD]
      cases head : (samples.map SftSample.lossMask).flatten.head? with
      | none => rfl
      | some b =>
        obtain ⟨part,member,top⟩ := Rolled.head_flatten _ b head
        obtain ⟨s,inside,rfl⟩ := List.mem_map.mp member
        cases b with
        | false => rfl
        | true => exact absurd top (unmasked s inside)
    have loss := followed_loss model (samples.map (fun s => (s.inputIds,s.lossMask)))
      ((samples.map SftSample.inputIds).flatten.headD 0)
      (List.forall_mem_map.mpr sized) (List.forall_mem_map.mpr unmasked)
    simp only [List.map_map,Function.comp_def] at loss
    have flat : samples.flatMap SftSample.lossMask = (samples.map SftSample.lossMask).flatten := List.flatMap_def
    rw [sftLoss,packedLogProbs,Rolled.roll_flatten _ 0,flat,Rolled.roll_flatten _ false,masked,loss]
    ring

end Packing

/-- A row without a prompt behind one with a prompt. -/
def bareRows : List SftRow := [⟨[1],[2]⟩,⟨[],[5]⟩]

def bareSamples : List SftSample := [⟨[1,2],[0,1],[false,true]⟩,⟨[5],[0],[true]⟩]

/-- Only the other row's token after the first row costs anything. -/
def borrowing (sequence : List Nat) (label : Nat) : ℚ := if sequence = [1,2] ∧ label = 5 then -1 else 0

theorem sft_loss_borrows : bareRows.mapM (tokenizedSftItem {}) = .ok bareSamples ∧
    sftLoss (packedLogProbs borrowing (bareSamples.map SftSample.inputIds)) (bareSamples.flatMap SftSample.lossMask)
      2 1 = 1 / 2 ∧
    1 / 2 * (bareSamples.map (fun s => sequenceNll borrowing s.inputIds s.lossMask)).sum = 0 := by
  decide +kernel

theorem sft_loss_exact_prompted :
    sftLoss (packedLogProbs borrowing [[1,2],[3,5]]) [false,true,false,true] 2 1 = ((1 : Nat) : ℚ) / 2 *
      ([⟨[1,2],[0,1],[false,true]⟩,⟨[3,5],[0,1],[false,true]⟩].map
        (fun s : SftSample => sequenceNll borrowing s.inputIds s.lossMask)).sum :=
  (sft_loss_exact_iff {} rfl [⟨[1],[2]⟩,⟨[3],[5]⟩] [⟨[1,2],[0,1],[false,true]⟩,⟨[3,5],[0,1],[false,true]⟩] rfl 1
    Nat.one_pos (2 : ℚ) two_ne_zero).mpr (by
      intro row member
      rcases List.mem_cons.mp member with rfl | rest
      · exact fun _ => by decide
      · rw [List.mem_singleton.mp rest]
        exact fun _ => by decide) borrowing

end RelayOpd
