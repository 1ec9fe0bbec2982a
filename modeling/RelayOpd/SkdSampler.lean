import RelayOpd.TokenSource
import RelayOpd.RelayRefine

/-! `_skd_topk_rejection_sample`: drafts are accepted while the teacher ranks them
among its top tokens, and a teacher sample replaces the first that it does not. -/
namespace RelayOpd

/-- The entries of a top-k selection are indices of its row. -/
structure SkdKernels (α : Type) extends Kernels α where
  topk_lt : ∀ k row, ∀ t ∈ topk k row, t < row.length

/-- What the call draws at its rejected slots: the ids that `multinomial` picks, and
whether the masked teacher distribution has no mass to pick from. -/
structure SkdDraws (vocabSize : Nat) where
  degenerate : Nat → Bool
  sampled : Nat → Fin vocabSize

section Slots

variable (K : SkdKernels α) (acceptanceTopk : Int) (args : SamplerArgs α)

/-- `min(max(SKD_ACCEPTANCE_TOPK, 1), vocab_size)`. -/
def acceptanceK : Nat := min (max acceptanceTopk 1).toNat args.vocabSize

def skdTeacherArgmax (i : Nat) : Nat :=
  if acceptanceK acceptanceTopk args = 1 then K.argmax (args.targetLogits.getD i [])
  else (K.topk (acceptanceK acceptanceTopk args) (args.targetLogits.getD i [])).headD 0

def acceptMask (i : Nat) : Bool :=
  (if acceptanceK acceptanceTopk args = 1 then
      (K.argmax (args.targetLogits.getD i []) : Int) == args.draft i
    else
      (K.topk (acceptanceK acceptanceTopk args) (args.targetLogits.getD i [])).any
        (fun t => (t : Int) == args.draft i)) && args.validDraft i

def firstRejPos : Nat → Nat :=
  let rejected := Grid.nonzero args.numTokens (fun i =>
    !acceptMask K acceptanceTopk args i && args.layout.validPos i)
  if rejected = [] then fun _ => args.maxSpecLen
  else Grid.scatterAmin rejected.length (fun j => args.layout.reqIds (rejected.getD j 0))
    (fun j => column args (rejected.getD j 0)) (fun _ => args.maxSpecLen)

def emitAccept (i : Nat) : Bool :=
  acceptMask K acceptanceTopk args i &&
    args.layout.posInReq i < firstRejPos K acceptanceTopk args (args.layout.reqIds i) &&
    args.layout.validPos i

def emitReject (i : Nat) : Bool :=
  !acceptMask K acceptanceTopk args i &&
    args.layout.posInReq i == firstRejPos K acceptanceTopk args (args.layout.reqIds i) &&
    args.layout.validPos i

def recovered (draws : SkdDraws args.vocabSize) (i : Nat) : Nat :=
  if draws.degenerate i then skdTeacherArgmax K acceptanceTopk args i else draws.sampled i

def skdTopkRejectionSample (draws : SkdDraws args.vocabSize) : SampleOutput :=
  let blank := Tensors.blank
  if args.numTokens = 0 then
    { output := blank.output, teacherOutput := blank.teacherOutput, recorded := false }
  else
    let n := args.numTokens
    let accept := emitAccept K acceptanceTopk args
    let reject := emitReject K acceptanceTopk args
    let output := if Grid.anyFlat n accept then
      Grid.indexPut n accept args.layout.reqIds (column args) args.draft blank.output else blank.output
    let output := if Grid.anyFlat n reject then
      Grid.indexPut n reject args.layout.reqIds (column args)
        (fun i => (recovered K acceptanceTopk args draws i : Int)) output else output
    let teacherOutput := if Grid.anyFlat n reject then
      Grid.indexPut n reject args.layout.reqIds (column args) (fun _ => true) blank.teacherOutput
      else blank.teacherOutput
    { output := output, teacherOutput := teacherOutput, recorded := true }

end Slots

section Row

variable (K : SkdKernels α) (acceptanceTopk : Int) (args : SamplerArgs α) (bi : Nat)

/-- The first draft of a request that the teacher rejects. -/
def firstRejected : Option Nat :=
  (List.range (args.numDrafts bi)).find? (fun c => !acceptMask K acceptanceTopk args (args.start bi + c))

/-- The scattered minimum bounds exactly the request's own rejections. -/
theorem le_firstRejPos (bound : Nat) :
    bound ≤ firstRejPos K acceptanceTopk args bi ↔
      bound ≤ args.maxSpecLen ∧ ∀ c, c < args.numDrafts bi →
        acceptMask K acceptanceTopk args (args.start bi + c) = false → bound ≤ c := by
  have own : ∀ c, c < args.numDrafts bi →
      acceptMask K acceptanceTopk args (args.start bi + c) = false →
      args.start bi + c ∈ Grid.nonzero args.numTokens (fun i =>
        !acceptMask K acceptanceTopk args i && args.layout.validPos i) := by
    intro c inside rejects
    rw [Grid.mem_nonzero,layout_validPos args bi c inside,rejects]
    exact ⟨slot_numTokens args bi c inside,rfl⟩
  have slots : ∀ i ∈ Grid.nonzero args.numTokens (fun i =>
      !acceptMask K acceptanceTopk args i && args.layout.validPos i),
      i < args.numDraftTokens.sum ∧ acceptMask K acceptanceTopk args i = false := by
    intro i member
    simp only [Grid.mem_nonzero,args.numTokens_eq,Bool.and_eq_true,Bool.not_eq_true'] at member
    exact ⟨member.1,member.2.1⟩
  unfold firstRejPos
  generalize Grid.nonzero args.numTokens (fun i =>
    !acceptMask K acceptanceTopk args i && args.layout.validPos i) = rejected at own slots
  by_cases none : rejected = []
  · simp only [if_pos none,iff_self_and]
    intro _ c inside rejects
    have member := own c inside rejects
    simp [none] at member
  · rw [if_neg none,Grid.le_scatterAmin]
    apply and_congr_right
    intro _
    constructor
    · intro least c inside rejects
      obtain ⟨j,bound,here⟩ := List.getElem_of_mem (own c inside rejects)
      have le := least j bound (by simp [List.getD_eq_getElem?_getD,bound,here,layout_reqIds args bi c inside])
      simpa [List.getD_eq_getElem?_getD,bound,here,column_slot args bi c inside] using le
    · intro least j bound owner
      have member := slots _ (List.getElem_mem bound)
      simp only [List.getD_eq_getElem?_getD,List.getElem?_eq_getElem bound,Option.getD_some] at owner ⊢
      generalize rejected[j] = i at member owner ⊢
      obtain ⟨inBatch,rejects⟩ := member
      obtain ⟨r,c,inside,rfl⟩ := Ragged.slot_exists _ _ inBatch
      obtain rfl : r = bi := (layout_reqIds args r c inside).symm.trans owner
      have place := column_slot args r c inside
      rw [SamplerArgs.start] at place
      rw [place]
      exact least c inside rejects

theorem firstRejected_eq_some (c : Nat) :
    firstRejected K acceptanceTopk args bi = some c ↔
      c < args.numDrafts bi ∧ acceptMask K acceptanceTopk args (args.start bi + c) = false ∧
        ∀ d, d < c → acceptMask K acceptanceTopk args (args.start bi + d) = true := by
  rw [firstRejected,List.find?_range_eq_some]
  simp [and_left_comm]

variable (c : Nat) (inside : c < args.numDrafts bi)

include inside

theorem emitAccept_slot :
    emitAccept K acceptanceTopk args (args.start bi + c) = true ↔
      ∀ d, d ≤ c → acceptMask K acceptanceTopk args (args.start bi + d) = true := by
  have bounded := args.numDrafts_le bi
  have least := le_firstRejPos K acceptanceTopk args bi (c+1)
  have before : ((c : Int) < firstRejPos K acceptanceTopk args bi) ↔
      c + 1 ≤ firstRejPos K acceptanceTopk args bi := by omega
  simp only [emitAccept,layout_reqIds args bi c inside,layout_posInReq args bi c inside,
    layout_validPos args bi c inside,Bool.and_true,Bool.and_eq_true,decide_eq_true_eq,before,least]
  constructor
  · rintro ⟨accepts,_,earlier⟩ d upto
    by_contra rejects
    have := earlier d (by omega) (by simpa using rejects)
    obtain rfl : d = c := by omega
    exact rejects accepts
  · intro all
    refine ⟨all c (Nat.le_refl c),by omega,fun d _ rejects => ?_⟩
    by_contra early
    rw [all d (by omega)] at rejects
    contradiction

theorem emitReject_slot :
    emitReject K acceptanceTopk args (args.start bi + c) = true ↔
      firstRejected K acceptanceTopk args bi = some c := by
  have bounded := args.numDrafts_le bi
  have least := le_firstRejPos K acceptanceTopk args bi c
  have beyond := le_firstRejPos K acceptanceTopk args bi (c+1)
  rw [firstRejected_eq_some]
  simp only [emitReject,layout_reqIds args bi c inside,layout_posInReq args bi c inside,
    layout_validPos args bi c inside,Bool.and_true,Bool.and_eq_true,Bool.not_eq_true',beq_iff_eq,
    Int.natCast_inj]
  constructor
  · rintro ⟨rejects,here⟩
    refine ⟨inside,rejects,fun d early => ?_⟩
    by_contra refuses
    have := (least.mp (by omega)).2 d (by omega) (by simpa using refuses)
    omega
  · rintro ⟨_,rejects,accepts⟩
    have reaches : c ≤ firstRejPos K acceptanceTopk args bi := by
      refine least.mpr ⟨by omega,fun d _ refuses => ?_⟩
      by_contra early
      rw [accepts d (by omega)] at refuses
      contradiction
    have stops : ¬ c + 1 ≤ firstRejPos K acceptanceTopk args bi := by
      intro further
      have := (beyond.mp further).2 c inside rejects
      omega
    exact ⟨rejects,by omega⟩

end Row

section Spec

variable (K : SkdKernels α) (acceptanceTopk : Int) (args : SamplerArgs α)
  (draws : SkdDraws args.vocabSize) (bi c : Nat)

theorem no_slots (empty : args.numTokens = 0) : ¬ c < args.numDrafts bi := by
  intro inside
  have := slot_numTokens args bi c inside
  omega

/-- A row holds the drafts before the first rejected one, and the teacher's token in
its place. -/
theorem skd_output :
    (skdTopkRejectionSample K acceptanceTopk args draws).output bi c =
      if firstRejected K acceptanceTopk args bi = some c
      then (recovered K acceptanceTopk args draws (args.start bi + c) : Int)
      else if c < args.numDrafts bi ∧
          ∀ d, d ≤ c → acceptMask K acceptanceTopk args (args.start bi + d) = true
      then args.draft (args.start bi + c) else placeholderTokenId := by
  have drafted := firstRejected_eq_some K acceptanceTopk args bi c
  by_cases empty : args.numTokens = 0
  · have outside := no_slots args bi c empty
    have never : firstRejected K acceptanceTopk args bi ≠ some c :=
      fun found => outside (drafted.mp found).1
    rw [skdTopkRejectionSample,if_pos empty,if_neg never,if_neg (fun both => outside both.1)]
    rfl
  · rw [skdTopkRejectionSample,if_neg empty]
    simp only [Grid.indexPut_guarded,put_slot]
    by_cases inside : c < args.numDrafts bi
    · simp only [inside,true_and,emitAccept_slot K acceptanceTopk args bi c inside,
        emitReject_slot K acceptanceTopk args bi c inside]
      rfl
    · simp [inside,drafted,Tensors.blank]

theorem skd_teacherOutput :
    (skdTopkRejectionSample K acceptanceTopk args draws).teacherOutput bi c =
      (firstRejected K acceptanceTopk args bi == some c) := by
  have drafted := firstRejected_eq_some K acceptanceTopk args bi c
  by_cases empty : args.numTokens = 0
  · have outside := no_slots args bi c empty
    have never : firstRejected K acceptanceTopk args bi ≠ some c :=
      fun found => outside (drafted.mp found).1
    rw [skdTopkRejectionSample,if_pos empty,beq_eq_false_iff_ne.mpr never]
    rfl
  · rw [skdTopkRejectionSample,if_neg empty]
    simp only [Grid.indexPut_guarded,put_slot]
    by_cases inside : c < args.numDrafts bi
    · rw [Bool.eq_iff_iff]
      simp [inside,emitReject_slot K acceptanceTopk args bi c inside,Tensors.blank]
    · simp [inside,drafted,Tensors.blank]

theorem skdTeacherArgmax_lt (i : Nat) (bound : i < args.numTokens) :
    skdTeacherArgmax K acceptanceTopk args i < args.vocabSize := by
  have width : (args.targetLogits.getD i []).length = args.vocabSize := by
    rw [List.getD_eq_getElem?_getD,List.getElem?_eq_getElem bound]
    exact args.logits_width _ (List.getElem_mem bound)
  have positive := args.vocab_positive
  unfold skdTeacherArgmax
  split
  · have filled : args.targetLogits.getD i [] ≠ [] := List.ne_nil_of_length_pos (by omega)
    exact width ▸ K.argmax_lt _ filled
  · cases top : K.topk (acceptanceK acceptanceTopk args) (args.targetLogits.getD i []) with
    | nil => exact positive
    | cons t rest =>
      have member : t ∈ K.topk (acceptanceK acceptanceTopk args) (args.targetLogits.getD i []) := by
        rw [top]
        exact List.mem_cons_self
      exact width ▸ K.topk_lt _ _ t member

/-- Every entry of the output is an id of the vocabulary or the placeholder. -/
theorem skd_output_lt :
    (skdTopkRejectionSample K acceptanceTopk args draws).output bi c < args.vocabSize := by
  rw [skd_output]
  split_ifs with rejects accepts
  · have inside := ((firstRejected_eq_some K acceptanceTopk args bi c).mp rejects).1
    have bound := skdTeacherArgmax_lt K acceptanceTopk args _ (slot_numTokens args bi c inside)
    have drawn := (draws.sampled (args.start bi + c)).isLt
    unfold recovered
    split <;> omega
  · have accepted := accepts.2 c (Nat.le_refl c)
    simp only [acceptMask,SamplerArgs.validDraft,Bool.and_eq_true,decide_eq_true_eq] at accepted
    exact accepted.2.2
  · simp only [placeholderTokenId]
    omega

end Spec

end RelayOpd
