import Mathlib.Algebra.BigOperators.Fin
import Mathlib.Data.Fin.Tuple.Basic

/-! The training fields of relay rollouts: per-sample lists of the numpy side of a batch
become tensors of its tensor side. A field of either side is `none` when its key is absent. -/
namespace RelayOpd

/-- A training batch of `B` rows with prompts of width `P` and responses of width `R`.
`rest` stands for the fields that no step here reads. -/
structure TrainBatch (B P R : Nat) (ρ ℓ : Type) where
  responses : Fin B → Fin R → Int
  responseMask : Fin B → Fin R → Int
  inputIds : Fin B → Fin (P + R) → Int
  joined : ∀ i c, inputIds i (Fin.natAdd P c) = responses i c
  rest : Fin B → ρ
  teacherMask : Option (Fin B → Fin R → Bool)
  pgActionInputIds : Option (Fin B → Fin (P + R) → Int)
  studentActionIds : Option (Fin B → Fin R → Int)
  studentActionMask : Option (Fin B → Fin R → Bool)
  studentActionTeacherLogprobs : Option (Fin B → Fin R → ℓ)
  listTeacherMask : Option (Fin B → Option (List Bool))
  listStudentActionIds : Option (Fin B → Option (List Int))
  listStudentActionTeacherLogprobs : Option (Fin B → Option (List ℓ))
  listStudentActionMask : Option (Fin B → Option (List Bool))

namespace TrainBatch

variable {B P R : Nat} {ρ ℓ : Type}

/-- `batch.reorder`: every field of both sides is permuted alike. -/
def reorder (σ : Equiv.Perm (Fin B)) (b : TrainBatch B P R ρ ℓ) : TrainBatch B P R ρ ℓ where
  responses := b.responses ∘ σ
  responseMask := b.responseMask ∘ σ
  inputIds := b.inputIds ∘ σ
  joined := fun i => b.joined (σ i)
  rest := b.rest ∘ σ
  teacherMask := b.teacherMask.map (· ∘ σ)
  pgActionInputIds := b.pgActionInputIds.map (· ∘ σ)
  studentActionIds := b.studentActionIds.map (· ∘ σ)
  studentActionMask := b.studentActionMask.map (· ∘ σ)
  studentActionTeacherLogprobs := b.studentActionTeacherLogprobs.map (· ∘ σ)
  listTeacherMask := b.listTeacherMask.map (· ∘ σ)
  listStudentActionIds := b.listStudentActionIds.map (· ∘ σ)
  listStudentActionTeacherLogprobs := b.listStudentActionTeacherLogprobs.map (· ∘ σ)
  listStudentActionMask := b.listStudentActionMask.map (· ∘ σ)

/-- `response_mask.bool()`. -/
def responseBool (b : TrainBatch B P R ρ ℓ) (i : Fin B) (c : Fin R) : Bool := b.responseMask i c ≠ 0

/-- The rows of a mask list, cut or filled up to the response width, inside the response. -/
def teacherMaskRow (b : TrainBatch B P R ρ ℓ) (masks : Fin B → Option (List Bool)) (i : Fin B) (c : Fin R) :
    Bool :=
  (match masks i with
  | none => false
  | some m => if c < min m.length R then m.getD c false else false) && b.responseBool i c

def nonNone (masks : Fin B → Option (List Bool)) : Nat := ∑ i, (masks i).isSome.toNat

/-- `_attach_relay_teacher_mask`; `speculative` is `VERL_OPD_SPECULATIVE_ENABLE=1`. -/
def attachTeacherMask (speculative : Bool) (b : TrainBatch B P R ρ ℓ) :
    Except String Unit × TrainBatch B P R ρ ℓ :=
  if b.teacherMask.isSome then (.ok (),b)
  else match b.listTeacherMask with
  | none =>
    if speculative then
      (.error "relay_teacher_mask missing from non_tensor_batch while VERL_OPD_SPECULATIVE_ENABLE=1. Rollout server did not export mask.",b)
    else (.ok (),b)
  | some masks =>
    if nonNone masks < B then
      (.error s!"relay_teacher_mask: only {nonNone masks}/{B} samples have an absolute-position mask.",b)
    else (.ok (),{ b with teacherMask := some (b.teacherMaskRow masks), listTeacherMask := none })

/-- The three lists of a row cut to their common length, where all are present. -/
def actionRow (actions : Option (List Int)) (logps : Option (List ℓ)) (mask : Option (List Bool)) (R : Nat) :
    List Int × List ℓ × List Bool :=
  match actions,logps,mask with
  | some actions,some logps,some mask =>
    let n := min (min (min actions.length logps.length) mask.length) R
    (actions.take n,logps.take n,mask.take n)
  | _,_,_ => ([],[],[])

/-- `row_mask_tensor`, false past the lists. -/
def actionMaskRow (b : TrainBatch B P R ρ ℓ) (rows : Fin B → List Int × List ℓ × List Bool) (i : Fin B)
    (c : Fin R) : Bool := (rows i).2.2.getD c false && b.responseBool i c

/-- `torch.where(mask, value, old)`, left alone when nothing is set. -/
def whereRow {α : Type} (mask : Fin R → Bool) (value old : Fin R → α) : Fin R → α :=
  if ∃ c, mask c = true then fun c => if mask c then value c else old c else old

def actionMask (b : TrainBatch B P R ρ ℓ) (rows : Fin B → List Int × List ℓ × List Bool) (i : Fin B) :
    Fin R → Bool :=
  whereRow (b.actionMaskRow rows i) (b.actionMaskRow rows i) (fun _ => false)

def actionIds (b : TrainBatch B P R ρ ℓ) (rows : Fin B → List Int × List ℓ × List Bool) (i : Fin B) :
    Fin R → Int :=
  whereRow (b.actionMaskRow rows i) (fun c => (rows i).1.getD c 0) (b.responses i)

def actionTeacherLogps [Zero ℓ] (b : TrainBatch B P R ρ ℓ) (rows : Fin B → List Int × List ℓ × List Bool)
    (i : Fin B) : Fin R → ℓ :=
  whereRow (b.actionMaskRow rows i) (fun c => (rows i).2.1.getD c 0) (fun _ => 0)

/-- The tensors are stored only when some action is set; otherwise the lists stay. -/
def storeActions [Zero ℓ] (b : TrainBatch B P R ρ ℓ) (rows : Fin B → List Int × List ℓ × List Bool) :
    TrainBatch B P R ρ ℓ :=
  if ∃ i c, b.actionMask rows i c = true then
    { b with
      pgActionInputIds := some (fun i =>
        Fin.append (fun p => b.inputIds i (Fin.castAdd R p)) (b.actionIds rows i))
      studentActionIds := some (b.actionIds rows)
      studentActionMask := some (b.actionMask rows)
      studentActionTeacherLogprobs := some (b.actionTeacherLogps rows)
      listStudentActionIds := none
      listStudentActionMask := none
      listStudentActionTeacherLogprobs := none }
  else b

/-- The rows of the three lists, when all three keys are present. -/
def actionRows (b : TrainBatch B P R ρ ℓ) : Option (Fin B → List Int × List ℓ × List Bool) :=
  match b.listStudentActionIds,b.listStudentActionTeacherLogprobs,b.listStudentActionMask with
  | some actions,some actionLogps,some actionMasks =>
    some (fun i => actionRow (actions i) (actionLogps i) (actionMasks i) R)
  | _,_,_ => none

/-- `_attach_relay_student_action_fields`. -/
def attachStudentActions [Zero ℓ] (b : TrainBatch B P R ρ ℓ) : TrainBatch B P R ρ ℓ :=
  if b.pgActionInputIds.isSome then b
  else match b.actionRows with
  | some rows => b.storeActions rows
  | none => b

/-- `_attach_relay_training_fields`. -/
def attachRelayTrainingFields [Zero ℓ] (speculative : Bool) (b : TrainBatch B P R ρ ℓ) :
    Except String Unit × TrainBatch B P R ρ ℓ :=
  match attachTeacherMask speculative b with
  | (.error e,b) => (.error e,b)
  | (.ok (),b) => (.ok (),attachStudentActions b)

@[simp] theorem whereRow_apply {α : Type} (mask : Fin R → Bool) (value old : Fin R → α) (c : Fin R) :
    whereRow mask value old c = if mask c then value c else old c := by
  unfold whereRow
  split
  · rfl
  · rename_i none
    rw [if_neg (fun set_ => none ⟨c,set_⟩)]

theorem nonNone_perm (masks : Fin B → Option (List Bool)) (σ : Equiv.Perm (Fin B)) :
    nonNone (masks ∘ σ) = nonNone masks :=
  Equiv.sum_comp σ (fun i => (masks i).isSome.toNat)

/-- Attaching the teacher mask commutes with a permutation of the rows, errors included. -/
theorem attachTeacherMask_reorder (speculative : Bool) (b : TrainBatch B P R ρ ℓ) (σ : Equiv.Perm (Fin B)) :
    attachTeacherMask speculative (b.reorder σ) =
      ((attachTeacherMask speculative b).1,(attachTeacherMask speculative b).2.reorder σ) := by
  unfold attachTeacherMask
  cases tensor : b.teacherMask with
  | some mask => simp [reorder,tensor]
  | none =>
    cases lists : b.listTeacherMask with
    | none => cases speculative <;> simp [reorder,tensor,lists]
    | some masks =>
      by_cases few : nonNone masks < B
      · simp [reorder,tensor,lists,nonNone_perm,few]
      · simp only [reorder,tensor,lists,nonNone_perm,few,Option.map_none,Option.map_some,Option.isSome_none,
          Bool.false_eq_true,if_false]
        rfl

theorem actionMask_reorder (b : TrainBatch B P R ρ ℓ) (rows : Fin B → List Int × List ℓ × List Bool)
    (σ : Equiv.Perm (Fin B)) :
    (∃ i c, (b.reorder σ).actionMask (rows ∘ σ) i c = true) ↔ ∃ i c, b.actionMask rows i c = true := by
  constructor
  · rintro ⟨i,set_⟩
    exact ⟨σ i,set_⟩
  · rintro ⟨i,c,set_⟩
    rw [← σ.apply_symm_apply i] at set_
    exact ⟨σ.symm i,c,set_⟩

theorem storeActions_reorder [Zero ℓ] (b : TrainBatch B P R ρ ℓ)
    (rows : Fin B → List Int × List ℓ × List Bool) (σ : Equiv.Perm (Fin B)) :
    (b.reorder σ).storeActions (rows ∘ σ) = (b.storeActions rows).reorder σ := by
  unfold storeActions
  by_cases any : ∃ i c, b.actionMask rows i c = true
  · rw [if_pos any,if_pos ((b.actionMask_reorder rows σ).mpr any)]
    rfl
  · rw [if_neg any,if_neg (fun set_ => any ((b.actionMask_reorder rows σ).mp set_))]

theorem actionRows_reorder (b : TrainBatch B P R ρ ℓ) (σ : Equiv.Perm (Fin B)) :
    (b.reorder σ).actionRows = b.actionRows.map (· ∘ σ) := by
  unfold actionRows reorder
  cases b.listStudentActionIds with
  | none => rfl
  | some actions =>
    cases b.listStudentActionTeacherLogprobs with
    | none => rfl
    | some logps =>
      cases b.listStudentActionMask with
      | none => rfl
      | some masks => rfl

theorem attachStudentActions_reorder [Zero ℓ] (b : TrainBatch B P R ρ ℓ) (σ : Equiv.Perm (Fin B)) :
    attachStudentActions (b.reorder σ) = (attachStudentActions b).reorder σ := by
  have present : (b.reorder σ).pgActionInputIds.isSome = b.pgActionInputIds.isSome := Option.isSome_map
  rw [attachStudentActions,attachStudentActions,present,actionRows_reorder]
  split
  · rfl
  · cases b.actionRows with
    | none => rfl
    | some rows => exact storeActions_reorder b rows σ

theorem attachRelayTrainingFields_reorder [Zero ℓ] (speculative : Bool) (b : TrainBatch B P R ρ ℓ)
    (σ : Equiv.Perm (Fin B)) :
    attachRelayTrainingFields speculative (b.reorder σ) =
      ((attachRelayTrainingFields speculative b).1,(attachRelayTrainingFields speculative b).2.reorder σ) := by
  unfold attachRelayTrainingFields
  rw [attachTeacherMask_reorder]
  obtain ⟨outcome,attached⟩ := attachTeacherMask speculative b
  cases outcome with
  | error e => rfl
  | ok =>
    simp only [attachStudentActions_reorder]

/-- What an attachment of the teacher mask does. -/
theorem attachTeacherMask_cases (speculative : Bool) (b : TrainBatch B P R ρ ℓ) :
    (∃ e, attachTeacherMask speculative b = (.error e,b)) ∨
    (attachTeacherMask speculative b = (.ok (),b) ∧
      (b.teacherMask.isSome = true ∨ b.listTeacherMask = none ∧ speculative = false)) ∨
    (∃ masks, b.teacherMask = none ∧ b.listTeacherMask = some masks ∧
      attachTeacherMask speculative b =
        (.ok (),{ b with teacherMask := some (b.teacherMaskRow masks), listTeacherMask := none })) := by
  unfold attachTeacherMask
  cases tensor : b.teacherMask with
  | some mask => exact .inr (.inl ⟨by simp,.inl rfl⟩)
  | none =>
    cases lists : b.listTeacherMask with
    | none =>
      cases speculative with
      | true => exact .inl ⟨_,by simp; rfl⟩
      | false => exact .inr (.inl ⟨by simp,.inr ⟨rfl,rfl⟩⟩)
    | some masks =>
      by_cases few : nonNone masks < B
      · exact .inl ⟨_,by simp only [Option.isSome_none,Bool.false_eq_true,if_false,if_pos few]; rfl⟩
      · exact .inr (.inr ⟨masks,rfl,rfl,by simp [few]⟩)

@[simp] theorem actionMask_apply (b : TrainBatch B P R ρ ℓ) (rows : Fin B → List Int × List ℓ × List Bool)
    (i : Fin B) (c : Fin R) : b.actionMask rows i c = b.actionMaskRow rows i c := by
  simp [actionMask]

/-- No student action is left to store. -/
def Stored (b : TrainBatch B P R ρ ℓ) : Prop :=
  b.pgActionInputIds.isSome = true ∨
    ∀ rows, b.actionRows = some rows → ∀ i c, b.actionMask rows i c = false

theorem attachStudentActions_stored [Zero ℓ] (b : TrainBatch B P R ρ ℓ) (stored : b.Stored) :
    attachStudentActions b = b := by
  unfold attachStudentActions
  split
  · rfl
  · rename_i absent
    cases given : b.actionRows with
    | none => rfl
    | some rows =>
      have unset := stored.resolve_left absent rows given
      exact if_neg (fun ⟨i,c,set_⟩ => Bool.false_ne_true ((unset i c).symm.trans set_))

/-- What an attachment of the student actions does. -/
theorem attachStudentActions_cases [Zero ℓ] (b : TrainBatch B P R ρ ℓ) :
    b.Stored ∧ attachStudentActions b = b ∨
    ∃ rows, b.pgActionInputIds = none ∧ b.actionRows = some rows ∧
      attachStudentActions b = { b with
        pgActionInputIds := some (fun i =>
          Fin.append (fun p => b.inputIds i (Fin.castAdd R p)) (b.actionIds rows i))
        studentActionIds := some (b.actionIds rows)
        studentActionMask := some (b.actionMask rows)
        studentActionTeacherLogprobs := some (b.actionTeacherLogps rows)
        listStudentActionIds := none
        listStudentActionMask := none
        listStudentActionTeacherLogprobs := none } := by
  by_cases present : b.pgActionInputIds.isSome = true
  · exact .inl ⟨.inl present,attachStudentActions_stored b (.inl present)⟩
  · have absent := Option.not_isSome_iff_eq_none.mp present
    cases given : b.actionRows with
    | none =>
      have stored : b.Stored := .inr (fun rows same => by rw [given] at same; cases same)
      exact .inl ⟨stored,attachStudentActions_stored b stored⟩
    | some rows =>
      by_cases any : ∃ i c, b.actionMask rows i c = true
      · refine .inr ⟨rows,absent,rfl,?_⟩
        rw [attachStudentActions,if_neg present,given]
        exact if_pos any
      · have stored : b.Stored := by
          refine .inr (fun other same i c => ?_)
          obtain rfl := Option.some.inj (given.symm.trans same)
          exact Bool.eq_false_iff.mpr (fun set_ => any ⟨i,c,set_⟩)
        exact .inl ⟨stored,attachStudentActions_stored b stored⟩

/-- Nothing is left to attach, and nothing to complain about. -/
structure Attached (speculative : Bool) (b : TrainBatch B P R ρ ℓ) : Prop where
  teacher : b.teacherMask.isSome = true ∨ b.listTeacherMask = none ∧ speculative = false
  student : b.Stored

theorem attach_attached [Zero ℓ] (speculative : Bool) (b : TrainBatch B P R ρ ℓ)
    (attached : b.Attached speculative) : attachRelayTrainingFields speculative b = (.ok (),b) := by
  have teacher : attachTeacherMask speculative b = (.ok (),b) := by
    rw [attachTeacherMask]
    split
    · rfl
    · rename_i absent
      obtain ⟨missing,off⟩ := attached.teacher.resolve_left absent
      rw [missing,off]
      rfl
  rw [attachRelayTrainingFields,teacher]
  simp only [attachStudentActions_stored b attached.student]

theorem attached_of_ok [Zero ℓ] (speculative : Bool) (b : TrainBatch B P R ρ ℓ)
    (ok : (attachRelayTrainingFields speculative b).1 = .ok ()) :
    (attachRelayTrainingFields speculative b).2.Attached speculative := by
  have students : ∀ c : TrainBatch B P R ρ ℓ,
      (c.teacherMask.isSome = true ∨ c.listTeacherMask = none ∧ speculative = false) →
      (attachStudentActions c).Attached speculative := by
    intro c teacher
    rcases attachStudentActions_cases c with ⟨stored,same⟩ | ⟨rows,_,_,same⟩
    · rw [same]
      exact ⟨teacher,stored⟩
    · rw [same]
      exact ⟨teacher,.inl rfl⟩
  unfold attachRelayTrainingFields at ok ⊢
  rcases attachTeacherMask_cases speculative b with ⟨e,failed⟩ | ⟨same,teacher⟩ | ⟨masks,_,_,same⟩
  · rw [failed] at ok
    cases ok
  · rw [same]
    exact students b teacher
  · rw [same]
    exact students _ (.inl rfl)

/-- A later state of an attached batch: rows may have moved, response positions may have
been masked out, and fields that the attachment does not look at may have changed. -/
structure Later (b later : TrainBatch B P R ρ ℓ) (σ : Equiv.Perm (Fin B)) : Prop where
  masked : ∀ i c, later.responseMask i c ≠ 0 → b.responseMask (σ i) c ≠ 0
  teacher : later.teacherMask.isSome = b.teacherMask.isSome
  pg : later.pgActionInputIds.isSome = b.pgActionInputIds.isSome
  lists : later.listTeacherMask.isSome = b.listTeacherMask.isSome
  actions : later.listStudentActionIds = b.listStudentActionIds.map (· ∘ σ)
  logps : later.listStudentActionTeacherLogprobs = b.listStudentActionTeacherLogprobs.map (· ∘ σ)
  masks : later.listStudentActionMask = b.listStudentActionMask.map (· ∘ σ)

theorem Later.attached {speculative : Bool} {b later : TrainBatch B P R ρ ℓ} {σ : Equiv.Perm (Fin B)}
    (moved : Later b later σ) (attached : b.Attached speculative) : later.Attached speculative := by
  refine ⟨?_,?_⟩
  · rcases attached.teacher with present | ⟨missing,off⟩
    · exact .inl (moved.teacher.trans present)
    · refine .inr ⟨?_,off⟩
      have same := moved.lists
      rw [missing] at same
      exact Option.isSome_eq_false_iff.mp same |> Option.isNone_iff_eq_none.mp
  · rcases attached.student with present | unset
    · exact .inl (moved.pg.trans present)
    · right
      intro rows given i c
      have rowsMoved : later.actionRows = b.actionRows.map (· ∘ σ) := by
        rw [← actionRows_reorder]
        simp only [actionRows,reorder,moved.actions,moved.logps,moved.masks]
      rw [given] at rowsMoved
      obtain ⟨before,found,rfl⟩ := Option.map_eq_some_iff.mp rowsMoved.symm
      have none := unset before found (σ i) c
      rw [actionMask_apply] at none ⊢
      refine Bool.eq_false_iff.mpr (fun set_ => ?_)
      simp only [actionMaskRow,responseBool,Bool.and_eq_true,decide_eq_true_eq] at set_
      have outside : b.actionMaskRow before (σ i) c = true := by
        simp only [actionMaskRow,responseBool,Bool.and_eq_true,decide_eq_true_eq]
        exact ⟨set_.1,moved.masked i c set_.2⟩
      rw [none] at outside
      cases outside

theorem later_reorder (b : TrainBatch B P R ρ ℓ) (σ : Equiv.Perm (Fin B)) : Later b (b.reorder σ) σ where
  masked := fun _ _ => id
  teacher := Option.isSome_map
  pg := Option.isSome_map
  lists := Option.isSome_map
  actions := rfl
  logps := rfl
  masks := rfl

/-- The teacher mask stays inside the response. -/
theorem attachTeacherMask_inside (speculative : Bool) (b : TrainBatch B P R ρ ℓ) (absent : b.teacherMask = none)
    (mask : Fin B → Fin R → Bool) (attached : (attachTeacherMask speculative b).2.teacherMask = some mask)
    (i : Fin B) (c : Fin R) (set_ : mask i c = true) : b.responseMask i c ≠ 0 := by
  rcases attachTeacherMask_cases speculative b with ⟨e,same⟩ | ⟨same,_⟩ | ⟨masks,_,_,same⟩
  · rw [same,absent] at attached
    cases attached
  · rw [same,absent] at attached
    cases attached
  · rw [same] at attached
    obtain rfl := Option.some.inj attached
    simp only [teacherMaskRow,responseBool,Bool.and_eq_true,decide_eq_true_eq] at set_
    exact set_.2

theorem attachStudentActions_teacherMask [Zero ℓ] (b : TrainBatch B P R ρ ℓ) :
    (attachStudentActions b).teacherMask = b.teacherMask := by
  rcases attachStudentActions_cases b with ⟨_,same⟩ | ⟨rows,_,_,same⟩ <;> rw [same]

theorem attachTeacherMask_frame (speculative : Bool) (b : TrainBatch B P R ρ ℓ) :
    (attachTeacherMask speculative b).2.pgActionInputIds = b.pgActionInputIds ∧
    (attachTeacherMask speculative b).2.inputIds = b.inputIds := by
  rcases attachTeacherMask_cases speculative b with ⟨e,same⟩ | ⟨same,_⟩ | ⟨masks,_,_,same⟩ <;>
    rw [same] <;> exact ⟨rfl,rfl⟩

/-- The action ids are the input ids wherever no action is set. -/
theorem attachStudentActions_frame [Zero ℓ] (b : TrainBatch B P R ρ ℓ) (absent : b.pgActionInputIds = none)
    (ids : Fin B → Fin (P + R) → Int) (attached : (attachStudentActions b).pgActionInputIds = some ids) :
    ∃ mask, (attachStudentActions b).studentActionMask = some mask ∧
      (∀ i p, ids i (Fin.castAdd R p) = b.inputIds i (Fin.castAdd R p)) ∧
      ∀ i c, mask i c = false → ids i (Fin.natAdd P c) = b.inputIds i (Fin.natAdd P c) := by
  rcases attachStudentActions_cases b with ⟨_,same⟩ | ⟨rows,_,_,same⟩
  · rw [same,absent] at attached
    cases attached
  · rw [same] at attached ⊢
    obtain rfl := Option.some.inj attached
    refine ⟨_,rfl,fun i p => Fin.append_left _ _ p,fun i c unset => ?_⟩
    rw [actionMask_apply] at unset
    refine (Fin.append_right _ _ c).trans ?_
    rw [actionIds,whereRow_apply,unset,b.joined]
    rfl

end TrainBatch

/-- Attaching the fields commutes with permuting the rows, changes nothing the second time
at whatever later point, sets masks only inside the response and action ids only where the
action mask is set, and leaves the batch alone when it raises. -/
theorem relay_fields_contract {B P R : Nat} {ρ ℓ : Type} [Zero ℓ] (speculative : Bool)
    (b : TrainBatch B P R ρ ℓ) :
    (∀ σ, TrainBatch.attachRelayTrainingFields speculative (b.reorder σ) =
      ((TrainBatch.attachRelayTrainingFields speculative b).1,
        (TrainBatch.attachRelayTrainingFields speculative b).2.reorder σ)) ∧
    ((TrainBatch.attachRelayTrainingFields speculative b).1 = .ok () → ∀ later σ,
      TrainBatch.Later (TrainBatch.attachRelayTrainingFields speculative b).2 later σ →
      TrainBatch.attachRelayTrainingFields speculative later = (.ok (),later)) ∧
    (b.teacherMask = none → ∀ mask,
      (TrainBatch.attachRelayTrainingFields speculative b).2.teacherMask = some mask →
      ∀ i c, mask i c = true → b.responseMask i c ≠ 0) ∧
    (b.pgActionInputIds = none → ∀ ids,
      (TrainBatch.attachRelayTrainingFields speculative b).2.pgActionInputIds = some ids →
      ∃ mask, (TrainBatch.attachRelayTrainingFields speculative b).2.studentActionMask = some mask ∧
        (∀ i p, ids i (Fin.castAdd R p) = b.inputIds i (Fin.castAdd R p)) ∧
        ∀ i c, mask i c = false → ids i (Fin.natAdd P c) = b.inputIds i (Fin.natAdd P c)) ∧
    (∀ e, (TrainBatch.attachRelayTrainingFields speculative b).1 = .error e →
      (TrainBatch.attachRelayTrainingFields speculative b).2 = b) := by
  refine ⟨b.attachRelayTrainingFields_reorder speculative,?_,?_,?_,?_⟩
  · intro ok later σ moved
    exact later.attach_attached speculative (moved.attached (b.attached_of_ok speculative ok))
  · intro absent mask attached
    refine TrainBatch.attachTeacherMask_inside speculative b absent mask ?_
    rw [← attached,TrainBatch.attachRelayTrainingFields]
    obtain ⟨outcome,c⟩ := TrainBatch.attachTeacherMask speculative b
    cases outcome with
    | error e => rfl
    | ok => exact (c.attachStudentActions_teacherMask).symm
  · intro absent ids attached
    rw [TrainBatch.attachRelayTrainingFields] at attached ⊢
    have first := b.attachTeacherMask_frame speculative
    generalize TrainBatch.attachTeacherMask speculative b = step at attached first ⊢
    obtain ⟨outcome,c⟩ := step
    cases outcome with
    | error e =>
      rw [first.1.trans absent] at attached
      cases attached
    | ok =>
      rw [← first.2]
      exact c.attachStudentActions_frame (first.1.trans absent) ids attached
  · intro e raised
    rw [TrainBatch.attachRelayTrainingFields] at raised ⊢
    rcases b.attachTeacherMask_cases speculative with ⟨e,same⟩ | ⟨same,_⟩ | ⟨masks,_,_,same⟩
    · rw [same]
    · rw [same] at raised
      cases raised
    · rw [same] at raised
      cases raised

/-- Two rows, a prompt token and two response tokens each; the teacher wrote one token of each row,
and the first row has an action of the student for it. -/
def relayedRows : TrainBatch 2 1 2 Unit Int where
  responses := ![![5,6],![7,8]]
  responseMask := ![![1,1],![1,0]]
  inputIds := ![![4,5,6],![4,7,8]]
  joined := by decide
  rest := fun _ => ()
  teacherMask := none
  pgActionInputIds := none
  studentActionIds := none
  studentActionMask := none
  studentActionTeacherLogprobs := none
  listTeacherMask := some ![some [false,true],some [true,true,true]]
  listStudentActionIds := some ![some [0,9],none]
  listStudentActionTeacherLogprobs := some ![some [0,-3],none]
  listStudentActionMask := some ![some [false,true],none]

/-- The mask of the second row ends with its response, and one id of the input changes. -/
example : ∃ attached, TrainBatch.attachRelayTrainingFields true relayedRows = (.ok (),attached) ∧
    attached.teacherMask = some ![![false,true],![true,false]] ∧
    attached.studentActionMask = some ![![false,true],![false,false]] ∧
    attached.pgActionInputIds = some ![![4,5,9],![4,7,8]] ∧
    attached.studentActionTeacherLogprobs = some ![![0,-3],![0,0]] ∧ attached.listStudentActionIds = none :=
  ⟨_,rfl,by decide,by decide,by decide,by decide,rfl⟩

end RelayOpd
