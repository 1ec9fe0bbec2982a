import RelayOpd.Verification
import RelayOpd.MaskAlign

/-! One engine step: a non-speculative sample or a verification call, vLLM's
bookkeeping, and the flush that follows it. -/
namespace RelayOpd

open WordBytes

/-- A step without a verification call sampled without speculation. -/
structure EngineStep (α : Type) where
  verification : Option (Verification α)
  book : Bookkeeping

/-- A token without a student action stands for itself. -/
def exportedPairs (tokens : List Int) (actions : List (Option (Int × FloatWord))) :
    List (Int × FloatWord) :=
  List.zipWith (fun token action => action.getD (token,FloatWord.nan)) tokens actions

namespace EngineStep

variable (K : SkdKernels α) (step : EngineStep α)

def pendingRows : Option (List PendingRow) :=
  step.verification.bind (fun v => recordTokenSourceEvents v.args (v.out K))

/-- The flush over a connected socket. -/
def flush : Except String (List (String × List UInt8)) :=
  flushMaskRows step.verification.isNone (step.pendingRows K) true step.book

def sampled (bi : Nat) : List Int := step.book.sampledTokenIds.getD bi []

/-- One entry for each token that bookkeeping kept of row `bi`: `source` at its
column, or `plain` without speculation. -/
def perToken (source : Verification α → Nat → β) (plain : β) (bi : Nat) : List β :=
  match step.verification with
  | none => List.replicate (step.sampled bi).length plain
  | some v => ((emittedColumns v.args (v.out K) bi).take (step.sampled bi).length).map (source v)

/-- The sampler's labels of the kept tokens. -/
def rowLabels (bi : Nat) : List Bool :=
  step.perToken K (fun v => (v.out K).teacherOutput bi) false bi

def rowActions (bi : Nat) : List (Option (Int × FloatWord)) :=
  step.perToken K (fun v => v.studentAction K bi) none bi

/-- The step hands student actions to the flush. -/
def exports : Bool := step.verification.any Verification.exportsActions

/-- The row of a request, by its internal id. -/
def rowOf (rid : String) : Option Nat := step.book.reqIds.findIdx? (fun id => id == some rid)

def appended (rid : String) : List Int := (step.rowOf rid).elim [] step.sampled

def labels (rid : String) : List Bool := (step.rowOf rid).elim [] (step.rowLabels K)

def studentActions (rid : String) : List (Option (Int × FloatWord)) :=
  (step.rowOf rid).elim [] (step.rowActions K)

/-- The pairs that the step exports for the kept tokens of row `bi`. -/
def rowPairs (bi : Nat) : Option (List (Int × FloatWord)) :=
  if step.exports then some (exportedPairs (step.sampled bi) (step.rowActions K bi)) else none

/-- The chunk of row `bi` when the request then has `endPos` tokens. -/
def rowArgs (bi endPos : Nat) : MaskArgs where
  mask := step.rowLabels K bi
  tokens := step.sampled bi
  positions := some ((List.range (step.sampled bi).length).map (fun k : Nat =>
    (endPos : Int) - (step.sampled bi).length + k))
  actions := (step.rowPairs K bi).map (List.map Prod.fst)
  actionLogps := (step.rowPairs K bi).map (List.map Prod.snd)

/-- What vLLM guarantees about a step: live requests have external ids of their own,
ids and lengths are 32-bit integers, and it appends a prefix of the non-placeholder
ids of each row. -/
structure Booked : Prop where
  distinct : step.book.reqIds.Pairwise (fun a b =>
    ∀ p ∈ a, ∀ q ∈ b, stripVllmSuffix p ≠ stripVllmSuffix q)
  ids : ∀ bi, ∀ t ∈ step.sampled bi, Int32Range t
  lengths : ∀ rid out, step.book.requests rid = some out → out.length ≤ 2147483647
  vocabulary : ∀ v ∈ step.verification, v.args.vocabSize ≤ 2147483648
  verified : ∀ v ∈ step.verification, v.Valid K ∧ v.args.reqIds = some step.book.reqIds ∧
    step.book.reqIds.length = v.args.batchSize ∧ ∀ bi, bi < v.args.batchSize →
      step.sampled bi <+: (emittedColumns v.args (v.out K) bi).map ((v.out K).output bi)

/-- No row of the step keeps more tokens than one datagram carries. -/
def Small : Prop := ∀ bi, (step.sampled bi).length ≤ 255

end EngineStep

section Row

variable {K : SkdKernels α} {step : EngineStep α} (booked : step.Booked K) {bi : Nat} {rid : String}
  (named : step.book.reqIds[bi]? = some (some rid)) (kept : step.sampled bi ≠ [])

include booked named

theorem perToken_length (source : Verification α → Nat → β) (plain : β) :
    (step.perToken K source plain bi).length = (step.sampled bi).length := by
  unfold EngineStep.perToken
  cases spec : step.verification with
  | none => simp
  | some v =>
    obtain ⟨_,_,rows,cut⟩ := booked.verified v spec
    have live : bi < v.args.batchSize := rows ▸ (List.getElem?_eq_some_iff.mp named).1
    have short := (cut bi live).length_le
    rw [List.length_map] at short
    simpa using short

include kept

omit kept in
theorem exportedPairs_eq (v : Verification α) (spec : step.verification = some v)
    (actions : Nat → Nat → Int) (logps : Nat → Nat → FloatWord)
    (exported : (v.out K).actions = some (actions,logps)) :
    exportedPairs (step.sampled bi) (step.rowActions K bi) =
      ((emittedColumns v.args (v.out K) bi).take (step.sampled bi).length).map
        (fun c => (actions bi c,logps bi c)) := by
  obtain ⟨valid,_,rows,cut⟩ := booked.verified v spec
  have live : bi < v.args.batchSize := rows ▸ (List.getElem?_eq_some_iff.mp named).1
  have tokens := List.prefix_iff_eq_take.mp (cut bi live)
  have pair := fun c => Verification.actions_eq valid actions logps exported bi c
  simp only [EngineStep.rowActions,EngineStep.perToken,spec,exportedPairs]
  generalize (step.sampled bi).length = n at tokens ⊢
  rw [tokens,← List.map_take,List.zipWith_map,List.zipWith_self]
  simp only [pair]

/-- The recorder left a row for every request that the engine keeps tokens of. -/
theorem pendingRows_row (v : Verification α) (spec : step.verification = some v) :
    ∃ rows, step.pendingRows K = some rows ∧ rows[bi]? = some (recordRow v.args (v.out K) bi) ∧
      recordedColumns v.args (v.out K) bi = emittedColumns v.args (v.out K) bi ∧
      (v.out K).actions.isSome = v.exportsActions := by
  obtain ⟨valid,ids,rows,cut⟩ := booked.verified v spec
  have live : bi < v.args.batchSize := rows ▸ (List.getElem?_eq_some_iff.mp named).1
  have whole : recordedColumns v.args (v.out K) bi = emittedColumns v.args (v.out K) bi := by
    apply List.filter_eq_self.mpr
    intro c member
    have below := Verification.output_lt valid bi c live
    have shown := ((Grid.mem_nonzero _ _ _).mp member).2
    simp only [isEmitted,Bool.and_eq_true,bne_iff_ne,decide_eq_true_eq] at shown
    simpa [shown.2,shown.1] using below
  have shown : emittedColumns v.args (v.out K) bi ≠ [] := by
    intro empty
    have nothing := cut bi live
    rw [empty,List.map_nil,List.prefix_nil] at nothing
    exact kept nothing
  have tokens : (recordRow v.args (v.out K) bi).tokens ≠ [] := by
    simpa [recordRow,whole] using shown
  obtain ⟨recorded,exported⟩ := Verification.recorded_of_emitted valid (by simp [ids]) bi shown
  have emitted : Grid.any v.args.batchSize v.args.width
      (fun bi c => isEmitted ((v.out K).output bi c)) = true := by
    obtain ⟨c,member⟩ := List.exists_mem_of_ne_nil _ shown
    obtain ⟨inside,here⟩ := (Grid.mem_nonzero _ _ _).mp member
    exact (Grid.any_eq_true _ _ _).mpr ⟨bi,live,c,inside,here⟩
  have own : ((List.range v.args.batchSize).map (fun bi =>
      if (step.book.reqIds.getD bi none).isSome = true then recordRow v.args (v.out K) bi else {}))[bi]? =
      some (recordRow v.args (v.out K) bi) := by
    simp [List.getD_eq_getElem?_getD,named,live]
  refine ⟨_,?_,own,whole,exported⟩
  rw [EngineStep.pendingRows,spec,Option.bind_some,recordTokenSourceEvents,ids]
  have filled : ((List.range v.args.batchSize).map (fun bi =>
      if (step.book.reqIds.getD bi none).isSome = true then recordRow v.args (v.out K) bi else {})).all
      (fun row => row.tokens.isEmpty) = false := by
    rw [List.all_eq_false]
    exact ⟨_,List.mem_of_getElem? own,by simpa using tokens⟩
  simp only [recorded,emitted,filled,Bool.not_true,Bool.or_false,Bool.false_eq_true,if_false]

omit booked named in
theorem sourceRow_plain (spec : step.verification = none) :
    ∃ row, sourceRow step.verification.isNone (step.pendingRows K) rid bi (step.sampled bi) = .ok row ∧
      ∀ endPos, row.chunkArgs (step.sampled bi) endPos = step.rowArgs K bi endPos := by
  refine ⟨⟨List.replicate (step.sampled bi).length false,step.sampled bi,[],[]⟩,?_,fun endPos => ?_⟩
  · rw [sourceRow,spec]
    rfl
  · have some : ¬ (step.sampled bi).length ≤ 0 := by
      have := List.length_pos_iff.mpr kept
      omega
    simp only [PendingRow.chunkArgs,EngineStep.rowArgs,EngineStep.rowLabels,EngineStep.perToken,
      EngineStep.rowPairs,EngineStep.exports,spec,List.length_nil,if_neg some,List.take_replicate,
      Nat.min_self,Option.any_none,Bool.false_eq_true,if_false,Option.map_none]

theorem sourceRow_verified (v : Verification α) (spec : step.verification = some v) :
    ∃ row, sourceRow step.verification.isNone (step.pendingRows K) rid bi (step.sampled bi) = .ok row ∧
      ∀ endPos, row.chunkArgs (step.sampled bi) endPos = step.rowArgs K bi endPos := by
  obtain ⟨valid,ids,rows,cut⟩ := booked.verified v spec
  have live : bi < v.args.batchSize := rows ▸ (List.getElem?_eq_some_iff.mp named).1
  obtain ⟨pending,recorded,own,columns,asked⟩ := pendingRows_row booked named kept v spec
  have tokens : (recordRow v.args (v.out K) bi).tokens.take (step.sampled bi).length = step.sampled bi := by
    simp only [recordRow,columns]
    exact (List.prefix_iff_eq_take.mp (cut bi live)).symm
  refine ⟨recordRow v.args (v.out K) bi,?_,fun endPos => ?_⟩
  · simp only [sourceRow,spec,Option.isNone_some,Bool.false_eq_true,if_false,recorded,Option.bind_some,
      own,tokens,ne_eq,not_true]
  · have mask : (recordRow v.args (v.out K) bi).mask.take (step.sampled bi).length =
        step.rowLabels K bi := by
      simp only [recordRow,columns,EngineStep.rowLabels,EngineStep.perToken,spec,← List.map_take]
      apply List.map_congr_left
      intro c member
      simp [((Grid.mem_nonzero _ _ _).mp (List.mem_of_mem_take member)).2]
    have long : (step.sampled bi).length ≤ (emittedColumns v.args (v.out K) bi).length := by
      simpa using (cut bi live).length_le
    have positive := List.length_pos_iff.mpr kept
    have exports : step.exports = (v.out K).actions.isSome := by simp [EngineStep.exports,spec,asked]
    simp only [PendingRow.chunkArgs,EngineStep.rowArgs,EngineStep.rowPairs,mask,exports]
    cases exported : (v.out K).actions with
    | none => simp [recordRow,exported,Nat.not_le.mpr positive]
    | some pair =>
      obtain ⟨actions,logps⟩ := pair
      have pairs := exportedPairs_eq booked named v spec actions logps exported
      simp [recordRow,exported,columns,long,pairs,← List.map_take,Function.comp_def]

theorem sourceRow_ok :
    ∃ row, sourceRow step.verification.isNone (step.pendingRows K) rid bi (step.sampled bi) = .ok row ∧
      ∀ endPos, row.chunkArgs (step.sampled bi) endPos = step.rowArgs K bi endPos := by
  cases spec : step.verification with
  | none => exact spec ▸ sourceRow_plain kept spec
  | some v => exact spec ▸ sourceRow_verified booked named kept v spec

omit named kept in
theorem rowActions_range (pair : Int × FloatWord) (member : some pair ∈ step.rowActions K bi) :
    Int32Range pair.1 := by
  unfold EngineStep.rowActions EngineStep.perToken at member
  cases spec : step.verification with
  | none => simp [spec] at member
  | some v =>
    have small := booked.vocabulary v spec
    rw [spec,List.mem_map] at member
    obtain ⟨c,_,action⟩ := member
    simp only [Verification.studentAction] at action
    split at action
    next takes =>
      obtain rfl := Option.some.inj action
      have valid := takes.2.1
      simp only [SamplerArgs.validDraft,Bool.and_eq_true,decide_eq_true_eq] at valid
      simp only [Int32Range]
      omega
    next => contradiction

omit kept in
theorem rowPairs_range (pairs : List (Int × FloatWord)) (given : step.rowPairs K bi = some pairs) :
    pairs.length = (step.sampled bi).length ∧ ∀ x ∈ pairs, Int32Range x.1 := by
  have count := perToken_length booked named (fun v => v.studentAction K bi) none
  unfold EngineStep.rowPairs at given
  split at given
  · obtain rfl := Option.some.inj given
    have actions : (step.rowActions K bi).length = (step.sampled bi).length := count
    refine ⟨by simp [exportedPairs,actions],?_⟩
    intro x member
    rw [exportedPairs,← List.map_uncurry_zip_eq_zipWith,List.mem_map] at member
    obtain ⟨⟨token,action⟩,inside,rfl⟩ := member
    obtain ⟨emitted,recorded⟩ := List.of_mem_zip inside
    cases action with
    | none => exact booked.ids bi token emitted
    | some pair => exact rowActions_range booked pair recorded
  · contradiction

theorem rowArgs_wellFormed (small : step.Small) (endPos : Nat) (bound : endPos ≤ 2147483647) :
    (step.rowArgs K bi endPos).WellFormed := by
  have positive := List.length_pos_iff.mpr kept
  have most := small bi
  have labels : (step.rowArgs K bi endPos).mask.length = (step.sampled bi).length :=
    perToken_length booked named _ _
  refine ⟨by omega,by omega,labels.symm,booked.ids bi,⟨_,rfl,by simp [labels],?_⟩,?_,?_⟩
  · intro x member
    obtain ⟨k,inside,rfl⟩ := List.mem_map.mp member
    have below := List.mem_range.mp inside
    simp only [Int32Range]
    omega
  · intro xs found
    obtain ⟨pairs,given,rfl⟩ := Option.mem_map.mp found
    obtain ⟨count,range⟩ := rowPairs_range booked named pairs given
    refine ⟨by rw [List.length_map,count,labels],?_⟩
    intro x member
    obtain ⟨pair,inside,rfl⟩ := List.mem_map.mp member
    exact range pair inside
  · intro xs found
    obtain ⟨pairs,given,rfl⟩ := Option.mem_map.mp found
    rw [List.length_map,(rowPairs_range booked named pairs given).1,labels]

/-- A row with kept tokens sends its chunk under the request's external id. -/
theorem flushRow_kept (small : step.Small) (outputTokenIds : List Int)
    (found : step.book.requests rid = some outputTokenIds) :
    flushRow step.verification.isNone (step.pendingRows K) true step.book bi =
      .ok (if stripVllmSuffix rid = "" then none
        else some (stripVllmSuffix rid,
          datagram (stripVllmSuffix rid) (step.rowArgs K bi outputTokenIds.length).body)) := by
  obtain ⟨row,sourced,chunk⟩ := sourceRow_ok booked named kept
  have fine := rowArgs_wellFormed booked named kept small _ (booked.lengths rid outputTokenIds found)
  have sent := sendMaskChunkIpc_ok _ fine (stripVllmSuffix rid)
  simp only [EngineStep.sampled] at kept sourced chunk
  simp only [flushRow,named,if_neg kept,sourced,found,chunk,bind,Except.bind,sent]
  split <;> rfl

end Row

section Flush

variable {K : SkdKernels α} {step : EngineStep α} (booked : step.Booked K) (small : step.Small)

include booked small

/-- No row of the step raises, and a datagram goes out under its request's own id. -/
theorem flushRow_ok (bi : Nat) :
    ∃ sent, flushRow step.verification.isNone (step.pendingRows K) true step.book bi = .ok sent ∧
      ∀ ext payload, sent = some (ext,payload) →
        ∃ rid, step.book.reqIds[bi]? = some (some rid) ∧ stripVllmSuffix rid = ext := by
  cases row : step.book.reqIds[bi]? with
  | none => exact ⟨none,by simp [flushRow,row],by simp⟩
  | some id =>
    by_cases kept : step.sampled bi = []
    · exact ⟨none,by simp [flushRow,row,EngineStep.sampled] at kept ⊢; simp [kept],by simp⟩
    · cases id with
      | none => exact ⟨none,by simp [flushRow,row],by simp⟩
      | some rid =>
        cases found : step.book.requests rid with
        | none =>
          obtain ⟨source,sourced,_⟩ := sourceRow_ok booked row kept
          refine ⟨none,?_,by simp⟩
          simp only [EngineStep.sampled] at kept sourced
          simp only [flushRow,row,if_neg kept,sourced,found,bind,Except.bind]
          rfl
        | some outputTokenIds =>
          refine ⟨_,flushRow_kept booked row kept small outputTokenIds found,?_⟩
          intro ext payload sent
          split at sent
          · contradiction
          · exact ⟨rid,rfl,(Prod.mk.inj (Option.some.inj sent)).1⟩

end Flush

end RelayOpd
