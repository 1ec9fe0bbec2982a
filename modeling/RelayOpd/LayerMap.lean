import Mathlib.Data.Int.Basic
import RelayOpd.PyDict

/-! Where the layers of a pipelined model are: the map from global layer numbers that the loader and the
saver build, and the offsets by which the layers of a stage are renamed for the inference engine. -/
namespace RelayOpd.LayerMap

/-- A layer by its stage, its chunk in the stage and its index in the chunk. -/
structure Place where
  ppRank : Nat
  virtualPpRank : Nat
  layerIdx : Nat
deriving DecidableEq

structure PipelineConfig where
  numHiddenLayers : Nat
  ppSize : Nat
  virtualPpSize : Nat

namespace PipelineConfig

variable (c : PipelineConfig)

def numLayersPerModel : Nat := c.numHiddenLayers / c.ppSize / c.virtualPpSize

def layerOffset (virtualPpRank ppRank : Nat) : Nat :=
  virtualPpRank * (c.numHiddenLayers / c.virtualPpSize) + ppRank * c.numLayersPerModel

end PipelineConfig

/-- `_megatron_calc_layer_map`. -/
def calcLayerMap (c : PipelineConfig) : Except String (PyDict Nat Place) :=
  if c.numLayersPerModel * c.ppSize * c.virtualPpSize ≠ c.numHiddenLayers then .error "AssertionError"
  else .ok ((List.range c.ppSize).foldl (fun layerMap ppRank =>
    (List.range c.virtualPpSize).foldl (fun layerMap virtualPpRank =>
      (List.range c.numLayersPerModel).foldl (fun layerMap layerIdx =>
        layerMap.set (c.layerOffset virtualPpRank ppRank + layerIdx) ⟨ppRank,virtualPpRank,layerIdx⟩) layerMap)
      layerMap) PyDict.empty)

structure TransformerConfig where
  numLayers : Nat
  pipelineModelParallelSize : Nat
  virtualPipelineModelParallelSize : Option Nat
  numLayersInFirstPipelineStage : Option Int
  numLayersInLastPipelineStage : Option Int
  accountForEmbeddingInPipelineSplit : Bool
  accountForLossInPipelineSplit : Bool

def floorDiv (a b : Int) : Except String Int :=
  if b = 0 then .error "integer division or modulo by zero" else .ok (a / b)

/-- The offset of a stage between a first and a last stage of their own sizes. -/
def unevenOffset (config : TransformerConfig) (pipelineRank : Nat) (vpStage : Option Nat) : Except String Int := do
  let first := config.numLayersInFirstPipelineStage
  let last := config.numLayersInLastPipelineStage
  let middlePipelineStages : Int := config.pipelineModelParallelSize -
    ([first,last].map (fun x => if x.isSome then 1 else 0)).foldl (· + ·) 0
  let numLayersInFirstPipelineStage : Int := first.getD 0
  let numLayersInLastPipelineStage : Int := last.getD 0
  let middleNumLayers : Int := config.numLayers - numLayersInFirstPipelineStage - numLayersInLastPipelineStage
  match config.virtualPipelineModelParallelSize with
  | some vpSize =>
    match vpStage with
    | none => throw "vp_stage must be provided if virtual pipeline model parallel size is set"
    | some vpStage =>
      let inFirst ← match first with
        | none => pure 0
        | some n => floorDiv n vpSize
      let inLast ← match last with
        | none => pure 0
        | some n => floorDiv n vpSize
      let inMiddle ← floorDiv middleNumLayers vpSize
      let totalVirtualChunks := inFirst + inMiddle + inLast
      if pipelineRank = 0 then return vpStage * totalVirtualChunks
      else
        let perStage ← floorDiv inMiddle middlePipelineStages
        return vpStage * totalVirtualChunks + inFirst + (pipelineRank - 1) * perStage
  | none =>
    let numLayersPerPipelineRank := if middlePipelineStages > 0 then middleNumLayers / middlePipelineStages else 0
    let middlePipelineRank : Int := if first.isNone then pipelineRank else pipelineRank - 1
    if pipelineRank = 0 then return 0
    else return middlePipelineRank * numLayersPerPipelineRank + numLayersInFirstPipelineStage

/-- `get_transformer_layer_offset` without a pipeline layout; `isFirstStage` is the answer of
`is_pipeline_first_stage`. -/
def getTransformerLayerOffset (isFirstStage : Bool) (pipelineRank : Nat) (vpStage : Option Nat)
    (config : TransformerConfig) : Except String Int := do
  if config.pipelineModelParallelSize > 1 then
    if config.numLayersInFirstPipelineStage.isSome ∨ config.numLayersInLastPipelineStage.isSome then
      unevenOffset config pipelineRank vpStage
    else
      let numLayers := config.numLayers + (if config.accountForEmbeddingInPipelineSplit then 1 else 0) +
        (if config.accountForLossInPipelineSplit then 1 else 0)
      let numLayersPerPipelineRank := numLayers / config.pipelineModelParallelSize
      let embedding : Int := if config.accountForEmbeddingInPipelineSplit && !isFirstStage then 1 else 0
      match config.virtualPipelineModelParallelSize with
      | some vpSize =>
        match vpStage with
        | none => throw "vp_stage must be provided if virtual pipeline model parallel size is set"
        | some vpStage =>
          let numLayersPerVirtualRank ← floorDiv numLayersPerPipelineRank vpSize
          let totalVirtualChunks ← floorDiv numLayers vpSize
          return vpStage * totalVirtualChunks + pipelineRank * numLayersPerVirtualRank - embedding
      | none => return pipelineRank * numLayersPerPipelineRank - embedding
  else return 0

section Bijection

variable {c : PipelineConfig}

/-- The assertion of the map. -/
def PipelineConfig.Divides (c : PipelineConfig) : Prop :=
  c.numLayersPerModel * c.ppSize * c.virtualPpSize = c.numHiddenLayers

def PipelineConfig.Inside (c : PipelineConfig) (place : Place) : Prop :=
  place.ppRank < c.ppSize ∧ place.virtualPpRank < c.virtualPpSize ∧ place.layerIdx < c.numLayersPerModel

def PipelineConfig.layerOf (c : PipelineConfig) (place : Place) : Nat :=
  c.layerOffset place.virtualPpRank place.ppRank + place.layerIdx

/-- The places in the order in which the map gets them. -/
def PipelineConfig.places (c : PipelineConfig) : List Place :=
  (List.range c.ppSize).flatMap (fun ppRank => (List.range c.virtualPpSize).flatMap (fun virtualPpRank =>
    (List.range c.numLayersPerModel).map (fun layerIdx => ⟨ppRank,virtualPpRank,layerIdx⟩)))

theorem mem_places (place : Place) : place ∈ c.places ↔ c.Inside place := by
  obtain ⟨ppRank,virtualPpRank,layerIdx⟩ := place
  simp [PipelineConfig.places,PipelineConfig.Inside]

variable (divides : c.Divides)

include divides

/-- A chunk of every stage one after another. -/
theorem layersPerChunk (some : 0 < c.virtualPpSize) :
    c.numHiddenLayers / c.virtualPpSize = c.ppSize * c.numLayersPerModel := by
  conv_lhs => rw [← divides]
  rw [Nat.mul_div_cancel _ some,Nat.mul_comm]

theorem layerOf_eq (place : Place) (inside : c.Inside place) : c.layerOf place =
    (place.virtualPpRank * c.ppSize + place.ppRank) * c.numLayersPerModel + place.layerIdx := by
  rw [PipelineConfig.layerOf,PipelineConfig.layerOffset,layersPerChunk divides (by have := inside.2.1; omega),Nat.add_mul,
    Nat.mul_assoc]

theorem layerOf_lt (place : Place) (inside : c.Inside place) : c.layerOf place < c.numHiddenLayers := by
  obtain ⟨stage,chunk,index⟩ := inside
  have first : place.virtualPpRank * c.ppSize + place.ppRank + 1 ≤ c.virtualPpSize * c.ppSize := by
    have := Nat.mul_le_mul_right c.ppSize (Nat.succ_le_of_lt chunk)
    rw [Nat.succ_mul] at this
    omega
  have second := Nat.mul_le_mul_right c.numLayersPerModel first
  rw [Nat.succ_mul] at second
  have total : c.virtualPpSize * c.ppSize * c.numLayersPerModel = c.numHiddenLayers := by
    rw [← divides]
    ac_rfl
  rw [layerOf_eq divides place ⟨stage,chunk,index⟩]
  omega

theorem layerOf_inj (place other : Place) (inside : c.Inside place) (within : c.Inside other)
    (same : c.layerOf place = c.layerOf other) : place = other := by
  rw [layerOf_eq divides place inside,layerOf_eq divides other within] at same
  have positive : 0 < c.numLayersPerModel := by have := inside.2.2; omega
  have stages : 0 < c.ppSize := by have := inside.1; omega
  have index := congrArg (· % c.numLayersPerModel) same
  have chunk := congrArg (· / c.numLayersPerModel) same
  simp only [Nat.mul_comm _ c.numLayersPerModel,Nat.mul_add_mod,Nat.mul_add_div positive,
    Nat.mod_eq_of_lt inside.2.2,Nat.mod_eq_of_lt within.2.2,Nat.div_eq_of_lt inside.2.2,Nat.div_eq_of_lt within.2.2,
    Nat.add_zero] at index chunk
  have stage := congrArg (· % c.ppSize) chunk
  have virtual := congrArg (· / c.ppSize) chunk
  simp only [Nat.mul_comm _ c.ppSize,Nat.mul_add_mod,Nat.mul_add_div stages,
    Nat.mod_eq_of_lt inside.1,Nat.mod_eq_of_lt within.1,Nat.div_eq_of_lt inside.1,Nat.div_eq_of_lt within.1,
    Nat.add_zero] at stage virtual
  cases place
  cases other
  simp_all

/-- Every layer number is the number of a place. -/
theorem layerOf_onto (n : Nat) (below : n < c.numHiddenLayers) : ∃ place, c.Inside place ∧ c.layerOf place = n := by
  have positive : 0 < c.numLayersPerModel := by
    rcases Nat.eq_zero_or_pos c.numLayersPerModel with zero | positive
    · rw [PipelineConfig.Divides,zero,Nat.zero_mul,Nat.zero_mul] at divides
      omega
    · exact positive
  have stages : 0 < c.ppSize := by
    rcases Nat.eq_zero_or_pos c.ppSize with zero | stages
    · rw [PipelineConfig.Divides,zero,Nat.mul_zero,Nat.zero_mul] at divides
      omega
    · exact stages
  have inside : c.Inside ⟨n / c.numLayersPerModel % c.ppSize,n / c.numLayersPerModel / c.ppSize,n % c.numLayersPerModel⟩ := by
    refine ⟨Nat.mod_lt _ stages,?_,Nat.mod_lt _ positive⟩
    rw [Nat.div_div_eq_div_mul,Nat.div_lt_iff_lt_mul (Nat.mul_pos positive stages),Nat.mul_comm]
    exact lt_of_lt_of_eq below divides.symm
  refine ⟨_,inside,?_⟩
  rw [layerOf_eq divides _ inside,Nat.div_add_mod',Nat.div_add_mod']

end Bijection

section Map

variable {κ α : Type} [DecidableEq κ]

theorem get?_foldl_set_other (key : α → κ) (xs : List α) (d : PyDict κ α) (k : κ) (other : ∀ x ∈ xs, key x ≠ k) :
    (xs.foldl (fun d x => d.set (key x) x) d).get? k = d.get? k := by
  induction xs generalizing d with
  | nil => rfl
  | cons x xs ih =>
    rw [List.foldl_cons,ih _ (fun y member => other y (List.mem_cons_of_mem x member)),
      PyDict.get?_set_other _ _ _ _ (other x List.mem_cons_self).symm]

theorem get?_foldl_set (key : α → κ) (xs : List α) (d : PyDict κ α) (x : α) (member : x ∈ xs)
    (inj : ∀ y ∈ xs, key y = key x → y = x) : (xs.foldl (fun d x => d.set (key x) x) d).get? (key x) = some x := by
  induction xs using List.reverseRecOn with
  | nil => exact absurd member List.not_mem_nil
  | append_singleton xs y ih =>
    rw [List.foldl_append,List.foldl_cons,List.foldl_nil]
    by_cases same : key x = key y
    · rw [same,PyDict.get?_set_same,inj y (by simp) same.symm]
    · have earlier : x ∈ xs := by
        rcases List.mem_append.mp member with earlier | last
        · exact earlier
        · exact absurd (congrArg key (List.mem_singleton.mp last)) same
      rw [PyDict.get?_set_other _ _ _ _ same,ih earlier (fun z held => inj z (List.mem_append_left _ held))]

variable {c : PipelineConfig}

/-- Every layer has its place, and every place its layer. -/
theorem calcLayerMap_eq (divides : c.Divides) : ∃ layerMap, calcLayerMap c = .ok layerMap ∧
    ∀ n place, layerMap.get? n = some place ↔ c.Inside place ∧ c.layerOf place = n := by
  have folded : calcLayerMap c = .ok (c.places.foldl (fun d place => d.set (c.layerOf place) place) PyDict.empty) := by
    have holds : c.numLayersPerModel * c.ppSize * c.virtualPpSize = c.numHiddenLayers := divides
    rw [calcLayerMap,if_neg (not_not.mpr holds)]
    simp only [PipelineConfig.places,List.foldl_flatMap,List.foldl_map]
    rfl
  refine ⟨_,folded,fun n place => ⟨fun found => ?_,?_⟩⟩
  · have present : ∃ other ∈ c.places, c.layerOf other = n := by
      by_contra absent
      rw [get?_foldl_set_other _ _ _ _ (fun x member same => absent ⟨x,member,same⟩)] at found
      cases found
    obtain ⟨other,member,rfl⟩ := present
    have within := mem_places other |>.mp member
    rw [get?_foldl_set _ _ _ other member
      (fun y held same => layerOf_inj divides y other (mem_places y |>.mp held) within same)] at found
    cases found
    exact ⟨within,rfl⟩
  · rintro ⟨inside,number⟩
    subst number
    exact get?_foldl_set _ _ _ place ((mem_places place).mpr inside)
      (fun y held same => layerOf_inj divides y place (mem_places y |>.mp held) inside same)

/-- Layers in equal chunks, as the loader assumes. -/
structure TransformerConfig.Agrees (config : TransformerConfig) (c : PipelineConfig) : Prop where
  layers : config.numLayers = c.numHiddenLayers
  stages : config.pipelineModelParallelSize = c.ppSize
  chunks : config.virtualPipelineModelParallelSize.getD 1 = c.virtualPpSize
  first : config.numLayersInFirstPipelineStage = none
  last : config.numLayersInLastPipelineStage = none
  embedding : config.accountForEmbeddingInPipelineSplit = false
  loss : config.accountForLossInPipelineSplit = false
  some : 0 < c.virtualPpSize
  piped : 1 < c.ppSize ∨ c.ppSize = 1 ∧ c.virtualPpSize = 1

theorem getTransformerLayerOffset_eq {config : TransformerConfig} (agrees : config.Agrees c)
    (isFirstStage : Bool) (place : Place) (inside : c.Inside place) :
    getTransformerLayerOffset isFirstStage place.ppRank (some place.virtualPpRank) config =
      .ok (c.layerOffset place.virtualPpRank place.ppRank : Nat) := by
  obtain ⟨stage,chunk,_⟩ := inside
  have equal : ¬(config.numLayersInFirstPipelineStage.isSome = true ∨ config.numLayersInLastPipelineStage.isSome = true) := by
    simp [agrees.first,agrees.last]
  have chunks := agrees.chunks
  rw [getTransformerLayerOffset,agrees.stages,agrees.layers,agrees.embedding,agrees.loss]
  rcases agrees.piped with piped | ⟨single,whole⟩
  · rw [if_pos piped,if_neg equal]
    cases virtual : config.virtualPipelineModelParallelSize with
    | none =>
      have single : c.virtualPpSize = 1 := by simpa [virtual] using chunks.symm
      have only : place.virtualPpRank = 0 := by omega
      simp [PipelineConfig.layerOffset,PipelineConfig.numLayersPerModel,single,only,pure,Except.pure]
    | some vpSize =>
      have size : vpSize = c.virtualPpSize := by simpa [virtual] using chunks
      have nonzero : c.virtualPpSize ≠ 0 := Nat.ne_of_gt agrees.some
      simp [size,floorDiv,nonzero,PipelineConfig.layerOffset,PipelineConfig.numLayersPerModel,bind,Except.bind,pure,
        Except.pure]
  · have first : place.ppRank = 0 := by omega
    have only : place.virtualPpRank = 0 := by omega
    rw [if_neg (by omega),PipelineConfig.layerOffset,first,only,Nat.zero_mul,Nat.zero_mul]
    rfl

/-- The offsets rename the layers of the chunks to their numbers in the map, one to one and onto. -/
theorem offset_layerMap {config : TransformerConfig} (agrees : config.Agrees c) (divides : c.Divides) (isFirstStage : Bool) :
    ∃ layerMap, calcLayerMap c = .ok layerMap ∧
      (∀ n place, layerMap.get? n = some place ↔ c.Inside place ∧ ∃ offset,
        getTransformerLayerOffset isFirstStage place.ppRank (some place.virtualPpRank) config = .ok offset ∧
        (n : Int) = offset + place.layerIdx) ∧
      (∀ n, n < c.numHiddenLayers ↔ ∃ place, layerMap.get? n = some place) := by
  obtain ⟨layerMap,built,found⟩ := calcLayerMap_eq divides
  refine ⟨layerMap,built,fun n place => ?_,fun n => ⟨fun below => ?_,?_⟩⟩
  · rw [found]
    refine and_congr_right (fun inside => ?_)
    rw [getTransformerLayerOffset_eq agrees isFirstStage place inside]
    constructor
    · rintro rfl
      exact ⟨_,rfl,Int.natCast_add _ _⟩
    · rintro ⟨offset,same,number⟩
      cases same
      rw [PipelineConfig.layerOf]
      omega
  · obtain ⟨place,inside,number⟩ := layerOf_onto divides n below
    exact ⟨place,(found n place).mpr ⟨inside,number⟩⟩
  · rintro ⟨place,held⟩
    obtain ⟨inside,rfl⟩ := (found n place).mp held
    exact layerOf_lt divides place inside

theorem offset_layerMap_four : ∃ layerMap, calcLayerMap ⟨8,2,2⟩ = .ok layerMap ∧
    (∀ n place, layerMap.get? n = some place ↔ PipelineConfig.Inside ⟨8,2,2⟩ place ∧ ∃ offset,
      getTransformerLayerOffset true place.ppRank (some place.virtualPpRank) ⟨8,2,some 2,none,none,false,false⟩ = .ok offset ∧
      (n : Int) = offset + place.layerIdx) ∧
    (∀ n, n < 8 ↔ ∃ place, layerMap.get? n = some place) :=
  offset_layerMap (c := ⟨8,2,2⟩)
    ⟨rfl,rfl,rfl,rfl,rfl,rfl,rfl,by decide,by decide⟩ (by rw [PipelineConfig.Divides]; decide) true

end Map

end RelayOpd.LayerMap
