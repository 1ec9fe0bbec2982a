import RelayOpd.LocalLoop
import RelayOpd.OrderedDict
import RelayOpd.TensorCat
import Mathlib.Data.List.Sort
import Mathlib.Data.String.Basic

/-! Sharded checkpoints merged into one state dict. The mesh is read from the entry whose name
sorts first, the number of shards from the last dimension of that mesh. -/
namespace RelayOpd.ModelMerger

open TensorCat

inductive Placement
  | shard (dim : Nat)
  | replicate
  | partialSum
deriving DecidableEq

structure DeviceMesh where
  mesh : ShapedTensor Nat
  meshDimNames : List String

structure DTensor (α : Type) where
  localTensor : ShapedTensor α
  placements : List Placement
  deviceMesh : DeviceMesh

/-- What a checkpoint file holds under one name. -/
inductive Saved (α : Type)
  | dtensor (tensor : DTensor α)
  | plain (tensor : ShapedTensor α)

abbrev StateDict (α : Type) := OrderedDict String (Saved α)

/-- The files `model_world_size_{world_size}_rank_{rank}.pt` of the directory. -/
abbrev Directory (α : Type) := Nat → Nat → Option (StateDict α)

variable {α : Type}

def load (files : Directory α) (worldSize rank : Nat) : Except String (StateDict α) :=
  match files worldSize rank with
  | none => .error "FileNotFoundError"
  | some stateDict => .ok stateDict

def extractDeviceMeshInfo (stateDict : StateDict α) (worldSize : Nat) : Except String DeviceMesh :=
  match (stateDict.keys.insertionSort (· ≤ ·)).head? with
  | none => .error "list index out of range"
  | some pivotKey =>
    match stateDict.get? pivotKey with
    | some (.dtensor weight) => .ok weight.deviceMesh
    | _ => .ok ⟨.vector [worldSize],["fsdp"]⟩

def calculateShardConfiguration (info : DeviceMesh) : Except String (Nat × List Nat) :=
  if info.meshDimNames ≠ ["fsdp"] ∧ info.meshDimNames ≠ ["ddp","fsdp"] then
    .error s!"Unsupported mesh_dim_names {info.meshDimNames}"
  else
    match info.mesh.shape.reverse with
    | [] => .error "tuple index out of range"
    | last :: before =>
      if "tp" ∈ info.meshDimNames then
        match before with
        | [] => .error "tuple index out of range"
        | second :: _ => .ok (last * second,[second,last])
      else .ok (last,[last])

def mergeByPlacement (tensors : List (ShapedTensor α)) : Placement → Except String (ShapedTensor α)
  | .replicate =>
    match tensors with
    | [] => .error "list index out of range"
    | first :: _ => .ok first
  | .partialSum => .error "Partial placement is not supported yet"
  | .shard dim => cat dim tensors

/-- The tensors of one name in the order of the ranks, and their `param_placements`. -/
structure Gathered (α : Type) where
  tensors : List (ShapedTensor α)
  placements : Option (List Placement)

section Merge

variable (bfloat16 : α → α) (files : Directory α)

def effectivePlacements (meshDimNames : List String) (placements : List Placement) : List Placement :=
  if meshDimNames.head? = some "dp" ∨ meshDimNames.head? = some "ddp" then placements.drop 1 else placements

def gatherShard (meshDimNames : List String) (key : String) (acc : Gathered α) (shard : StateDict α) :
    Except String (Gathered α) :=
  match shard.get? key with
  | none => .error key
  | some (.plain tensor) => .ok { acc with tensors := acc.tensors ++ [tensor.map bfloat16] }
  | some (.dtensor tensor) =>
    let placements := effectivePlacements meshDimNames tensor.placements
    if acc.placements.getD placements = placements then
      .ok ⟨acc.tensors ++ [tensor.localTensor.map bfloat16],some placements⟩
    else .error "AssertionError"

def gatherKey (meshDimNames : List String) (shards : List (StateDict α)) (key : String) :
    Except String (Gathered α) :=
  shards.foldlM (gatherShard bfloat16 meshDimNames key) ⟨[],none⟩

def mergeKey (meshShape : List Nat) (gathered : Gathered α) : Except String (ShapedTensor α) :=
  match gathered.placements with
  | none => cat 0 gathered.tensors
  | some placements =>
    if meshShape.length = 1 then
      match placements with
      | [placement] => mergeByPlacement gathered.tensors placement
      | _ => .error "AssertionError"
    else .error "FSDP + TP is not supported yet"

def loadAndMergeStateDicts (worldSize totalShards : Nat) (meshShape : List Nat) (meshDimNames : List String) :
    Except String (OrderedDict String (ShapedTensor α)) := do
  let shards ← (List.range totalShards).mapM (load files worldSize)
  match shards with
  | [] => .error "list index out of range"
  | first :: _ => do
    let gathered ← first.mapValuesM (fun key _ => gatherKey bfloat16 meshDimNames shards key)
    gathered.mapValuesM (fun _ g => mergeKey meshShape g)

/-- The mesh detection of `merge_and_save` and the merge after it. -/
def mergedStateDict (worldSize : Nat) : Except String (OrderedDict String (ShapedTensor α)) := do
  let rankZero ← load files worldSize 0
  let info ← extractDeviceMeshInfo rankZero worldSize
  let config ← calculateShardConfiguration info
  loadAndMergeStateDicts bfloat16 files worldSize config.1 config.2 info.meshDimNames

end Merge

/-- The meshes a checkpoint is written under, with their sizes. -/
inductive Mesh
  | fsdp (shards : Nat)
  | ddp (replicas shards : Nat)

namespace Mesh

def shards : Mesh → Nat
  | fsdp shards => shards
  | ddp _ shards => shards

def worldSize : Mesh → Nat
  | fsdp shards => shards
  | ddp replicas shards => replicas * shards

theorem grid_size (replicas shards : Nat) :
    (List.range (replicas * shards)).length = [replicas,shards].prod := by simp

/-- The ranks in row-major order. -/
def deviceMesh : Mesh → DeviceMesh
  | fsdp shards => ⟨.vector (List.range shards),["fsdp"]⟩
  | ddp replicas shards => ⟨⟨[replicas,shards],List.range (replicas * shards),grid_size replicas shards⟩,["ddp","fsdp"]⟩

def placements : Mesh → Placement → List Placement
  | fsdp _,placement => [placement]
  | ddp _ _,placement => [.replicate,placement]

/-- The place of a rank along the `fsdp` dimension. -/
def place (mesh : Mesh) (rank : Nat) : Nat := rank % mesh.shards

end Mesh

/-- A tensor of the model, and how the ranks hold it. Parts may differ in size and be empty. -/
inductive Entry (α : Type) (shards : Nat)
  | sharded (full : ShapedTensor α) (dim : Nat) (axis : dim < full.shape.length) (sizes : List Nat)
      (count : sizes.length = shards) (cover : sizes.sum = full.extent dim)
  | replicated (full : ShapedTensor α)
  | buffer (full : ShapedTensor α)

namespace Entry

variable {shards : Nat}

def full : Entry α shards → ShapedTensor α
  | sharded full _ _ _ _ _ => full
  | replicated full => full
  | buffer full => full

def placement : Entry α shards → Option Placement
  | sharded _ dim _ _ _ _ => some (.shard dim)
  | replicated _ => some .replicate
  | buffer _ => none

def localTensor (place : Nat) : Entry α shards → ShapedTensor α
  | sharded full dim axis sizes _ _ => full.part dim axis sizes place
  | replicated full => full
  | buffer full => full

def saved (mesh : Mesh) (rank : Nat) (entry : Entry α shards) : Saved α :=
  match entry.placement with
  | none => .plain (entry.localTensor (mesh.place rank))
  | some placement =>
    .dtensor ⟨entry.localTensor (mesh.place rank),mesh.placements placement,mesh.deviceMesh⟩

end Entry

abbrev ModelState (α : Type) (mesh : Mesh) := OrderedDict String (Entry α mesh.shards)

/-- Every rank has written its file, in an order of names of its own. -/
def Written (files : Directory α) (mesh : Mesh) (state : ModelState α mesh) : Prop :=
  ∀ rank, rank < mesh.worldSize → ∃ stateDict, files mesh.worldSize rank = some stateDict ∧
    ∀ key, stateDict.get? key = (state.get? key).map (Entry.saved mesh rank)

/-- The files of all ranks. -/
def saveCheckpoint (mesh : Mesh) (state : ModelState α mesh) : Directory α := fun worldSize rank =>
  if worldSize = mesh.worldSize ∧ rank < worldSize then
    some (state.mapWithKey (fun _ entry => entry.saved mesh rank))
  else none

theorem saveCheckpoint_written (mesh : Mesh) (state : ModelState α mesh) :
    Written (saveCheckpoint mesh state) mesh state := by
  intro rank below
  exact ⟨_,if_pos ⟨rfl,below⟩,state.get?_mapWithKey _⟩

/-- What an entry needs when every shard is loaded: a buffer is repeated once a shard. -/
def Entry.Gathers {shards : Nat} : Entry α shards → Prop
  | sharded _ _ _ _ _ _ => True
  | replicated _ => True
  | buffer full => full.shape ≠ [] ∧ (shards = 1 ∨ full.extent 0 = 0)

/-- What an entry needs when the file of rank 0 is the only one loaded. -/
def Entry.WholeFirst (mesh : Mesh) : Entry α mesh.shards → Prop
  | sharded full dim _ sizes _ _ => mesh = .fsdp mesh.shards ∧ Ragged.len sizes 0 = full.extent dim
  | replicated _ => mesh = .fsdp mesh.shards
  | buffer full => full.shape ≠ []

/-- The entry whose name sorts first decides how many files are loaded. -/
def Mergeable (mesh : Mesh) (state : ModelState α mesh) : Prop :=
  ∃ key entry, (state.keys.insertionSort (· ≤ ·)).head? = some key ∧ state.get? key = some entry ∧
    if entry.placement.isSome then ∀ k e, state.get? k = some e → e.Gathers
    else ∀ k e, state.get? k = some e → e.WholeFirst mesh

theorem localTensor_map (bfloat16 : α → α) {shards : Nat} (entry : Entry α shards) (place : Nat)
    (fixed : ∀ x ∈ entry.full.data, bfloat16 x = x) :
    (entry.localTensor place).map bfloat16 = entry.localTensor place := by
  cases entry with
  | sharded full dim axis sizes count cover => exact ShapedTensor.narrow_map bfloat16 full dim _ _ axis fixed
  | replicated full => exact ShapedTensor.ext_data rfl ((List.map_congr_left fixed).trans (List.map_id _))
  | buffer full => exact ShapedTensor.ext_data rfl ((List.map_congr_left fixed).trans (List.map_id _))

section Gather

variable (bfloat16 : α → α) {mesh : Mesh} (names : List String) (key : String) (entry : Entry α mesh.shards)

/-- What the first `count` files hold of one entry. -/
def gatheredEntry (count : Nat) : Gathered α :=
  ⟨(List.range count).map (fun rank => entry.localTensor (mesh.place rank)),
    if count = 0 then none else entry.placement.map (fun p => effectivePlacements names (mesh.placements p))⟩

theorem gatherShard_entry (count : Nat) (shard : StateDict α) (found : shard.get? key = some (entry.saved mesh count))
    (fixed : ∀ x ∈ entry.full.data, bfloat16 x = x) :
    gatherShard bfloat16 names key (gatheredEntry names entry count) shard =
      .ok (gatheredEntry names entry (count + 1)) := by
  have held := localTensor_map bfloat16 entry (mesh.place count) fixed
  rw [gatherShard,found,Entry.saved]
  cases placed : entry.placement with
  | none => simp [gatheredEntry,placed,List.range_succ,held]
  | some placement =>
    by_cases first : count = 0
    · subst first
      simp [gatheredEntry,placed,List.range_succ,held]
    · simp [gatheredEntry,placed,List.range_succ,held,first]

theorem gatherKey_entry (shard : Nat → StateDict α) (count : Nat)
    (found : ∀ rank, rank < count → (shard rank).get? key = some (entry.saved mesh rank))
    (fixed : ∀ x ∈ entry.full.data, bfloat16 x = x) :
    gatherKey bfloat16 names ((List.range count).map shard) key = .ok (gatheredEntry names entry count) := by
  induction count with
  | zero => rfl
  | succ count ih =>
    have before := ih (fun rank below => found rank (by omega))
    rw [gatherKey] at before ⊢
    rw [List.range_succ,List.map_append,List.foldlM_append,before]
    have step := gatherShard_entry bfloat16 names key entry count (shard count) (found count (by omega)) fixed
    simp only [List.map_cons,List.map_nil,List.foldlM_cons,List.foldlM_nil]
    change (gatherShard bfloat16 names key (gatheredEntry names entry count) (shard count) >>= pure) = _
    rw [step]
    rfl

end Gather

theorem effective_own (mesh : Mesh) (placement : Placement) :
    effectivePlacements mesh.deviceMesh.meshDimNames (mesh.placements placement) = [placement] := by
  cases mesh with
  | fsdp shards => simp [effectivePlacements,Mesh.deviceMesh,Mesh.placements]
  | ddp replicas shards => simp [effectivePlacements,Mesh.deviceMesh,Mesh.placements]

theorem effective_inferred (placements : List Placement) : effectivePlacements ["fsdp"] placements = placements := by
  simp [effectivePlacements]

/-- All shards of one replica. -/
theorem mergeKey_shards (mesh : Mesh) (some : 0 < mesh.shards) (entry : Entry α mesh.shards) :
    mergeKey [mesh.shards] (gatheredEntry mesh.deviceMesh.meshDimNames entry mesh.shards) = .ok entry.full ↔
      entry.Gathers := by
  have filled : mesh.shards ≠ 0 := by omega
  have places : ∀ rank ∈ List.range mesh.shards, mesh.place rank = rank :=
    fun rank member => Nat.mod_eq_of_lt (List.mem_range.mp member)
  cases entry with
  | sharded full dim axis sizes count cover =>
    have parts : (List.range mesh.shards).map (fun rank => full.part dim axis sizes (mesh.place rank)) =
        (List.range sizes.length).map (full.part dim axis sizes) := by
      rw [count]
      exact List.map_congr_left (fun rank member => by rw [places rank member])
    have whole := cat_parts full dim axis sizes (fun none => filled (by rw [← count,none]; rfl)) cover
    simp [mergeKey,gatheredEntry,filled,Entry.placement,Entry.localTensor,effective_own,mergeByPlacement,parts,whole,
      Entry.Gathers,Entry.full]
  | replicated full =>
    obtain ⟨more,size⟩ := Nat.exists_eq_succ_of_ne_zero filled
    simp [mergeKey,gatheredEntry,Entry.placement,Entry.localTensor,effective_own,mergeByPlacement,size,
      List.range_succ_eq_map,Entry.Gathers,Entry.full]
  | buffer full =>
    have copies : (List.range mesh.shards).map (fun _ => full) = List.replicate mesh.shards full := by simp
    simp only [mergeKey,gatheredEntry,filled,Entry.placement,Entry.localTensor,Option.map_none,ite_self,copies,
      Entry.Gathers,Entry.full]
    by_cases axis : 0 < full.shape.length
    · rw [cat_copies 0 mesh.shards full some axis]
      simp [List.ne_nil_of_length_pos axis]
    · obtain scalar : full.shape = [] := List.length_eq_zero_iff.mp (by omega)
      simp [cat,scalar,filled]

theorem cat_first (full : ShapedTensor α) (dim : Nat) (axis : dim < full.shape.length) (sizes : List Nat)
    (cover : sizes.sum = full.extent dim) (some : sizes ≠ []) :
    cat dim [full.part dim axis sizes 0] = .ok full ↔ Ragged.len sizes 0 = full.extent dim := by
  obtain ⟨size,rest,rfl⟩ := List.exists_cons_of_ne_nil some
  constructor
  · intro whole
    have fits : ∀ u ∈ [full.part dim axis (size :: rest) 0], Fits dim full u := by
      intro u single
      rw [List.mem_singleton.mp single]
      exact part_fits full dim axis _ 0 (by simp) cover
    have extents := cat_extent dim full _ (by simp) axis fits whole
    have own := full.narrow_extent dim _ _ axis (part_inside full dim (size :: rest) 0 (by simp) cover)
    rw [catExtent,List.map_singleton,List.sum_singleton] at extents
    exact own.symm.trans extents
  · intro all
    exact cat_parts full dim axis [size] (by simp) (by simpa [Ragged.len] using all)

/-- The file of rank 0 alone. -/
theorem mergeKey_first (mesh : Mesh) (some : 0 < mesh.shards) (entry : Entry α mesh.shards) :
    mergeKey [1] (gatheredEntry ["fsdp"] entry 1) = .ok entry.full ↔ entry.WholeFirst mesh := by
  have place : mesh.place 0 = 0 := Nat.zero_mod _
  cases entry with
  | sharded full dim axis sizes count cover =>
    have filled : sizes ≠ [] := List.ne_nil_of_length_pos (by omega)
    cases mesh with
    | fsdp shards =>
      simp [mergeKey,gatheredEntry,Entry.placement,Entry.localTensor,effective_inferred,Mesh.placements,
        mergeByPlacement,place,cat_first full dim axis sizes cover filled,Entry.WholeFirst,Entry.full,Mesh.shards]
    | ddp replicas shards =>
      simp [mergeKey,gatheredEntry,Entry.placement,effective_inferred,Mesh.placements,Entry.WholeFirst]
  | replicated full =>
    cases mesh with
    | fsdp shards =>
      simp [mergeKey,gatheredEntry,Entry.placement,Entry.localTensor,effective_inferred,Mesh.placements,
        mergeByPlacement,Entry.WholeFirst,Entry.full,Mesh.shards]
    | ddp replicas shards =>
      simp [mergeKey,gatheredEntry,Entry.placement,effective_inferred,Mesh.placements,Entry.WholeFirst]
  | buffer full =>
    simp only [mergeKey,gatheredEntry,Entry.placement,Entry.localTensor,Option.map_none,ite_self,Entry.WholeFirst,
      Entry.full]
    by_cases axis : 0 < full.shape.length
    · have copies := cat_copies 0 1 full Nat.zero_lt_one axis
      simpa [List.ne_nil_of_length_pos axis] using copies
    · obtain scalar : full.shape = [] := List.length_eq_zero_iff.mp (by omega)
      simp [cat,scalar]

section Run

variable (bfloat16 : α → α) (files : Directory α) (mesh : Mesh) (state : ModelState α mesh)

theorem written_files (written : Written files mesh state) :
    ∃ file : Nat → StateDict α, ∀ rank, rank < mesh.worldSize →
      load files mesh.worldSize rank = .ok (file rank) ∧
        ∀ key, (file rank).get? key = (state.get? key).map (Entry.saved mesh rank) := by
  apply Exists.intro (fun rank => (files mesh.worldSize rank).getD .empty)
  intro rank below
  obtain ⟨stateDict,there,reads⟩ := written rank below
  simp only [load,there,Option.getD_some]
  exact ⟨trivial,reads⟩

/-- The merge of the first `count` files, name by name. -/
theorem loadAndMerge_iff (written : Written files mesh state)
    (fixed : ∀ k e, state.get? k = some e → ∀ x ∈ e.full.data, bfloat16 x = x) (count : Nat) (positive : 0 < count)
    (inside : count ≤ mesh.worldSize) (meshShape : List Nat) (names : List String) :
    (∃ merged, loadAndMergeStateDicts bfloat16 files mesh.worldSize count meshShape names = .ok merged ∧
        ∀ k, merged.get? k = (state.get? k).map Entry.full) ↔
      ∀ k e, state.get? k = some e → mergeKey meshShape (gatheredEntry names e count) = .ok e.full := by
  obtain ⟨file,loaded⟩ := written_files files mesh state written
  obtain ⟨before,rfl⟩ := Nat.exists_eq_succ_of_ne_zero (Nat.ne_of_gt positive)
  have shards : (List.range (before + 1)).mapM (load files mesh.worldSize) = .ok ((List.range (before + 1)).map file) :=
    LocalLoop.mapM_ok _ _ _ (fun rank member =>
      (loaded rank (Nat.lt_of_lt_of_le (List.mem_range.mp member) inside)).1)
  have first := (loaded 0 (Nat.lt_of_lt_of_le positive inside)).2
  have gather : ∀ k e, state.get? k = some e →
      gatherKey bfloat16 names ((List.range (before + 1)).map file) k = .ok (gatheredEntry names e (before + 1)) := by
    intro k e here
    apply gatherKey_entry bfloat16 names k e file _ _ (fixed k e here)
    intro rank below
    rw [(loaded rank (Nat.lt_of_lt_of_le below inside)).2 k,here,Option.map_some]
  obtain ⟨gathered,run,reads⟩ := OrderedDict.mapValuesM_get?
    (fun key _ => gatherKey bfloat16 names ((List.range (before + 1)).map file) key) (file 0) (by
      intro k v found
      rw [first k] at found
      obtain ⟨e,here,_⟩ := Option.map_eq_some_iff.mp found
      exact ⟨_,gather k e here⟩)
  have known : ∀ k, gathered.get? k = (state.get? k).map (fun e => gatheredEntry names e (before + 1)) := by
    intro k
    rw [reads k,first k]
    cases here : state.get? k with
    | none => rfl
    | some e =>
      rw [Option.map_some,Option.bind_some,gather k e here]
      rfl
  have whole : loadAndMergeStateDicts bfloat16 files mesh.worldSize (before + 1) meshShape names =
      gathered.mapValuesM (fun _ g => mergeKey meshShape g) := by
    rw [loadAndMergeStateDicts,shards]
    rw [List.range_succ_eq_map,List.map_cons] at run ⊢
    change (OrderedDict.mapValuesM _ (file 0) >>= _) = _
    rw [run]
    rfl
  rw [whole,OrderedDict.mapValuesM_reads _ _ _ (fun k => by rw [known k]; simp)]
  constructor
  · intro each k e here
    obtain ⟨w,full,made⟩ := each k _ (by rw [known k,here,Option.map_some])
    rw [here,Option.map_some] at full
    rw [made,Option.some.inj full]
  · intro each k g found
    rw [known k] at found
    obtain ⟨e,here,rfl⟩ := Option.map_eq_some_iff.mp found
    exact ⟨e.full,by rw [here,Option.map_some],each k e here⟩

/-- The first name in sorted order is the same in the model and in the file. -/
theorem pivot_eq (rank : Nat) (stateDict : StateDict α)
    (reads : ∀ key, stateDict.get? key = (state.get? key).map (Entry.saved mesh rank)) :
    stateDict.keys.insertionSort (· ≤ ·) = state.keys.insertionSort (· ≤ ·) := by
  have keys : stateDict.keys.Perm state.keys := by
    apply (List.perm_ext_iff_of_nodup stateDict.distinct state.distinct).mpr
    intro key
    have present := reads key
    apply (stateDict.mem_keys key).trans
    rw [present,Option.isSome_map]
    exact (state.mem_keys key).symm
  apply List.Perm.eq_of_pairwise' (List.pairwise_insertionSort _ _) (List.pairwise_insertionSort _ _)
  exact (List.perm_insertionSort _ _).trans (keys.trans (List.perm_insertionSort _ _).symm)

theorem extract_entry (rankZero : StateDict α)
    (reads : ∀ key, rankZero.get? key = (state.get? key).map (Entry.saved mesh 0)) (key : String)
    (entry : Entry α mesh.shards) (pivot : (state.keys.insertionSort (· ≤ ·)).head? = some key)
    (here : state.get? key = some entry) :
    extractDeviceMeshInfo rankZero mesh.worldSize =
      .ok (if entry.placement.isSome then mesh.deviceMesh else ⟨.vector [mesh.worldSize],["fsdp"]⟩) := by
  rw [extractDeviceMeshInfo,pivot_eq mesh state 0 rankZero reads,pivot]
  simp only [reads key,here,Option.map_some,Entry.saved]
  cases entry.placement with
  | none => rfl
  | some placement => rfl

theorem calculate_own : calculateShardConfiguration mesh.deviceMesh = .ok (mesh.shards,[mesh.shards]) := by
  cases mesh with
  | fsdp shards => simp [calculateShardConfiguration,Mesh.deviceMesh,ShapedTensor.vector,Mesh.shards]
  | ddp replicas shards => simp [calculateShardConfiguration,Mesh.deviceMesh,Mesh.shards]

theorem calculate_inferred (worldSize : Nat) :
    calculateShardConfiguration ⟨.vector [worldSize],["fsdp"]⟩ = .ok (1,[1]) := by
  simp [calculateShardConfiguration,ShapedTensor.vector]

theorem shards_bound (some : 0 < mesh.worldSize) : 0 < mesh.shards ∧ mesh.shards ≤ mesh.worldSize := by
  cases mesh with
  | fsdp shards => exact ⟨some,Nat.le_refl _⟩
  | ddp replicas shards =>
    have both := Nat.pos_iff_ne_zero.mp some
    simp only [Mesh.worldSize,ne_eq,Nat.mul_eq_zero,not_or] at both
    exact ⟨Nat.pos_of_ne_zero both.2,Nat.le_mul_of_pos_left _ (Nat.pos_of_ne_zero both.1)⟩

/-- Merging gives every entry back in full exactly when the entry that sorts first fits the others. -/
theorem merge_shards_iff (positive : 0 < mesh.worldSize) (written : Written files mesh state)
    (fixed : ∀ k e, state.get? k = some e → ∀ x ∈ e.full.data, bfloat16 x = x) :
    (∃ merged, mergedStateDict bfloat16 files mesh.worldSize = .ok merged ∧
        ∀ k, merged.get? k = (state.get? k).map Entry.full) ↔ Mergeable mesh state := by
  obtain ⟨rankZero,there,reads⟩ := written 0 positive
  have loaded : load files mesh.worldSize 0 = .ok rankZero := by rw [load,there]
  obtain ⟨filled,inside⟩ := shards_bound mesh positive
  cases pivot : (state.keys.insertionSort (· ≤ ·)).head? with
  | none =>
    have fails : extractDeviceMeshInfo rankZero mesh.worldSize = .error "list index out of range" := by
      rw [extractDeviceMeshInfo,pivot_eq mesh state 0 rankZero reads,pivot]
    constructor
    · rintro ⟨merged,run,_⟩
      rw [mergedStateDict,loaded] at run
      change (extractDeviceMeshInfo rankZero mesh.worldSize >>= _) = _ at run
      rw [fails] at run
      cases run
    · rintro ⟨key,entry,first,_⟩
      rw [pivot] at first
      cases first
  | some key =>
    have member := List.mem_insertionSort (· ≤ ·) |>.mp (List.mem_of_head? pivot)
    obtain ⟨entry,here⟩ := Option.isSome_iff_exists.mp ((state.mem_keys key).mp member)
    have info := extract_entry mesh state rankZero reads key entry pivot here
    have chosen : Mergeable mesh state ↔
        if entry.placement.isSome then ∀ k e, state.get? k = some e → e.Gathers
        else ∀ k e, state.get? k = some e → e.WholeFirst mesh := by
      constructor
      · rintro ⟨k,e,first,found,fits⟩
        obtain rfl : key = k := Option.some.inj (pivot.symm.trans first)
        obtain rfl : entry = e := Option.some.inj (here.symm.trans found)
        exact fits
      · exact fun fits => ⟨key,entry,pivot,here,fits⟩
    rw [chosen]
    by_cases distributed : entry.placement.isSome
    · rw [if_pos distributed] at info ⊢
      have run : mergedStateDict bfloat16 files mesh.worldSize =
          loadAndMergeStateDicts bfloat16 files mesh.worldSize mesh.shards [mesh.shards]
            mesh.deviceMesh.meshDimNames := by
        simp only [mergedStateDict,loaded,info,calculate_own,bind,Except.bind]
      have each := loadAndMerge_iff bfloat16 files mesh state written fixed mesh.shards filled inside [mesh.shards]
        mesh.deviceMesh.meshDimNames
      rw [run,each]
      exact forall_congr' fun k => forall_congr' fun e => imp_congr_right fun _ => mergeKey_shards mesh filled e
    · rw [if_neg distributed] at info ⊢
      have run : mergedStateDict bfloat16 files mesh.worldSize =
          loadAndMergeStateDicts bfloat16 files mesh.worldSize 1 [1] ["fsdp"] := by
        simp only [mergedStateDict,loaded,info,calculate_inferred,bind,Except.bind]
      have each := loadAndMerge_iff bfloat16 files mesh state written fixed 1 Nat.zero_lt_one positive [1] ["fsdp"]
      rw [run,each]
      exact forall_congr' fun k => forall_congr' fun e => imp_congr_right fun _ => mergeKey_first mesh filled e

end Run

section Examples

theorem vector_axis (xs : List Nat) : 0 < (ShapedTensor.vector xs).shape.length := Nat.zero_lt_one

theorem pair_count : [1,1].length = (Mesh.fsdp 2).shards := rfl

theorem pair_cover : [1,1].sum = (ShapedTensor.vector [5,6]).extent 0 := rfl

/-- A weight of two rows on two ranks, and a buffer. -/
def pairState : ModelState Nat (.fsdp 2) :=
  (OrderedDict.empty.set "embed_tokens.weight" (.sharded (.vector [5,6]) 0 (vector_axis _) [1,1] pair_count pair_cover)).set
    "rotary_emb.inv_freq" (.buffer (.vector [7]))

theorem hybrid_count : [2,0].length = (Mesh.ddp 2 2).shards := rfl

theorem hybrid_cover : [2,0].sum = (ShapedTensor.vector [5,6]).extent 0 := rfl

/-- The second shard of each replica is empty. -/
def hybridState : ModelState Nat (.ddp 2 2) :=
  (OrderedDict.empty.set "norm.weight" (.replicated (.vector [3]))).set
    "lm_head.weight" (.sharded (.vector [5,6]) 0 (vector_axis _) [2,0] hybrid_count hybrid_cover)

theorem merge_shards_hybrid :
    ∃ merged, mergedStateDict id (saveCheckpoint (.ddp 2 2) hybridState) (Mesh.ddp 2 2).worldSize = .ok merged ∧
      ∀ k, merged.get? k = (hybridState.get? k).map Entry.full := by
  apply (merge_shards_iff id _ (.ddp 2 2) hybridState (by decide) (saveCheckpoint_written _ _)
    (fun _ _ _ _ _ => rfl)).mpr
  refine ⟨"lm_head.weight",_,by decide,rfl,?_⟩
  rw [if_pos (by decide)]
  intro k e found
  have member := (hybridState.mem_entries k e).mpr found
  simp [hybridState,OrderedDict.set,OrderedDict.empty,OrderedDict.keys] at member
  rcases member with ⟨_,rfl⟩ | ⟨_,rfl⟩
  · trivial
  · trivial

/-- The buffer comes back once for each rank. -/
theorem buffer_repeated :
    Written (saveCheckpoint (.fsdp 2) pairState) (.fsdp 2) pairState ∧
      (∀ k e, pairState.get? k = some e → ∀ x ∈ e.full.data, id x = x) ∧
      ¬ ∃ merged, mergedStateDict id (saveCheckpoint (.fsdp 2) pairState) (Mesh.fsdp 2).worldSize = .ok merged ∧
        ∀ k, merged.get? k = (pairState.get? k).map Entry.full := by
  refine ⟨saveCheckpoint_written _ _,fun _ _ _ _ _ => rfl,?_⟩
  rintro ⟨merged,run,reads⟩
  have doubled : ((mergedStateDict id (saveCheckpoint (.fsdp 2) pairState) 2).toOption.bind
      (fun d => d.get? "rotary_emb.inv_freq")).map ShapedTensor.data = some [7,7] := by decide
  have once := congrArg (Option.map ShapedTensor.data) (reads "rotary_emb.inv_freq")
  change mergedStateDict id (saveCheckpoint (.fsdp 2) pairState) 2 = .ok merged at run
  rw [run] at doubled
  change Option.map ShapedTensor.data (merged.get? "rotary_emb.inv_freq") = some [7,7] at doubled
  rw [doubled] at once
  revert once
  decide

end Examples

end RelayOpd.ModelMerger
