import RelayOpd.GroupAdvantage
import RelayOpd.GroupBy
import RelayOpd.LocalLoop
import Mathlib.Data.List.MinMax

/-! Validation metrics by data source, uid and variable (`process_validation_metrics`). Values that
are neither numbers nor skipped stop it. -/
namespace RelayOpd.ValidationMetrics

inductive Value (𝕜 : Type) where
  | number (x : 𝕜)
  | text (text : String)
  | missing
deriving DecidableEq

/-- `np.random.choice(n, size=(n_bootstrap, subset_size))` after the seed. -/
structure Choice where
  draw : Nat → Nat → List (List Nat)
  size : ∀ n subsetSize, ∀ row ∈ draw n subsetSize, row.length = subsetSize
  inside : ∀ n subsetSize, 0 < n → ∀ row ∈ draw n subsetSize, ∀ i ∈ row, i < n

/-- `xs[i]`. -/
def item (xs : List α) (i : Nat) : Except String α :=
  match xs[i]? with
  | some x => .ok x
  | none => .error "list index out of range"

section Source

variable {𝕜 : Type} [Field 𝕜] [LinearOrder 𝕜] (sqrt : 𝕜 → 𝕜) (choice : Choice)

def Value.toNumber : Value 𝕜 → Except String 𝕜
  | .number x => .ok x
  | .text _ => .error "cannot perform reduce with flexible type"
  | .missing => .error "unsupported operand type(s) for /: 'NoneType' and 'int'"

/-- `np.mean`; only numbers can be added. -/
def npMean (xs : List (Value 𝕜)) : Except String 𝕜 := do
  let numbers ← xs.mapM Value.toNumber
  return mean numbers

/-- `np.std` of numbers. -/
def stdNumbers (xs : List 𝕜) : 𝕜 := sqrt (mean (xs.map (fun x => (x - mean xs) ^ 2)))

def npStd (xs : List (Value 𝕜)) : Except String 𝕜 := do
  let numbers ← xs.mapM Value.toNumber
  return stdNumbers sqrt numbers

def extremum (best : List 𝕜 → Option 𝕜) (xs : List (Value 𝕜)) : Except String 𝕜 := do
  let numbers ← xs.mapM Value.toNumber
  match best numbers with
  | some x => return x
  | none => .error "zero-size array to reduction operation"

def npMax (xs : List (Value 𝕜)) : Except String 𝕜 := extremum List.max? xs

def npMin (xs : List (Value 𝕜)) : Except String 𝕜 := extremum List.min? xs

/-- The mean and the deviation of each reduction over the drawn samples. -/
def bootstrapMetric (data : List α) (subsetSize : Nat) (reduceFns : List (List α → Except String 𝕜)) :
    Except String (List (𝕜 × 𝕜)) :=
  reduceFns.mapM (fun reduceFn => do
    let results ← (choice.draw data.length subsetSize).mapM (fun row => do
      let sample ← row.mapM (item data)
      reduceFn sample)
    return (mean results,stdNumbers sqrt results))

/-- Pairs of a value and its vote; the value of the first most common vote. -/
def calcMajVal (data : List (Value 𝕜 × Value 𝕜)) : Except String 𝕜 :=
  let vote2vals := data.foldl (fun d pair => GroupBy.append d pair.2 pair.1) .empty
  match vote2vals.entries.argmax (fun entry => entry.2.length) with
  | none => .error "max() arg is an empty sequence"
  | some entry => do
    let val ← item entry.2 0
    val.toNumber

/-- Powers of two below `limit`, from `n` on, and `limit` itself. -/
def nsFrom : Nat → Nat → Nat → List Nat
  | 0,_,limit => [limit]
  | fuel + 1,n,limit => if n < limit then n :: nsFrom fuel (2 * n) limit else [limit]

def genNs (nResps : Nat) : List Nat := if nResps ≤ 1 then [] else nsFrom nResps 2 nResps

def metricsAt (varVals : List (Value 𝕜)) (predVals : Option (List (Value 𝕜))) (n : Nat) :
    Except String (List (String × 𝕜)) := do
  let bounds ← bootstrapMetric sqrt choice varVals n [npMax,npMin]
  let bestWorst := (["best","worst"].zip bounds).flatMap (fun entry =>
    [(s!"{entry.1}@{n}/mean",entry.2.1),(s!"{entry.1}@{n}/std",entry.2.2)])
  match predVals with
  | none => return bestWorst
  | some preds =>
    if preds.length ≠ varVals.length then .error "zip() argument 2 is shorter or longer than argument 1"
    else do
      let majority ← bootstrapMetric sqrt choice (varVals.zip preds) n [calcMajVal]
      return bestWorst ++ majority.flatMap (fun maj => [(s!"maj@{n}/mean",maj.1),(s!"maj@{n}/std",maj.2)])

/-- `not var_vals or isinstance(var_vals[0], str)`. -/
def skipped : List (Value 𝕜) → Bool
  | [] => true
  | .text _ :: _ => true
  | _ => false

/-- The metrics of one variable of a group, or nothing when it is skipped. -/
def varMetric (varVals : List (Value 𝕜)) (predVals : Option (List (Value 𝕜))) :
    Except String (Option (List (String × 𝕜))) :=
  if skipped varVals then .ok none
  else do
    let nResps := varVals.length
    let meanMetric ← npMean varVals
    if nResps ≤ 1 then return some [(s!"mean@{nResps}",meanMetric)]
    let stdMetric ← npStd sqrt varVals
    let rest ← (genNs nResps).mapM (metricsAt sqrt choice varVals predVals)
    return some ((s!"mean@{nResps}",meanMetric) :: (s!"std@{nResps}",stdMetric) :: rest.flatten)

abbrev Vars (𝕜 : Type) := OrderedDict String (List (Value 𝕜))

abbrev Grouped (𝕜 : Type) := OrderedDict String (OrderedDict (List Char) (Vars 𝕜))

/-- One sample put into its group. -/
def addSample (sampleUids : List (List Char)) (infosDict : Vars 𝕜) (grouped : Grouped 𝕜) (sample : String × Nat) :
    Except String (Grouped 𝕜) := do
  let uid ← item sampleUids sample.2
  let uid2vars := grouped.getD sample.1 .empty
  let var2vals ← infosDict.entries.foldlM (fun vars entry => do
    let val ← item entry.2 sample.2
    return GroupBy.append vars entry.1 val) (uid2vars.getD uid .empty)
  return grouped.set sample.1 (uid2vars.set uid var2vals)

/-- The means over the uids of a data source, by variable and metric. -/
def aggregate (uid2var2metric : OrderedDict (List Char) (OrderedDict String (Option (List (String × 𝕜))))) :
    OrderedDict String (OrderedDict String 𝕜) :=
  let addVar := fun (acc : OrderedDict String (OrderedDict String (List 𝕜))) (var : String × Option (List (String × 𝕜))) =>
    var.2.elim acc (fun metrics => acc.set var.1 (metrics.foldl (fun d metric =>
      GroupBy.append d metric.1 metric.2) (acc.getD var.1 .empty)))
  let vals := uid2var2metric.entries.foldl (fun acc uid => uid.2.entries.foldl addVar acc) .empty
  vals.mapWithKey (fun _ metric2vals => metric2vals.mapWithKey (fun _ xs => mean xs))

def processValidationMetrics (dataSources : List String) (sampleUids : List (List Char)) (infosDict : Vars 𝕜) :
    Except String (OrderedDict String (OrderedDict String (OrderedDict String 𝕜))) := do
  let grouped ← dataSources.zipIdx.foldlM (addSample sampleUids infosDict) .empty
  let metrics ← grouped.mapValuesM (fun _ uid2vars => uid2vars.mapValuesM (fun _ var2vals =>
    var2vals.mapValuesM (fun _ varVals => varMetric sqrt choice varVals (var2vals.get? "pred"))))
  return metrics.mapWithKey (fun _ uid2var2metric => aggregate uid2var2metric)

end Source

section Single

variable {𝕜 : Type} [Field 𝕜] [LinearOrder 𝕜] (sqrt : 𝕜 → 𝕜) (choice : Choice)

def IsNumber (v : Value 𝕜) : Prop := ∃ x, v = .number x

/-- What a variable of a group may hold: text first, or numbers only. -/
def Fine (varVals : List (Value 𝕜)) : Prop := skipped varVals = true ∨ ∀ v ∈ varVals, IsNumber v

theorem item_ok (xs : List α) (i : Nat) (inside : i < xs.length) : item xs i = .ok xs[i] := by
  rw [item,List.getElem?_eq_getElem inside]

omit [Field 𝕜] [LinearOrder 𝕜] in
theorem toNumber_ok (v : Value 𝕜) (numeric : IsNumber v) : ∃ x, v.toNumber = .ok x := by
  obtain ⟨x,rfl⟩ := numeric
  exact ⟨x,rfl⟩

omit [Field 𝕜] [LinearOrder 𝕜] in
theorem numbers_ok (xs : List (Value 𝕜)) (numeric : ∀ v ∈ xs, IsNumber v) :
    ∃ ns, xs.mapM Value.toNumber = .ok ns ∧ ns.length = xs.length := by
  obtain ⟨ns,made,paired⟩ := LocalLoop.mapM_exists Value.toNumber (fun _ _ => True) xs (fun v member => by
    obtain ⟨x,read⟩ := toNumber_ok v (numeric v member)
    exact ⟨x,read,trivial⟩)
  exact ⟨ns,made,paired.length_eq.symm⟩

omit [LinearOrder 𝕜] in
theorem npMean_iff (xs : List (Value 𝕜)) : (∃ m, npMean xs = .ok m) ↔ ∀ v ∈ xs, IsNumber v := by
  constructor
  · rintro ⟨m,run⟩
    cases numbers : xs.mapM Value.toNumber with
    | error e =>
      rw [npMean,numbers] at run
      cases run
    | ok ns =>
      intro v member
      obtain ⟨x,_,read⟩ := (LocalLoop.mapM_made Value.toNumber xs ns numbers).2 v member
      cases v with
      | number x => exact ⟨x,rfl⟩
      | text text => cases read
      | missing => cases read
  · intro numeric
    obtain ⟨ns,made,_⟩ := numbers_ok xs numeric
    rw [npMean,made]
    exact ⟨_,rfl⟩

omit [Field 𝕜] [LinearOrder 𝕜] in
theorem extremum_ok (best : List 𝕜 → Option 𝕜) (found : ∀ ns, ns ≠ [] → ∃ x, best ns = some x) (xs : List (Value 𝕜))
    (some : xs ≠ []) (numeric : ∀ v ∈ xs, IsNumber v) : ∃ x, extremum best xs = .ok x := by
  obtain ⟨ns,made,length⟩ := numbers_ok xs numeric
  have filled : ns ≠ [] := by
    rintro rfl
    exact some (List.length_eq_zero_iff.mp length.symm)
  obtain ⟨x,top⟩ := found ns filled
  rw [extremum,made]
  simp only [bind,Except.bind,top]
  exact ⟨x,rfl⟩

omit [Field 𝕜] in
/-- Every vote has a value of the data to its name. -/
theorem votes_grouped (data : List (Value 𝕜 × Value 𝕜)) :
    data.foldl (fun d pair => GroupBy.append d pair.2 pair.1) .empty =
      GroupBy.groupBy (fun i => (data.get i).2) (fun i => (data.get i).1) := by
  have whole : (List.finRange data.length).map data.get = data := by simp
  conv_lhs => rw [← whole,List.foldl_map]
  rfl

omit [Field 𝕜] in
theorem calcMajVal_ok (data : List (Value 𝕜 × Value 𝕜)) (some : data ≠ []) (numeric : ∀ pair ∈ data, IsNumber pair.1) :
    ∃ x, calcMajVal data = .ok x := by
  rw [calcMajVal,votes_grouped]
  cases winner : (GroupBy.groupBy (fun i => (data.get i).2) (fun i => (data.get i).1)).entries.argmax
      (fun entry => entry.2.length) with
  | none =>
    have empty := List.argmax_eq_none.mp winner
    have entry := GroupBy.groupBy_entry (fun i => (data.get i).2) (fun i => (data.get i).1)
      ⟨0,List.length_pos_iff.mpr some⟩
    rw [empty] at entry
    cases entry
  | some entry =>
    have member := List.argmax_mem winner
    obtain ⟨⟨i,vote⟩,values⟩ := GroupBy.groupBy_entries _ _ entry member
    have held : i ∈ GroupBy.members (fun i => (data.get i).2) entry.1 := (GroupBy.mem_members _ _ i).mpr vote
    have filled : 0 < entry.2.length := by
      rw [values,List.length_map]
      exact List.length_pos_of_mem held
    have all : ∀ v ∈ entry.2, IsNumber v := by
      rw [values]
      intro v member
      obtain ⟨j,_,rfl⟩ := List.mem_map.mp member
      exact numeric _ (List.get_mem data j)
    obtain ⟨x,read⟩ := toNumber_ok _ (all _ (List.getElem_mem filled))
    exact ⟨x,by simp only [item_ok entry.2 0 filled,bind,Except.bind,read]⟩

omit [LinearOrder 𝕜] in
/-- Samples of a reduction that works on every sample of the size. -/
theorem bootstrapMetric_ok (data : List α) (subsetSize : Nat) (some : data ≠ [])
    (reduceFns : List (List α → Except String 𝕜))
    (works : ∀ reduceFn ∈ reduceFns, ∀ sample : List α, sample.length = subsetSize → (∀ x ∈ sample, x ∈ data) →
      ∃ y, reduceFn sample = .ok y) :
    ∃ result, bootstrapMetric sqrt choice data subsetSize reduceFns = .ok result := by
  have each : ∀ reduceFn ∈ reduceFns, ∃ y, (do
      let results ← (choice.draw data.length subsetSize).mapM (fun row => do
        let sample ← row.mapM (item data)
        reduceFn sample)
      return (mean results,stdNumbers sqrt results) : Except String (𝕜 × 𝕜)) = .ok y ∧ True := by
    intro reduceFn member
    obtain ⟨results,made,_⟩ := LocalLoop.mapM_exists (fun row : List Nat => do
        let sample ← row.mapM (item data)
        reduceFn sample) (fun _ _ => True) (choice.draw data.length subsetSize) (fun row drawn => by
      have inside := choice.inside data.length subsetSize (List.length_pos_iff.mpr some) row drawn
      obtain ⟨sample,read,paired⟩ := LocalLoop.mapM_exists (item data) (fun _ x => x ∈ data) row (fun i place => by
        exact ⟨_,item_ok data i (inside i place),List.getElem_mem _⟩)
      have members : ∀ x ∈ sample, x ∈ data := by
        intro x member
        obtain ⟨_,_,inside⟩ := LocalLoop.forall₂_source paired x member
        exact inside
      obtain ⟨y,value⟩ := works reduceFn member sample (paired.length_eq.symm.trans (choice.size _ _ row drawn)) members
      exact ⟨y,by rw [read]; exact value,trivial⟩)
    rw [made]
    exact ⟨_,rfl,trivial⟩
  obtain ⟨result,made,_⟩ := LocalLoop.mapM_exists _ (fun _ _ => True) reduceFns each
  exact ⟨result,made⟩

theorem nsFrom_ge (bound fuel n limit : Nat) (start : bound ≤ n) (stop : bound ≤ limit) :
    ∀ m ∈ nsFrom fuel n limit, bound ≤ m := by
  induction fuel generalizing n with
  | zero =>
    intro m member
    rw [List.mem_singleton.mp member]
    exact stop
  | succ fuel ih =>
    intro m member
    rw [nsFrom] at member
    split at member
    · rcases List.mem_cons.mp member with rfl | later
      · exact start
      · exact ih (2 * n) (by omega) m later
    · rw [List.mem_singleton.mp member]
      exact stop

theorem two_le_of_mem_genNs (nResps n : Nat) (member : n ∈ genNs nResps) : 2 ≤ n := by
  rw [genNs] at member
  split at member
  · cases member
  · exact nsFrom_ge 2 nResps 2 nResps (by omega) (by omega) n member

theorem metricsAt_ok (varVals : List (Value 𝕜)) (predVals : Option (List (Value 𝕜)))
    (same : ∀ preds ∈ predVals, preds.length = varVals.length) (some : varVals ≠ [])
    (numeric : ∀ v ∈ varVals, IsNumber v) (n : Nat) (positive : 0 < n) :
    ∃ metrics, metricsAt sqrt choice varVals predVals n = .ok metrics := by
  have filled : ∀ {δ : Type} (sample : List δ), sample.length = n → sample ≠ [] := by
    intro δ sample length
    apply List.ne_nil_of_length_pos
    omega
  obtain ⟨bounds,made⟩ := bootstrapMetric_ok sqrt choice varVals n some [npMax,npMin] (by
    intro reduceFn member sample length inside
    have held : ∀ v ∈ sample, IsNumber v := fun v member => numeric v (inside v member)
    rcases List.mem_cons.mp member with rfl | later
    · apply extremum_ok _ _ sample (filled sample length) held
      intro ns some
      exact Option.isSome_iff_exists.mp (List.isSome_max?_of_ne_nil some)
    · rw [List.mem_singleton.mp later]
      apply extremum_ok _ _ sample (filled sample length) held
      intro ns some
      exact Option.isSome_iff_exists.mp (List.isSome_min?_of_ne_nil some))
  rw [metricsAt,made]
  cases voted : predVals with
  | none => exact ⟨_,rfl⟩
  | some preds =>
    have lengths := same preds (by rw [voted]; rfl)
    have pairs : varVals.zip preds ≠ [] := by
      apply List.ne_nil_of_length_pos
      rw [List.length_zip,lengths,Nat.min_self]
      exact List.length_pos_iff.mpr some
    obtain ⟨majority,voting⟩ := bootstrapMetric_ok sqrt choice (varVals.zip preds) n pairs [calcMajVal] (by
      intro reduceFn member sample length inside
      rw [List.mem_singleton.mp member]
      apply calcMajVal_ok sample (filled sample length)
      intro pair drawn
      exact numeric _ (List.of_mem_zip (inside pair drawn)).1)
    simp only [bind,Except.bind,lengths,ne_eq,not_true_eq_false,if_false,voting]
    exact ⟨_,rfl⟩

theorem varMetric_iff (varVals : List (Value 𝕜)) (predVals : Option (List (Value 𝕜)))
    (same : ∀ preds ∈ predVals, preds.length = varVals.length) :
    (∃ metric, varMetric sqrt choice varVals predVals = .ok metric) ↔ Fine varVals := by
  by_cases skip : skipped varVals = true
  · rw [varMetric,if_pos skip]
    exact ⟨fun _ => .inl skip,fun _ => ⟨_,rfl⟩⟩
  · rw [varMetric,if_neg skip]
    constructor
    · rintro ⟨metric,run⟩
      right
      apply (npMean_iff varVals).mp
      cases averaged : npMean varVals with
      | error e =>
        rw [averaged] at run
        cases run
      | ok m => exact ⟨m,rfl⟩
    · intro fine
      have numeric := fine.resolve_left skip
      have some : varVals ≠ [] := by
        rintro rfl
        exact skip rfl
      obtain ⟨m,averaged⟩ := (npMean_iff varVals).mpr numeric
      obtain ⟨ns,numbers,_⟩ := numbers_ok varVals numeric
      obtain ⟨rest,made,_⟩ := LocalLoop.mapM_exists (metricsAt sqrt choice varVals predVals) (fun _ _ => True)
        (genNs varVals.length) (fun n member => by
          have two := two_le_of_mem_genNs varVals.length n member
          obtain ⟨metrics,value⟩ := metricsAt_ok sqrt choice varVals predVals same some numeric n (by omega)
          exact ⟨metrics,value,trivial⟩)
      simp only [averaged,bind,Except.bind,npStd,numbers,made,pure,Except.pure]
      split
      · exact ⟨_,rfl⟩
      · exact ⟨_,rfl⟩

end Single

section Groups

variable {𝕜 : Type} (dataSources : List String) (sampleUids : List (List Char)) (infosDict : Vars 𝕜)

/-- The first `count` samples that belong to a data source and a uid. -/
def groupIndices (count : Nat) (dataSource : Option String) (uid : Option (List Char)) : List Nat :=
  (List.range count).filter (fun j => dataSources[j]? = dataSource ∧ sampleUids[j]? = uid)

def valuesAt (vals : List (Value 𝕜)) (indices : List Nat) : List (Value 𝕜) :=
  indices.map (fun j => vals.getD j .missing)

def groupOf (grouped : Grouped 𝕜) (dataSource : String) (uid : List Char) : Option (Vars 𝕜) :=
  (grouped.get? dataSource).bind (fun uid2vars => uid2vars.get? uid)

/-- What the groups hold after the first `count` samples. -/
def Holds (grouped : Grouped 𝕜) (count : Nat) : Prop :=
  ∀ dataSource uid,
    (groupIndices dataSources sampleUids count (some dataSource) (some uid) = [] → groupOf grouped dataSource uid = none) ∧
    (groupIndices dataSources sampleUids count (some dataSource) (some uid) ≠ [] →
      ∃ vars, groupOf grouped dataSource uid = some vars ∧ ∀ k, vars.get? k = (infosDict.get? k).map (fun vals =>
        valuesAt vals (groupIndices dataSources sampleUids count (some dataSource) (some uid))))

theorem foldl_append_get? (i : Nat) (vars : Vars 𝕜) (k : String) :
    (infosDict.entries.foldl (fun vars entry => GroupBy.append vars entry.1 (entry.2.getD i .missing)) vars).get? k =
      (infosDict.get? k).elim (vars.get? k) (fun vals => some (vars.getD k [] ++ [vals.getD i .missing])) := by
  have framed : LocalLoop.Framed (fun entry : String × List (Value 𝕜) => entry.1) (fun k (vars : Vars 𝕜) => vars.get? k)
      (fun vars entry => GroupBy.append vars entry.1 (entry.2.getD i .missing)) := by
    intro vars entry k apart
    exact vars.get?_set_other _ _ _ (Ne.symm apart)
  have acts : LocalLoop.Acts (fun entry : String × List (Value 𝕜) => entry.1) (fun k (vars : Vars 𝕜) => vars.get? k)
      (fun vars entry => GroupBy.append vars entry.1 (entry.2.getD i .missing))
      (fun entry old => some (old.getD [] ++ [entry.2.getD i .missing])) := by
    intro vars entry
    exact vars.get?_set_same _ _
  cases found : infosDict.get? k with
  | none =>
    apply LocalLoop.foldl_absent framed
    rintro entry member rfl
    have named := (infosDict.mem_entries entry.1 entry.2).mp member
    rw [found] at named
    cases named
  | some vals =>
    have member := (infosDict.mem_entries k vals).mpr found
    exact LocalLoop.foldl_member framed acts infosDict.entries infosDict.distinct (k,vals) member vars

theorem groupOf_set (grouped : Grouped 𝕜) (dataSource dataSource' : String) (uid uid' : List Char) (vars : Vars 𝕜) :
    groupOf (grouped.set dataSource ((grouped.getD dataSource .empty).set uid vars)) dataSource' uid' =
      if dataSource' = dataSource ∧ uid' = uid then some vars else groupOf grouped dataSource' uid' := by
  by_cases source : dataSource' = dataSource
  · subst source
    by_cases same : uid' = uid
    · simp [groupOf,same]
    · rw [groupOf,grouped.get?_set_same,Option.bind_some,OrderedDict.get?_set_other _ _ _ _ same,if_neg (by simp [same]),
        OrderedDict.getD,groupOf]
      cases grouped.get? dataSource' with
      | none => rfl
      | some uid2vars => rfl
  · simp [groupOf,source]

variable (uids : sampleUids.length = dataSources.length)
  (lengths : ∀ k vals, infosDict.get? k = some vals → vals.length = dataSources.length)

include uids in
theorem groupIndices_succ (i : Nat) (inside : i < dataSources.length) (dataSource : String) (uid : List Char) :
    groupIndices dataSources sampleUids (i + 1) (some dataSource) (some uid) =
      groupIndices dataSources sampleUids i (some dataSource) (some uid) ++
        if dataSource = dataSources[i] ∧ uid = sampleUids[i] then [i] else [] := by
  have place : i < sampleUids.length := by omega
  rw [groupIndices,List.range_succ,List.filter_append,← groupIndices]
  simp only [List.filter_cons,List.filter_nil,List.getElem?_eq_getElem inside,List.getElem?_eq_getElem place,
    Option.some.injEq,decide_eq_true_eq]
  congr 1
  exact if_congr (by constructor <;> exact fun both => ⟨both.1.symm,both.2.symm⟩) rfl rfl

include uids lengths in
theorem addSample_holds (grouped : Grouped 𝕜) (i : Nat) (inside : i < dataSources.length)
    (holds : Holds dataSources sampleUids infosDict grouped i) :
    ∃ next, addSample sampleUids infosDict grouped (dataSources[i],i) = .ok next ∧
      Holds dataSources sampleUids infosDict next (i + 1) := by
  have place : i < sampleUids.length := by omega
  have loop : ∀ vars, infosDict.entries.foldlM (fun vars entry => do
      let val ← item entry.2 i
      return GroupBy.append vars entry.1 val) vars =
      (.ok (infosDict.entries.foldl (fun vars entry => GroupBy.append vars entry.1 (entry.2.getD i .missing)) vars) :
        Except String (Vars 𝕜)) := by
    intro vars
    apply LocalLoop.foldlM_ok
    intro entry member vars
    have long := lengths entry.1 entry.2 ((infosDict.mem_entries entry.1 entry.2).mp member)
    have read := item_ok entry.2 i (by omega)
    rw [read,List.getD_eq_getElem _ _ (by omega)]
    rfl
  have step : addSample sampleUids infosDict grouped (dataSources[i],i) =
      .ok (grouped.set dataSources[i] ((grouped.getD dataSources[i] .empty).set sampleUids[i]
        (infosDict.entries.foldl (fun vars entry => GroupBy.append vars entry.1 (entry.2.getD i .missing))
          ((grouped.getD dataSources[i] .empty).getD sampleUids[i] .empty)))) := by
    have folded := loop ((grouped.getD dataSources[i] .empty).getD sampleUids[i] .empty)
    simp only [bind,Except.bind] at folded
    simp only [addSample,item_ok sampleUids i place,bind,Except.bind,folded]
    rfl
  refine ⟨_,step,?_⟩
  intro dataSource uid
  rw [groupIndices_succ dataSources sampleUids uids i inside,groupOf_set]
  by_cases same : dataSource = dataSources[i] ∧ uid = sampleUids[i]
  · rw [if_pos same,if_pos same]
    obtain ⟨rfl,rfl⟩ := same
    refine ⟨fun none => by simp at none,fun _ => ⟨_,rfl,fun k => ?_⟩⟩
    rw [foldl_append_get?]
    obtain ⟨fresh,known⟩ := holds dataSources[i] sampleUids[i]
    have old : (grouped.getD dataSources[i] .empty).getD sampleUids[i] .empty =
        (groupOf grouped dataSources[i] sampleUids[i]).getD .empty := by
      rw [groupOf,OrderedDict.getD,OrderedDict.getD]
      cases grouped.get? dataSources[i] with
      | none => rfl
      | some uid2vars => rfl
    rw [old]
    by_cases first : groupIndices dataSources sampleUids i (some dataSources[i]) (some sampleUids[i]) = []
    · rw [fresh first,first]
      cases infosDict.get? k with
      | none => rfl
      | some vals => rfl
    · obtain ⟨vars,found,reads⟩ := known first
      rw [found,Option.getD_some]
      cases here : infosDict.get? k with
      | none => rw [Option.elim_none,reads k,here]; rfl
      | some vals =>
        rw [Option.elim_some,OrderedDict.getD,reads k,here]
        simp [valuesAt]
  · rw [if_neg same,if_neg same,List.append_nil]
    exact holds dataSource uid

include uids lengths in
theorem grouped_holds : ∃ grouped, dataSources.zipIdx.foldlM (addSample sampleUids infosDict) .empty = .ok grouped ∧
    Holds dataSources sampleUids infosDict grouped dataSources.length := by
  have run : ∀ count, count ≤ dataSources.length → ∃ grouped,
      (dataSources.zipIdx.take count).foldlM (addSample sampleUids infosDict) .empty = .ok grouped ∧
        Holds dataSources sampleUids infosDict grouped count := by
    intro count
    induction count with
    | zero =>
      intro _
      refine ⟨.empty,by rw [List.take_zero]; rfl,fun dataSource uid => ⟨fun _ => rfl,fun some => ?_⟩⟩
      exact absurd rfl some
    | succ i ih =>
      intro inside
      obtain ⟨grouped,before,holds⟩ := ih (by omega)
      obtain ⟨next,step,after⟩ := addSample_holds dataSources sampleUids infosDict uids lengths grouped i (by omega) holds
      have long : i < dataSources.zipIdx.length := by
        rw [List.length_zipIdx]
        omega
      have last : dataSources.zipIdx[i] = (dataSources[i],i) := by simp
      refine ⟨next,?_,after⟩
      rw [List.take_succ_eq_append_getElem long,List.foldlM_append,before,last]
      change (addSample sampleUids infosDict grouped (dataSources[i],i) >>= pure) = _
      rw [step]
      rfl
  obtain ⟨grouped,made,holds⟩ := run dataSources.length (Nat.le_refl _)
  rw [List.take_of_length_le (by simp)] at made
  exact ⟨grouped,made,holds⟩

end Groups

section Whole

variable {𝕜 : Type} [Field 𝕜] [LinearOrder 𝕜] (sqrt : 𝕜 → 𝕜) (choice : Choice) (dataSources : List String)
  (sampleUids : List (List Char)) (infosDict : Vars 𝕜) (uids : sampleUids.length = dataSources.length)
  (lengths : ∀ k vals, infosDict.get? k = some vals → vals.length = dataSources.length)

/-- Every variable of every group starts with a text or has numbers only. -/
def AllFine : Prop :=
  ∀ i, i < dataSources.length → ∀ k vals, infosDict.get? k = some vals →
    Fine (valuesAt vals (groupIndices dataSources sampleUids dataSources.length dataSources[i]? sampleUids[i]?))

include uids lengths in
theorem processValidationMetrics_iff :
    (∃ metrics, processValidationMetrics sqrt choice dataSources sampleUids infosDict = .ok metrics) ↔
      AllFine dataSources sampleUids infosDict := by
  obtain ⟨grouped,run,holds⟩ := grouped_holds dataSources sampleUids infosDict uids lengths
  have outcome : (∃ metrics, processValidationMetrics sqrt choice dataSources sampleUids infosDict = .ok metrics) ↔
      ∃ metrics, (grouped.mapValuesM (fun _ uid2vars => uid2vars.mapValuesM (fun _ var2vals =>
        var2vals.mapValuesM (fun _ varVals => varMetric sqrt choice varVals (var2vals.get? "pred"))))) = .ok metrics := by
    rw [processValidationMetrics,run]
    simp only [bind,Except.bind]
    constructor
    · rintro ⟨result,made⟩
      split at made
      · cases made
      · exact ⟨_,by assumption⟩
    · rintro ⟨metrics,made⟩
      rw [made]
      exact ⟨_,rfl⟩
  have equal : ∀ vars : Vars 𝕜, ∀ indices, (∀ k, vars.get? k = (infosDict.get? k).map (fun vals => valuesAt vals indices)) →
      ((∃ metrics, vars.mapValuesM (fun _ varVals => varMetric sqrt choice varVals (vars.get? "pred")) = .ok metrics) ↔
        ∀ k vals, infosDict.get? k = some vals → Fine (valuesAt vals indices)) := by
    intro vars indices reads
    have sized : ∀ k varVals, vars.get? k = some varVals → varVals.length = indices.length := by
      intro k varVals found
      rw [reads k] at found
      obtain ⟨vals,_,rfl⟩ := Option.map_eq_some_iff.mp found
      exact List.length_map _
    rw [OrderedDict.mapValuesM_total_iff]
    constructor
    · intro each k vals found
      have held : vars.get? k = some (valuesAt vals indices) := by rw [reads k,found,Option.map_some]
      apply (varMetric_iff sqrt choice (valuesAt vals indices) (vars.get? "pred") (fun preds voted => ?_)).mp
        (each k _ held)
      rw [sized "pred" preds voted,sized k _ held]
    · intro fine k varVals held
      have found := held
      rw [reads k] at found
      obtain ⟨vals,here,rfl⟩ := Option.map_eq_some_iff.mp found
      apply (varMetric_iff sqrt choice (valuesAt vals indices) (vars.get? "pred") (fun preds voted => ?_)).mpr
        (fine k vals here)
      rw [sized "pred" preds voted,sized k _ held]
  rw [outcome,OrderedDict.mapValuesM_total_iff]
  constructor
  · intro each i inside
    have place : i < sampleUids.length := by omega
    have filled : groupIndices dataSources sampleUids dataSources.length (some dataSources[i]) (some sampleUids[i]) ≠ [] := by
      apply List.ne_nil_of_mem (a := i)
      simp [groupIndices,inside,place]
    obtain ⟨vars,found,reads⟩ := (holds dataSources[i] sampleUids[i]).2 filled
    obtain ⟨uid2vars,source,held⟩ := Option.bind_eq_some_iff.mp found
    have inner := (OrderedDict.mapValuesM_total_iff _ _).mp (each dataSources[i] uid2vars source) sampleUids[i] vars held
    rw [List.getElem?_eq_getElem inside,List.getElem?_eq_getElem place]
    exact (equal vars _ reads).mp inner
  · intro fine dataSource uid2vars source
    apply (OrderedDict.mapValuesM_total_iff _ _).mpr
    intro uid vars held
    have found : groupOf grouped dataSource uid = some vars := by rw [groupOf,source,Option.bind_some,held]
    obtain ⟨absent,known⟩ := holds dataSource uid
    by_cases empty : groupIndices dataSources sampleUids dataSources.length (some dataSource) (some uid) = []
    · rw [absent empty] at found
      cases found
    · obtain ⟨vars',found',reads⟩ := known empty
      obtain rfl : vars = vars' := Option.some.inj (found.symm.trans found')
      obtain ⟨i,member⟩ := List.exists_mem_of_ne_nil _ empty
      obtain ⟨below,same⟩ := List.mem_filter.mp member
      have both := of_decide_eq_true same
      apply (equal vars _ reads).mpr
      rw [← both.1,← both.2]
      exact fine i (List.mem_range.mp below)

end Whole

end RelayOpd.ValidationMetrics
