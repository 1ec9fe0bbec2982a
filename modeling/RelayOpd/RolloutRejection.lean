import RelayOpd.PyText
import Mathlib.Algebra.BigOperators.Fin
import Mathlib.Analysis.Complex.ExponentialBounds
import Mathlib.Analysis.SpecialFunctions.Log.Basic

/-! The rejection mask of rollout correction, over exact numbers. `k1` is the negated log ratio, so its
options bound the inverse of the ratio. -/
namespace RelayOpd.RolloutRejection

open PyText

/-- `exp` and `math.log` on exact numbers. -/
structure ExpLog (𝕜 : Type) [Field 𝕜] [LinearOrder 𝕜] where
  exp : 𝕜 → 𝕜
  log : 𝕜 → 𝕜
  exp_add : ∀ x y, exp (x + y) = exp x * exp y
  exp_pos : ∀ x, 0 < exp x
  exp_le_exp : ∀ x y, exp x ≤ exp y ↔ x ≤ y
  exp_log : ∀ x, 0 < x → exp (log x) = x

inductive Divergence where
  | k1
  | k2
  | k3
  deriving DecidableEq

inductive RolloutRsOption where
  | token (k : Divergence)
  | seqSum (k : Divergence)
  | seqMean (k : Divergence)
  | seqMaxK2
  | seqMaxK3
  deriving DecidableEq

def Divergence.name : Divergence → String
  | .k1 => "k1"
  | .k2 => "k2"
  | .k3 => "k3"

def RolloutRsOption.name : RolloutRsOption → String
  | .token k => "token_" ++ k.name
  | .seqSum k => "seq_sum_" ++ k.name
  | .seqMean k => "seq_mean_" ++ k.name
  | .seqMaxK2 => "seq_max_k2"
  | .seqMaxK3 => "seq_max_k3"

def supportedRolloutRsOptions : List RolloutRsOption :=
  [.token .k1,.token .k2,.token .k3,.seqSum .k1,.seqSum .k2,.seqSum .k3,.seqMean .k1,.seqMean .k2,.seqMean .k3,
    .seqMaxK2,.seqMaxK3]

/-- `option.endswith("k1")`. -/
def RolloutRsOption.isK1 : RolloutRsOption → Bool
  | .token .k1 | .seqSum .k1 | .seqMean .k1 => true
  | _ => false

def rolloutRsOption (text : List Char) : Option RolloutRsOption :=
  supportedRolloutRsOptions.find? (fun option => option.name.toList == text)

def normalizeOptions : List (List Char) → List RolloutRsOption → Except String (List RolloutRsOption)
  | [],seen => .ok seen
  | opt :: rest,seen =>
    match rolloutRsOption opt with
    | none => .error ("Invalid rollout_rs option: " ++ String.ofList opt ++ ". Must be one of " ++
        toString ((supportedRolloutRsOptions.map RolloutRsOption.name).mergeSort (· ≤ ·)) ++ ".")
    | some option => normalizeOptions rest (if option ∈ seen then seen else seen ++ [option])

/-- The distinct options of the comma separated text, in order. -/
def rolloutRsOptions (rolloutRs : List Char) : Except String (List RolloutRsOption) :=
  let optionModes := fields ',' rolloutRs
  if optionModes.isEmpty then .error "rollout_rs must contain at least one valid option."
  else normalizeOptions optionModes []

/-- `rollout_rs_threshold`; a number comes as its `str`. -/
inductive ThresholdSpec where
  | missing
  | number (printed : List Char)
  | text (text : List Char)
  | other

/-- `rollout_rs_threshold is None`. -/
def ThresholdSpec.isMissing : ThresholdSpec → Bool
  | .missing => true
  | _ => false

section Mask

variable {𝕜 : Type} [Field 𝕜] [LinearOrder 𝕜]

/-- Parsed bounds, all positive (or NaN). -/
structure Thresholds (𝕜 : Type) [Field 𝕜] [LinearOrder 𝕜] where
  lower : Option (PyFloat 𝕜)
  upper : PyFloat 𝕜
  lower_positive : ∀ bound ∈ lower, bound.nonpos = false
  upper_positive : upper.nonpos = false

def rawSpecs : ThresholdSpec → Except String (List (List Char))
  | .missing => .error "rollout_rs_threshold must be provided for rejection sampling."
  | .number printed => .ok [printed]
  | .text text => .ok (fields ',' text)
  | .other => .error "rollout_rs_threshold must be a string or numeric value specifying per-option thresholds."

/-- The two bounds of a `k1` entry. -/
def ratioBounds (float : List Char → Option (PyFloat 𝕜)) (option : RolloutRsOption) (spec : List Char) :
    Except String (PyFloat 𝕜 × PyFloat 𝕜) :=
  if '_' ∈ spec then
    match float (splitOnce '_' spec).1,float (splitOnce '_' spec).2 with
    | some lower,some upper => .ok (lower,upper)
    | _,_ => .error ("Invalid numeric threshold '" ++ String.ofList spec ++ "' for option '" ++ option.name ++ "'.")
  else
    match float spec with
    | none => .error ("could not convert string to float: '" ++ String.ofList spec ++ "'")
    | some upper => upper.recip.map (fun lower => (lower,upper))

def parseEntry (float : List Char → Option (PyFloat 𝕜)) (option : RolloutRsOption) (spec : List Char) :
    Except String (Thresholds 𝕜) :=
  if option.isK1 then
    match ratioBounds float option spec with
    | .error e => .error e
    | .ok (lower,upper) =>
      if positive : lower.nonpos = false ∧ upper.nonpos = false then
        .ok ⟨some lower,upper,by simpa using positive.1,positive.2⟩
      else .error ("Thresholds for option '" ++ option.name ++ "' must be positive, got " ++ String.ofList spec ++ ".")
  else if '_' ∈ spec then
    .error ("rollout_rs_threshold for option '" ++ option.name ++
      "' must provide a single upper bound without '_'. Received '" ++ String.ofList spec ++ "'.")
  else
    match float spec with
    | none => .error ("Invalid numeric threshold '" ++ String.ofList spec ++ "' for option '" ++ option.name ++ "'.")
    | some upper =>
      if positive : upper.nonpos = false then .ok ⟨none,upper,by simp,positive⟩
      else .error ("Threshold for option '" ++ option.name ++ "' must be positive, got " ++ String.ofList spec ++ ".")

def parseEntries (float : List Char → Option (PyFloat 𝕜)) :
    List (RolloutRsOption × List Char) → Except String (List (RolloutRsOption × Thresholds 𝕜))
  | [] => .ok []
  | entry :: rest => do
    let parsed ← parseEntry float entry.1 entry.2
    let thresholds ← parseEntries float rest
    return (entry.1,parsed) :: thresholds

/-- One shared entry, or one an option. -/
def pairedSpecs (options : List RolloutRsOption) (specs : List (List Char)) :
    Except String (List (RolloutRsOption × List Char)) :=
  if specs.isEmpty then .error "rollout_rs_threshold must contain at least one threshold value."
  else if specs.length ≠ 1 ∧ specs.length ≠ options.length then
    .error ("rollout_rs_threshold expects either one threshold shared by all options or exactly " ++
      toString options.length ++ " thresholds to match the provided rollout_rs options.")
  else .ok (options.zip (if specs.length = 1 then (List.replicate options.length specs).flatten else specs))

def parseRolloutRsThresholds (float : List Char → Option (PyFloat 𝕜)) (options : List RolloutRsOption)
    (thresholdSpec : ThresholdSpec) : Except String (List (RolloutRsOption × Thresholds 𝕜)) := do
  let specs ← rawSpecs thresholdSpec
  let entries ← pairedSpecs options specs
  parseEntries float entries

variable {B T : Nat} (E : ExpLog 𝕜)

def safetyBound : 𝕜 := ((20 : Nat) : 𝕜)

/-- `torch.clamp(log_ratio, min=-SAFETY_BOUND, max=SAFETY_BOUND)`. -/
def logRatioSafe (logRatio : Fin B → Fin T → 𝕜) (b : Fin B) (t : Fin T) : 𝕜 :=
  min (max (logRatio b t) (-safetyBound)) safetyBound

def divergence (k : Divergence) (x : 𝕜) : 𝕜 :=
  match k with
  | .k1 => -x
  | .k2 => ((2 : Nat) : 𝕜)⁻¹ * x ^ 2
  | .k3 => E.exp x - 1 - x

/-- `verl_F.masked_sum(values, response_mask, axis=-1)`. -/
def sequenceSum (responseMask : Fin B → Fin T → Nat) (values : Fin B → Fin T → 𝕜) (b : Fin B) : 𝕜 :=
  ∑ t, (if responseMask b t ≠ 0 then values b t else 0) * (responseMask b t : 𝕜)

def meanEpsilon : 𝕜 := 1 / ((10 ^ 8 : Nat) : 𝕜)

/-- `verl_F.masked_mean(values, response_mask, axis=-1)`. -/
def sequenceMean (responseMask : Fin B → Fin T → Nat) (values : Fin B → Fin T → 𝕜) (b : Fin B) : 𝕜 :=
  sequenceSum responseMask values b / (((∑ t, responseMask b t : Nat) : 𝕜) + meanEpsilon)

def sequenceMax (responseMask : Fin B → Fin T → Nat) (values : Fin B → Fin T → 𝕜) : Except String (Fin B → 𝕜) :=
  if T = 0 then .error "max(): Expected reduction dim 1 to have non-zero size."
  else .ok (fun b =>
    (Finset.univ.sup (fun t => if responseMask b t ≠ 0 then (values b t : WithBot 𝕜) else ⊥)).unbotD 0)

/-- `math.log` of a positive float. -/
def logBound : PyFloat 𝕜 → PyFloat 𝕜
  | .finite x => .finite (E.log x)
  | bound => bound

/-- The comparison an option makes with its statistic. -/
def keepTest (option : RolloutRsOption) (bounds : Thresholds 𝕜) : Except String (𝕜 → Bool) :=
  if option.isK1 then
    match bounds.lower with
    | none => .error ("rollout_rs_threshold for option '" ++ option.name ++ "' must specify both lower and upper bounds.")
    | some lower => .ok (fun stat => (logBound E lower).below stat && (logBound E bounds.upper).above stat)
  else .ok bounds.upper.above

/-- `token_keep_bool`. -/
def tokenKeepBool (logRatio : Fin B → Fin T → 𝕜) (responseMask : Fin B → Fin T → Nat) (option : RolloutRsOption)
    (bounds : Thresholds 𝕜) : Except String (Fin B → Fin T → Bool) := do
  let test ← keepTest E option bounds
  let stat := fun k b t => divergence E k (logRatioSafe logRatio b t)
  match option with
  | .token k => return fun b t => test (stat k b t)
  | .seqSum k => return fun b _ => test (sequenceSum responseMask (stat k) b)
  | .seqMean k => return fun b _ => test (sequenceMean responseMask (stat k) b)
  | .seqMaxK2 => do
    let most ← sequenceMax responseMask (stat .k2)
    return fun b _ => test (most b)
  | .seqMaxK3 => do
    let most ← sequenceMax responseMask (stat .k3)
    return fun b _ => test (most b)

/-- `compute_rs_metrics`: what it requires. -/
def computeRsMetrics (responseMask : Fin B → Fin T → Nat) : Except String Unit :=
  if ∃ b t, responseMask b t ≠ 0 then .ok () else .error "response_mask must contain at least one valid token (1)."

/-- One pass of the loop over the options. -/
def combineOption (logRatio : Fin B → Fin T → 𝕜) (responseMask : Fin B → Fin T → Nat)
    (thresholdSpecs : List (RolloutRsOption × Thresholds 𝕜)) (combinedMask : Fin B → Fin T → Nat)
    (option : RolloutRsOption) : Except String (Fin B → Fin T → Nat) := do
  let bounds ← match thresholdSpecs.lookup option with
    | some bounds => .ok bounds
    | none => .error option.name
  let keep ← tokenKeepBool E logRatio responseMask option bounds
  computeRsMetrics responseMask
  return fun b t => combinedMask b t * (if keep b t then 1 else 0)

def computeRolloutRejectionMask (float : List Char → Option (PyFloat 𝕜)) (logRatio : Fin B → Fin T → 𝕜)
    (responseMask : Fin B → Fin T → Nat) (rolloutRs : Option (List Char)) (thresholdSpec : ThresholdSpec) :
    Except String (Fin B → Fin T → Nat) := do
  let text ← match rolloutRs with
    | some text => .ok text
    | none => .error "rollout_rs must be a non-empty string (comma separated for multiple options)."
  if thresholdSpec.isMissing then throw "rollout_rs_threshold must be provided for rejection sampling."
  if B = 0 then return responseMask
  let normalizedOptions ← rolloutRsOptions text
  let thresholdSpecs ← parseRolloutRsThresholds float normalizedOptions thresholdSpec
  let finalMask ← normalizedOptions.foldlM (combineOption E logRatio responseMask thresholdSpecs) (fun _ _ => 1)
  return fun b t => responseMask b t * finalMask b t

/-! What the documentation promises. -/

/-- How an entry is to be read. -/
inductive Documented (float : List Char → Option (PyFloat 𝕜)) :
    RolloutRsOption → List Char → Thresholds 𝕜 → Prop
  | bounds {option low high bounds lower} : option.isK1 = true → '_' ∉ low → float low = some lower →
      float high = some bounds.upper → bounds.lower = some lower → Documented float option (low ++ '_' :: high) bounds
  | reciprocal {option high bounds lower} : option.isK1 = true → '_' ∉ high → float high = some bounds.upper →
      bounds.upper.recip = .ok lower → bounds.lower = some lower → Documented float option high bounds
  | bound {option high bounds} : option.isK1 = false → '_' ∉ high → float high = some bounds.upper →
      bounds.lower = none → Documented float option high bounds

/-- Entry by entry, or one entry for all. -/
def DocumentedThresholds (float : List Char → Option (PyFloat 𝕜)) (options : List RolloutRsOption)
    (thresholdSpec : ThresholdSpec) (thresholds : List (RolloutRsOption × Thresholds 𝕜)) : Prop :=
  ∃ specs entries, rawSpecs thresholdSpec = .ok specs ∧
    (entries = specs ∨ ∃ shared, specs = [shared] ∧ entries = List.replicate options.length shared) ∧
    thresholds.map Prod.fst = options ∧
    List.Forall₂ (fun threshold entry => Documented float threshold.1 entry threshold.2) thresholds entries

def validTokens (responseMask : Fin B → Fin T → Nat) (b : Fin B) : Finset (Fin T) :=
  Finset.univ.filter (fun t => responseMask b t ≠ 0)

def ratio (logRatio : Fin B → Fin T → 𝕜) (b : Fin B) (t : Fin T) : 𝕜 := E.exp (logRatioSafe logRatio b t)

def productRatio (logRatio : Fin B → Fin T → 𝕜) (responseMask : Fin B → Fin T → Nat) (b : Fin B) : 𝕜 :=
  ∏ t ∈ validTokens responseMask b, ratio E logRatio b t

/-- `exp` of the mean log ratio over `n` tokens. -/
def meanRatio (logRatio : Fin B → Fin T → 𝕜) (responseMask : Fin B → Fin T → Nat) (n : 𝕜) (b : Fin B) : 𝕜 :=
  E.exp ((∑ t ∈ validTokens responseMask b, logRatioSafe logRatio b t) / n)

def Thresholds.within (bounds : Thresholds 𝕜) (x : 𝕜) : Bool :=
  bounds.lower.all (PyFloat.below x) && bounds.upper.above x

/-- Whether an option keeps a valid token, by its documentation. -/
def documentedKeeps (logRatio : Fin B → Fin T → 𝕜) (responseMask : Fin B → Fin T → Nat) (option : RolloutRsOption)
    (bounds : Thresholds 𝕜) (b : Fin B) (t : Fin T) : Bool :=
  let valid := validTokens responseMask b
  let stat := fun k u => divergence E k (logRatioSafe logRatio b u)
  match option with
  | .token .k1 => bounds.within (ratio E logRatio b t)
  | .token k => bounds.upper.above (stat k t)
  | .seqSum .k1 => bounds.within (productRatio E logRatio responseMask b)
  | .seqSum k => bounds.upper.above (∑ u ∈ valid, stat k u)
  | .seqMean .k1 => bounds.within (meanRatio E logRatio responseMask (valid.card : 𝕜) b)
  | .seqMean k => bounds.upper.above ((∑ u ∈ valid, stat k u) / (valid.card : 𝕜))
  | .seqMaxK2 => decide (∀ u ∈ valid, bounds.upper.above (stat .k2 u) = true)
  | .seqMaxK3 => decide (∀ u ∈ valid, bounds.upper.above (stat .k3 u) = true)

def documentedMask (logRatio : Fin B → Fin T → 𝕜) (responseMask : Fin B → Fin T → Nat)
    (thresholds : List (RolloutRsOption × Thresholds 𝕜)) (b : Fin B) (t : Fin T) : Nat :=
  if thresholds.all (fun entry => documentedKeeps E logRatio responseMask entry.1 entry.2 b t) then responseMask b t
  else 0

/-- The options whose test is not the documented one. -/
def RolloutRsOption.skewed : RolloutRsOption → Bool
  | .token .k1 | .seqSum .k1 | .seqMean _ => true
  | _ => false

/-- The test of a skewed option: the inverse ratio is bounded, and a mean divides by `n + 1e-8`. -/
def skewedKeeps (logRatio : Fin B → Fin T → 𝕜) (responseMask : Fin B → Fin T → Nat) (option : RolloutRsOption)
    (bounds : Thresholds 𝕜) (b : Fin B) (t : Fin T) : Bool :=
  let n : 𝕜 := ((validTokens responseMask b).card : 𝕜) + meanEpsilon
  match option with
  | .token .k1 => bounds.within (ratio E logRatio b t)⁻¹
  | .seqSum .k1 => bounds.within (productRatio E logRatio responseMask b)⁻¹
  | .seqMean .k1 => bounds.within (meanRatio E logRatio responseMask n b)⁻¹
  | .seqMean k =>
    bounds.upper.above ((∑ u ∈ validTokens responseMask b, divergence E k (logRatioSafe logRatio b u)) / n)
  | _ => documentedKeeps E logRatio responseMask option bounds b t

/-- Some token is valid, and on each valid token that the other options keep, the skewed options
together say the same of the inverse ratios as of the ratios. -/
def Balanced (logRatio : Fin B → Fin T → 𝕜) (responseMask : Fin B → Fin T → Nat)
    (thresholds : List (RolloutRsOption × Thresholds 𝕜)) : Prop :=
  (∃ b t, responseMask b t ≠ 0) ∧
  ∀ b t, responseMask b t ≠ 0 →
    (∀ entry ∈ thresholds, entry.1.skewed = false →
      documentedKeeps E logRatio responseMask entry.1 entry.2 b t = true) →
    ((∀ entry ∈ thresholds, entry.1.skewed = true →
        skewedKeeps E logRatio responseMask entry.1 entry.2 b t = true) ↔
      ∀ entry ∈ thresholds, entry.1.skewed = true →
        documentedKeeps E logRatio responseMask entry.1 entry.2 b t = true)

/-! Parsing. -/

theorem normalizeOptions_spec (modes : List (List Char)) (seen options : List RolloutRsOption) (distinct : seen.Nodup)
    (read : normalizeOptions modes seen = .ok options) : options.Nodup ∧ seen.length ≤ options.length := by
  induction modes generalizing seen with
  | nil =>
    obtain rfl : seen = options := by simpa [normalizeOptions] using read
    exact ⟨distinct,le_rfl⟩
  | cons mode rest ih =>
    rw [normalizeOptions] at read
    split at read
    · cases read
    · next option found =>
      by_cases known : option ∈ seen
      · rw [if_pos known] at read
        exact ih seen distinct read
      · rw [if_neg known] at read
        have fresh : (seen ++ [option]).Nodup := by
          rw [List.nodup_append]
          exact ⟨distinct,List.nodup_singleton _,by
            intro a member b single same
            rw [List.mem_singleton.mp single] at same
            exact known (same ▸ member)⟩
        obtain ⟨nodup,long⟩ := ih _ fresh read
        exact ⟨nodup,by rw [List.length_append] at long; omega⟩

theorem normalizeOptions_nonempty (modes : List (List Char)) (options : List RolloutRsOption) (nonempty : modes ≠ [])
    (read : normalizeOptions modes [] = .ok options) : options ≠ [] := by
  obtain ⟨mode,rest,rfl⟩ := List.exists_cons_of_ne_nil nonempty
  rw [normalizeOptions] at read
  split at read
  · cases read
  · next option found =>
    rw [if_neg List.not_mem_nil,List.nil_append] at read
    have long := (normalizeOptions_spec rest [option] options (List.nodup_singleton _) read).2
    rintro rfl
    simp at long

theorem rolloutRsOptions_nonempty (text : List Char) (options : List RolloutRsOption)
    (read : rolloutRsOptions text = .ok options) : options ≠ [] := by
  rw [rolloutRsOptions] at read
  split at read
  · cases read
  · next listed => exact normalizeOptions_nonempty _ _ (by simpa using listed) read

theorem rolloutRsOptions_nodup (text : List Char) (options : List RolloutRsOption)
    (read : rolloutRsOptions text = .ok options) : options.Nodup := by
  rw [rolloutRsOptions] at read
  split at read
  · cases read
  · exact (normalizeOptions_spec _ _ _ List.nodup_nil read).1

theorem ratioBounds_documented (float : List Char → Option (PyFloat 𝕜)) (option : RolloutRsOption) (spec : List Char)
    (bounds : Thresholds 𝕜) (k1 : option.isK1 = true) (lower : PyFloat 𝕜)
    (read : ratioBounds float option spec = .ok (lower,bounds.upper)) (low : bounds.lower = some lower) :
    Documented float option spec bounds := by
  rw [ratioBounds] at read
  by_cases separated : '_' ∈ spec
  · obtain ⟨plain,same⟩ := splitOnce_spec '_' spec separated
    rw [if_pos separated] at read
    split at read
    · next first second one two =>
      rw [Except.ok.injEq,Prod.mk.injEq] at read
      rw [same]
      exact .bounds k1 plain (one.trans (congrArg some read.1)) (two.trans (congrArg some read.2)) low
    · cases read
  · rw [if_neg separated] at read
    split at read
    · cases read
    · next upper high =>
      cases inverse : upper.recip with
      | error e =>
        rw [inverse] at read
        cases read
      | ok x =>
        rw [inverse,Except.map,Except.ok.injEq,Prod.mk.injEq] at read
        obtain ⟨rfl,rfl⟩ := read
        exact .reciprocal k1 separated high inverse low

theorem parseEntry_documented (float : List Char → Option (PyFloat 𝕜)) (option : RolloutRsOption) (spec : List Char)
    (bounds : Thresholds 𝕜) (read : parseEntry float option spec = .ok bounds) :
    Documented float option spec bounds := by
  rw [parseEntry] at read
  by_cases k1 : option.isK1 = true
  · rw [if_pos k1] at read
    split at read
    · cases read
    · next lower upper found =>
      split at read
      · obtain rfl := Except.ok.inj read
        exact ratioBounds_documented float option spec _ k1 lower found rfl
      · cases read
  · rw [if_neg k1] at read
    by_cases separated : '_' ∈ spec
    · rw [if_pos separated] at read
      cases read
    · rw [if_neg separated] at read
      split at read
      · cases read
      · next upper high =>
        split at read
        · obtain rfl := Except.ok.inj read
          exact .bound (by simpa using k1) separated high rfl
        · cases read

theorem parseEntries_documented (float : List Char → Option (PyFloat 𝕜)) (entries : List (RolloutRsOption × List Char))
    (thresholds : List (RolloutRsOption × Thresholds 𝕜)) (read : parseEntries float entries = .ok thresholds) :
    thresholds.map Prod.fst = entries.map Prod.fst ∧
    List.Forall₂ (fun threshold entry => Documented float threshold.1 entry threshold.2) thresholds
      (entries.map Prod.snd) := by
  induction entries generalizing thresholds with
  | nil =>
    obtain rfl : [] = thresholds := by simpa [parseEntries] using read
    exact ⟨rfl,.nil⟩
  | cons entry rest ih =>
    rw [parseEntries] at read
    cases first : parseEntry float entry.1 entry.2 with
    | error e =>
      rw [first] at read
      cases read
    | ok bounds =>
      cases others : parseEntries float rest with
      | error e =>
        rw [first,others] at read
        cases read
      | ok tail =>
        rw [first,others] at read
        obtain rfl := Except.ok.inj read
        obtain ⟨keys,related⟩ := ih tail others
        exact ⟨by simp only [List.map_cons,keys],.cons (parseEntry_documented float _ _ _ first) related⟩

theorem pairedSpecs_ok (options : List RolloutRsOption) (specs : List (List Char))
    (entries : List (RolloutRsOption × List Char)) (paired : pairedSpecs options specs = .ok entries) :
    entries.map Prod.fst = options ∧
    (entries.map Prod.snd = specs ∨
      ∃ shared, specs = [shared] ∧ entries.map Prod.snd = List.replicate options.length shared) := by
  rw [pairedSpecs] at paired
  split at paired
  · cases paired
  split at paired
  · cases paired
  next uneven =>
  obtain rfl := Except.ok.inj paired
  by_cases one : specs.length = 1
  · obtain ⟨shared,rfl⟩ := List.length_eq_one_iff.mp one
    have copies : (List.replicate options.length [shared]).flatten = List.replicate options.length shared := by
      rw [List.flatten_replicate_singleton]
    rw [if_pos one,copies,List.map_fst_zip (by rw [List.length_replicate]),
      List.map_snd_zip (by rw [List.length_replicate])]
    exact ⟨rfl,.inr ⟨shared,rfl,rfl⟩⟩
  · have even : specs.length = options.length := by
      by_contra differ
      exact uneven ⟨one,differ⟩
    rw [if_neg one,List.map_fst_zip even.ge,List.map_snd_zip even.le]
    exact ⟨rfl,.inl rfl⟩

/-- What is parsed is what the documentation says. -/
theorem parse_documented (float : List Char → Option (PyFloat 𝕜)) (options : List RolloutRsOption)
    (thresholdSpec : ThresholdSpec) (thresholds : List (RolloutRsOption × Thresholds 𝕜))
    (read : parseRolloutRsThresholds float options thresholdSpec = .ok thresholds) :
    DocumentedThresholds float options thresholdSpec thresholds := by
  rw [parseRolloutRsThresholds] at read
  cases raw : rawSpecs thresholdSpec with
  | error e =>
    rw [raw] at read
    cases read
  | ok specs =>
    cases paired : pairedSpecs options specs with
    | error e =>
      rw [raw] at read
      simp only [bind,Except.bind,paired] at read
      cases read
    | ok entries =>
      rw [raw] at read
      simp only [bind,Except.bind,paired] at read
      obtain ⟨keys,values⟩ := pairedSpecs_ok options specs entries paired
      obtain ⟨names,related⟩ := parseEntries_documented float entries thresholds read
      exact ⟨specs,_,raw,values,names.trans keys,related⟩

/-! Exponentials of sums. -/

theorem ExpLog.exp_zero : E.exp 0 = 1 := by
  have square := E.exp_add 0 0
  rw [add_zero] at square
  exact (mul_eq_left₀ (E.exp_pos 0).ne').mp square.symm

theorem ExpLog.exp_neg (x : 𝕜) : E.exp (-x) = (E.exp x)⁻¹ := by
  have cancel := E.exp_add x (-x)
  rw [add_neg_cancel,E.exp_zero] at cancel
  exact eq_inv_of_mul_eq_one_right cancel.symm

theorem ExpLog.exp_sum {ι : Type} (s : Finset ι) (x : ι → 𝕜) : E.exp (∑ i ∈ s, x i) = ∏ i ∈ s, E.exp (x i) := by
  classical
  induction s using Finset.induction_on with
  | empty => rw [Finset.sum_empty,Finset.prod_empty,E.exp_zero]
  | insert i s fresh ih => rw [Finset.sum_insert fresh,Finset.prod_insert fresh,E.exp_add,ih]

theorem ExpLog.exp_nsmul (n : Nat) (x : 𝕜) : E.exp (n * x) = E.exp x ^ n := by
  have sum := E.exp_sum (Finset.range n) (fun _ => x)
  rwa [Finset.sum_const,Finset.prod_const,Finset.card_range,nsmul_eq_mul] at sum

/-- `meanRatio` over the valid tokens is their geometric mean. -/
theorem meanRatio_pow [CharZero 𝕜] (logRatio : Fin B → Fin T → 𝕜) (responseMask : Fin B → Fin T → Nat) (b : Fin B)
    (some_ : (validTokens responseMask b).card ≠ 0) :
    meanRatio E logRatio responseMask ((validTokens responseMask b).card : 𝕜) b ^ (validTokens responseMask b).card =
      productRatio E logRatio responseMask b := by
  rw [meanRatio,← E.exp_nsmul,mul_div_cancel₀ _ (Nat.cast_ne_zero.mpr some_),E.exp_sum]
  rfl

theorem below_log (bound : PyFloat 𝕜) (positive : bound.nonpos = false) (x : 𝕜) :
    (logBound E bound).below x = bound.below (E.exp x) := by
  cases bound with
  | finite lower =>
    have above : 0 < lower := by simpa [PyFloat.nonpos] using positive
    exact decide_eq_decide.mpr (by rw [← E.exp_le_exp,E.exp_log lower above])
  | inf | negInf | nan => rfl

theorem above_log (bound : PyFloat 𝕜) (positive : bound.nonpos = false) (x : 𝕜) :
    (logBound E bound).above x = bound.above (E.exp x) := by
  cases bound with
  | finite upper =>
    have above : 0 < upper := by simpa [PyFloat.nonpos] using positive
    exact decide_eq_decide.mpr (by rw [← E.exp_le_exp,E.exp_log upper above])
  | inf | negInf | nan => rfl

/-- Every `k1` option has a lower bound and no other has one. -/
def Thresholds.Fits (option : RolloutRsOption) (bounds : Thresholds 𝕜) : Prop := bounds.lower.isSome = option.isK1

theorem Documented.fits (float : List Char → Option (PyFloat 𝕜)) (option : RolloutRsOption) (spec : List Char)
    (bounds : Thresholds 𝕜) (read : Documented float option spec bounds) : bounds.Fits option := by
  cases read with
  | bounds k1 _ _ _ low => rw [Thresholds.Fits,low,k1,Option.isSome_some]
  | reciprocal k1 _ _ _ low => rw [Thresholds.Fits,low,k1,Option.isSome_some]
  | bound k1 _ _ low => rw [Thresholds.Fits,low,k1,Option.isSome_none]

theorem fits_of_documented (float : List Char → Option (PyFloat 𝕜)) (thresholds : List (RolloutRsOption × Thresholds 𝕜))
    (entries : List (List Char))
    (related : List.Forall₂ (fun threshold entry => Documented float threshold.1 entry threshold.2) thresholds entries)
    (threshold : RolloutRsOption × Thresholds 𝕜) (member : threshold ∈ thresholds) :
    threshold.2.Fits threshold.1 := by
  induction related with
  | nil => cases member
  | cons read _ ih =>
    rcases List.mem_cons.mp member with rfl | later
    · exact read.fits
    · exact ih later

theorem keepTest_k1 (option : RolloutRsOption) (bounds : Thresholds 𝕜) (fits : bounds.Fits option)
    (k1 : option.isK1 = true) : keepTest E option bounds = .ok (fun stat => bounds.within (E.exp stat)) := by
  rw [Thresholds.Fits,k1,Option.isSome_iff_exists] at fits
  obtain ⟨lower,low⟩ := fits
  rw [keepTest,if_pos k1,low]
  refine congrArg Except.ok (funext fun stat => ?_)
  rw [below_log E lower (bounds.lower_positive lower low),above_log E bounds.upper bounds.upper_positive,
    Thresholds.within,low,Option.all_some]

theorem keepTest_upper (option : RolloutRsOption) (bounds : Thresholds 𝕜) (k1 : option.isK1 = false) :
    keepTest E option bounds = .ok bounds.upper.above := by
  rw [keepTest,if_neg (by rw [k1]; exact Bool.false_ne_true)]

section Row

variable (responseMask : Fin B → Fin T → Nat) (binary : ∀ b t, responseMask b t = 0 ∨ responseMask b t = 1)

include binary

omit [LinearOrder 𝕜] in
theorem sequenceSum_valid (values : Fin B → Fin T → 𝕜) (b : Fin B) :
    sequenceSum responseMask values b = ∑ t ∈ validTokens responseMask b, values b t := by
  rw [sequenceSum,validTokens,Finset.sum_filter]
  refine Finset.sum_congr rfl (fun t _ => ?_)
  rcases binary b t with zero | one
  · rw [zero,Nat.cast_zero,mul_zero,if_neg (fun h => h rfl)]
  · rw [one,Nat.cast_one,mul_one]

theorem mask_sum (b : Fin B) : (∑ t, responseMask b t) = (validTokens responseMask b).card := by
  rw [validTokens,Finset.card_filter]
  refine Finset.sum_congr rfl (fun t _ => ?_)
  rcases binary b t with zero | one
  · rw [zero,if_neg (fun h => h rfl)]
  · rw [one,if_pos Nat.one_ne_zero]

omit [LinearOrder 𝕜] in
theorem sequenceMean_valid (values : Fin B → Fin T → 𝕜) (b : Fin B) :
    sequenceMean responseMask values b = (∑ t ∈ validTokens responseMask b, values b t) /
      (((validTokens responseMask b).card : 𝕜) + meanEpsilon) := by
  rw [sequenceMean,sequenceSum_valid responseMask binary,mask_sum responseMask binary]

end Row

omit [Field 𝕜] in
theorem above_mono (bound : PyFloat 𝕜) {x y : 𝕜} (le : x ≤ y) (high : bound.above y = true) :
    bound.above x = true := by
  cases bound with
  | finite upper => exact decide_eq_true (le.trans (of_decide_eq_true high))
  | inf => rfl
  | negInf | nan => cases high

/-- The maximum is below a bound when every valid token is. -/
theorem sequenceMax_above (responseMask : Fin B → Fin T → Nat) (values : Fin B → Fin T → 𝕜) (wide : T ≠ 0) :
    ∃ most, sequenceMax responseMask values = .ok most ∧ ∀ b t, responseMask b t ≠ 0 → ∀ bound : PyFloat 𝕜,
      bound.above (most b) = decide (∀ u ∈ validTokens responseMask b, bound.above (values b u) = true) := by
  refine ⟨_,if_neg wide,?_⟩
  intro b t valid bound
  let masked := fun u => if responseMask b u ≠ 0 then (values b u : WithBot 𝕜) else ⊥
  have inside : ∀ u, responseMask b u ≠ 0 → (values b u : WithBot 𝕜) ≤ Finset.univ.sup masked := by
    intro u held
    have le := Finset.le_sup (f := masked) (Finset.mem_univ u)
    rwa [show masked u = values b u from if_pos held] at le
  obtain ⟨x,top⟩ := WithBot.ne_bot_iff_exists.mp (ne_bot_of_le_ne_bot WithBot.coe_ne_bot (inside t valid))
  obtain ⟨u,_,attained⟩ := Finset.exists_mem_eq_sup Finset.univ ⟨t,Finset.mem_univ t⟩ masked
  have held : responseMask b u ≠ 0 := by
    intro zero
    rw [← top,show masked u = ⊥ from if_neg (fun h => h zero)] at attained
    exact WithBot.coe_ne_bot attained
  have same : values b u = x := by
    rw [← top,show masked u = values b u from if_pos held] at attained
    exact (WithBot.coe_inj.mp attained).symm
  change bound.above ((Finset.univ.sup masked).unbotD 0) = _
  rw [← top,WithBot.unbotD_coe,Bool.eq_iff_iff,decide_eq_true_iff]
  constructor
  · intro high v member
    have le := inside v (Finset.mem_filter.mp member).2
    rw [← top,WithBot.coe_le_coe] at le
    exact above_mono bound le high
  · intro all
    exact same ▸ all u (Finset.mem_filter.mpr ⟨Finset.mem_univ _,held⟩)

section Loop

variable (logRatio : Fin B → Fin T → 𝕜) (responseMask : Fin B → Fin T → Nat)
  (binary : ∀ b t, responseMask b t = 0 ∨ responseMask b t = 1)

theorem exp_k1 (x : 𝕜) : E.exp (divergence E .k1 x) = (E.exp x)⁻¹ := E.exp_neg x

theorem exp_sum_k1 (b : Fin B) :
    E.exp (∑ t ∈ validTokens responseMask b, divergence E .k1 (logRatioSafe logRatio b t)) =
      (productRatio E logRatio responseMask b)⁻¹ := by
  rw [show (∑ t ∈ validTokens responseMask b, divergence E .k1 (logRatioSafe logRatio b t)) =
    -∑ t ∈ validTokens responseMask b, logRatioSafe logRatio b t from Finset.sum_neg_distrib _,E.exp_neg,E.exp_sum]
  rfl

theorem exp_mean_k1 (n : 𝕜) (b : Fin B) :
    E.exp ((∑ t ∈ validTokens responseMask b, divergence E .k1 (logRatioSafe logRatio b t)) / n) =
      (meanRatio E logRatio responseMask n b)⁻¹ := by
  rw [show (∑ t ∈ validTokens responseMask b, divergence E .k1 (logRatioSafe logRatio b t)) =
    -∑ t ∈ validTokens responseMask b, logRatioSafe logRatio b t from Finset.sum_neg_distrib _,neg_div,E.exp_neg]
  rfl

include binary

/-- On valid tokens an option keeps what `skewedKeeps` says. -/
theorem tokenKeepBool_valid (wide : T ≠ 0) (option : RolloutRsOption) (bounds : Thresholds 𝕜)
    (fits : bounds.Fits option) :
    ∃ keep, tokenKeepBool E logRatio responseMask option bounds = .ok keep ∧
      ∀ b t, responseMask b t ≠ 0 → keep b t = skewedKeeps E logRatio responseMask option bounds b t := by
  cases option with
  | token k =>
    cases k with
    | k1 =>
      refine ⟨_,by rw [tokenKeepBool,keepTest_k1 E _ bounds fits rfl]; rfl,?_⟩
      intro b t _
      exact congrArg bounds.within (exp_k1 E _)
    | k2 | k3 =>
      exact ⟨_,by rw [tokenKeepBool,keepTest_upper E _ bounds rfl]; rfl,fun b t _ => rfl⟩
  | seqSum k =>
    cases k with
    | k1 =>
      refine ⟨_,by rw [tokenKeepBool,keepTest_k1 E _ bounds fits rfl]; rfl,?_⟩
      intro b t _
      rw [sequenceSum_valid responseMask binary]
      exact congrArg bounds.within (exp_sum_k1 E logRatio responseMask b)
    | k2 | k3 =>
      refine ⟨_,by rw [tokenKeepBool,keepTest_upper E _ bounds rfl]; rfl,?_⟩
      intro b t _
      rw [sequenceSum_valid responseMask binary]
      rfl
  | seqMean k =>
    cases k with
    | k1 =>
      refine ⟨_,by rw [tokenKeepBool,keepTest_k1 E _ bounds fits rfl]; rfl,?_⟩
      intro b t _
      rw [sequenceMean_valid responseMask binary]
      exact congrArg bounds.within (exp_mean_k1 E logRatio responseMask _ b)
    | k2 | k3 =>
      refine ⟨_,by rw [tokenKeepBool,keepTest_upper E _ bounds rfl]; rfl,?_⟩
      intro b t _
      rw [sequenceMean_valid responseMask binary]
      rfl
  | seqMaxK2 =>
    obtain ⟨most,found,above⟩ := sequenceMax_above responseMask
      (fun b t => divergence E .k2 (logRatioSafe logRatio b t)) wide
    refine ⟨_,by rw [tokenKeepBool,keepTest_upper E _ bounds rfl]; simp only [bind,Except.bind,found]; rfl,?_⟩
    intro b t valid
    exact above b t valid bounds.upper
  | seqMaxK3 =>
    obtain ⟨most,found,above⟩ := sequenceMax_above responseMask
      (fun b t => divergence E .k3 (logRatioSafe logRatio b t)) wide
    refine ⟨_,by rw [tokenKeepBool,keepTest_upper E _ bounds rfl]; simp only [bind,Except.bind,found]; rfl,?_⟩
    intro b t valid
    exact above b t valid bounds.upper

/-- One option removes the valid tokens it does not keep. -/
theorem combineOption_valid (some_ : ∃ b t, responseMask b t ≠ 0)
    (thresholds : List (RolloutRsOption × Thresholds 𝕜)) (combined : Fin B → Fin T → Nat) (option : RolloutRsOption)
    (bounds : Thresholds 𝕜) (found : thresholds.lookup option = some bounds) (fits : bounds.Fits option) :
    ∃ next, combineOption E logRatio responseMask thresholds combined option = .ok next ∧
      ∀ b t, responseMask b t ≠ 0 → next b t =
        if skewedKeeps E logRatio responseMask option bounds b t then combined b t else 0 := by
  obtain ⟨_,t,_⟩ := id some_
  obtain ⟨keep,kept,same⟩ := tokenKeepBool_valid E logRatio responseMask binary (Fin.pos t).ne' option bounds fits
  refine ⟨fun b t => combined b t * (if keep b t then 1 else 0),?_,?_⟩
  · simp only [combineOption,found,bind,Except.bind,kept,computeRsMetrics,if_pos some_]
    rfl
  · intro b t valid
    dsimp only
    rw [same b t valid]
    by_cases held : skewedKeeps E logRatio responseMask option bounds b t = true
    · rw [if_pos held,if_pos held,mul_one]
    · rw [if_neg held,if_neg held,mul_zero]

/-- After the loop a valid token is left when every option kept it. -/
theorem combine_run (some_ : ∃ b t, responseMask b t ≠ 0) (thresholds : List (RolloutRsOption × Thresholds 𝕜))
    (entries : List (RolloutRsOption × Thresholds 𝕜))
    (found : ∀ entry ∈ entries, thresholds.lookup entry.1 = some entry.2) (fits : ∀ entry ∈ entries, entry.2.Fits entry.1)
    (combined : Fin B → Fin T → Nat) :
    ∃ final, (entries.map Prod.fst).foldlM (combineOption E logRatio responseMask thresholds) combined = .ok final ∧
      ∀ b t, responseMask b t ≠ 0 → final b t =
        if entries.all (fun entry => skewedKeeps E logRatio responseMask entry.1 entry.2 b t) then combined b t
        else 0 := by
  induction entries generalizing combined with
  | nil => exact ⟨combined,rfl,fun b t _ => rfl⟩
  | cons entry rest ih =>
    obtain ⟨next,step,one⟩ := combineOption_valid E logRatio responseMask binary some_ thresholds combined entry.1 entry.2
      (found entry List.mem_cons_self) (fits entry List.mem_cons_self)
    obtain ⟨final,run,others⟩ := ih (fun e member => found e (List.mem_cons_of_mem _ member))
      (fun e member => fits e (List.mem_cons_of_mem _ member)) next
    refine ⟨final,?_,?_⟩
    · rw [List.map_cons,List.foldlM_cons,step]
      exact run
    · intro b t valid
      rw [others b t valid,one b t valid,List.all_cons]
      by_cases held : skewedKeeps E logRatio responseMask entry.1 entry.2 b t = true
      · rw [held,Bool.true_and,if_pos rfl]
      · rw [Bool.eq_false_iff.mpr held,Bool.false_and,if_neg Bool.false_ne_true,ite_self]

end Loop

theorem lookup_of_mem (thresholds : List (RolloutRsOption × Thresholds 𝕜)) (distinct : (thresholds.map Prod.fst).Nodup)
    (entry : RolloutRsOption × Thresholds 𝕜) (member : entry ∈ thresholds) :
    thresholds.lookup entry.1 = some entry.2 := by
  induction thresholds with
  | nil => cases member
  | cons head tail ih =>
    rw [List.map_cons,List.nodup_cons] at distinct
    rcases List.mem_cons.mp member with rfl | later
    · exact List.lookup_cons_self
    · have apart : entry.1 ≠ head.1 := fun same => distinct.1 (same ▸ List.mem_map_of_mem later)
      rw [List.lookup_cons,beq_eq_false_iff_ne.mpr apart]
      exact ih distinct.2 later

/-- The mask the code returns. -/
def returnedMask (logRatio : Fin B → Fin T → 𝕜) (responseMask : Fin B → Fin T → Nat)
    (thresholds : List (RolloutRsOption × Thresholds 𝕜)) (b : Fin B) (t : Fin T) : Nat :=
  if thresholds.all (fun entry => skewedKeeps E logRatio responseMask entry.1 entry.2 b t) then responseMask b t else 0

/-- A settings pair that parses. -/
structure Settings (float : List Char → Option (PyFloat 𝕜)) (rolloutRs : List Char) (thresholdSpec : ThresholdSpec)
    (options : List RolloutRsOption) (thresholds : List (RolloutRsOption × Thresholds 𝕜)) : Prop where
  listed : rolloutRsOptions rolloutRs = .ok options
  parsed : parseRolloutRsThresholds float options thresholdSpec = .ok thresholds

section Settings

variable {float : List Char → Option (PyFloat 𝕜)} {rolloutRs : List Char} {thresholdSpec : ThresholdSpec}
  {options : List RolloutRsOption} {thresholds : List (RolloutRsOption × Thresholds 𝕜)}
  (settings : Settings float rolloutRs thresholdSpec options thresholds)

include settings

theorem Settings.keys : thresholds.map Prod.fst = options := by
  obtain ⟨_,_,_,_,keys,_⟩ := parse_documented float options thresholdSpec thresholds settings.parsed
  exact keys

theorem Settings.nodup : (thresholds.map Prod.fst).Nodup := by
  rw [settings.keys]
  exact rolloutRsOptions_nodup rolloutRs options settings.listed

theorem Settings.fits (entry : RolloutRsOption × Thresholds 𝕜) (member : entry ∈ thresholds) :
    entry.2.Fits entry.1 := by
  obtain ⟨_,_,_,_,_,related⟩ := parse_documented float options thresholdSpec thresholds settings.parsed
  exact fits_of_documented float thresholds _ related entry member

theorem Settings.given : thresholdSpec.isMissing = false := by
  have read := settings.parsed
  cases thresholdSpec with
  | missing => cases read
  | number | text | other => rfl

end Settings

section Settled

variable {float : List Char → Option (PyFloat 𝕜)} {rolloutRs : List Char} {thresholdSpec : ThresholdSpec}
  {options : List RolloutRsOption} {thresholds : List (RolloutRsOption × Thresholds 𝕜)}
  (settings : Settings float rolloutRs thresholdSpec options thresholds)
  (logRatio : Fin B → Fin T → 𝕜) (responseMask : Fin B → Fin T → Nat)

include settings

theorem compute_eq (rows : B ≠ 0) :
    computeRolloutRejectionMask E float logRatio responseMask (some rolloutRs) thresholdSpec =
      ((thresholds.map Prod.fst).foldlM (combineOption E logRatio responseMask thresholds) (fun _ _ => 1)).map
        (fun finalMask b t => responseMask b t * finalMask b t) := by
  rw [settings.keys,computeRolloutRejectionMask]
  simp only [settings.given,bind,Except.bind,Bool.false_eq_true,if_false,if_neg rows,settings.listed,settings.parsed,
    pure,Except.pure]
  cases options.foldlM (combineOption E logRatio responseMask thresholds) (fun _ _ => 1) <;> rfl

/-- With a valid token the code returns `returnedMask`. -/
theorem compute_valid (binary : ∀ b t, responseMask b t = 0 ∨ responseMask b t = 1)
    (some_ : ∃ b t, responseMask b t ≠ 0) :
    computeRolloutRejectionMask E float logRatio responseMask (some rolloutRs) thresholdSpec =
      .ok (returnedMask E logRatio responseMask thresholds) := by
  obtain ⟨b,_,_⟩ := id some_
  obtain ⟨final,run,kept⟩ := combine_run E logRatio responseMask binary some_ thresholds thresholds
    (lookup_of_mem thresholds settings.nodup) settings.fits (fun _ _ => 1)
  rw [compute_eq E settings logRatio responseMask (Fin.pos b).ne',run]
  refine congrArg Except.ok (funext fun b => funext fun t => ?_)
  by_cases valid : responseMask b t = 0
  · dsimp only
    rw [returnedMask,valid,Nat.zero_mul,ite_self]
  · dsimp only
    rw [kept b t valid,returnedMask,mul_ite,mul_one,mul_zero]

/-- Without one the metrics refuse the batch. -/
theorem compute_empty (rows : B ≠ 0) (none_ : ∀ b t, responseMask b t = 0) (nonempty : thresholds ≠ []) :
    ∃ e, computeRolloutRejectionMask E float logRatio responseMask (some rolloutRs) thresholdSpec = .error e := by
  obtain ⟨entry,rest,rfl⟩ := List.exists_cons_of_ne_nil nonempty
  have refused : computeRsMetrics responseMask =
      .error "response_mask must contain at least one valid token (1)." :=
    if_neg (fun ⟨b,t,valid⟩ => valid (none_ b t))
  have step : ∃ e, combineOption E logRatio responseMask (entry :: rest) (fun _ _ => 1) entry.1 = .error e := by
    simp only [combineOption,lookup_of_mem _ settings.nodup entry List.mem_cons_self,bind,Except.bind,refused]
    cases tokenKeepBool E logRatio responseMask entry.1 entry.2 with
    | error e => exact ⟨e,rfl⟩
    | ok keep => exact ⟨_,rfl⟩
  obtain ⟨e,failed⟩ := step
  refine ⟨e,?_⟩
  rw [compute_eq E settings logRatio responseMask rows,List.map_cons,List.foldlM_cons,failed]
  rfl

end Settled

theorem skewedKeeps_plain (logRatio : Fin B → Fin T → 𝕜) (responseMask : Fin B → Fin T → Nat)
    (option : RolloutRsOption) (plain : option.skewed = false) (bounds : Thresholds 𝕜) (b : Fin B) (t : Fin T) :
    skewedKeeps E logRatio responseMask option bounds b t = documentedKeeps E logRatio responseMask option bounds b t := by
  cases option with
  | token k | seqSum k =>
    cases k with
    | k1 => cases plain
    | k2 | k3 => rfl
  | seqMean k => cases plain
  | seqMaxK2 | seqMaxK3 => rfl

/-- The plain options say the same in both masks. -/
theorem masks_eq_iff (logRatio : Fin B → Fin T → 𝕜) (responseMask : Fin B → Fin T → Nat)
    (thresholds : List (RolloutRsOption × Thresholds 𝕜)) (some_ : ∃ b t, responseMask b t ≠ 0) :
    returnedMask E logRatio responseMask thresholds = documentedMask E logRatio responseMask thresholds ↔
      Balanced E logRatio responseMask thresholds := by
  have token : ∀ b t, (returnedMask E logRatio responseMask thresholds b t =
      documentedMask E logRatio responseMask thresholds b t) ↔ (responseMask b t ≠ 0 →
        ((∀ entry ∈ thresholds, skewedKeeps E logRatio responseMask entry.1 entry.2 b t = true) ↔
          ∀ entry ∈ thresholds, documentedKeeps E logRatio responseMask entry.1 entry.2 b t = true)) := by
    intro b t
    rw [← List.all_eq_true,← List.all_eq_true,returnedMask,documentedMask]
    by_cases valid : responseMask b t = 0
    · simp only [valid,ite_self,ne_eq,not_true_eq_false,false_imp_iff]
    · by_cases left : thresholds.all (fun entry => skewedKeeps E logRatio responseMask entry.1 entry.2 b t) = true
      <;> by_cases right : thresholds.all (fun entry => documentedKeeps E logRatio responseMask entry.1 entry.2 b t) = true
      <;> simp [left,right,valid]
      exact fun zero => valid zero.symm
  have divided : ∀ b t, ∀ keeps : RolloutRsOption → Thresholds 𝕜 → Fin B → Fin T → Bool,
      (∀ option bounds, option.skewed = false →
        keeps option bounds b t = documentedKeeps E logRatio responseMask option bounds b t) →
      ((∀ entry ∈ thresholds, keeps entry.1 entry.2 b t = true) ↔
        (∀ entry ∈ thresholds, entry.1.skewed = false →
          documentedKeeps E logRatio responseMask entry.1 entry.2 b t = true) ∧
        ∀ entry ∈ thresholds, entry.1.skewed = true → keeps entry.1 entry.2 b t = true) := by
    intro b t keeps plain
    constructor
    · exact fun all => ⟨fun entry member even => plain _ _ even ▸ all entry member,fun entry member _ => all entry member⟩
    · intro both entry member
      cases skewed : entry.1.skewed with
      | false => exact (plain _ _ skewed).trans (both.1 entry member skewed)
      | true => exact both.2 entry member skewed
  rw [funext_iff]
  simp only [funext_iff,token,Balanced,some_,true_and]
  refine forall_congr' fun b => forall_congr' fun t => imp_congr_right fun _ => ?_
  rw [divided b t (skewedKeeps E logRatio responseMask)
      (fun option bounds plain => skewedKeeps_plain E logRatio responseMask option plain bounds b t),
    divided b t (documentedKeeps E logRatio responseMask) (fun _ _ _ => rfl),and_congr_right_iff]

/-- Without rows the mask comes back before anything else. -/
theorem compute_noRows (float : List Char → Option (PyFloat 𝕜)) (rolloutRs : List Char) (thresholdSpec : ThresholdSpec)
    (given : thresholdSpec.isMissing = false) (none_ : B = 0) (logRatio : Fin B → Fin T → 𝕜)
    (responseMask : Fin B → Fin T → Nat) :
    computeRolloutRejectionMask E float logRatio responseMask (some rolloutRs) thresholdSpec = .ok responseMask := by
  simp only [computeRolloutRejectionMask,given,bind,Except.bind,Bool.false_eq_true,if_false,if_pos none_,pure,Except.pure]

section Settled

variable {float : List Char → Option (PyFloat 𝕜)} {rolloutRs : List Char} {thresholdSpec : ThresholdSpec}
  {options : List RolloutRsOption} {thresholds : List (RolloutRsOption × Thresholds 𝕜)}

theorem Settings.nonempty (settings : Settings float rolloutRs thresholdSpec options thresholds) : thresholds ≠ [] := by
  intro empty
  have keys := settings.keys
  rw [empty] at keys
  exact rolloutRsOptions_nonempty rolloutRs options settings.listed keys.symm

/-- The code returns for no rows or with some valid token, and then `returnedMask`. -/
theorem compute_ok_iff (settings : Settings float rolloutRs thresholdSpec options thresholds)
    (logRatio : Fin B → Fin T → 𝕜) (responseMask : Fin B → Fin T → Nat)
    (binary : ∀ b t, responseMask b t = 0 ∨ responseMask b t = 1) (kept : Fin B → Fin T → Nat) :
    computeRolloutRejectionMask E float logRatio responseMask (some rolloutRs) thresholdSpec = .ok kept ↔
      (B = 0 ∨ ∃ b t, responseMask b t ≠ 0) ∧ kept = returnedMask E logRatio responseMask thresholds := by
  by_cases rows : B = 0
  · have same : ∀ left right : Fin B → Fin T → Nat, left = right :=
      fun left right => funext fun b => (Nat.not_lt_zero b.val (rows ▸ b.isLt)).elim
    rw [compute_noRows E float rolloutRs thresholdSpec settings.given rows logRatio responseMask]
    exact ⟨fun _ => ⟨.inl rows,same _ _⟩,fun _ => congrArg Except.ok (same _ _)⟩
  · by_cases some_ : ∃ b t, responseMask b t ≠ 0
    · rw [compute_valid E settings logRatio responseMask binary some_,Except.ok.injEq]
      exact ⟨fun same => ⟨.inr some_,same.symm⟩,fun both => both.2.symm⟩
    · push Not at some_
      obtain ⟨e,failed⟩ := compute_empty E settings logRatio responseMask rows some_ settings.nonempty
      rw [failed]
      refine ⟨fun same => (by cases same),fun both => ?_⟩
      rcases both.1 with none_ | ⟨b,t,valid⟩
      · exact (rows none_).elim
      · exact (valid (some_ b t)).elim

theorem returnedMask_le (logRatio : Fin B → Fin T → 𝕜) (responseMask : Fin B → Fin T → Nat)
    (fewer : List (RolloutRsOption × Thresholds 𝕜)) (sub : fewer ⊆ thresholds) (b : Fin B) (t : Fin T) :
    returnedMask E logRatio responseMask thresholds b t ≤ returnedMask E logRatio responseMask fewer b t := by
  rw [returnedMask]
  split
  · next all =>
    rw [List.all_eq_true] at all
    rw [returnedMask,if_pos (List.all_eq_true.mpr (fun entry member => all entry (sub member)))]
  · exact Nat.zero_le _

/-- A row's tests read that row only. -/
theorem returnedMask_row {rows : Nat} (logRatio : Fin B → Fin T → 𝕜) (responseMask : Fin B → Fin T → Nat)
    (otherRatio : Fin rows → Fin T → 𝕜) (otherMask : Fin rows → Fin T → Nat) (b : Fin B) (row : Fin rows)
    (sameRatio : otherRatio row = logRatio b) (sameMask : otherMask row = responseMask b) :
    returnedMask E otherRatio otherMask thresholds row = returnedMask E logRatio responseMask thresholds b := by
  funext t
  have safe : logRatioSafe otherRatio row = logRatioSafe logRatio b :=
    funext fun u => by rw [logRatioSafe,sameRatio]; rfl
  have valid : validTokens otherMask row = validTokens responseMask b := by rw [validTokens,sameMask]; rfl
  have ratios : ratio E otherRatio row = ratio E logRatio b := funext fun u => by rw [ratio,safe]; rfl
  have product : productRatio E otherRatio otherMask row = productRatio E logRatio responseMask b := by
    rw [productRatio,valid,ratios]
    rfl
  have mean : ∀ n, meanRatio E otherRatio otherMask n row = meanRatio E logRatio responseMask n b := by
    intro n
    rw [meanRatio,valid,safe]
    rfl
  have tests : ∀ option bounds, skewedKeeps E otherRatio otherMask option bounds row t =
      skewedKeeps E logRatio responseMask option bounds b t := by
    intro option bounds
    cases option with
    | token k | seqSum k | seqMean k =>
      cases k <;> simp only [skewedKeeps,documentedKeeps,safe,valid,ratios,product,mean]
    | seqMaxK2 | seqMaxK3 => simp only [skewedKeeps,documentedKeeps,safe,valid]
  rw [returnedMask,returnedMask,sameMask]
  simp only [tests]

/-- The mask is the documented one exactly when the inverted tests make no difference. Whatever the
tests, tokens only leave the mask, rows are apart and the order of the options is free. -/
theorem rejection_mask_iff (settings : Settings float rolloutRs thresholdSpec options thresholds)
    (logRatio : Fin B → Fin T → 𝕜) (responseMask : Fin B → Fin T → Nat)
    (binary : ∀ b t, responseMask b t = 0 ∨ responseMask b t = 1) :
    DocumentedThresholds float options thresholdSpec thresholds ∧
    (computeRolloutRejectionMask E float logRatio responseMask (some rolloutRs) thresholdSpec =
        .ok (documentedMask E logRatio responseMask thresholds) ↔
      B = 0 ∨ Balanced E logRatio responseMask thresholds) ∧
    ∀ kept, computeRolloutRejectionMask E float logRatio responseMask (some rolloutRs) thresholdSpec = .ok kept →
      (∀ b t, kept b t = responseMask b t ∨ kept b t = 0) ∧
      (∀ rolloutRs' thresholdSpec' options' thresholds',
        Settings float rolloutRs' thresholdSpec' options' thresholds' →
        (thresholds' ⊆ thresholds → ∀ kept',
          computeRolloutRejectionMask E float logRatio responseMask (some rolloutRs') thresholdSpec' = .ok kept' →
          ∀ b t, kept b t ≤ kept' b t) ∧
        (thresholds'.Perm thresholds →
          computeRolloutRejectionMask E float logRatio responseMask (some rolloutRs') thresholdSpec' = .ok kept)) ∧
      (∀ (rows : Nat) (otherRatio : Fin rows → Fin T → 𝕜) (otherMask : Fin rows → Fin T → Nat),
        (∀ b t, otherMask b t = 0 ∨ otherMask b t = 1) → ∀ kept',
        computeRolloutRejectionMask E float otherRatio otherMask (some rolloutRs) thresholdSpec = .ok kept' →
        ∀ b row, otherRatio row = logRatio b → otherMask row = responseMask b → kept' row = kept b) := by
  refine ⟨parse_documented float options thresholdSpec thresholds settings.parsed,?_,?_⟩
  · rw [compute_ok_iff E settings logRatio responseMask binary]
    constructor
    · intro both
      refine both.1.imp_right (fun some_ => ?_)
      exact (masks_eq_iff E logRatio responseMask thresholds some_).mp both.2.symm
    · rintro (none_ | balanced)
      · exact ⟨.inl none_,funext fun b => (Nat.not_lt_zero b.val (none_ ▸ b.isLt)).elim⟩
      · exact ⟨.inr balanced.1,((masks_eq_iff E logRatio responseMask thresholds balanced.1).mpr balanced).symm⟩
  · intro kept returned
    obtain ⟨returns,rfl⟩ := (compute_ok_iff E settings logRatio responseMask binary kept).mp returned
    refine ⟨fun b t => ?_,?_,?_⟩
    · rw [returnedMask]
      split
      · exact .inl rfl
      · exact .inr rfl
    · intro rolloutRs' thresholdSpec' options' thresholds' settings'
      refine ⟨fun sub kept' returned' => ?_,fun perm => ?_⟩
      · obtain ⟨_,rfl⟩ := (compute_ok_iff E settings' logRatio responseMask binary kept').mp returned'
        exact returnedMask_le E logRatio responseMask thresholds' sub
      refine (compute_ok_iff E settings' logRatio responseMask binary _).mpr ⟨returns,?_⟩
      exact funext fun b => funext fun t => le_antisymm
        (returnedMask_le E logRatio responseMask thresholds' perm.subset b t)
        (returnedMask_le E logRatio responseMask thresholds perm.symm.subset b t)
    · intro rows otherRatio otherMask binary' kept' returned' b row sameRatio sameMask
      obtain ⟨_,rfl⟩ := (compute_ok_iff E settings otherRatio otherMask binary' kept').mp returned'
      exact returnedMask_row E logRatio responseMask otherRatio otherMask b row sameRatio sameMask

end Settled

/-- With bounds `1/u` and `u` a ratio passes when its inverse does. -/
theorem within_inv [IsStrictOrderedRing 𝕜] (bounds : Thresholds 𝕜) (u : 𝕜) (high : bounds.upper = .finite u)
    (low : bounds.lower = some (.finite u⁻¹)) (x : 𝕜) (positive : 0 < x) : bounds.within x⁻¹ = bounds.within x := by
  have above : 0 < u := by
    have held := bounds.upper_positive
    rw [high,PyFloat.nonpos,decide_eq_false_iff_not] at held
    exact lt_of_not_ge held
  rw [Thresholds.within,Thresholds.within,high,low,Option.all_some,Option.all_some,Bool.and_comm]
  have left : (PyFloat.finite u).above x⁻¹ = (PyFloat.finite u⁻¹).below x :=
    decide_eq_decide.mpr (inv_le_comm₀ positive above)
  have right : (PyFloat.finite u⁻¹).below x⁻¹ = (PyFloat.finite u).above x :=
    decide_eq_decide.mpr (inv_le_inv₀ above positive)
  rw [left,right]

/-- Symmetric thresholds without means hide the inversion. -/
theorem reciprocal_balanced [IsStrictOrderedRing 𝕜] (logRatio : Fin B → Fin T → 𝕜) (responseMask : Fin B → Fin T → Nat)
    (thresholds : List (RolloutRsOption × Thresholds 𝕜)) (some_ : ∃ b t, responseMask b t ≠ 0)
    (plain : ∀ entry ∈ thresholds, ∀ k, entry.1 ≠ .seqMean k)
    (symmetric : ∀ entry ∈ thresholds, entry.1.isK1 = true →
      ∃ u, entry.2.upper = .finite u ∧ entry.2.lower = some (.finite u⁻¹)) :
    Balanced E logRatio responseMask thresholds := by
  have same : ∀ entry ∈ thresholds, ∀ b t, skewedKeeps E logRatio responseMask entry.1 entry.2 b t =
      documentedKeeps E logRatio responseMask entry.1 entry.2 b t := by
    rintro ⟨option,bounds⟩ member b t
    cases skewed : option.skewed with
    | false => exact skewedKeeps_plain E logRatio responseMask option skewed bounds b t
    | true =>
      have product : 0 < productRatio E logRatio responseMask b := Finset.prod_pos (fun u _ => E.exp_pos _)
      cases option with
      | token k =>
        cases k with
        | k1 =>
          obtain ⟨u,high,low⟩ := symmetric _ member rfl
          exact within_inv bounds u high low _ (E.exp_pos _)
        | k2 | k3 => cases skewed
      | seqSum k =>
        cases k with
        | k1 =>
          obtain ⟨u,high,low⟩ := symmetric _ member rfl
          exact within_inv bounds u high low _ product
        | k2 | k3 => cases skewed
      | seqMean k => exact (plain _ member k rfl).elim
      | seqMaxK2 | seqMaxK3 => cases skewed
  refine ⟨some_,fun b t _ _ => forall_congr' fun entry => forall_congr' fun member => ?_⟩
  rw [same entry member b t]

end Mask

noncomputable def realExpLog : ExpLog ℝ where
  exp := Real.exp
  log := Real.log
  exp_add := Real.exp_add
  exp_pos := Real.exp_pos
  exp_le_exp _ _ := Real.exp_le_exp
  exp_log _ := Real.exp_log

/-- `float` on the texts of the two runs below. -/
noncomputable def sampleFloat (text : List Char) : Option (PyFloat ℝ) :=
  if text = ['0','.','5'] then some (.finite ((1 / 2 : ℚ) : ℝ))
  else if text = ['2'] then some (.finite ((2 : ℕ) : ℝ))
  else if text = ['3'] then some (.finite ((3 : ℕ) : ℝ))
  else none

theorem half_positive : (PyFloat.finite ((1 / 2 : ℚ) : ℝ)).nonpos = false := by
  rw [PyFloat.nonpos,decide_eq_false_iff_not]
  norm_num

theorem nat_positive (n : ℕ) (some_ : 0 < n) : (PyFloat.finite (n : ℝ)).nonpos = false := by
  rw [PyFloat.nonpos,decide_eq_false_iff_not]
  exact not_le.mpr (Nat.cast_pos.mpr some_)

/-- The bounds `"0.5_n"`. -/
noncomputable def halfBounds (n : ℕ) (some_ : 0 < n) : Thresholds ℝ where
  lower := some (.finite ((1 / 2 : ℚ) : ℝ))
  upper := .finite (n : ℝ)
  lower_positive _ held := Option.some.inj held ▸ half_positive
  upper_positive := nat_positive n some_

theorem halfBounds_within (n : ℕ) (some_ : 0 < n) (x : ℝ) :
    (halfBounds n some_).within x = decide (1 / 2 ≤ x ∧ x ≤ n) := by
  rw [Thresholds.within,halfBounds,Option.all_some,PyFloat.below,PyFloat.above,← Bool.decide_and]
  norm_num

theorem wide_upper : 0 < 3 := by decide

theorem reciprocal_upper : 0 < 2 := by decide

noncomputable def wideBounds : Thresholds ℝ := halfBounds 3 wide_upper

noncomputable def reciprocalBounds : Thresholds ℝ := halfBounds 2 reciprocal_upper

theorem half_settings (text digits : List Char) (n : ℕ) (some_ : 0 < n) (raw : fields ',' text = [text])
    (parts : '_' ∈ text ∧ splitOnce '_' text = (['0','.','5'],digits))
    (upper : sampleFloat digits = some (.finite (n : ℝ))) :
    Settings sampleFloat "token_k1".toList (.text text) [.token .k1] [(.token .k1,halfBounds n some_)] where
  listed := by rfl
  parsed := by
    have lower : sampleFloat ['0','.','5'] = some (.finite ((1 / 2 : ℚ) : ℝ)) := if_pos rfl
    have read : ratioBounds sampleFloat (.token .k1) text = .ok (.finite ((1 / 2 : ℚ) : ℝ),.finite (n : ℝ)) := by
      rw [ratioBounds,if_pos parts.1,parts.2,lower,upper]
    have entry : parseEntry sampleFloat (.token .k1) text = .ok (halfBounds n some_) := by
      have k1 : (RolloutRsOption.token .k1).isK1 = true := rfl
      rw [parseEntry,if_pos k1,read]
      exact dif_pos ⟨half_positive,nat_positive n some_⟩
    have paired : pairedSpecs [.token .k1] [text] = .ok [(.token .k1,text)] := rfl
    rw [parseRolloutRsThresholds,rawSpecs,raw]
    simp only [bind,Except.bind,paired,parseEntries,entry]
    rfl

theorem wide_settings : Settings sampleFloat "token_k1".toList (.text "0.5_3".toList) [.token .k1]
    [(.token .k1,wideBounds)] :=
  half_settings _ ['3'] 3 wide_upper (by rfl) ⟨by decide,by rfl⟩ (by rw [sampleFloat,if_neg (by decide),if_neg (by decide),if_pos rfl])

theorem reciprocal_settings : Settings sampleFloat "token_k1".toList (.text "0.5_2".toList) [.token .k1]
    [(.token .k1,reciprocalBounds)] :=
  half_settings _ ['2'] 2 reciprocal_upper (by rfl) ⟨by decide,by rfl⟩ (by rw [sampleFloat,if_neg (by decide),if_pos rfl])

/-- One token of log ratio 1 under `token_k1` with `"0.5_3"`. -/
noncomputable def wideRun : Except String (Fin 1 → Fin 1 → Nat) :=
  computeRolloutRejectionMask realExpLog sampleFloat (fun _ _ => 1) (fun _ _ => 1) (some "token_k1".toList)
    (.text "0.5_3".toList)

theorem wide_ratio : ratio realExpLog (fun (_ : Fin 1) (_ : Fin 1) => 1) 0 0 = Real.exp 1 := by
  rw [ratio,logRatioSafe,safetyBound]
  norm_num [realExpLog]

/-- The ratio `e` is within `[0.5, 3]`, its inverse is not: the token goes. -/
theorem rejection_mask_inverted : wideRun = .ok (fun _ _ => 0) ∧
    documentedMask realExpLog (fun (_ : Fin 1) (_ : Fin 1) => 1) (fun _ _ => 1) [(.token .k1,wideBounds)] 0 0 = 1 := by
  have low : ¬ 1 / 2 ≤ (Real.exp 1)⁻¹ := by
    rw [one_div,inv_le_inv₀ two_pos (Real.exp_pos 1)]
    linarith [Real.exp_one_gt_d9]
  constructor
  · rw [wideRun,compute_valid realExpLog wide_settings _ _ (fun _ _ => .inr rfl) ⟨0,0,one_ne_zero⟩]
    refine congrArg Except.ok (funext fun b => funext fun t => ?_)
    obtain rfl : b = 0 := Subsingleton.elim _ _
    obtain rfl : t = 0 := Subsingleton.elim _ _
    rw [returnedMask,List.all_cons,skewedKeeps,wide_ratio,wideBounds,halfBounds_within,
      decide_eq_false (fun both => low both.1),Bool.false_and,if_neg Bool.false_ne_true]
  · have inside : 1 / 2 ≤ Real.exp 1 ∧ Real.exp 1 ≤ (3 : ℕ) := by
      norm_num
      constructor <;> linarith [Real.exp_one_gt_d9,Real.exp_one_lt_d9]
    rw [documentedMask,List.all_cons,documentedKeeps,wide_ratio,wideBounds,halfBounds_within,decide_eq_true inside]
    rfl

/-- Two tokens, of log ratios 1 and 1/2. -/
noncomputable def twoTokens : Fin 1 → Fin 2 → ℝ := fun _ t => if (t : Nat) = 0 then 1 else ((1 / 2 : ℚ) : ℝ)

/-- Under `"0.5_2"` the ratio `e` and its inverse are both outside, the root of `e` and its inverse inside. -/
theorem rejection_mask_reciprocal : documentedMask realExpLog twoTokens (fun _ _ => 1)
      [(.token .k1,reciprocalBounds)] 0 = ![0,1] ∧
    computeRolloutRejectionMask realExpLog sampleFloat twoTokens (fun _ _ => 1)
      (some "token_k1".toList) (.text "0.5_2".toList) =
        .ok (documentedMask realExpLog twoTokens (fun _ _ => 1) [(.token .k1,reciprocalBounds)]) := by
  have ratios : ∀ t, ratio realExpLog twoTokens 0 t = Real.exp (twoTokens 0 t) := by
    intro t
    rw [ratio,logRatioSafe,safetyBound,twoTokens]
    split <;> norm_num [realExpLog]
  have root : Real.exp (1 / 2) ≤ 2 := by
    have square : Real.exp (1 / 2) ^ 2 = Real.exp 1 := by
      rw [← Real.exp_nat_mul]
      norm_num
    nlinarith [Real.exp_one_lt_d9,Real.exp_pos (1 / 2)]
  constructor
  · funext t
    rw [documentedMask,List.all_cons,documentedKeeps,ratios,reciprocalBounds,halfBounds_within]
    fin_cases t
    · have outside : ¬ (1 / 2 ≤ Real.exp 1 ∧ Real.exp 1 ≤ (2 : ℕ)) := by
        norm_num
        intro _
        linarith [Real.exp_one_gt_d9]
      exact if_neg (by simpa [twoTokens] using outside)
    · have inside : 1 / 2 ≤ Real.exp (1 / 2) ∧ Real.exp (1 / 2) ≤ (2 : ℕ) := by
        have one := Real.one_le_exp (show (0 : ℝ) ≤ 1 / 2 by norm_num)
        exact ⟨by linarith,by norm_num; linarith⟩
      exact if_pos (by simpa [twoTokens] using inside)
  · refine ((rejection_mask_iff realExpLog reciprocal_settings twoTokens (fun _ _ => 1) (fun _ _ => .inr rfl)).2.1).mpr
      (.inr (reciprocal_balanced realExpLog twoTokens (fun _ _ => 1) _ ⟨0,0,one_ne_zero⟩ ?_ ?_))
    · intro entry member k
      obtain rfl := List.mem_singleton.mp member
      exact RolloutRsOption.noConfusion
    · intro entry member _
      obtain rfl := List.mem_singleton.mp member
      exact ⟨2,by rw [reciprocalBounds,halfBounds]; norm_num,by rw [reciprocalBounds,halfBounds]; norm_num⟩

end RelayOpd.RolloutRejection
