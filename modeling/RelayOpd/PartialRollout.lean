import Mathlib.Data.List.Basic

/-! Generation that resumes after aborts. A request is repeated with what has been generated
so far until the server finishes it or the limit is reached. -/
namespace RelayOpd.PartialRollout

/-- The sampling parameters; `σ` are the entries that are only passed on. -/
structure SamplingParams (σ : Type) where
  maxTokens : Option Nat := none
  maxNewTokens : Option Nat := none
  others : σ

structure TokenOutput (ℓ η : Type) where
  tokenIds : List Nat
  logProbs : Option (List ℓ)
  routedExperts : Option (List η)
  numPreempted : Option Nat
  stopReason : Option String
  globalSteps : Option Nat

/-- `final_output`, whose log-probs are a list from the start. -/
structure FinalOutput (ℓ η : Type) where
  tokenIds : List Nat := []
  logProbs : List ℓ := []
  routedExperts : Option (List η) := none
  numPreempted : Nat := 0
  stopReason : Option String := none
  globalSteps : Option Nat := none
  minGlobalSteps : Option Nat := none
  maxGlobalSteps : Option Nat := none

variable {σ ℓ η : Type}

namespace SamplingParams

/-- The value under `limit_key`. The server reads the same key first. -/
def limit (params : SamplingParams σ) : Option Nat := params.maxTokens <|> params.maxNewTokens

/-- `sampling_params[limit_key] = value`. -/
def setLimit (value : Nat) (params : SamplingParams σ) : SamplingParams σ :=
  if params.maxTokens.isSome then { params with maxTokens := some value }
  else { params with maxNewTokens := some value }

end SamplingParams

def aborted (stopReason : Option String) : Bool := stopReason = some "aborted" ∨ stopReason = some "abort"

/-- Routing rows of the prompt and the first part are kept, and those of new tokens appended. -/
def mergeRouting (final : Option (List η)) (output : TokenOutput ℓ η) : Option (List η) :=
  match output.routedExperts with
  | some rows =>
    if output.tokenIds.length = 0 then final
    else
      match final with
      | none => some rows
      | some kept => some (kept ++ rows.drop (rows.length - output.tokenIds.length))
  | none => final

def mergeOutput (final : FinalOutput ℓ η) (output : TokenOutput ℓ η) : FinalOutput ℓ η where
  tokenIds := final.tokenIds ++ output.tokenIds
  logProbs := final.logProbs ++ output.logProbs.getD []
  routedExperts := mergeRouting final.routedExperts output
  numPreempted := final.numPreempted + output.numPreempted.getD 0
  stopReason := output.stopReason
  globalSteps := output.globalSteps
  minGlobalSteps := final.minGlobalSteps <|> output.globalSteps
  maxGlobalSteps := output.globalSteps

/-- The answers of the server to the requests of one call, one after another. -/
abbrev Answers (σ ℓ η : Type) := Nat → List Nat → SamplingParams σ → TokenOutput ℓ η

/-- The loop of `FullyAsyncLLMServerClient.generate`. It returns the caller's parameters as it
leaves them; the server never returns more tokens than asked for, so the difference is exact. -/
def generateLoop (partialRollout : Bool) (answer : Answers σ ℓ η) (promptIds : List Nat)
    (originalMaxTokens : Option Nat) :
    Nat → Nat → SamplingParams σ → FinalOutput ℓ η → Option (FinalOutput ℓ η × SamplingParams σ)
  | 0,_,_,_ => none
  | fuel + 1,attempt,params,final =>
    let output := answer attempt (promptIds ++ final.tokenIds) params
    let final := mergeOutput final output
    match originalMaxTokens with
    | some limit =>
      let params := params.setLimit (limit - final.tokenIds.length)
      if final.tokenIds.length ≥ limit then some ({ final with stopReason := some "length" },params)
      else if !aborted output.stopReason || !partialRollout then some (final,params)
      else generateLoop partialRollout answer promptIds originalMaxTokens fuel (attempt + 1) params final
    | none =>
      if !aborted output.stopReason || !partialRollout then some (final,params)
      else generateLoop partialRollout answer promptIds originalMaxTokens fuel (attempt + 1) params final

/-- `FullyAsyncLLMServerClient.generate`, with the parameters after the call. -/
def Generates (partialRollout : Bool) (answer : Answers σ ℓ η) (promptIds : List Nat) (params : SamplingParams σ)
    (result : FinalOutput ℓ η × SamplingParams σ) : Prop :=
  ∃ fuel, generateLoop partialRollout answer promptIds params.limit fuel 0 params {} = some result

/-- Calls with one parameter dictionary, each with its own prompt and its own server answers. -/
inductive Calls (partialRollout : Bool) :
    SamplingParams σ → List (List Nat × Answers σ ℓ η) → List (FinalOutput ℓ η × SamplingParams σ) → Prop where
  | nil (params) : Calls partialRollout params [] []
  | cons (params promptIds answer output after calls results)
      (first : Generates partialRollout answer promptIds params (output,after))
      (rest : Calls partialRollout after calls results) :
      Calls partialRollout params ((promptIds,answer) :: calls) ((output,after) :: results)

/-- A server whose next token, its log-prob and its routing depend on the tokens so far only. -/
structure Server (ℓ η : Type) where
  next : List Nat → Option (Nat × ℓ)
  route : List Nat → η
  logprobs : Bool
  routing : Bool

namespace Server

variable (server : Server ℓ η)

/-- The tokens and log-probs that can follow a prefix. -/
def Follows : List Nat → List (Nat × ℓ) → Prop
  | _,[] => True
  | tokens,step :: steps => server.next tokens = some step ∧ Follows (tokens ++ [step.1]) steps

/-- One routing row for each position. -/
def routes (tokens : List Nat) : List η := (List.range tokens.length).map (fun j => server.route (tokens.take (j + 1)))

/-- An answer of the server: at most `max_tokens` tokens, and all of them unless it is aborted. -/
structure Answered (promptIds : List Nat) (limit : Option Nat) (output : TokenOutput ℓ η) : Prop where
  follows : ∃ steps, server.Follows promptIds steps ∧ output.tokenIds = steps.map Prod.fst ∧
    output.logProbs = if server.logprobs then some (steps.map Prod.snd) else none
  within : ∀ bound, limit = some bound → output.tokenIds.length ≤ bound
  complete : aborted output.stopReason = false →
    limit = some output.tokenIds.length ∨ server.next (promptIds ++ output.tokenIds) = none
  routed : output.routedExperts =
      (if server.routing then some (server.routes (promptIds ++ output.tokenIds)) else none) ∨
    (output.tokenIds = [] ∧ output.routedExperts = none)

end Server

/-- A call that does not show the aborts: its result is the one of `LLMServerClient.generate`
without aborts, and the parameters are as the caller made them. -/
structure Invisible (server : Server ℓ η) (params : SamplingParams σ) (promptIds : List Nat)
    (result : FinalOutput ℓ η × SamplingParams σ) : Prop where
  same : ∀ full, server.Answered promptIds params.limit full → aborted full.stopReason = false →
    result.1.tokenIds = full.tokenIds ∧ some result.1.logProbs = full.logProbs
  within : ∀ bound, params.limit = some bound → result.1.tokenIds.length ≤ bound
  logprobs : server.logprobs = true → result.1.logProbs.length = result.1.tokenIds.length
  routed : (∀ rows, result.1.routedExperts = some rows → rows = server.routes (promptIds ++ result.1.tokenIds)) ∧
    (server.routing = true → result.1.tokenIds ≠ [] → result.1.routedExperts.isSome = true)
  params : result.2 = params

section Proofs

variable {server : Server ℓ η}

namespace Server

theorem follows_append (tokens : List Nat) (first rest : List (Nat × ℓ)) :
    server.Follows tokens (first ++ rest) ↔
      server.Follows tokens first ∧ server.Follows (tokens ++ first.map Prod.fst) rest := by
  induction first generalizing tokens with
  | nil => simp [Follows]
  | cons step first ih => simp [Follows,ih,and_assoc]

/-- Two continuations agree as far as both go. -/
theorem follows_prefix (tokens : List Nat) (a b : List (Nat × ℓ)) (first : server.Follows tokens a)
    (second : server.Follows tokens b) : (∃ more, b = a ++ more) ∨ ∃ more, a = b ++ more := by
  induction a generalizing tokens b with
  | nil => exact .inl ⟨b,rfl⟩
  | cons step a ih =>
    cases b with
    | nil => exact .inr ⟨step :: a,rfl⟩
    | cons other b =>
      obtain rfl := Option.some.inj (first.1.symm.trans second.1)
      rcases ih (tokens ++ [step.1]) b first.2 second.2 with ⟨more,rfl⟩ | ⟨more,rfl⟩
      · exact .inl ⟨more,rfl⟩
      · exact .inr ⟨more,rfl⟩

/-- A continuation that goes as far as the limit and the server let it. -/
structure Complete (server : Server ℓ η) (promptIds : List Nat) (limit : Option Nat) (steps : List (Nat × ℓ)) :
    Prop where
  follows : server.Follows promptIds steps
  within : ∀ bound, limit = some bound → steps.length ≤ bound
  complete : limit = some steps.length ∨ server.next (promptIds ++ steps.map Prod.fst) = none

theorem Complete.not_longer {promptIds : List Nat} {limit : Option Nat} {steps more : List (Nat × ℓ)}
    (short : server.Complete promptIds limit steps) (long : server.Complete promptIds limit (steps ++ more)) :
    more = [] := by
  cases more with
  | nil => rfl
  | cons step more =>
    have goes := ((follows_append promptIds steps (step :: more)).mp long.follows).2.1
    rcases short.complete with limited | ended
    · have longer := long.within steps.length limited
      rw [List.length_append,List.length_cons] at longer
      omega
    · rw [goes] at ended
      nomatch ended

theorem Complete.unique {promptIds : List Nat} {limit : Option Nat} {a b : List (Nat × ℓ)}
    (first : server.Complete promptIds limit a) (second : server.Complete promptIds limit b) : a = b := by
  rcases follows_prefix promptIds a b first.follows second.follows with ⟨more,rfl⟩ | ⟨more,rfl⟩
  · rw [first.not_longer second,List.append_nil]
  · rw [second.not_longer first,List.append_nil]

theorem routes_append (tokens more : List Nat) :
    server.routes (tokens ++ more) = server.routes tokens ++
      (server.routes (tokens ++ more)).drop ((server.routes (tokens ++ more)).length - more.length) := by
  have length : ∀ xs, (server.routes xs).length = xs.length := fun xs => by simp [routes]
  have front : (server.routes (tokens ++ more)).take tokens.length = server.routes tokens := by
    apply List.ext_getElem
    · simp [length]
    · intro j first second
      have bound : j < tokens.length := by simpa [length] using second
      simp [routes,List.take_append_of_le_length (Nat.succ_le_of_lt bound)]
  rw [length,List.length_append,Nat.add_sub_cancel,← front,List.take_append_drop]

end Server

namespace SamplingParams

/-- The parameters after `count` tokens. -/
def remaining (count : Nat) (params : SamplingParams σ) : SamplingParams σ :=
  match params.limit with
  | some bound => params.setLimit (bound - count)
  | none => params

theorem limit_setLimit (params : SamplingParams σ) (value : Nat) : (params.setLimit value).limit = some value := by
  obtain ⟨maxTokens,maxNewTokens,others⟩ := params
  cases maxTokens <;> simp [setLimit,limit]

theorem setLimit_setLimit (params : SamplingParams σ) (a b : Nat) : (params.setLimit a).setLimit b = params.setLimit b := by
  obtain ⟨maxTokens,maxNewTokens,others⟩ := params
  cases maxTokens <;> simp [setLimit]

theorem setLimit_limit (params : SamplingParams σ) (bound : Nat) (given : params.limit = some bound) :
    params.setLimit bound = params := by
  obtain ⟨maxTokens,maxNewTokens,others⟩ := params
  cases maxTokens with
  | none =>
    obtain rfl : maxNewTokens = some bound := given
    rfl
  | some own =>
    obtain rfl : own = bound := Option.some.inj given
    rfl

theorem limit_remaining (params : SamplingParams σ) (count : Nat) :
    (params.remaining count).limit = params.limit.map (· - count) := by
  unfold remaining
  cases given : params.limit with
  | none => exact given
  | some bound => exact limit_setLimit params _

theorem remaining_zero (params : SamplingParams σ) : params.remaining 0 = params := by
  unfold remaining
  cases given : params.limit with
  | none => rfl
  | some bound => exact setLimit_limit params bound given

end SamplingParams

/-- The loop after some answers: `steps` have been generated. -/
structure Held (server : Server ℓ η) (promptIds : List Nat) (limit : Option Nat) (steps : List (Nat × ℓ))
    (final : FinalOutput ℓ η) : Prop where
  follows : server.Follows promptIds steps
  within : ∀ bound, limit = some bound → steps.length ≤ bound
  tokenIds : final.tokenIds = steps.map Prod.fst
  logProbs : final.logProbs = if server.logprobs then steps.map Prod.snd else []
  routed : final.routedExperts =
      (if server.routing then some (server.routes (promptIds ++ final.tokenIds)) else none) ∨
    (final.tokenIds = [] ∧ final.routedExperts = none)

/-- Merging an answer to the extended prompt. -/
theorem Held.merge {promptIds : List Nat} {params : SamplingParams σ} {steps : List (Nat × ℓ)}
    {final : FinalOutput ℓ η} (held : Held server promptIds params.limit steps final) (output : TokenOutput ℓ η)
    (answered : server.Answered (promptIds ++ final.tokenIds) (params.remaining final.tokenIds.length).limit output) :
    ∃ all, Held server promptIds params.limit all (mergeOutput final output) ∧
      (aborted output.stopReason = false → server.Complete promptIds params.limit all) := by
  obtain ⟨more,next,tokens,logs⟩ := answered.follows
  have length : final.tokenIds.length = steps.length := by rw [held.tokenIds,List.length_map]
  have added : output.tokenIds.length = more.length := by rw [tokens,List.length_map]
  have all : (mergeOutput final output).tokenIds = (steps ++ more).map Prod.fst := by
    rw [mergeOutput,List.map_append,← held.tokenIds,← tokens]
  have follows : server.Follows promptIds (steps ++ more) := by
    rw [Server.follows_append,← held.tokenIds]
    exact ⟨held.follows,next⟩
  have within : ∀ bound, params.limit = some bound → (steps ++ more).length ≤ bound := by
    intro bound given
    have sofar := held.within bound given
    have fresh := answered.within (bound - final.tokenIds.length) (by
      rw [SamplingParams.limit_remaining,given]
      rfl)
    rw [List.length_append]
    omega
  refine ⟨steps ++ more,⟨follows,within,all,?_,?_⟩,fun finished => ⟨follows,within,?_⟩⟩
  · rw [mergeOutput,held.logProbs,logs]
    cases server.logprobs <;> simp
  · have whole : promptIds ++ (mergeOutput final output).tokenIds = (promptIds ++ final.tokenIds) ++ output.tokenIds := by
      rw [mergeOutput,List.append_assoc]
    rw [whole]
    rcases answered.routed with rows | ⟨empty,none_⟩
    · cases routing : server.routing with
      | false =>
        simp only [routing,Bool.false_eq_true,if_false] at rows ⊢
        refine .inl ?_
        rcases held.routed with kept | ⟨_,kept⟩ <;> simpa [mergeOutput,mergeRouting,rows,routing] using kept
      | true =>
        simp only [routing,if_true] at rows ⊢
        by_cases empty : output.tokenIds = []
        · rcases held.routed with kept | ⟨start,kept⟩
          · left
            simpa [mergeOutput,mergeRouting,rows,routing,empty] using kept
          · right
            simpa [mergeOutput,mergeRouting,rows,empty,start] using kept
        · left
          have filled : output.tokenIds.length ≠ 0 := fun zero => empty (List.length_eq_zero_iff.mp zero)
          rcases held.routed with kept | ⟨start,kept⟩
          · simp only [routing,if_true] at kept
            simp only [mergeOutput,mergeRouting,rows,if_neg filled,kept]
            exact congrArg some (server.routes_append (promptIds ++ final.tokenIds) output.tokenIds).symm
          · simp only [mergeOutput,mergeRouting,rows,if_neg filled,kept]
    · rcases held.routed with kept | ⟨start,kept⟩
      · left
        simpa [mergeOutput,mergeRouting,none_,empty] using kept
      · right
        simpa [mergeOutput,mergeRouting,none_,empty,start] using kept
  · rcases answered.complete finished with limited | ended
    · left
      rw [SamplingParams.limit_remaining] at limited
      obtain ⟨bound,given,exact_⟩ := Option.map_eq_some_iff.mp limited
      have sofar := held.within bound given
      rw [given,List.length_append]
      congr 1
      omega
    · right
      rw [← all,mergeOutput,← List.append_assoc]
      exact ended

/-- What a call returns: the whole generation, and parameters reduced by its length. -/
structure Returned (server : Server ℓ η) (promptIds : List Nat) (params : SamplingParams σ)
    (steps : List (Nat × ℓ)) (result : FinalOutput ℓ η × SamplingParams σ) : Prop where
  held : Held server promptIds params.limit steps result.1
  complete : server.Complete promptIds params.limit steps
  after : result.2 = params.remaining steps.length

/-- Every answer is one of the server, and from some attempt on none is aborted. -/
structure Serves (server : Server ℓ η) (answer : Answers σ ℓ η) : Prop where
  answered : ∀ attempt tokens params, server.Answered tokens params.limit (answer attempt tokens params)
  ends : ∃ bound, ∀ attempt ≥ bound, ∀ tokens params, aborted (answer attempt tokens params).stopReason = false

section Loop

variable {answer : Answers σ ℓ η} {promptIds : List Nat} {params : SamplingParams σ}

/-- One round of the loop returns or goes on with a longer prefix. -/
theorem generateLoop_succ (serves : Serves server answer) (fuel attempt : Nat) (steps : List (Nat × ℓ))
    (final : FinalOutput ℓ η) (held : Held server promptIds params.limit steps final) :
    ∃ all next, Held server promptIds params.limit all next ∧
      ((∃ result, generateLoop true answer promptIds params.limit (fuel + 1) attempt
          (params.remaining final.tokenIds.length) final = some result ∧ Returned server promptIds params all result) ∨
        (aborted (answer attempt (promptIds ++ final.tokenIds) (params.remaining final.tokenIds.length)).stopReason = true ∧
          generateLoop true answer promptIds params.limit (fuel + 1) attempt
              (params.remaining final.tokenIds.length) final =
            generateLoop true answer promptIds params.limit fuel (attempt + 1)
              (params.remaining next.tokenIds.length) next)) := by
  obtain ⟨output,given⟩ : ∃ output,
    answer attempt (promptIds ++ final.tokenIds) (params.remaining final.tokenIds.length) = output := ⟨_,rfl⟩
  obtain ⟨all,merged,completed⟩ := held.merge output (given ▸ serves.answered attempt _ _)
  have length : (mergeOutput final output).tokenIds.length = all.length := by rw [merged.tokenIds,List.length_map]
  refine ⟨all,mergeOutput final output,merged,?_⟩
  cases limit : params.limit with
  | none =>
    have same : ∀ count, params.remaining count = params := fun count => by simp [SamplingParams.remaining,limit]
    simp only [generateLoop,same] at given ⊢
    rw [given]
    cases stop : aborted output.stopReason with
    | false =>
      refine .inl ⟨(mergeOutput final output,params),rfl,merged,completed stop,(same _).symm⟩
    | true => exact .inr ⟨rfl,rfl⟩
  | some bound =>
    have updated : (params.remaining final.tokenIds.length).setLimit (bound - (mergeOutput final output).tokenIds.length) =
        params.remaining (mergeOutput final output).tokenIds.length := by
      simp only [SamplingParams.remaining,limit,SamplingParams.setLimit_setLimit]
    have within := merged.within bound limit
    simp only [generateLoop,given,updated]
    by_cases reached : (mergeOutput final output).tokenIds.length ≥ bound
    · rw [if_pos reached]
      refine .inl ⟨_,rfl,⟨merged.follows,merged.within,merged.tokenIds,merged.logProbs,merged.routed⟩,
        ⟨merged.follows,merged.within,.inl ?_⟩,by rw [length]⟩
      rw [limit]
      congr 1
      omega
    · rw [if_neg reached]
      cases stop : aborted output.stopReason with
      | false => exact .inl ⟨_,rfl,merged,completed stop,by rw [length]⟩
      | true => exact .inr ⟨rfl,rfl⟩

/-- Whatever a call returns is the whole generation. -/
theorem generateLoop_returned (serves : Serves server answer) (fuel attempt : Nat) (steps : List (Nat × ℓ))
    (final : FinalOutput ℓ η) (held : Held server promptIds params.limit steps final)
    (result : FinalOutput ℓ η × SamplingParams σ)
    (run : generateLoop true answer promptIds params.limit fuel attempt (params.remaining final.tokenIds.length) final =
      some result) : ∃ all, Returned server promptIds params all result := by
  induction fuel generalizing attempt steps final with
  | zero => nomatch run
  | succ fuel ih =>
    obtain ⟨all,next,merged,⟨returned,stopped,facts⟩ | ⟨_,again⟩⟩ := generateLoop_succ serves fuel attempt steps final held
    · rw [stopped] at run
      obtain rfl := Option.some.inj run
      exact ⟨all,facts⟩
    · exact ih (attempt + 1) all next merged (again ▸ run)

/-- The loop returns once the aborts have ended. -/
theorem generateLoop_ends (serves : Serves server answer) (bound : Nat)
    (ends : ∀ attempt ≥ bound, ∀ tokens params, aborted (answer attempt tokens params).stopReason = false)
    (fuel attempt : Nat) (enough : bound < fuel + attempt) (some_ : 0 < fuel) (steps : List (Nat × ℓ))
    (final : FinalOutput ℓ η) (held : Held server promptIds params.limit steps final) :
    ∃ result, generateLoop true answer promptIds params.limit fuel attempt
      (params.remaining final.tokenIds.length) final = some result := by
  induction fuel generalizing attempt steps final with
  | zero => nomatch some_
  | succ fuel ih =>
    obtain ⟨all,next,merged,⟨returned,stopped,_⟩ | ⟨stopped,again⟩⟩ := generateLoop_succ serves fuel attempt steps final held
    · exact ⟨returned,stopped⟩
    · have early : attempt < bound := by
        by_contra late
        rw [ends attempt (Nat.le_of_not_lt late)] at stopped
        nomatch stopped
      rw [again]
      exact ih (attempt + 1) (by omega) (by omega) all next merged

theorem held_empty : Held server promptIds params.limit [] ({} : FinalOutput ℓ η) :=
  ⟨trivial,fun _ _ => Nat.zero_le _,rfl,by simp,.inr ⟨rfl,rfl⟩⟩

theorem generates_returned (serves : Serves server answer) (result : FinalOutput ℓ η × SamplingParams σ)
    (run : Generates true answer promptIds params result) : ∃ steps, Returned server promptIds params steps result := by
  obtain ⟨fuel,run⟩ := run
  rw [← params.remaining_zero] at run
  exact generateLoop_returned serves fuel 0 [] {} held_empty result (by
    rw [params.remaining_zero] at run
    rw [List.length_nil,params.remaining_zero]
    exact run)

theorem generates_exists (serves : Serves server answer) : ∃ result, Generates true answer promptIds params result := by
  obtain ⟨bound,ends⟩ := serves.ends
  obtain ⟨result,run⟩ : ∃ result, generateLoop true answer promptIds params.limit (bound + 1) 0
      (params.remaining ([] : List Nat).length) {} = some result :=
    generateLoop_ends serves bound ends (bound + 1) 0 (by omega) (Nat.succ_pos bound) [] {} held_empty
  rw [List.length_nil,params.remaining_zero] at run
  exact ⟨result,bound + 1,run⟩

end Loop

/-- Nothing is left to generate, so that the parameters are not touched. -/
def Untouched (server : Server ℓ η) (params : SamplingParams σ) (promptIds : List Nat) : Prop :=
  params.limit = none ∨ params.limit = some 0 ∨ server.next promptIds = none

theorem Returned.invisible_iff {promptIds : List Nat} {params : SamplingParams σ} {steps : List (Nat × ℓ)}
    {result : FinalOutput ℓ η × SamplingParams σ} (returned : Returned server promptIds params steps result) :
    Invisible server params promptIds result ↔ server.logprobs = true ∧ Untouched server params promptIds := by
  have length : result.1.tokenIds.length = steps.length := by rw [returned.held.tokenIds,List.length_map]
  have kept : params.remaining steps.length = params ↔ params.limit = none ∨ steps.length = 0 := by
    constructor
    · intro same
      cases given : params.limit with
      | none => exact .inl rfl
      | some bound =>
        right
        have limit := congrArg SamplingParams.limit same
        rw [SamplingParams.limit_remaining,given] at limit
        have equal : bound - steps.length = bound := Option.some.inj limit
        have within := returned.complete.within bound given
        omega
    · rintro (unlimited | empty)
      · simp [SamplingParams.remaining,unlimited]
      · rw [empty,params.remaining_zero]
  have untouched : (params.limit = none ∨ steps.length = 0) ↔ Untouched server params promptIds := by
    constructor
    · rintro (unlimited | empty)
      · exact .inl unlimited
      · obtain rfl := List.length_eq_zero_iff.mp empty
        rcases returned.complete.complete with limited | ended
        · exact .inr (.inl limited)
        · exact .inr (.inr (by simpa using ended))
    · rintro (unlimited | limited | ended)
      · exact .inl unlimited
      · exact .inr (Nat.le_zero.mp (returned.complete.within 0 limited))
      · right
        cases given : steps with
        | nil => rfl
        | cons step rest =>
          have goes := (given ▸ returned.complete.follows : server.Follows promptIds (step :: rest)).1
          rw [ended] at goes
          nomatch goes
  constructor
  · intro invisible
    have after := invisible.params
    rw [returned.after,kept,untouched] at after
    refine ⟨?_,after⟩
    let full : TokenOutput ℓ η :=
      ⟨steps.map Prod.fst,if server.logprobs then some (steps.map Prod.snd) else none,
        if server.routing then some (server.routes (promptIds ++ steps.map Prod.fst)) else none,none,none,none⟩
    have answered : server.Answered promptIds params.limit full :=
      ⟨⟨steps,returned.complete.follows,rfl,rfl⟩,
        fun bound given => Nat.le_trans (Nat.le_of_eq (List.length_map _)) (returned.complete.within bound given),
        fun _ => by simpa [full] using returned.complete.complete,.inl rfl⟩
    have logs := (invisible.same full answered rfl).2
    cases off : server.logprobs with
    | true => rfl
    | false => simp [full,off] at logs
  · rintro ⟨logged,free⟩
    refine ⟨fun full answered finished => ?_,fun bound given => ?_,fun _ => ?_,?_,?_⟩
    · obtain ⟨other,follows,tokens,logs⟩ := answered.follows
      have size : full.tokenIds.length = other.length := by rw [tokens,List.length_map]
      have complete : server.Complete promptIds params.limit other :=
        ⟨follows,fun bound given => size ▸ answered.within bound given,by
          rw [← size,← tokens]
          exact answered.complete finished⟩
      obtain rfl := complete.unique returned.complete
      exact ⟨returned.held.tokenIds.trans tokens.symm,by rw [returned.held.logProbs,logs,logged]; rfl⟩
    · rw [length]
      exact returned.complete.within bound given
    · rw [length,returned.held.logProbs,logged]
      simp
    · rcases returned.held.routed with rows | ⟨empty,none_⟩
      · rw [rows]
        cases server.routing <;> simp
      · exact ⟨(fun rows some_ => nomatch none_.symm.trans some_),fun _ filled => absurd empty filled⟩
    · rw [returned.after,kept,untouched]
      exact free

/-- Partial rollout is invisible to a sequence of calls exactly when log-probs are on and no
call with a limit has anything to generate: otherwise the limit in the caller's parameters
is lowered. -/
theorem partial_rollout_invisible_iff (server : Server ℓ η) (params : SamplingParams σ)
    (calls : List (List Nat × Answers σ ℓ η)) (serves : ∀ call ∈ calls, Serves server call.2) :
    (∃ results, Calls true params calls results ∧
        List.Forall₂ (fun call result => Invisible server params call.1 result) calls results) ↔
      ∀ call ∈ calls, server.logprobs = true ∧ Untouched server params call.1 := by
  induction calls with
  | nil => exact iff_of_true ⟨[],.nil params,.nil⟩ (fun _ absurd_ => nomatch absurd_)
  | cons call calls ih =>
    obtain ⟨promptIds,answer⟩ := call
    have first := serves (promptIds,answer) List.mem_cons_self
    have rest := ih (fun c later => serves c (List.mem_cons_of_mem _ later))
    rw [List.forall_mem_cons,← rest]
    constructor
    · rintro ⟨results,ran,right⟩
      cases ran with
      | cons _ _ _ output after _ results here later =>
        obtain ⟨head,tail⟩ := List.forall₂_cons.mp right
        obtain ⟨steps,returned⟩ := generates_returned first (output,after) here
        obtain rfl : after = params := head.params
        exact ⟨returned.invisible_iff.mp head,results,later,tail⟩
    · rintro ⟨quiet,results,ran,right⟩
      obtain ⟨result,here⟩ : ∃ result, Generates true answer promptIds params result := generates_exists first
      obtain ⟨steps,returned⟩ := generates_returned first result here
      have head := returned.invisible_iff.mpr quiet
      obtain ⟨output,after⟩ := result
      obtain rfl : after = params := head.params
      exact ⟨(output,after) :: results,.cons after promptIds answer output after calls results here ran,.cons head right⟩

end Proofs

section Examples

/-- A server that fills every prompt up to four tokens. -/
def fourTokens : Server Nat Nat where
  next tokens := if tokens.length < 4 then some (7,0) else none
  route tokens := tokens.length
  logprobs := true
  routing := true

/-- Its answers, the first of which is aborted after one token. -/
def fourTokens_answer : Answers Unit Nat Nat := fun attempt tokens params =>
  let count := min (4 - tokens.length) (params.limit.getD 4)
  let given := if attempt = 0 then min count 1 else count
  { tokenIds := List.replicate given 7, logProbs := some (List.replicate given 0),
    routedExperts := some (fourTokens.routes (tokens ++ List.replicate given 7)), numPreempted := none,
    stopReason := some (if attempt = 0 then "aborted" else "completed"), globalSteps := none }

theorem fourTokens_follows (count : Nat) (tokens : List Nat) (bound : tokens.length + count ≤ 4) :
    fourTokens.Follows tokens (List.replicate count (7,0)) := by
  induction count generalizing tokens with
  | zero => trivial
  | succ count ih =>
    refine ⟨if_pos (by omega),ih (tokens ++ [7]) ?_⟩
    rw [List.length_append,List.length_singleton]
    omega

theorem fourTokens_serves : Serves fourTokens fourTokens_answer := by
  refine ⟨fun attempt tokens params => ?_,1,fun attempt late tokens params => ?_⟩
  · have within : ∀ bound, params.limit = some bound → min (4 - tokens.length) (params.limit.getD 4) ≤ bound := by
      intro bound given
      rw [given]
      exact Nat.min_le_right _ _
    by_cases first : attempt = 0
    · have length : (fourTokens_answer attempt tokens params).tokenIds.length =
          min (min (4 - tokens.length) (params.limit.getD 4)) 1 := by simp [fourTokens_answer,first]
      refine ⟨⟨List.replicate (min (min (4 - tokens.length) (params.limit.getD 4)) 1) (7,0),?_,?_,?_⟩,
        fun bound given => ?_,fun finished => ?_,.inl rfl⟩
      · by_cases full : tokens.length < 4
        · exact fourTokens_follows _ _ (by omega)
        · rw [Nat.sub_eq_zero_of_le (Nat.le_of_not_lt full),Nat.zero_min,Nat.zero_min]
          trivial
      · simp [fourTokens_answer,first]
      · simp [fourTokens_answer,first,fourTokens]
      · have := within bound given
        omega
      · simp [fourTokens_answer,first,aborted] at finished
    · have length : (fourTokens_answer attempt tokens params).tokenIds.length =
          min (4 - tokens.length) (params.limit.getD 4) := by simp [fourTokens_answer,first]
      refine ⟨⟨List.replicate (min (4 - tokens.length) (params.limit.getD 4)) (7,0),?_,?_,?_⟩,
        fun bound given => ?_,fun _ => ?_,.inl rfl⟩
      · by_cases full : tokens.length < 4
        · exact fourTokens_follows _ _ (by omega)
        · rw [Nat.sub_eq_zero_of_le (Nat.le_of_not_lt full),Nat.zero_min]
          trivial
      · simp [fourTokens_answer,first]
      · simp [fourTokens_answer,first,fourTokens]
      · have := within bound given
        omega
      · rw [length]
        by_cases full : 4 - tokens.length ≤ params.limit.getD 4
        · right
          refine if_neg ?_
          rw [List.length_append,length]
          omega
        · left
          cases given : params.limit with
          | none => simp [given] at full
          | some bound =>
            rw [given,Option.getD_some] at full
            rw [Option.getD_some]
            congr 1
            omega
  · have nonzero : attempt ≠ 0 := by omega
    simp [fourTokens_answer,nonzero,aborted]

/-- Two turns without a limit, both aborted once. -/
theorem partial_rollout_two_turns :
    ∃ results, Calls true ({ others := () } : SamplingParams Unit)
        [([1],fourTokens_answer),([1,7],fourTokens_answer)] results ∧
      List.Forall₂ (fun call result => Invisible fourTokens { others := () } call.1 result)
        [([1],fourTokens_answer),([1,7],fourTokens_answer)] results := by
  refine (partial_rollout_invisible_iff fourTokens { others := () } [([1],fourTokens_answer),([1,7],fourTokens_answer)]
    (fun call given => ?_)).mpr (fun call given => ⟨rfl,.inl rfl⟩)
  simp only [List.mem_cons,List.not_mem_nil,or_false] at given
  rcases given with rfl | rfl <;> exact fourTokens_serves

/-- Two turns with a limit of three tokens: after the first one the limit is zero. -/
theorem limit_lowered_example :
    Serves fourTokens fourTokens_answer ∧
      ¬ ∃ results, Calls true ({ maxTokens := some 3, others := () } : SamplingParams Unit)
          [([1],fourTokens_answer),([1],fourTokens_answer)] results ∧
        List.Forall₂ (fun call result => Invisible fourTokens { maxTokens := some 3, others := () } call.1 result)
          [([1],fourTokens_answer),([1],fourTokens_answer)] results := by
  refine ⟨fourTokens_serves,?_⟩
  rintro ⟨results,ran,right⟩
  cases ran with
  | cons _ _ _ output after _ results here later =>
    obtain ⟨head,_⟩ := List.forall₂_cons.mp right
    obtain ⟨fuel,run⟩ := here
    have lowered : after.limit = some 0 := by
      match fuel,run with
      | 0,run => nomatch run
      | 1,run => nomatch run
      | _ + 2,run =>
        have final := congrArg Prod.snd (Option.some.inj run)
        exact (congrArg SamplingParams.limit final).symm.trans rfl
    have kept := congrArg SamplingParams.limit head.params
    rw [show (output,after).2.limit = some 0 from lowered] at kept
    exact absurd (Option.some.inj kept) (by decide)

end Examples

end RelayOpd.PartialRollout
