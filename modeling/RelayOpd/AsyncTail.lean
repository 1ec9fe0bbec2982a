import Mathlib.Algebra.Order.Ring.Nat
import Mathlib.Data.Int.Basic

/-! The asynchronous trainer from its first step to the last checkpoint. Weights are synchronised
and checkpoints named by parameter version, which counts full intervals of steps. -/
namespace RelayOpd.AsyncTail

structure Config where
  triggerParameterSyncStep : Nat
  testFreq : Int
  saveFreq : Int
  criticWarmup : Nat

/-- `actor` counts the updates of the actor. `synced` and `saved` are the last weight synchronisation
and the last checkpoint, with version and actor. -/
structure TrainerState where
  globalSteps : Nat
  localTriggerStep : Nat
  currentParamVersion : Nat
  lastCkptVersion : Nat
  actor : Nat
  synced : Nat × Nat
  saved : Option (Nat × Nat)
  validated : List Nat

variable (cfg : Config)

/-- After `load_checkpoint` and the synchronisation before `fit`, on a fresh run or a resumed one. -/
def TrainerState.start : Option Nat → TrainerState
  | none => ⟨0,1,0,0,0,(0,0),none,[]⟩
  | some version => ⟨version * cfg.triggerParameterSyncStep + 1,1,version,version,0,(version,0),some (version,0),[]⟩

section Step

variable (s : TrainerState)

def fitUpdateActor : TrainerState :=
  if cfg.criticWarmup ≤ s.globalSteps then { s with actor := s.actor + 1 } else s

def fitUpdateLocalStep : TrainerState :=
  if s.localTriggerStep < cfg.triggerParameterSyncStep then { s with localTriggerStep := s.localTriggerStep + 1 }
  else
    { s with
      currentParamVersion := s.currentParamVersion + 1
      localTriggerStep := 1 }

def fitUpdateWeights : TrainerState :=
  if s.localTriggerStep ≠ 1 then s else { s with synced := (s.currentParamVersion,s.actor) }

def fitValidate : TrainerState :=
  if s.localTriggerStep ≠ 1 then s
  else
    let needValidate := cfg.testFreq > 0 ∧ (s.currentParamVersion : Int).fmod cfg.testFreq = 0 ∧ s.currentParamVersion > 0
    if needValidate then { s with validated := s.validated ++ [s.currentParamVersion] } else s

def fitSaveCheckpoint (force esiCloseToExpiration : Bool) : TrainerState :=
  if s.currentParamVersion = s.lastCkptVersion then s
  else if cfg.saveFreq > 0 ∧ (force = true ∨ (s.currentParamVersion : Int).fmod cfg.saveFreq = 0 ∨
      esiCloseToExpiration = true) then
    { s with
      saved := some (s.currentParamVersion,s.actor)
      lastCkptVersion := s.currentParamVersion }
  else s

def fitPostprocessStep : TrainerState := { s with globalSteps := s.globalSteps + 1 }

/-- One training step, with what the expiry test says at its end. -/
def fitStep (esi : Bool) : TrainerState :=
  fitPostprocessStep (fitSaveCheckpoint cfg (fitValidate cfg (fitUpdateWeights
    (fitUpdateLocalStep cfg (fitUpdateActor cfg s)))) false esi)

/-- What follows the loop. -/
def finish (esi : Bool) : Except String TrainerState :=
  if cfg.testFreq = 0 then .error "integer modulo by zero"
  else
    let s := if (s.currentParamVersion : Int).fmod cfg.testFreq ≠ 0 ∨ s.localTriggerStep > 1 then
      fitValidate cfg (fitUpdateWeights s) else s
    .ok (fitSaveCheckpoint cfg s true esi)

/-- The steps before the termination signal, one entry each. -/
def fit (steps : List Bool) (last : Bool) : Except String TrainerState :=
  finish cfg (steps.foldl (fitStep cfg) { s with globalSteps := s.globalSteps + 1 }) last

end Step

/-- The last checkpoint has the actor's parameters, and so has the rollouter. -/
structure TrainerState.Keeps (s : TrainerState) : Prop where
  saved : ∃ version, s.saved = some (version,s.actor)
  synced : s.synced.2 = s.actor

section Spec

variable (s : TrainerState)

/-- What one pass of synchronisation, validation and save does. -/
structure Settled (force : Bool) (t : TrainerState) : Prop where
  globalSteps : t.globalSteps = s.globalSteps
  localTriggerStep : t.localTriggerStep = s.localTriggerStep
  version : t.currentParamVersion = s.currentParamVersion
  actor : t.actor = s.actor
  saved : (t.saved = s.saved ∧ t.lastCkptVersion = s.lastCkptVersion ∧
      (s.currentParamVersion = s.lastCkptVersion ∨ ¬ (0 < cfg.saveFreq ∧ force = true))) ∨
    (s.currentParamVersion ≠ s.lastCkptVersion ∧ t.saved = some (s.currentParamVersion,s.actor) ∧
      t.lastCkptVersion = s.currentParamVersion)

/-- A save happens under a new version only. -/
theorem fitSaveCheckpoint_settled (force esi : Bool) : Settled cfg s force (fitSaveCheckpoint cfg s force esi) ∧
    (fitSaveCheckpoint cfg s force esi).synced = s.synced := by
  unfold fitSaveCheckpoint
  by_cases old : s.currentParamVersion = s.lastCkptVersion
  · rw [if_pos old]
    exact ⟨⟨rfl,rfl,rfl,rfl,.inl ⟨rfl,rfl,.inl old⟩⟩,rfl⟩
  · rw [if_neg old]
    split
    · exact ⟨⟨rfl,rfl,rfl,rfl,.inr ⟨old,rfl,rfl⟩⟩,rfl⟩
    · rename_i quiet
      exact ⟨⟨rfl,rfl,rfl,rfl,.inl ⟨rfl,rfl,.inr (fun forced => quiet ⟨forced.1,.inl forced.2⟩)⟩⟩,rfl⟩

theorem fitValidate_settled (force esi : Bool) : Settled cfg s force (fitSaveCheckpoint cfg (fitValidate cfg s) force esi) ∧
    (fitSaveCheckpoint cfg (fitValidate cfg s) force esi).synced = s.synced := by
  have same : fitValidate cfg s = s ∨ ∃ validated, fitValidate cfg s = { s with validated := validated } := by
    unfold fitValidate
    split
    · exact .inl rfl
    · dsimp only
      split
      · exact .inr ⟨_,rfl⟩
      · exact .inl rfl
  rcases same with same | ⟨validated,same⟩
  · rw [same]
    exact fitSaveCheckpoint_settled cfg s force esi
  · rw [same]
    obtain ⟨⟨a,b,c,d,e⟩,f⟩ := fitSaveCheckpoint_settled cfg { s with validated := validated } force esi
    exact ⟨⟨a,b,c,d,e⟩,f⟩

/-- The weights go out at the beginning of an interval. -/
theorem fitUpdateWeights_settled (force esi : Bool) :
    Settled cfg s force (fitSaveCheckpoint cfg (fitValidate cfg (fitUpdateWeights s)) force esi) ∧
    (fitSaveCheckpoint cfg (fitValidate cfg (fitUpdateWeights s)) force esi).synced =
      if s.localTriggerStep = 1 then (s.currentParamVersion,s.actor) else s.synced := by
  obtain ⟨⟨a,b,c,d,e⟩,f⟩ := fitValidate_settled cfg (fitUpdateWeights s) force esi
  by_cases full : s.localTriggerStep = 1
  · have same : fitUpdateWeights s = { s with synced := (s.currentParamVersion,s.actor) } := if_neg (not_not.mpr full)
    rw [same] at a b c d e f ⊢
    rw [if_pos full]
    exact ⟨⟨a,b,c,d,e⟩,f⟩
  · have same : fitUpdateWeights s = s := if_pos full
    rw [same] at a b c d e f ⊢
    rw [if_neg full]
    exact ⟨⟨a,b,c,d,e⟩,f⟩

end Spec

section Run

variable (start : TrainerState)

/-- Updates of the actor in the first `n` steps, once the warm-up of the critic is over. -/
def updates (n : Nat) : Nat := n - (cfg.criticWarmup - (start.globalSteps + 1))

theorem updates_succ (n : Nat) : updates cfg start (n + 1) =
    if cfg.criticWarmup ≤ start.globalSteps + 1 + n then updates cfg start n + 1 else updates cfg start n := by
  unfold updates
  split <;> omega

theorem updates_mono {m n : Nat} (le : m ≤ n) : updates cfg start m ≤ updates cfg start n := Nat.sub_le_sub_right le _

/-- Where the trainer stands after `n` steps. A checkpoint under the current version was written in
the interval that the version began. -/
structure After (n : Nat) (s : TrainerState) : Prop where
  globalSteps : s.globalSteps = start.globalSteps + 1 + n
  localTriggerStep : s.localTriggerStep = n % cfg.triggerParameterSyncStep + 1
  version : s.currentParamVersion = start.currentParamVersion + n / cfg.triggerParameterSyncStep
  actor : s.actor = updates cfg start n
  synced : s.synced.2 = updates cfg start (cfg.triggerParameterSyncStep * (n / cfg.triggerParameterSyncStep))
  behind : s.lastCkptVersion ≤ s.currentParamVersion
  early : n < cfg.triggerParameterSyncStep → s.saved = start.saved ∧ s.lastCkptVersion = start.lastCkptVersion
  saved : cfg.triggerParameterSyncStep ≤ n → s.currentParamVersion = s.lastCkptVersion →
    ∃ k, cfg.triggerParameterSyncStep * (n / cfg.triggerParameterSyncStep) ≤ k ∧ k ≤ n ∧
      s.saved = some (s.currentParamVersion,updates cfg start k)

/-- A run begins with the parameters that are synchronised, and with the checkpoint it resumes from
if there is one. -/
structure Fresh : Prop where
  localTriggerStep : start.localTriggerStep = 1
  version : start.currentParamVersion = start.lastCkptVersion
  actor : start.actor = 0
  synced : start.synced.2 = 0

theorem start_fresh (resumed : Option Nat) : Fresh (TrainerState.start cfg resumed) := by
  cases resumed with
  | none => exact ⟨rfl,rfl,rfl,rfl⟩
  | some version => exact ⟨rfl,rfl,rfl,rfl⟩

variable {cfg start} (positive : 1 ≤ cfg.triggerParameterSyncStep)

include positive

theorem after_start (fresh : Fresh start) : After cfg start 0 { start with globalSteps := start.globalSteps + 1 } where
  globalSteps := rfl
  localTriggerStep := by rw [Nat.zero_mod]; exact fresh.localTriggerStep
  version := by rw [Nat.zero_div]; rfl
  actor := by rw [updates,Nat.zero_sub]; exact fresh.actor
  synced := by rw [Nat.zero_div,Nat.mul_zero,updates,Nat.zero_sub]; exact fresh.synced
  behind := fresh.version.ge
  early _ := ⟨rfl,rfl⟩
  saved none := by omega

/-- Within an interval one more step leaves the quotient; at its end it begins the next interval. -/
theorem interval_succ (n : Nat) :
    (n % cfg.triggerParameterSyncStep + 1 < cfg.triggerParameterSyncStep ∧
      (n + 1) % cfg.triggerParameterSyncStep = n % cfg.triggerParameterSyncStep + 1 ∧
      (n + 1) / cfg.triggerParameterSyncStep = n / cfg.triggerParameterSyncStep) ∨
    (¬ n % cfg.triggerParameterSyncStep + 1 < cfg.triggerParameterSyncStep ∧
      (n + 1) % cfg.triggerParameterSyncStep = 0 ∧
      (n + 1) / cfg.triggerParameterSyncStep = n / cfg.triggerParameterSyncStep + 1 ∧
      cfg.triggerParameterSyncStep * (n / cfg.triggerParameterSyncStep + 1) = n + 1) := by
  generalize cfg.triggerParameterSyncStep = T at positive ⊢
  have whole := Nat.mod_add_div n T
  have below := Nat.mod_lt n positive
  by_cases inside : n % T + 1 < T
  · have next := (Nat.div_mod_unique (a := n + 1) (d := n / T) (c := n % T + 1) positive).mpr ⟨by omega,inside⟩
    exact .inl ⟨inside,next.2,next.1⟩
  · have full : T * (n / T + 1) = n + 1 := by
      rw [Nat.mul_succ]
      omega
    have next := (Nat.div_mod_unique (a := n + 1) (d := n / T + 1) (c := 0) positive).mpr ⟨by omega,positive⟩
    exact .inr ⟨inside,next.2,next.1,full⟩

/-- The update of the actor and of the local step. -/
structure Trained (n : Nat) (s t : TrainerState) : Prop where
  globalSteps : t.globalSteps = s.globalSteps
  actor : t.actor = updates cfg start (n + 1)
  localTriggerStep : t.localTriggerStep = (n + 1) % cfg.triggerParameterSyncStep + 1
  version : t.currentParamVersion = start.currentParamVersion + (n + 1) / cfg.triggerParameterSyncStep
  others : t.lastCkptVersion = s.lastCkptVersion ∧ t.synced = s.synced ∧ t.saved = s.saved

theorem After.trained {n : Nat} {s : TrainerState} (after : After cfg start n s) :
    @Trained cfg start n s (fitUpdateLocalStep cfg (fitUpdateActor cfg s)) := by
  have value : updates cfg start (n + 1) = if cfg.criticWarmup ≤ s.globalSteps then s.actor + 1 else s.actor := by
    rw [updates_succ,after.globalSteps,after.actor]
  have first : fitUpdateActor cfg s = { s with actor := updates cfg start (n + 1) } := by
    rw [value,fitUpdateActor]
    split <;> rfl
  rw [first,fitUpdateLocalStep]
  dsimp only
  rw [after.localTriggerStep]
  rcases interval_succ positive n with ⟨inside,rest,same⟩ | ⟨past,rest,next,_⟩
  · rw [if_pos inside]
    exact ⟨rfl,rfl,by rw [rest],by rw [same]; exact after.version,rfl,rfl,rfl⟩
  · rw [if_neg past]
    exact ⟨rfl,rfl,by rw [rest],by rw [next,← Nat.add_assoc,← after.version],rfl,rfl,rfl⟩

theorem After.step {n : Nat} {s : TrainerState} (fresh : Fresh start) (after : After cfg start n s) (esi : Bool) :
    After cfg start (n + 1) (fitStep cfg s esi) := by
  obtain ⟨gs,actor,place,version,last,synced,saved⟩ := after.trained positive
  obtain ⟨settled,sent⟩ := fitUpdateWeights_settled cfg (fitUpdateLocalStep cfg (fitUpdateActor cfg s)) false esi
  have versions : s.currentParamVersion ≤ start.currentParamVersion + (n + 1) / cfg.triggerParameterSyncStep := by
    rw [after.version]
    exact Nat.add_le_add_left (Nat.div_le_div_right (Nat.le_succ n)) _
  refine ⟨?_,settled.localTriggerStep.trans place,settled.version.trans version,settled.actor.trans actor,?_,?_,?_,?_⟩
  · change (fitSaveCheckpoint cfg _ false esi).globalSteps + 1 = _
    rw [settled.globalSteps,gs,after.globalSteps]
    rfl
  · refine (congrArg Prod.snd sent).trans ?_
    rw [place]
    rcases interval_succ positive n with ⟨_,rest,same⟩ | ⟨_,rest,next,full⟩
    · rw [rest,if_neg (by omega),synced,after.synced,same]
    · rw [rest,if_pos rfl,next,full]
      exact actor
  · change (fitSaveCheckpoint cfg _ false esi).lastCkptVersion ≤ (fitSaveCheckpoint cfg _ false esi).currentParamVersion
    rw [settled.version,version]
    rcases settled.saved with ⟨_,same,_⟩ | ⟨_,_,same⟩
    · rw [same,last]
      exact after.behind.trans versions
    · rw [same,version]
  · intro short
    change (fitSaveCheckpoint cfg _ false esi).saved = _ ∧ (fitSaveCheckpoint cfg _ false esi).lastCkptVersion = _
    obtain ⟨none,same⟩ := after.early (by omega)
    rcases settled.saved with ⟨kept,still,_⟩ | ⟨new,_,_⟩
    · exact ⟨kept.trans (saved.trans none),still.trans (last.trans same)⟩
    · rw [version,Nat.div_eq_of_lt short,last,same,← fresh.version] at new
      exact absurd rfl new
  · intro long current
    change (fitSaveCheckpoint cfg _ false esi).currentParamVersion = (fitSaveCheckpoint cfg _ false esi).lastCkptVersion at current
    change ∃ k, _ ∧ _ ∧ (fitSaveCheckpoint cfg _ false esi).saved =
      some ((fitSaveCheckpoint cfg _ false esi).currentParamVersion,_)
    rcases settled.saved with ⟨kept,same,_⟩ | ⟨_,written,_⟩
    · rw [settled.version,version,same,last] at current
      rcases interval_succ positive n with ⟨inside,_,quotient⟩ | ⟨_,_,next,_⟩
      · have still : s.currentParamVersion = s.lastCkptVersion := by rw [after.version,← quotient,current]
        have before : cfg.triggerParameterSyncStep ≤ n := by
          by_contra short
          rw [Nat.mod_eq_of_lt (by omega)] at inside
          omega
        obtain ⟨k,lower,upper,found⟩ := after.saved before still
        refine ⟨k,by rw [quotient]; exact lower,by omega,?_⟩
        rw [kept,saved,found,settled.version,version,quotient,after.version]
      · have behind := after.behind
        rw [next,← Nat.add_assoc,← after.version] at current
        omega
    · refine ⟨n + 1,Nat.mul_div_le _ _,le_rfl,?_⟩
      rw [written,settled.version,actor]

theorem After.run {steps : List Bool} {n : Nat} {s : TrainerState} (fresh : Fresh start) (after : After cfg start n s) :
    After cfg start (n + steps.length) (steps.foldl (fitStep cfg) s) := by
  induction steps generalizing n s with
  | nil => exact after
  | cons esi steps ih =>
    have rest := ih (after.step positive fresh esi)
    rwa [Nat.add_assoc,Nat.add_comm 1] at rest

end Run

section Tail

variable {cfg : Config} {start : TrainerState} (saving : 0 < cfg.saveFreq)

theorem updates_eq_iff {m n : Nat} (less : m < n) : updates cfg start m = updates cfg start n ↔ updates cfg start n = 0 := by
  unfold updates
  omega

/-- The rollouter has the parameters of the last full interval, whatever follows the loop. -/
theorem finish_ok {n : Nat} {s : TrainerState} (after : After cfg start n s) (checked : cfg.testFreq ≠ 0) (esi : Bool) :
    ∃ t, finish cfg s esi = .ok t ∧ Settled cfg s true t ∧
      t.synced.2 = updates cfg start (cfg.triggerParameterSyncStep * (n / cfg.triggerParameterSyncStep)) := by
  rw [finish,if_neg checked]
  by_cases more : (s.currentParamVersion : Int).fmod cfg.testFreq ≠ 0 ∨ s.localTriggerStep > 1
  · obtain ⟨settled,sent⟩ := fitUpdateWeights_settled cfg s true esi
    refine ⟨_,rfl,?_⟩
    simp only [if_pos more]
    refine ⟨settled,(congrArg Prod.snd sent).trans ?_⟩
    by_cases full : s.localTriggerStep = 1
    · rw [if_pos full]
      have rest : n % cfg.triggerParameterSyncStep = 0 := by
        have := after.localTriggerStep
        omega
      rw [Nat.mul_div_cancel' (Nat.dvd_of_mod_eq_zero rest)]
      exact after.actor
    · rw [if_neg full]
      exact after.synced
  · obtain ⟨settled,sent⟩ := fitSaveCheckpoint_settled cfg s true esi
    refine ⟨_,rfl,?_⟩
    simp only [if_neg more]
    exact ⟨settled,(congrArg Prod.snd sent).trans after.synced⟩

include saving

theorem keeps_iff {n : Nat} {s t : TrainerState} (fresh : Fresh start) (after : After cfg start n s) (some_ : 0 < n)
    (settled : Settled cfg s true t)
    (synced : t.synced.2 = updates cfg start (cfg.triggerParameterSyncStep * (n / cfg.triggerParameterSyncStep))) :
    t.Keeps ↔ cfg.triggerParameterSyncStep ∣ n ∨ (updates cfg start n = 0 ∧
      (cfg.triggerParameterSyncStep ≤ n ∨ ∃ version, start.saved = some (version,0))) := by
  have actor : t.actor = updates cfg start n := settled.actor.trans after.actor
  have sent : t.synced.2 = t.actor ↔ cfg.triggerParameterSyncStep ∣ n ∨ updates cfg start n = 0 := by
    rw [synced,actor]
    by_cases whole : cfg.triggerParameterSyncStep ∣ n
    · rw [Nat.mul_div_cancel' whole]
      exact ⟨fun _ => .inl whole,fun _ => rfl⟩
    · have less : cfg.triggerParameterSyncStep * (n / cfg.triggerParameterSyncStep) < n :=
        lt_of_le_of_ne (Nat.mul_div_le _ _) (fun same => whole ⟨_,same.symm⟩)
      rw [updates_eq_iff less]
      exact ⟨.inr,fun either => either.resolve_left whole⟩
  have short : n < cfg.triggerParameterSyncStep → t.saved = start.saved := by
    intro early
    obtain ⟨none,same⟩ := after.early early
    rcases settled.saved with ⟨kept,_,_⟩ | ⟨new,_,_⟩
    · exact kept.trans none
    · rw [after.version,Nat.div_eq_of_lt early,same,← fresh.version] at new
      exact absurd rfl new
  have long : cfg.triggerParameterSyncStep ≤ n → ∃ version k, t.saved = some (version,updates cfg start k) ∧
      cfg.triggerParameterSyncStep * (n / cfg.triggerParameterSyncStep) ≤ k ∧ k ≤ n := by
    intro late
    rcases settled.saved with ⟨kept,_,current | idle⟩ | ⟨_,written,_⟩
    · obtain ⟨k,lower,upper,found⟩ := after.saved late current
      exact ⟨_,k,kept.trans found,lower,upper⟩
    · exact absurd ⟨saving,rfl⟩ idle
    · exact ⟨_,n,by rw [written,after.actor],Nat.mul_div_le _ _,le_rfl⟩
  constructor
  · rintro ⟨⟨version,saved⟩,out⟩
    rcases sent.mp out with whole | none
    · exact .inl whole
    · refine .inr ⟨none,?_⟩
      by_contra neither
      obtain ⟨late,unsaved⟩ := not_or.mp neither
      rw [short (by omega),actor,none] at saved
      exact unsaved ⟨version,saved⟩
  · intro condition
    refine ⟨?_,sent.mpr (condition.imp_right And.left)⟩
    rw [actor]
    by_cases late : cfg.triggerParameterSyncStep ≤ n
    · obtain ⟨version,k,saved,lower,upper⟩ := long late
      refine ⟨version,saved.trans ?_⟩
      rcases condition with whole | ⟨none,_⟩
      · rw [Nat.mul_div_cancel' whole] at lower
        rw [le_antisymm upper lower]
      · have zero := updates_mono cfg start upper
        rw [none] at zero ⊢
        rw [Nat.le_zero.mp zero]
    · rcases condition with whole | ⟨none,late' | ⟨version,saved⟩⟩
      · exact absurd (Nat.le_of_dvd some_ whole) late
      · exact absurd late' late
      · exact ⟨version,by rw [short (by omega),saved,none]⟩

end Tail

/-- The run returns, and if it made a step keeps the actor's parameters, exactly when `test_freq` is
not zero and either the steps fill whole intervals or none of them updated the actor. -/
theorem tail_kept_iff (cfg : Config) (positive : 1 ≤ cfg.triggerParameterSyncStep) (saving : 0 < cfg.saveFreq)
    (resumed : Option Nat) (steps : List Bool) (last : Bool) :
    (∃ s, fit cfg (TrainerState.start cfg resumed) steps last = .ok s ∧ (steps ≠ [] → s.Keeps)) ↔
      cfg.testFreq ≠ 0 ∧ (cfg.triggerParameterSyncStep ∣ steps.length ∨
        ((TrainerState.start cfg resumed).globalSteps + steps.length < cfg.criticWarmup ∧
          (cfg.triggerParameterSyncStep ≤ steps.length ∨ resumed.isSome = true))) := by
  have fresh := start_fresh cfg resumed
  have after := @After.run cfg (TrainerState.start cfg resumed) positive steps 0 _ fresh (after_start positive fresh)
  rw [Nat.zero_add] at after
  by_cases checked : cfg.testFreq = 0
  · constructor
    · rintro ⟨s,returned,_⟩
      rw [fit,finish,if_pos checked] at returned
      cases returned
    · exact fun condition => absurd checked condition.1
  · obtain ⟨t,returned,settled,synced⟩ := finish_ok after checked last
    have whole : (∃ s, fit cfg (TrainerState.start cfg resumed) steps last = .ok s ∧ (steps ≠ [] → s.Keeps)) ↔
        (steps ≠ [] → t.Keeps) := by
      constructor
      · rintro ⟨s,returned',keeps⟩
        obtain rfl : t = s := Except.ok.inj (returned.symm.trans returned')
        exact keeps
      · exact fun keeps => ⟨t,returned,keeps⟩
    rw [whole]
    by_cases some_ : steps = []
    · subst some_
      exact ⟨fun _ => ⟨checked,.inl (Nat.dvd_zero _)⟩,fun _ none => absurd rfl none⟩
    · have long := List.length_pos_iff.mpr some_
      have warm : updates cfg (TrainerState.start cfg resumed) steps.length = 0 ↔
          (TrainerState.start cfg resumed).globalSteps + steps.length < cfg.criticWarmup := by
        unfold updates
        omega
      have old : (∃ version, (TrainerState.start cfg resumed).saved = some (version,0)) ↔ resumed.isSome = true := by
        cases resumed with
        | none => exact ⟨fun found => (by obtain ⟨_,absent⟩ := found; cases absent),fun absent => by cases absent⟩
        | some version => exact ⟨fun _ => rfl,fun _ => ⟨version,rfl⟩⟩
      have keeps := keeps_iff saving fresh after long settled synced
      rw [warm,old] at keeps
      exact ⟨fun all => ⟨checked,keeps.mp (all some_)⟩,fun condition _ => keeps.mpr condition.2⟩

/-- Synchronisation every four steps, checkpoints every version. -/
def fourSteps : Config := ⟨4,-1,1,0⟩

/-- Six steps: the last two are neither saved nor synchronised. -/
theorem tail_lost : ∃ s, fit fourSteps (TrainerState.start fourSteps none) (List.replicate 6 false) false = .ok s ∧
    s.actor = 6 ∧ s.saved = some (1,4) ∧ s.synced = (1,4) ∧ ¬ s.Keeps := by
  refine ⟨_,rfl,rfl,rfl,rfl,fun keeps => ?_⟩
  exact absurd keeps.synced (by decide)

/-- Eight steps: nothing is lost. -/
theorem tail_kept_eight : ∃ s, fit fourSteps (TrainerState.start fourSteps none) (List.replicate 8 false) false = .ok s ∧
    (List.replicate 8 false ≠ [] → s.Keeps) :=
  (tail_kept_iff fourSteps (by decide) (by decide) none (List.replicate 8 false) false).mpr ⟨by decide,.inl (by decide)⟩

end RelayOpd.AsyncTail
