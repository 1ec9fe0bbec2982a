import Mathlib.Data.List.Basic
import Mathlib.Data.List.Count
import Mathlib.Data.List.Nodup
import Mathlib.Tactic.Ring

/-! The training loops of `PPOTrainer` and `RayPPOTrainer` and what a run does that
resumes from one of their checkpoints. A stateful dataloader restored after `k`
batches of an epoch yields the other batches in its first pass. -/
namespace RelayOpd.TrainingResume

inductive Trainer where
  | ppoTrainer
  | rayPpoTrainer
  deriving DecidableEq, Repr

/-- `trainer.total_training_steps` is not set. -/
structure Config where
  stepsPerEpoch : Nat
  totalEpochs : Nat
  saveFreq : Int
  testFreq : Int
  criticWarmup : Int

def Config.totalTrainingSteps (cfg : Config) : Nat := cfg.stepsPerEpoch * cfg.totalEpochs

/-- `step` trains on one batch of an epoch; `save` writes the checkpoint with the
number of batches that the dataloader has yielded in its epoch; `finish` is the
return from the last step. -/
inductive Event where
  | step (globalSteps epoch batch : Nat)
  | save (globalSteps yielded : Nat)
  | validate (globalSteps : Nat)
  | finish
  deriving DecidableEq, Repr

section Fit

variable (trainer : Trainer) (cfg : Config) (esi : Nat → Bool)

def isLastStep (globalSteps : Nat) : Bool := cfg.totalTrainingSteps ≤ globalSteps

/-- `esi` says at which steps the instance is close to expiration; only
`RayPPOTrainer` looks at it, and it saves only when it updates the actor. -/
def saves (globalSteps : Nat) : Bool :=
  match trainer with
  | .ppoTrainer => 0 < cfg.saveFreq && (isLastStep cfg globalSteps || (globalSteps : Int) % cfg.saveFreq == 0)
  | .rayPpoTrainer => !decide (cfg.criticWarmup > globalSteps) && (0 < cfg.saveFreq &&
      (isLastStep cfg globalSteps || (globalSteps : Int) % cfg.saveFreq == 0 || esi globalSteps))

def validates (globalSteps : Nat) : Bool :=
  0 < cfg.testFreq && (isLastStep cfg globalSteps || (globalSteps : Int) % cfg.testFreq == 0)

/-- One iteration of the inner loop, without its return. -/
def iteration (epoch batch globalSteps : Nat) : List Event :=
  .step globalSteps epoch batch ::
    ((if saves trainer cfg esi globalSteps then [.save globalSteps (batch + 1)] else []) ++
      if validates cfg globalSteps then [.validate globalSteps] else [])

/-- One pass over the dataloader; no step count means that the run has returned. -/
def runPass (epoch : Nat) : List Nat → Nat → List Event × Option Nat
  | [], globalSteps => ([],some globalSteps)
  | batch :: batches, globalSteps =>
    let events := iteration trainer cfg esi epoch batch globalSteps
    if isLastStep cfg globalSteps then (events ++ [.finish],none)
    else
      let (rest,steps) := runPass epoch batches (globalSteps + 1)
      (events ++ rest,steps)

/-- The epochs of the outer loop; `batches` is what the next pass yields. -/
def runEpochs : List Nat → List Nat → Nat → List Event
  | [], _, _ => []
  | epoch :: epochs, batches, globalSteps =>
    match runPass trainer cfg esi epoch batches globalSteps with
    | (events,none) => events
    | (events,some steps) => events ++ runEpochs epochs (List.range cfg.stepsPerEpoch) steps

/-- `fit` after `_load_checkpoint` has set `global_steps`; `restored` is the state
given to the dataloader. -/
def fit (globalSteps : Nat) (restored : Option Nat) : List Event :=
  let currentEpoch := globalSteps / cfg.stepsPerEpoch
  runEpochs trainer cfg esi (List.range' currentEpoch (cfg.totalEpochs - currentEpoch))
    ((List.range cfg.stepsPerEpoch).drop (restored.getD 0)) (globalSteps + 1)

/-- The dataloader state that `_load_checkpoint` restores from `data.pt`. -/
def restoredState (globalSteps yielded : Nat) : Option Nat :=
  match trainer with
  | .ppoTrainer => some yielded
  | .rayPpoTrainer =>
    if 0 < cfg.stepsPerEpoch ∧ globalSteps % cfg.stepsPerEpoch = 0 then none else some yielded

/-- A run that trains from scratch, and one resumed from a checkpoint. -/
def scratchRun : List Event := fit trainer cfg esi 0 none

def resumedRun (globalSteps yielded : Nat) : List Event :=
  fit trainer cfg esi globalSteps (restoredState trainer cfg globalSteps yielded)

end Fit

def stepOf : Event → Option Nat
  | .step globalSteps _ _ => some globalSteps
  | _ => none

/-- The epoch and the batch of a training step up to `bound`. -/
def presentedUpTo (bound : Nat) : Event → Option (Nat × Nat)
  | .step globalSteps epoch batch => if globalSteps ≤ bound then some (epoch,batch) else none
  | _ => none

/-- The resumed run does the remaining steps, both runs together present every batch
of every epoch once, and the run returns from the last step, saved and validated. -/
structure ResumesExactly (trainer : Trainer) (cfg : Config) (esi esi' : Nat → Bool) (s yielded : Nat) :
    Prop where
  steps : (resumedRun trainer cfg esi' s yielded).filterMap stepOf =
    List.range' (s+1) (cfg.totalTrainingSteps - s)
  once : ∀ epoch, epoch < cfg.totalEpochs → ∀ batch, batch < cfg.stepsPerEpoch →
    ((scratchRun trainer cfg esi).filterMap (presentedUpTo s) ++
      (resumedRun trainer cfg esi' s yielded).filterMap (presentedUpTo cfg.totalTrainingSteps)).count
        (epoch,batch) = 1
  finishes : (resumedRun trainer cfg esi' s yielded).getLast? = some .finish
  saved : ∃ k, .save cfg.totalTrainingSteps k ∈ resumedRun trainer cfg esi' s yielded
  validated : 0 < cfg.testFreq → .validate cfg.totalTrainingSteps ∈ resumedRun trainer cfg esi' s yielded

section Run

variable (trainer : Trainer) (cfg : Config) (esi : Nat → Bool)

/-- Everything that happens in one step of training, the return included. -/
def stepEvents (globalSteps epoch batch : Nat) : List Event :=
  iteration trainer cfg esi epoch batch globalSteps ++ if isLastStep cfg globalSteps then [.finish] else []

/-- The events of `count` steps that begin with batch `first` of an epoch. -/
def passEvents (epoch first globalSteps count : Nat) : List Event :=
  (List.range count).flatMap (fun j => stepEvents trainer cfg esi (globalSteps + j) epoch (first + j))

theorem runPass_eq (epoch first globalSteps count : Nat)
    (fits : globalSteps + count ≤ cfg.totalTrainingSteps + 1) :
    runPass trainer cfg esi epoch (List.range' first count) globalSteps =
      (passEvents trainer cfg esi epoch first globalSteps count,
        if 0 < count ∧ globalSteps + count = cfg.totalTrainingSteps + 1 then none
        else some (globalSteps + count)) := by
  induction count generalizing first globalSteps with
  | zero => simp [runPass,passEvents]
  | succ count ih =>
    have shifted : passEvents trainer cfg esi epoch first globalSteps (count+1) =
        stepEvents trainer cfg esi globalSteps epoch first ++
          passEvents trainer cfg esi epoch (first+1) (globalSteps+1) count := by
      simp only [passEvents,List.range_succ_eq_map,List.flatMap_cons,List.flatMap_map,Nat.add_zero]
      congr 2
      funext j
      rw [Nat.succ_eq_add_one,Nat.add_assoc globalSteps,Nat.add_comm 1 j,Nat.add_assoc first,Nat.add_comm 1 j]
    rw [List.range'_succ,runPass,shifted]
    by_cases last : cfg.totalTrainingSteps ≤ globalSteps
    · have none : count = 0 := by omega
      have total : globalSteps + 1 = cfg.totalTrainingSteps + 1 := by omega
      simp [isLastStep,last,none,total,stepEvents,passEvents]
    · have rest := ih (first+1) (globalSteps+1) (by omega)
      rw [rest]
      simp only [isLastStep,last,decide_false,Bool.false_eq_true,if_false,stepEvents,List.append_nil]
      congr 1
      by_cases ends : globalSteps + (count + 1) = cfg.totalTrainingSteps + 1
      · rw [if_pos (by omega),if_pos (by omega)]
      · rw [if_neg (by omega),if_neg (by omega),Nat.add_right_comm,Nat.add_assoc]

/-- The events of the steps `start + 1, …, start + count` of a run without a break. -/
def stepsFrom (start count : Nat) : List Event :=
  (List.range' start count).flatMap (fun j =>
    stepEvents trainer cfg esi (j+1) (j / cfg.stepsPerEpoch) (j % cfg.stepsPerEpoch))

theorem passEvents_eq (epoch first count : Nat) (within : first + count ≤ cfg.stepsPerEpoch) :
    passEvents trainer cfg esi epoch first (epoch * cfg.stepsPerEpoch + first + 1) count =
      stepsFrom trainer cfg esi (epoch * cfg.stepsPerEpoch + first) count := by
  rw [passEvents,stepsFrom,List.range'_eq_map_range,List.flatMap_map]
  apply List.flatMap_congr
  intro j member
  have inside := List.mem_range.mp member
  have quotient : (epoch * cfg.stepsPerEpoch + first + j) / cfg.stepsPerEpoch = epoch := by
    rw [Nat.add_assoc,Nat.add_comm,Nat.add_mul_div_right _ _ (by omega),Nat.div_eq_of_lt (by omega),
      Nat.zero_add]
  have rest : (epoch * cfg.stepsPerEpoch + first + j) % cfg.stepsPerEpoch = first + j := by
    rw [Nat.add_assoc,Nat.add_comm,Nat.add_mul_mod_self_right,Nat.mod_eq_of_lt (by omega)]
  rw [quotient,rest]
  congr 1
  omega

theorem stepsFrom_append (start left right : Nat) :
    stepsFrom trainer cfg esi start left ++ stepsFrom trainer cfg esi (start + left) right =
      stepsFrom trainer cfg esi start (left + right) := by
  rw [stepsFrom,stepsFrom,stepsFrom,← List.flatMap_append,List.range'_append_1]

/-- From a place in an epoch the run does every later step and returns from the last. -/
theorem runEpochs_eq (positive : 0 < cfg.stepsPerEpoch) (epochs epoch first : Nat)
    (within : first < cfg.stepsPerEpoch) (ends : epoch + (epochs + 1) = cfg.totalEpochs) :
    runEpochs trainer cfg esi (List.range' epoch (epochs+1))
        (List.range' first (cfg.stepsPerEpoch - first)) (epoch * cfg.stepsPerEpoch + first + 1) =
      stepsFrom trainer cfg esi (epoch * cfg.stepsPerEpoch + first)
        (cfg.totalTrainingSteps - (epoch * cfg.stepsPerEpoch + first)) := by
  have total : cfg.totalTrainingSteps =
      epoch * cfg.stepsPerEpoch + cfg.stepsPerEpoch + epochs * cfg.stepsPerEpoch := by
    rw [Config.totalTrainingSteps,← ends]
    ring
  induction epochs generalizing epoch first with
  | zero =>
    rw [List.range'_succ,runEpochs,runPass_eq trainer cfg esi _ _ _ _ (by omega),
      passEvents_eq trainer cfg esi _ _ _ (by omega),if_pos (by omega)]
    simp only
    congr 1
    omega
  | succ epochs ih =>
    have more : 0 < (epochs + 1) * cfg.stepsPerEpoch := Nat.mul_pos (Nat.succ_pos _) positive
    rw [List.range'_succ,runEpochs,runPass_eq trainer cfg esi _ _ _ _ (by omega),
      passEvents_eq trainer cfg esi _ _ _ (by omega),if_neg (by omega)]
    have next := ih (epoch+1) 0 positive (by omega) (by rw [total]; ring)
    have place : epoch * cfg.stepsPerEpoch + first + 1 + (cfg.stepsPerEpoch - first) =
        (epoch + 1) * cfg.stepsPerEpoch + 0 + 1 := by
      rw [Nat.add_mul,Nat.one_mul]
      omega
    have start : (epoch + 1) * cfg.stepsPerEpoch + 0 =
        epoch * cfg.stepsPerEpoch + first + (cfg.stepsPerEpoch - first) := by omega
    simp only [List.range_eq_range',place]
    rw [Nat.sub_zero] at next
    rw [next,start,stepsFrom_append]
    congr 1
    omega

/-- A run whose dataloader is at batch `first` of the epoch that the step count says. -/
theorem fit_eq (positive : 0 < cfg.stepsPerEpoch) (globalSteps : Nat) (restored : Option Nat)
    (before : globalSteps < cfg.totalTrainingSteps)
    (aligned : restored.getD 0 = globalSteps % cfg.stepsPerEpoch) :
    fit trainer cfg esi globalSteps restored =
      stepsFrom trainer cfg esi globalSteps (cfg.totalTrainingSteps - globalSteps) := by
  have inside : globalSteps / cfg.stepsPerEpoch < cfg.totalEpochs :=
    (Nat.div_lt_iff_lt_mul positive).mpr (by rwa [Nat.mul_comm])
  have split := Nat.div_add_mod' globalSteps cfg.stepsPerEpoch
  have run := runEpochs_eq trainer cfg esi positive
    (cfg.totalEpochs - globalSteps / cfg.stepsPerEpoch - 1) (globalSteps / cfg.stepsPerEpoch)
    (globalSteps % cfg.stepsPerEpoch) (Nat.mod_lt _ positive) (by omega)
  rw [split,Nat.sub_add_cancel (by omega)] at run
  simp only [fit]
  rw [aligned,List.range_eq_range',List.drop_range',Nat.mul_one,Nat.zero_add]
  exact run

theorem mem_stepsFrom (start count : Nat) (event : Event) :
    event ∈ stepsFrom trainer cfg esi start count ↔ ∃ j, start ≤ j ∧ j < start + count ∧
      event ∈ stepEvents trainer cfg esi (j+1) (j / cfg.stepsPerEpoch) (j % cfg.stepsPerEpoch) := by
  simp only [stepsFrom,List.mem_flatMap,List.mem_range'_1,and_assoc]

theorem stepEvents_stepOf (globalSteps epoch batch : Nat) :
    (stepEvents trainer cfg esi globalSteps epoch batch).filterMap stepOf = [globalSteps] := by
  unfold stepEvents iteration
  split_ifs <;> rfl

theorem stepEvents_presented (bound globalSteps epoch batch : Nat) :
    (stepEvents trainer cfg esi globalSteps epoch batch).filterMap (presentedUpTo bound) =
      if globalSteps ≤ bound then [(epoch,batch)] else [] := by
  unfold stepEvents iteration
  by_cases early : globalSteps ≤ bound <;> split_ifs <;> simp [presentedUpTo,early]

theorem stepsFrom_stepOf (start count : Nat) :
    (stepsFrom trainer cfg esi start count).filterMap stepOf = List.range' (start+1) count := by
  rw [stepsFrom,List.filterMap_flatMap]
  simp only [stepEvents_stepOf]
  rw [← List.map_eq_flatMap]
  simpa only [Nat.add_comm] using @List.map_add_range' 1 start count 1

/-- The batches of the steps up to a bound, in the order of the epochs. -/
theorem stepsFrom_presented (start count bound : Nat) (upto : start + count ≤ bound) :
    (stepsFrom trainer cfg esi start count).filterMap (presentedUpTo bound) =
      (List.range' start count).map (fun j => (j / cfg.stepsPerEpoch,j % cfg.stepsPerEpoch)) := by
  rw [stepsFrom,List.filterMap_flatMap,List.map_eq_flatMap]
  apply List.flatMap_congr
  intro j member
  have := List.mem_range'_1.mp member
  rw [stepEvents_presented,if_pos (by omega)]

theorem stepsFrom_late (start count bound : Nat) (late : bound ≤ start) :
    (stepsFrom trainer cfg esi start count).filterMap (presentedUpTo bound) = [] := by
  rw [stepsFrom,List.filterMap_flatMap,List.flatMap_eq_nil_iff]
  intro j member
  have := List.mem_range'_1.mp member
  rw [stepEvents_presented,if_neg (by omega)]

theorem passEvents_unfinished (epoch first globalSteps count : Nat)
    (short : globalSteps + count ≤ cfg.totalTrainingSteps) :
    .finish ∉ passEvents trainer cfg esi epoch first globalSteps count := by
  simp only [passEvents,List.mem_flatMap,List.mem_range,not_exists,not_and]
  intro j inside
  have early : isLastStep cfg (globalSteps + j) = false := by
    simp only [isLastStep,decide_eq_false_iff_not]
    omega
  rw [stepEvents,early]
  simp only [iteration]
  split_ifs <;> simp_all

/-- Epochs that end before the last step never return from it. -/
theorem runEpochs_unfinished (epochs epoch first count globalSteps : Nat)
    (short : globalSteps + count + epochs * cfg.stepsPerEpoch ≤ cfg.totalTrainingSteps) :
    .finish ∉ runEpochs trainer cfg esi (List.range' epoch (epochs+1)) (List.range' first count)
      globalSteps := by
  induction epochs generalizing epoch first count globalSteps with
  | zero =>
    rw [List.range'_succ,runEpochs,runPass_eq trainer cfg esi _ _ _ _ (by omega),if_neg (by omega)]
    simpa [runEpochs] using passEvents_unfinished trainer cfg esi epoch first globalSteps count (by omega)
  | succ epochs ih =>
    rw [Nat.succ_mul] at short
    have rest := ih (epoch+1) 0 cfg.stepsPerEpoch (globalSteps + count) (by omega)
    rw [List.range'_succ,runEpochs,runPass_eq trainer cfg esi _ _ _ _ (by omega),if_neg (by omega)]
    simp only [List.mem_append,not_or,List.range_eq_range']
    exact ⟨passEvents_unfinished trainer cfg esi epoch first globalSteps count (by omega),rest⟩

/-- A dataloader state at the end of its epoch costs a whole epoch. -/
theorem fit_exhausted (positive : 0 < cfg.stepsPerEpoch) (globalSteps : Nat)
    (boundary : globalSteps % cfg.stepsPerEpoch = 0) :
    .finish ∉ fit trainer cfg esi globalSteps (some cfg.stepsPerEpoch) := by
  have split := Nat.div_add_mod' globalSteps cfg.stepsPerEpoch
  have none : (List.range cfg.stepsPerEpoch).drop cfg.stepsPerEpoch = List.range' 0 0 := by simp
  rw [boundary,Nat.add_zero] at split
  simp only [fit,Option.getD_some,none]
  rcases Nat.eq_zero_or_pos (cfg.totalEpochs - globalSteps / cfg.stepsPerEpoch) with overrun | left
  · rw [overrun]
    simp [runEpochs]
  · obtain ⟨epochs,count⟩ : ∃ epochs, cfg.totalEpochs - globalSteps / cfg.stepsPerEpoch = epochs + 1 :=
      ⟨_,(Nat.sub_add_cancel left).symm⟩
    rw [count]
    apply runEpochs_unfinished
    have total : cfg.totalTrainingSteps = globalSteps / cfg.stepsPerEpoch * cfg.stepsPerEpoch +
        epochs * cfg.stepsPerEpoch + cfg.stepsPerEpoch := by
      have epochsEq : cfg.totalEpochs = globalSteps / cfg.stepsPerEpoch + epochs + 1 := by omega
      rw [Config.totalTrainingSteps,epochsEq]
      ring
    omega

/-- What a checkpoint of an unbroken run says. -/
theorem saved_step (positive : 0 < cfg.stepsPerEpoch) (s yielded : Nat)
    (saved : .save s yielded ∈ scratchRun trainer cfg esi) :
    0 < s ∧ s ≤ cfg.totalTrainingSteps ∧ yielded = (s-1) % cfg.stepsPerEpoch + 1 ∧
      saves trainer cfg esi s = true := by
  rcases Nat.eq_zero_or_pos cfg.totalTrainingSteps with none | some
  · have overrun : cfg.totalEpochs = 0 := by
      rcases Nat.mul_eq_zero.mp none with zero | zero
      · omega
      · exact zero
    simp [scratchRun,fit,overrun,runEpochs] at saved
  · rw [scratchRun,fit_eq trainer cfg esi positive 0 none some (by simp),mem_stepsFrom] at saved
    obtain ⟨j,_,before,here⟩ := saved
    unfold stepEvents iteration at here
    split_ifs at here with now _ _ <;> simp at here
    all_goals
      obtain ⟨rfl,rfl⟩ := here
      exact ⟨Nat.succ_pos j,by omega,by simp,now⟩

/-- A run that has saved a checkpoint also saves its last step. -/
theorem saves_last (esi' : Nat → Bool) (s : Nat) (upto : s ≤ cfg.totalTrainingSteps)
    (saved : saves trainer cfg esi s = true) : saves trainer cfg esi' cfg.totalTrainingSteps = true := by
  cases trainer with
  | ppoTrainer =>
    simp only [saves,Bool.and_eq_true,decide_eq_true_eq] at saved
    simp [saves,isLastStep,saved.1]
  | rayPpoTrainer =>
    simp only [saves,Bool.and_eq_true,Bool.not_eq_true',decide_eq_true_eq,decide_eq_false_iff_not] at saved
    have warm : ¬ cfg.criticWarmup > cfg.totalTrainingSteps := by omega
    simp [saves,isLastStep,saved.2.1,warm]

/-- The dataloader is at the end of its epoch after a multiple of its length. -/
theorem yielded_eq (positive : 0 < cfg.stepsPerEpoch) (s : Nat) (later : 0 < s) :
    (s-1) % cfg.stepsPerEpoch + 1 =
      if s % cfg.stepsPerEpoch = 0 then cfg.stepsPerEpoch else s % cfg.stepsPerEpoch := by
  obtain ⟨j,rfl⟩ : ∃ j, s = j + 1 := ⟨s-1,by omega⟩
  have bound := Nat.mod_lt j positive
  have split : j + 1 = j % cfg.stepsPerEpoch + 1 + cfg.stepsPerEpoch * (j / cfg.stepsPerEpoch) := by
    have := Nat.mod_add_div j cfg.stepsPerEpoch
    omega
  rw [Nat.add_sub_cancel]
  rcases Nat.lt_or_ge (j % cfg.stepsPerEpoch + 1) cfg.stepsPerEpoch with small | full
  · have next : (j + 1) % cfg.stepsPerEpoch = j % cfg.stepsPerEpoch + 1 := by
      rw [split,Nat.add_mul_mod_self_left,Nat.mod_eq_of_lt small]
    rw [next,if_neg (Nat.succ_ne_zero _)]
  · have same : j % cfg.stepsPerEpoch + 1 = cfg.stepsPerEpoch := by omega
    have next : (j + 1) % cfg.stepsPerEpoch = 0 := by
      rw [split,same,Nat.add_mul_mod_self_left,Nat.mod_self]
    rw [next,if_pos rfl,same]

theorem batches_once (epoch batch : Nat) (inEpochs : epoch < cfg.totalEpochs)
    (inEpoch : batch < cfg.stepsPerEpoch) :
    ((List.range cfg.totalTrainingSteps).map
      (fun j => (j / cfg.stepsPerEpoch,j % cfg.stepsPerEpoch))).count (epoch,batch) = 1 := by
  have positive : 0 < cfg.stepsPerEpoch := by omega
  apply List.count_eq_one_of_mem
  · apply List.Nodup.map_on _ List.nodup_range
    intro i _ j _ same
    obtain ⟨quotient,rest⟩ := Prod.mk.inj same
    rw [← Nat.div_add_mod' i cfg.stepsPerEpoch,quotient,rest,Nat.div_add_mod']
  · refine List.mem_map.mpr ⟨epoch * cfg.stepsPerEpoch + batch,List.mem_range.mpr ?_,?_⟩
    · have whole := Nat.mul_le_mul_right cfg.stepsPerEpoch (Nat.succ_le_of_lt inEpochs)
      rw [Nat.succ_mul,Nat.mul_comm cfg.totalEpochs] at whole
      exact Nat.lt_of_lt_of_le (Nat.add_lt_add_left inEpoch _) whole
    · rw [Nat.add_comm,Nat.add_mul_div_right _ _ positive,Nat.div_eq_of_lt inEpoch,Nat.zero_add,
        Nat.add_mul_mod_self_right,Nat.mod_eq_of_lt inEpoch]

/-- A run resumed at the place that the step count says does the rest and returns. -/
theorem resumesExactly_of_eq (positive : 0 < cfg.stepsPerEpoch) (esi' : Nat → Bool) (s yielded : Nat)
    (saved : .save s yielded ∈ scratchRun trainer cfg esi) (left : s < cfg.totalTrainingSteps)
    (resumed : resumedRun trainer cfg esi' s yielded =
      stepsFrom trainer cfg esi' s (cfg.totalTrainingSteps - s)) :
    ResumesExactly trainer cfg esi esi' s yielded := by
  obtain ⟨_,_,_,now⟩ := saved_step trainer cfg esi positive s yielded saved
  have scratch : scratchRun trainer cfg esi =
      stepsFrom trainer cfg esi 0 s ++ stepsFrom trainer cfg esi s (cfg.totalTrainingSteps - s) := by
    have whole := stepsFrom_append trainer cfg esi 0 s (cfg.totalTrainingSteps - s)
    rw [Nat.zero_add,Nat.add_sub_cancel' (Nat.le_of_lt left)] at whole
    rw [whole,scratchRun,fit_eq trainer cfg esi positive 0 none (by omega) (by simp),Nat.sub_zero]
  have last : stepsFrom trainer cfg esi' s (cfg.totalTrainingSteps - s) =
      stepsFrom trainer cfg esi' s (cfg.totalTrainingSteps - 1 - s) ++
        stepEvents trainer cfg esi' cfg.totalTrainingSteps
          ((cfg.totalTrainingSteps - 1) / cfg.stepsPerEpoch)
          ((cfg.totalTrainingSteps - 1) % cfg.stepsPerEpoch) := by
    have split := stepsFrom_append trainer cfg esi' s (cfg.totalTrainingSteps - 1 - s) 1
    have place : s + (cfg.totalTrainingSteps - 1 - s) = cfg.totalTrainingSteps - 1 := by omega
    have count : cfg.totalTrainingSteps - 1 - s + 1 = cfg.totalTrainingSteps - s := by omega
    have one : stepsFrom trainer cfg esi' (cfg.totalTrainingSteps - 1) 1 =
        stepEvents trainer cfg esi' (cfg.totalTrainingSteps - 1 + 1)
          ((cfg.totalTrainingSteps - 1) / cfg.stepsPerEpoch)
          ((cfg.totalTrainingSteps - 1) % cfg.stepsPerEpoch) := by simp [stepsFrom]
    rw [place,count,one,Nat.sub_add_cancel (by omega)] at split
    exact split.symm
  have ends : isLastStep cfg cfg.totalTrainingSteps = true := by simp [isLastStep]
  have tail : ∀ event, event ∈ iteration trainer cfg esi' ((cfg.totalTrainingSteps - 1) / cfg.stepsPerEpoch)
      ((cfg.totalTrainingSteps - 1) % cfg.stepsPerEpoch) cfg.totalTrainingSteps →
      event ∈ resumedRun trainer cfg esi' s yielded := by
    intro event member
    rw [resumed,last,stepEvents]
    exact List.mem_append_right _ (List.mem_append_left _ member)
  refine ⟨?_,?_,?_,?_,?_⟩
  · rw [resumed,stepsFrom_stepOf]
  · intro epoch inEpochs batch inEpoch
    rw [scratch,resumed,List.filterMap_append,stepsFrom_presented trainer cfg esi 0 s s (by omega),
      stepsFrom_late trainer cfg esi s _ s (Nat.le_refl s),List.append_nil,
      stepsFrom_presented trainer cfg esi' s _ _ (by omega),← List.map_append]
    have joined := @List.range'_append_1 0 s (cfg.totalTrainingSteps - s)
    rw [Nat.zero_add,Nat.add_sub_cancel' (Nat.le_of_lt left)] at joined
    rw [joined,← List.range_eq_range']
    exact batches_once cfg epoch batch inEpochs inEpoch
  · rw [resumed,last,stepEvents,ends,if_pos rfl,← List.append_assoc,List.getLast?_concat]
  · have again := saves_last trainer cfg esi esi' s (Nat.le_of_lt left) now
    refine ⟨(cfg.totalTrainingSteps - 1) % cfg.stepsPerEpoch + 1,tail _ ?_⟩
    rw [iteration,again,if_pos rfl]
    exact List.mem_cons_of_mem _ (List.mem_append_left _ List.mem_cons_self)
  · intro tests
    apply tail
    have now : validates cfg cfg.totalTrainingSteps = true := by simp [validates,ends,tests]
    rw [iteration,now,if_pos rfl]
    exact List.mem_cons_of_mem _ (List.mem_append_right _ List.mem_cons_self)

end Run

/-- A resumed run does exactly the remaining steps if and only if its dataloader is
not restored at the end of an epoch and there is a step left to do. -/
theorem resume_runs_remaining_iff (trainer : Trainer) (cfg : Config) (esi esi' : Nat → Bool)
    (positive : 0 < cfg.stepsPerEpoch) (s yielded : Nat)
    (saved : .save s yielded ∈ scratchRun trainer cfg esi) :
    ResumesExactly trainer cfg esi esi' s yielded ↔
      match trainer with
      | .ppoTrainer => ¬ cfg.stepsPerEpoch ∣ s
      | .rayPpoTrainer => s < cfg.totalTrainingSteps := by
  obtain ⟨later,upto,yields,_⟩ := saved_step trainer cfg esi positive s yielded saved
  rw [yielded_eq cfg positive s later] at yields
  have unfinished : .finish ∉ resumedRun trainer cfg esi' s yielded →
      ¬ ResumesExactly trainer cfg esi esi' s yielded :=
    fun absent exact => absent (List.mem_of_getLast? exact.finishes)
  cases trainer with
  | ppoTrainer =>
    simp only [Nat.dvd_iff_mod_eq_zero]
    by_cases boundary : s % cfg.stepsPerEpoch = 0
    · rw [if_pos boundary] at yields
      refine iff_of_false (unfinished ?_) (not_not.mpr boundary)
      rw [resumedRun,restoredState,yields]
      exact fit_exhausted .ppoTrainer cfg esi' positive s boundary
    · rw [if_neg boundary] at yields
      refine iff_of_true ?_ boundary
      have left : s < cfg.totalTrainingSteps := by
        refine Nat.lt_of_le_of_ne upto ?_
        rintro rfl
        exact boundary (Nat.mul_mod_right _ _)
      exact resumesExactly_of_eq .ppoTrainer cfg esi positive esi' s yielded saved left
        (fit_eq .ppoTrainer cfg esi' positive s _ left yields)
  | rayPpoTrainer =>
    simp only
    by_cases left : s < cfg.totalTrainingSteps
    · refine iff_of_true ?_ left
      refine resumesExactly_of_eq .rayPpoTrainer cfg esi positive esi' s yielded saved left
        (fit_eq .rayPpoTrainer cfg esi' positive s _ left ?_)
      by_cases boundary : s % cfg.stepsPerEpoch = 0
      · simp [restoredState,positive,boundary]
      · rw [if_neg boundary] at yields
        simp [restoredState,boundary,yields]
    · refine iff_of_false (unfinished ?_) left
      obtain rfl : s = cfg.totalTrainingSteps := by omega
      have overrun : cfg.totalTrainingSteps / cfg.stepsPerEpoch = cfg.totalEpochs :=
        Nat.mul_div_cancel_left _ positive
      simp [resumedRun,fit,overrun,runEpochs]

/-- Two epochs of two batches, saved after every step. -/
def twoByTwo : Config :=
  { stepsPerEpoch := 2, totalEpochs := 2, saveFreq := 1, testFreq := 0, criticWarmup := 0 }

/-- `PPOTrainer` resumed after the first epoch trains on nothing. -/
theorem epoch_lost_at_boundary :
    .save 2 2 ∈ scratchRun .ppoTrainer twoByTwo (fun _ => false) ∧
      resumedRun .ppoTrainer twoByTwo (fun _ => false) 2 2 = [] ∧
      ¬ ResumesExactly .ppoTrainer twoByTwo (fun _ => false) (fun _ => false) 2 2 := by
  refine ⟨by decide,by decide,fun exact => ?_⟩
  have steps := exact.steps
  revert steps
  decide

theorem resume_at_boundary_rayPpoTrainer :
    ResumesExactly .rayPpoTrainer twoByTwo (fun _ => false) (fun _ => false) 2 2 :=
  (resume_runs_remaining_iff .rayPpoTrainer twoByTwo (fun _ => false) (fun _ => false) (by decide) 2 2
    (by decide)).mpr (by decide)

end RelayOpd.TrainingResume
