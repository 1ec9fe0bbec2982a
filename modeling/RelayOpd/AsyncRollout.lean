import Mathlib.Data.List.Basic
import Mathlib.Data.Rat.Floor
import Mathlib.Logic.Relation

/-! The fully asynchronous rollouter, its message queue and the trainer, as one machine.
Each action is what one coroutine does between two of its waits. -/
namespace RelayOpd.FullyAsync

structure Config where
  requiredSamples : Nat
  stalenessThreshold : ℚ
  triggerParameterSyncStep : Nat
  replicas : Nat
  totalRolloutSteps : Nat
  threshold_nonneg : 0 ≤ stalenessThreshold
  sync_pos : 1 ≤ triggerParameterSyncStep

namespace Config

variable (cfg : Config)

def maxRequiredSamples : Nat :=
  ⌊(cfg.requiredSamples : ℚ) * (cfg.stalenessThreshold + 1) * cfg.triggerParameterSyncStep⌋.toNat

def maxConcurrentSamples : Nat := min (cfg.replicas * 16) cfg.maxRequiredSamples

def maxQueueSize : Nat := cfg.maxRequiredSamples

def pendingSize : Nat := 128

end Config

/-- A generation task: its sample has been put into the message queue, or it has returned. -/
inductive Status where
  | running
  | delivered
  | done
deriving DecidableEq

structure Task where
  id : Nat
  status : Status
deriving DecidableEq

/-- Where `_processor_worker` stands; `makingRoom` and `endingWait` hold the lock. -/
inductive Processor where
  | top
  | asking
  | deciding (queueSize : Nat)
  | pausing
  | draining
  | waiting
  | pruning (finished : List Task) (resumed : Bool)
  | blocked
  | getting
  | holding (id : Nat)
  | makingRoom (id : Nat)
  | submitting (id : Nat)
  | ending
  | endingWait
  | closing
  | closed
deriving DecidableEq

/-- Where `reset_staleness` stands, with the sizes it has read. -/
inductive Reset where
  | acquiring
  | counting (activeTasks : Nat)
  | counted (activeTasks queueSize : Nat)
deriving DecidableEq

/-- Where the trainer stands; `resetting` awaits `reset_staleness`, the last time after the end signal. -/
inductive Trainer where
  | collecting (collected : Nat)
  | training
  | resetting (reset : Reset) (last : Bool)
  | stopped
  | finished
deriving DecidableEq

inductive Monitor where
  | idle
  | asking
  | deciding (queueSize : Nat)
  | resuming
deriving DecidableEq

/-- Samples are named by their numbers, and the end signal is `none`. `consumed` counts what
the trainer has taken since the last reset. -/
structure State where
  fed : Nat := 0
  ended : Bool := false
  pending : List (Option Nat) := []
  active : List Task := []
  stalenessSamples : Nat := 0
  paused : Bool := false
  resumeEvent : Bool := true
  processor : Processor := .top
  queue : List (Option Nat) := []
  droppedSamples : Nat := 0
  trainer : Trainer := .collecting 0
  localTriggerStep : Nat := 1
  monitor : Monitor := .idle
  consumed : Nat := 0
deriving DecidableEq

namespace Processor

def taking : Option Nat → Processor
  | none => ending
  | some id => holding id

@[simp] def held : Processor → Nat
  | holding _ | makingRoom _ | submitting _ | ending | endingWait | closing => 1
  | _ => 0

@[simp] def holds : Processor → Bool
  | holding _ | makingRoom _ | submitting _ => true
  | _ => false

@[simp] def ended : Processor → Bool
  | ending | endingWait | closing | closed => true
  | _ => false

@[simp] def locks : Processor → Bool
  | makingRoom _ | endingWait => true
  | _ => false

def pauses : Processor → Bool
  | draining | waiting | pruning _ _ | blocked => true
  | _ => false

end Processor

@[simp] def Trainer.locks : Trainer → Bool
  | resetting (.counting _) _ | resetting (.counted _ _) _ => true
  | _ => false

namespace State

def running (s : State) : Nat := s.active.countP (fun task => task.status = .running)

/-- Samples, and the end signal, that are taken from the pending queue and not consumed. -/
def outstanding (s : State) : Nat := s.running + s.queue.length + s.processor.held

def locked (s : State) : Bool := s.processor.locks || s.trainer.locks

def finished (s : State) : List Task := s.active.filter (fun task => task.status = .done)

def unfinished (s : State) : List Task := s.active.filter (fun task => task.status ≠ .done)

end State

section Steps

variable (cfg : Config)

/-- `MessageQueue.put_sample`: a full queue loses its oldest sample. -/
def putSample (sample : Option Nat) (s : State) : State :=
  if s.queue.length ≥ cfg.maxQueueSize then
    { s with queue := s.queue.drop 1 ++ [sample], droppedSamples := s.droppedSamples + 1 }
  else { s with queue := s.queue ++ [sample] }

def shouldPauseGeneration (queueSize : Nat) (s : State) : Bool :=
  queueSize ≥ cfg.maxQueueSize || s.stalenessSamples ≥ cfg.maxRequiredSamples

def feedSamples (s : State) : Option State :=
  if s.pending.length ≥ Config.pendingSize then none
  else if s.fed < cfg.totalRolloutSteps then
    some { s with pending := s.pending ++ [some s.fed], fed := s.fed + 1 }
  else if s.ended then none
  else some { s with pending := s.pending ++ [none], ended := true }

/-- `_processor_worker` up to its next wait, then the end signal of `_streaming_generation_main`.
`resumed` says whether `resume_future` is seen as done. -/
def processorWorker (resumed : Bool) (s : State) : Option State :=
  if resumed && !s.resumeEvent then none
  else
    match s.processor with
    | .top => some { s with processor := if s.paused then .pausing else .asking }
    | .asking => some { s with processor := .deciding s.queue.length }
    | .deciding queueSize =>
      some { s with processor := if shouldPauseGeneration cfg queueSize s then .pausing else .getting }
    | .pausing =>
      if s.locked then none else some { s with paused := true, resumeEvent := false, processor := .draining }
    | .draining =>
      some { s with processor := if resumed then .top else if s.active.isEmpty then .blocked else .waiting }
    | .waiting =>
      if s.finished.isEmpty then if resumed then some { s with processor := .top } else none
      else some { s with processor := .pruning s.finished resumed }
    | .pruning finished interrupted =>
      if s.locked then none
      else
        some { s with
          active := s.active.filter (· ∉ finished), processor := if interrupted then .top else .draining }
    | .blocked => if resumed then some { s with processor := .top } else none
    | .getting =>
      match s.pending with
      | [] => none
      | sample :: rest =>
        some { s with
          pending := rest, stalenessSamples := s.stalenessSamples + 1,
          processor := .taking sample }
    | .holding id =>
      if s.active.length ≥ cfg.maxConcurrentSamples then
        if s.locked then none else some { s with processor := .makingRoom id }
      else some { s with processor := .submitting id }
    | .makingRoom id =>
      if s.active.isEmpty then some { s with processor := .holding id }
      else if s.finished.isEmpty then none
      else some { s with active := s.unfinished, processor := .holding id }
    | .submitting id =>
      if (s.paused && !s.resumeEvent) || s.locked then none
      else some { s with active := s.active ++ [⟨id,.running⟩], processor := .top }
    | .ending =>
      if s.active.isEmpty then some { s with processor := .closing }
      else if s.locked then none
      else some { s with processor := .endingWait }
    | .endingWait =>
      if s.finished.isEmpty then none else some { s with active := s.unfinished, processor := .ending }
    | .closing => some { putSample cfg none s with processor := .closed }
    | .closed => none

def deliverSample (index : Nat) (s : State) : Option State :=
  match s.active[index]? with
  | some ⟨id,.running⟩ =>
    some (putSample cfg (some id) { s with active := s.active.set index ⟨id,.delivered⟩ })
  | _ => none

def finishTask (index : Nat) (s : State) : Option State :=
  match s.active[index]? with
  | some ⟨id,.delivered⟩ => some { s with active := s.active.set index ⟨id,.done⟩ }
  | _ => none

/-- The trainer: `_get_samples_from_queue`, one training step, and the wait for the weight sync. -/
def trainerStep (s : State) : Option State :=
  match s.trainer with
  | .collecting collected =>
    if collected < cfg.requiredSamples then
      match s.queue with
      | [] => none
      | none :: rest => some { s with queue := rest, consumed := s.consumed + 1, trainer := .stopped }
      | some _ :: rest =>
        some { s with queue := rest, consumed := s.consumed + 1, trainer := .collecting (collected + 1) }
    else some { s with trainer := if collected = 0 then .stopped else .training }
  | .training =>
    if s.localTriggerStep < cfg.triggerParameterSyncStep then
      some { s with localTriggerStep := s.localTriggerStep + 1, trainer := .collecting 0 }
    else some { s with localTriggerStep := 1, trainer := .resetting .acquiring false }
  | .stopped => some { s with trainer := if s.localTriggerStep = 1 then .resetting .acquiring true else .finished }
  | _ => none

def resetStaleness (s : State) : Option State :=
  match s.trainer with
  | .resetting .acquiring last =>
    if s.locked then none
    else some { s with paused := false, resumeEvent := true, trainer := .resetting (.counting s.active.length) last }
  | .resetting (.counting activeTasks) last =>
    some { s with trainer := .resetting (.counted activeTasks s.queue.length) last }
  | .resetting (.counted activeTasks queueSize) last =>
    some { s with
      stalenessSamples := activeTasks + queueSize, consumed := 0,
      trainer := if last then .finished else .collecting 0 }
  | _ => none

/-- `_async_monitor_loop` up to its next wait. -/
def asyncMonitor (s : State) : Option State :=
  match s.monitor with
  | .idle => if s.paused then some { s with monitor := .asking } else none
  | .asking => some { s with monitor := .deciding s.queue.length }
  | .deciding queueSize =>
    some { s with monitor := if shouldPauseGeneration cfg queueSize s then .idle else .resuming }
  | .resuming =>
    if s.locked then none else some { s with paused := false, resumeEvent := true, monitor := .idle }

inductive Action where
  | feed
  | processor (resumed : Bool)
  | deliver (index : Nat)
  | finish (index : Nat)
  | train
  | reset
  | monitor

def step (s : State) : Action → Option State
  | .feed => feedSamples cfg s
  | .processor resumed => processorWorker cfg resumed s
  | .deliver index => deliverSample cfg index s
  | .finish index => finishTask index s
  | .train => trainerStep cfg s
  | .reset => resetStaleness s
  | .monitor => asyncMonitor cfg s

def Runs (allowed : State → Action → Bool) : State → State → Prop :=
  Relation.ReflTransGen (fun s s' => ∃ action, allowed s action = true ∧ step cfg s action = some s')

def anyStep (_ : State) (_ : Action) : Bool := true

def runActions (allowed : State → Action → Bool) (s : State) (actions : List Action) : Option State :=
  actions.foldlM (fun s action => if allowed s action then step cfg s action else none) s

theorem runActions_runs (allowed : State → Action → Bool) (s s' : State) (actions : List Action)
    (ran : runActions cfg allowed s actions = some s') : Runs cfg allowed s s' := by
  induction actions generalizing s with
  | nil =>
    obtain rfl := Option.some.inj ran
    exact .refl
  | cons action actions ih =>
    obtain ⟨next,moved,rest⟩ := Option.bind_eq_some_iff.mp ran
    dsimp only at moved
    split at moved
    · rename_i free
      exact .head ⟨action,free,moved⟩ (ih next rest)
    · nomatch moved

end Steps

end RelayOpd.FullyAsync
