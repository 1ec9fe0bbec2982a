import Mathlib.Logic.Function.Basic

/-! Synchronous checkpoint saving to local folders: `_save_checkpoint` of the trainer,
`FSDPCheckpointManager.save_checkpoint` on every rank of a worker group, and crashes
between any two writes or removals. -/
namespace RelayOpd.CheckpointRun

inductive Role where
  | actor
  | critic
  deriving DecidableEq, Repr

/-- What one rank writes into a checkpoint folder. -/
inductive Part where
  | model
  | optim
  | extra
  | huggingface
  | fsdpConfig
  | hfModel
  deriving DecidableEq, Repr

structure Config where
  useCritic : Bool
  removePreviousCkptInSave : Bool := false
  maxCkptToKeep : Role → Option Nat
  worldSize : Role → Nat
  saveContents : Role → List Part

namespace Config

variable (cfg : Config) (role : Role)

/-- `max_actor_ckpt_to_keep` and `max_critic_ckpt_to_keep`. -/
def limit : Option Nat := if cfg.removePreviousCkptInSave then some 1 else cfg.maxCkptToKeep role

def roles : List Role := if cfg.useCritic then [.actor,.critic] else [.actor]

/-- A rank's writes up to the barrier that waits for everyone. -/
def firstWrites (rank : Nat) : List Part :=
  [.model,.optim,.extra].filter (fun part => (cfg.saveContents role).contains part) ++
    if rank = 0 then [.huggingface,.fsdpConfig] else []

/-- The full model in HF format, which rank 0 writes at the end. -/
def lastWrites (rank : Nat) : List Part :=
  if rank = 0 ∧ (cfg.saveContents role).contains .hfModel = true then [.hfModel] else []

/-- Every rank has done its writes. -/
def atBarrier (pending : Nat → List Part) : Bool :=
  (List.range (cfg.worldSize role)).all (fun rank => (pending rank).isEmpty)

end Config

/-- How many of the oldest paths `ensure_checkpoint_capacity` removes. -/
def capacityCut (limit : Option Nat) (paths : List Nat) : Nat :=
  match limit with
  | none => 0
  | some m => if 1 < m ∧ m ≤ paths.length then paths.length - m + 1 else 0

/-- How many `register_checkpoint` removes, the new path already appended. -/
def registerCut (limit : Option Nat) (paths : List Nat) : Nat :=
  match limit with
  | none => 0
  | some m => if 0 < m ∧ m < paths.length then paths.length - m else 0

/-- Where a save stands. `todo` are the folders still to be removed, `pending` the
writes that each rank still has to do before the next barrier. -/
inductive Stage where
  | idle
  | capacity (role : Role) (todo : List Nat)
  | writing (role : Role) (last : Bool) (pending : Nat → List Part)
  | registering (role : Role) (todo : List Nat)
  | dataloader
  | tracker

/-- Folders are named by their global step and files carry the number of the save that
wrote them. `paths` is `previous_saved_paths` of rank 0; `completed` are the saves
that have returned. -/
structure State where
  disk : Role → Nat → Nat → Part → Option Nat
  data : Nat → Option Nat
  trackerFile : Option Nat
  paths : Role → List Nat
  globalSteps : Nat
  attempt : Nat
  completed : List (Nat × Nat)
  stage : Stage

def State.initial : State where
  disk := fun _ _ _ _ => none
  data := fun _ => none
  trackerFile := none
  paths := fun _ => []
  globalSteps := 0
  attempt := 0
  completed := []
  stage := .idle

/-- `proceed` is the end of a loop over folders, or a barrier. -/
inductive Action where
  | begin (globalSteps : Nat)
  | remove
  | write (rank : Nat)
  | proceed
  | saveData
  | writeTracker
  | crash
  deriving Repr

namespace State

variable (cfg : Config) (s : State)

/-- `shutil.rmtree` of a role's folder. -/
def removed (role : Role) (step : Nat) : State :=
  { s with disk := fun r t k q => if r = role ∧ t = step then none else s.disk r t k q }

def written (role : Role) (rank : Nat) (part : Part) : State :=
  { s with disk := fun r t k q =>
      if r = role ∧ t = s.globalSteps ∧ k = rank ∧ q = part then some s.attempt else s.disk r t k q }

def setPaths (role : Role) (paths : List Nat) : State :=
  { s with paths := Function.update s.paths role paths }

/-- The entry into a worker group's `save_checkpoint`. -/
def enter (role : Role) : State :=
  { s with stage := .capacity role ((s.paths role).take (capacityCut (cfg.limit role) (s.paths role))) }

/-- After the process is gone, a new one resumes from the tracker file. -/
def restart : State :=
  { s with paths := fun _ => [], globalSteps := s.trackerFile.getD 0, stage := .idle }

end State

def next (cfg : Config) (s : State) : Action → Option State
  | .crash => some s.restart
  | .begin k =>
    match s.stage with
    | .idle =>
      if s.globalSteps < k then
        some ({ s with globalSteps := k, attempt := s.attempt + 1 }.enter cfg .actor)
      else none
    | _ => none
  | .remove =>
    match s.stage with
    | .capacity role (step :: todo) => some { s.removed role step with stage := .capacity role todo }
    | .registering role (step :: todo) => some { s.removed role step with stage := .registering role todo }
    | _ => none
  | .write rank =>
    match s.stage with
    | .writing role last pending =>
      match pending rank with
      | [] => none
      | part :: rest =>
        if rank < cfg.worldSize role then
          some { s.written role rank part with
            stage := .writing role last (Function.update pending rank rest) }
        else none
    | _ => none
  | .proceed =>
    match s.stage with
    | .capacity role [] =>
      some { s.setPaths role ((s.paths role).drop (capacityCut (cfg.limit role) (s.paths role))) with
        stage := .writing role false (cfg.firstWrites role) }
    | .writing role last pending =>
      if cfg.atBarrier role pending then
        if last then
          let paths := s.paths role ++ [s.globalSteps]
          some { s.setPaths role paths with
            stage := .registering role (paths.take (registerCut (cfg.limit role) paths)) }
        else some { s with stage := .writing role true (cfg.lastWrites role) }
      else none
    | .registering role [] =>
      let t := s.setPaths role ((s.paths role).drop (registerCut (cfg.limit role) (s.paths role)))
      if role = .actor ∧ cfg.useCritic = true then some (t.enter cfg .critic)
      else some { t with stage := .dataloader }
    | _ => none
  | .saveData =>
    match s.stage with
    | .dataloader =>
      some { s with data := Function.update s.data s.globalSteps (some s.attempt), stage := .tracker }
    | _ => none
  | .writeTracker =>
    match s.stage with
    | .tracker =>
      some { s with
        trackerFile := some s.globalSteps
        completed := (s.globalSteps,s.attempt) :: s.completed
        stage := .idle }
    | _ => none

def run (cfg : Config) : List Action → State → Option State
  | [], s => some s
  | a :: actions, s => (next cfg s a).bind (run cfg actions)

/-- The states of a run all of whose saves begin in states that satisfy `ok`. -/
inductive Reachable (cfg : Config) (ok : State → Prop) : State → Prop where
  | start : Reachable cfg ok .initial
  | step (s t : State) (a : Action) (reached : Reachable cfg ok s)
      (begins : ∀ k, a = .begin k → ok s) (stepped : next cfg s a = some t) : Reachable cfg ok t

/-- A role's folder holds every file of one save. -/
def Complete (cfg : Config) (s : State) (role : Role) (step attempt : Nat) : Prop :=
  ∀ rank, rank < cfg.worldSize role → ∀ part ∈ cfg.firstWrites role rank ++ cfg.lastWrites role rank,
    s.disk role step rank part = some attempt

/-- The folder that the tracker file names holds everything of one completed save. -/
def Recoverable (cfg : Config) (s : State) : Prop :=
  ∃ step attempt, s.trackerFile = some step ∧ (step,attempt) ∈ s.completed ∧
    s.data step = some attempt ∧ ∀ role ∈ cfg.roles, Complete cfg s role step attempt

/-- No manager that keeps a single checkpoint has registered one since it started. -/
def Cautious (cfg : Config) (s : State) : Prop :=
  ∀ role ∈ cfg.roles, cfg.limit role ≠ some 1 ∨ s.paths role = []

end RelayOpd.CheckpointRun
