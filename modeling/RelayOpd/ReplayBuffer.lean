import RelayOpd.OrderedDict
import Mathlib.Logic.Function.Basic

/-! The replay buffer of the synchronous trainer beside TransferQueue, for one partition: the
poll thread, the agent-loop workers, and the trainer's cycle of sampling and clearing. -/
namespace RelayOpd.ReplayBuffer

/-- A prompt's `uid`, an output's `{uid}_{session_id}_{index}`, or `pad{uid}_{index}_0`. -/
inductive Key where
  | prompt (uid : Nat)
  | output (uid session index : Nat)
  | padding (uid index : Nat)
  deriving DecidableEq, Repr

inductive Status where
  | running
  | success
  | finished
  | failure
  deriving DecidableEq, Repr

structure Tag where
  globalSteps : Option Nat := none
  status : Option Status := none
  promptLen : Option Nat := none
  responseLen : Option Nat := none
  seqLen : Option Nat := none
  isPadding : Option Bool := none
  deriving DecidableEq, Repr

/-- `dict.update`. -/
def Tag.update (old new : Tag) : Tag where
  globalSteps := new.globalSteps <|> old.globalSteps
  status := new.status <|> old.status
  promptLen := new.promptLen <|> old.promptLen
  responseLen := new.responseLen <|> old.responseLen
  seqLen := new.seqLen <|> old.seqLen
  isPadding := new.isPadding <|> old.isPadding

abbrev Partition := OrderedDict Key Tag

section Buffer

variable (partition : Partition)

def add (items : List (Key × Tag)) : Partition :=
  items.foldl (fun p item => p.set item.1 ((p.getD item.1 {}).update item.2)) partition

def remove (keys : List Key) : Partition := keys.foldl OrderedDict.pop partition

inductive Error where
  | assertion
  | keyError (field : String)
  deriving DecidableEq, Repr

inductive Sample where
  | wait
  | batch (items : List (Key × Tag))
  deriving DecidableEq, Repr

/-- The loop over the partition, `found` being `keys` and `tags` so far. -/
def scan (globalSteps : Option Nat) : List (Key × Tag) → List (Key × Tag) → Except Error Sample
  | [],found => .ok (.batch found)
  | (key,tag) :: items,found =>
    match tag.globalSteps with
    | none => .error (.keyError "global_steps")
    | some steps =>
      if some steps = globalSteps then
        match tag.status with
        | none => .error (.keyError "status")
        | some .running => .ok .wait
        | some .success => scan globalSteps items (found ++ [(key,tag)])
        | some _ => scan globalSteps items found
      else scan globalSteps items found

/-- One round of `sample`, under the lock. -/
def sample (globalSteps batchSize : Option Nat) : Except Error Sample :=
  let sized := batchSize.getD 0 ≠ 0
  if (globalSteps.isSome = true ∨ sized) ∧ ¬ (globalSteps.isSome = true ∧ sized) then
    scan globalSteps partition.entries []
  else .error .assertion

end Buffer

/-- One `_run_agent_loop`, with the number of outputs it has put. -/
inductive Session where
  | running
  | returned (outputs : Nat)
  | raised
  deriving DecidableEq, Repr

inductive Outcome where
  | finished
  | failure
  deriving DecidableEq, Repr

def Outcome.status : Outcome → Status
  | .finished => .finished
  | .failure => .failure

/-- One `_run_prompt`, with what it has put under the prompt's own key. A task that has
not been started is one that has not taken a step. -/
structure Task where
  globalSteps : Nat
  sessions : List Session
  outcome : Option Outcome
  deriving DecidableEq, Repr

/-- Past its `gather`, which raises with the first session that does. -/
def Task.gathered (task : Task) : Option Outcome :=
  if .raised ∈ task.sessions then some .failure
  else if .running ∈ task.sessions then none
  else some .finished

/-- Where the trainer stands: between two batches, in `sample`, with a batch, or between
clearing some of its keys and removing them. -/
inductive Phase where
  | idle
  | sampling
  | sampled (items : List (Key × Tag))
  | cleared (gone : List Key) (items : List (Key × Tag))
  deriving DecidableEq, Repr

/-- `queue` is TransferQueue, `snapshot` what the poll thread has listed and not added yet.
`globalSteps` and `uids` are those of the current batch, `returned` the keys of all samples. -/
structure State where
  buffer : Partition
  queue : Partition
  snapshot : Option Partition
  tasks : Nat → Option Task
  globalSteps : Nat
  uids : List Nat
  phase : Phase
  returned : List Key

def State.initial : State where
  buffer := .empty
  queue := .empty
  snapshot := none
  tasks := fun _ => none
  globalSteps := 0
  uids := []
  phase := .idle
  returned := []

/-- The prompts of a batch come as their `uid` with `n`, outputs with the lengths of
prompt and response. -/
inductive Action where
  | generateSequences (globalSteps : Nat) (prompts : List (Nat × Nat))
  | postprocess (uid session : Nat) (outputs : List (Nat × Nat))
  | raise (uid session : Nat)
  | gather (uid : Nat)
  | kvList
  | add
  | sample
  | upsample (uid padSize : Nat)
  | kvClear (keys : List Key)
  | remove
  | finish
  deriving Repr

namespace State

variable (s : State)

def setTask (uid : Nat) (task : Task) : State :=
  { s with tasks := Function.update s.tasks uid (some task) }

/-- What `generate_sequences` marks as pending. -/
def pending (globalSteps : Nat) (prompts : List (Nat × Nat)) : List (Key × Tag) :=
  prompts.map (fun prompt => (.prompt prompt.1,{ globalSteps := some globalSteps, status := some .running }))

def dispatched (globalSteps : Nat) (prompts : List (Nat × Nat)) (uid : Nat) : Option Task :=
  match prompts.find? (fun prompt => prompt.1 = uid) with
  | some prompt => some ⟨globalSteps,List.replicate prompt.2 .running,none⟩
  | none => s.tasks uid

end State

/-- The items of `async_kv_batch_put`. -/
def outputItems (globalSteps uid session : Nat) (outputs : List (Nat × Nat)) : List (Key × Tag) :=
  outputs.mapIdx (fun index lens => (.output uid session index,
    { globalSteps := some globalSteps, status := some .success, promptLen := some lens.1
      responseLen := some lens.2, seqLen := some (lens.1 + lens.2) }))

def padItems (uid padSize : Nat) (template : Tag) : List (Key × Tag) :=
  (List.range padSize).map (fun index => (.padding uid index,
    { template with isPadding := some true, promptLen := some 1, responseLen := some 1, seqLen := some 2 }))

/-- The `put` of TransferQueue: new keys, or new tags for present ones. -/
def put (queue : Partition) (items : List (Key × Tag)) : Partition :=
  items.foldl (fun q item => q.set item.1 item.2) queue

def next (s : State) : Action → Option State
  | .generateSequences globalSteps prompts =>
    if s.phase = .idle ∧ (prompts.map Prod.fst).Nodup ∧ ∀ prompt ∈ prompts, s.tasks prompt.1 = none then
      some { s with
        buffer := add s.buffer (State.pending globalSteps prompts)
        tasks := s.dispatched globalSteps prompts
        globalSteps := globalSteps
        uids := prompts.map Prod.fst
        phase := .sampling }
    else none
  | .postprocess uid session outputs =>
    match s.tasks uid with
    | none => none
    | some task =>
      if task.sessions[session]? = some .running then
        some { s.setTask uid { task with sessions := task.sessions.set session (.returned outputs.length) } with
          queue := put s.queue (outputItems task.globalSteps uid session outputs) }
      else none
  | .raise uid session =>
    match s.tasks uid with
    | none => none
    | some task =>
      if task.sessions[session]? = some .running then
        some (s.setTask uid { task with sessions := task.sessions.set session .raised })
      else none
  | .gather uid =>
    match s.tasks uid with
    | none => none
    | some task =>
      match task.outcome,task.gathered with
      | none,some outcome =>
        some { s.setTask uid { task with outcome := some outcome } with
          queue := put s.queue [(.prompt uid,{ status := some outcome.status })] }
      | _,_ => none
  | .kvList => if s.snapshot = none then some { s with snapshot := some s.queue } else none
  | .add =>
    match s.snapshot with
    | none => none
    | some items => some { s with buffer := add s.buffer items.entries, snapshot := none }
  | .sample =>
    match s.phase,sample s.buffer (some s.globalSteps) none with
    | .sampling,.ok .wait => some s
    | .sampling,.ok (.batch items) =>
      some { s with phase := .sampled items, returned := s.returned ++ items.map Prod.fst }
    | _,_ => none
  | .upsample uid padSize =>
    match s.phase with
    | .sampled (item :: items) =>
      let pads := padItems uid padSize item.2
      some { s with queue := put s.queue pads, phase := .sampled (item :: items ++ pads) }
    | _ => none
  | .kvClear keys =>
    match s.phase with
    | .sampled items =>
      if ∀ key ∈ keys, key ∈ items.map Prod.fst then
        some { s with
          queue := remove s.queue keys
          phase := .cleared keys (items.filter (fun item => item.1 ∉ keys)) }
      else none
    | _ => none
  | .remove =>
    match s.phase with
    | .cleared gone items => some { s with buffer := remove s.buffer gone, phase := .sampled items }
    | _ => none
  | .finish => if s.phase = .sampled [] then some { s with phase := .idle } else none

def run : List Action → State → Option State
  | [],s => some s
  | a :: actions,s => (next s a).bind (run actions)

/-- The states of a run all of whose batches begin in states that satisfy `ok`. -/
inductive Reachable (ok : State → Nat → Prop) : State → Prop where
  | start : Reachable ok .initial
  | step (s t : State) (a : Action) (reached : Reachable ok s)
      (begins : ∀ g prompts, a = .generateSequences g prompts → ok s g)
      (stepped : next s a = some t) : Reachable ok t

/-- Session `i` of the task has put its output `j`. -/
def Task.Wrote (task : Task) (i j : Nat) : Prop := ∃ count, task.sessions[i]? = some (.returned count) ∧ j < count

/-- What a sample should return in a state: the outputs of the current batch, all of them
for prompts that finished, each still stored and not returned before. -/
structure Exact (s : State) (keys : List Key) : Prop where
  ended : ∀ uid ∈ s.uids, ∃ task, s.tasks uid = some task ∧ task.outcome.isSome = true
  own : ∀ key ∈ keys, ∃ uid ∈ s.uids, ∃ task i j, s.tasks uid = some task ∧ task.Wrote i j ∧ key = .output uid i j
  complete : ∀ uid ∈ s.uids, ∀ task i j, s.tasks uid = some task → task.outcome = some .finished →
    task.Wrote i j → .output uid i j ∈ keys
  stored : ∀ key ∈ keys, key ∈ s.queue.keys
  nodup : keys.Nodup
  unreturned : ∀ key ∈ keys, key ∉ s.returned

/-- A partition holds an output of some batch with these global steps. -/
def Holds (p : Partition) (g : Nat) : Prop :=
  ∃ key tag, p.get? key = some tag ∧ tag.globalSteps = some g ∧ tag.status = some .success

/-- Nothing is left of earlier batches with the same global steps: no output in the buffer,
in TransferQueue or in the poll thread's hands, and no session that still runs. -/
structure Cautious (s : State) (g : Nat) : Prop where
  buffer : ¬ Holds s.buffer g
  queue : ¬ Holds s.queue g
  snapshot : ∀ items, s.snapshot = some items → ¬ Holds items g
  sessions : ∀ uid task, s.tasks uid = some task → task.globalSteps = g → .running ∉ task.sessions

end RelayOpd.ReplayBuffer
