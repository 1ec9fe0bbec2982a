import Mathlib
import RelayOpd.AsyncStaleness

/-! That the rollouter, paused by a stale counter, and a trainer without samples do not wait
for each other. -/
namespace RelayOpd.FullyAsync

/-- The rollouter is paused with nothing in flight because the counter is at its bound, and the
trainer waits for a sample although some are pending. -/
structure Starved (cfg : Config) (s : State) : Prop where
  paused : s.paused = true ∧ s.processor.pauses = true
  idle : ∀ task ∈ s.active, task.status = .done
  stale : cfg.maxRequiredSamples ≤ s.stalenessSamples
  fed : ∃ id, some id ∈ s.pending
  waits : ∃ collected, s.trainer = .collecting collected ∧ collected < cfg.requiredSamples
  empty : s.queue = []

/-- Active tasks whose sample is in the message queue or was consumed. -/
def State.delivered (s : State) : Nat := s.active.countP (fun task => task.status ≠ .running)

/-- When `reset_staleness` has counted the active tasks and reads the size of the queue, few of
those tasks have delivered their samples. -/
def fewDelivered (cfg : Config) (s : State) : Action → Bool
  | .reset =>
    match s.trainer with
    | .resetting (.counting _) _ =>
      s.delivered + cfg.requiredSamples * cfg.triggerParameterSyncStep ≤ cfg.maxRequiredSamples
    | _ => true
  | _ => true

variable {cfg : Config} {s s' : State}

/-- The bound is not below what the trainer takes between two weight syncs. -/
theorem required_le : cfg.requiredSamples * cfg.triggerParameterSyncStep ≤ cfg.maxRequiredSamples := by
  have nonneg := cfg.threshold_nonneg
  have product : (0 : ℚ) ≤ cfg.requiredSamples * cfg.stalenessThreshold * cfg.triggerParameterSyncStep := by positivity
  have floor : ((cfg.requiredSamples * cfg.triggerParameterSyncStep : ℕ) : ℤ) ≤
      ⌊(cfg.requiredSamples : ℚ) * (cfg.stalenessThreshold + 1) * cfg.triggerParameterSyncStep⌋ := by
    rw [Int.le_floor]
    push_cast
    linarith
  exact Int.le_toNat (by omega) |>.mpr floor

/-- Where the trainer stands between two weight syncs. -/
structure Phase (cfg : Config) (trainer : Trainer) (localTriggerStep consumed : Nat) : Prop where
  started : 1 ≤ localTriggerStep
  within : localTriggerStep ≤ cfg.triggerParameterSyncStep
  collecting : ∀ collected, trainer = .collecting collected → collected ≤ cfg.requiredSamples ∧
    consumed = (localTriggerStep - 1) * cfg.requiredSamples + collected
  training : trainer = .training → consumed = localTriggerStep * cfg.requiredSamples
  syncing : ∀ reset, trainer = .resetting reset false → localTriggerStep = 1

theorem Phase.train (phase : Phase cfg s.trainer s.localTriggerStep s.consumed)
    (moved : trainerStep cfg s = some s') : Phase cfg s'.trainer s'.localTriggerStep s'.consumed := by
  obtain ⟨started,within,collecting,training,syncing⟩ := phase
  unfold trainerStep at moved
  split at moved
  case h_1 collected at_ =>
    obtain ⟨few,sofar⟩ := collecting collected at_
    split at moved
    · split at moved
      · cases moved
      · obtain rfl := Option.some.inj moved
        exact ⟨started,within,(by simp),(by simp),(by simp)⟩
      · rename_i more _ id rest given
        obtain rfl := Option.some.inj moved
        refine ⟨started,within,fun next at_ => ?_,(by simp),(by simp)⟩
        obtain rfl := Trainer.collecting.inj at_
        exact ⟨more,by rw [sofar]; rfl⟩
    · rename_i full
      obtain rfl := Option.some.inj moved
      have all : collected = cfg.requiredSamples := Nat.le_antisymm few (Nat.le_of_not_lt full)
      by_cases none_ : collected = 0
      · simp only [none_,if_true]
        exact ⟨started,within,(by simp),(by simp),(by simp)⟩
      · simp only [none_,if_false]
        refine ⟨started,within,(by simp),fun _ => ?_,(by simp)⟩
        rw [sofar,all,← Nat.succ_mul,Nat.succ_eq_add_one,Nat.sub_add_cancel started]
  case h_2 at_ =>
    split at moved
    · rename_i more
      obtain rfl := Option.some.inj moved
      refine ⟨Nat.succ_pos _,more,fun next at_next => ?_,(by simp),(by simp)⟩
      obtain rfl := Trainer.collecting.inj at_next
      exact ⟨Nat.zero_le _,training at_⟩
    · obtain rfl := Option.some.inj moved
      exact ⟨Nat.le_refl 1,cfg.sync_pos,(by simp),(by simp),fun _ _ => rfl⟩
  case h_3 at_ =>
    obtain rfl := Option.some.inj moved
    by_cases first : s.localTriggerStep = 1
    · simp only [first,if_true]
      exact ⟨Nat.le_refl 1,cfg.sync_pos,(by simp),(by simp),(by simp)⟩
    · simp only [first,if_false]
      exact ⟨started,within,(by simp),(by simp),(by simp)⟩
  case h_4 => cases moved

theorem Phase.reset (phase : Phase cfg s.trainer s.localTriggerStep s.consumed) (resets : Resets s s') :
    Phase cfg s'.trainer s'.localTriggerStep s'.consumed := by
  obtain ⟨started,within,collecting,training,syncing⟩ := phase
  cases resets with
  | acquires last at_ free =>
    refine ⟨started,within,(by simp),(by simp),fun reset given => ?_⟩
    obtain ⟨_,rfl⟩ := Trainer.resetting.inj given
    exact syncing _ at_
  | counts activeTasks last at_ =>
    refine ⟨started,within,(by simp),(by simp),fun reset given => ?_⟩
    obtain ⟨_,rfl⟩ := Trainer.resetting.inj given
    exact syncing _ at_
  | assigns activeTasks queueSize last at_ =>
    cases last with
    | true => exact ⟨started,within,(by simp),(by simp),(by simp)⟩
    | false =>
      refine ⟨started,within,fun collected given => ?_,(by simp),(by simp)⟩
      obtain rfl := Trainer.collecting.inj given
      exact ⟨Nat.zero_le _,by simp [syncing _ at_]⟩

/-- Enough samples reach the trainer: those of one sync are in the queue or consumed, or the
counter exceeds what is outstanding or consumed by at most the difference of the bounds. -/
structure Fed (cfg : Config) (s : State) : Prop where
  sound : Sound s
  phase : Phase cfg s.trainer s.localTriggerStep s.consumed
  enough : cfg.requiredSamples * cfg.triggerParameterSyncStep ≤ s.queue.length + s.consumed ∨
    s.stalenessSamples + cfg.requiredSamples * cfg.triggerParameterSyncStep ≤
      s.outstanding + s.consumed + cfg.maxRequiredSamples
  counting : ∀ activeTasks last, s.trainer = .resetting (.counting activeTasks) last → s.active.length = activeTasks
  counted : ∀ activeTasks queueSize last, s.trainer = .resetting (.counted activeTasks queueSize) last →
    cfg.requiredSamples * cfg.triggerParameterSyncStep ≤ s.queue.length ∨
      activeTasks + queueSize + cfg.requiredSamples * cfg.triggerParameterSyncStep ≤
        s.outstanding + cfg.maxRequiredSamples

theorem Fed.not_starved (fed : Fed cfg s) : ¬ Starved cfg s := by
  intro starved
  obtain ⟨collected,at_,few⟩ := starved.waits
  obtain ⟨_,sofar⟩ := fed.phase.collecting collected at_
  have rounds : (s.localTriggerStep - 1) * cfg.requiredSamples + cfg.requiredSamples ≤
      cfg.requiredSamples * cfg.triggerParameterSyncStep := by
    rw [← Nat.succ_mul,Nat.succ_eq_add_one,Nat.sub_add_cancel fed.phase.started,Nat.mul_comm]
    exact Nat.mul_le_mul_left _ fed.phase.within
  have running : s.running = 0 := List.countP_eq_zero.mpr (fun task member => by simp [starved.idle task member])
  have held : s.processor.held = 0 := by
    have pauses := starved.paused.2
    cases at_processor : s.processor <;> simp_all [Processor.pauses]
  have stale := starved.stale
  have empty : s.queue.length = 0 := by rw [starved.empty]; rfl
  rcases fed.enough with sent | counted
  · omega
  · unfold State.outstanding at counted
    omega

theorem Fed.start : Fed cfg {} := by
  refine ⟨.start,⟨Nat.le_refl 1,cfg.sync_pos,fun collected given => ?_,(by simp),(by simp)⟩,.inr ?_,(by simp),(by simp)⟩
  · obtain rfl := Trainer.collecting.inj given
    exact ⟨Nat.zero_le _,by simp⟩
  · have bound : cfg.requiredSamples * cfg.triggerParameterSyncStep ≤ cfg.maxRequiredSamples := required_le
    exact (show 0 + _ ≤ 0 + 0 + cfg.maxRequiredSamples by omega)

theorem running_add_delivered : s.running + s.delivered = s.active.length := by
  simpa [State.running,State.delivered,List.countP_eq_length_filter] using
    (List.length_eq_countP_add_countP (fun task : Task => decide (task.status = .running)) (l := s.active)).symm

/-- A sample that is put makes the queue longer, or it is full. -/
theorem putSample_length (cfg : Config) (s : State) (sample : Option Nat) :
    (putSample cfg sample s).queue.length = s.queue.length + 1 ∨
      (cfg.maxRequiredSamples ≤ s.queue.length ∧ s.queue.length ≤ (putSample cfg sample s).queue.length) := by
  unfold putSample
  split
  · rename_i full
    right
    refine ⟨full,?_⟩
    simp only [List.length_append,List.length_drop,List.length_singleton]
    omega
  · left
    exact List.length_append

/-- What putting a sample leaves alone. -/
theorem putSample_frame (cfg : Config) (s : State) (sample : Option Nat) :
    ∃ queue droppedSamples, putSample cfg sample s = { s with queue := queue, droppedSamples := droppedSamples } := by
  unfold putSample
  split
  · exact ⟨_,_,rfl⟩
  · exact ⟨_,s.droppedSamples,rfl⟩

theorem Fed.still (fed : Fed cfg s) (still : Still s s') : Fed cfg s' := by
  have outstanding : s'.outstanding = s.outstanding := by
    simp only [State.outstanding,still.running,still.queue,still.held]
  refine ⟨still.sound,?_,?_,fun activeTasks last at_ => ?_,fun activeTasks queueSize last at_ => ?_⟩
  · rw [still.trainer,still.localTriggerStep,still.consumed]
    exact fed.phase
  · rw [outstanding,still.queue,still.consumed,still.stalenessSamples]
    exact fed.enough
  · rw [still.trainer] at at_
    rw [still.active (by rw [at_]; rfl)]
    exact fed.counting activeTasks last at_
  · rw [still.trainer] at at_
    rw [outstanding,still.queue]
    exact fed.counted activeTasks queueSize last at_

theorem Fed.moves (fed : Fed cfg s) (sound : Sound s') (moves : Moves cfg s s') : Fed cfg s' := by
  have enough := fed.enough
  have counted := fed.counted
  have least : cfg.requiredSamples * cfg.triggerParameterSyncStep ≤ cfg.maxRequiredSamples := required_le
  cases moves with
  | passes queueSize at_ fresh =>
    simp only [State.outstanding,at_,Processor.held] at enough counted
    exact ⟨sound,fed.phase,enough,fed.counting,counted⟩
  | takes sample rest at_ given =>
    have one : (Processor.taking sample).held = 1 := by cases sample <;> rfl
    simp only [State.outstanding,at_,Processor.held] at enough counted
    refine ⟨sound,fed.phase,?_,fed.counting,fun activeTasks queueSize last reading => ?_⟩
    · simp only [State.outstanding,one]
      change _ ∨ s.stalenessSamples + 1 + _ ≤ s.running + s.queue.length + 1 + s.consumed + _
      omega
    · have sizes := counted activeTasks queueSize last reading
      simp only [State.outstanding,one]
      change _ ∨ _ ≤ s.running + s.queue.length + 1 + _
      omega
  | submits id at_ free =>
    have running : ({ s with active := s.active ++ [⟨id,.running⟩], processor := .top } : State).running =
        s.running + 1 := by simp [State.running,List.countP_append]
    simp only [State.outstanding,at_,Processor.held] at enough
    refine ⟨sound,fed.phase,?_,fun activeTasks last counting => ?_,fun activeTasks queueSize last reading => ?_⟩
    · rw [State.outstanding,running]
      change _ ≤ s.queue.length + s.consumed ∨ s.stalenessSamples + _ ≤ s.running + 1 + s.queue.length + 0 + s.consumed + _
      omega
    · rw [show s.trainer = _ from counting] at free
      cases free
    · rw [show s.trainer = _ from reading] at free
      cases free
  | closes at_ =>
    simp only [State.outstanding,at_,Processor.held] at enough counted
    have length := putSample_length cfg s none
    obtain ⟨queue,droppedSamples,put⟩ := putSample_frame cfg s none
    rw [put] at sound length ⊢
    refine ⟨sound,fed.phase,?_,fed.counting,fun activeTasks queueSize last reading => ?_⟩
    · change _ ∨ _ ≤ s.running + queue.length + 0 + s.consumed + _
      simp only at length ⊢
      omega
    · have sizes := counted activeTasks queueSize last reading
      change _ ∨ _ ≤ s.running + queue.length + 0 + _
      simp only at length ⊢
      omega

theorem Fed.step (fed : Fed cfg s) (action : Action) (few : fewDelivered cfg s action = true)
    (moved : step cfg s action = some s') : Fed cfg s' := by
  have sound := fed.sound.step action moved
  have enough := fed.enough
  have counted := fed.counted
  have least : cfg.requiredSamples * cfg.triggerParameterSyncStep ≤ cfg.maxRequiredSamples := required_le
  cases action with
  | feed =>
    obtain ⟨_,_,_,_,_,_,rfl⟩ := others_still (.inl moved)
    exact ⟨sound,fed.phase,enough,fed.counting,counted⟩
  | monitor =>
    obtain ⟨_,_,_,_,_,_,rfl⟩ := others_still (.inr moved)
    exact ⟨sound,fed.phase,enough,fed.counting,counted⟩
  | processor resumed =>
    rcases processorWorker_cases fed.sound resumed moved with still | moves
    · exact fed.still still
    · exact fed.moves sound moves
  | deliver index =>
    obtain ⟨id,given,rfl⟩ := deliverSample_cases index moved
    have fewer := countP_set s.active index id .running .delivered given (by simp)
    rw [if_pos rfl] at fewer
    have running : s.running = (s.active.set index ⟨id,.delivered⟩).countP (fun task => task.status = .running) + 1 :=
      fewer.symm
    have length := putSample_length cfg { s with active := s.active.set index ⟨id,.delivered⟩ } (some id)
    obtain ⟨queue,droppedSamples,put⟩ :=
      putSample_frame cfg { s with active := s.active.set index ⟨id,.delivered⟩ } (some id)
    rw [put] at sound length ⊢
    simp only [State.outstanding,running] at enough counted
    simp only at length
    refine ⟨sound,fed.phase,?_,fun activeTasks last counting => ?_,fun activeTasks queueSize last reading => ?_⟩
    · simp only [State.outstanding,State.running]
      omega
    · exact (List.length_set ..).trans (fed.counting activeTasks last counting)
    · have sizes := counted activeTasks queueSize last reading
      simp only [State.outstanding,State.running]
      omega
  | finish index =>
    obtain ⟨id,given,rfl⟩ := finishTask_cases index moved
    have same := countP_set s.active index id .delivered .done given (by simp)
    rw [if_neg (by simp)] at same
    have outstanding : ({ s with active := s.active.set index ⟨id,.done⟩ } : State).outstanding = s.outstanding :=
      congrArg (· + s.queue.length + s.processor.held) same
    refine ⟨sound,fed.phase,outstanding ▸ enough,fun activeTasks last counting => ?_,outstanding ▸ counted⟩
    exact (List.length_set ..).trans (fed.counting activeTasks last counting)
  | train =>
    have phase := fed.phase.train moved
    obtain ⟨taken,trainer,_,length,unlocked,_,rfl⟩ := trainerStep_cases moved
    refine ⟨sound,phase,?_,fun activeTasks last counting => ?_,fun activeTasks queueSize last reading => ?_⟩
    · simp only [State.outstanding] at enough ⊢
      change _ ∨ _ ≤ s.running + (s.queue.drop taken).length + s.processor.held + (s.consumed + taken) + _
      omega
    · rw [show trainer = _ from counting] at unlocked
      cases unlocked
    · rw [show trainer = _ from reading] at unlocked
      cases unlocked
  | reset =>
    have resets := resetStaleness_cases moved
    have phase := fed.phase.reset resets
    cases resets with
    | acquires last at_ free =>
      refine ⟨sound,phase,enough,fun activeTasks other counting => ?_,(by simp)⟩
      obtain ⟨⟨rfl⟩,rfl⟩ := Trainer.resetting.inj counting
      rfl
    | counts activeTasks last at_ =>
      refine ⟨sound,phase,enough,(by simp),fun activeTasks' queueSize other reading => ?_⟩
      obtain ⟨⟨rfl,rfl⟩,rfl⟩ := Trainer.resetting.inj reading
      have size := fed.counting activeTasks last at_
      have parts : s.running + s.delivered = s.active.length := running_add_delivered
      have bound : s.delivered + cfg.requiredSamples * cfg.triggerParameterSyncStep ≤ cfg.maxRequiredSamples := by
        simpa [fewDelivered,at_] using few
      right
      change _ ≤ s.running + s.queue.length + s.processor.held + _
      omega
    | assigns activeTasks queueSize last at_ =>
      have sizes := counted activeTasks queueSize last at_
      refine ⟨sound,phase,sizes,?_,?_⟩
      · intro _ _ here
        cases last <;> cases here
      · intro _ _ _ here
        cases last <;> cases here

/-- In every run in which few counted tasks have delivered when `reset_staleness` reads the
queue's size, rollouter and trainer never wait for each other. -/
theorem never_starved (cfg : Config) (s : State) (run : Runs cfg (fewDelivered cfg) {} s) : ¬ Starved cfg s := by
  refine Fed.not_starved ?_
  induction run with
  | refl => exact .start
  | tail _ moved ih =>
    obtain ⟨action,few,moved⟩ := moved
    exact ih.step action few moved

section Example

/-- One sample a training step, and no stale ones. -/
def synchronous : Config where
  requiredSamples := 1
  stalenessThreshold := 0
  triggerParameterSyncStep := 1
  replicas := 1
  totalRolloutSteps := 3
  threshold_nonneg := by norm_num
  sync_pos := Nat.one_pos

/-- The first sample is generated and consumed, and the weight sync finds its task pruned. -/
def prunedBeforeSync : List Action :=
  [List.replicate 2 .feed,List.replicate 10 (.processor false),[.deliver 0,.finish 0],
    List.replicate 4 (.processor false),List.replicate 3 .train,List.replicate 3 .reset].flatten

theorem never_starved_pruned :
    ∃ s, runActions synchronous (fewDelivered synchronous) {} prunedBeforeSync = some s ∧ s.stalenessSamples = 0 ∧
      ¬ Starved synchronous s := by
  have ran : (runActions synchronous (fewDelivered synchronous) {} prunedBeforeSync).map State.stalenessSamples =
      some 0 := by decide +kernel
  obtain ⟨s,run,fresh⟩ := Option.map_eq_some_iff.mp ran
  exact ⟨s,run,fresh,never_starved synchronous s
    (runActions_runs synchronous (fewDelivered synchronous) {} s prunedBeforeSync run)⟩

/-- The trainer consumes the first sample and syncs before the task that delivered it has
returned to the rollouter. The counter starts at one, its bound, and stays there. -/
def syncBeforeReturn : List Action :=
  [List.replicate 2 .feed,List.replicate 10 (.processor false),[.deliver 0],List.replicate 3 .train,
    List.replicate 3 .reset,[.processor true],List.replicate 5 (.processor false),[.finish 0],
    List.replicate 3 (.processor false)].flatten

def deadlock : State where
  fed := 2
  pending := [some 1]
  stalenessSamples := 1
  paused := true
  resumeEvent := false
  processor := .blocked

theorem starved_example : Runs synchronous anyStep {} deadlock ∧ Starved synchronous deadlock := by
  have ran : runActions synchronous anyStep {} syncBeforeReturn = some deadlock := by decide +kernel
  have bound : synchronous.maxRequiredSamples = 1 := by decide +kernel
  exact ⟨runActions_runs synchronous anyStep {} deadlock syncBeforeReturn ran,⟨rfl,rfl⟩,(fun _ active => by cases active),Nat.le_of_eq bound,
    ⟨1,by decide⟩,⟨0,rfl,by decide⟩,rfl⟩

end Example

end RelayOpd.FullyAsync
