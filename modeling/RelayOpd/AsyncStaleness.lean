import Mathlib
import RelayOpd.AsyncRollout

/-! What one step of the rollouter, the queue or the trainer does to the counts, and the bound
on the staleness of samples. -/
namespace RelayOpd.FullyAsync

variable {cfg : Config} {s s' : State}

section Counts

theorem countP_unfinished (tasks : List Task) :
    (tasks.filter (fun task => task.status ≠ .done)).countP (fun task => task.status = .running) =
      tasks.countP (fun task => task.status = .running) := by
  rw [List.countP_filter]
  refine List.countP_congr (fun task _ => ?_)
  cases task.status <;> simp

theorem countP_pruned (tasks finished : List Task) (returned : ∀ task ∈ finished, task.status = .done) :
    (tasks.filter (· ∉ finished)).countP (fun task => task.status = .running) =
      tasks.countP (fun task => task.status = .running) := by
  rw [List.countP_filter]
  refine List.countP_congr (fun task _ => ?_)
  by_cases gone : task ∈ finished
  · simp [returned task gone]
  · simp [gone]

theorem countP_set (tasks : List Task) (index id : Nat) (before after : Status)
    (given : tasks[index]? = some ⟨id,before⟩) (settled : after ≠ .running) :
    (tasks.set index ⟨id,after⟩).countP (fun task => task.status = .running) +
        (if before = .running then 1 else 0) = tasks.countP (fun task => task.status = .running) := by
  obtain ⟨bound,entry⟩ := List.getElem?_eq_some_iff.mp given
  have counted := List.boole_getElem_le_countP (l := tasks) bound (p := fun task => task.status = .running)
  rw [entry] at counted
  rw [List.countP_set bound,entry]
  cases after with
  | running => exact absurd rfl settled
  | _ =>
    cases before <;>
      simp only [reduceCtorEq,decide_true,decide_false,Bool.false_eq_true,if_true,if_false] at counted ⊢ <;> omega

end Counts

/-- No two parties hold the lock, and what the processor discards has returned. -/
structure Sound (s : State) : Prop where
  exclusive : s.processor.locks = true → s.trainer.locks = false
  returned : ∀ finished resumed, s.processor = .pruning finished resumed → ∀ task ∈ finished, task.status = .done

/-- A step of the processor that changes no count. -/
structure Still (s s' : State) : Prop where
  queue : s'.queue = s.queue
  stalenessSamples : s'.stalenessSamples = s.stalenessSamples
  droppedSamples : s'.droppedSamples = s.droppedSamples
  consumed : s'.consumed = s.consumed
  trainer : s'.trainer = s.trainer
  localTriggerStep : s'.localTriggerStep = s.localTriggerStep
  running : s'.running = s.running
  held : s'.processor.held = s.processor.held
  holds : s'.processor.holds = s.processor.holds
  ended : s'.processor.ended = s.processor.ended
  notGetting : s'.processor ≠ .getting
  active : s.trainer.locks = true → s'.active = s.active
  sound : Sound s'

/-- A step of the processor that changes a count. -/
inductive Moves (cfg : Config) (s : State) : State → Prop where
  | passes (queueSize : Nat) (at_ : s.processor = .deciding queueSize)
    (fresh : s.stalenessSamples < cfg.maxRequiredSamples) : Moves cfg s { s with processor := .getting }
  | takes (sample : Option Nat) (rest : List (Option Nat)) (at_ : s.processor = .getting)
    (given : s.pending = sample :: rest) :
    Moves cfg s { s with
      pending := rest, stalenessSamples := s.stalenessSamples + 1,
      processor := .taking sample }
  | submits (id : Nat) (at_ : s.processor = .submitting id) (free : s.trainer.locks = false) :
    Moves cfg s { s with active := s.active ++ [⟨id,.running⟩], processor := .top }
  | closes (at_ : s.processor = .closing) : Moves cfg s { putSample cfg none s with processor := .closed }

theorem locked_eq_false : s.locked = false ↔ s.processor.locks = false ∧ s.trainer.locks = false := by
  simp [State.locked]

/-- A processor that holds what `s.processor` holds, for a state with the trainer of `s`. -/
structure Alike (s : State) (processor : Processor) : Prop where
  held : processor.held = s.processor.held
  holds : processor.holds = s.processor.holds
  ended : processor.ended = s.processor.ended
  notGetting : processor ≠ .getting
  exclusive : processor.locks = true → s.trainer.locks = false
  returned : ∀ finished resumed, processor = .pruning finished resumed → ∀ task ∈ finished, task.status = .done

theorem Alike.still {processor : Processor} (alike : Alike s processor) (paused resumeEvent : Bool) :
    Still s { s with paused := paused, resumeEvent := resumeEvent, processor := processor } :=
  ⟨rfl,rfl,rfl,rfl,rfl,rfl,rfl,alike.held,alike.holds,alike.ended,alike.notGetting,fun _ => rfl,
    ⟨alike.exclusive,alike.returned⟩⟩

/-- Tasks that have returned leave the active set. -/
theorem Alike.prunes {processor : Processor} (alike : Alike s processor) (active : List Task)
    (running : active.countP (fun task => task.status = .running) = s.running) (free : s.trainer.locks = false) :
    Still s { s with active := active, processor := processor } :=
  ⟨rfl,rfl,rfl,rfl,rfl,rfl,running,alike.held,alike.holds,alike.ended,alike.notGetting,
    (fun locked => by cases free.symm.trans locked),⟨alike.exclusive,alike.returned⟩⟩

/-- All a step of the processor can do. -/
theorem processorWorker_cases (sound : Sound s) (resumed : Bool) (moved : processorWorker cfg resumed s = some s') :
    Still s s' ∨ Moves cfg s s' := by
  unfold processorWorker at moved
  split at moved
  · cases moved
  have stays {processor : Processor} (alike : Alike s processor) (next : { s with processor := processor } = s') :
      Still s s' ∨ Moves cfg s s' := .inl (next ▸ alike.still s.paused s.resumeEvent)
  split at moved
  case h_1 at_ =>
    refine stays ?_ (Option.some.inj moved)
    split <;> constructor <;> simp [at_]
  case h_2 at_ => exact stays (by constructor <;> simp [at_]) (Option.some.inj moved)
  case h_3 queueSize at_ =>
    cases pause : shouldPauseGeneration cfg queueSize s with
    | true =>
      rw [pause] at moved
      exact stays (show Alike s .pausing by constructor <;> simp [at_]) (Option.some.inj moved)
    | false =>
      rw [pause] at moved
      obtain rfl := Option.some.inj moved
      refine .inr (.passes queueSize at_ ?_)
      simp only [shouldPauseGeneration,Bool.or_eq_false_iff,decide_eq_false_iff_not] at pause
      exact Nat.lt_of_not_le pause.2
  case h_4 at_ =>
    split at moved
    · cases moved
    · obtain rfl := Option.some.inj moved
      exact .inl (Alike.still (by constructor <;> simp [at_]) true false)
  case h_5 at_ =>
    refine stays ?_ (Option.some.inj moved)
    repeat' split
    all_goals constructor <;> simp [at_]
  case h_6 at_ =>
    split at moved
    · split at moved
      · exact stays (by constructor <;> simp [at_]) (Option.some.inj moved)
      · cases moved
    · refine stays ?_ (Option.some.inj moved)
      constructor <;> simp [at_,State.finished]
  case h_7 finished interrupted at_ =>
    split at moved
    · cases moved
    · rename_i free
      obtain rfl := Option.some.inj moved
      left
      refine Alike.prunes ?_ _ (countP_pruned s.active finished (sound.returned finished interrupted at_))
        (locked_eq_false.mp (Bool.eq_false_iff.mpr free)).2
      split <;> constructor <;> simp [at_]
  case h_8 at_ =>
    split at moved
    · exact stays (by constructor <;> simp [at_]) (Option.some.inj moved)
    · cases moved
  case h_9 at_ =>
    split at moved
    · cases moved
    · rename_i sample rest given
      obtain rfl := Option.some.inj moved
      exact .inr (.takes sample rest at_ given)
  case h_10 id at_ =>
    split at moved
    · split at moved
      · cases moved
      · rename_i free
        have open_ := (locked_eq_false.mp (Bool.eq_false_iff.mpr free)).2
        exact stays ⟨by simp [at_],by simp [at_],by simp [at_],by simp,fun _ => open_,by simp⟩ (Option.some.inj moved)
    · exact stays (by constructor <;> simp [at_]) (Option.some.inj moved)
  case h_11 id at_ =>
    split at moved
    · exact stays (by constructor <;> simp [at_]) (Option.some.inj moved)
    · split at moved
      · cases moved
      · obtain rfl := Option.some.inj moved
        exact .inl (Alike.prunes (by constructor <;> simp [at_]) _ (countP_unfinished s.active)
          (sound.exclusive (by rw [at_]; rfl)))
  case h_12 id at_ =>
    split at moved
    · cases moved
    · rename_i free
      obtain rfl := Option.some.inj moved
      rw [Bool.not_eq_true,Bool.or_eq_false_iff] at free
      exact .inr (.submits id at_ (locked_eq_false.mp free.2).2)
  case h_13 at_ =>
    split at moved
    · exact stays (by constructor <;> simp [at_]) (Option.some.inj moved)
    · split at moved
      · cases moved
      · rename_i free
        have open_ := (locked_eq_false.mp (Bool.eq_false_iff.mpr free)).2
        exact stays ⟨by simp [at_],by simp [at_],by simp [at_],by simp,fun _ => open_,by simp⟩ (Option.some.inj moved)
  case h_14 at_ =>
    split at moved
    · cases moved
    · obtain rfl := Option.some.inj moved
      exact .inl (Alike.prunes (by constructor <;> simp [at_]) _ (countP_unfinished s.active)
        (sound.exclusive (by rw [at_]; rfl)))
  case h_15 at_ =>
    obtain rfl := Option.some.inj moved
    exact .inr (.closes at_)
  case h_16 at_ => cases moved

theorem deliverSample_cases (index : Nat) (moved : deliverSample cfg index s = some s') :
    ∃ id, s.active[index]? = some ⟨id,.running⟩ ∧
      s' = putSample cfg (some id) { s with active := s.active.set index ⟨id,.delivered⟩ } := by
  unfold deliverSample at moved
  split at moved
  · rename_i id given
    exact ⟨id,given,(Option.some.inj moved).symm⟩
  · cases moved

theorem finishTask_cases (index : Nat) (moved : finishTask index s = some s') :
    ∃ id, s.active[index]? = some ⟨id,.delivered⟩ ∧ s' = { s with active := s.active.set index ⟨id,.done⟩ } := by
  unfold finishTask at moved
  split at moved
  · rename_i id given
    exact ⟨id,given,(Option.some.inj moved).symm⟩
  · cases moved

/-- A step of the trainer takes something from the queue, or changes no count. -/
theorem trainerStep_cases (moved : trainerStep cfg s = some s') :
    ∃ taken trainer localTriggerStep, s.queue.length = taken + (s.queue.drop taken).length ∧
      trainer.locks = false ∧ s.trainer.locks = false ∧
      s' = { s with
        queue := s.queue.drop taken, consumed := s.consumed + taken, trainer := trainer,
        localTriggerStep := localTriggerStep } := by
  unfold trainerStep at moved
  split at moved
  case h_1 collected at_ =>
    split at moved
    · split at moved
      · cases moved
      · rename_i rest given
        exact ⟨1,.stopped,s.localTriggerStep,by simp [given]; omega,rfl,by simp [at_],by simp [← Option.some.inj moved,given]⟩
      · rename_i id rest given
        exact ⟨1,.collecting (collected + 1),s.localTriggerStep,by simp [given]; omega,rfl,by simp [at_],
          by simp [← Option.some.inj moved,given]⟩
    · refine ⟨0,_,s.localTriggerStep,by simp,?_,by simp [at_],(Option.some.inj moved).symm⟩
      split <;> rfl
  case h_2 at_ =>
    split at moved
    · exact ⟨0,.collecting 0,s.localTriggerStep + 1,by simp,rfl,by simp [at_],(Option.some.inj moved).symm⟩
    · exact ⟨0,.resetting .acquiring false,1,by simp,rfl,by simp [at_],(Option.some.inj moved).symm⟩
  case h_3 at_ =>
    refine ⟨0,_,s.localTriggerStep,by simp,?_,by simp [at_],(Option.some.inj moved).symm⟩
    split <;> rfl
  case h_4 => cases moved

/-- A step of `reset_staleness` takes the lock, reads the queue's size or assigns the counter. -/
inductive Resets (s : State) : State → Prop where
  | acquires (last : Bool) (at_ : s.trainer = .resetting .acquiring last) (free : s.processor.locks = false) :
    Resets s { s with paused := false, resumeEvent := true, trainer := .resetting (.counting s.active.length) last }
  | counts (activeTasks : Nat) (last : Bool) (at_ : s.trainer = .resetting (.counting activeTasks) last) :
    Resets s { s with trainer := .resetting (.counted activeTasks s.queue.length) last }
  | assigns (activeTasks queueSize : Nat) (last : Bool)
    (at_ : s.trainer = .resetting (.counted activeTasks queueSize) last) :
    Resets s { s with
      stalenessSamples := activeTasks + queueSize, consumed := 0,
      trainer := if last then .finished else .collecting 0 }

theorem resetStaleness_cases (moved : resetStaleness s = some s') : Resets s s' := by
  unfold resetStaleness at moved
  split at moved
  case h_1 last at_ =>
    split at moved
    · cases moved
    · rename_i free
      obtain rfl := Option.some.inj moved
      exact .acquires last at_ (locked_eq_false.mp (Bool.eq_false_iff.mpr free)).1
  case h_2 activeTasks last at_ =>
    obtain rfl := Option.some.inj moved
    exact .counts activeTasks last at_
  case h_3 activeTasks queueSize last at_ =>
    obtain rfl := Option.some.inj moved
    exact .assigns activeTasks queueSize last at_
  case h_4 => cases moved

/-- The feeder and the monitor change no count. -/
theorem others_still (moved : feedSamples cfg s = some s' ∨ asyncMonitor cfg s = some s') :
    ∃ fed ended pending paused resumeEvent monitor, s' = { s with
      fed := fed, ended := ended, pending := pending, paused := paused, resumeEvent := resumeEvent,
      monitor := monitor } := by
  rcases moved with moved | moved
  · unfold feedSamples at moved
    split at moved
    · cases moved
    split at moved
    · exact ⟨_,_,_,s.paused,s.resumeEvent,s.monitor,(Option.some.inj moved).symm⟩
    split at moved
    · cases moved
    · exact ⟨s.fed,true,_,s.paused,s.resumeEvent,s.monitor,(Option.some.inj moved).symm⟩
  · unfold asyncMonitor at moved
    split at moved
    · split at moved
      · exact ⟨s.fed,s.ended,s.pending,s.paused,s.resumeEvent,_,(Option.some.inj moved).symm⟩
      · cases moved
    · exact ⟨s.fed,s.ended,s.pending,s.paused,s.resumeEvent,_,(Option.some.inj moved).symm⟩
    · exact ⟨s.fed,s.ended,s.pending,s.paused,s.resumeEvent,_,(Option.some.inj moved).symm⟩
    · split at moved
      · cases moved
      · exact ⟨s.fed,s.ended,s.pending,false,true,_,(Option.some.inj moved).symm⟩

theorem Sound.start : Sound {} := ⟨by simp,by simp⟩

theorem Sound.step (sound : Sound s) (action : Action) (moved : step cfg s action = some s') : Sound s' := by
  cases action with
  | feed =>
    obtain ⟨_,_,_,_,_,_,rfl⟩ := others_still (.inl moved)
    exact ⟨sound.exclusive,sound.returned⟩
  | monitor =>
    obtain ⟨_,_,_,_,_,_,rfl⟩ := others_still (.inr moved)
    exact ⟨sound.exclusive,sound.returned⟩
  | processor resumed =>
    rcases processorWorker_cases sound resumed moved with still | moves
    · exact still.sound
    · cases moves with
      | takes sample rest => cases sample <;> constructor <;> simp [Processor.taking]
      | _ => constructor <;> simp
  | deliver index =>
    obtain ⟨id,_,rfl⟩ := deliverSample_cases index moved
    unfold putSample
    split <;> exact ⟨sound.exclusive,sound.returned⟩
  | finish index =>
    obtain ⟨id,_,rfl⟩ := finishTask_cases index moved
    exact ⟨sound.exclusive,sound.returned⟩
  | train =>
    obtain ⟨taken,trainer,_,_,unlocked,_,rfl⟩ := trainerStep_cases moved
    exact ⟨fun _ => unlocked,sound.returned⟩
  | reset =>
    cases resetStaleness_cases moved with
    | acquires last at_ free => exact ⟨(fun locked => by cases free.symm.trans locked),sound.returned⟩
    | counts activeTasks last at_ =>
      refine ⟨fun locked => ?_,sound.returned⟩
      have free := sound.exclusive locked
      rw [at_] at free
      cases free
    | assigns activeTasks queueSize last =>
      refine ⟨fun _ => ?_,sound.returned⟩
      cases last <;> rfl

theorem putSample_fits (sample : Option Nat) (room : s.queue.length < cfg.maxQueueSize) :
    putSample cfg sample s = { s with queue := s.queue ++ [sample] } := if_neg (Nat.not_le_of_lt room)

/-- The samples taken and not consumed, with those consumed since the last reset, stay within
the bound, and the message queue has never dropped one. -/
structure Bounded (cfg : Config) (s : State) : Prop where
  bound : s.outstanding + s.consumed ≤ cfg.maxRequiredSamples
  queue : s.queue.length ≤ cfg.maxQueueSize
  undropped : s.droppedSamples = 0

/-- The counter covers what is outstanding, also while `reset_staleness` reads the sizes. -/
structure Covered (cfg : Config) (s : State) : Prop where
  sound : Sound s
  bound : s.outstanding + s.consumed ≤ cfg.maxRequiredSamples
  covered : s.processor.ended = false → s.outstanding + s.consumed ≤ s.stalenessSamples
  room : s.processor = .getting → s.outstanding + s.consumed < cfg.maxRequiredSamples
  counting : ∀ activeTasks last, s.trainer = .resetting (.counting activeTasks) last → s.running ≤ activeTasks
  counted : ∀ activeTasks queueSize last, s.trainer = .resetting (.counted activeTasks queueSize) last →
    s.processor.ended = false → s.running + s.queue.length ≤ activeTasks + queueSize
  undropped : s.droppedSamples = 0

theorem Covered.bounded (covered : Covered cfg s) : Bounded cfg s := by
  refine ⟨covered.bound,?_,covered.undropped⟩
  have bound := covered.bound
  unfold State.outstanding at bound
  exact (show s.queue.length ≤ cfg.maxRequiredSamples by omega)

/-- When `reset_staleness` assigns the counter, the processor holds no sample. -/
def noneHeld (s : State) : Action → Bool
  | .reset =>
    match s.trainer with
    | .resetting (.counted _ _) _ => !s.processor.holds
    | _ => true
  | _ => true

theorem held_le (processor : Processor) (unheld : processor.holds = false) (open_ : processor.ended = false) :
    processor.held = 0 := by
  cases processor <;> simp_all

theorem Covered.still (covered : Covered cfg s) (still : Still s s') : Covered cfg s' := by
  have outstanding : s'.outstanding = s.outstanding := by
    simp only [State.outstanding,still.running,still.queue,still.held]
  refine ⟨still.sound,?_,?_,fun at_ => absurd at_ still.notGetting,?_,?_,?_⟩
  · rw [outstanding,still.consumed]
    exact covered.bound
  · rw [outstanding,still.consumed,still.ended,still.stalenessSamples]
    exact covered.covered
  · intro activeTasks last at_
    rw [still.trainer] at at_
    rw [still.running]
    exact covered.counting activeTasks last at_
  · intro activeTasks queueSize last at_
    rw [still.trainer] at at_
    rw [still.running,still.queue,still.ended]
    exact covered.counted activeTasks queueSize last at_
  · rw [still.droppedSamples]
    exact covered.undropped

theorem Covered.start : Covered cfg {} :=
  ⟨.start,Nat.zero_le _,fun _ => Nat.le_refl 0,(by simp),(by simp),(by simp),rfl⟩

theorem Covered.moves (covered : Covered cfg s) (sound : Sound s') (moves : Moves cfg s s') : Covered cfg s' := by
  have bound := covered.bound
  have enough := covered.covered
  cases moves with
  | passes queueSize at_ fresh =>
    rw [at_] at enough
    have open_ := enough rfl
    simp only [State.outstanding,at_,Processor.held] at bound open_
    refine ⟨sound,bound,fun _ => open_,fun _ => Nat.lt_of_le_of_lt open_ fresh,covered.counting,
      fun activeTasks queueSize last counted _ => ?_,covered.undropped⟩
    exact covered.counted activeTasks queueSize last counted (by rw [at_]; rfl)
  | takes sample rest at_ given =>
    rw [at_] at enough
    have open_ := enough rfl
    have room := covered.room at_
    have one : (Processor.taking sample).held = 1 := by cases sample <;> rfl
    simp only [State.outstanding,at_,Processor.held] at room open_
    refine ⟨sound,?_,fun _ => ?_,?_,covered.counting,fun activeTasks queueSize last counted _ => ?_,covered.undropped⟩
    · simp only [State.outstanding,one]
      exact (show s.running + s.queue.length + 1 + s.consumed ≤ _ by omega)
    · simp only [State.outstanding,one]
      exact (show s.running + s.queue.length + 1 + s.consumed ≤ s.stalenessSamples + 1 by omega)
    · intro here
      cases sample <;> cases here
    · exact covered.counted activeTasks queueSize last counted (by rw [at_]; rfl)
  | submits id at_ free =>
    rw [at_] at enough
    have open_ := enough rfl
    simp only [State.outstanding,at_,Processor.held] at bound open_
    have running : ({ s with active := s.active ++ [⟨id,.running⟩], processor := .top } : State).running =
        s.running + 1 := by simp [State.running,List.countP_append]
    refine ⟨sound,?_,fun _ => ?_,(by simp),fun activeTasks last counting => ?_,fun activeTasks queueSize last counted => ?_,
      covered.undropped⟩
    · rw [State.outstanding,running]
      exact (show s.running + 1 + s.queue.length + 0 + s.consumed ≤ _ by omega)
    · rw [State.outstanding,running]
      exact (show s.running + 1 + s.queue.length + 0 + s.consumed ≤ s.stalenessSamples by omega)
    · rw [show s.trainer = _ from counting] at free
      cases free
    · rw [show s.trainer = _ from counted] at free
      cases free
  | closes at_ =>
    simp only [State.outstanding,at_,Processor.held] at bound
    have fits : s.queue.length < cfg.maxQueueSize := (show s.queue.length < cfg.maxRequiredSamples by omega)
    rw [putSample_fits none fits] at sound ⊢
    refine ⟨sound,?_,(by simp),(by simp),covered.counting,fun _ _ _ _ => (by simp),covered.undropped⟩
    simp only [State.outstanding,List.length_append,List.length_singleton]
    exact (show s.running + (s.queue.length + 1) + 0 + s.consumed ≤ _ by omega)

theorem Covered.step (covered : Covered cfg s) (action : Action) (quiet : noneHeld s action = true)
    (moved : step cfg s action = some s') : Covered cfg s' := by
  have sound := covered.sound.step action moved
  have bound := covered.bound
  cases action with
  | feed =>
    obtain ⟨_,_,_,_,_,_,rfl⟩ := others_still (.inl moved)
    exact ⟨sound,bound,covered.covered,covered.room,covered.counting,covered.counted,covered.undropped⟩
  | monitor =>
    obtain ⟨_,_,_,_,_,_,rfl⟩ := others_still (.inr moved)
    exact ⟨sound,bound,covered.covered,covered.room,covered.counting,covered.counted,covered.undropped⟩
  | processor resumed =>
    rcases processorWorker_cases covered.sound resumed moved with still | moves
    · exact covered.still still
    · exact covered.moves sound moves
  | deliver index =>
    obtain ⟨id,given,rfl⟩ := deliverSample_cases index moved
    have fewer := countP_set s.active index id .running .delivered given (by simp)
    rw [if_pos rfl] at fewer
    have running : s.running = (s.active.set index ⟨id,.delivered⟩).countP (fun task => task.status = .running) + 1 :=
      fewer.symm
    have fits : s.queue.length < cfg.maxQueueSize := by
      have := bound
      unfold State.outstanding at this
      exact (show s.queue.length < cfg.maxRequiredSamples by omega)
    rw [putSample_fits (some id) (s := { s with active := s.active.set index ⟨id,.delivered⟩ }) fits] at sound ⊢
    have outstanding : ({ s with
        active := s.active.set index ⟨id,.delivered⟩, queue := s.queue ++ [some id] } : State).outstanding =
        s.outstanding := by
      simp only [State.outstanding,List.length_append,List.length_singleton]
      rw [running]
      simp only [State.running]
      omega
    refine ⟨sound,outstanding ▸ bound,outstanding ▸ covered.covered,outstanding ▸ covered.room,
      fun activeTasks last counting => ?_,fun activeTasks queueSize last counted open_ => ?_,covered.undropped⟩
    · have old := covered.counting activeTasks last counting
      rw [running] at old
      exact Nat.le_of_succ_le old
    · have old := covered.counted activeTasks queueSize last counted open_
      rw [running] at old
      simp only [State.running,List.length_append,List.length_singleton]
      omega
  | finish index =>
    obtain ⟨id,given,rfl⟩ := finishTask_cases index moved
    have same := countP_set s.active index id .delivered .done given (by simp)
    rw [if_neg (by simp)] at same
    have running : ({ s with active := s.active.set index ⟨id,.done⟩ } : State).running = s.running := same
    have outstanding : ({ s with active := s.active.set index ⟨id,.done⟩ } : State).outstanding = s.outstanding :=
      congrArg (· + s.queue.length + s.processor.held) running
    refine ⟨sound,outstanding ▸ bound,outstanding ▸ covered.covered,outstanding ▸ covered.room,
      running ▸ covered.counting,running ▸ covered.counted,covered.undropped⟩
  | train =>
    obtain ⟨taken,trainer,_,length,unlocked,_,rfl⟩ := trainerStep_cases moved
    have total : s.running + (s.queue.drop taken).length + s.processor.held + (s.consumed + taken) =
        s.outstanding + s.consumed := by
      rw [State.outstanding,length]
      omega
    refine ⟨sound,Nat.le_of_eq total |>.trans bound,fun open_ => (Nat.le_of_eq total).trans (covered.covered open_),
      fun at_ => (Nat.le_of_eq total).trans_lt (covered.room at_),fun activeTasks last counting => ?_,
      fun activeTasks queueSize last counted => ?_,covered.undropped⟩
    · rw [show trainer = _ from counting] at unlocked
      cases unlocked
    · rw [show trainer = _ from counted] at unlocked
      cases unlocked
  | reset =>
    cases resetStaleness_cases moved with
    | acquires last at_ free =>
      refine ⟨sound,bound,covered.covered,covered.room,fun activeTasks other counting => ?_,(by simp),covered.undropped⟩
      obtain ⟨⟨rfl⟩,rfl⟩ := Trainer.resetting.inj counting
      exact List.countP_le_length
    | counts activeTasks last at_ =>
      refine ⟨sound,bound,covered.covered,covered.room,(by simp),fun activeTasks' queueSize other counted _ => ?_,
        covered.undropped⟩
      obtain ⟨⟨rfl,rfl⟩,rfl⟩ := Trainer.resetting.inj counted
      exact Nat.add_le_add_right (covered.counting activeTasks last at_) _
    | assigns activeTasks queueSize last at_ =>
      have unheld : s.processor.holds = false := by simpa [noneHeld,at_] using quiet
      refine ⟨sound,?_,fun open_ => ?_,fun at_getting => ?_,?_,?_,covered.undropped⟩
      · exact (Nat.le_add_right _ _).trans bound
      · have read := covered.counted activeTasks queueSize last at_ open_
        have none_ := held_le s.processor unheld open_
        exact (show s.running + s.queue.length + s.processor.held + 0 ≤ activeTasks + queueSize by omega)
      · exact (Nat.le_add_right _ _).trans_lt (covered.room at_getting)
      · intro _ _ here
        cases last <;> cases here
      · intro _ _ _ here
        cases last <;> cases here

/-- In every run in which no sample is held when `reset_staleness` assigns the counter, the
bound on staleness holds and nothing is dropped. -/
theorem staleness_bounded (cfg : Config) (s : State) (run : Runs cfg noneHeld {} s) : Bounded cfg s := by
  refine Covered.bounded ?_
  induction run with
  | refl => exact .start
  | tail _ moved ih =>
    obtain ⟨action,quiet,moved⟩ := moved
    exact ih.step action quiet moved

section Example

/-- One sample a training step, and as many stale ones. -/
def overlapping : Config where
  requiredSamples := 1
  stalenessThreshold := 1
  triggerParameterSyncStep := 1
  replicas := 1
  totalRolloutSteps := 5
  threshold_nonneg := by norm_num
  sync_pos := by decide

/-- Two samples are generated, delivered and consumed, with a weight sync after each. -/
def twoRounds : List Action :=
  [List.replicate 2 .feed,List.replicate 16 (.processor false),[.deliver 0,.finish 0,.deliver 1,.finish 1],
    List.replicate 4 (.processor false),List.replicate 3 .train,List.replicate 3 .reset,List.replicate 3 .train,
    List.replicate 3 .reset].flatten

theorem staleness_bounded_two_rounds :
    ∃ s, runActions overlapping noneHeld {} twoRounds = some s ∧ s.stalenessSamples = 0 ∧ Bounded overlapping s := by
  have ran : (runActions overlapping noneHeld {} twoRounds).map State.stalenessSamples = some 0 := by decide +kernel
  obtain ⟨s,run,fresh⟩ := Option.map_eq_some_iff.mp ran
  exact ⟨s,run,fresh,staleness_bounded overlapping s (runActions_runs overlapping noneHeld {} s twoRounds run)⟩

/-- The second weight sync counts while the third sample is between the pending queue and its
task. Then three samples are outstanding, and the queue drops one. -/
def heldDuringReset : List Action :=
  [List.replicate 5 .feed,List.replicate 16 (.processor false),[.deliver 0,.finish 0,.deliver 1,.finish 1],
    List.replicate 4 (.processor false),List.replicate 3 .train,List.replicate 3 .reset,
    [.processor true,.processor false,.processor false],List.replicate 3 .train,List.replicate 2 .reset,
    List.replicate 3 (.processor false),[.reset],List.replicate 12 (.processor false),[.deliver 0,.finish 0],
    List.replicate 3 (.processor false),[.deliver 0,.deliver 1]].flatten

theorem sample_dropped_example :
    ∃ s, Runs overlapping anyStep {} s ∧ ¬ Bounded overlapping s ∧ s.droppedSamples = 1 := by
  have ran : (runActions overlapping anyStep {} heldDuringReset).map State.droppedSamples = some 1 := by decide +kernel
  obtain ⟨s,run,dropped⟩ := Option.map_eq_some_iff.mp ran
  refine ⟨s,runActions_runs overlapping anyStep {} s heldDuringReset run,fun bounded => ?_,dropped⟩
  rw [bounded.undropped] at dropped
  cases dropped

end Example

end RelayOpd.FullyAsync
