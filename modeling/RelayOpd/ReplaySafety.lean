import RelayOpd.ReplaySampling

/-! Every step of the trainer, the workers and the poll thread keeps the invariants of
the replay buffer, and a sample shared by two batches with a stale snapshot between them. -/
namespace RelayOpd.ReplayBuffer

structure Inv (s : State) : Prop where
  sound : Sound s
  current : s.phase = .sampling → Current s

section Tasks

variable {s : State} {uid : Nat} {old new : Task}

theorem update_cases {other : Nat} {task : Task}
    (found : Function.update s.tasks uid (some new) other = some task) :
    (other = uid ∧ task = new) ∨ s.tasks other = some task := by
  by_cases same : other = uid
  · subst same
    rw [Function.update_self] at found
    exact .inl ⟨rfl,(Option.some.inj found).symm⟩
  · rw [Function.update_of_ne same] at found
    exact .inr found

theorem grows_update (here : s.tasks uid = some old) (steps : new.globalSteps = old.globalSteps)
    (wrote : ∀ i j, old.Wrote i j → new.Wrote i j)
    (outcome : ∀ out, old.outcome = some out → new.outcome = some out) :
    Grows s.tasks (Function.update s.tasks uid (some new)) := by
  intro other task found
  by_cases same : other = uid
  · subst same
    obtain rfl : old = task := Option.some.inj (here.symm.trans found)
    exact ⟨new,Function.update_self _ _ _,steps,wrote,outcome⟩
  · exact ⟨task,(Function.update_of_ne same _ _).trans found,rfl,fun _ _ wrote => wrote,fun _ ended => ended⟩

/-- A prompt whose end has been put has ended that way. -/
theorem Tagged.finished {tasks : Nat → Option Task} {p : Partition} (tagged : Tagged tasks p) (tag : Tag)
    (found : p.get? (.prompt uid) = some tag) (status : tag.status = some .finished)
    (here : tasks uid = some old) : old.outcome = some .finished := by
  obtain ⟨task,here',_,reason⟩ := tagged.prompt uid tag found
  obtain rfl : old = task := Option.some.inj (here.symm.trans here')
  rcases reason with running | ⟨out,ended,same⟩
  · rw [status] at running
    cases running
  · rw [status] at same
    cases out with
    | finished => exact ended
    | failure => cases same

/-- A step of one task, which may put its items into TransferQueue. -/
theorem sound_update (items : List (Key × Tag)) (sound : Sound s) (here : s.tasks uid = some old)
    (steps : new.globalSteps = old.globalSteps) (wrote : ∀ i j, old.Wrote i j → new.Wrote i j)
    (outcome : ∀ out, old.outcome = some out → new.outcome = some out)
    (ended : new.outcome = some .finished → .running ∉ new.sessions)
    (queue : Tagged (Function.update s.tasks uid (some new)) (put s.queue items)) :
    Sound { s.setTask uid new with queue := put s.queue items } := by
  have grows := grows_update here steps wrote outcome
  refine ⟨sound.buffer.grow grows,queue,fun items listed => (sound.snapshot items listed).grow grows,?_,?_,?_,
    sound.phase.grow grows rfl⟩
  · intro other task found
    rcases update_cases found with ⟨rfl,rfl⟩ | found
    · rw [steps]
      exact sound.known other old here
    · exact sound.known other task found
  · intro other task found
    rcases update_cases found with ⟨rfl,rfl⟩ | found
    · exact ended
    · exact sound.ended other task found
  · intro key member
    obtain ⟨other,i,j,task,rfl,found⟩ := sound.returned key member
    obtain ⟨task',found',_⟩ := grows other task found
    exact ⟨other,i,j,task',rfl,found'⟩

/-- The outputs that a task adds come from a prompt that has not ended. -/
theorem whole_update {p : Partition} (tagged : Tagged s.tasks p) (here : s.tasks uid = some old)
    (wrote : ∀ i j, new.Wrote i j → old.Wrote i j ∨ old.outcome ≠ some .finished) (q : Partition)
    (whole : Whole s p) : Whole { s.setTask uid new with queue := q } p := by
  intro other mine tag task i j found status here' did
  rcases update_cases here' with ⟨rfl,rfl⟩ | here'
  · rcases wrote i j did with before | running
    · exact whole other mine tag old i j found status here before
    · exact absurd (tagged.finished tag found status here) running
  · exact whole other mine tag task i j found status here' did

theorem current_update (items : List (Key × Tag)) (distinct : (items.map Prod.fst).Nodup) (sound : Sound s)
    (current : Current s) (here : s.tasks uid = some old) (steps : new.globalSteps = old.globalSteps)
    (runs : .running ∈ new.sessions → .running ∈ old.sessions)
    (wrote : ∀ i j, new.Wrote i j → old.Wrote i j ∨
      (old.outcome ≠ some .finished ∧ .output uid i j ∈ items.map Prod.fst))
    (alone : Alone s (put s.queue items)) : Current { s.setTask uid new with queue := put s.queue items } := by
  have whole : ∀ i j, new.Wrote i j → old.Wrote i j ∨ old.outcome ≠ some .finished :=
    fun i j did => (wrote i j did).imp_right And.left
  refine ⟨?_,?_,?_,current.unreturned,alone,?_,?_⟩
  · intro other mine
    obtain ⟨task,found,same⟩ := current.batch other mine
    by_cases equal : other = uid
    · subst equal
      obtain rfl : old = task := Option.some.inj (here.symm.trans found)
      exact ⟨new,Function.update_self _ _ _,steps.trans same⟩
    · exact ⟨task,(Function.update_of_ne equal _ _).trans found,same⟩
  · intro other task found same
    rcases update_cases found with ⟨rfl,rfl⟩ | found
    · exact (current.quiet other old here (steps.symm.trans same)).imp_right (mt runs)
    · exact current.quiet other task found same
  · intro other mine task i j found did
    rcases update_cases found with ⟨rfl,rfl⟩ | found
    · rcases wrote i j did with before | ⟨_,member⟩
      · exact put_keeps _ _ _ distinct (current.stored other mine old i j here before)
      · exact put_mem _ _ _ distinct member
    · exact put_keeps _ _ _ distinct (current.stored other mine task i j found did)
  · exact ⟨current.buffer.1,whole_update sound.buffer here whole _ current.buffer.2⟩
  · intro listed some
    exact ⟨(current.snapshot listed some).1,
      whole_update (sound.snapshot listed some) here whole _ (current.snapshot listed some).2⟩

end Tasks

section Workers

variable {s t : State} (inv : Inv s)
include inv

theorem inv_raise (uid session : Nat) (stepped : next s (.raise uid session) = some t) : Inv t := by
  cases here : s.tasks uid with
  | none => simp [next,here] at stepped
  | some task =>
    simp only [next,here] at stepped
    split at stepped
    next running =>
      obtain rfl := Option.some.inj stepped
      have wrote : ∀ i j, ({ task with sessions := task.sessions.set session .raised } : Task).Wrote i j ↔
          task.Wrote i j := by
        intro i j
        refine exists_congr (fun count => and_congr_left' ?_)
        rw [List.getElem?_set]
        split
        next same =>
          subst same
          rw [running]
          split <;> simp
        next => rfl
      have runs : Session.running ∈ task.sessions.set session .raised → .running ∈ task.sessions := by
        intro member
        rcases List.mem_or_eq_of_mem_set member with before | same
        · exact before
        · cases same
      constructor
      · exact sound_update [] inv.sound here rfl (fun i j => (wrote i j).mpr) (fun _ ended => ended)
          (fun ended member => inv.sound.ended uid task here ended (runs member))
          (inv.sound.queue.grow (grows_update here rfl (fun i j => (wrote i j).mpr) (fun _ ended => ended)))
      · exact fun sampling => current_update [] List.nodup_nil inv.sound (inv.current sampling) here rfl runs
          (fun i j did => .inl ((wrote i j).mp did)) (inv.current sampling).queue
    next => cases stepped

theorem inv_gather (uid : Nat) (stepped : next s (.gather uid) = some t) : Inv t := by
  cases here : s.tasks uid with
  | none => simp [next,here] at stepped
  | some task =>
    simp only [next,here] at stepped
    split at stepped
    next outcome running gathered =>
      obtain rfl := Option.some.inj stepped
      have distinct : ([(Key.prompt uid,({ status := some outcome.status } : Tag))].map Prod.fst).Nodup :=
        List.nodup_singleton _
      have grows : Grows s.tasks (Function.update s.tasks uid (some { task with outcome := some outcome })) :=
        grows_update here rfl (fun _ _ wrote => wrote) (fun out ended => by rw [running] at ended; cases ended)
      have inverted := fun key tag => put_inversion s.queue
        [(Key.prompt uid,({ status := some outcome.status } : Tag))] key distinct tag
      constructor
      · refine sound_update _ inv.sound here rfl (fun _ _ wrote => wrote)
          (fun out ended => by rw [running] at ended; cases ended) ?_ ⟨?_,?_,?_⟩
        · intro ended
          obtain rfl : outcome = .finished := Option.some.inj ended
          unfold Task.gathered at gathered
          split at gathered
          · cases gathered
          · split at gathered
            next => cases gathered
            next absent => exact absent
        · intro other tag found
          rcases inverted _ tag found with new | old
          · obtain ⟨same,rfl⟩ := Prod.mk.inj (List.mem_singleton.mp new)
            obtain rfl := Key.prompt.inj same
            exact ⟨_,Function.update_self _ _ _,.inl rfl,.inr ⟨outcome,rfl,rfl⟩⟩
          · exact (inv.sound.queue.grow grows).prompt other tag old
        · intro other i j tag found
          rcases inverted _ tag found with new | old
          · cases (Prod.mk.inj (List.mem_singleton.mp new)).1
          · exact (inv.sound.queue.grow grows).output other i j tag old
        · intro other i tag found
          rcases inverted _ tag found with new | old
          · cases (Prod.mk.inj (List.mem_singleton.mp new)).1
          · exact (inv.sound.queue.grow grows).padding other i tag old
      · intro sampling
        refine current_update _ distinct inv.sound (inv.current sampling) here rfl (fun runs => runs)
          (fun _ _ wrote => .inl wrote) ?_
        intro key tag found steps status
        rcases inverted key tag found with new | old
        · obtain ⟨rfl,rfl⟩ := Prod.mk.inj (List.mem_singleton.mp new)
          cases outcome <;> cases status
        · exact (inv.current sampling).queue key tag old steps status
    next => cases stepped

omit inv in
theorem outputItems_keys (g uid session : Nat) (outputs : List (Nat × Nat)) :
    (outputItems g uid session outputs).map Prod.fst =
      (List.range outputs.length).map (Key.output uid session) := by
  apply List.ext_getElem
  · simp [outputItems]
  · intro i _ _
    simp [outputItems]

omit inv in
theorem mem_outputItems (g uid session : Nat) (outputs : List (Nat × Nat)) (key : Key) (tag : Tag)
    (member : (key,tag) ∈ outputItems g uid session outputs) :
    (∃ j, j < outputs.length ∧ key = .output uid session j) ∧ tag.globalSteps = some g ∧
      tag.status = some .success := by
  obtain ⟨j,bound,same⟩ := List.mem_mapIdx.mp member
  obtain ⟨rfl,rfl⟩ := Prod.mk.inj same
  exact ⟨⟨j,bound,rfl⟩,rfl,rfl⟩

/-- A session that returns has put all of its outputs at once. -/
theorem inv_postprocess (uid session : Nat) (outputs : List (Nat × Nat))
    (stepped : next s (.postprocess uid session outputs) = some t) : Inv t := by
  cases here : s.tasks uid with
  | none => simp [next,here] at stepped
  | some task =>
    simp only [next,here] at stepped
    split at stepped
    next running =>
      obtain rfl := Option.some.inj stepped
      have bound : session < task.sessions.length := (List.getElem?_eq_some_iff.mp running).1
      have fresh : .running ∈ task.sessions := List.mem_of_getElem? running
      have keys := outputItems_keys task.globalSteps uid session outputs
      have distinct : ((outputItems task.globalSteps uid session outputs).map Prod.fst).Nodup := by
        rw [keys]
        exact List.nodup_range.map (fun i j same => by cases same; rfl)
      have wrote : ∀ i j, ({ task with sessions := task.sessions.set session (.returned outputs.length) } :
          Task).Wrote i j ↔ task.Wrote i j ∨ (i = session ∧ j < outputs.length) := by
        intro i j
        unfold Task.Wrote
        rw [List.getElem?_set]
        by_cases same : session = i
        · subst same
          rw [running]
          simp [bound]
        · simp [same,Ne.symm same]
      have runs : Session.running ∈ task.sessions.set session (.returned outputs.length) →
          .running ∈ task.sessions := fun _ => fresh
      have open' : task.outcome ≠ some .finished :=
        fun ended => inv.sound.ended uid task here ended fresh
      have grows : Grows s.tasks (Function.update s.tasks uid
          (some { task with sessions := task.sessions.set session (.returned outputs.length) })) :=
        grows_update here rfl (fun i j did => (wrote i j).mpr (.inl did)) (fun _ ended => ended)
      have inverted := fun key tag => put_inversion s.queue
        (outputItems task.globalSteps uid session outputs) key distinct tag
      constructor
      · refine sound_update _ inv.sound here rfl (fun i j did => (wrote i j).mpr (.inl did))
          (fun _ ended => ended) (fun ended => absurd ended open') ⟨?_,?_,?_⟩
        · intro other tag found
          rcases inverted _ tag found with new | old
          · obtain ⟨⟨_,_,same⟩,_⟩ := mem_outputItems _ _ _ _ _ _ new
            cases same
          · exact (inv.sound.queue.grow grows).prompt other tag old
        · intro other i j tag found
          rcases inverted _ tag found with new | old
          · obtain ⟨⟨j',below,same⟩,steps,status⟩ := mem_outputItems _ _ _ _ _ _ new
            cases same
            exact ⟨status,_,Function.update_self _ _ _,steps,(wrote _ _).mpr (.inr ⟨rfl,below⟩)⟩
          · exact (inv.sound.queue.grow grows).output other i j tag old
        · intro other i tag found
          rcases inverted _ tag found with new | old
          · obtain ⟨⟨_,_,same⟩,_⟩ := mem_outputItems _ _ _ _ _ _ new
            cases same
          · exact (inv.sound.queue.grow grows).padding other i tag old
      · intro sampling
        have current := inv.current sampling
        refine current_update _ distinct inv.sound current here rfl runs ?_ ?_
        · intro i j did
          rcases (wrote i j).mp did with before | ⟨rfl,below⟩
          · exact .inl before
          · refine .inr ⟨open',?_⟩
            rw [keys]
            exact List.mem_map.mpr ⟨j,List.mem_range.mpr below,rfl⟩
        · intro key tag found steps status
          rcases inverted key tag found with new | old
          · obtain ⟨⟨j,_,rfl⟩,steps',_⟩ := mem_outputItems _ _ _ _ _ _ new
            have same : task.globalSteps = s.globalSteps := Option.some.inj (steps'.symm.trans steps)
            rcases current.quiet uid task here same with mine | silent
            · exact ⟨uid,mine,session,j,rfl⟩
            · exact absurd fresh silent
          · exact current.queue key tag old steps status
    next => cases stepped

end Workers

section PollThread

variable {s t : State} (inv : Inv s)
include inv

/-- The listing is complete for every prompt that has ended. -/
theorem inv_kvList (stepped : next s .kvList = some t) : Inv t := by
  simp only [next] at stepped
  split at stepped
  next =>
    obtain rfl := Option.some.inj stepped
    have sound := inv.sound
    constructor
    · exact ⟨sound.buffer,sound.queue,fun _ listed => Option.some.inj listed ▸ sound.queue,sound.known,
        sound.ended,sound.returned,sound.phase⟩
    · intro sampling
      have current := inv.current sampling
      refine ⟨current.batch,current.quiet,current.stored,current.unreturned,current.queue,current.buffer,?_⟩
      intro items listed
      obtain rfl := Option.some.inj listed
      exact ⟨current.queue,fun uid mine _ task i j _ _ here did => current.stored uid mine task i j here did⟩
  next => cases stepped

theorem inv_add (stepped : next s .add = some t) : Inv t := by
  cases listed : s.snapshot with
  | none => simp [next,listed] at stepped
  | some items =>
    simp only [next,listed,Option.some.injEq] at stepped
    subst stepped
    have sound := inv.sound
    have tagged := sound.snapshot items listed
    constructor
    · refine ⟨sound.buffer.add tagged,sound.queue,fun _ none => (by cases none),?_,sound.ended,
        sound.returned,sound.phase⟩
      intro uid task here
      obtain ⟨tag,found,steps⟩ := sound.known uid task here
      have read := get?_add s.buffer items (.prompt uid)
      cases new : items.get? (.prompt uid) with
      | none =>
        rw [new] at read
        exact ⟨tag,read.trans found,steps⟩
      | some fresh =>
        rw [new] at read
        refine ⟨_,read,?_⟩
        obtain ⟨task',here',own,_⟩ := tagged.prompt uid fresh new
        obtain rfl : task = task' := Option.some.inj (here.symm.trans here')
        rcases own with missing | own
        · simp [Tag.update,missing,OrderedDict.getD,found,steps]
        · simp [Tag.update,own]
    · intro sampling
      have current := inv.current sampling
      obtain ⟨alone,whole⟩ := current.snapshot items listed
      refine ⟨current.batch,current.quiet,current.stored,current.unreturned,current.queue,⟨?_,?_⟩,
        fun _ none => (by cases none)⟩
      · intro key tag found steps status
        rw [get?_add] at found
        cases new : items.get? key with
        | none =>
          rw [new] at found
          exact current.buffer.1 key tag found steps status
        | some fresh =>
          rw [new] at found
          obtain rfl := Option.some.inj found
          cases key with
          | prompt uid =>
            obtain ⟨_,_,_,own⟩ := tagged.prompt uid fresh new
            rcases own with running | ⟨out,_,own⟩
            · simp [Tag.update,running] at status
            · cases out <;> simp [Tag.update,own,Outcome.status] at status
          | output uid i j =>
            obtain ⟨own,_,_,steps',_⟩ := tagged.output uid i j fresh new
            exact alone _ fresh new (by simpa [Tag.update,steps'] using steps) own
          | padding uid i =>
            obtain ⟨own,_,_,_,steps'⟩ := tagged.padding uid i fresh new
            exact alone _ fresh new (by simpa [Tag.update,steps'] using steps) own
      · intro uid mine tag task i j found status here did
        rw [get?_add] at found ⊢
        have before : (items.get? (.output uid i j)).isSome = true ∨
            (s.buffer.get? (.output uid i j)).isSome = true := by
          cases new : items.get? (.prompt uid) with
          | none =>
            rw [new] at found
            exact .inr (current.buffer.2 uid mine tag task i j found status here did)
          | some fresh =>
            rw [new] at found
            obtain rfl := Option.some.inj found
            obtain ⟨_,_,_,own⟩ := tagged.prompt uid fresh new
            refine .inl (whole uid mine fresh task i j new ?_ here did)
            rcases own with running | ⟨out,_,own⟩
            · simp [Tag.update,running] at status
            · simpa [Tag.update,own] using status
        cases new : items.get? (.output uid i j) with
        | none =>
          rw [new] at before
          rcases before with none | old
          · cases none
          · exact old
        | some => rfl

end PollThread

section Trainer

variable {s t : State} (inv : Inv s)
include inv

/-- A sample hands the trainer outputs of the current batch only. -/
theorem inv_sample (stepped : next s .sample = some t) : Inv t := by
  simp only [next] at stepped
  split at stepped
  next =>
    obtain rfl := Option.some.inj stepped
    exact inv
  next items sampling done =>
    obtain rfl := Option.some.inj stepped
    obtain ⟨_,done',exact'⟩ := sample_ok s inv.sound (inv.current sampling)
    obtain rfl := Except.ok.inj (done.symm.trans done')
    have own := (exact' items rfl).own
    obtain ⟨kept,_⟩ := scan_batch s.globalSteps s.buffer.entries [] items (by simpa [sample] using done)
    have sound := inv.sound
    refine ⟨⟨sound.buffer,sound.queue,sound.snapshot,sound.known,sound.ended,?_,?_⟩,fun wrong => (by cases wrong)⟩
    · intro key member
      rcases List.mem_append.mp member with before | now
      · exact sound.returned key before
      · obtain ⟨uid,_,task,i,j,here,_,rfl⟩ := own key now
        exact ⟨uid,i,j,task,rfl,here⟩
    · intro item member
      obtain ⟨uid,mine,task,i,j,here,_,named⟩ := own item.1 (List.mem_map_of_mem member)
      obtain ⟨task',here',same⟩ := (inv.current sampling).batch uid mine
      obtain rfl : task = task' := Option.some.inj (here.symm.trans here')
      rw [kept,List.nil_append,List.mem_filter] at member
      obtain ⟨steps,status⟩ : item.2.globalSteps = some s.globalSteps ∧ item.2.status = some .success := by
        simpa using member.2
      exact ⟨fun other wrong => (by rw [named] at wrong; cases wrong),status,uid,task,here,by rw [steps,same]⟩
  next => cases stepped

theorem inv_upsample (uid padSize : Nat) (stepped : next s (.upsample uid padSize) = some t) : Inv t := by
  cases here : s.phase with
  | sampled items =>
    cases items with
    | nil => simp [next,here] at stepped
    | cons item items =>
      simp only [next,here,Option.some.injEq] at stepped
      subst stepped
      have sound := inv.sound
      have carried : ∀ held ∈ item :: items, Carried s held := by
        have phase := sound.phase
        rw [PhaseInv,here] at phase
        exact phase
      obtain ⟨_,status,other,task,found,steps⟩ := carried item List.mem_cons_self
      have padded : ∀ key tag, (key,tag) ∈ padItems uid padSize item.2 →
          (∃ i, key = .padding uid i) ∧ tag.status = some .success ∧ tag.globalSteps = some task.globalSteps := by
        intro key tag member
        obtain ⟨i,_,same⟩ := List.mem_map.mp member
        obtain ⟨rfl,rfl⟩ := Prod.mk.inj same
        exact ⟨⟨i,rfl⟩,status,steps⟩
      have distinct : ((padItems uid padSize item.2).map Prod.fst).Nodup := by
        rw [padItems,List.map_map]
        exact List.nodup_range.map (fun i j same => by cases same; rfl)
      refine ⟨⟨sound.buffer,⟨?_,?_,?_⟩,sound.snapshot,sound.known,sound.ended,sound.returned,?_⟩,
        fun wrong => (by cases wrong)⟩
      · intro prompt tag read
        rcases put_inversion _ _ _ distinct tag read with new | old
        · obtain ⟨⟨_,wrong⟩,_⟩ := padded _ tag new
          cases wrong
        · exact sound.queue.prompt prompt tag old
      · intro prompt i j tag read
        rcases put_inversion _ _ _ distinct tag read with new | old
        · obtain ⟨⟨_,wrong⟩,_⟩ := padded _ tag new
          cases wrong
        · exact sound.queue.output prompt i j tag old
      · intro pad i tag read
        rcases put_inversion _ _ _ distinct tag read with new | old
        · obtain ⟨_,status',steps'⟩ := padded _ tag new
          exact ⟨status',other,task,found,steps'⟩
        · exact sound.queue.padding pad i tag old
      · intro held member
        rcases List.mem_append.mp member with before | pad
        · exact carried held before
        · obtain ⟨⟨i,named⟩,status',steps'⟩ := padded held.1 held.2 pad
          exact ⟨fun prompt wrong => (by rw [named] at wrong; cases wrong),status',other,task,found,steps'⟩
  | idle => simp [next,here] at stepped
  | sampling => simp [next,here] at stepped
  | cleared => simp [next,here] at stepped

theorem inv_kvClear (keys : List Key) (stepped : next s (.kvClear keys) = some t) : Inv t := by
  cases here : s.phase with
  | sampled items =>
    simp only [next,here] at stepped
    split at stepped
    next listed =>
      obtain rfl := Option.some.inj stepped
      have sound := inv.sound
      have carried : ∀ item ∈ items, Carried s item := by
        have phase := sound.phase
        rw [PhaseInv,here] at phase
        exact phase
      refine ⟨⟨sound.buffer,sound.queue.remove keys,sound.snapshot,sound.known,sound.ended,sound.returned,?_,?_⟩,
        fun wrong => (by cases wrong)⟩
      · intro key member uid
        obtain ⟨item,inside,rfl⟩ := List.mem_map.mp (listed key member)
        exact (carried item inside).1 uid
      · exact fun item member => carried item (List.mem_filter.mp member).1
    next => cases stepped
  | idle => simp [next,here] at stepped
  | sampling => simp [next,here] at stepped
  | cleared => simp [next,here] at stepped

/-- Prompts' own keys are never removed. -/
theorem inv_remove (stepped : next s .remove = some t) : Inv t := by
  cases here : s.phase with
  | cleared gone items =>
    simp only [next,here,Option.some.injEq] at stepped
    subst stepped
    have sound := inv.sound
    have phase := sound.phase
    rw [PhaseInv,here] at phase
    refine ⟨⟨sound.buffer.remove gone,sound.queue,sound.snapshot,?_,sound.ended,sound.returned,phase.2⟩,
      fun wrong => (by cases wrong)⟩
    intro uid task found
    obtain ⟨tag,read,steps⟩ := sound.known uid task found
    refine ⟨tag,?_,steps⟩
    rw [get?_remove,if_neg (fun member => phase.1 _ member uid rfl),read]
  | idle => simp [next,here] at stepped
  | sampling => simp [next,here] at stepped
  | sampled => simp [next,here] at stepped

theorem inv_finish (stepped : next s .finish = some t) : Inv t := by
  simp only [next] at stepped
  split at stepped
  next =>
    obtain rfl := Option.some.inj stepped
    have sound := inv.sound
    exact ⟨⟨sound.buffer,sound.queue,sound.snapshot,sound.known,sound.ended,sound.returned,trivial⟩,
      fun wrong => (by cases wrong)⟩
  next => cases stepped

end Trainer

section Dispatch

variable (g : Nat) (prompts : List (Nat × Nat))

theorem pending_keys : (State.pending g prompts).map Prod.fst = (prompts.map Prod.fst).map Key.prompt := by
  simp [State.pending]

/-- The buffer after the prompts of a batch have been marked as pending. -/
theorem get?_pending (p : Partition) (distinct : (prompts.map Prod.fst).Nodup) (key : Key) :
    (∃ uid ∈ prompts.map Prod.fst, key = .prompt uid ∧ ∃ tag, (add p (State.pending g prompts)).get? key = some tag ∧
      tag.globalSteps = some g ∧ tag.status = some .running) ∨
    (key ∉ (prompts.map Prod.fst).map Key.prompt ∧ (add p (State.pending g prompts)).get? key = p.get? key) := by
  have unique : ((State.pending g prompts).map Prod.fst).Nodup := by
    rw [pending_keys]
    exact distinct.map (fun i j same => by cases same; rfl)
  have merged := get?_foldl_merge (fun old new => (old.getD {}).update new) _ p unique key
  cases search : (State.pending g prompts).find? (fun item => item.1 = key) with
  | none =>
    rw [search] at merged
    refine .inr ⟨fun member => ?_,merged⟩
    rw [← pending_keys g] at member
    obtain ⟨item,inside,named⟩ := List.mem_map.mp member
    have missing := List.find?_eq_none.mp search item inside
    simp [named] at missing
  | some item =>
    rw [search] at merged
    have named : item.1 = key := by simpa using List.find?_some search
    obtain ⟨prompt,listed,rfl⟩ := List.mem_map.mp (List.mem_of_find?_eq_some search)
    exact .inl ⟨prompt.1,List.mem_map_of_mem listed,named.symm,_,merged,rfl,rfl⟩

theorem dispatched_cases (s : State) (uid : Nat) :
    (∃ prompt ∈ prompts, prompt.1 = uid ∧
      s.dispatched g prompts uid = some ⟨g,List.replicate prompt.2 .running,none⟩) ∨
    (uid ∉ prompts.map Prod.fst ∧ s.dispatched g prompts uid = s.tasks uid) := by
  unfold State.dispatched
  split
  next prompt search =>
    exact .inl ⟨prompt,List.mem_of_find?_eq_some search,by simpa using List.find?_some search,rfl⟩
  next search =>
    refine .inr ⟨fun member => ?_,rfl⟩
    obtain ⟨prompt,listed,named⟩ := List.mem_map.mp member
    have missing := List.find?_eq_none.mp search prompt listed
    simp [named] at missing

theorem not_wrote (n i j : Nat) : ¬ (⟨g,List.replicate n .running,none⟩ : Task).Wrote i j := by
  rintro ⟨count,written,_⟩
  have member := List.mem_of_getElem? written
  cases (List.mem_replicate.mp member).2

/-- A batch that begins cautiously has the buffer to itself. -/
theorem inv_generateSequences {s t : State} (inv : Inv s) (cautious : Cautious s g)
    (stepped : next s (.generateSequences g prompts) = some t) : Inv t := by
  simp only [next] at stepped
  split at stepped
  next ready =>
    obtain rfl := Option.some.inj stepped
    obtain ⟨_,distinct,fresh⟩ := ready
    have sound := inv.sound
    have unused : ∀ uid task, s.tasks uid = some task → uid ∉ prompts.map Prod.fst := by
      intro uid task here member
      obtain ⟨prompt,listed,rfl⟩ := List.mem_map.mp member
      rw [fresh prompt listed] at here
      cases here
    have grows : Grows s.tasks (s.dispatched g prompts) := by
      intro uid task here
      rcases dispatched_cases g prompts s uid with ⟨prompt,listed,rfl,_⟩ | ⟨_,same⟩
      · exact absurd (List.mem_map_of_mem listed) (unused _ task here)
      · exact ⟨task,same.trans here,rfl,fun _ _ wrote => wrote,fun _ ended => ended⟩
    have given : ∀ uid ∈ prompts.map Prod.fst, ∃ n,
        s.dispatched g prompts uid = some ⟨g,List.replicate n .running,none⟩ := by
      intro uid member
      rcases dispatched_cases g prompts s uid with ⟨prompt,_,rfl,here⟩ | ⟨absent,_⟩
      · exact ⟨prompt.2,here⟩
      · exact absurd member absent
    have silent : ∀ uid ∈ prompts.map Prod.fst, ∀ task i j, s.dispatched g prompts uid = some task →
        ¬ task.Wrote i j := by
      intro uid member task i j here
      obtain ⟨n,here'⟩ := given uid member
      rw [Option.some.inj (here.symm.trans here')]
      exact not_wrote g n i j
    have read := get?_pending g prompts s.buffer distinct
    constructor
    · refine ⟨⟨?_,?_,?_⟩,sound.queue.grow grows,fun items listed => (sound.snapshot items listed).grow grows,
        ?_,?_,?_,trivial⟩
      · intro uid tag found
        rcases read (.prompt uid) with ⟨own,member,same,tag',found',steps,status⟩ | ⟨_,old⟩
        · obtain rfl := Key.prompt.inj same
          obtain rfl : tag = tag' := Option.some.inj (found.symm.trans found')
          obtain ⟨n,here⟩ := given uid member
          exact ⟨_,here,.inr steps,.inl status⟩
        · exact (sound.buffer.grow grows).prompt uid tag (old.symm.trans found)
      · intro uid i j tag found
        rcases read (.output uid i j) with ⟨_,_,wrong,_⟩ | ⟨_,old⟩
        · cases wrong
        · exact (sound.buffer.grow grows).output uid i j tag (old.symm.trans found)
      · intro uid i tag found
        rcases read (.padding uid i) with ⟨_,_,wrong,_⟩ | ⟨_,old⟩
        · cases wrong
        · exact (sound.buffer.grow grows).padding uid i tag (old.symm.trans found)
      · intro uid task here
        rcases read (.prompt uid) with ⟨own,member,same,tag,found,steps,_⟩ | ⟨absent,old⟩
        · obtain rfl := Key.prompt.inj same
          obtain ⟨n,here'⟩ := given uid member
          obtain rfl := Option.some.inj (here.symm.trans here')
          exact ⟨tag,found,steps⟩
        · rcases dispatched_cases g prompts s uid with ⟨prompt,listed,rfl,_⟩ | ⟨_,same⟩
          · exact absurd (List.mem_map_of_mem (List.mem_map_of_mem listed)) absent
          · obtain ⟨tag,found,steps⟩ := sound.known uid task (same.symm.trans here)
            exact ⟨tag,old.trans found,steps⟩
      · intro uid task here ended
        rcases dispatched_cases g prompts s uid with ⟨prompt,_,_,here'⟩ | ⟨_,same⟩
        · obtain rfl := Option.some.inj (here.symm.trans here')
          cases ended
        · exact sound.ended uid task (same.symm.trans here) ended
      · intro key member
        obtain ⟨uid,i,j,task,rfl,here⟩ := sound.returned key member
        obtain ⟨task',here',_⟩ := grows uid task here
        exact ⟨uid,i,j,task',rfl,here'⟩
    · intro _
      refine ⟨?_,?_,?_,?_,?_,⟨?_,?_⟩,?_⟩
      · intro uid member
        obtain ⟨n,here⟩ := given uid member
        exact ⟨_,here,rfl⟩
      · intro uid task here same
        rcases dispatched_cases g prompts s uid with ⟨prompt,listed,rfl,_⟩ | ⟨_,old⟩
        · exact .inl (List.mem_map_of_mem listed)
        · exact .inr (cautious.sessions uid task (old.symm.trans here) same)
      · intro uid member task i j here did
        exact absurd did (silent uid member task i j here)
      · intro uid member i j before
        obtain ⟨_,_,_,task,same,here⟩ := sound.returned _ before
        cases same
        exact unused uid task here member
      · intro key tag found steps status
        exact absurd ⟨key,tag,found,steps,status⟩ cautious.queue
      · intro key tag found steps status
        rcases read key with ⟨_,_,_,tag',found',_,running⟩ | ⟨_,old⟩
        · obtain rfl : tag = tag' := Option.some.inj (found.symm.trans found')
          rw [status] at running
          cases running
        · exact absurd ⟨key,tag,old.symm.trans found,steps,status⟩ cautious.buffer
      · intro uid member _ task i j _ _ here did
        exact absurd did (silent uid member task i j here)
      · intro items listed
        refine ⟨?_,?_⟩
        · intro key tag found steps status
          exact absurd ⟨key,tag,found,steps,status⟩ (cautious.snapshot items listed)
        · intro uid member _ task i j _ _ here did
          exact absurd did (silent uid member task i j here)
  next => cases stepped

end Dispatch

section Runs

variable {s t : State}

theorem inv_initial : Inv .initial where
  sound := by
    refine ⟨⟨?_,?_,?_⟩,⟨?_,?_,?_⟩,fun _ none => (by cases none),fun _ _ none => (by cases none),
      fun _ _ none => (by cases none),fun _ none => (by cases none),trivial⟩
    all_goals
      intros
      contradiction
  current := fun wrong => by cases wrong

theorem inv_next (a : Action) (inv : Inv s) (begins : ∀ g prompts, a = .generateSequences g prompts → Cautious s g)
    (stepped : next s a = some t) : Inv t := by
  cases a with
  | generateSequences g prompts => exact inv_generateSequences g prompts inv (begins g prompts rfl) stepped
  | postprocess uid session outputs => exact inv_postprocess inv uid session outputs stepped
  | raise uid session => exact inv_raise inv uid session stepped
  | gather uid => exact inv_gather inv uid stepped
  | kvList => exact inv_kvList inv stepped
  | add => exact inv_add inv stepped
  | sample => exact inv_sample inv stepped
  | upsample uid padSize => exact inv_upsample inv uid padSize stepped
  | kvClear keys => exact inv_kvClear inv keys stepped
  | remove => exact inv_remove inv stepped
  | finish => exact inv_finish inv stepped

theorem Reachable.inv (reached : Reachable Cautious s) : Inv s := by
  induction reached with
  | start => exact inv_initial
  | step s t a _ begins stepped ih => exact inv_next a ih begins stepped

/-- Steps that begin no batch. -/
theorem Reachable.continues {ok : State → Nat → Prop} (actions : List Action) (reached : Reachable ok s)
    (plain : ∀ a ∈ actions, ∀ g prompts, a ≠ .generateSequences g prompts) (runs : run actions s = some t) :
    Reachable ok t := by
  induction actions generalizing s with
  | nil => exact Option.some.inj runs ▸ reached
  | cons a actions ih =>
    obtain ⟨u,stepped,rest⟩ := Option.bind_eq_some_iff.mp runs
    exact ih (.step s u a reached (fun g prompts same => absurd same (plain a List.mem_cons_self g prompts)) stepped)
      (fun b member => plain b (List.mem_cons_of_mem a member)) rest

/-- A sample never raises and returns exactly the outputs of its own batch. -/
theorem sample_exact (s : State) (reached : Reachable Cautious s) (sampling : s.phase = .sampling) :
    ∃ result, sample s.buffer (some s.globalSteps) none = .ok result ∧
      ∀ items, result = .batch items → Exact s (items.map Prod.fst) :=
  sample_ok s reached.inv.sound (reached.inv.current sampling)

/-- No earlier batch had these global steps, as in training. -/
def Increasing (s : State) (g : Nat) : Prop := ∀ uid task, s.tasks uid = some task → task.globalSteps ≠ g

theorem Tagged.not_holds {tasks : Nat → Option Task} {p : Partition} (tagged : Tagged tasks p) (g : Nat)
    (fresh : ∀ uid task, tasks uid = some task → task.globalSteps ≠ g) : ¬ Holds p g := by
  rintro ⟨key,tag,found,steps,status⟩
  cases key with
  | prompt uid =>
    obtain ⟨_,_,_,running | ⟨out,_,own⟩⟩ := tagged.prompt uid tag found
    · rw [status] at running
      cases running
    · rw [status] at own
      cases out <;> cases own
  | output uid i j =>
    obtain ⟨_,task,here,own,_⟩ := tagged.output uid i j tag found
    exact fresh uid task here (Option.some.inj (own.symm.trans steps))
  | padding uid i =>
    obtain ⟨_,other,task,here,own⟩ := tagged.padding uid i tag found
    exact fresh other task here (Option.some.inj (own.symm.trans steps))

theorem Sound.cautious (sound : Sound s) (g : Nat) (increasing : Increasing s g) : Cautious s g where
  buffer := sound.buffer.not_holds g increasing
  queue := sound.queue.not_holds g increasing
  snapshot := fun items listed => (sound.snapshot items listed).not_holds g increasing
  sessions := fun uid task here same => absurd same (increasing uid task here)

/-- Batches of training steps are always cautious. -/
theorem Reachable.cautious (reached : Reachable Increasing s) : Reachable Cautious s := by
  induction reached with
  | start => exact .start
  | step s t a _ begins stepped ih =>
    exact .step s t a ih (fun g prompts same => ih.inv.sound.cautious g (begins g prompts same)) stepped

end Runs

/-- One validation batch of one prompt with one session and one output. The poll thread
lists TransferQueue again before the batch is cleared, and adds that afterwards. -/
def staleBatch : List Action :=
  [.generateSequences 0 [(0,1)],.postprocess 0 0 [(2,3)],.gather 0,.kvList,.add,.kvList,.sample,
    .kvClear [.output 0 0 0],.remove,.finish,.add]

def secondBatch : List Action :=
  [.generateSequences 0 [(1,1)],.postprocess 1 0 [(2,4)],.gather 1,.kvList,.add]

/-- The second batch gets the first one's output again, which is no longer stored. -/
theorem stale_sample : ∃ s, run (staleBatch ++ secondBatch) .initial = some s ∧ s.phase = .sampling ∧
    ∃ items, sample s.buffer (some s.globalSteps) none = .ok (.batch items) ∧
      items.map Prod.fst = [.output 0 0 0,.output 1 0 0] ∧ .output 0 0 0 ∉ s.queue.keys ∧
      s.returned = [.output 0 0 0] ∧ ¬ Exact s (items.map Prod.fst) := by
  refine ⟨_,rfl,rfl,_,rfl,rfl,by decide,rfl,fun exact' => ?_⟩
  exact exact'.unreturned (.output 0 0 0) (by decide) (by decide)

/-- The same two batches under global steps of their own. -/
def trainingBatches : List Action := staleBatch ++ .generateSequences 1 [(1,1)] :: secondBatch.tail

theorem staleBatch_increasing (s : State) (ran : run staleBatch .initial = some s) (g : Nat) (prompts : List (Nat × Nat))
    (later : Action.generateSequences 1 [(1,1)] = .generateSequences g prompts) : Increasing s g := by
  intro uid task found
  obtain rfl := Option.some.inj ran
  cases later
  cases uid with
  | zero =>
    obtain rfl := Option.some.inj found
    exact Nat.zero_ne_one
  | succ uid => cases found

/-- The first batch's output is still in the buffer, and the second batch gets its own alone. -/
theorem sample_exact_second : ∃ s, run trainingBatches .initial = some s ∧ (s.buffer.get? (.output 0 0 0)).isSome = true ∧
    ∃ items, sample s.buffer (some s.globalSteps) none = .ok (.batch items) ∧ items.map Prod.fst = [.output 1 0 0] ∧
      Exact s (items.map Prod.fst) := by
  have begun : Reachable Cautious _ :=
    .step _ _ (.generateSequences 0 [(0,1)]) .start (fun g _ _ => inv_initial.sound.cautious g (by nofun)) rfl
  have first := begun.continues staleBatch.tail (by simp [staleBatch]) rfl
  have second : Reachable Cautious _ := .step _ _ (.generateSequences 1 [(1,1)]) first
    (fun g prompts later => first.inv.sound.cautious g (staleBatch_increasing _ rfl g prompts later)) rfl
  obtain ⟨_,done,exact'⟩ := sample_exact _ (second.continues secondBatch.tail (by simp [secondBatch]) rfl) rfl
  exact ⟨_,rfl,rfl,_,rfl,rfl,exact' _ (Except.ok.inj (done.symm.trans rfl))⟩

end RelayOpd.ReplayBuffer
