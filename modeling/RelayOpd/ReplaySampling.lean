import RelayOpd.ReplayBuffer

/-! What a sample of the replay buffer returns in any interleaving: when every batch begins
with nothing left of earlier ones, the outputs of its own prompts. -/
namespace RelayOpd.ReplayBuffer

section Tables

/-- Items with distinct keys, merged into a dictionary one by one. -/
theorem get?_foldl_merge (f : Option Tag → Tag → Tag) (items : List (Key × Tag)) (p : Partition)
    (distinct : (items.map Prod.fst).Nodup) (key : Key) :
    (items.foldl (fun p item => p.set item.1 (f (p.get? item.1) item.2)) p).get? key =
      (items.find? (fun item => item.1 = key)).elim (p.get? key) (fun item => some (f (p.get? key) item.2)) := by
  induction items generalizing p with
  | nil => rfl
  | cons item items ih =>
    obtain ⟨fresh,rest⟩ := List.nodup_cons.mp distinct
    rw [List.foldl_cons,ih _ rest]
    by_cases here : item.1 = key
    · subst here
      have absent : items.find? (fun other => other.1 = item.1) = none := by
        refine List.find?_eq_none.mpr (fun other later => ?_)
        simp only [decide_eq_true_eq]
        intro same
        exact fresh (same ▸ List.mem_map_of_mem later)
      rw [absent,List.find?_cons_of_pos (by simp)]
      simp
    · rw [List.find?_cons_of_neg (by simpa using here),OrderedDict.get?_set_other _ _ _ _ (Ne.symm here)]

variable (p q : Partition) (items : List (Key × Tag)) (key : Key)

theorem get?_put (distinct : (items.map Prod.fst).Nodup) :
    (put p items).get? key = (items.find? (fun item => item.1 = key)).elim (p.get? key) (fun item => some item.2) :=
  get?_foldl_merge (fun _ new => new) items p distinct key

/-- Adding a snapshot updates the tags of its keys. -/
theorem get?_add : (add p q.entries).get? key =
    (q.get? key).elim (p.get? key) (fun new => some ((p.getD key {}).update new)) := by
  have merged := get?_foldl_merge (fun old new => (old.getD {}).update new) q.entries p q.distinct key
  refine Eq.trans merged ?_
  have read : q.get? key = (q.entries.find? (fun item => item.1 = key)).map Prod.snd := rfl
  rw [read]
  cases q.entries.find? (fun item => item.1 = key) <;> rfl

theorem get?_remove (keys : List Key) : (remove p keys).get? key = if key ∈ keys then none else p.get? key := by
  unfold remove
  induction keys generalizing p with
  | nil => simp
  | cons k keys ih =>
    rw [List.foldl_cons,ih]
    by_cases here : key = k
    · subst here
      simp
    · rw [OrderedDict.get?_pop_other _ _ _ here]
      simp [here]

/-- What a put leaves under a key is old or one of the items. -/
theorem put_inversion (distinct : (items.map Prod.fst).Nodup) (tag : Tag)
    (found : (put p items).get? key = some tag) : (key,tag) ∈ items ∨ p.get? key = some tag := by
  rw [get?_put p items key distinct] at found
  cases search : items.find? (fun item => item.1 = key) with
  | none =>
    rw [search] at found
    exact .inr found
  | some item =>
    rw [search] at found
    have named : item.1 = key := by simpa using List.find?_some search
    obtain rfl : item.2 = tag := Option.some.inj found
    exact .inl (named ▸ List.mem_of_find?_eq_some search)

theorem put_keeps (distinct : (items.map Prod.fst).Nodup) (present : (p.get? key).isSome = true) :
    ((put p items).get? key).isSome = true := by
  rw [get?_put p items key distinct]
  cases items.find? (fun item => item.1 = key) with
  | none => exact present
  | some => rfl

theorem put_mem (distinct : (items.map Prod.fst).Nodup) (member : key ∈ items.map Prod.fst) :
    ((put p items).get? key).isSome = true := by
  rw [get?_put p items key distinct]
  obtain ⟨item,inside,named⟩ := List.mem_map.mp member
  have found : (items.find? (fun item => item.1 = key)).isSome = true := by
    rw [List.find?_isSome]
    exact ⟨item,inside,by simp [named]⟩
  obtain ⟨other,search⟩ := Option.isSome_iff_exists.mp found
  rw [search]
  rfl

end Tables

section Scan

variable (g : Nat) (items found : List (Key × Tag))

/-- With both fields in every tag the loop does not raise. -/
theorem scan_total (steps : Option Nat)
    (tagged : ∀ item ∈ items, item.2.globalSteps ≠ none ∧ item.2.status ≠ none) :
    ∃ result, scan steps items found = .ok result := by
  induction items generalizing found with
  | nil => exact ⟨_,rfl⟩
  | cons item items ih =>
    obtain ⟨key,tag⟩ := item
    have rest := fun found => ih found (fun item later => tagged item (List.mem_cons_of_mem _ later))
    obtain ⟨stepped,stated⟩ : tag.globalSteps ≠ none ∧ tag.status ≠ none := tagged _ List.mem_cons_self
    obtain ⟨own,stepped⟩ := Option.ne_none_iff_exists'.mp stepped
    obtain ⟨status,stated⟩ := Option.ne_none_iff_exists'.mp stated
    simp only [scan,stepped,stated]
    split
    · cases status with
      | running => exact ⟨_,rfl⟩
      | success => exact rest _
      | finished => exact rest _
      | failure => exact rest _
    · exact rest _

/-- The successful items of the batch, when none of its items is running. -/
theorem scan_batch (out : List (Key × Tag)) (done : scan (some g) items found = .ok (.batch out)) :
    out = found ++ items.filter (fun item => item.2.globalSteps = some g ∧ item.2.status = some .success) ∧
      ∀ item ∈ items, item.2.globalSteps = some g → item.2.status ≠ some .running := by
  induction items generalizing found with
  | nil =>
    simp only [scan,Except.ok.injEq,Sample.batch.injEq] at done
    exact ⟨by simp [done],by simp⟩
  | cons item items ih =>
    obtain ⟨key,tag⟩ := item
    simp only [scan] at done
    cases steps : tag.globalSteps with
    | none => simp [steps] at done
    | some own =>
      simp only [steps] at done
      split at done
      next same =>
        cases status : tag.status with
        | none => simp [status] at done
        | some st =>
          rw [status] at done
          cases st with
          | running => simp at done
          | success =>
            obtain ⟨kept,idle⟩ := ih _ done
            refine ⟨?_,List.forall_mem_cons.mpr ⟨fun _ => by simp [status],idle⟩⟩
            rw [kept,List.filter_cons_of_pos (by simp [steps,status,same]),List.append_assoc]
            rfl
          | finished =>
            obtain ⟨kept,idle⟩ := ih _ done
            refine ⟨?_,List.forall_mem_cons.mpr ⟨fun _ => by simp [status],idle⟩⟩
            rw [kept,List.filter_cons_of_neg (by simp [status])]
          | failure =>
            obtain ⟨kept,idle⟩ := ih _ done
            refine ⟨?_,List.forall_mem_cons.mpr ⟨fun _ => by simp [status],idle⟩⟩
            rw [kept,List.filter_cons_of_neg (by simp [status])]
      next other =>
        obtain ⟨kept,idle⟩ := ih _ done
        have apart : ¬ tag.globalSteps = some g := by rw [steps]; exact other
        refine ⟨?_,List.forall_mem_cons.mpr ⟨fun same => absurd same apart,idle⟩⟩
        rw [kept,List.filter_cons_of_neg (by simp [apart])]

end Scan

section Invariant

variable (s : State)

/-- A prompt's key carries its own status, an output's the global steps of its prompt. -/
structure Tagged (tasks : Nat → Option Task) (p : Partition) : Prop where
  prompt : ∀ uid tag, p.get? (.prompt uid) = some tag → ∃ task, tasks uid = some task ∧
    (tag.globalSteps = none ∨ tag.globalSteps = some task.globalSteps) ∧
    (tag.status = some .running ∨ ∃ out, task.outcome = some out ∧ tag.status = some out.status)
  output : ∀ uid i j tag, p.get? (.output uid i j) = some tag → tag.status = some .success ∧
    ∃ task, tasks uid = some task ∧ tag.globalSteps = some task.globalSteps ∧ task.Wrote i j
  padding : ∀ uid i tag, p.get? (.padding uid i) = some tag → tag.status = some .success ∧
    ∃ other task, tasks other = some task ∧ tag.globalSteps = some task.globalSteps

/-- What the trainer holds of a sample or of its padding. -/
def Carried (item : Key × Tag) : Prop :=
  (∀ uid, item.1 ≠ .prompt uid) ∧ item.2.status = some .success ∧
    ∃ uid task, s.tasks uid = some task ∧ item.2.globalSteps = some task.globalSteps

def PhaseInv : Prop :=
  match s.phase with
  | .idle => True
  | .sampling => True
  | .sampled items => ∀ item ∈ items, Carried s item
  | .cleared gone items => (∀ key ∈ gone, ∀ uid, key ≠ .prompt uid) ∧ ∀ item ∈ items, Carried s item

/-- What holds in every run. -/
structure Sound : Prop where
  buffer : Tagged s.tasks s.buffer
  queue : Tagged s.tasks s.queue
  snapshot : ∀ items, s.snapshot = some items → Tagged s.tasks items
  known : ∀ uid task, s.tasks uid = some task →
    ∃ tag, s.buffer.get? (.prompt uid) = some tag ∧ tag.globalSteps = some task.globalSteps
  ended : ∀ uid task, s.tasks uid = some task → task.outcome = some .finished → .running ∉ task.sessions
  returned : ∀ key ∈ s.returned, ∃ uid i j task, key = .output uid i j ∧ s.tasks uid = some task
  phase : PhaseInv s

/-- Outputs under the current global steps belong to the current batch. -/
def Alone (p : Partition) : Prop :=
  ∀ key tag, p.get? key = some tag → tag.globalSteps = some s.globalSteps → tag.status = some .success →
    ∃ uid ∈ s.uids, ∃ i j, key = .output uid i j

/-- With a prompt's end come all of its outputs. -/
def Whole (p : Partition) : Prop :=
  ∀ uid ∈ s.uids, ∀ tag task i j, p.get? (.prompt uid) = some tag → tag.status = some .finished →
    s.tasks uid = some task → task.Wrote i j → (p.get? (.output uid i j)).isSome = true

/-- What holds while a batch is awaited, if it began cautiously. -/
structure Current : Prop where
  batch : ∀ uid ∈ s.uids, ∃ task, s.tasks uid = some task ∧ task.globalSteps = s.globalSteps
  quiet : ∀ uid task, s.tasks uid = some task → task.globalSteps = s.globalSteps →
    uid ∈ s.uids ∨ .running ∉ task.sessions
  stored : ∀ uid ∈ s.uids, ∀ task i j, s.tasks uid = some task → task.Wrote i j →
    (s.queue.get? (.output uid i j)).isSome = true
  unreturned : ∀ uid ∈ s.uids, ∀ i j, .output uid i j ∉ s.returned
  queue : Alone s s.queue
  buffer : Alone s s.buffer ∧ Whole s s.buffer
  snapshot : ∀ items, s.snapshot = some items → Alone s items ∧ Whole s items

end Invariant

/-- A sample taken in such a state is exact. -/
theorem sample_ok (s : State) (sound : Sound s) (current : Current s) :
    ∃ result, sample s.buffer (some s.globalSteps) none = .ok result ∧
      ∀ items, result = .batch items → Exact s (items.map Prod.fst) := by
  have tagged : ∀ item ∈ s.buffer.entries, item.2.globalSteps ≠ none ∧ item.2.status ≠ none := by
    rintro ⟨key,tag⟩ member
    have found := (s.buffer.mem_entries key tag).mp member
    cases key with
    | prompt uid =>
      obtain ⟨task,here,_,status⟩ := sound.buffer.prompt uid tag found
      obtain ⟨tag',found',steps⟩ := sound.known uid task here
      obtain rfl : tag = tag' := Option.some.inj (found.symm.trans found')
      refine ⟨by simp [steps],?_⟩
      rcases status with running | ⟨out,_,status⟩
      · simp [running]
      · simp [status]
    | output uid i j =>
      obtain ⟨status,task,_,steps,_⟩ := sound.buffer.output uid i j tag found
      exact ⟨by simp [steps],by simp [status]⟩
    | padding uid i =>
      obtain ⟨status,_,task,_,steps⟩ := sound.buffer.padding uid i tag found
      exact ⟨by simp [steps],by simp [status]⟩
  obtain ⟨result,done⟩ := scan_total s.buffer.entries [] (some s.globalSteps) tagged
  refine ⟨result,by simpa [sample] using done,?_⟩
  rintro items rfl
  obtain ⟨kept,idle⟩ := scan_batch s.globalSteps _ _ _ done
  rw [List.nil_append] at kept
  have inside : ∀ key tag, (key,tag) ∈ items ↔
      s.buffer.get? key = some tag ∧ tag.globalSteps = some s.globalSteps ∧ tag.status = some .success := by
    intro key tag
    rw [kept,List.mem_filter,OrderedDict.mem_entries]
    simp
  have own : ∀ key ∈ items.map Prod.fst, ∃ uid ∈ s.uids, ∃ task i j,
      s.tasks uid = some task ∧ task.Wrote i j ∧ key = .output uid i j := by
    intro key member
    obtain ⟨⟨_,tag⟩,listed,rfl⟩ := List.mem_map.mp member
    obtain ⟨found,steps,status⟩ := (inside _ tag).mp listed
    obtain ⟨uid,mine,i,j,rfl⟩ := current.buffer.1 _ tag found steps status
    obtain ⟨_,task,here,_,wrote⟩ := sound.buffer.output uid i j tag found
    exact ⟨uid,mine,task,i,j,here,wrote,rfl⟩
  have ended : ∀ uid ∈ s.uids, ∃ task tag out, s.tasks uid = some task ∧ task.outcome = some out ∧
      s.buffer.get? (.prompt uid) = some tag ∧ tag.status = some out.status := by
    intro uid mine
    obtain ⟨task,here,same⟩ := current.batch uid mine
    obtain ⟨tag,found,steps⟩ := sound.known uid task here
    obtain ⟨task',here',_,status⟩ := sound.buffer.prompt uid tag found
    obtain rfl : task = task' := Option.some.inj (here.symm.trans here')
    rcases status with running | ⟨out,outcome,status⟩
    · exact absurd running (idle _ ((s.buffer.mem_entries _ tag).mpr found) (by rw [steps,same]))
    · exact ⟨task,tag,out,here,outcome,found,status⟩
  constructor
  case ended =>
    intro uid mine
    obtain ⟨task,_,out,here,outcome,_⟩ := ended uid mine
    exact ⟨task,here,by rw [outcome]; rfl⟩
  case own => exact own
  case complete =>
    intro uid mine task i j here finished wrote
    obtain ⟨task',tag,out,here',outcome,found,status⟩ := ended uid mine
    obtain rfl : task = task' := Option.some.inj (here.symm.trans here')
    obtain rfl : out = .finished := Option.some.inj (outcome.symm.trans finished)
    obtain ⟨tag',found'⟩ := Option.isSome_iff_exists.mp
      (current.buffer.2 uid mine tag task i j found status here wrote)
    obtain ⟨success,task',here',steps,_⟩ := sound.buffer.output uid i j tag' found'
    obtain rfl : task = task' := Option.some.inj (here.symm.trans here')
    obtain ⟨task',here',same⟩ := current.batch uid mine
    obtain rfl : task = task' := Option.some.inj (here.symm.trans here')
    exact List.mem_map.mpr ⟨_,(inside _ tag').mpr ⟨found',by rw [steps,same],success⟩,rfl⟩
  case stored =>
    intro key member
    obtain ⟨uid,mine,task,i,j,here,wrote,rfl⟩ := own key member
    exact (s.queue.mem_keys _).mpr (current.stored uid mine task i j here wrote)
  case nodup =>
    rw [kept]
    exact s.buffer.distinct.sublist (List.filter_sublist.map Prod.fst)
  case unreturned =>
    intro key member
    obtain ⟨uid,mine,_,i,j,_,_,rfl⟩ := own key member
    exact current.unreturned uid mine i j

section Growth

/-- Tasks keep their global steps, what they have put and their end. -/
def Grows (tasks later : Nat → Option Task) : Prop :=
  ∀ uid task, tasks uid = some task → ∃ task', later uid = some task' ∧ task'.globalSteps = task.globalSteps ∧
    (∀ i j, task.Wrote i j → task'.Wrote i j) ∧ ∀ out, task.outcome = some out → task'.outcome = some out

variable {tasks later : Nat → Option Task} {p q : Partition} {s t : State}

theorem Tagged.grow (tagged : Tagged tasks p) (grows : Grows tasks later) : Tagged later p where
  prompt := by
    intro uid tag found
    obtain ⟨task,here,steps,status⟩ := tagged.prompt uid tag found
    obtain ⟨task',here',same,_,outcome⟩ := grows uid task here
    refine ⟨task',here',by rwa [same],?_⟩
    rcases status with running | ⟨out,ended,status⟩
    · exact .inl running
    · exact .inr ⟨out,outcome out ended,status⟩
  output := by
    intro uid i j tag found
    obtain ⟨status,task,here,steps,wrote⟩ := tagged.output uid i j tag found
    obtain ⟨task',here',same,wrote',_⟩ := grows uid task here
    exact ⟨status,task',here',by rwa [same],wrote' i j wrote⟩
  padding := by
    intro uid i tag found
    obtain ⟨status,other,task,here,steps⟩ := tagged.padding uid i tag found
    obtain ⟨task',here',same,_⟩ := grows other task here
    exact ⟨status,other,task',here',by rwa [same]⟩

theorem Carried.grow (grows : Grows s.tasks t.tasks) (item : Key × Tag) (carried : Carried s item) :
    Carried t item := by
  obtain ⟨kind,status,uid,task,here,steps⟩ := carried
  obtain ⟨task',here',same,_⟩ := grows uid task here
  exact ⟨kind,status,uid,task',here',by rwa [same]⟩

theorem PhaseInv.grow (inv : PhaseInv s) (grows : Grows s.tasks t.tasks) (same : t.phase = s.phase) :
    PhaseInv t := by
  unfold PhaseInv at inv ⊢
  rw [same]
  split
  · trivial
  · trivial
  next items here =>
    rw [here] at inv
    exact fun item member => (inv item member).grow grows
  next gone items here =>
    rw [here] at inv
    exact ⟨inv.1,fun item member => (inv.2 item member).grow grows⟩

/-- A merged tag keeps what the buffer knows of a prompt. -/
theorem Tagged.add (old : Tagged tasks p) (new : Tagged tasks q) : Tagged tasks (add p q.entries) where
  prompt := by
    intro uid tag found
    rw [get?_add] at found
    cases listed : q.get? (.prompt uid) with
    | none =>
      rw [listed] at found
      exact old.prompt uid tag found
    | some fresh =>
      rw [listed] at found
      obtain rfl := Option.some.inj found
      obtain ⟨task,here,steps,status⟩ := new.prompt uid fresh listed
      refine ⟨task,here,?_,?_⟩
      · rcases steps with missing | steps
        · rw [Tag.update,missing]
          dsimp only [HOrElse.hOrElse,OrElse.orElse,Option.orElse]
          cases known : p.get? (.prompt uid) with
          | none => exact .inl (by simp [OrderedDict.getD,known])
          | some before =>
            obtain ⟨task',here',steps,_⟩ := old.prompt uid before known
            obtain rfl : task = task' := Option.some.inj (here.symm.trans here')
            simpa [OrderedDict.getD,known] using steps
        · exact .inr (by simp [Tag.update,steps])
      · rcases status with running | ⟨out,ended,status⟩
        · exact .inl (by simp [Tag.update,running])
        · exact .inr ⟨out,ended,by simp [Tag.update,status]⟩
  output := by
    intro uid i j tag found
    rw [get?_add] at found
    cases listed : q.get? (.output uid i j) with
    | none =>
      rw [listed] at found
      exact old.output uid i j tag found
    | some fresh =>
      rw [listed] at found
      obtain rfl := Option.some.inj found
      obtain ⟨status,task,here,steps,wrote⟩ := new.output uid i j fresh listed
      exact ⟨by simp [Tag.update,status],task,here,by simp [Tag.update,steps],wrote⟩
  padding := by
    intro uid i tag found
    rw [get?_add] at found
    cases listed : q.get? (.padding uid i) with
    | none =>
      rw [listed] at found
      exact old.padding uid i tag found
    | some fresh =>
      rw [listed] at found
      obtain rfl := Option.some.inj found
      obtain ⟨status,other,task,here,steps⟩ := new.padding uid i fresh listed
      exact ⟨by simp [Tag.update,status],other,task,here,by simp [Tag.update,steps]⟩

theorem Tagged.remove (tagged : Tagged tasks p) (keys : List Key) : Tagged tasks (remove p keys) := by
  have kept : ∀ key tag, (ReplayBuffer.remove p keys).get? key = some tag → p.get? key = some tag := by
    intro key tag found
    rw [get?_remove] at found
    split at found
    · cases found
    · exact found
  exact ⟨fun uid tag found => tagged.prompt uid tag (kept _ tag found),
    fun uid i j tag found => tagged.output uid i j tag (kept _ tag found),
    fun uid i tag found => tagged.padding uid i tag (kept _ tag found)⟩

end Growth

end RelayOpd.ReplayBuffer
