import Mathlib
import RelayOpd.BroadcastRun

/-! No run of the broadcast goes on forever, and one that cannot go on has brought all weights to
every receiver. -/
namespace RelayOpd.WeightBroadcast

open TensorBytes WeightChunks

section Progress

variable {n : Nat} {bucketSize : Nat}

/-- Steps that a bucket of so many chunks still makes at a receiver, when it comes. -/
def receiptWork : Option Receipt → Nat
  | some ⟨_,some metadata⟩ => metadata.bucketMeta.entries.length + 2
  | _ => 0

def receiverWork (s : Receiver) : Nat :=
  receiptWork s.broadcastOp +
    match s.phase with
    | .start => 1
    | .reading todo _ => todo.length + 1
    | _ => 0

def wireWork (wire : Wire) : Nat := (wire.map (fun message => message.1.bucketMeta.entries.length + 3)).sum

def sentWork (op : Option (Operation n)) (r : Fin n) : Nat :=
  match op with
  | some op => if op.sent r then 0 else op.metadata.bucketMeta.entries.length + 4
  | none => 0

/-- What the sender has not broadcast costs a step of its own and five at every receiver. -/
def senderWork (s : Sender n) : Nat :=
  match s.phase with
  | .filling => s.pending.length * (5 * n + 1) + s.bucketMeta.entries.length * n + (4 * n + 2)
  | .finishing => 1
  | _ => 0

def pathWork (s : System n) (r : Fin n) : Nat :=
  sentWork s.sender.broadcastOp r + wireWork (s.wires r) + receiverWork (s.receivers r)

def work (s : System n) : Nat := senderWork s.sender + ∑ r, pathWork s r

theorem sentWork_start (s : Sender n) (isLast : Bool) :
    ∑ r, sentWork (startBroadcast isLast s).broadcastOp r = n * (s.bucketMeta.entries.length + 4) := by
  simp [sentWork,startBroadcast]

/-- A bucket that is broadcast costs four more steps at every receiver. -/
theorem makeRoom_work {s roomy : Sender n} {size : Nat} (room : makeRoom bucketSize size s = some roomy) :
    roomy.phase = s.phase ∧
      roomy.bucketMeta.entries.length * n + ∑ r, sentWork roomy.broadcastOp r ≤
        s.bucketMeta.entries.length * n + 4 * n + ∑ r, sentWork s.broadcastOp r := by
  unfold makeRoom at room
  split at room
  · split at room
    · cases room
    · obtain rfl := Option.some.inj room
      have cost : n * (s.bucketMeta.entries.length + 4) = s.bucketMeta.entries.length * n + 4 * n := by ring
      refine ⟨rfl,?_⟩
      change 0 * n + ∑ r, sentWork (startBroadcast false s).broadcastOp r ≤ _
      rw [sentWork_start,Nat.zero_mul]
      omega
  · obtain rfl := Option.some.inj room
    exact ⟨rfl,by omega⟩

/-- Copying a chunk takes it from the pending ones; a failed assertion takes everything. -/
theorem fill_work (bucketSize : Nat) (s : Sender n) (chunk : Chunk) (rest : List Chunk) (phase : s.phase = .filling) :
    (fill bucketSize chunk rest s).broadcastOp = s.broadcastOp ∧
      senderWork (fill bucketSize chunk rest s) ≤
        rest.length * (5 * n + 1) + (s.bucketMeta.entries.length * n + n) + (4 * n + 2) := by
  unfold fill
  split
  · exact ⟨rfl,Nat.zero_le _⟩
  · rename_i sound
    have fresh : chunk.1.name ∉ s.bucketMeta.keys := fun member => sound (.inr member)
    refine ⟨rfl,?_⟩
    simp only [senderWork,phase,OrderedDict.entries_set_fresh _ _ _ fresh,List.length_append,List.length_singleton]
    rw [Nat.add_mul,Nat.one_mul]

theorem sendWeights_work {s s' : Sender n} (moved : sendWeights bucketSize s = some s') :
    senderWork s' + ∑ r, sentWork s'.broadcastOp r < senderWork s + ∑ r, sentWork s.broadcastOp r := by
  unfold sendWeights at moved
  split at moved
  · rename_i phase
    split at moved
    · rename_i chunk rest given
      have before : senderWork s =
          rest.length * (5 * n + 1) + (5 * n + 1) + s.bucketMeta.entries.length * n + (4 * n + 2) := by
        simp only [senderWork,phase,given,List.length_cons]
        rw [Nat.add_mul rest.length,Nat.one_mul]
      obtain ⟨roomy,room,rfl⟩ := Option.map_eq_some_iff.mp moved
      obtain ⟨kept,space⟩ := makeRoom_work room
      obtain ⟨op,after⟩ := fill_work bucketSize roomy chunk rest (kept.trans phase)
      rw [op,before]
      omega
    · rename_i given
      split at moved
      · cases moved
      · obtain rfl := Option.some.inj moved
        have started := sentWork_start s true
        have cost : n * (s.bucketMeta.entries.length + 4) = s.bucketMeta.entries.length * n + 4 * n := by ring
        have before : senderWork s = s.bucketMeta.entries.length * n + (4 * n + 2) := by
          simp [senderWork,phase,given]
        change 1 + ∑ r, sentWork (startBroadcast true s).broadcastOp r < _
        rw [started,before]
        omega
  · rename_i phase
    split at moved
    · cases moved
    · obtain rfl := Option.some.inj moved
      have before : senderWork s = 1 := by simp only [senderWork,phase]
      change 0 + ∑ r, sentWork s.broadcastOp r < _
      omega
  · cases moved

theorem receiveWeights_work {s s' : Receiver} (moved : receiveWeights bucketSize s = some s') :
    receiverWork s' < receiverWork s := by
  unfold receiveWeights at moved
  split at moved
  · rename_i phase
    obtain rfl := Option.some.inj moved
    simp [receiverWork,phase,receiptWork]
  · rename_i phase
    split at moved
    · rename_i metadata op
      obtain rfl := Option.some.inj moved
      cases metadata.isLast <;> simp [receiverWork,phase,op,receiptWork]
    · cases moved
  · rename_i tensorMeta todo isLast phase
    dsimp only at moved
    split at moved
    · obtain rfl := Option.some.inj moved
      simp [receiverWork,phase]
    · obtain rfl := Option.some.inj moved
      simp [receiverWork,phase]
  · rename_i isLast phase
    obtain rfl := Option.some.inj moved
    cases isLast <;> simp [receiverWork,phase]
  · cases moved

/-- When one receiver's path gets shorter and no other one changes, there is less work. -/
theorem work_lt_of_path {s s' : System n} (r : Fin n) (sender : senderWork s'.sender = senderWork s.sender)
    (shorter : pathWork s' r < pathWork s r) (others : ∀ r', r' ≠ r → pathWork s' r' = pathWork s r') : work s' < work s := by
  unfold work
  rw [sender]
  refine Nat.add_lt_add_left (Finset.sum_lt_sum (fun r' _ => ?_) ⟨r,Finset.mem_univ r,shorter⟩) _
  by_cases same : r' = r
  · exact same ▸ Nat.le_of_lt shorter
  · exact Nat.le_of_eq (others r' same)

/-- Every step makes the work less. -/
theorem step_work {s s' : System n} {eager : Bool} (action : Action n) (moved : step bucketSize eager s action = some s') :
    work s' < work s := by
  cases action with
  | sender =>
    obtain ⟨sender,next,rfl⟩ := Option.map_eq_some_iff.mp moved
    have less := sendWeights_work next
    simp only [work,pathWork,Finset.sum_add_distrib]
    omega
  | transfer r =>
    simp only [step,transfer] at moved
    split at moved
    · rename_i op given
      split at moved
      · cases moved
      · rename_i off
        split at moved
        · obtain rfl := Option.some.inj moved
          refine work_lt_of_path r rfl ?_ fun r' other => ?_
          · simp [pathWork,sentWork,wireWork,given,off]
            omega
          · simp [pathWork,sentWork,given,Function.update_of_ne other]
        · cases moved
    · cases moved
  | arrive r =>
    simp only [step,arrive] at moved
    split at moved
    · rename_i bucket metadata bytes rest op wire
      obtain rfl := Option.some.inj moved
      refine work_lt_of_path r rfl ?_ fun r' other => ?_
      · simp [pathWork,wireWork,wire,receiverWork,op,receiptWork]
        omega
      · simp [pathWork,Function.update_of_ne other]
    · cases moved
  | receiver r =>
    obtain ⟨receiver,next,rfl⟩ := Option.map_eq_some_iff.mp moved
    have less := receiveWeights_work next
    refine work_lt_of_path r rfl ?_ fun r' other => ?_
    · simp only [pathWork,Function.update_self]
      omega
    · simp only [pathWork,Function.update_of_ne other]

theorem run_length {eager : Bool} (actions : List (Action n)) (s s' : System n)
    (ran : run bucketSize eager s actions = some s') : actions.length + work s' ≤ work s := by
  induction actions generalizing s with
  | nil =>
    obtain rfl := Option.some.inj ran
    simp
  | cons action actions ih =>
    rw [run,List.foldlM_cons,Option.bind_eq_bind,Option.bind_eq_some_iff] at ran
    obtain ⟨next,moved,ran⟩ := ran
    have later := ih next ran
    have less := step_work action moved
    rw [List.length_cons]
    omega

/-- Some run goes on until nothing can move. -/
theorem exists_final_run (bucketSize : Nat) (eager : Bool) (s : System n) :
    ∃ actions s', run bucketSize eager s actions = some s' ∧ ∀ action, step bucketSize eager s' action = none := by
  induction measure : work s using Nat.strong_induction_on generalizing s with
  | h size ih =>
    by_cases stuck : ∀ action, step bucketSize eager s action = none
    · exact ⟨[],s,rfl,stuck⟩
    · push Not at stuck
      obtain ⟨action,enabled⟩ := stuck
      obtain ⟨next,moved⟩ := Option.ne_none_iff_exists'.mp enabled
      obtain ⟨actions,s',ran,final⟩ := ih (work next) (measure ▸ step_work action moved) next rfl
      refine ⟨action :: actions,s',?_,final⟩
      rw [run,List.foldlM_cons,Option.bind_eq_bind,moved]
      exact ran

end Progress

section Final

variable {n : Nat} {bucketSize : Nat}

/-- A receiver that reads chunks which can be merged has not crashed. -/
theorem Tracks.stage {all : List Chunk} {s : Receiver} {wire : Wire} {later : List Bucket}
    (tracks : Tracks bucketSize all s wire later) (merges : mergeAll bucketSize (none,[]) all ≠ none) :
    s.phase ≠ .crashed ∧ ∀ op todo isLast, s.broadcastOp = some op → op.metadata = none →
      s.phase = .reading todo isLast → op.bucket ≠ s.sendBuf := by
  cases tracks with
  | fails phase error => exact absurd error merges
  | reads done todo queue coming wire_ stage whole merged =>
    cases stage with
    | start phase _ _ | awaiting _ phase _ | done phase _ _ => simp [phase]
    | reading front todo isLast _ phase _ _ behind =>
      refine ⟨by simp [phase],fun op _ _ given empty _ same => ?_⟩
      cases behind with
      | last idle _ =>
        rw [idle] at given
        cases given
      | more _ incoming =>
        cases incoming with
        | waiting waits _ =>
          obtain rfl := Option.some.inj (waits.symm.trans given)
          exact Bool.not_ne_self s.sendBuf same
        | arrived metadata bucket arrived _ _ =>
          obtain rfl := Option.some.inj (arrived.symm.trans given)
          cases empty

theorem Flows.safe {all : List Chunk} {s : System n} {future : List Bucket} {bucket : Bucket}
    (flows : Flows bucketSize all s future bucket) (merges : mergeAll bucketSize (none,[]) all ≠ none) : Safe s := by
  refine ⟨?_,fun r => ((flows.tracks r).stage merges).1,fun op given _ phase => ?_,fun r => ((flows.tracks r).stage merges).2⟩
  · cases flows.sending with
    | filling _ filling => simp [filling.phase]
    | finishing phase | done phase _ => simp [phase]
  · cases flows.sending with
    | filling current filling => exact filling.other op given
    | finishing finishing | done finishing _ =>
      rw [finishing] at phase
      cases phase

/-- A receiver that cannot move is done, or it waits for a bucket that the sender still has. -/
theorem Tracks.stuck {all : List Chunk} {s : System n} {r : Fin n} {later : List Bucket}
    (tracks : Tracks bucketSize all (s.receivers r) (s.wires r) later) (merges : mergeAll bucketSize (none,[]) all ≠ none)
    (noArrival : WeightBroadcast.arrive r s = none) (noStep : receiveWeights bucketSize (s.receivers r) = none) :
    ((s.receivers r).phase = .done ∧ later = [] ∧
        ∃ merging, mergeAll bucketSize (none,[]) all = some (merging,(s.receivers r).output)) ∨
      (s.wires r = [] ∧ (s.receivers r).broadcastOp.any (·.metadata.isNone) = true ∧ Ends later) := by
  obtain ⟨wire,given⟩ : ∃ wire, s.wires r = wire := ⟨_,rfl⟩
  rw [given] at tracks ⊢
  cases tracks with
  | fails phase error => exact absurd error merges
  | reads done todo queue coming wire_ stage whole merged =>
    cases stage with
    | start phase _ _ => simp [receiveWeights,phase] at noStep
    | reading front todo isLast _ phase _ _ _ =>
      cases todo with
      | nil => simp [receiveWeights,phase] at noStep
      | cons chunk todo =>
        simp only [receiveWeights,phase,List.map_cons] at noStep
        split at noStep <;> cases noStep
    | done phase _ empty =>
      have gone : later = [] := (List.append_eq_nil_iff.mp empty).2
      refine .inl ⟨phase,gone,(s.receivers r).merging,?_⟩
      rw [← whole,List.append_nil,List.flatMap_nil,List.append_nil]
      exact merged
    | awaiting _ phase incoming =>
      cases incoming with
      | arrived metadata bucket op _ _ => simp [receiveWeights,phase,op] at noStep
      | waiting op ends =>
        cases wire_ with
        | nil => exact .inr ⟨rfl,by simp [op],ends⟩
        | cons _ _ => simp [WeightBroadcast.arrive,op,given] at noArrival

/-- Where nothing can move, everybody is done and every receiver has merged everything. -/
theorem Flows.final {all : List Chunk} {s : System n} {eager : Bool} {future : List Bucket} {bucket : Bucket}
    (flows : Flows bucketSize all s future bucket) (merges : mergeAll bucketSize (none,[]) all ≠ none)
    (stuck : ∀ action, WeightBroadcast.step bucketSize eager s action = none) :
    s.sender.phase = .done ∧ ∀ r, (s.receivers r).phase = .done ∧
      ∃ merging, mergeAll bucketSize (none,[]) all = some (merging,(s.receivers r).output) := by
  have each (r : Fin n) := (flows.tracks r).stuck merges (stuck (.arrive r)) (Option.map_eq_none_iff.mp (stuck (.receiver r)))
  have idle : s.sender.running = false := by
    rw [Bool.eq_false_iff]
    intro running
    obtain ⟨op,given,r,off⟩ := (running_eq_true s.sender).mp running
    rcases each r with ⟨_,gone,_⟩ | ⟨wire,waits,_⟩
    · simp [unsent,given,off] at gone
    · have blocked : WeightBroadcast.transfer eager r s = none := stuck (.transfer r)
      simp [WeightBroadcast.transfer,given,off,wire,waits] at blocked
  have sender : sendWeights bucketSize s.sender = none := Option.map_eq_none_iff.mp (stuck .sender)
  have done : s.sender.phase = .done ∧ future = [] := by
    cases flows.sending with
    | done phase _ => exact ⟨phase,rfl⟩
    | finishing phase => simp [sendWeights,phase,idle] at sender
    | filling current filling =>
      simp only [sendWeights,filling.phase,idle,makeRoom,Bool.false_eq_true,if_false] at sender
      split at sender
      · split at sender <;> cases sender
      · cases sender
  refine ⟨done.1,fun r => ?_⟩
  rcases each r with ⟨phase,_,merged⟩ | ⟨_,_,ends⟩
  · exact ⟨phase,merged⟩
  · rw [unsent_idle s.sender idle bucket r,done.2] at ends
    exact ends.elim

/-- The broadcast is safe and brings every weight to every receiver, whatever the order of the
steps, if and only if no weight is empty and each one of at most a bucket begins at a multiple
of its item size. -/
theorem broadcast_lossless_iff (bucketSize n : Nat) (eager : Bool) (weights : List Weight) (positive : 0 < bucketSize)
    (receivers : 0 < n) (distinct : (weights.map Prod.fst).Nodup) :
    Lossless bucketSize n eager weights ↔
      (∀ weight ∈ weights, weight.2.nbytes ≠ 0) ∧ aligned bucketSize 0 weights = true := by
  have merged := mergeAll_split positive weights [] 0
  have initial := Flows.init n positive weights distinct
  constructor
  · rintro ⟨-,-,complete⟩
    obtain ⟨actions,s,ran,stuck⟩ := exists_final_run bucketSize eager (init bucketSize n weights)
    obtain ⟨-,all⟩ := complete actions s ran stuck
    obtain ⟨future,bucket,flows⟩ := run_flows actions initial ran
    obtain ⟨phase,output⟩ := all ⟨0,receivers⟩
    cases flows.tracks ⟨0,receivers⟩ with
    | fails crashed _ =>
      rw [phase] at crashed
      cases crashed
    | reads done todo queue coming wire_ stage whole received =>
      cases stage with
      | start other _ _ | awaiting _ other _ | reading _ _ _ _ other _ _ _ =>
        rw [phase] at other
        cases other
      | done _ _ _ =>
        rw [List.append_nil,List.flatMap_nil,List.append_nil] at whole
        rw [← whole,received,output] at merged
        split at merged
        · rename_i sound
          obtain ⟨-,same⟩ := Prod.mk.inj (Option.some.inj merged)
          refine ⟨fun weight member => ?_,sound⟩
          rw [same,List.nil_append] at member
          exact of_decide_eq_true (List.mem_filter.mp member).2
        · cases merged
  · rintro ⟨nonempty,sound⟩
    have kept : weights.filter (fun weight => weight.2.nbytes ≠ 0) = weights :=
      List.filter_eq_self.mpr fun weight member => decide_eq_true (nonempty weight member)
    rw [if_pos sound,kept,List.nil_append] at merged
    have merges : mergeAll bucketSize (none,[]) (placeAll bucketSize 0 (splitWeightChunks bucketSize weights)) ≠ none := by
      rw [merged]
      exact Option.some_ne_none _
    refine ⟨fun actions s ran => ?_,⟨_,fun actions s ran => (Nat.le_add_right _ _).trans (run_length actions _ s ran)⟩,
      fun actions s ran stuck => ?_⟩
    · obtain ⟨future,bucket,flows⟩ := run_flows actions initial ran
      exact flows.safe merges
    · obtain ⟨future,bucket,flows⟩ := run_flows actions initial ran
      obtain ⟨phase,each⟩ := flows.final merges stuck
      refine ⟨phase,fun r => ⟨(each r).1,?_⟩⟩
      obtain ⟨merging,output⟩ := (each r).2
      rw [merged] at output
      exact (Prod.mk.inj (Option.some.inj output)).2.symm

end Final

section Examples

/-- A weight of two buckets, and small ones of several item sizes behind it. -/
def mixedWeights : List Weight :=
  [("w",⟨.float32,[2],[0,0,128,63,0,0,0,64],rfl⟩),("n",⟨.bfloat16,[1],[0,64],rfl⟩),("b",⟨.uint8,[1,1],[9],rfl⟩),
    ("m",⟨.int32,[1],[1,2,3,4],rfl⟩)]

theorem broadcast_mixed : Lossless 4 2 false mixedWeights :=
  (broadcast_lossless_iff 4 2 false mixedWeights (by decide) (by decide) (by decide)).mpr ⟨by decide,by decide⟩

/-- A byte, then a tensor of four-byte items, in one bucket. -/
def byteThenFloat : List Weight := [("scale",⟨.uint8,[1],[9],rfl⟩),("gate",⟨.float32,[1],[0,0,0,63],rfl⟩)]

def emptyWeight : List Weight := [("bias",⟨.float32,[0],[],List.length_nil⟩)]

/-- The view of the second weight fails at the receiver; and an empty weight never comes. -/
theorem byte_then_float_and_empty_example :
    ¬ Lossless 8 1 false byteThenFloat ∧ ¬ Lossless 8 1 false emptyWeight := by
  constructor
  · intro lossless
    have crashed := lossless.safe [.sender,.sender,.sender,.receiver 0,.transfer 0,.arrive 0,.receiver 0,.receiver 0,
      .receiver 0] _ rfl
    exact crashed.receivers 0 rfl
  · intro lossless
    obtain ⟨-,all⟩ := lossless.complete [.sender,.receiver 0,.transfer 0,.arrive 0,.receiver 0,.receiver 0,.sender] _ rfl
      (fun action => by cases action with
        | sender => rfl
        | transfer r | arrive r | receiver r => rw [Fin.eq_zero r]; rfl)
    cases (all 0).2

end Examples

end RelayOpd.WeightBroadcast
