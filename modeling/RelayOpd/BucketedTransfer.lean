import RelayOpd.OrderedDict
import RelayOpd.TensorBytes

/-! Weights packed into buckets of a shared buffer, one message a bucket, and read back from
the buffer before the next bucket is filled. -/
namespace RelayOpd.BucketedTransfer

open TensorBytes

abbrev Weight := String × TensorBytes.Tensor

/-- `handle` is the tensor itself, as the IPC handle of a direct transfer rebuilds it. -/
structure TensorMetadata where
  name : String
  shape : List Nat
  dtype : Dtype
  offset : Nat
  handle : Option TensorBytes.Tensor

def TensorMetadata.nbytes (tensor : TensorMetadata) : Nat := tensor.dtype.itemsize * tensor.shape.prod

structure Message where
  bucketMeta : OrderedDict String TensorMetadata
  isLast : Bool

/-- `sent` holds each message with the buffer as the receiver finds it: the sender awaits the
reply before it writes again. -/
structure Sender where
  buffer : List UInt8
  offset : Nat := 0
  bucketMeta : OrderedDict String TensorMetadata := .empty
  sent : List (Message × List UInt8) := []

def sendBucket (isLast : Bool) (s : Sender) : Sender :=
  { s with offset := 0, bucketMeta := .empty, sent := s.sent ++ [(⟨s.bucketMeta,isLast⟩,s.buffer)] }

/-- `_direct_send_large_weight`. -/
def directSendLargeWeight (name : String) (weight : TensorBytes.Tensor) (s : Sender) : Sender :=
  let bucketMeta := OrderedDict.empty.set name ⟨name,weight.shape,weight.dtype,0,some weight⟩
  { s with sent := s.sent ++ [(⟨bucketMeta,false⟩,s.buffer)] }

def fill (name : String) (weight : TensorBytes.Tensor) (s : Sender) : Sender :=
  { s with
    bucketMeta := s.bucketMeta.set name ⟨name,weight.shape,weight.dtype,s.offset,none⟩
    buffer := write s.offset weight.bytes s.buffer
    offset := s.offset + weight.nbytes }

/-- A full bucket is sent before the next tensor. -/
def makeRoom (bucketSize : Nat) (weight : TensorBytes.Tensor) (s : Sender) : Sender :=
  if s.offset + weight.nbytes > bucketSize ∧ s.bucketMeta.entries ≠ [] then sendBucket false s else s

/-- One round of the loop of `async_send_weights`; without IPC a large tensor fails an assertion. -/
def sendWeight (bucketSize : Nat) (useShm : Bool) (s : Sender) (entry : Weight) : Option Sender :=
  let s := makeRoom bucketSize entry.2 s
  if s.offset + entry.2.nbytes > bucketSize then
    if useShm then none else some (directSendLargeWeight entry.1 entry.2 s)
  else some (fill entry.1 entry.2 s)

def asyncSendWeights (bucketSize : Nat) (useShm : Bool) (buffer : List UInt8) (weights : List Weight) :
    Option (List (Message × List UInt8)) :=
  (weights.foldlM (sendWeight bucketSize useShm) { buffer }).map (fun s => (sendBucket true s).sent)

/-- A tensor of a bucket, from its handle or from the buffer. -/
def readWeight (buffer : List UInt8) (entry : String × TensorMetadata) : Option Weight :=
  match entry.2.handle with
  | some tensor => some (entry.1,tensor)
  | none =>
    (view entry.2.offset (read entry.2.offset entry.2.nbytes buffer) entry.2.dtype entry.2.shape).map (entry.1,·)

def readBucket (message : Message × List UInt8) : Option (List Weight) :=
  message.1.bucketMeta.entries.mapM (readWeight message.2)

/-- `receive_weights`: the lists that the callback gets, up to the last bucket. -/
def receiveWeights : List (Message × List UInt8) → Option (List (List Weight))
  | [] => none
  | message :: rest => do
    let weights ← readBucket message
    if message.1.isLast then some [weights]
    else (weights :: ·) <$> receiveWeights rest

/-- The tensors of a bucket do not overlap, and all lie inside. -/
def WellPlaced (bucketSize : Nat) (message : Message × List UInt8) : Prop :=
  let tensors := (message.1.bucketMeta.entries.map Prod.snd).filter (·.handle.isNone)
  tensors.Pairwise (fun first second => first.offset + first.nbytes ≤ second.offset) ∧
    ∀ tensor ∈ tensors, tensor.offset + tensor.nbytes ≤ bucketSize

/-- All tensors arrive once, in order and unchanged. -/
def Lossless (bucketSize : Nat) (useShm : Bool) (buffer : List UInt8) (weights : List Weight) : Prop :=
  ∃ sent received, asyncSendWeights bucketSize useShm buffer weights = some sent ∧
    receiveWeights sent = some received ∧ received.flatten = weights ∧
    (∀ message ∈ sent, WellPlaced bucketSize message) ∧ sent.countP (·.1.isLast) = 1

/-- Every tensor that is not sent directly begins at a multiple of its item size, when the
tensors are put one behind the other from `offset` on, and from zero in each new bucket. -/
def aligned (bucketSize : Nat) : Nat → List Weight → Bool
  | _,[] => true
  | offset,(_,weight) :: rest =>
    let start := if offset + weight.nbytes > bucketSize then 0 else offset
    if weight.nbytes > bucketSize then aligned bucketSize 0 rest
    else decide (weight.dtype.itemsize ∣ start) && aligned bucketSize (start + weight.nbytes) rest

section Layout

def place (offset : Nat) (entry : Weight) : String × TensorMetadata :=
  (entry.1,⟨entry.1,entry.2.shape,entry.2.dtype,offset,none⟩)

/-- The entries of a bucket that holds these tensors. -/
def layout : Nat → List Weight → List (String × TensorMetadata)
  | _,[] => []
  | offset,entry :: rest => place offset entry :: layout (offset + entry.2.nbytes) rest

def pieces (weights : List Weight) : List (List UInt8) := weights.map (·.2.bytes)

def total (weights : List Weight) : Nat := (pieces weights).flatten.length

theorem total_append (first second : List Weight) : total (first ++ second) = total first + total second := by
  simp [total,pieces]

theorem total_cons (entry : Weight) (rest : List Weight) : total (entry :: rest) = entry.2.nbytes + total rest := by
  simp [total,pieces,TensorBytes.Tensor.nbytes]

theorem layout_append (offset : Nat) (weights : List Weight) (entry : Weight) :
    layout offset (weights ++ [entry]) = layout offset weights ++ [place (offset + total weights) entry] := by
  induction weights generalizing offset with
  | nil => rfl
  | cons first rest ih =>
    rw [List.cons_append,layout,layout,ih,List.cons_append,total_cons,Nat.add_assoc]

theorem layout_names (offset : Nat) (weights : List Weight) :
    (layout offset weights).map Prod.fst = weights.map Prod.fst := by
  induction weights generalizing offset with
  | nil => rfl
  | cons entry rest ih => simp [layout,place,ih]

theorem place_nbytes (offset : Nat) (entry : Weight) : (place offset entry).2.nbytes = entry.2.nbytes :=
  entry.2.size.symm

theorem layout_bounds (offset : Nat) (weights : List Weight) (tensor : TensorMetadata)
    (member : tensor ∈ (layout offset weights).map Prod.snd) :
    offset ≤ tensor.offset ∧ tensor.offset + tensor.nbytes ≤ offset + total weights := by
  induction weights generalizing offset with
  | nil => nomatch member
  | cons entry rest ih =>
    rw [total_cons]
    rcases List.mem_cons.mp member with rfl | later
    · rw [place_nbytes]
      exact ⟨Nat.le_refl _,by simp only [place]; omega⟩
    · obtain ⟨low,high⟩ := ih (offset + entry.2.nbytes) later
      omega

theorem layout_pairwise (offset : Nat) (weights : List Weight) :
    ((layout offset weights).map Prod.snd).Pairwise (fun first second => first.offset + first.nbytes ≤ second.offset) := by
  induction weights generalizing offset with
  | nil => exact .nil
  | cons entry rest ih =>
    refine .cons (fun tensor later => ?_) (ih _)
    rw [place_nbytes]
    exact (layout_bounds _ rest tensor later).1

/-- A packed tensor reads back when it is aligned. -/
theorem readWeight_place (before after : List (List UInt8)) (entry : Weight) (buffer : List UInt8)
    (packed : Packed (before ++ entry.2.bytes :: after) buffer) :
    readWeight buffer (place before.flatten.length entry) =
      if entry.2.dtype.itemsize ∣ before.flatten.length then some entry else none := by
  have slice := packed.read
  simp only [readWeight,place,TensorMetadata.nbytes]
  rw [← entry.2.size,slice,view_tensor]
  split <;> rfl

end Layout

section Run

variable {bucketSize : Nat}

/-- All that the messages carry. -/
def outcome (sent : List (Message × List UInt8)) : Option (List Weight) := (sent.mapM readBucket).map List.flatten

theorem outcome_append (sent : List (Message × List UInt8)) (message : Message × List UInt8) :
    outcome (sent ++ [message]) = (outcome sent).bind (fun weights => (readBucket message).map (weights ++ ·)) := by
  unfold outcome
  rw [List.mapM_append]
  cases sent.mapM readBucket with
  | none => rfl
  | some lists =>
    cases given : readBucket message with
    | none => simp [given]
    | some weights => simp [given]

/-- The sender's bucket holds `weights`, packed from the start of the buffer. -/
structure Filling (bucketSize : Nat) (s : Sender) (weights : List Weight) : Prop where
  entries : s.bucketMeta.entries = layout 0 weights
  offset : s.offset = total weights
  fits : s.offset ≤ bucketSize
  size : s.buffer.length = bucketSize
  packed : Packed (pieces weights) s.buffer
  placed : ∀ message ∈ s.sent, WellPlaced bucketSize message
  notLast : ∀ message ∈ s.sent, message.1.isLast = false

/-- What arrives if the bucket is the last one. -/
def final (s : Sender) : Option (List Weight) := outcome (sendBucket true s).sent

theorem mapM_layout (before weights : List Weight) (buffer : List UInt8)
    (packed : Packed (pieces before ++ pieces weights) buffer) :
    (layout (total before) weights).mapM (readWeight buffer) =
      if (layout (total before) weights).all (fun entry => entry.2.dtype.itemsize ∣ entry.2.offset) then some weights
      else none := by
  induction weights generalizing before with
  | nil => rfl
  | cons entry rest ih =>
    have first := readWeight_place (pieces before) (pieces rest) entry buffer packed
    have next : total before + entry.2.nbytes = total (before ++ [entry]) := by
      rw [total_append,total_cons]
      rfl
    have later := ih (before ++ [entry]) (by simpa [pieces] using packed)
    rw [← next] at later
    rw [layout,List.mapM_cons,later,show total before = (pieces before).flatten.length from rfl,first]
    simp only [List.all_cons,place]
    by_cases divides : entry.2.dtype.itemsize ∣ (pieces before).flatten.length
    · rw [if_pos divides]
      simp only [divides,decide_true,Bool.true_and]
      split <;> rfl
    · rw [if_neg divides]
      simp only [divides,decide_false,Bool.false_and,Bool.false_eq_true,if_false]
      rfl

theorem Filling.readBucket {s : Sender} {weights : List Weight} (filling : Filling bucketSize s weights) (isLast : Bool) :
    readBucket (⟨s.bucketMeta,isLast⟩,s.buffer) =
      if (layout 0 weights).all (fun entry => entry.2.dtype.itemsize ∣ entry.2.offset) then some weights else none := by
  rw [BucketedTransfer.readBucket,filling.entries]
  exact mapM_layout [] weights s.buffer filling.packed

theorem Filling.wellPlaced {s : Sender} {weights : List Weight} (filling : Filling bucketSize s weights) (isLast : Bool) :
    WellPlaced bucketSize (⟨s.bucketMeta,isLast⟩,s.buffer) := by
  have sublist := List.filter_sublist (p := fun tensor : TensorMetadata => tensor.handle.isNone)
    (l := s.bucketMeta.entries.map Prod.snd)
  refine ⟨?_,fun tensor member => ?_⟩
  · refine List.Pairwise.sublist sublist ?_
    rw [filling.entries]
    exact layout_pairwise 0 weights
  · have inside := sublist.subset member
    rw [filling.entries] at inside
    have bounds := layout_bounds 0 weights tensor inside
    have fits := filling.fits
    rw [filling.offset] at fits
    omega

/-- Sending the bucket leaves an empty one. -/
theorem Filling.sendBucket {s : Sender} {weights : List Weight} (filling : Filling bucketSize s weights) :
    Filling bucketSize (sendBucket false s) [] := by
  refine ⟨rfl,rfl,Nat.zero_le _,filling.size,.nil _,fun message member => ?_,fun message member => ?_⟩
  · rcases List.mem_append.mp member with old | new
    · exact filling.placed message old
    · obtain rfl := List.mem_singleton.mp new
      exact filling.wellPlaced false
  · rcases List.mem_append.mp member with old | new
    · exact filling.notLast message old
    · obtain rfl := List.mem_singleton.mp new
      rfl

theorem final_empty {s : Sender} (empty : Filling bucketSize s []) : final s = outcome s.sent := by
  rw [final,BucketedTransfer.sendBucket,outcome_append,empty.readBucket true]
  simp [layout]

theorem final_sendBucket {s : Sender} {weights : List Weight} (filling : Filling bucketSize s weights) :
    final (sendBucket false s) = final s := by
  rw [final_empty filling.sendBucket,final,BucketedTransfer.sendBucket,BucketedTransfer.sendBucket,outcome_append,
    outcome_append,filling.readBucket,filling.readBucket]

theorem directSend_step {s : Sender} (empty : Filling bucketSize s []) (entry : Weight) :
    Filling bucketSize (directSendLargeWeight entry.1 entry.2 s) [] ∧
      final (directSendLargeWeight entry.1 entry.2 s) = (final s).map (· ++ [entry]) := by
  have filling : Filling bucketSize (directSendLargeWeight entry.1 entry.2 s) [] := by
    refine ⟨empty.entries,empty.offset,empty.fits,empty.size,empty.packed,fun message member => ?_,
      fun message member => ?_⟩
    · rcases List.mem_append.mp member with old | new
      · exact empty.placed message old
      · obtain rfl := List.mem_singleton.mp new
        exact ⟨.nil,nofun⟩
    · rcases List.mem_append.mp member with old | new
      · exact empty.notLast message old
      · obtain rfl := List.mem_singleton.mp new
        rfl
  refine ⟨filling,?_⟩
  rw [final_empty filling,final_empty empty,directSendLargeWeight,outcome_append]
  cases outcome s.sent <;> rfl

theorem fill_step {s : Sender} {weights : List Weight} (filling : Filling bucketSize s weights) (entry : Weight)
    (fresh : entry.1 ∉ weights.map Prod.fst) (fits : s.offset + entry.2.nbytes ≤ bucketSize) :
    Filling bucketSize (fill entry.1 entry.2 s) (weights ++ [entry]) ∧
      final (fill entry.1 entry.2 s) =
        if entry.2.dtype.itemsize ∣ s.offset then (final s).map (· ++ [entry]) else none := by
  have absent : entry.1 ∉ s.bucketMeta.keys := by
    rwa [OrderedDict.keys,filling.entries,layout_names]
  have next : Filling bucketSize (fill entry.1 entry.2 s) (weights ++ [entry]) := by
    refine ⟨?_,?_,fits,?_,?_,filling.placed,filling.notLast⟩
    · rw [fill,OrderedDict.entries_set_fresh _ _ _ absent,filling.entries,layout_append,Nat.zero_add,filling.offset]
      rfl
    · rw [fill,total_append,total_cons,filling.offset]
      rfl
    · rw [fill,write_length _ _ _ (by rw [filling.size]; exact fits),filling.size]
    · rw [fill,filling.offset,pieces,List.map_append]
      exact filling.packed.write entry.2.bytes
  refine ⟨next,?_⟩
  rw [final,final,BucketedTransfer.sendBucket,BucketedTransfer.sendBucket,outcome_append,outcome_append,
    filling.readBucket,next.readBucket,layout_append,List.all_append,Nat.zero_add,← filling.offset]
  simp only [fill,List.all_cons,List.all_nil,Bool.and_true,place]
  by_cases divides : entry.2.dtype.itemsize ∣ s.offset
  · simp only [divides,decide_true,Bool.and_true,if_true]
    cases outcome s.sent with
    | none => rfl
    | some sofar => split <;> simp
  · simp only [divides,decide_false,Bool.and_false,if_false]
    cases outcome s.sent <;> simp

/-- A bucket without room is sent first. -/
theorem makeRoom_step {s : Sender} {weights : List Weight} (filling : Filling bucketSize s weights) (weight : TensorBytes.Tensor) :
    ∃ held, Filling bucketSize (makeRoom bucketSize weight s) held ∧ held.Sublist weights ∧
      final (makeRoom bucketSize weight s) = final s ∧
      (makeRoom bucketSize weight s).offset = (if s.offset + weight.nbytes > bucketSize then 0 else s.offset) ∧
      (s.offset + weight.nbytes > bucketSize → held = []) := by
  unfold makeRoom
  by_cases full : s.offset + weight.nbytes > bucketSize
  · by_cases empty : s.bucketMeta.entries = []
    · have none_ : weights = [] := by
        have names := layout_names 0 weights
        rw [← filling.entries,empty] at names
        exact List.map_eq_nil_iff.mp names.symm
      subst none_
      rw [if_neg (fun both => both.2 empty),if_pos full]
      exact ⟨[],filling,.refl _,rfl,filling.offset,fun _ => rfl⟩
    · rw [if_pos ⟨full,empty⟩,if_pos full]
      exact ⟨[],filling.sendBucket,List.nil_sublist _,final_sendBucket filling,rfl,fun _ => rfl⟩
  · rw [if_neg (fun both => full both.1),if_neg full]
    exact ⟨weights,filling,.refl _,rfl,rfl,fun absurd_ => absurd absurd_ full⟩

/-- One round: a tensor that is sent is added to what arrives, if it is aligned. -/
theorem sendWeight_step {s : Sender} {weights : List Weight} (filling : Filling bucketSize s weights) (useShm : Bool)
    (entry : Weight) (fresh : entry.1 ∉ weights.map Prod.fst) (fits : useShm = true → entry.2.nbytes ≤ bucketSize) :
    ∃ next held, sendWeight bucketSize useShm s entry = some next ∧ Filling bucketSize next held ∧
      held.Sublist (weights ++ [entry]) ∧ ∃ begins : Bool,
        final next = (if begins then (final s).map (· ++ [entry]) else none) ∧
        ∀ rest, aligned bucketSize s.offset (entry :: rest) = (begins && aligned bucketSize next.offset rest) := by
  obtain ⟨held,room,kept,same,offset,cleared⟩ := makeRoom_step filling entry.2
  obtain ⟨ready,made⟩ : ∃ ready, makeRoom bucketSize entry.2 s = ready := ⟨_,rfl⟩
  rw [made] at room same offset
  simp only [sendWeight,made]
  by_cases large : entry.2.nbytes > bucketSize
  · have full : s.offset + entry.2.nbytes > bucketSize := Nat.lt_of_lt_of_le large (Nat.le_add_left _ _)
    have plain : useShm = false := Bool.eq_false_iff.mpr (fun shm => Nat.not_le_of_gt large (fits shm))
    obtain rfl := cleared full
    rw [if_pos full] at offset
    obtain ⟨next,arrives⟩ := directSend_step room entry
    refine ⟨directSendLargeWeight entry.1 entry.2 ready,[],?_,next,List.nil_sublist _,true,?_,fun rest => ?_⟩
    · rw [if_pos (Nat.lt_of_lt_of_le large (Nat.le_add_left _ _)),plain]
      rfl
    · rw [arrives,same]
      rfl
    · rw [aligned,if_pos large,Bool.true_and,next.offset]
      rfl
  · have below : ready.offset + entry.2.nbytes ≤ bucketSize := by
      rw [offset]
      split <;> omega
    have unused : entry.1 ∉ held.map Prod.fst := fun member => fresh ((kept.map Prod.fst).subset member)
    obtain ⟨next,arrives⟩ := fill_step room entry unused below
    refine ⟨fill entry.1 entry.2 ready,held ++ [entry],if_neg (Nat.not_lt_of_le below),next,kept.append_right [entry],
      decide (entry.2.dtype.itemsize ∣ ready.offset),?_,fun rest => ?_⟩
    · rw [arrives,same]
      simp only [decide_eq_true_eq]
    · rw [aligned,if_neg large,fill,offset]

/-- The whole run: what arrives at its end is all, if every tensor is aligned. -/
theorem send_run (weights : List Weight) {s : Sender} {held : List Weight} (filling : Filling bucketSize s held)
    (useShm : Bool) (distinct : (held.map Prod.fst ++ weights.map Prod.fst).Nodup)
    (fits : useShm = true → ∀ entry ∈ weights, entry.2.nbytes ≤ bucketSize) :
    ∃ last kept, weights.foldlM (sendWeight bucketSize useShm) s = some last ∧ Filling bucketSize last kept ∧
      final last = if aligned bucketSize s.offset weights then (final s).map (· ++ weights) else none := by
  induction weights generalizing s held with
  | nil => exact ⟨s,held,rfl,filling,by cases final s <;> simp [aligned]⟩
  | cons entry rest ih =>
    have split := List.nodup_append.mp distinct
    have fresh : entry.1 ∉ held.map Prod.fst := fun member => split.2.2 _ member _ List.mem_cons_self rfl
    obtain ⟨next,kept,sent,filled,sublist,begins,arrives,next_aligned⟩ := sendWeight_step filling useShm entry fresh
      (fun shm => fits shm entry List.mem_cons_self)
    have later : (kept.map Prod.fst ++ rest.map Prod.fst).Nodup := by
      have whole : ((held ++ [entry]).map Prod.fst ++ rest.map Prod.fst).Nodup := by simpa using distinct
      exact whole.sublist ((sublist.map Prod.fst).append_right _)
    obtain ⟨last,final_held,ran,done,result⟩ := ih filled later
      (fun shm weight member => fits shm weight (List.mem_cons_of_mem entry member))
    refine ⟨last,final_held,?_,done,?_⟩
    · rw [List.foldlM_cons,sent]
      exact ran
    · rw [result,next_aligned rest,arrives]
      cases begins with
      | false => simp
      | true => cases final s <;> simp

/-- A large tensor cannot be sent through shared memory. -/
theorem send_large (weights : List Weight) (s : Sender) (entry : Weight) (member : entry ∈ weights)
    (large : entry.2.nbytes > bucketSize) : weights.foldlM (sendWeight bucketSize true) s = none := by
  induction weights generalizing s with
  | nil => nomatch member
  | cons first rest ih =>
    rw [List.foldlM_cons]
    cases sent : sendWeight bucketSize true s first with
    | none => rfl
    | some next =>
      rcases List.mem_cons.mp member with rfl | later
      · have full : (makeRoom bucketSize entry.2 s).offset + entry.2.nbytes > bucketSize :=
          Nat.lt_of_lt_of_le large (Nat.le_add_left _ _)
        simp [sendWeight,full] at sent
      · exact ih next later

theorem receive_all (sent : List (Message × List UInt8)) (last : Message × List UInt8)
    (open_ : ∀ message ∈ sent, message.1.isLast = false) (closed : last.1.isLast = true) :
    receiveWeights (sent ++ [last]) = (sent ++ [last]).mapM readBucket := by
  induction sent with
  | nil =>
    rw [List.nil_append,receiveWeights,List.mapM_cons,closed]
    rfl
  | cons message sent ih =>
    have rest := ih (fun m later => open_ m (List.mem_cons_of_mem message later))
    rw [List.cons_append,receiveWeights,List.mapM_cons,open_ message List.mem_cons_self,rest]
    cases readBucket message with
    | none => rfl
    | some weights => cases (sent ++ [last]).mapM readBucket <;> rfl

theorem filling_start (buffer : List UInt8) (size : buffer.length = bucketSize) :
    Filling bucketSize ({ buffer } : Sender) [] :=
  ⟨rfl,rfl,Nat.zero_le _,size,.nil _,nofun,nofun⟩

/-- What is sent and what arrives when no tensor is too large. -/
theorem transfer_run (useShm : Bool) (buffer : List UInt8) (weights : List Weight) (size : buffer.length = bucketSize)
    (distinct : (weights.map Prod.fst).Nodup) (fits : useShm = true → ∀ entry ∈ weights, entry.2.nbytes ≤ bucketSize) :
    ∃ sent, asyncSendWeights bucketSize useShm buffer weights = some sent ∧
      (receiveWeights sent).map List.flatten = (if aligned bucketSize 0 weights then some weights else none) ∧
      (∀ message ∈ sent, WellPlaced bucketSize message) ∧ sent.countP (·.1.isLast) = 1 := by
  obtain ⟨last,kept,ran,filling,result⟩ := send_run weights (filling_start buffer size) useShm (by simpa using distinct) fits
  refine ⟨(sendBucket true last).sent,?_,?_,fun message member => ?_,?_⟩
  · rw [asyncSendWeights,ran]
    rfl
  · have received : receiveWeights (sendBucket true last).sent = (sendBucket true last).sent.mapM readBucket :=
      receive_all last.sent _ filling.notLast rfl
    have nothing : final ({ buffer } : Sender) = some [] := final_empty (filling_start buffer size)
    rw [received]
    rw [nothing] at result
    exact result
  · rcases List.mem_append.mp member with old | new
    · exact filling.placed message old
    · obtain rfl := List.mem_singleton.mp new
      exact filling.wellPlaced true
  · have none_ : last.sent.countP (·.1.isLast) = 0 :=
      List.countP_eq_zero.mpr (fun message member => by simp [filling.notLast message member])
    rw [sendBucket,List.countP_append,none_]
    rfl

theorem Lossless.aligned {useShm : Bool} {buffer : List UInt8} {weights : List Weight}
    (lossless : Lossless bucketSize useShm buffer weights) (size : buffer.length = bucketSize)
    (distinct : (weights.map Prod.fst).Nodup) (fits : useShm = true → ∀ entry ∈ weights, entry.2.nbytes ≤ bucketSize) :
    BucketedTransfer.aligned bucketSize 0 weights = true := by
  obtain ⟨sent,lists,ran,got,_⟩ := lossless
  obtain ⟨messages,same,arrives,_⟩ := transfer_run useShm buffer weights size distinct fits
  obtain rfl := Option.some.inj (ran.symm.trans same)
  by_contra off
  rw [got,if_neg off] at arrives
  nomatch arrives

/-- The transfer is lossless exactly when every tensor that is not sent directly begins at a
multiple of its item size, and no tensor is too large for shared memory. -/
theorem transfer_lossless_iff (bucketSize : Nat) (useShm : Bool) (buffer : List UInt8) (weights : List Weight)
    (size : buffer.length = bucketSize) (distinct : (weights.map Prod.fst).Nodup) :
    Lossless bucketSize useShm buffer weights ↔
      (useShm = true → ∀ entry ∈ weights, entry.2.nbytes ≤ bucketSize) ∧ aligned bucketSize 0 weights = true := by
  constructor
  · intro lossless
    have fits : useShm = true → ∀ entry ∈ weights, entry.2.nbytes ≤ bucketSize := by
      rintro rfl entry member
      by_contra large
      obtain ⟨sent,_,ran,_⟩ := lossless
      rw [asyncSendWeights,send_large weights _ entry member (Nat.lt_of_not_le large)] at ran
      nomatch ran
    exact ⟨fits,lossless.aligned size distinct fits⟩
  · rintro ⟨fits,on⟩
    obtain ⟨sent,ran,arrives,placed,once⟩ := transfer_run useShm buffer weights size distinct fits
    rw [if_pos on] at arrives
    obtain ⟨lists,got,whole⟩ := Option.map_eq_some_iff.mp arrives
    exact ⟨sent,lists,ran,got,whole,placed,once⟩

end Run

section Examples

/-- Mixed item sizes, an empty tensor and one larger than the bucket. -/
def mixedWeights : List Weight :=
  [("a",⟨.float32,[1],[0,0,128,63],rfl⟩),("b",⟨.bfloat16,[1,1],[128,63],rfl⟩),("c",⟨.float16,[0],[],rfl⟩),
    ("d",⟨.uint8,[9],[1,2,3,4,5,6,7,8,9],rfl⟩),("e",⟨.uint8,[1],[7],rfl⟩)]

theorem lossless_mixed : Lossless 8 false (List.replicate 8 0) mixedWeights :=
  (transfer_lossless_iff 8 false (List.replicate 8 0) mixedWeights rfl (by decide)).mpr ⟨nofun,by decide⟩

/-- A byte, then a tensor of four-byte items. -/
def byteThenFloat : List Weight :=
  [("scale",⟨.uint8,[1],[7],rfl⟩),("gate.weight",⟨.float32,[1],[0,0,128,63],rfl⟩)]

theorem byte_then_float_example : ¬ Lossless (1 <<< 20) false (List.replicate (1 <<< 20) 0) byteThenFloat := by
  intro lossless
  have aligned_ := lossless.aligned List.length_replicate (by decide) nofun
  exact absurd aligned_ (by decide)

end Examples

end RelayOpd.BucketedTransfer
