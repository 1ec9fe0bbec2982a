import RelayOpd.WeightBroadcast

/-! The buckets on their way from the sender to the receivers, what every step keeps of them,
and that every run ends with all weights at every receiver. -/
namespace RelayOpd.WeightBroadcast

open TensorBytes WeightChunks

/-- The chunks of a bucket in their places, and whether it is the last one. -/
abbrev Bucket := List Chunk × Bool

section Buckets

variable {bucketSize : Nat}

def pieces (chunks : List Chunk) : List (List UInt8) := chunks.map Prod.snd

def total (chunks : List Chunk) : Nat := (pieces chunks).flatten.length

/-- The buckets that the sender still broadcasts when one holds `current` up to `offset`. -/
def pack (bucketSize : Nat) : Nat → List Chunk → List Chunk → List Bucket
  | _,current,[] => [(current,true)]
  | offset,current,chunk :: rest =>
    if offset + chunk.1.chunkSize > bucketSize then
      (current,false) :: pack bucketSize chunk.1.chunkSize [place 0 chunk] rest
    else pack bucketSize (offset + chunk.1.chunkSize) (current ++ [place offset chunk]) rest

/-- Only the last of some buckets says so. -/
def Ends : List Bucket → Prop
  | [] => False
  | [bucket] => bucket.2 = true
  | bucket :: next :: rest => bucket.2 = false ∧ Ends (next :: rest)

/-- Chunks that lie one after the other from `offset` on. -/
def Laid : Nat → List Chunk → Prop
  | _,[] => True
  | offset,chunk :: rest =>
    chunk.1.offset = some offset ∧ chunk.2.length = chunk.1.chunkSize ∧ Laid (offset + chunk.1.chunkSize) rest

/-- Metadata and bytes of a bucket. -/
structure Carries (bucket : Bucket) (metadata : Metadata) (data : List UInt8) : Prop where
  entries : metadata.bucketMeta.entries.map Prod.snd = bucket.1.map Prod.fst
  isLast : metadata.isLast = bucket.2
  packed : Packed (pieces bucket.1) data
  laid : Laid 0 bucket.1

theorem total_append (first second : List Chunk) : total (first ++ second) = total first + total second := by
  simp [total,pieces]

theorem laid_append (offset : Nat) (chunks : List Chunk) (chunk : Chunk) :
    Laid offset (chunks ++ [chunk]) ↔ Laid offset chunks ∧ chunk.1.offset = some (offset + total chunks) ∧
      chunk.2.length = chunk.1.chunkSize := by
  induction chunks generalizing offset with
  | nil => simp [Laid,total,pieces]
  | cons first rest ih =>
    rw [List.cons_append,Laid,Laid,ih,show first :: rest = [first] ++ rest from rfl,total_append]
    have one : total [first] = first.2.length := by simp [total,pieces]
    constructor
    · rintro ⟨at_,size,laid,next,bytes⟩
      exact ⟨⟨at_,size,laid⟩,by rw [next,one,size,Nat.add_assoc],bytes⟩
    · rintro ⟨⟨at_,size,laid⟩,next,bytes⟩
      exact ⟨at_,size,laid,by rw [next,one,size,Nat.add_assoc],bytes⟩

/-- A chunk behind others begins where they end. -/
theorem Laid.behind {offset : Nat} {front rest : List Chunk} {chunk : Chunk} (laid : Laid offset (front ++ chunk :: rest)) :
    chunk.1.offset = some (offset + total front) ∧ chunk.2.length = chunk.1.chunkSize := by
  induction front generalizing offset with
  | nil => exact ⟨laid.1,laid.2.1⟩
  | cons first front ih =>
    obtain ⟨_,size,later⟩ := laid
    obtain ⟨at_,bytes⟩ := ih later
    rw [at_,show first :: front = [first] ++ front from rfl,total_append]
    have one : total [first] = first.2.length := by simp [total,pieces]
    exact ⟨by rw [one,size,Nat.add_assoc],bytes⟩

theorem ends_cons (bucket : Bucket) (rest : List Bucket) (open_ : bucket.2 = false) (ends : Ends rest) :
    Ends (bucket :: rest) := by
  cases rest with
  | nil => exact ends.elim
  | cons next rest => exact ⟨open_,ends⟩

theorem pack_ends (offset : Nat) (current chunks : List Chunk) : Ends (pack bucketSize offset current chunks) := by
  induction chunks generalizing offset current with
  | nil => rfl
  | cons chunk rest ih =>
    rw [pack]
    split
    · exact ends_cons _ _ rfl (ih _ _)
    · exact ih _ _

theorem pack_chunks (offset : Nat) (current chunks : List Chunk) :
    (pack bucketSize offset current chunks).flatMap Prod.fst = current ++ placeAll bucketSize offset chunks := by
  induction chunks generalizing offset current with
  | nil => simp [pack,placeAll]
  | cons chunk rest ih =>
    rw [pack,placeAll]
    split
    · rw [List.flatMap_cons,ih,Nat.zero_add]
      rfl
    · rw [ih,List.append_assoc]
      rfl

/-- After the last bucket nothing comes, and after another one something does. -/
theorem Ends.tail {bucket : Bucket} {rest : List Bucket} (ends : Ends (bucket :: rest)) :
    (bucket.2 = true ∧ rest = []) ∨ (bucket.2 = false ∧ Ends rest) := by
  cases rest with
  | nil => exact .inl ⟨ends,rfl⟩
  | cons next rest => exact .inr ends

end Buckets

section Invariants

variable {n : Nat} {bucketSize : Nat}

/-- The sender has `current` in its bucket, and another buffer is broadcast. -/
structure Filling (bucketSize : Nat) (s : Sender n) (current : List Chunk) : Prop where
  phase : s.phase = .filling
  entries : s.bucketMeta.entries = current.map (fun chunk => (chunk.1.name,chunk.1))
  offset : s.offset = total current
  laid : Laid 0 current
  packed : Packed (pieces current) (s.buffers s.sendBuf)
  other : ∀ op, s.broadcastOp = some op → op.bucket ≠ s.sendBuf
  sized : ∀ chunk ∈ s.pending, Sized bucketSize chunk
  full : (current ++ s.pending).Pairwise (FullBefore bucketSize)

/-- The buckets that come from the sender. -/
inductive Sending (bucketSize : Nat) (s : Sender n) : List Bucket → Prop where
  | filling (current : List Chunk) (filling : Filling bucketSize s current) :
    Sending bucketSize s (pack bucketSize s.offset current s.pending)
  | finishing (phase : s.phase = .finishing) : Sending bucketSize s []
  | done (phase : s.phase = .done) (idle : s.running = false) : Sending bucketSize s []

/-- The bucket of the broadcast in progress is in its buffer. -/
def Outbound (s : Sender n) (bucket : Bucket) : Prop :=
  ∀ op, s.broadcastOp = some op → s.running = true → Carries bucket op.metadata (s.buffers op.bucket)

/-- The bucket that has not gone to `r`. -/
def unsent (op : Option (Operation n)) (bucket : Bucket) (r : Fin n) : List Bucket :=
  match op with
  | some op => if op.sent r then [] else [bucket]
  | none => []

/-- What comes to a receiver by a broadcast into its free buffer, with the bucket that is there. -/
inductive Incoming (op : Option Receipt) (free : Bool) (buffers : Bool → List UInt8) (ahead : List Bucket) :
    List Bucket → Prop where
  | waiting (given : op = some ⟨free,none⟩) (ends : Ends ahead) : Incoming op free buffers ahead ahead
  | arrived (metadata : Metadata) (bucket : Bucket) (given : op = some ⟨free,some metadata⟩)
    (carries : Carries bucket metadata (buffers free)) (ends : Ends (bucket :: ahead)) :
    Incoming op free buffers ahead (bucket :: ahead)

/-- What comes while a bucket is read: nothing with the last one. -/
inductive Behind (op : Option Receipt) (free : Bool) (buffers : Bool → List UInt8) (ahead : List Bucket) :
    Bool → List Bucket → Prop where
  | last (idle : op = none) (empty : ahead = []) : Behind op free buffers ahead true []
  | more (coming : List Bucket) (incoming : Incoming op free buffers ahead coming) : Behind op free buffers ahead false coming

/-- The chunks that are left in the bucket that is read, and the buckets that come. -/
inductive Stage (s : Receiver) (ahead : List Bucket) : List Chunk → List Bucket → Prop where
  | start (phase : s.phase = .start) (op : s.broadcastOp = none) (ends : Ends ahead) : Stage s ahead [] ahead
  | awaiting (coming : List Bucket) (phase : s.phase = .awaiting)
    (incoming : Incoming s.broadcastOp (!s.sendBuf) s.buffers ahead coming) : Stage s ahead [] coming
  | reading (front todo : List Chunk) (isLast : Bool) (coming : List Bucket)
    (phase : s.phase = .reading (todo.map Prod.fst) isLast) (laid : Laid 0 (front ++ todo))
    (packed : Packed (pieces (front ++ todo)) (s.buffers s.sendBuf))
    (behind : Behind s.broadcastOp (!s.sendBuf) s.buffers ahead isLast coming) : Stage s ahead todo coming
  | done (phase : s.phase = .done) (op : s.broadcastOp = none) (empty : ahead = []) : Stage s ahead [] []

/-- What a receiver has merged, reads and still gets is `all`; or merging `all` fails. -/
inductive Tracks (bucketSize : Nat) (all : List Chunk) (s : Receiver) (wire : Wire) (later : List Bucket) : Prop where
  | reads (done todo : List Chunk) (queue coming : List Bucket)
    (wire_ : List.Forall₂ (fun message bucket => Carries bucket message.1 message.2) wire queue)
    (stage : Stage s (queue ++ later) todo coming) (whole : done ++ todo ++ coming.flatMap Prod.fst = all)
    (merged : mergeAll bucketSize (none,[]) done = some (s.merging,s.output))
  | fails (phase : s.phase = .crashed) (error : mergeAll bucketSize (none,[]) all = none)

/-- The buckets of all chunks are at the sender, on the wires or at the receivers. -/
structure Flows (bucketSize : Nat) (all : List Chunk) (s : System n) (future : List Bucket) (bucket : Bucket) : Prop where
  sending : Sending bucketSize s.sender future
  outbound : Outbound s.sender bucket
  tracks : ∀ r, Tracks bucketSize all (s.receivers r) (s.wires r) (unsent s.sender.broadcastOp bucket r ++ future)

theorem running_eq_true (s : Sender n) :
    s.running = true ↔ ∃ op, s.broadcastOp = some op ∧ ∃ r, op.sent r = false := by
  unfold Sender.running
  cases s.broadcastOp <;> simp

/-- A complete broadcast has gone to everybody. -/
theorem unsent_idle (s : Sender n) (idle : s.running = false) (bucket : Bucket) (r : Fin n) :
    unsent s.broadcastOp bucket r = [] := by
  cases given : s.broadcastOp with
  | none => rfl
  | some op =>
    refine if_pos ?_
    by_contra off
    rw [Bool.not_eq_true] at off
    rw [(running_eq_true s).mpr ⟨op,given,r,off⟩] at idle
    nomatch idle

theorem unsent_start (s : Sender n) (isLast : Bool) (bucket : Bucket) (r : Fin n) :
    unsent (startBroadcast isLast s).broadcastOp bucket r = [bucket] := rfl

theorem entries_fst (current : List Chunk) (d : OrderedDict String TensorMeta)
    (entries : d.entries = current.map (fun chunk => (chunk.1.name,chunk.1))) :
    d.entries.map Prod.snd = current.map Prod.fst ∧ d.keys = current.map (fun chunk => chunk.1.name) := by
  rw [OrderedDict.keys,entries,List.map_map,List.map_map]
  exact ⟨rfl,rfl⟩

/-- A chunk that fits is of a weight that is not in the bucket. -/
theorem fresh_name (current rest : List Chunk) (chunk : Chunk) (sized : Sized bucketSize chunk)
    (laid : Laid 0 current) (full : (current ++ chunk :: rest).Pairwise (FullBefore bucketSize))
    (fits : total current + chunk.1.chunkSize ≤ bucketSize) : chunk.1.name ∉ current.map (fun chunk => chunk.1.name) := by
  intro member
  obtain ⟨other,inside,same⟩ := List.mem_map.mp member
  have size := (List.pairwise_append.mp full).2.2 other inside chunk List.mem_cons_self same
  obtain ⟨front,back,rfl⟩ := List.append_of_mem inside
  have bytes := laid.behind.2
  have pos := sized.pos
  have whole : total (front ++ other :: back) = total front + (other.2.length + total back) := by
    rw [total_append,show other :: back = [other] ++ back from rfl,total_append]
    simp [total,pieces]
  omega

/-- The bucket being filled, as the metadata and the buffer that are broadcast. -/
theorem Filling.carries {s : Sender n} {current : List Chunk} (filling : Filling bucketSize s current) (isLast : Bool) :
    Carries (current,isLast) ⟨s.bucketMeta,isLast⟩ (s.buffers s.sendBuf) :=
  ⟨(entries_fst current s.bucketMeta filling.entries).1,rfl,filling.packed,filling.laid⟩

/-- A chunk is copied behind the others into `send_buf`. -/
theorem Filling.fill {s : Sender n} {current rest : List Chunk} {chunk : Chunk} (filling : Filling bucketSize s current)
    (given : s.pending = chunk :: rest) (fits : s.offset + chunk.1.chunkSize ≤ bucketSize) :
    ∃ next, fill bucketSize chunk rest s = next ∧ Filling bucketSize next (current ++ [place s.offset chunk]) ∧
      next.pending = rest ∧ next.offset = s.offset + chunk.1.chunkSize ∧ next.broadcastOp = s.broadcastOp ∧
      ∀ name, name ≠ s.sendBuf → next.buffers name = s.buffers name := by
  obtain ⟨phase,entries,offset,laid,packed,other,sized,full⟩ := filling
  rw [given] at sized full
  have first := sized chunk List.mem_cons_self
  have fresh : chunk.1.name ∉ s.bucketMeta.keys := by
    rw [(entries_fst current s.bucketMeta entries).2]
    exact fresh_name current rest chunk first laid full (offset ▸ fits)
  have sound : ¬ (s.offset + chunk.1.chunkSize > bucketSize ∨ chunk.1.name ∈ s.bucketMeta.keys) := by
    rintro (overrun | member)
    · exact Nat.not_lt_of_le fits overrun
    · exact fresh member
  have same : pieces (current ++ [place s.offset chunk]) = pieces current ++ [chunk.2] := by simp [pieces,place]
  refine ⟨_,if_neg sound,⟨phase,?_,?_,?_,?_,other,fun c later => sized c (List.mem_cons_of_mem chunk later),?_⟩,rfl,rfl,
    rfl,fun name ne => Function.update_of_ne ne _ _⟩
  · rw [List.map_append]
    exact (OrderedDict.entries_set_fresh _ _ _ fresh).trans (congrArg (· ++ _) entries)
  · rw [total_append]
    change s.offset + chunk.1.chunkSize = _
    rw [offset,← first.bytes]
    simp [total,pieces,place]
  · refine (laid_append 0 current _).mpr ⟨laid,?_,first.bytes⟩
    rw [Nat.zero_add,← offset]
    rfl
  · rw [same]
    change Packed _ (Function.update s.buffers s.sendBuf (write s.offset chunk.2 (s.buffers s.sendBuf)) s.sendBuf)
    rw [Function.update_self,offset]
    exact packed.write chunk.2
  · rw [List.append_assoc]
    obtain ⟨before,after,across⟩ := List.pairwise_append.mp full
    obtain ⟨first_,rest_⟩ := List.pairwise_cons.mp after
    refine List.pairwise_append.mpr ⟨before,List.pairwise_cons.mpr ⟨first_,rest_⟩,fun c inside d later => ?_⟩
    rcases List.mem_cons.mp later with rfl | later
    · exact across c inside chunk List.mem_cons_self
    · exact across c inside d (List.mem_cons_of_mem chunk later)

/-- The buffers swap, and the full one is broadcast. -/
theorem Filling.swap {s : Sender n} {current : List Chunk} (filling : Filling bucketSize s current) :
    Filling bucketSize { startBroadcast false s with sendBuf := !s.sendBuf, bucketMeta := .empty, offset := 0 } [] := by
  refine ⟨filling.phase,rfl,rfl,trivial,.nil _,fun op started => ?_,filling.sized,?_⟩
  · obtain rfl := Option.some.inj started
    simp
  · exact (List.pairwise_append.mp filling.full).2.1

/-- A step of the sender keeps the buckets that come to every receiver. -/
theorem sendWeights_step {s s' : Sender n} {future : List Bucket} {bucket : Bucket} (sending : Sending bucketSize s future)
    (outbound : Outbound s bucket) (moved : sendWeights bucketSize s = some s') :
    ∃ future' bucket', Sending bucketSize s' future' ∧ Outbound s' bucket' ∧
      ∀ r, unsent s'.broadcastOp bucket' r ++ future' = unsent s.broadcastOp bucket r ++ future := by
  cases sending with
  | done phase idle => simp [sendWeights,phase] at moved
  | finishing phase =>
    simp only [sendWeights,phase] at moved
    split at moved
    · nomatch moved
    · rename_i idle
      obtain rfl := Option.some.inj moved
      exact ⟨[],bucket,.done rfl (Bool.eq_false_iff.mpr idle),outbound,fun _ => rfl⟩
  | filling current filling =>
    simp only [sendWeights,filling.phase] at moved
    split at moved
    · rename_i chunk rest given
      have first := filling.sized chunk (given ▸ List.mem_cons_self)
      rw [given,pack]
      unfold makeRoom at moved
      split at moved
      · rename_i overrun
        rw [if_pos overrun]
        split at moved
        · nomatch moved
        · rename_i idle
          have quiet := unsent_idle s (Bool.eq_false_iff.mpr idle) bucket
          obtain ⟨next,made,filled,pending,offset,op,kept⟩ := filling.swap.fill given (by simpa using first.fits)
          obtain rfl : next = s' := made.symm.trans (Option.some.inj moved)
          refine ⟨_,(current,false),.filling _ filled,fun started given _ => ?_,fun r => ?_⟩
          · obtain rfl := Option.some.inj (op.symm.trans given)
            rw [kept _ (by simp)]
            exact filling.carries false
          · rw [op,unsent_start,quiet r,pending,offset,Nat.zero_add]
            rfl
      · rename_i below
        rw [if_neg below]
        obtain ⟨next,made,filled,pending,offset,op,kept⟩ := filling.fill given (Nat.le_of_not_lt below)
        obtain rfl : next = s' := made.symm.trans (Option.some.inj moved)
        refine ⟨_,bucket,.filling _ filled,fun started given running => ?_,fun r => ?_⟩
        · rw [op] at given
          rw [kept _ (filling.other started given)]
          refine outbound started given ?_
          rw [Sender.running,op] at running
          exact running
        · rw [op,pending,offset]
    · rename_i given
      split at moved
      · nomatch moved
      · rename_i idle
        obtain rfl := Option.some.inj moved
        refine ⟨[],(current,true),.finishing rfl,fun op started _ => ?_,fun r => ?_⟩
        · obtain rfl := Option.some.inj started
          exact filling.carries true
        · rw [unsent_idle s (Bool.eq_false_iff.mpr idle) bucket r,given]
          rfl

/-- The bytes of a bucket go to a receiver. -/
theorem Tracks.transfer {all : List Chunk} {s : Receiver} {wire : Wire} {bucket : Bucket} {later : List Bucket}
    (tracks : Tracks bucketSize all s wire (bucket :: later)) (metadata : Metadata) (bytes : List UInt8)
    (carries : Carries bucket metadata bytes) : Tracks bucketSize all s (wire ++ [(metadata,bytes)]) later := by
  cases tracks with
  | fails phase error => exact .fails phase error
  | reads done todo queue coming wire_ stage whole merged =>
    refine .reads done todo (queue ++ [bucket]) coming (List.rel_append wire_ (.cons carries .nil)) ?_ whole merged
    rw [List.append_assoc]
    exact stage

/-- A bucket comes into the free buffer. -/
theorem Incoming.arrive {op : Option Receipt} {free bucket : Bool} {buffers : Bool → List UInt8} {next : Bucket}
    {ahead coming : List Bucket} (incoming : Incoming op free buffers (next :: ahead) coming)
    (given : op = some ⟨bucket,none⟩) (metadata : Metadata) (bytes : List UInt8) (carries : Carries next metadata bytes) :
    bucket = free ∧ Incoming (some ⟨bucket,some metadata⟩) free (Function.update buffers bucket bytes) ahead coming := by
  cases incoming with
  | waiting op ends =>
    obtain ⟨rfl,-⟩ := Receipt.mk.inj (Option.some.inj (given.symm.trans op))
    refine ⟨rfl,.arrived metadata next rfl ?_ ends⟩
    rw [Function.update_self]
    exact carries
  | arrived first other op _ _ =>
    rw [given] at op
    nomatch op

theorem Tracks.arrive {all : List Chunk} {s : Receiver} {rest : Wire} {later : List Bucket} {bucket : Bool}
    {metadata : Metadata} {bytes : List UInt8} (tracks : Tracks bucketSize all s ((metadata,bytes) :: rest) later)
    (given : s.broadcastOp = some ⟨bucket,none⟩) :
    Tracks bucketSize all
      { s with buffers := Function.update s.buffers bucket bytes, broadcastOp := some ⟨bucket,some metadata⟩ } rest later := by
  cases tracks with
  | fails phase error => exact .fails phase error
  | reads done todo queue coming wire_ stage whole merged =>
    cases wire_ with
    | @cons _ next _ queue carries wire_ =>
      refine .reads done todo queue coming wire_ ?_ whole merged
      cases stage with
      | start _ op _ | done _ op _ =>
        rw [given] at op
        nomatch op
      | awaiting _ phase incoming => exact .awaiting coming phase (incoming.arrive given metadata bytes carries).2
      | reading front todo isLast _ phase laid packed behind =>
        cases behind with
        | last idle empty =>
          rw [given] at idle
          nomatch idle
        | more _ incoming =>
          obtain ⟨rfl,arrived⟩ := incoming.arrive given metadata bytes carries
          refine .reading front todo false coming phase laid ?_ (.more coming arrived)
          change Packed _ (Function.update s.buffers (!s.sendBuf) bytes s.sendBuf)
          rw [Function.update_of_ne (by simp)]
          exact packed

/-- The slice that is read is the chunk. -/
theorem slice_eq {front todo : List Chunk} {chunk : Chunk} {buffer : List UInt8} (laid : Laid 0 (front ++ chunk :: todo))
    (packed : Packed (pieces (front ++ chunk :: todo)) buffer) :
    (chunk.1,TensorBytes.read (chunk.1.offset.getD 0) chunk.1.chunkSize buffer) = chunk := by
  obtain ⟨at_,bytes⟩ := laid.behind
  rw [pieces,List.map_append,List.map_cons] at packed
  have piece := packed.read
  rw [Nat.zero_add] at at_
  rw [at_,← bytes]
  exact Prod.ext rfl piece

/-- What the merge of one more chunk does to the chunks that are merged. -/
theorem merge_next {all done rest : List Chunk} {chunk : Chunk} {state : Option Merging × List Weight}
    (whole : done ++ chunk :: rest = all) (merged : mergeAll bucketSize (none,[]) done = some state) :
    match mergeStep bucketSize state.1 chunk with
    | some (merging,weights) => mergeAll bucketSize (none,[]) (done ++ [chunk]) = some (merging,state.2 ++ weights)
    | none => mergeAll bucketSize (none,[]) all = none := by
  rw [← whole,mergeAll_append,mergeAll_append,merged,Option.bind_some,Option.bind_some,mergeAll,mergeAll]
  cases mergeStep bucketSize state.1 chunk with
  | none => rfl
  | some next => rfl

/-- A step of a receiver takes the next chunk, or the next bucket. -/
theorem receiveWeights_step {all : List Chunk} {s s' : Receiver} {wire : Wire} {later : List Bucket}
    (tracks : Tracks bucketSize all s wire later) (moved : receiveWeights bucketSize s = some s') :
    Tracks bucketSize all s' wire later := by
  cases tracks with
  | fails phase error => simp [receiveWeights,phase] at moved
  | reads done todo queue coming wire_ stage whole merged =>
    cases stage with
    | done phase op empty => simp [receiveWeights,phase] at moved
    | start phase op ends =>
      simp only [receiveWeights,phase] at moved
      obtain rfl := Option.some.inj moved
      exact .reads done [] queue _ wire_ (.awaiting _ rfl (.waiting rfl ends)) whole merged
    | awaiting _ phase incoming =>
      cases incoming with
      | waiting op ends => simp [receiveWeights,phase,op] at moved
      | arrived metadata bucket op carries ends =>
        simp only [receiveWeights,phase,op] at moved
        obtain rfl := Option.some.inj moved
        have same : done ++ bucket.1 ++ (queue ++ later).flatMap Prod.fst = all := by
          rw [← whole,List.flatMap_cons,List.append_nil,List.append_assoc]
        rcases ends.tail with ⟨last,empty⟩ | ⟨open_,ends⟩
        · refine .reads done bucket.1 queue [] wire_
            (.reading [] bucket.1 true [] ?_ carries.laid carries.packed (.last ?_ empty)) (by rw [← same,empty]) merged
          · rw [← carries.entries,← last,← carries.isLast]
          · exact if_pos (carries.isLast.trans last)
        · refine .reads done bucket.1 queue _ wire_
            (.reading [] bucket.1 false _ ?_ carries.laid carries.packed (.more _ (.waiting ?_ ends))) same merged
          · rw [← carries.entries,← open_,← carries.isLast]
          · rw [carries.isLast,open_,Bool.not_not]
            rfl
    | reading front todo isLast _ phase laid packed behind =>
      cases todo with
      | nil =>
        simp only [receiveWeights,phase,List.map_nil] at moved
        obtain rfl := Option.some.inj moved
        cases behind with
        | last idle empty => exact .reads done [] queue [] wire_ (.done rfl idle empty) whole merged
        | more _ incoming => exact .reads done [] queue coming wire_ (.awaiting coming rfl incoming) whole merged
      | cons chunk todo =>
        simp only [receiveWeights,phase,List.map_cons] at moved
        rw [slice_eq laid packed] at moved
        rw [List.append_assoc,List.cons_append] at whole
        have next := merge_next whole merged
        split at moved
        · rename_i merging weights step
          obtain rfl := Option.some.inj moved
          rw [step] at next
          refine .reads (done ++ [chunk]) todo queue coming wire_
            (.reading (front ++ [chunk]) todo isLast coming rfl ?_ ?_ behind) ?_ next
          · rwa [List.append_assoc]
          · rwa [List.append_assoc]
          · rw [← whole]
            simp
        · rename_i step
          obtain rfl := Option.some.inj moved
          rw [step] at next
          exact .fails rfl next

theorem unsent_transfer (op : Operation n) (bucket : Bucket) (r r' : Fin n) (off : op.sent r = false) :
    unsent (some op) bucket r' =
      if r' = r then [bucket] else unsent (some { op with sent := Function.update op.sent r true }) bucket r' := by
  by_cases same : r' = r
  · subst same
    rw [if_pos rfl,unsent,off]
    rfl
  · simp only [unsent,if_neg same,Function.update_of_ne same]

/-- A broadcast goes to one more receiver. -/
theorem transfer_step {all : List Chunk} {s s' : System n} {eager : Bool} {r : Fin n} {future : List Bucket} {bucket : Bucket}
    (flows : Flows bucketSize all s future bucket) (moved : transfer eager r s = some s') :
    Flows bucketSize all s' future bucket := by
  unfold transfer at moved
  split at moved
  · rename_i op given
    split at moved
    · nomatch moved
    · rename_i off
      rw [Bool.not_eq_true] at off
      split at moved
      · obtain rfl := Option.some.inj moved
        have running : s.sender.running = true := (running_eq_true s.sender).mpr ⟨op,given,r,off⟩
        have carries := flows.outbound op given running
        have split_ := unsent_transfer op bucket r
        refine ⟨?_,fun started same _ => ?_,fun r' => ?_⟩
        · cases flows.sending with
          | filling current filling =>
            refine .filling current { filling with other := fun started same => ?_ }
            obtain rfl := Option.some.inj same
            exact filling.other op given
          | finishing phase => exact .finishing phase
          | done phase idle =>
            rw [running] at idle
            nomatch idle
        · obtain rfl := Option.some.inj same
          exact carries
        · have tracks := flows.tracks r'
          rw [given,split_ r' off] at tracks
          by_cases same : r' = r
          · subst same
            rw [if_pos rfl] at tracks
            have sent := tracks.transfer op.metadata (s.sender.buffers op.bucket) carries
            simpa [unsent] using sent
          · rw [if_neg same] at tracks
            simpa only [Function.update_of_ne same] using tracks
      · nomatch moved
  · nomatch moved

theorem arrive_step {all : List Chunk} {s s' : System n} {r : Fin n} {future : List Bucket} {bucket : Bucket}
    (flows : Flows bucketSize all s future bucket) (moved : arrive r s = some s') :
    Flows bucketSize all s' future bucket := by
  unfold arrive at moved
  split at moved
  · rename_i free metadata bytes rest given wire
    obtain rfl := Option.some.inj moved
    refine ⟨flows.sending,flows.outbound,fun r' => ?_⟩
    have tracks := flows.tracks r'
    by_cases same : r' = r
    · subst same
      rw [wire] at tracks
      simpa using tracks.arrive given
    · simpa only [Function.update_of_ne same] using tracks
  · nomatch moved

theorem Flows.step {all : List Chunk} {s s' : System n} {eager : Bool} {future : List Bucket} {bucket : Bucket}
    (flows : Flows bucketSize all s future bucket) (action : Action n) (moved : step bucketSize eager s action = some s') :
    ∃ future' bucket', Flows bucketSize all s' future' bucket' := by
  cases action with
  | sender =>
    obtain ⟨sender,next,rfl⟩ := Option.map_eq_some_iff.mp moved
    obtain ⟨future',bucket',sending,outbound,same⟩ := sendWeights_step flows.sending flows.outbound next
    exact ⟨future',bucket',sending,outbound,fun r => by rw [same r]; exact flows.tracks r⟩
  | transfer r => exact ⟨future,bucket,transfer_step flows moved⟩
  | arrive r => exact ⟨future,bucket,arrive_step flows moved⟩
  | receiver r =>
    obtain ⟨receiver,next,rfl⟩ := Option.map_eq_some_iff.mp moved
    refine ⟨future,bucket,flows.sending,flows.outbound,fun r' => ?_⟩
    have tracks := flows.tracks r'
    by_cases same : r' = r
    · subst same
      simpa using receiveWeights_step tracks next
    · simpa only [Function.update_of_ne same] using tracks

theorem Flows.init (n : Nat) (positive : 0 < bucketSize) (weights : List Weight) (distinct : (weights.map Prod.fst).Nodup) :
    Flows bucketSize (placeAll bucketSize 0 (splitWeightChunks bucketSize weights)) (init bucketSize n weights)
      (pack bucketSize 0 [] (splitWeightChunks bucketSize weights)) ([],true) := by
  have filling : Filling bucketSize (WeightBroadcast.init bucketSize n weights).sender [] :=
    ⟨rfl,rfl,rfl,trivial,.nil _,(fun _ given => nomatch given),splitWeightChunks_sized positive weights,
      splitWeightChunks_full positive weights distinct⟩
  refine ⟨.filling [] filling,(fun _ given => nomatch given),fun _ => ?_⟩
  exact .reads [] [] [] _ .nil (.start rfl rfl (pack_ends 0 [] _)) (pack_chunks 0 [] _) rfl

/-- The buckets flow in every run. -/
theorem run_flows {all : List Chunk} {eager : Bool} (actions : List (Action n)) :
    ∀ {s s' : System n} {future : List Bucket} {bucket : Bucket}, Flows bucketSize all s future bucket →
      run bucketSize eager s actions = some s' → ∃ future' bucket', Flows bucketSize all s' future' bucket' := by
  induction actions with
  | nil =>
    intro s s' future bucket flows ran
    obtain rfl := Option.some.inj ran
    exact ⟨future,bucket,flows⟩
  | cons action actions ih =>
    intro s s' future bucket flows ran
    rw [run,List.foldlM_cons,Option.bind_eq_bind,Option.bind_eq_some_iff] at ran
    obtain ⟨next,moved,ran⟩ := ran
    obtain ⟨future',bucket',flows'⟩ := flows.step action moved
    exact ih flows' ran

end Invariants

end RelayOpd.WeightBroadcast
