import RelayOpd.WeightChunks
import Mathlib.Algebra.BigOperators.Fin
import Mathlib.Algebra.Order.BigOperators.Group.Finset

/-! Chunks broadcast through two buffers at each side: the sender fills one while the other is
broadcast, and a receiver reads one while the next bucket comes into the other. -/
namespace RelayOpd.WeightBroadcast

open TensorBytes WeightChunks

structure Metadata where
  bucketMeta : OrderedDict String TensorMeta
  isLast : Bool

/-- A `BroadcastOperation` of the sender, with the receivers that its bucket has gone to. -/
structure Operation (n : Nat) where
  bucket : Bool
  metadata : Metadata
  sent : Fin n → Bool

/-- A `BroadcastOperation` of a receiver; it has the metadata when it is complete. -/
structure Receipt where
  bucket : Bool
  metadata : Option Metadata

inductive SenderPhase where
  | filling
  | finishing
  | done
  | crashed
deriving DecidableEq

/-- The buffers are named by a truth value; `sendBuf` says which is `send_buf` now. -/
structure Sender (n : Nat) where
  pending : List Chunk
  buffers : Bool → List UInt8
  sendBuf : Bool := false
  bucketMeta : OrderedDict String TensorMeta := .empty
  offset : Nat := 0
  broadcastOp : Option (Operation n) := none
  phase : SenderPhase := .filling

inductive ReceiverPhase where
  | start
  | awaiting
  | reading (todo : List TensorMeta) (isLast : Bool)
  | done
  | crashed

/-- A receiver with the state of its `merge_weight_chunks` and the weights copied so far;
`recv_buf` is the other buffer. -/
structure Receiver where
  buffers : Bool → List UInt8
  sendBuf : Bool := false
  broadcastOp : Option Receipt := none
  phase : ReceiverPhase := .start
  merging : Option Merging := none
  output : List Weight := []

/-- Metadata and bytes of one broadcast on the way to a receiver. -/
abbrev Wire := List (Metadata × List UInt8)

structure System (n : Nat) where
  sender : Sender n
  wires : Fin n → Wire
  receivers : Fin n → Receiver

inductive Action (n : Nat) where
  | sender
  | transfer (r : Fin n)
  | arrive (r : Fin n)
  | receiver (r : Fin n)

section Steps

variable {n : Nat} (bucketSize : Nat)

/-- The last broadcast is still in progress. -/
def Sender.running (s : Sender n) : Bool :=
  match s.broadcastOp with
  | some op => decide (∃ r, op.sent r = false)
  | none => false

def startBroadcast (isLast : Bool) (s : Sender n) : Sender n :=
  { s with broadcastOp := some ⟨s.sendBuf,⟨s.bucketMeta,isLast⟩,fun _ => false⟩ }

/-- A full bucket is broadcast once the previous broadcast is complete, and the buffers swap. -/
def makeRoom (chunkSize : Nat) (s : Sender n) : Option (Sender n) :=
  if s.offset + chunkSize > bucketSize then
    if s.running then none
    else some { startBroadcast false s with sendBuf := !s.sendBuf, bucketMeta := .empty, offset := 0 }
  else some s

/-- The two assertions, and the copy of the chunk into `send_buf`. -/
def fill (chunk : Chunk) (rest : List Chunk) (s : Sender n) : Sender n :=
  if s.offset + chunk.1.chunkSize > bucketSize ∨ chunk.1.name ∈ s.bucketMeta.keys then { s with phase := .crashed }
  else
    { s with
      pending := rest
      bucketMeta := s.bucketMeta.set chunk.1.name (place s.offset chunk).1
      buffers := Function.update s.buffers s.sendBuf (write s.offset chunk.2 (s.buffers s.sendBuf))
      offset := s.offset + chunk.1.chunkSize }

/-- `send_weights` up to its next wait or chunk. -/
def sendWeights (s : Sender n) : Option (Sender n) :=
  match s.phase with
  | .filling =>
    match s.pending with
    | chunk :: rest => (makeRoom bucketSize chunk.1.chunkSize s).map (fill bucketSize chunk rest)
    | [] => if s.running then none else some { startBroadcast true s with phase := .finishing }
  | .finishing => if s.running then none else some { s with phase := .done }
  | _ => none

/-- `_receive_weight_chunks` and its consumers up to the next wait or chunk. -/
def receiveWeights (s : Receiver) : Option Receiver :=
  match s.phase with
  | .start => some { s with broadcastOp := some ⟨!s.sendBuf,none⟩, phase := .awaiting }
  | .awaiting =>
    match s.broadcastOp with
    | some ⟨_,some metadata⟩ =>
      some { s with
        sendBuf := !s.sendBuf
        broadcastOp := if metadata.isLast then none else some ⟨s.sendBuf,none⟩
        phase := .reading (metadata.bucketMeta.entries.map Prod.snd) metadata.isLast }
    | _ => none
  | .reading (tensorMeta :: todo) isLast =>
    let slice := (tensorMeta,read (tensorMeta.offset.getD 0) tensorMeta.chunkSize (s.buffers s.sendBuf))
    match mergeStep bucketSize s.merging slice with
    | some (merging,weights) =>
      some { s with merging := merging, output := s.output ++ weights, phase := .reading todo isLast }
    | none => some { s with phase := .crashed }
  | .reading [] isLast => some { s with phase := if isLast then .done else .awaiting }
  | _ => none

/-- The bytes of the sender's broadcast go to one receiver. When the transport does not buffer,
the receiver must have called for them. -/
def transfer (eager : Bool) (r : Fin n) (s : System n) : Option (System n) :=
  match s.sender.broadcastOp with
  | some op =>
    if op.sent r then none
    else if eager || ((s.wires r).isEmpty && (s.receivers r).broadcastOp.any (·.metadata.isNone)) then
      some { s with
        sender := { s.sender with broadcastOp := some { op with sent := Function.update op.sent r true } }
        wires := Function.update s.wires r (s.wires r ++ [(op.metadata,s.sender.buffers op.bucket)]) }
    else none
  | none => none

/-- The next bucket comes into the buffer of the receiver's broadcast. -/
def arrive (r : Fin n) (s : System n) : Option (System n) :=
  match (s.receivers r).broadcastOp,s.wires r with
  | some ⟨bucket,none⟩,(metadata,bytes) :: rest =>
    let receiver := { s.receivers r with
      buffers := Function.update (s.receivers r).buffers bucket bytes, broadcastOp := some ⟨bucket,some metadata⟩ }
    some { s with wires := Function.update s.wires r rest, receivers := Function.update s.receivers r receiver }
  | _,_ => none

def step (eager : Bool) (s : System n) : Action n → Option (System n)
  | .sender => (sendWeights bucketSize s.sender).map (fun sender => { s with sender := sender })
  | .transfer r => transfer eager r s
  | .arrive r => arrive r s
  | .receiver r =>
    (receiveWeights bucketSize (s.receivers r)).map
      (fun receiver => { s with receivers := Function.update s.receivers r receiver })

def run (eager : Bool) (s : System n) (actions : List (Action n)) : Option (System n) :=
  actions.foldlM (step bucketSize eager) s

/-- `prepare` gives every rank two buffers of zeros. -/
def zeros : Bool → List UInt8 := fun _ => List.replicate bucketSize 0

def init (n : Nat) (weights : List Weight) : System n where
  sender := { pending := splitWeightChunks bucketSize weights, buffers := zeros bucketSize }
  wires _ := []
  receivers _ := { buffers := zeros bucketSize }

/-- No assertion has failed, the sender does not fill a buffer that is being broadcast, and no
bucket comes into a buffer that is read. -/
structure Safe (s : System n) : Prop where
  sender : s.sender.phase ≠ .crashed
  receivers : ∀ r, (s.receivers r).phase ≠ .crashed
  filling : ∀ op, s.sender.broadcastOp = some op → s.sender.running = true → s.sender.phase = .filling →
    op.bucket ≠ s.sender.sendBuf
  reading : ∀ r op todo isLast, (s.receivers r).broadcastOp = some op → op.metadata = none →
    (s.receivers r).phase = .reading todo isLast → op.bucket ≠ (s.receivers r).sendBuf

/-- Every run is safe and ends, and where nothing can move on, everybody is done and every
receiver has yielded the weights. -/
structure Lossless (n : Nat) (eager : Bool) (weights : List Weight) : Prop where
  safe : ∀ actions s, run bucketSize eager (init bucketSize n weights) actions = some s → Safe s
  ends : ∃ bound, ∀ actions s, run bucketSize eager (init bucketSize n weights) actions = some s →
    actions.length ≤ bound
  complete : ∀ actions s, run bucketSize eager (init bucketSize n weights) actions = some s →
    (∀ action, step bucketSize eager s action = none) →
    s.sender.phase = .done ∧ ∀ r, (s.receivers r).phase = .done ∧ (s.receivers r).output = weights

end Steps

end RelayOpd.WeightBroadcast
