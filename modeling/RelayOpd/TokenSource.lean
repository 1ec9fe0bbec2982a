import RelayOpd.RelaySampler
import RelayOpd.MaskCodec

/-! The token sources of one engine step: the rows that
`_record_token_source_events` leaves pending, and the chunks that
`_patched_bookkeeping_sync` sends once the engine has kept a prefix of each row. -/
namespace RelayOpd

/-- What a sampler hands to the recorder. `recorded` says that the call got there. -/
structure SampleOutput where
  output : Nat → Nat → Int
  teacherOutput : Nat → Nat → Bool
  actions : Option ((Nat → Nat → Int) × (Nat → Nat → FloatWord)) := none
  recorded : Bool

def RelayResult.sampleOutput (result : RelayResult) : SampleOutput where
  output := result.tensors.output
  teacherOutput := result.tensors.teacherOutput
  actions := result.actions
  recorded := result.recorded

structure PendingRow where
  mask : List Bool := []
  tokens : List Int := []
  actions : List Int := []
  teacherActionLogps : List FloatWord := []
  deriving DecidableEq, Repr

section Record

variable (args : SamplerArgs α) (out : SampleOutput)

/-- The non-placeholder columns of a row. -/
def emittedColumns (bi : Nat) : List Nat :=
  Grid.nonzero args.width (fun c => isEmitted (out.output bi c))

def recordedColumns (bi : Nat) : List Nat :=
  (emittedColumns args out bi).filter (fun c =>
    let tok := out.output bi c
    !(tok == placeholderTokenId || tok < 0 || tok ≥ args.vocabSize))

def recordRow (bi : Nat) : PendingRow :=
  let columns := recordedColumns args out bi
  { mask := columns.map (fun c => out.teacherOutput bi c && isEmitted (out.output bi c))
    tokens := columns.map (out.output bi)
    actions := match out.actions with
      | none => []
      | some (actions,_) => columns.map (actions bi)
    teacherActionLogps := match out.actions with
      | none => []
      | some (_,logps) => columns.map (logps bi) }

/-- The pending rows, created at the first row that records a token. -/
def recordTokenSourceEvents : Option (List PendingRow) :=
  match args.reqIds with
  | none => none
  | some ids =>
    if !out.recorded || !Grid.any args.batchSize args.width (fun bi c => isEmitted (out.output bi c))
    then none
    else
      let rows := (List.range args.batchSize).map (fun bi =>
        if (ids.getD bi none).isSome then recordRow args out bi else {})
      if rows.all (fun row => row.tokens.isEmpty) then none else some rows

end Record

/-- What vLLM's bookkeeping returns, and the output tokens it has per request. -/
structure Bookkeeping where
  sampledTokenIds : List (List Int)
  reqIds : List (Option String)
  requests : String → Option (List Int)

def showIds (ids : List Int) : String := "[" ++ ", ".intercalate (ids.map toString) ++ "]"

section Flush

variable (nonSpecSample : Bool) (pendingRows : Option (List PendingRow))

/-- The sources of the tokens that bookkeeping kept of row `reqIdx`. -/
def sourceRow (rid : String) (reqIdx : Nat) (sampled : List Int) : Except String PendingRow :=
  let n := sampled.length
  if nonSpecSample then .ok { mask := List.replicate n false, tokens := sampled }
  else
    match pendingRows.bind (fun rows => rows[reqIdx]?) with
    | none =>
      .error ("[opd-rollout] speculative output has no pending mask row: " ++
        s!"rid={rid} req_idx={reqIdx} sampled_len={n}")
    | some row =>
      if row.tokens.take n ≠ sampled then
        .error ("[opd-rollout] pending mask tokens do not match vLLM bookkeeping output: " ++
          s!"rid={rid} row_head={showIds (row.tokens.take (min n 8))} " ++
          s!"sampled_head={showIds (sampled.take (min n 8))} row_len={row.tokens.length} sampled_len={n}")
      else .ok row

/-- The arguments of the row's `_send_mask_chunk_ipc` call. -/
def PendingRow.chunkArgs (row : PendingRow) (sampled : List Int) (endPos : Nat) : MaskArgs :=
  let n := sampled.length
  let startPos : Int := endPos - n
  { mask := row.mask.take n
    tokens := sampled
    positions := some ((List.range n).map (fun k : Nat => startPos + k))
    actions := if n ≤ row.actions.length then some (row.actions.take n) else none
    actionLogps := if n ≤ row.teacherActionLogps.length then some (row.teacherActionLogps.take n) else none }

variable (connected : Bool) (book : Bookkeeping)

/-- One row of the flush: the external id and the datagram sent under it, if any. -/
def flushRow (reqIdx : Nat) : Except String (Option (String × List UInt8)) :=
  let sampled := book.sampledTokenIds.getD reqIdx []
  match book.reqIds[reqIdx]? with
  | none => .ok none
  | some rid =>
    if sampled = [] then .ok none
    else
      match rid with
      | none => .ok none
      | some rid => do
        let row ← sourceRow nonSpecSample pendingRows rid reqIdx sampled
        match book.requests rid with
        | none => return none
        | some outputTokenIds =>
          let sent ← sendMaskChunkIpc connected (stripVllmSuffix rid)
            (row.chunkArgs sampled outputTokenIds.length)
          return sent.map (fun payload => (stripVllmSuffix rid,payload))

/-- The whole flush; the first failing row raises. -/
def flushMaskRows : Except String (List (String × List UInt8)) := do
  let sent ← (List.range book.sampledTokenIds.length).mapM
    (flushRow nonSpecSample pendingRows connected book)
  return sent.filterMap id

end Flush

end RelayOpd
