import RelayOpd.RelayRun
import RelayOpd.MaskServer
import RelayOpd.MaskRoundTrip
import RelayOpd.FanIn

/-! Internal stop events: what the sampler records of them, what the server keeps,
and what `generate` strips from the engine's final tokens. -/
namespace RelayOpd

open FanIn

/-- One record of `_record_trigger_stop_events`. -/
structure StopRecord where
  requestId : String
  responsePos : Int
  specPos : Nat
  internalStopTokenId : Int
  studentRank : Option Int := none
  deriving DecidableEq, Repr

namespace StopRecord

def fields (r : StopRecord) : List (String × PyJson.Scalar) :=
  [("request_id",.str r.requestId),("response_pos",.int r.responsePos),("spec_pos",.int r.specPos),
    ("internal_stop_token_id",.int r.internalStopTokenId)] ++
    (r.studentRank.map (fun rank => ("student_rank_teacher_argmax_gt",.int rank))).toList

def toDict (r : StopRecord) : PyJson.FlatDict where
  fields := r.fields
  distinct := by cases h : r.studentRank <;> simp [fields,h]

/-- The record as the server decodes it. -/
def event (r : StopRecord) : StopEvent := PyJson.toValues r.toDict.fields

end StopRecord

section Record

/-- `_get_response_base_positions`. -/
def getResponseBasePositions (basePositions : Option (List Int)) (batchSize : Nat) : Option (List Int) :=
  match basePositions with
  | none => none
  | some xs => if xs.length < batchSize then none else some (xs.take batchSize)

variable (args : SamplerArgs α) (basePositions : Option (List Int)) (output : Nat → Nat → Int)
  (internalStopOutput : Nat → Nat → Bool) (studentTopkThreshold : Option (Nat → Nat → Int))

def stopRecord (rid : String) (responsePos : Int) (bi outPos : Nat) : StopRecord where
  requestId := rid
  responsePos := responsePos + outPos
  specPos := outPos
  internalStopTokenId := output bi outPos
  studentRank := (studentTopkThreshold.map (fun threshold => threshold bi outPos)).filter (fun x => 0 < x)

/-- The records of `_record_trigger_stop_events`, each sent to the server. -/
def recordTriggerStopEvents : List StopRecord :=
  match args.reqIds with
  | none => []
  | some ids =>
    if !Grid.any args.batchSize args.width internalStopOutput then []
    else
      let basePositions := getResponseBasePositions basePositions args.batchSize
      (List.range args.batchSize).flatMap (fun bi =>
        match ids.getD bi none with
        | none => []
        | some rid =>
          let responsePos := basePositions.elim 0 (fun xs => xs.getD bi 0)
          (Grid.nonzero args.width (internalStopOutput bi)).map
            (stopRecord output studentTopkThreshold (stripVllmSuffix rid) responsePos bi))

end Record

section Pop

/-- `int(v)` of a JSON value. No sender writes a float or a text there; they have no value here. -/
def intOf : PyJson.Value → Option Int
  | .int n => some n
  | .bool b => some (if b then 1 else 0)
  | _ => none

/-- `int(e.get("response_pos", 10**18))`. -/
def StopEvent.key (e : StopEvent) : Option Int :=
  match e.lookup "response_pos" with
  | none => some (10^18)
  | some v => intOf v

/-- `min(events, key=...)`: the first of the least ones. -/
def earliest (events : List StopEvent) : Except String (Option StopEvent) := do
  let keyed ← events.mapM (fun e =>
    match StopEvent.key e with
    | none => .error "int() argument must be a string, a bytes-like object or a real number"
    | some key => Except.ok (key,e))
  return (keyed.minOn? Prod.fst).map Prod.snd

def MaskStores.stopEvents (s : MaskStores) (rid : String) : List StopEvent :=
  (s.stopEventStore.get? rid).getD []

/-- `pop_stop_event`, given what each poll before the deadline sees and what is there at
the deadline. The second component is the stores it leaves. -/
def popStopEvent (requestId : String) (polls : List MaskStores) (deadline : MaskStores) :
    Except String (Option StopEvent) × MaskStores :=
  let seen := (polls.find? (fun s => !(s.stopEvents requestId).isEmpty)).getD deadline
  (earliest (seen.stopEvents requestId),{ seen with stopEventStore := seen.stopEventStore.pop requestId })

end Pop

section Generate

/-- `final_res.outputs[0]`; its log-probs hold one dictionary a token. -/
structure CompletionOutput where
  tokenIds : List Int
  logprobs : List (PyDict Int FloatWord)

/-- The `TokenOutput` of `generate`. -/
structure VllmTokenOutput where
  tokenIds : List Int
  logProbs : Option (List FloatWord)
  relayTeacherMask : Option (List Bool)
  studentActions : Option AlignedActions
  triggerStopped : Bool
  triggerStopPos : Option PyJson.Value

/-- What is left of the raw tokens, and the event unless it does not match them. The lengths
that an accepted event gets are only logged. -/
def applyStopEvent (rawTokenIds : List Int) (event : StopEvent) : List Int × Option StopEvent :=
  match (event.lookup "response_pos").bind intOf,(event.lookup "internal_stop_token_id").bind intOf with
  | some truncatePos,some internalStopId =>
    if 0 ≤ truncatePos ∧ truncatePos < rawTokenIds.length ∧
        rawTokenIds.getD truncatePos.toNat 0 = internalStopId then
      (rawTokenIds.take truncatePos.toNat,some event)
    else if truncatePos = rawTokenIds.length then (rawTokenIds,some event)
    else (rawTokenIds,none)
  | _,_ => (rawTokenIds,none)

/-- `logprobs[raw_token_ids[i]].logprob` for each entry of the output's log-probs. -/
def rawLogProbs (out : CompletionOutput) : Except String (List FloatWord) :=
  out.logprobs.zipIdx.mapM (fun entry =>
    match out.tokenIds[entry.2]? with
    | none => .error "list index out of range"
    | some token =>
      match entry.1.get? token with
      | none => .error (toString token)
      | some logprob => .ok logprob)

/-- The token sources of the final tokens. -/
def popTokenSources (requestId : String) (tokenIds : List Int) (polls : List MaskStores)
    (deadline : MaskStores) : Except String Popped := do
  let popped ← (popWithActions requestId tokenIds.length (some tokenIds) polls deadline).1
  match popped.mask with
  | none =>
    .error (s!"relay_teacher_mask missing for request_id={requestId}; " ++
      "IPC failed or the vLLM patch did not emit an absolute-position mask.")
  | some mask =>
    if mask.length ≠ tokenIds.length then
      .error (s!"relay_teacher_mask length mismatch after alignment for request_id={requestId}: " ++
        s!"got {mask.length}, expected {tokenIds.length}, diff={(tokenIds.length : Int) - mask.length}")
    else .ok popped

/-- `generate` from the engine's final output on. `maskIpc` is the speculative mode with its
server, `logprobs` whether log-probs were asked for; the stores are what the polls of the two
pops see. -/
def finishGenerate (maskIpc logprobs : Bool) (requestId : String) (out : CompletionOutput)
    (stopPolls : List MaskStores) (stopDeadline : MaskStores) (polls : List MaskStores)
    (deadline : MaskStores) : Except String VllmTokenOutput := do
  let popped ← (if maskIpc then (popStopEvent requestId stopPolls stopDeadline).1 else .ok none)
  let (tokenIds,event) := popped.elim (out.tokenIds,none) (applyStopEvent out.tokenIds)
  let logProbs ← (if logprobs then
      (fun raw => some (raw.take tokenIds.length)) <$> rawLogProbs out
    else .ok none)
  let sources ← (if maskIpc then popTokenSources requestId tokenIds polls deadline else .ok {})
  return {
    tokenIds := tokenIds
    logProbs := logProbs
    relayTeacherMask := sources.mask
    studentActions := sources.actions
    triggerStopped := event.isSome
    triggerStopPos := event.bind (fun e => e.lookup "response_pos") }

end Generate

section Facts

@[simp] theorem StopRecord.event_pos (r : StopRecord) :
    r.event.lookup "response_pos" = some (.int r.responsePos) := by
  simp [StopRecord.event,StopRecord.toDict,StopRecord.fields,PyJson.toValues,PyJson.Scalar.toValue,
    List.lookup]

@[simp] theorem StopRecord.event_token (r : StopRecord) :
    r.event.lookup "internal_stop_token_id" = some (.int r.internalStopTokenId) := by
  simp [StopRecord.event,StopRecord.toDict,StopRecord.fields,PyJson.toValues,PyJson.Scalar.toValue,
    List.lookup]

/-- A record's datagram is decoded as its event. -/
theorem StopRecord.sent (r : StopRecord) (external : r.requestId ≠ "") (clean : 0 ∉ utf8 r.requestId) :
    sendStopEventIpc true r.requestId r.toDict = some (datagram r.requestId (stopEventBody r.toDict)) ∧
      receive (datagram r.requestId (stopEventBody r.toDict)) = some (.stop r.requestId r.event) := by
  constructor
  · simp [sendStopEventIpc,external,StopRecord.toDict,StopRecord.fields]
  · simp only [receive_datagram _ _ clean,decodeStopEventPayload_stop]
    rfl

/-- The earliest of recorded events is one of them, and none of the others is before it. -/
theorem earliest_records (records : List StopRecord) (some_ : records ≠ []) :
    ∃ r ∈ records, earliest (records.map StopRecord.event) = .ok (some r.event) ∧
      ∀ other ∈ records, r.responsePos ≤ other.responsePos := by
  have keyed : (records.map StopRecord.event).mapM (fun e =>
      match StopEvent.key e with
      | none => Except.error "int() argument must be a string, a bytes-like object or a real number"
      | some key => Except.ok (key,e)) = Except.ok (records.map (fun r => (r.responsePos,r.event))) := by
    rw [List.mapM_map,LocalLoop.mapM_ok _ (fun r : StopRecord => (r.responsePos,r.event))]
    intro r _
    simp [StopEvent.key,intOf]
  obtain ⟨entry,least⟩ : ∃ entry, (records.map (fun r => (r.responsePos,r.event))).minOn? Prod.fst = some entry :=
    Option.isSome_iff_exists.mp (List.isSome_minOn?_iff.mpr (by simpa using some_))
  obtain ⟨r,member,rfl⟩ := List.mem_map.mp (List.minOn?_mem least)
  refine ⟨r,member,?_,fun other inside => ?_⟩
  · simp [earliest,keyed,least,bind,Except.bind,pure,Except.pure]
  · have le := List.apply_get_minOn?_le_of_mem (f := Prod.fst) (List.mem_map_of_mem
      (f := fun r : StopRecord => (r.responsePos,r.event)) inside)
    simpa [least] using le

theorem earliest_none : earliest [] = .ok none := rfl

/-- An event at the token it names cuts there. -/
theorem applyStopEvent_cut (raw : List Int) (r : StopRecord) (n : Nat) (here : r.responsePos = n)
    (token : raw[n]? = some r.internalStopTokenId) : applyStopEvent raw r.event = (raw.take n,some r.event) := by
  obtain ⟨bound,same⟩ := List.getElem?_eq_some_iff.mp token
  simp [applyStopEvent,intOf,here,bound,List.getD_eq_getElem?_getD,same]

/-- An event behind the tokens leaves them. -/
theorem applyStopEvent_behind (raw : List Int) (r : StopRecord) (behind : (raw.length : Int) ≤ r.responsePos) :
    (applyStopEvent raw r.event).1 = raw := by
  simp only [applyStopEvent,StopRecord.event_pos,StopRecord.event_token,Option.bind_some,intOf]
  rw [if_neg (by omega)]
  split <;> rfl

/-- With an entry for each token the raw log-probs are as many as the tokens. -/
theorem rawLogProbs_ok (out : CompletionOutput) (aligned : out.logprobs.length = out.tokenIds.length)
    (own : ∀ entry ∈ out.tokenIds.zip out.logprobs, entry.2.get? entry.1 ≠ none) :
    ∃ raw, rawLogProbs out = .ok raw ∧ raw.length = out.tokenIds.length := by
  have each : ∀ entry ∈ out.logprobs.zipIdx, ∃ logprob : FloatWord,
      (match out.tokenIds[entry.2]? with
      | none => Except.error "list index out of range"
      | some token =>
        match entry.1.get? token with
        | none => Except.error (toString token)
        | some logprob => Except.ok logprob) = Except.ok logprob ∧ True := by
    rintro ⟨dict,i⟩ member
    obtain ⟨bound,same⟩ := List.mem_zipIdx' member
    have within : i < out.tokenIds.length := aligned ▸ bound
    have pair : (out.tokenIds[i],out.logprobs[i]) ∈ out.tokenIds.zip out.logprobs := by
      rw [List.mem_iff_getElem]
      exact ⟨i,by simpa using ⟨within,bound⟩,by simp⟩
    obtain ⟨logprob,found⟩ := Option.ne_none_iff_exists'.mp (own _ pair)
    exact ⟨logprob,by simp [within,same,found],trivial⟩
  obtain ⟨raw,made,paired⟩ := LocalLoop.mapM_exists _ (fun _ _ => True) _ each
  exact ⟨raw,made,by simpa [aligned] using paired.length_eq.symm⟩

section Finish

variable {logprobs : Bool} {requestId : String} {out : CompletionOutput}
  {stopPolls polls : List MaskStores} {stopDeadline deadline : MaskStores} {event : Option StopEvent}
  (popped : (popStopEvent requestId stopPolls stopDeadline).1 = .ok event) (final : List Int)
  (cut : (event.elim (out.tokenIds,none) (applyStopEvent out.tokenIds)).1 = final)

include popped cut

/-- With its token sources popped, `generate` returns the cut tokens and as many log-probs. -/
theorem finishGenerate_ok (sources : Popped) (made : popTokenSources requestId final polls deadline = .ok sources)
    (within : final <+: out.tokenIds)
    (raw : List FloatWord) (read : logprobs = true → rawLogProbs out = .ok raw ∧ raw.length = out.tokenIds.length) :
    ∃ result, finishGenerate true logprobs requestId out stopPolls stopDeadline polls deadline = .ok result ∧
      result.tokenIds = final ∧ result.relayTeacherMask = sources.mask ∧
      (logprobs = true → ∃ xs, result.logProbs = some xs ∧ xs.length = final.length) := by
  have short := within.length_le
  obtain ⟨accepted,left⟩ : ∃ accepted, event.elim (out.tokenIds,none) (applyStopEvent out.tokenIds) =
      (final,accepted) := ⟨_,Prod.ext cut rfl⟩
  cases logprobs with
  | false =>
    refine ⟨⟨final,none,sources.mask,sources.actions,accepted.isSome,
      accepted.bind (fun e => e.lookup "response_pos")⟩,?_,rfl,rfl,by simp⟩
    simp only [finishGenerate,popped,left,made,bind,Except.bind,pure,Except.pure,if_true,Bool.false_eq_true,if_false]
  | true =>
    obtain ⟨ended,size⟩ := read rfl
    refine ⟨⟨final,some (raw.take final.length),sources.mask,sources.actions,accepted.isSome,
      accepted.bind (fun e => e.lookup "response_pos")⟩,?_,rfl,rfl,fun _ => ⟨_,rfl,?_⟩⟩
    · simp only [finishGenerate,popped,left,made,ended,bind,Except.bind,pure,Except.pure,if_true,Functor.map,Except.map]
    · rw [List.length_take,size]
      exact Nat.min_eq_left short

/-- Without its token sources it raises. -/
theorem finishGenerate_error (e : String) (raised : popTokenSources requestId final polls deadline = .error e)
    : finishGenerate true false requestId out stopPolls stopDeadline polls deadline = .error e := by
  simp [finishGenerate,popped,cut,raised,bind,Except.bind]

end Finish

end Facts

section Wire

/-- The stop events of one request that have arrived, by rank, and the server's stores. -/
structure StopWire (ranks : Nat) where
  arrived : List (Fin ranks × StopRecord)
  stores : MaskStores

variable {ranks : Nat} (ext : String) (records : List StopRecord)

/-- One datagram reaches the receiver: the next stop event of some rank, or traffic that is no
stop event of this request. -/
inductive StopArrives : StopWire ranks → StopWire ranks → Prop where
  | record (w : StopWire ranks) (r : Fin ranks) (record : StopRecord) (payload : List UInt8) (received : Received)
    (next : sentBy r w.arrived ++ [record] <+: records)
    (sent : sendStopEventIpc true record.requestId record.toDict = some payload)
    (read : receive payload = some received) :
    StopArrives w ⟨w.arrived ++ [(r,record)],w.stores.deliver received⟩
  | other (w : StopWire ranks) (received : Received) (foreign : ∀ event, received ≠ .stop ext event) :
    StopArrives w ⟨w.arrived,w.stores.deliver received⟩

/-- Before the request's first stop event nothing is stored for it. -/
def StopReachable (w : StopWire ranks) : Prop :=
  ∃ s : MaskStores, s.stopEvents ext = [] ∧ Relation.ReflTransGen (StopArrives ext records) ⟨[],s⟩ w

/-- The server polls for stop events while the ranks deliver, each in order; at the deadline
some event is in, if any was sent. -/
structure StopPolled (polls : List (StopWire ranks)) (deadline : StopWire ranks) : Prop where
  reached : ∀ w ∈ polls, StopReachable ext records w
  last : StopReachable ext records deadline
  timely : records ≠ [] → deadline.arrived ≠ []

variable {ext records} (own : ∀ r ∈ records, r.requestId = ext) (clean : 0 ∉ utf8 ext)

@[simp] theorem stopEvents_deliver_stop (s : MaskStores) (event : StopEvent) :
    (s.deliver (.stop ext event)).stopEvents ext = s.stopEvents ext ++ [event] := by
  simp [MaskStores.deliver,MaskStores.stopEvents,PyDict.getD_eq]

theorem stopEvents_deliver_other (s : MaskStores) (received : Received)
    (foreign : ∀ event, received ≠ .stop ext event) : (s.deliver received).stopEvents ext = s.stopEvents ext := by
  cases received with
  | ignored => rfl
  | chunk => rfl
  | stop rid event =>
    have apart : ext ≠ rid := by
      rintro rfl
      exact foreign event rfl
    simp [MaskStores.deliver,MaskStores.stopEvents,apart]

include own clean

/-- The store holds what arrived, and each rank has delivered a prefix. -/
theorem stopReachable_consistent (w : StopWire ranks) (reached : StopReachable ext records w) :
    w.stores.stopEvents ext = w.arrived.map (fun entry => entry.2.event) ∧ Delivered records w.arrived := by
  obtain ⟨s,fresh,run⟩ := reached
  induction run with
  | refl => exact ⟨fresh,Delivered.empty records⟩
  | tail _ step ih =>
    obtain ⟨stored,delivered⟩ := ih
    cases step with
    | record r record payload received next sent read =>
      have mine := own record (next.subset (by simp))
      by_cases external : record.requestId = ""
      · simp [sendStopEventIpc,external] at sent
      · obtain ⟨whole,heard⟩ := record.sent external (mine ▸ clean)
        obtain rfl := Option.some.inj (whole.symm.trans sent)
        obtain rfl := Option.some.inj (heard.symm.trans read)
        refine ⟨?_,delivered.arrive r record next⟩
        rw [mine,stopEvents_deliver_stop,stored,List.map_append]
        rfl
    | other received foreign => exact ⟨(stopEvents_deliver_other _ received foreign).trans stored,delivered⟩

/-- A pop returns a recorded event that no rank recorded another one before, in any order and
number of arrivals; nothing when nothing was recorded. -/
theorem popStopEvent_polled (polls : List (StopWire ranks)) (deadline : StopWire ranks)
    (polled : StopPolled ext records polls deadline) :
    (records = [] ∧ (popStopEvent ext (polls.map StopWire.stores) deadline.stores).1 = .ok none) ∨
    ∃ r ∈ records, (popStopEvent ext (polls.map StopWire.stores) deadline.stores).1 = .ok (some r.event) ∧
      ∀ head rest, records = head :: rest → r.responsePos ≤ head.responsePos := by
  obtain ⟨w,seen,reached,late⟩ : ∃ w : StopWire ranks,
      (popStopEvent ext (polls.map StopWire.stores) deadline.stores).1 = earliest (w.stores.stopEvents ext) ∧
        StopReachable ext records w ∧ (w.stores.stopEvents ext = [] → w = deadline) := by
    simp only [popStopEvent,List.find?_map]
    cases found : polls.find? ((fun s => !(s.stopEvents ext).isEmpty) ∘ StopWire.stores) with
    | none => exact ⟨deadline,rfl,polled.last,fun _ => rfl⟩
    | some w =>
      have filled := List.find?_some found
      refine ⟨w,rfl,polled.reached w (List.mem_of_find?_eq_some found),fun empty => ?_⟩
      simp [empty] at filled
  obtain ⟨stored,delivered⟩ := stopReachable_consistent own clean w reached
  by_cases quiet : w.arrived = []
  · have empty : w.stores.stopEvents ext = [] := by rw [stored,quiet]; rfl
    refine .inl ⟨?_,by rw [seen,empty,earliest_none]⟩
    by_contra some_
    exact polled.timely some_ (late empty ▸ quiet)
  · obtain ⟨r,member,least,before⟩ := earliest_records (w.arrived.map Prod.snd) (by simpa using quiet)
    rw [List.map_map] at least
    obtain ⟨⟨rank,_⟩,arrived,rfl⟩ := List.mem_map.mp member
    have sent := (delivered rank).subset ((mem_sentBy _ _ _).mpr arrived)
    refine .inr ⟨_,sent,by rw [seen,stored]; exact least,?_⟩
    rintro head rest rfl
    obtain ⟨more,whole⟩ := delivered rank
    have filled := List.ne_nil_of_mem ((mem_sentBy _ _ _).mpr arrived)
    obtain ⟨first,others,shape⟩ := List.exists_cons_of_ne_nil filled
    rw [shape,List.cons_append,List.cons.injEq] at whole
    obtain ⟨rfl,_⟩ := whole
    have inside : (rank,first) ∈ w.arrived := (mem_sentBy _ _ _).mp (by rw [shape]; exact List.mem_cons_self)
    exact before first (List.mem_map.mpr ⟨_,inside,rfl⟩)

/-- One rank may have delivered all its events when the deadline comes. -/
theorem exists_stopPolled (external : ext ≠ "") : ∃ w : StopWire 1, StopPolled ext records [] w := by
  have delivers : ∀ log : List StopRecord, log <+: records → ∃ w : StopWire 1,
      StopReachable ext records w ∧ w.arrived = log.map (fun r => ((0 : Fin 1),r)) := by
    intro log
    induction log using List.reverseRecOn with
    | nil => exact fun _ => ⟨⟨[],{}⟩,⟨{},rfl,.refl⟩,rfl⟩
    | append_singleton log r ih =>
      intro within
      obtain ⟨w,⟨s,fresh,run⟩,arrived⟩ := ih ((List.prefix_append _ _).trans within)
      have mine := own r (within.subset (by simp))
      obtain ⟨whole,heard⟩ := r.sent (mine ▸ external) (mine ▸ clean)
      have next : sentBy (0 : Fin 1) w.arrived ++ [r] <+: records := by
        rw [arrived]
        simpa [sentBy,List.filter_map,Function.comp_def] using within
      refine ⟨_,⟨s,fresh,run.tail (.record w 0 r _ _ next whole heard)⟩,?_⟩
      simp [arrived]
  obtain ⟨w,reached,arrived⟩ := delivers records (List.prefix_refl _)
  refine ⟨w,⟨by simp,reached,fun some_ empty => some_ ?_⟩⟩
  simpa [arrived] using empty

end Wire

end RelayOpd
