import RelayOpd.MaskCodec

/-! `OpdMaskIpcServer`: the stores that the receiver thread fills, and the
alignment of their events with the final token ids. -/
namespace RelayOpd

abbrev StopEvent := List (String × PyJson.Value)

structure MaskStores where
  maskStore : PyDict String (List Bool) := .empty
  tokenStore : PyDict String (List Int) := .empty
  positionStore : PyDict String (List Int) := .empty
  actionStore : PyDict String (List Int) := .empty
  actionLogpStore : PyDict String (List FloatWord) := .empty
  stopEventStore : PyDict String (List StopEvent) := .empty

namespace MaskStores

/-- `store[rid].extend(xs)` for a list that may be absent. -/
def extendBy (d : PyDict String (List α)) (rid : String) (xs : Option (List α)) :
    PyDict String (List α) :=
  match xs with
  | none => d
  | some xs => d.extend rid xs

@[simp] theorem get?_extendBy_same (d : PyDict String (List α)) (rid : String)
    (xs : Option (List α)) :
    (extendBy d rid xs).get? rid = PyDict.gatherStep (d.get? rid) xs := by
  cases xs <;> simp [extendBy,PyDict.gatherStep,PyDict.getD_eq]

@[simp] theorem get?_extendBy_other (d : PyDict String (List α)) (rid other : String)
    (xs : Option (List α)) (apart : rid ≠ other) : (extendBy d other xs).get? rid = d.get? rid := by
  cases xs <;> simp [extendBy,apart]

/-- The store updates of one turn of `_loop`. -/
def deliver (s : MaskStores) : Received → MaskStores
  | .ignored => s
  | .stop rid event => { s with stopEventStore := s.stopEventStore.extend rid [event] }
  | .chunk rid c =>
    { s with
      maskStore := extendBy s.maskStore rid (some c.mask)
      tokenStore := extendBy s.tokenStore rid c.tokens
      positionStore := extendBy s.positionStore rid c.positions
      actionStore := extendBy s.actionStore rid c.actions
      actionLogpStore := extendBy s.actionLogpStore rid c.actionLogps }

/-- What the stores hold for one request. -/
structure Entry where
  mask : Option (List Bool)
  tokens : Option (List Int)
  positions : Option (List Int)
  actions : Option (List Int)
  actionLogps : Option (List FloatWord)
  deriving DecidableEq, Repr

def entry (s : MaskStores) (rid : String) : Entry where
  mask := s.maskStore.get? rid
  tokens := s.tokenStore.get? rid
  positions := s.positionStore.get? rid
  actions := s.actionStore.get? rid
  actionLogps := s.actionLogpStore.get? rid

/-- The five stores after a pop; stop events have a pop of their own. -/
def pop (s : MaskStores) (rid : String) : MaskStores :=
  { s with
    maskStore := s.maskStore.pop rid
    tokenStore := s.tokenStore.pop rid
    positionStore := s.positionStore.pop rid
    actionStore := s.actionStore.pop rid
    actionLogpStore := s.actionLogpStore.pop rid }

end MaskStores

section Align

/-- A Python list of integers in an f-string. -/
def showInts (xs : List Nat) : String := "[" ++ ", ".intercalate (xs.map toString) ++ "]"

structure AlignState where
  aligned : List Bool
  seenPositions : Finset Nat := ∅
  ignoredOob : Nat := 0

def AlignState.coverage (s : AlignState) (expectedLen : Nat) (missing : List Nat) : String :=
  s!"covered={s.seenPositions.card}, expected={expectedLen}, " ++
    s!"missing_head={showInts (missing.take 8)}, ignored_oob={s.ignoredOob}"

variable (tokenIds : List Int) (requestId : String)

/-- The loop body of `_align_mask_by_positions`. -/
def alignEvent (s : AlignState) (i : Nat) (isTeacher : Bool) (pos : Int) (eventTok : Option Int) :
    Except String AlignState :=
  let expectedLen := tokenIds.length
  if pos < 0 then
    .error (s!"OPD2 position out of range for request_id={requestId}: " ++
      s!"pos={pos}, expected_len={expectedLen}, event_index={i}")
  else if pos ≥ expectedLen then .ok { s with ignoredOob := s.ignoredOob + 1 }
  else
    let finalTok := tokenIds.getD pos.toNat 0
    let placed : AlignState :=
      { s with
        aligned := s.aligned.set pos.toNat (s.aligned.getD pos.toNat false || isTeacher)
        seenPositions := insert pos.toNat s.seenPositions }
    match eventTok with
    | none => .ok placed
    | some eventTok =>
      if eventTok ≠ finalTok then
        .error (s!"OPD2 token mismatch for request_id={requestId}: " ++
          s!"pos={pos}, event_token={eventTok}, final_token={finalTok}, event_index={i}")
      else .ok placed

variable (mask : List Bool) (eventTokens : Option (List Int)) (eventPositions : List Int)

/-- The loop over the first `count` events. -/
def alignEvents (count : Nat) : Except String AlignState :=
  (List.range count).foldlM
    (fun s i => alignEvent tokenIds requestId s i (mask.getD i false) (eventPositions.getD i 0)
      (eventTokens.map (fun ts => ts.getD i 0)))
    { aligned := List.replicate tokenIds.length false }

theorem alignEvents_succ (count : Nat) :
    alignEvents tokenIds requestId mask eventTokens eventPositions (count + 1) =
      (alignEvents tokenIds requestId mask eventTokens eventPositions count).bind (fun s =>
        alignEvent tokenIds requestId s count (mask.getD count false) (eventPositions.getD count 0)
          (eventTokens.map (fun ts => ts.getD count 0))) := by
  rw [alignEvents,List.range_succ,List.foldlM_append]
  simp only [List.foldlM_cons,List.foldlM_nil,bind_pure]
  rfl

def alignMaskByPositions : Except String (List Bool) :=
  let expectedLen := tokenIds.length
  let sameTokens := match eventTokens with
    | none => true
    | some ts => ts.length == mask.length
  if !(mask.length == eventPositions.length && sameTokens) then
    .error (s!"OPD2 malformed event lengths for request_id={requestId}: " ++
      s!"mask={mask.length}, tokens={showLength eventTokens}, " ++
      s!"positions={eventPositions.length}, expected={expectedLen}")
  else do
    let s ← alignEvents tokenIds requestId mask eventTokens eventPositions mask.length
    let missing := (List.range expectedLen).filter (fun j => j ∉ s.seenPositions)
    if missing ≠ [] then
      .error (s!"OPD2 position coverage incomplete for request_id={requestId}: " ++
        s.coverage expectedLen missing)
    else .ok s.aligned

structure AlignedActions where
  actions : List Int
  logps : List FloatWord
  mask : List Bool
  deriving DecidableEq, Repr

/-- One finite event of `_align_actions_by_positions`; the rest are skipped. -/
def alignAction (expectedLen : Nat) (s : AlignedActions) (event : Int × FloatWord × Int) :
    AlignedActions :=
  let (action,actionLogp,pos) := event
  if pos < 0 ∨ pos ≥ expectedLen then s
  else if !actionLogp.isFinite then s
  else
    { actions := s.actions.set pos.toNat action
      logps := s.logps.set pos.toNat actionLogp
      mask := s.mask.set pos.toNat true }

def alignActionsByPositions (eventPositions : List Int) (actionTokens : Option (List Int)) (actionLogps : Option (List FloatWord)) :
    Except String (Option AlignedActions) :=
  match actionTokens,actionLogps with
  | some actionTokens,some actionLogps =>
    if actionTokens.length ≠ eventPositions.length ∨ actionLogps.length ≠ eventPositions.length then
      .error ("OPD3 malformed action lengths: " ++ s!"actions={actionTokens.length}, " ++
        s!"action_logps={actionLogps.length}, positions={eventPositions.length}")
    else
      let expectedLen := tokenIds.length
      let blank : AlignedActions :=
        { actions := tokenIds
          logps := List.replicate expectedLen FloatWord.nan
          mask := List.replicate expectedLen false }
      .ok (some ((actionTokens.zip (actionLogps.zip eventPositions)).foldl
        (alignAction expectedLen) blank))
  | _,_ => .ok none

end Align

section Pop

structure Popped where
  mask : Option (List Bool) := none
  actions : Option AlignedActions := none
  deriving DecidableEq, Repr

/-- The alignment that both exits of `pop_with_actions` share. -/
def alignEntry (e : MaskStores.Entry) (mask : List Bool) (positions : List Int)
    (tokenIds : List Int) (requestId : String) : Except String Popped := do
  let aligned ← alignMaskByPositions tokenIds requestId mask e.tokens positions
  let actions ← alignActionsByPositions tokenIds positions e.actions e.actionLogps
  return { mask := some aligned, actions := actions }

/-- The poll's test: enough positions have arrived. -/
def MaskStores.Entry.ready (e : MaskStores.Entry) (expectedLen : Nat) : Bool :=
  match e.mask,e.positions with
  | some _,some positions => expectedLen ≤ positions.length
  | _,_ => false

/-- The exit at the deadline. -/
def popLate (e : MaskStores.Entry) (tokenIds : List Int) (requestId : String) : Except String Popped :=
  match e.mask,e.positions with
  | none,_ => .ok {}
  | some _,none =>
    .error s!"OPD mask IPC payload has no absolute positions for request_id={requestId}"
  | some mask,some positions => alignEntry e mask positions tokenIds requestId

/-- `pop_with_actions`, given what each poll before the deadline sees and what is
there at the deadline. The second component is the stores it leaves. -/
def popWithActions (requestId : String) (expectedLen : Nat) (tokenIds : Option (List Int))
    (polls : List MaskStores) (deadline : MaskStores) : Except String Popped × MaskStores :=
  match tokenIds with
  | none =>
    (.error (s!"OPD absolute-position alignment requires final token_ids: " ++
      s!"request_id={requestId}, expected_len={expectedLen}, token_ids_len=None"),deadline)
  | some tokenIds =>
    if expectedLen ≠ tokenIds.length then
      (.error (s!"OPD absolute-position alignment requires final token_ids: " ++
        s!"request_id={requestId}, expected_len={expectedLen}, token_ids_len={tokenIds.length}"),deadline)
    else
      let seen := (polls.find? (fun s => (s.entry requestId).ready expectedLen)).getD deadline
      (popLate (seen.entry requestId) tokenIds requestId,seen.pop requestId)

end Pop

end RelayOpd
