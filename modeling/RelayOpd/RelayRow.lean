import RelayOpd.RelaySampler
import RelayOpd.LocalLoop

/-! The relay sampler as one request sees it. `rowStep` reads one request's
drafts, its teacher argmaxes, its row of the standard output and its own takeover
state, and returns its output row and next state. -/
namespace RelayOpd

structure RowTensors where
  output : Nat → Int
  teacher : Nat → Bool
  takeover : Nat → Bool
  stop : Nat → Bool
  hits : Nat → Bool

def RowTensors.blank : RowTensors :=
  ⟨fun _ => placeholderTokenId,fun _ => false,fun _ => false,fun _ => false,fun _ => false⟩

/-- One request's entries in the three dictionaries. -/
structure ReqState where
  tokens : Option Int
  paragraphs : Option Int
  completed : Option Int
  deriving DecidableEq, Repr

def ReqState.fresh : ReqState := ⟨none,none,none⟩

def RelayState.of (st : RelayState) (rid : Option String) : ReqState :=
  match rid with
  | none => .fresh
  | some rid => ⟨st.takeoverTokensRemaining.get? rid,st.takeoverParagraphsRemaining.get? rid,
      st.completedTakeovers.get? rid⟩

/-- What one verification call holds about one request. `inTopk c` says that the
teacher argmax at draft `c` is among the student's top tokens there. -/
structure RowInput where
  named : Bool
  numDrafts : Nat
  draft : Nat → Int
  validDraft : Nat → Bool
  argmax : Nat → Nat
  inTopk : Nat → Bool
  standard : Nat → Int

def SamplerArgs.row (args : SamplerArgs α) (K : Kernels α) (cfg : RelayConfig)
    (draftProbs : List (List α)) (standard : Nat → Nat → Int) (bi : Nat) : RowInput where
  named := (args.extRid bi).isSome
  numDrafts := args.numDrafts bi
  draft := fun c => args.draft (args.start bi + c)
  validDraft := fun c => args.validDraft (args.start bi + c)
  argmax := fun c => teacherArgmax K args (args.start bi + c)
  inTopk := fun c => teacherInStudentTopk K cfg args draftProbs (args.start bi + c)
  standard := standard bi

section Row

variable (cfg : RelayConfig) (stopId : Option Int) (width : Nat) (inp : RowInput) (rs : ReqState)

/-- Whether the request is in a takeover when the call starts. -/
def taken : Bool := inp.named && (cfg.takeoverEnabled && 0 < rs.tokens.getD 0)

/-- The teacher's first choice is a reflection token that the student neither
drafted nor ranked among its top tokens. -/
def candidate (c : Nat) : Bool :=
  cfg.reflectionTokenIds.contains (inp.argmax c : Int) && (inp.argmax c : Int) != inp.draft c &&
    inp.validDraft c && !inp.inTopk c

def firstEvent : Option Nat := (List.range inp.numDrafts).find? (candidate cfg inp)

/-- The bonus token of a takeover row is dropped. -/
def standardKept (c : Nat) : Int :=
  if c = inp.numDrafts ∧ inp.numDrafts < width ∧ isEmitted (inp.standard c) = true
  then placeholderTokenId else inp.standard c

def takeoverRow : RowTensors :=
  { RowTensors.blank with
    output := standardKept width inp
    teacher := fun c => isEmitted (standardKept width inp c)
    takeover := fun c => isEmitted (standardKept width inp c) }

/-- Valid drafts before the first event. -/
def studentRow (event : Option Nat) (c : Nat) : Int :=
  if c < inp.numDrafts ∧ inp.validDraft c = true ∧ (∀ e ∈ event, c < e)
  then inp.draft c else placeholderTokenId

def triggerRow (e : Nat) : RowTensors :=
  { RowTensors.blank with
    output := fun c => if c = e then (inp.argmax e : Int) else studentRow inp (some e) c
    teacher := fun c => c == e }

def stopRow (e : Nat) (id : Int) : RowTensors :=
  { RowTensors.blank with
    output := fun c => if c = e + 1 then id else if c = e then inp.draft e else studentRow inp (some e) c
    stop := fun c => c == e + 1 }

/-- The row after the emission stage. -/
def emitRow : RowTensors :=
  if taken cfg inp rs then takeoverRow width inp
  else match firstEvent cfg inp with
    | none => { RowTensors.blank with output := studentRow inp none }
    | some e =>
      if cfg.takeoverEnabled then triggerRow inp e
      else match stopId with
        | none => { RowTensors.blank with output := studentRow inp (some e) }
        | some id => stopRow inp e id

/-- The event position when the call triggers a takeover. -/
def trigger : Option Nat :=
  if taken cfg inp rs then none
  else if cfg.takeoverEnabled then firstEvent cfg inp else none

end Row

/-- One request's part of the loop state. -/
structure RowLoop where
  tensors : RowTensors
  terminated : Bool
  stopped : Bool
  completed : Option Int

def RowLoop.putInternalStop (s : RowLoop) (stopPos : Nat) (stopId : Int) : RowLoop :=
  { s with
    tensors :=
      { output := Function.update s.tensors.output stopPos stopId
        teacher := Function.update s.tensors.teacher stopPos false
        takeover := Function.update s.tensors.takeover stopPos false
        stop := Function.update s.tensors.stop stopPos true
        hits := Function.update s.tensors.hits stopPos false }
    stopped := true }

def RowLoop.endTakeover (s : RowLoop) (maxTakeovers : Int) (stopId : Option Int) (width pos : Nat) :
    RowLoop :=
  let endCount := s.completed.getD 0 + 1
  if endCount ≥ maxTakeovers then
    let s := { s with completed := none }
    match stopId with
    | none => s
    | some id => s.putInternalStop (if pos + 1 ≥ width then pos else pos + 1) id
  else { s with completed := some endCount }

def RowLoop.truncate (s : RowLoop) (keepUntil : Nat) (pos : List Nat) : RowLoop :=
  { s with
    tensors :=
      { output := fun c => if c ∈ pos ∧ keepUntil < c then placeholderTokenId else s.tensors.output c
        teacher := fun c => if c ∈ pos ∧ keepUntil < c then false else s.tensors.teacher c
        takeover := fun c => if c ∈ pos ∧ keepUntil < c then false else s.tensors.takeover c
        stop := s.tensors.stop
        hits := fun c => if c ∈ pos ∧ keepUntil < c then false else s.tensors.hits c }
    terminated := true }

def RowLoop.markBoundaries (cfg : RelayConfig) (s : RowLoop) : RowLoop :=
  { s with tensors := { s.tensors with
      hits := fun c => s.tensors.takeover c && cfg.paragraphBoundaryIds.contains (s.tensors.output c) } }

section Row

variable (cfg : RelayConfig) (stopId : Option Int) (width : Nat) (inp : RowInput) (rs : ReqState)

def enterRow : RowLoop := ⟨emitRow cfg stopId width inp rs,false,false,rs.completed⟩

def triggerOnlyRow (s : RowLoop) : RowLoop :=
  match trigger cfg inp rs with
  | none => s
  | some e =>
    if inp.named = true ∧ cfg.paragraphsPerTakeover ≤ 0 ∧ cfg.maxTakeovers > 0 then
      s.endTakeover cfg.maxTakeovers stopId width e
    else s

/-- Cut a takeover at the position where its budget is used up. -/
def truncateTakeover (s : RowLoop) : RowLoop :=
  let pos := Grid.nonzero width s.tensors.takeover
  let capCur := rs.tokens.getD 0
  let paragraphsCur := rs.paragraphs.getD 0
  if pos = [] ∨ capCur ≤ 0 ∨ paragraphsCur ≤ 0 then s
  else
    match keepUntilPos capCur paragraphsCur 1 0 (pos.map (fun c => (c, s.tensors.hits c))) with
    | none => s
    | some keepUntil =>
      let s := s.truncate keepUntil pos
      if cfg.maxTakeovers > 0 then s.endTakeover cfg.maxTakeovers stopId width keepUntil else s

def truncateRow (s : RowLoop) : RowLoop :=
  if taken cfg inp rs then truncateTakeover cfg stopId width rs s else s

/-- The request's part of the loop state when both loops are done. -/
def loopRow : RowLoop :=
  truncateRow cfg stopId width inp rs
    ((triggerOnlyRow cfg stopId width inp rs (enterRow cfg stopId width inp rs)).markBoundaries cfg)

/-- The paragraphs left to a takeover that starts with the trigger at `e`. -/
def paragraphsLeft (e : Nat) : Int :=
  cfg.paragraphsPerTakeover - (if cfg.paragraphBoundaryIds.contains (inp.argmax e : Int) then 1 else 0)

/-- The state update; `d` holds the request's entries after the loops. -/
def updateRow (s : RowLoop) (d : ReqState) : ReqState :=
  if inp.named = false then d
  else match trigger cfg inp rs with
    | some e =>
      if paragraphsLeft cfg inp e ≤ 0 then ⟨none,none,d.completed⟩
      else ⟨some cfg.maxTakeoverTokens,some (paragraphsLeft cfg inp e),d.completed⟩
    | none =>
      let emitCount := Grid.count width s.tensors.takeover
      if taken cfg inp rs = true ∧ emitCount > 0 then
        let paragraphsCur := d.paragraphs.getD 0 - Grid.count width s.tensors.hits
        let capCur := d.tokens.getD 0 - emitCount
        if s.terminated = true ∨ paragraphsCur ≤ 0 ∨ capCur ≤ 0 then ⟨none,none,d.completed⟩
        else ⟨some capCur,some paragraphsCur,d.completed⟩
      else d

/-- One call, for one request. -/
def rowStep : RowTensors × ReqState :=
  let s := loopRow cfg stopId width inp rs
  (s.tensors,updateRow cfg width inp rs s { rs with completed := s.completed })

end Row

end RelayOpd
