import RelayOpd.WordBytes
import RelayOpd.PyJson
import RelayOpd.SamplerArgs

/-! The datagrams between the samplers and the rollout server: a request id, a NUL
byte, and a mask chunk (`OPD2`, `OPD3`) or a stop event (`OPS1`). -/
namespace RelayOpd

open WordBytes

def utf8 (s : String) : List UInt8 := s.toByteArray.data.toList

/-- `bytes.decode("utf-8")`. -/
def decodeUtf8 (bytes : List UInt8) : Option String := String.fromUTF8? ⟨bytes.toArray⟩

@[simp] theorem decodeUtf8_utf8 (s : String) : decodeUtf8 (utf8 s) = some s := by
  have bytes : (⟨(utf8 s).toArray⟩ : ByteArray) = s.toByteArray := by simp [utf8]
  rw [decodeUtf8,bytes,String.fromUTF8?,dif_pos s.isValidUTF8]
  rfl

/-- `b"OPD2"`. -/
def opd2 : List UInt8 := [0x4f,0x50,0x44,0x32]

/-- `b"OPD3"`. -/
def opd3 : List UInt8 := [0x4f,0x50,0x44,0x33]

/-- `b"OPS1"`. -/
def ops1 : List UInt8 := [0x4f,0x50,0x53,0x31]

/-- The event lists of one datagram; a list that was not given is absent. -/
structure MaskChunk where
  mask : List Bool
  tokens : Option (List Int) := none
  positions : Option (List Int) := none
  actions : Option (List Int) := none
  actionLogps : Option (List FloatWord) := none
  deriving DecidableEq, Repr

section Send

/-- `struct.pack("!ni", …)`. -/
def packInts (xs : List Int) : Except String (List UInt8) :=
  if ∀ x ∈ xs, Int32Range x then .ok (pack writeInt xs)
  else .error "'i' format requires -2147483648 <= number <= 2147483647"

def packMask (mask : List Bool) : List UInt8 := mask.map (fun x => if x then 1 else 0)

def showLength (xs : Option (List α)) : String :=
  match xs with
  | none => "None"
  | some xs => toString xs.length

/-- Arguments of `_send_mask_chunk_ipc`; the tokens are always given. -/
structure MaskArgs where
  mask : List Bool
  tokens : List Int
  positions : Option (List Int) := none
  actions : Option (List Int) := none
  actionLogps : Option (List FloatWord) := none

def MaskArgs.malformed (a : MaskArgs) : Bool :=
  let n := a.mask.length
  n != a.tokens.length || 255 < n ||
    (match a.positions with
      | none => true
      | some ps => ps.length != n) ||
    (match a.actions with
      | none => false
      | some xs => xs.length != n) ||
    (match a.actionLogps with
      | none => false
      | some xs => xs.length != n)

def MaskArgs.malformedError (a : MaskArgs) (rid : String) : String :=
  s!"malformed OPD mask IPC chunk: rid={rid} masks={a.mask.length} tokens={a.tokens.length} " ++
    s!"positions={showLength a.positions} actions={showLength a.actions} " ++
    s!"action_logps={showLength a.actionLogps}"

def header (magic : List UInt8) (mask : List Bool) : List UInt8 :=
  magic ++ [UInt8.ofNat mask.length] ++ packMask mask

def maskBody (a : MaskArgs) : Except String (List UInt8) := do
  let tokenBytes ← packInts a.tokens
  let positionBytes ← packInts (a.positions.getD [])
  match a.actions,a.actionLogps with
  | some actions,some actionLogps =>
    let actionBytes ← packInts actions
    return header opd3 a.mask ++ tokenBytes ++ positionBytes ++ actionBytes ++
      pack writeWord actionLogps
  | _,_ => return header opd2 a.mask ++ tokenBytes ++ positionBytes

def datagram (rid : String) (body : List UInt8) : List UInt8 := utf8 rid ++ 0 :: body

/-- The payload that `_send_mask_chunk_ipc` hands to the socket, if any. -/
def sendMaskChunkIpc (connected : Bool) (rid : String) (a : MaskArgs) :
    Except String (Option (List UInt8)) :=
  if rid = "" ∨ a.mask = [] then .ok none
  else if a.malformed then .error (a.malformedError rid)
  else if !connected then .ok none
  else do
    let body ← maskBody a
    return some (datagram rid body)

def stopEventBody (event : PyJson.FlatDict) : List UInt8 :=
  ops1 ++ utf8 (String.ofList (PyJson.dumps event))

/-- The payload that `_send_stop_event_ipc` hands to the socket, if any. -/
def sendStopEventIpc (connected : Bool) (rid : String) (event : PyJson.FlatDict) :
    Option (List UInt8) :=
  if rid = "" ∨ event.fields = [] then none
  else if connected then some (datagram rid (stopEventBody event)) else none

end Send

section Receive

/-- `body[start:stop]`. -/
def slice (body : List UInt8) (start stop : Nat) : List UInt8 := (body.drop start).take (stop - start)

def unpackMask (bytes : List UInt8) : List Bool := bytes.map (fun x => x != 0)

def unpackInts (n : Nat) (bytes : List UInt8) : List Int := unpack readInt 4 n bytes

def unpackFloats (n : Nat) (bytes : List UInt8) : List FloatWord := unpack readWord 4 n bytes

/-- The decoder's result when there is nothing to deliver. -/
def MaskChunk.nothing : MaskChunk where
  mask := []

def decodePayload (body : List UInt8) : MaskChunk :=
  if opd3.isPrefixOf body ∧ 5 ≤ body.length then
    let n := (body.getD 4 0).toNat
    let expected := 5 + n + 16 * n
    if body.length < expected then .nothing
    else
      let maskStart := 5
      let tokenStart := maskStart + n
      let positionStart := tokenStart + 4 * n
      let actionStart := positionStart + 4 * n
      let actionLogpStart := actionStart + 4 * n
      { mask := unpackMask (slice body maskStart tokenStart)
        tokens := some (unpackInts n (slice body tokenStart positionStart))
        positions := some (unpackInts n (slice body positionStart actionStart))
        actions := some (unpackInts n (slice body actionStart actionLogpStart))
        actionLogps := some (unpackFloats n (slice body actionLogpStart expected)) }
  else if opd2.isPrefixOf body ∧ 5 ≤ body.length then
    let n := (body.getD 4 0).toNat
    let expected := 5 + n + 8 * n
    if body.length < expected then .nothing
    else
      let maskStart := 5
      let tokenStart := maskStart + n
      let positionStart := tokenStart + 4 * n
      { mask := unpackMask (slice body maskStart tokenStart)
        tokens := some (unpackInts n (slice body tokenStart positionStart))
        positions := some (unpackInts n (slice body positionStart expected)) }
  else .nothing

def decodeStopEventPayload (body : List UInt8) : Option (List (String × PyJson.Value)) :=
  if ops1.isPrefixOf body then
    match (decodeUtf8 (body.drop 4)).bind (fun text => PyJson.loads text.toList) with
    | some (.obj event) => some event
    | _ => none
  else none

/-- `payload.split(b"\0", 1)`, when it has two parts. -/
def splitNul : List UInt8 → Option (List UInt8 × List UInt8)
  | [] => none
  | b :: rest =>
    if b = 0 then some ([],rest) else (splitNul rest).map (fun parts => (b :: parts.1,parts.2))

/-- What one datagram asks the receiver to store. -/
inductive Received where
  | ignored
  | stop (rid : String) (event : List (String × PyJson.Value))
  | chunk (rid : String) (events : MaskChunk)

/-- One turn of `_loop`. `none`: the id is not UTF-8 and the receiver thread ends. -/
def receive (payload : List UInt8) : Option Received :=
  match splitNul payload with
  | none => some .ignored
  | some (head,body) =>
    match decodeUtf8 head with
    | none => none
    | some rid =>
      match decodeStopEventPayload body with
      | some event => some (.stop rid event)
      | none =>
        let events := decodePayload body
        if events.mask = [] then some .ignored else some (.chunk rid events)

end Receive

end RelayOpd
