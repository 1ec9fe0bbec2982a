import RelayOpd.MaskCodec

/-! What the receiver decodes from the sender's datagrams: the same events, and
nothing at all from a mask body cut short. -/
namespace RelayOpd

open WordBytes

theorem slice_middle (before middle after : List UInt8) (start stop : Nat)
    (first : before.length = start) (size : start + middle.length = stop) :
    slice (before ++ middle ++ after) start stop = middle := by
  subst first size
  simp [slice]

theorem splitNul_datagram (head body : List UInt8) (clean : 0 ∉ head) :
    splitNul (head ++ 0 :: body) = some (head,body) := by
  induction head with
  | nil => rfl
  | cons b head ih =>
    have apart : b ≠ 0 := fun zero => clean (by simp [zero])
    have rest : 0 ∉ head := fun member => clean (List.mem_cons_of_mem b member)
    simp [splitNul,apart,ih rest]

theorem unpackMask_packMask (mask : List Bool) : unpackMask (packMask mask) = mask := by
  induction mask with
  | nil => rfl
  | cons x mask ih =>
    simp only [packMask,unpackMask,List.map_cons,List.map_map] at ih ⊢
    rw [ih]
    cases x <;> rfl

@[simp] theorem packMask_length (mask : List Bool) : (packMask mask).length = mask.length := by
  simp [packMask]

theorem packInts_ok (xs : List Int) (range : ∀ x ∈ xs, Int32Range x) :
    packInts xs = .ok (pack writeInt xs) := by
  simp only [packInts,if_pos range]

theorem unpackInts_pack (n : Nat) (xs : List Int) (count : xs.length = n)
    (range : ∀ x ∈ xs, Int32Range x) : unpackInts n (pack writeInt xs) = xs := by
  subst count
  exact unpack_pack writeInt_length xs (fun x member => readInt_writeInt x (range x member))

theorem unpackFloats_pack (n : Nat) (xs : List FloatWord) (count : xs.length = n) :
    unpackFloats n (pack writeWord xs) = xs := by
  subst count
  exact unpack_pack writeWord_length xs (fun x _ => readWord_writeWord x)

@[simp] theorem packInts_length (xs : List Int) : (pack writeInt xs).length = 4 * xs.length :=
  pack_length writeInt_length xs

@[simp] theorem packFloats_length (xs : List FloatWord) :
    (pack writeWord xs).length = 4 * xs.length := pack_length writeWord_length xs

theorem header_length (magic : List UInt8) (mask : List Bool) (four : magic.length = 4) :
    (header magic mask).length = 5 + mask.length := by
  simp only [header,List.length_append,List.length_singleton,packMask_length,four]

theorem header_magic (magic rest : List UInt8) (mask : List Bool) :
    magic <+: header magic mask ++ rest := by
  simp only [header,List.append_assoc]
  exact List.prefix_append _ _

theorem header_count (magic rest : List UInt8) (mask : List Bool) (four : magic.length = 4)
    (small : mask.length ≤ 255) :
    ((header magic mask ++ rest).getD 4 0).toNat = mask.length := by
  have byte : mask.length < 256 := by omega
  simp only [header,List.append_assoc,List.getD_eq_getElem?_getD]
  rw [List.getElem?_append_right (by omega)]
  simp [four,Nat.mod_eq_of_lt byte]

theorem header_mask (magic rest : List UInt8) (mask : List Bool) (four : magic.length = 4) :
    unpackMask (slice (header magic mask ++ rest) 5 (5 + mask.length)) = mask := by
  have bits := slice_middle (magic ++ [UInt8.ofNat mask.length]) (packMask mask) rest 5
    (5 + mask.length) (by simp [four]) (by simp)
  rw [header,bits,unpackMask_packMask]

def opd2Body (mask : List Bool) (tokens positions : List Int) : List UInt8 :=
  header opd2 mask ++ pack writeInt tokens ++ pack writeInt positions

def opd3Body (mask : List Bool) (tokens positions actions : List Int)
    (actionLogps : List FloatWord) : List UInt8 :=
  header opd3 mask ++ pack writeInt tokens ++ pack writeInt positions ++
    pack writeInt actions ++ pack writeWord actionLogps

section Bodies

variable (mask : List Bool) (tokens positions actions : List Int) (actionLogps : List FloatWord)
  (small : mask.length ≤ 255) (tokenCount : tokens.length = mask.length)
  (positionCount : positions.length = mask.length)

include tokenCount positionCount

theorem opd2Body_length :
    (opd2Body mask tokens positions).length = 5 + mask.length + 8 * mask.length := by
  have four : opd2.length = 4 := rfl
  simp only [opd2Body,List.length_append,header_length _ _ four,packInts_length,tokenCount,positionCount]
  omega

theorem opd3Body_length (actionCount : actions.length = mask.length)
    (logpCount : actionLogps.length = mask.length) :
    (opd3Body mask tokens positions actions actionLogps).length =
      5 + mask.length + 16 * mask.length := by
  have four : opd3.length = 4 := rfl
  simp only [opd3Body,List.length_append,header_length _ _ four,packInts_length,packFloats_length,
    tokenCount,positionCount,actionCount,logpCount]
  omega

include small

theorem decodePayload_opd2Body (tokenRange : ∀ x ∈ tokens, Int32Range x)
    (positionRange : ∀ x ∈ positions, Int32Range x) :
    decodePayload (opd2Body mask tokens positions) =
      { mask := mask, tokens := some tokens, positions := some positions } := by
  have four : opd2.length = 4 := rfl
  have size := opd2Body_length mask tokens positions tokenCount positionCount
  have head := header_length opd2 mask four
  have count : ((opd2Body mask tokens positions).getD 4 0).toNat = mask.length := by
    rw [opd2Body,List.append_assoc]
    exact header_count _ _ _ four small
  have other : ¬ (opd3.isPrefixOf (opd2Body mask tokens positions) ∧
      5 ≤ (opd2Body mask tokens positions).length) := fun both => by
    simp [opd2Body,header,opd2,opd3] at both
  have magic : opd2.isPrefixOf (opd2Body mask tokens positions) ∧
      5 ≤ (opd2Body mask tokens positions).length := by
    refine ⟨?_,by omega⟩
    simp [opd2Body,header,opd2]
  have bits : unpackMask (slice (opd2Body mask tokens positions) 5 (5 + mask.length)) = mask := by
    rw [opd2Body,List.append_assoc]
    exact header_mask _ _ _ four
  have tokensAt : slice (opd2Body mask tokens positions) (5 + mask.length)
      (5 + mask.length + 4 * mask.length) = pack writeInt tokens :=
    slice_middle _ _ _ _ _ head (by simp [tokenCount])
  have positionsAt : slice (opd2Body mask tokens positions) (5 + mask.length + 4 * mask.length)
      (5 + mask.length + 8 * mask.length) = pack writeInt positions := by
    have last := slice_middle (header opd2 mask ++ pack writeInt tokens) (pack writeInt positions) []
      (5 + mask.length + 4 * mask.length) (5 + mask.length + 8 * mask.length)
      (by simp [head,tokenCount]) (by simp [positionCount]; omega)
    simpa [opd2Body] using last
  rw [decodePayload,if_neg other,if_pos magic]
  simp only [count,size,lt_irrefl,if_false,bits,tokensAt,positionsAt,
    unpackInts_pack _ tokens tokenCount tokenRange,
    unpackInts_pack _ positions positionCount positionRange]

theorem decodePayload_opd3Body (actionCount : actions.length = mask.length)
    (logpCount : actionLogps.length = mask.length) (tokenRange : ∀ x ∈ tokens, Int32Range x)
    (positionRange : ∀ x ∈ positions, Int32Range x) (actionRange : ∀ x ∈ actions, Int32Range x) :
    decodePayload (opd3Body mask tokens positions actions actionLogps) =
      ⟨mask,some tokens,some positions,some actions,some actionLogps⟩ := by
  have four : opd3.length = 4 := rfl
  have size := opd3Body_length mask tokens positions actions actionLogps tokenCount positionCount
    actionCount logpCount
  have head := header_length opd3 mask four
  set body := opd3Body mask tokens positions actions actionLogps with shape
  have count : (body.getD 4 0).toNat = mask.length := by
    rw [shape,opd3Body,List.append_assoc,List.append_assoc,List.append_assoc]
    exact header_count _ _ _ four small
  have magic : opd3.isPrefixOf body ∧ 5 ≤ body.length := by
    refine ⟨?_,by omega⟩
    simp [shape,opd3Body,header,opd3]
  have bits : unpackMask (slice body 5 (5 + mask.length)) = mask := by
    rw [shape,opd3Body,List.append_assoc,List.append_assoc,List.append_assoc]
    exact header_mask _ _ _ four
  have section_at : ∀ before middle after start stop, body = before ++ middle ++ after →
      before.length = start → start + middle.length = stop → slice body start stop = middle := by
    intro before middle after start stop split first width
    rw [split]
    exact slice_middle before middle after start stop first width
  have tokensAt : slice body (5 + mask.length) (5 + mask.length + 4 * mask.length) =
      pack writeInt tokens :=
    section_at (header opd3 mask) _ (pack writeInt positions ++ pack writeInt actions ++
      pack writeWord actionLogps) _ _ (by simp [shape,opd3Body]) head (by simp [tokenCount])
  have positionsAt : slice body (5 + mask.length + 4 * mask.length)
      (5 + mask.length + 4 * mask.length + 4 * mask.length) = pack writeInt positions :=
    section_at (header opd3 mask ++ pack writeInt tokens) _ (pack writeInt actions ++
      pack writeWord actionLogps) _ _ (by simp [shape,opd3Body]) (by simp [head,tokenCount])
      (by simp [positionCount])
  have actionsAt : slice body (5 + mask.length + 4 * mask.length + 4 * mask.length)
      (5 + mask.length + 4 * mask.length + 4 * mask.length + 4 * mask.length) =
      pack writeInt actions :=
    section_at (header opd3 mask ++ pack writeInt tokens ++ pack writeInt positions) _
      (pack writeWord actionLogps) _ _ (by simp [shape,opd3Body])
      (by simp [head,tokenCount,positionCount,Nat.add_assoc]) (by simp [actionCount])
  have logpsAt : slice body (5 + mask.length + 4 * mask.length + 4 * mask.length + 4 * mask.length)
      (5 + mask.length + 16 * mask.length) = pack writeWord actionLogps :=
    section_at (header opd3 mask ++ pack writeInt tokens ++ pack writeInt positions ++
      pack writeInt actions) _ [] _ _ (by simp [shape,opd3Body])
      (by simp [head,tokenCount,positionCount,actionCount,Nat.add_assoc]) (by simp [logpCount]; omega)
  rw [decodePayload,if_pos magic]
  simp only [count,size,lt_irrefl,if_false,bits,tokensAt,positionsAt,actionsAt,logpsAt,unpackInts_pack _ tokens tokenCount tokenRange,
    unpackInts_pack _ positions positionCount positionRange,
    unpackInts_pack _ actions actionCount actionRange,unpackFloats_pack _ actionLogps logpCount]

end Bodies

/-- A body cut short anywhere yields nothing. -/
theorem decodePayload_cut (body cut : List UInt8) (magic : List UInt8) (n width : Nat)
    (kind : magic = opd2 ∧ width = 8 ∨ magic = opd3 ∧ width = 16) (starts : magic <+: body)
    (count : (body.getD 4 0).toNat = n) (size : body.length = 5 + n + width * n)
    (before : cut <+: body) (proper : cut ≠ body) : decodePayload cut = .nothing := by
  have short : cut.length < body.length := by
    refine lt_of_le_of_ne before.length_le ?_
    exact fun same => proper (before.eq_of_length same)
  by_cases tiny : cut.length < 5
  · simp [decodePayload,Nat.not_le.mpr tiny]
  · have cutCount : (cut.getD 4 0).toNat = n := by
      obtain ⟨rest,rfl⟩ := before
      rw [← count,List.getD_eq_getElem?_getD,List.getD_eq_getElem?_getD,
        List.getElem?_append_left (by omega)]
    have same : ∀ other : List UInt8, other.length = 4 → other <+: cut → other = magic := by
      intro other four begins
      have whole : magic.length = 4 := by rcases kind with ⟨rfl,_⟩ | ⟨rfl,_⟩ <;> rfl
      have nested := List.prefix_of_prefix_length_le (begins.trans before) starts (by omega)
      exact nested.eq_of_length (by omega)
    rw [decodePayload]
    split_ifs with three two
    · have sixteen : width = 16 := by
        have same := same opd3 rfl (List.isPrefixOf_iff_prefix.mp three.1)
        rcases kind with ⟨rfl,_⟩ | ⟨_,wide⟩
        · exact absurd same (by decide)
        · exact wide
      subst sixteen
      simp only [cutCount]
      rw [if_pos (by omega)]
    · have eight : width = 8 := by
        have same := same opd2 rfl (List.isPrefixOf_iff_prefix.mp two.1)
        rcases kind with ⟨_,wide⟩ | ⟨rfl,_⟩
        · exact wide
        · exact absurd same (by decide)
      subst eight
      simp only [cutCount]
      rw [if_pos (by omega)]
    · rfl

/-- The arguments that callers may pass: one to 255 entries, every list as long as
the mask, integers of 32 bits. -/
structure MaskArgs.WellFormed (a : MaskArgs) : Prop where
  nonempty : 1 ≤ a.mask.length
  small : a.mask.length ≤ 255
  tokenCount : a.tokens.length = a.mask.length
  tokenRange : ∀ x ∈ a.tokens, Int32Range x
  positions : ∃ ps, a.positions = some ps ∧ ps.length = a.mask.length ∧ ∀ x ∈ ps, Int32Range x
  actions : ∀ xs ∈ a.actions, xs.length = a.mask.length ∧ ∀ x ∈ xs, Int32Range x
  actionLogps : ∀ xs ∈ a.actionLogps, xs.length = a.mask.length

/-- The chunk format of the arguments. -/
def MaskArgs.body (a : MaskArgs) : List UInt8 :=
  match a.actions,a.actionLogps with
  | some actions,some actionLogps =>
    opd3Body a.mask a.tokens (a.positions.getD []) actions actionLogps
  | _,_ => opd2Body a.mask a.tokens (a.positions.getD [])

/-- Actions travel only together with their log-probabilities. -/
def MaskArgs.chunk (a : MaskArgs) : MaskChunk :=
  match a.actions,a.actionLogps with
  | some actions,some actionLogps =>
    ⟨a.mask,some a.tokens,a.positions,some actions,some actionLogps⟩
  | _,_ => ⟨a.mask,some a.tokens,a.positions,none,none⟩

section Arguments

variable (a : MaskArgs) (fine : a.WellFormed)

include fine

theorem maskBody_ok : maskBody a = .ok a.body := by
  obtain ⟨ps,given,_,positionRange⟩ := fine.positions
  have tokens := packInts_ok a.tokens fine.tokenRange
  have positions := packInts_ok (a.positions.getD []) (by simpa [given] using positionRange)
  cases actions : a.actions with
  | none => simp [maskBody,MaskArgs.body,actions,tokens,positions,opd2Body,bind,Except.bind,pure,Except.pure]
  | some xs =>
    cases logps : a.actionLogps with
    | none =>
      simp [maskBody,MaskArgs.body,actions,logps,tokens,positions,opd2Body,bind,Except.bind,pure,
        Except.pure]
    | some ls =>
      have packed := packInts_ok xs (fine.actions xs actions).2
      simp [maskBody,MaskArgs.body,actions,logps,tokens,positions,packed,opd3Body,bind,Except.bind,
        pure,Except.pure]

theorem not_malformed : a.malformed = false := by
  obtain ⟨ps,given,positionCount,_⟩ := fine.positions
  have tokenCount := fine.tokenCount
  have small := fine.small
  have actionCount : ∀ xs, a.actions = some xs → xs.length = a.mask.length :=
    fun xs found => (fine.actions xs found).1
  have logpCount : ∀ xs, a.actionLogps = some xs → xs.length = a.mask.length :=
    fun xs found => fine.actionLogps xs found
  cases actions : a.actions <;> cases logps : a.actionLogps <;>
    simp_all [MaskArgs.malformed]

theorem sendMaskChunkIpc_ok (rid : String) :
    sendMaskChunkIpc true rid a = .ok (if rid = "" then none else some (datagram rid a.body)) := by
  have filled : a.mask ≠ [] := List.ne_nil_of_length_pos fine.nonempty
  by_cases anonymous : rid = ""
  · simp [sendMaskChunkIpc,anonymous]
  · simp [sendMaskChunkIpc,anonymous,filled,not_malformed a fine,maskBody_ok a fine,bind,Except.bind,
      pure,Except.pure]

theorem decodePayload_body : decodePayload a.body = a.chunk := by
  obtain ⟨ps,given,positionCount,positionRange⟩ := fine.positions
  have plain := decodePayload_opd2Body a.mask a.tokens ps fine.small fine.tokenCount positionCount
    fine.tokenRange positionRange
  cases actions : a.actions with
  | none => simpa [MaskArgs.body,MaskArgs.chunk,actions,given] using plain
  | some xs =>
    cases logps : a.actionLogps with
    | none => simpa [MaskArgs.body,MaskArgs.chunk,actions,logps,given] using plain
    | some ls =>
      have full := decodePayload_opd3Body a.mask a.tokens ps xs ls fine.small fine.tokenCount
        positionCount (fine.actions xs actions).1 (fine.actionLogps ls logps) fine.tokenRange
        positionRange (fine.actions xs actions).2
      simpa [MaskArgs.body,MaskArgs.chunk,actions,logps,given] using full

theorem decodePayload_cut_body (cut : List UInt8) (before : cut <+: a.body) (proper : cut ≠ a.body) :
    decodePayload cut = .nothing := by
  obtain ⟨ps,given,positionCount,_⟩ := fine.positions
  have short : ∀ body, a.body = body → body = opd2Body a.mask a.tokens ps →
      decodePayload cut = .nothing := by
    rintro body same rfl
    rw [same] at before proper
    refine decodePayload_cut _ cut opd2 a.mask.length 8 (.inl ⟨rfl,rfl⟩) ?_ ?_
      (opd2Body_length _ _ _ fine.tokenCount positionCount) before proper
    · rw [opd2Body,List.append_assoc]
      exact header_magic _ _ _
    · rw [opd2Body,List.append_assoc]
      exact header_count _ _ _ rfl fine.small
  cases actions : a.actions with
  | none => exact short _ rfl (by simp [MaskArgs.body,actions,given])
  | some xs =>
    cases logps : a.actionLogps with
    | none => exact short _ rfl (by simp [MaskArgs.body,actions,logps,given])
    | some ls =>
      have shape : a.body = opd3Body a.mask a.tokens ps xs ls := by
        simp [MaskArgs.body,actions,logps,given]
      rw [shape] at before proper
      refine decodePayload_cut _ cut opd3 a.mask.length 16 (.inr ⟨rfl,rfl⟩) ?_ ?_
        (opd3Body_length _ _ _ _ _ fine.tokenCount positionCount (fine.actions xs actions).1
          (fine.actionLogps ls logps)) before proper
      · simp only [opd3Body,List.append_assoc]
        exact header_magic _ _ _
      · simp only [opd3Body,List.append_assoc]
        exact header_count _ _ _ rfl fine.small

end Arguments

/-- The three magics exclude one another. -/
theorem decodeStopEventPayload_body (a : MaskArgs) : decodeStopEventPayload a.body = none := by
  have other : ops1.isPrefixOf a.body = false := by
    unfold MaskArgs.body
    split <;> rfl
  simp [decodeStopEventPayload,other]

theorem decodeStopEventPayload_stop (event : PyJson.FlatDict) :
    decodeStopEventPayload (stopEventBody event) = some (PyJson.toValues event.fields) := by
  simp [decodeStopEventPayload,stopEventBody,ops1,PyJson.loads_dumps]

theorem decodePayload_stop (event : PyJson.FlatDict) :
    decodePayload (stopEventBody event) = .nothing := by
  simp [decodePayload,stopEventBody,ops1,opd2,opd3]

theorem receive_datagram (rid : String) (body : List UInt8) (clean : 0 ∉ utf8 rid) :
    receive (datagram rid body) =
      match decodeStopEventPayload body with
      | some event => some (.stop rid event)
      | none =>
        if (decodePayload body).mask = [] then some .ignored else some (.chunk rid (decodePayload body)) := by
  cases outcome : decodeStopEventPayload body with
  | none => simp only [receive,datagram,splitNul_datagram _ _ clean,decodeUtf8_utf8,outcome]
  | some event => simp only [receive,datagram,splitNul_datagram _ _ clean,decodeUtf8_utf8,outcome]

/-- Every payload is decoded by its receiver as what its sender was given. -/
theorem mask_ipc_round_trip (rid : String) (clean : 0 ∉ utf8 rid) :
    (∀ a : MaskArgs, a.WellFormed →
      sendMaskChunkIpc true rid a = .ok (if rid = "" then none else some (datagram rid a.body)) ∧
      receive (datagram rid a.body) = some (.chunk rid a.chunk) ∧
      decodeStopEventPayload a.body = none ∧
      ∀ cut, cut <+: a.body → cut ≠ a.body → decodePayload cut = .nothing) ∧
    ∀ event : PyJson.FlatDict, event.fields ≠ [] →
      sendStopEventIpc true rid event =
        (if rid = "" then none else some (datagram rid (stopEventBody event))) ∧
      receive (datagram rid (stopEventBody event)) =
        some (.stop rid (PyJson.toValues event.fields)) ∧
      decodePayload (stopEventBody event) = .nothing := by
  constructor
  · intro a fine
    have filled : a.chunk.mask ≠ [] := by
      have nonempty := List.ne_nil_of_length_pos fine.nonempty
      unfold MaskArgs.chunk
      split <;> exact nonempty
    refine ⟨sendMaskChunkIpc_ok a fine rid,?_,decodeStopEventPayload_body a,decodePayload_cut_body a fine⟩
    simp only [receive_datagram rid _ clean,decodeStopEventPayload_body,decodePayload_body a fine,
      if_neg filled]
  · intro event filled
    refine ⟨?_,?_,decodePayload_stop event⟩
    · simp [sendStopEventIpc,filled]
    · simp only [receive_datagram rid _ clean,decodeStopEventPayload_stop]

/-- A three-token chunk with one teacher token, and a stop event at position 7. -/
def exampleArgs : MaskArgs where
  mask := [false,true,false]
  tokens := [11,-1,2147483647]
  positions := some [4,5,6]
  actions := some [11,9,0]
  actionLogps := some [FloatWord.nan,0xbf800000#32,FloatWord.nan]

def exampleEvent : PyJson.FlatDict where
  fields := [("request_id",.str "r\"1\n"),("response_pos",.int 7)]
  distinct := by decide

theorem mask_ipc_round_trip_example :
    receive (datagram "r1" exampleArgs.body) = some (.chunk "r1" exampleArgs.chunk) ∧
      receive (datagram "r1" (stopEventBody exampleEvent)) =
        some (.stop "r1" (PyJson.toValues exampleEvent.fields)) := by
  have clean : 0 ∉ utf8 "r1" := by decide
  have fine : exampleArgs.WellFormed :=
    ⟨by decide,by decide,rfl,by decide,⟨_,rfl,rfl,by decide⟩,
      by rintro _ ⟨⟩; exact ⟨rfl,by decide⟩,by rintro _ ⟨⟩; rfl⟩
  obtain ⟨chunks,stops⟩ := mask_ipc_round_trip "r1" clean
  exact ⟨(chunks exampleArgs fine).2.1,(stops exampleEvent (by decide)).2.1⟩

end RelayOpd
