import RelayOpd.MaskRoundTrip
import RelayOpd.MaskServer

/-! Event lists as the senders mean them, what a server stores of them, and what
the alignment makes of the stored lists. -/
namespace RelayOpd

open WordBytes

/-- One emitted token: its label and its absolute response position. -/
structure Event where
  teacher : Bool
  token : Int
  position : Int
  deriving DecidableEq, Repr

/-- A chunk that the sender accepts. Actions come with their log-probabilities. -/
structure Chunk where
  events : List Event
  actions : Option (List (Int × FloatWord)) := none
  nonempty : 1 ≤ events.length
  small : events.length ≤ 255
  range : ∀ e ∈ events, Int32Range e.token ∧ Int32Range e.position
  actionCount : ∀ xs ∈ actions, xs.length = events.length
  actionRange : ∀ xs ∈ actions, ∀ x ∈ xs, Int32Range x.1

def Chunk.args (c : Chunk) : MaskArgs where
  mask := c.events.map Event.teacher
  tokens := c.events.map Event.token
  positions := some (c.events.map Event.position)
  actions := c.actions.map (List.map Prod.fst)
  actionLogps := c.actions.map (List.map Prod.snd)

theorem Chunk.wellFormed (c : Chunk) : c.args.WellFormed where
  nonempty := by simpa [Chunk.args] using c.nonempty
  small := by simpa [Chunk.args] using c.small
  tokenCount := by simp [Chunk.args]
  tokenRange := by
    intro x member
    obtain ⟨e,here,rfl⟩ := List.mem_map.mp member
    exact (c.range e here).1
  positions := by
    refine ⟨_,rfl,by simp [Chunk.args],?_⟩
    intro x member
    obtain ⟨e,here,rfl⟩ := List.mem_map.mp member
    exact (c.range e here).2
  actions := by
    intro xs found
    obtain ⟨pairs,given,rfl⟩ := Option.mem_map.mp found
    refine ⟨by simpa [Chunk.args] using c.actionCount pairs given,?_⟩
    intro x member
    obtain ⟨pair,here,rfl⟩ := List.mem_map.mp member
    exact c.actionRange pairs given pair here
  actionLogps := by
    intro xs found
    obtain ⟨pairs,given,rfl⟩ := Option.mem_map.mp found
    simpa [Chunk.args] using c.actionCount pairs given

def Chunk.payload (c : Chunk) (rid : String) : List UInt8 := datagram rid c.args.body

/-- What a chunk's datagram asks the receiver to store. -/
theorem Chunk.receive_payload (c : Chunk) (rid : String) (clean : 0 ∉ utf8 rid) :
    receive (c.payload rid) = some (.chunk rid c.args.chunk) := by
  have filled : c.args.chunk.mask ≠ [] := by
    have nonempty := List.ne_nil_of_length_pos c.wellFormed.nonempty
    unfold MaskArgs.chunk
    split <;> exact nonempty
  simp only [Chunk.payload,receive_datagram rid _ clean,decodeStopEventPayload_body,
    decodePayload_body _ c.wellFormed,if_neg filled]

theorem Chunk.chunk_eq (c : Chunk) :
    c.args.chunk = ⟨c.events.map Event.teacher,some (c.events.map Event.token),
      some (c.events.map Event.position),c.actions.map (List.map Prod.fst),
      c.actions.map (List.map Prod.snd)⟩ := by
  cases found : c.actions <;> simp [MaskArgs.chunk,Chunk.args,found]

theorem map_pair_injective {β γ : Type} (f : α → β) (g : α → γ) (pair : ∀ x y, f x = f y → g x = g y → x = y)
    (xs ys : List α) (left : xs.map f = ys.map f) (right : xs.map g = ys.map g) : xs = ys := by
  have zipped : xs.map (fun x => (f x,g x)) = ys.map (fun x => (f x,g x)) := by
    rw [← List.zip_map',← List.zip_map',left,right]
  refine List.map_injective_iff.mpr (fun x y same => ?_) zipped
  exact pair x y (Prod.mk.inj same).1 (Prod.mk.inj same).2

/-- A datagram names its chunk. -/
theorem Chunk.payload_injective (rid : String) (clean : 0 ∉ utf8 rid) (c d : Chunk)
    (same : c.payload rid = d.payload rid) : c = d := by
  have received := (c.receive_payload rid clean).symm.trans (same ▸ d.receive_payload rid clean)
  simp only [Option.some.injEq,Received.chunk.injEq,true_and,Chunk.chunk_eq,MaskChunk.mk.injEq] at received
  obtain ⟨teacher,token,position,action,logp⟩ := received
  have events : c.events = d.events := by
    refine map_pair_injective Event.teacher (fun e => (e.token,e.position)) ?_ _ _ teacher ?_
    · rintro ⟨_,_,_⟩ ⟨_,_,_⟩ left right
      simp_all
    · rw [← List.zip_map',← List.zip_map',token,position]
  have actions : c.actions = d.actions := by
    cases left : c.actions <;> cases right : d.actions <;> simp_all
    exact map_pair_injective Prod.fst Prod.snd (fun _ _ => Prod.ext) _ _ action logp
  cases c
  cases d
  simp_all

def eventsOf (chunks : List Chunk) : List Event := chunks.flatMap Chunk.events

/-- What the stores hold for a request after some chunks of it. -/
def entryOf (chunks : List Chunk) : MaskStores.Entry where
  mask := PyDict.gather (chunks.map (fun c => some (c.events.map Event.teacher)))
  tokens := PyDict.gather (chunks.map (fun c => some (c.events.map Event.token)))
  positions := PyDict.gather (chunks.map (fun c => some (c.events.map Event.position)))
  actions := PyDict.gather (chunks.map (fun c => c.actions.map (List.map Prod.fst)))
  actionLogps := PyDict.gather (chunks.map (fun c => c.actions.map (List.map Prod.snd)))

theorem entryOf_filled (chunks : List Chunk) (filled : chunks ≠ []) :
    (entryOf chunks).mask = some ((eventsOf chunks).map Event.teacher) ∧
      (entryOf chunks).tokens = some ((eventsOf chunks).map Event.token) ∧
      (entryOf chunks).positions = some ((eventsOf chunks).map Event.position) := by
  have field : ∀ {α : Type} (f : Event → α),
      PyDict.gather (chunks.map (fun c => some (c.events.map f))) = some ((eventsOf chunks).map f) := by
    intro α f
    have gathered := PyDict.gather_map_some (chunks.map (fun c => c.events.map f))
    simpa [Function.comp_def,filled,eventsOf,List.flatMap_def,List.map_flatten] using gathered
  exact ⟨field _,field _,field _⟩

theorem entryOf_plain (chunks : List Chunk) (plain : ∀ c ∈ chunks, c.actions = none) :
    (entryOf chunks).actions = none := by
  have silent : (chunks.map (fun c => c.actions.map (List.map Prod.fst))).any Option.isSome = false := by
    simp only [List.any_map,List.any_eq_false,Function.comp_apply]
    intro c member
    simp [plain c member]
  simp [entryOf,PyDict.gather_eq,silent]

theorem exported_length_le (chunks : List Chunk) :
    (chunks.flatMap (fun c => (c.actions.map (List.map Prod.fst)).getD [])).length ≤
      (eventsOf chunks).length := by
  induction chunks with
  | nil => simp
  | cons c chunks ih =>
    have own : ((c.actions.map (List.map Prod.fst)).getD []).length ≤ c.events.length := by
      cases given : c.actions with
      | none => simp
      | some pairs => simp [c.actionCount pairs given]
    simp only [eventsOf,List.flatMap_cons,List.length_append] at ih ⊢
    omega

/-- Chunks of both formats leave fewer actions than positions. -/
theorem entryOf_mixed (chunks : List Chunk) (plain : ∃ c ∈ chunks, c.actions = none)
    (exported : ∃ c ∈ chunks, c.actions ≠ none) :
    ∃ actions logps, (entryOf chunks).actions = some actions ∧
      (entryOf chunks).actionLogps = some logps ∧ actions.length < (eventsOf chunks).length := by
  obtain ⟨c,member,absent⟩ := plain
  obtain ⟨d,given,present⟩ := exported
  have stored : ∀ {β : Type} (f : Int × FloatWord → β),
      (chunks.map (fun c => c.actions.map (List.map f))).any Option.isSome = true := by
    intro β f
    refine List.any_eq_true.mpr ⟨_,List.mem_map_of_mem given,?_⟩
    simpa [Option.isSome_iff_ne_none] using present
  have gathered : (entryOf chunks).actions =
      some (chunks.flatMap (fun c => (c.actions.map (List.map Prod.fst)).getD [])) := by
    simp only [entryOf,PyDict.gather_eq,stored,if_true,List.flatMap_map]
  have logps : ∃ logps, (entryOf chunks).actionLogps = some logps := by
    simp only [entryOf,PyDict.gather_eq,stored,if_true]
    exact ⟨_,rfl⟩
  obtain ⟨logps,recorded⟩ := logps
  refine ⟨_,logps,gathered,recorded,?_⟩
  obtain ⟨before,after,rfl⟩ := List.append_of_mem member
  have first := exported_length_le before
  have last := exported_length_le after
  have own := c.nonempty
  simp only [eventsOf,List.flatMap_append,List.flatMap_cons,List.length_append,absent,Option.map_none,
    Option.getD_none,List.length_nil] at first last ⊢
  omega

theorem alignActions_mixed (chunks : List Chunk) (plain : ∃ c ∈ chunks, c.actions = none)
    (exported : ∃ c ∈ chunks, c.actions ≠ none) (tokenIds : List Int) :
    ∃ detail, alignActionsByPositions tokenIds ((eventsOf chunks).map Event.position)
      (entryOf chunks).actions (entryOf chunks).actionLogps =
        .error ("OPD3 malformed action lengths: " ++ detail) := by
  obtain ⟨actions,logps,given,recorded,fewer⟩ := entryOf_mixed chunks plain exported
  have apart : actions.length ≠ ((eventsOf chunks).map Event.position).length := by
    rw [List.length_map]
    omega
  rw [given,recorded,alignActionsByPositions,if_pos (.inl apart)]
  exact ⟨_,by rw [String.append_assoc]⟩

theorem entryOf_ready (chunks : List Chunk) (n : Nat) :
    (entryOf chunks).ready n = true ↔ chunks ≠ [] ∧ n ≤ (eventsOf chunks).length := by
  by_cases empty : chunks = []
  · subst empty
    simp [entryOf,PyDict.gather,MaskStores.Entry.ready]
  · obtain ⟨mask,_,positions⟩ := entryOf_filled chunks empty
    simp [MaskStores.Entry.ready,mask,positions,empty]

/-- One more chunk of the request. -/
theorem entry_deliver_chunk (s : MaskStores) (rid : String) (chunks : List Chunk) (c : Chunk)
    (stored : s.entry rid = entryOf chunks) :
    (s.deliver (.chunk rid c.args.chunk)).entry rid = entryOf (chunks ++ [c]) := by
  simp only [MaskStores.entry,entryOf,MaskStores.Entry.mk.injEq] at stored ⊢
  obtain ⟨mask,tokens,positions,actions,logps⟩ := stored
  simp [MaskStores.deliver,Chunk.chunk_eq,mask,tokens,positions,actions,logps]

/-- Traffic that is not a chunk of the request leaves its entry alone. -/
theorem entry_deliver_other (s : MaskStores) (rid : String) (r : Received)
    (other : ∀ c, r ≠ .chunk rid c) : (s.deliver r).entry rid = s.entry rid := by
  cases r with
  | ignored => rfl
  | stop _ _ => rfl
  | chunk rid' c =>
    have apart : rid ≠ rid' := by rintro rfl; exact other c rfl
    simp [MaskStores.deliver,MaskStores.entry,apart]

section Labels

/-- Some event labels position `j` as a teacher token. -/
def labelAt (es : List Event) (j : Nat) : Bool := es.any (fun e => e.position == j && e.teacher)

def labels (n : Nat) (es : List Event) : List Bool := (List.range n).map (labelAt es)

def covers (es : List Event) (j : Nat) : Bool := es.any (fun e => e.position == j)

/-- Positions `0` to `n - 1` all have an event. -/
def Covered (n : Nat) (es : List Event) : Prop := ∀ j < n, covers es j = true

instance (n : Nat) (es : List Event) : Decidable (Covered n es) :=
  inferInstanceAs (Decidable (∀ j < n, _))

/-- Labels and coverage depend on which events there are, not on their order. -/
theorem labels_congr (n : Nat) {es es' : List Event} (same : ∀ e, e ∈ es ↔ e ∈ es') :
    labels n es = labels n es' := by
  have label : ∀ j, labelAt es j = labelAt es' j := by
    intro j
    rw [Bool.eq_iff_iff]
    simp only [labelAt,List.any_eq_true,same]
  simp [labels,label]

theorem covered_congr (n : Nat) {es es' : List Event} (same : ∀ e, e ∈ es ↔ e ∈ es') :
    Covered n es ↔ Covered n es' := by
  have cover : ∀ j, covers es j = covers es' j := by
    intro j
    rw [Bool.eq_iff_iff]
    simp only [covers,List.any_eq_true,same]
  simp [Covered,cover]

/-- Each position takes an event of its own. -/
theorem Covered.le_length {n : Nat} {es : List Event} (covered : Covered n es) : n ≤ es.length := by
  have inside : Finset.range n ⊆ (es.map (fun e => e.position.toNat)).toFinset := by
    intro j bound
    obtain ⟨e,member,here⟩ := List.any_eq_true.mp (covered j (Finset.mem_range.mp bound))
    rw [List.mem_toFinset,List.mem_map]
    exact ⟨e,member,by simp [beq_iff_eq.mp here]⟩
  calc n = (Finset.range n).card := (Finset.card_range n).symm
    _ ≤ (es.map (fun e => e.position.toNat)).toFinset.card := Finset.card_le_card inside
    _ ≤ (es.map (fun e => e.position.toNat)).length := List.toFinset_card_le _
    _ = es.length := List.length_map _

/-- The events name the final tokens at the positions they give. -/
structure Describes (es : List Event) (tokenIds : List Int) : Prop where
  nonneg : ∀ e ∈ es, 0 ≤ e.position
  agrees : ∀ e ∈ es, e.position < tokenIds.length → e.token = tokenIds.getD e.position.toNat 0

theorem Describes.subset {es es' : List Event} {tokenIds : List Int} (fits : Describes es tokenIds)
    (fewer : ∀ e ∈ es', e ∈ es) : Describes es' tokenIds :=
  ⟨fun e member => fits.nonneg e (fewer e member),fun e member => fits.agrees e (fewer e member)⟩

variable (tokenIds : List Int) (rid : String) (es : List Event)

structure Placed (before : List Event) (s : AlignState) : Prop where
  length : s.aligned.length = tokenIds.length
  label : ∀ j < tokenIds.length, s.aligned.getD j false = labelAt before j
  seen : ∀ j, j ∈ s.seenPositions ↔ j < tokenIds.length ∧ covers before j = true

/-- One event places its label at its position, or lies past the end. -/
theorem alignEvent_placed (before : List Event) (e : Event) (s : AlignState) (i : Nat)
    (placed : Placed tokenIds before s) (nonneg : 0 ≤ e.position)
    (agrees : e.position < tokenIds.length → e.token = tokenIds.getD e.position.toNat 0) :
    ∃ s', alignEvent tokenIds rid s i e.teacher e.position (some e.token) = .ok s' ∧
      Placed tokenIds (before ++ [e]) s' := by
  have labelNext : ∀ j, labelAt (before ++ [e]) j =
      (labelAt before j || (e.position == (j : Int) && e.teacher)) := by simp [labelAt]
  have coversNext : ∀ j, covers (before ++ [e]) j = (covers before j || e.position == (j : Int)) := by
    simp [covers]
  by_cases outside : e.position ≥ tokenIds.length
  · refine ⟨{ s with ignoredOob := s.ignoredOob + 1 },?_,placed.length,?_,?_⟩
    · rw [alignEvent,if_neg (Int.not_lt.mpr nonneg),if_pos outside]
    · intro j inside
      have apart : (e.position == (j : Int)) = false := by
        rw [beq_eq_false_iff_ne]
        omega
      simp only [labelNext,apart,Bool.false_and,Bool.or_false]
      exact placed.label j inside
    · intro j
      rw [coversNext,placed.seen j]
      constructor
      · rintro ⟨inside,covered⟩
        exact ⟨inside,by simp [covered]⟩
      · rintro ⟨inside,covered⟩
        have apart : (e.position == (j : Int)) = false := by
          rw [beq_eq_false_iff_ne]
          omega
        exact ⟨inside,by simpa [apart] using covered⟩
  · obtain ⟨p,position⟩ : ∃ p : Nat, e.position = p := ⟨e.position.toNat,(Int.toNat_of_nonneg nonneg).symm⟩
    have inside : p < tokenIds.length := by omega
    have same : e.token = tokenIds.getD p 0 := by simpa [position] using agrees (by omega)
    refine ⟨{ s with
      aligned := s.aligned.set p (s.aligned.getD p false || e.teacher)
      seenPositions := insert p s.seenPositions },?_,?_,?_,?_⟩
    · rw [alignEvent,if_neg (Int.not_lt.mpr nonneg),if_neg outside]
      simp only [position,Int.toNat_natCast,same,ne_eq,not_true,if_false]
    · simpa using placed.length
    · intro j bound
      have room : p < s.aligned.length := by rw [placed.length]; exact inside
      by_cases here : j = p
      · subst here
        simp only [labelNext,position,beq_self_eq_true,Bool.true_and,← placed.label j bound]
        simp [List.getD_eq_getElem?_getD,room]
      · have apart : (e.position == (j : Int)) = false := by
          rw [beq_eq_false_iff_ne]
          omega
        simp only [labelNext,apart,Bool.false_and,Bool.or_false,← placed.label j bound]
        rw [List.getD_eq_getElem?_getD,List.getElem?_set_ne (Ne.symm here),List.getD_eq_getElem?_getD]
    · intro j
      rw [Finset.mem_insert,placed.seen j,coversNext,position]
      by_cases here : j = p
      · subst here
        simp [inside]
      · have apart : ((p : Int) == (j : Int)) = false := by
          rw [beq_eq_false_iff_ne]
          omega
        simp [here,apart]

variable (fits : Describes es tokenIds)

include fits

theorem alignEvents_placed (count : Nat) (bound : count ≤ es.length) :
    ∃ s, alignEvents tokenIds rid (es.map Event.teacher) (some (es.map Event.token))
      (es.map Event.position) count = .ok s ∧ Placed tokenIds (es.take count) s := by
  induction count with
  | zero =>
    refine ⟨_,rfl,by simp,?_,?_⟩
    · intro j inside
      simp [labelAt,List.getD_eq_getElem?_getD,inside]
    · simp [covers]
  | succ count ih =>
    obtain ⟨s,sofar,placed⟩ := ih (by omega)
    have inside : count < es.length := bound
    have member : es[count] ∈ es := List.getElem_mem inside
    obtain ⟨s',next,after⟩ := alignEvent_placed tokenIds rid _ es[count] s count placed
      (fits.nonneg _ member) (fits.agrees _ member)
    refine ⟨s',?_,by simpa using after⟩
    rw [alignEvents_succ,sofar]
    simpa [Except.bind,List.getD_eq_getElem?_getD,inside] using next

theorem alignMask_loop :
    ∃ s, alignEvents tokenIds rid (es.map Event.teacher) (some (es.map Event.token))
      (es.map Event.position) (es.map Event.teacher).length = .ok s ∧ Placed tokenIds es s := by
  obtain ⟨s,ran,placed⟩ := alignEvents_placed tokenIds rid es fits es.length (Nat.le_refl _)
  exact ⟨s,by simpa using ran,by simpa using placed⟩

/-- Events that cover the response give every position its label. -/
theorem alignMask_covered (covered : Covered tokenIds.length es) :
    alignMaskByPositions tokenIds rid (es.map Event.teacher) (some (es.map Event.token))
      (es.map Event.position) = .ok (labels tokenIds.length es) := by
  obtain ⟨s,ran,placed⟩ := alignMask_loop tokenIds rid es fits
  have full : (List.range tokenIds.length).filter (fun j => j ∉ s.seenPositions) = [] := by
    simp only [List.filter_eq_nil_iff,List.mem_range,decide_eq_true_eq,not_not]
    exact fun j inside => (placed.seen j).mpr ⟨inside,covered j inside⟩
  have exact : s.aligned = labels tokenIds.length es := by
    apply List.ext_getElem
    · simp [labels,placed.length]
    · intro j left right
      have bound : j < tokenIds.length := by rwa [← placed.length]
      have label := placed.label j bound
      simpa [labels,List.getD_eq_getElem?_getD,left] using label
  rw [alignMaskByPositions,if_neg (by simp)]
  simp only [ran,bind,Except.bind,full,exact]
  rfl

/-- A position without an event is an error, not a default. -/
theorem alignMask_uncovered (hole : ¬ Covered tokenIds.length es) :
    ∃ detail, alignMaskByPositions tokenIds rid (es.map Event.teacher) (some (es.map Event.token))
      (es.map Event.position) =
        .error (s!"OPD2 position coverage incomplete for request_id={rid}: " ++ detail) := by
  obtain ⟨s,ran,placed⟩ := alignMask_loop tokenIds rid es fits
  have missing : (List.range tokenIds.length).filter (fun j => j ∉ s.seenPositions) ≠ [] := by
    simp only [Covered,not_forall] at hole
    obtain ⟨j,inside,absent⟩ := hole
    apply List.ne_nil_of_mem
    rw [List.mem_filter,List.mem_range]
    refine ⟨inside,?_⟩
    simp [placed.seen j,absent]
  refine ⟨s.coverage tokenIds.length
    ((List.range tokenIds.length).filter (fun j => j ∉ s.seenPositions)),?_⟩
  rw [alignMaskByPositions,if_neg (by simp)]
  simp only [ran,bind,Except.bind,if_pos missing]

end Labels

end RelayOpd
