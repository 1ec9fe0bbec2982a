import RelayOpd.FanIn
import RelayOpd.MaskAlign

/-! When `pop_with_actions` takes a request's stores as complete, with every chunk
sent by each of several ranks. -/
namespace RelayOpd

open FanIn

/-- The chunks of one request that have arrived, by rank, and the server's stores. -/
structure Wire (ranks : Nat) where
  arrived : List (Fin ranks × Chunk)
  stores : MaskStores

section Run

variable {ranks : Nat} (rid : String) (chunks : List Chunk)

/-- One datagram reaches the receiver: the next chunk of some rank, or traffic that
is no chunk of this request. -/
inductive Arrives : Wire ranks → Wire ranks → Prop where
  | chunk (w : Wire ranks) (r : Fin ranks) (c : Chunk)
    (next : sentBy r w.arrived ++ [c] <+: chunks) :
    Arrives w ⟨w.arrived ++ [(r,c)],w.stores.deliver (.chunk rid c.args.chunk)⟩
  | other (w : Wire ranks) (r : Received) (foreign : ∀ c, r ≠ .chunk rid c) :
    Arrives w ⟨w.arrived,w.stores.deliver r⟩

/-- Before the request's first chunk nothing is stored for it. -/
def Fresh (s : MaskStores) : Prop := s.entry rid = entryOf []

def Reachable (w : Wire ranks) : Prop :=
  ∃ s, Fresh rid s ∧ Relation.ReflTransGen (Arrives rid chunks) ⟨[],s⟩ w

/-- The stores hold the arrivals, and each rank has delivered a prefix. -/
structure Consistent (w : Wire ranks) : Prop where
  stored : w.stores.entry rid = entryOf (w.arrived.map Prod.snd)
  delivered : Delivered chunks w.arrived

theorem arrives_consistent (w w' : Wire ranks) (step : Arrives rid chunks w w')
    (consistent : Consistent rid chunks w) : Consistent rid chunks w' := by
  cases step with
  | chunk r c next =>
    refine ⟨?_,consistent.delivered.arrive r c next⟩
    simpa using entry_deliver_chunk w.stores rid _ c consistent.stored
  | other r foreign =>
    refine ⟨?_,consistent.delivered⟩
    rw [← consistent.stored]
    exact entry_deliver_other w.stores rid r foreign

theorem reachable_consistent (w : Wire ranks) (reached : Reachable rid chunks w) :
    Consistent rid chunks w := by
  obtain ⟨s,fresh,run⟩ := reached
  induction run with
  | refl => exact ⟨fresh,Delivered.empty chunks⟩
  | tail _ step ih => exact arrives_consistent rid chunks _ _ step ih

/-- Every log of prefixes arises on some run. -/
theorem reachable_of_delivered (log : List (Fin ranks × Chunk)) (all : Delivered chunks log) :
    ∃ w : Wire ranks, Reachable rid chunks w ∧ w.arrived = log := by
  induction log using List.reverseRecOn with
  | nil => exact ⟨⟨[],{}⟩,⟨{},rfl,.refl⟩,rfl⟩
  | append_singleton log entry ih =>
    obtain ⟨r,c⟩ := entry
    obtain ⟨sofar,next⟩ := all.init
    obtain ⟨w,⟨s,fresh,run⟩,rfl⟩ := ih sofar
    exact ⟨_,⟨s,fresh,run.tail (.chunk w r c next)⟩,rfl⟩

end Run

section Readiness

variable {ranks : Nat} (rid : String) (chunks : List Chunk) (tokenIds : List Int)

/-- What a poll of the wire's stores aligns. -/
def alignWire (w : Wire ranks) : Except String (List Bool) :=
  let e := w.stores.entry rid
  alignMaskByPositions tokenIds rid (e.mask.getD []) e.tokens (e.positions.getD [])

/-- Whenever a poll finds the stores ready, every position is present, and the mask
is the one that all the chunks describe. -/
def ReadySafe (ranks : Nat) : Prop :=
  ∀ w : Wire ranks, Reachable rid chunks w →
    (w.stores.entry rid).ready tokenIds.length = true →
      (∀ j < tokenIds.length, (j : Int) ∈ (w.stores.entry rid).positions.getD []) ∧
      alignWire rid tokenIds w = .ok (labels tokenIds.length (eventsOf chunks))

/-- No prefix of the chunks that leaves a hole reaches the count when every rank has
sent it, and no chunk after coverage changes a label. -/
def ChunksSafe (ranks n : Nat) (chunks : List Chunk) : Prop :=
  ∀ p, p <+: chunks →
    if Covered n (eventsOf p) then labels n (eventsOf p) = labels n (eventsOf chunks)
    else ranks * (eventsOf p).length < n

theorem mem_eventsOf (chunks : List Chunk) (e : Event) :
    e ∈ eventsOf chunks ↔ ∃ c ∈ chunks, e ∈ c.events := by simp [eventsOf]

theorem eventsOf_length (chunks : List Chunk) :
    (eventsOf chunks).length = (chunks.map (fun c => c.events.length)).sum := by
  simp [eventsOf,List.length_flatMap]

theorem arrived_sent (w : Wire ranks) (consistent : Consistent rid chunks w) (c : Chunk)
    (arrived : c ∈ w.arrived.map Prod.snd) : c ∈ chunks := by
  obtain ⟨⟨r,c⟩,entry,rfl⟩ := List.mem_map.mp arrived
  exact (consistent.delivered r).subset ((mem_sentBy w.arrived r c).mpr entry)

theorem stored_positions (w : Wire ranks) (consistent : Consistent rid chunks w) (j : Nat) :
    (j : Int) ∈ (w.stores.entry rid).positions.getD [] ↔
      covers (eventsOf (w.arrived.map Prod.snd)) j = true := by
  by_cases empty : w.arrived.map Prod.snd = []
  · simp [consistent.stored,empty,entryOf,PyDict.gather,covers,eventsOf]
  · obtain ⟨_,_,positions⟩ := entryOf_filled _ empty
    simp [consistent.stored,positions,covers]

theorem alignWire_eq (w : Wire ranks) (consistent : Consistent rid chunks w)
    (filled : w.arrived ≠ []) :
    alignWire rid tokenIds w =
      let es := eventsOf (w.arrived.map Prod.snd)
      alignMaskByPositions tokenIds rid (es.map Event.teacher) (some (es.map Event.token))
        (es.map Event.position) := by
  obtain ⟨mask,tokens,positions⟩ := entryOf_filled (w.arrived.map Prod.snd) (by simpa using filled)
  simp [alignWire,consistent.stored,mask,tokens,positions]

/-- The rank that is ahead decides what the stores cover. -/
theorem ready_covered (n : Nat) (safe : ChunksSafe ranks n chunks) (w : Wire ranks)
    (consistent : Consistent rid chunks w) (ready : (w.stores.entry rid).ready n = true) :
    w.arrived ≠ [] ∧ Covered n (eventsOf (w.arrived.map Prod.snd)) ∧
      labels n (eventsOf (w.arrived.map Prod.snd)) = labels n (eventsOf chunks) := by
  rw [consistent.stored,entryOf_ready] at ready
  obtain ⟨filled,enough⟩ := ready
  have arrived : w.arrived ≠ [] := by simpa using filled
  obtain ⟨⟨first,c⟩,rest,shape⟩ := List.exists_cons_of_ne_nil arrived
  have ranked : Nonempty (Fin ranks) := ⟨first⟩
  obtain ⟨ahead,leads⟩ := consistent.delivered.leader
  have same : ∀ e, e ∈ eventsOf (sentBy ahead w.arrived) ↔ e ∈ eventsOf (w.arrived.map Prod.snd) := by
    intro e
    simp only [mem_eventsOf,mem_leader leads]
  have total : (eventsOf (w.arrived.map Prod.snd)).length ≤
      ranks * (eventsOf (sentBy ahead w.arrived)).length := by
    have bound := sum_le_leader leads (fun c => c.events.length)
    simpa [eventsOf_length,Function.comp_def] using bound
  have prefixSafe := safe _ (consistent.delivered ahead)
  split_ifs at prefixSafe with covered
  · exact ⟨arrived,(covered_congr _ same).mp covered,(labels_congr _ same).symm.trans prefixSafe⟩
  · omega

variable (fits : Describes (eventsOf chunks) tokenIds)

include fits

theorem alignWire_covered (w : Wire ranks) (consistent : Consistent rid chunks w)
    (filled : w.arrived ≠ [])
    (covered : Covered tokenIds.length (eventsOf (w.arrived.map Prod.snd))) :
    alignWire rid tokenIds w =
      .ok (labels tokenIds.length (eventsOf (w.arrived.map Prod.snd))) := by
  have described : Describes (eventsOf (w.arrived.map Prod.snd)) tokenIds := by
    refine fits.subset (fun e member => ?_)
    obtain ⟨c,arrived,inside⟩ := (mem_eventsOf _ e).mp member
    exact (mem_eventsOf _ e).mpr ⟨c,arrived_sent rid chunks w consistent c arrived,inside⟩
  rw [alignWire_eq rid chunks tokenIds w consistent filled]
  exact alignMask_covered tokenIds rid _ described covered

theorem readySafe_of_chunksSafe (safe : ChunksSafe ranks tokenIds.length chunks) :
    ReadySafe rid chunks tokenIds ranks := by
  intro w reached ready
  have consistent := reachable_consistent rid chunks w reached
  obtain ⟨arrived,covered,same⟩ := ready_covered rid chunks tokenIds.length safe w consistent ready
  refine ⟨fun j inside => (stored_positions rid chunks w consistent j).mpr (covered j inside),?_⟩
  rw [alignWire_covered rid chunks tokenIds fits w consistent arrived covered,same]

theorem chunksSafe_of_readySafe (populated : 0 < ranks) (safe : ReadySafe rid chunks tokenIds ranks) :
    ChunksSafe ranks tokenIds.length chunks := by
  intro p before
  have ranked : Nonempty (Fin ranks) := ⟨⟨0,populated⟩⟩
  obtain ⟨log,sent⟩ := exists_broadcast (ρ := Fin ranks) p
  have all : Delivered chunks log := fun r => by rw [sent r]; exact before
  obtain ⟨w,reached,rfl⟩ := reachable_of_delivered rid chunks log all
  have consistent := reachable_consistent rid chunks w reached
  have same : ∀ e, e ∈ eventsOf p ↔ e ∈ eventsOf (w.arrived.map Prod.snd) := by
    intro e
    have leads : ∀ r, sentBy r w.arrived <+: sentBy ⟨0,populated⟩ w.arrived := fun r => by simp [sent]
    simp only [mem_eventsOf,← mem_leader leads,sent]
  have total : (eventsOf (w.arrived.map Prod.snd)).length = ranks * (eventsOf p).length := by
    have count := sum_sentBy w.arrived (fun c => c.events.length)
    simpa [eventsOf_length,Function.comp_def,sent] using count
  have filled : 0 < (eventsOf p).length → w.arrived ≠ [] := by
    rintro positive empty
    have zero : (eventsOf (w.arrived.map Prod.snd)).length = 0 := by simp [empty,eventsOf]
    have product : 0 < ranks * (eventsOf p).length := Nat.mul_pos populated positive
    omega
  have isReady : w.arrived ≠ [] → tokenIds.length ≤ (eventsOf (w.arrived.map Prod.snd)).length →
      (w.stores.entry rid).ready tokenIds.length = true := by
    intro arrived enough
    rw [consistent.stored,entryOf_ready]
    exact ⟨by simpa using arrived,enough⟩
  split_ifs with covered
  · have here := (covered_congr _ same).mp covered
    by_cases nothing : (eventsOf p).length = 0
    · have none : tokenIds.length = 0 := by
        have bound := covered.le_length
        omega
      simp [labels,none]
    · have arrived := filled (by omega)
      obtain ⟨_,mask⟩ := safe w reached (isReady arrived here.le_length)
      rw [alignWire_covered rid chunks tokenIds fits w consistent arrived here] at mask
      rw [labels_congr _ same]
      exact Except.ok.inj mask
  · by_contra reaches
    have holes : 0 < tokenIds.length := by
      by_contra zero
      exact covered (fun j inside => absurd inside (by omega))
    have arrived : w.arrived ≠ [] := by
      apply filled
      by_contra zero
      have nothing : (eventsOf p).length = 0 := by omega
      simp only [nothing,Nat.mul_zero] at reaches
      omega
    obtain ⟨present,_⟩ := safe w reached (isReady arrived (by omega))
    have covers := fun j inside => (stored_positions rid chunks w consistent j).mp (present j inside)
    exact covered ((covered_congr _ same).mpr covers)

/-- Readiness is safe exactly for the chunk lists that satisfy `ChunksSafe`. -/
theorem mask_ready_iff (populated : 0 < ranks) :
    ReadySafe rid chunks tokenIds ranks ↔ ChunksSafe ranks tokenIds.length chunks :=
  ⟨chunksSafe_of_readySafe rid chunks tokenIds fits populated,
    readySafe_of_chunksSafe rid chunks tokenIds fits⟩

end Readiness

/-- Chunks that give the positions in order, each once, are safe as long as every
prefix that falls short of the response stays short when all ranks have sent it. -/
theorem chunksSafe_consecutive (ranks n : Nat) (chunks : List Chunk)
    (consecutive : ∀ k (bound : k < (eventsOf chunks).length), (eventsOf chunks)[k].position = k)
    (short : ∀ p, p <+: chunks → (eventsOf p).length < n → ranks * (eventsOf p).length < n) :
    ChunksSafe ranks n chunks := by
  intro p before
  obtain ⟨rest,rfl⟩ := before
  have split : eventsOf (p ++ rest) = eventsOf p ++ eventsOf rest := by simp [eventsOf]
  have early : ∀ k (bound : k < (eventsOf p).length), (eventsOf p)[k].position = k := by
    intro k bound
    have place := consecutive k (by rw [split,List.length_append]; omega)
    simpa [split,bound] using place
  have late : ∀ e ∈ eventsOf rest, ((eventsOf p).length : Int) ≤ e.position := by
    intro e member
    obtain ⟨k,bound,rfl⟩ := List.getElem_of_mem member
    have place := consecutive ((eventsOf p).length + k) (by rw [split,List.length_append]; omega)
    simp only [split] at place
    rw [List.getElem_append_right (by omega)] at place
    simp only [Nat.add_sub_cancel_left] at place
    omega
  split_ifs with covered
  · have enough := covered.le_length
    have label : ∀ j < n, labelAt (eventsOf p) j = labelAt (eventsOf (p ++ rest)) j := by
      intro j inside
      have silent : labelAt (eventsOf rest) j = false := by
        simp only [labelAt,List.any_eq_false,Bool.and_eq_true,beq_iff_eq]
        rintro e member ⟨here,_⟩
        have beyond := late e member
        omega
      rw [split]
      simp only [labelAt,List.any_append] at silent ⊢
      simp [silent]
    simp only [labels]
    exact List.map_congr_left (fun j member => label j (List.mem_range.mp member))
  · apply short p (List.prefix_append p rest)
    by_contra long
    refine covered (fun j inside => List.any_eq_true.mpr ?_)
    have bound : j < (eventsOf p).length := by omega
    exact ⟨(eventsOf p)[j],List.getElem_mem bound,by simp [early j bound]⟩

section Example

def firstChunk : Chunk where
  events := [⟨false,5,0⟩]
  nonempty := by decide
  small := by decide
  range := by decide
  actionCount := by rintro _ ⟨⟩
  actionRange := by rintro _ ⟨⟩

def secondChunk : Chunk where
  events := [⟨true,6,1⟩]
  nonempty := by decide
  small := by decide
  range := by decide
  actionCount := by rintro _ ⟨⟩
  actionRange := by rintro _ ⟨⟩

theorem twoChunks_describe : Describes (eventsOf [firstChunk,secondChunk]) [5,6] :=
  ⟨by decide,by decide⟩

/-- With one rank the two chunks are popped together. -/
theorem mask_ready_iff_single : ReadySafe "r" [firstChunk,secondChunk] [5,6] 1 := by
  refine (mask_ready_iff "r" _ _ twoChunks_describe (by decide)).mpr ?_
  refine chunksSafe_consecutive 1 2 _ ?_ (fun p _ short => by omega)
  decide

/-- Both ranks have sent the first chunk, neither the second: the count is reached,
position 1 is missing, and the alignment raises. -/
theorem ready_without_coverage :
    Covered 2 (eventsOf [firstChunk,secondChunk]) ∧
    (∃ w : Wire 2, Reachable "r" [firstChunk,secondChunk] w ∧
      (w.stores.entry "r").ready 2 = true ∧
      alignWire "r" [5,6] w = .error ("OPD2 position coverage incomplete for request_id=r: " ++
        "covered=1, expected=2, missing_head=[1], ignored_oob=0")) ∧
    ¬ ReadySafe "r" [firstChunk,secondChunk] [5,6] 2 := by
  have reached : ∃ w : Wire 2, Reachable "r" [firstChunk,secondChunk] w ∧
      w.arrived = [(0,firstChunk),(1,firstChunk)] := by
    refine reachable_of_delivered "r" _ _ ?_
    intro r
    have one : sentBy r [((0 : Fin 2),firstChunk),(1,firstChunk)] = [firstChunk] := by
      match r with
      | 0 => rfl
      | 1 => rfl
    rw [one]
    exact ⟨[secondChunk],rfl⟩
  obtain ⟨w,reachable,arrived⟩ := reached
  have consistent := reachable_consistent "r" _ w reachable
  have isReady : (w.stores.entry "r").ready 2 = true := by
    rw [consistent.stored,arrived]
    rfl
  have raised : alignWire "r" [5,6] w =
      .error ("OPD2 position coverage incomplete for request_id=r: " ++
        "covered=1, expected=2, missing_head=[1], ignored_oob=0") := by
    rw [alignWire,consistent.stored,arrived]
    rfl
  refine ⟨by decide,⟨w,reachable,isReady,raised⟩,fun safe => ?_⟩
  obtain ⟨_,mask⟩ := safe w reachable isReady
  rw [raised] at mask
  cases mask

end Example

end RelayOpd
