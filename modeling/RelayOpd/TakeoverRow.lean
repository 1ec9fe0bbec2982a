import RelayOpd.RelayStep
import RelayOpd.Budget

/-! A request inside a takeover. The truncation loop cuts the row of the standard
sampler at the position where the takeover's token or paragraph budget is spent. -/
namespace RelayOpd

open Budget

section KeepUntil

variable {cap marks : Int}

theorem spent_singleton (seen : List (Nat × Bool)) (x : Nat × Bool) :
    Spent Prod.snd cap marks (seen ++ [x]) ↔
      cap ≤ (seen.length : Int) + 1 ∨
        marks - (if x.2 then (seen.countP Prod.snd : Int) + 1 else seen.countP Prod.snd) ≤ 0 := by
  cases flag : x.2 <;> simp [Spent,List.countP_append,flag]

/-- The loop stops at the first position that spends a budget. -/
theorem keepUntilPos_spec (l seen : List (Nat × Bool)) :
    (keepUntilPos cap marks (seen.length + 1) (seen.countP Prod.snd) l = none ∧
      ∀ p, p <+: l → p ≠ [] → ¬ Spent Prod.snd cap marks (seen ++ p)) ∨
    ∃ before c b after, l = before ++ (c,b) :: after ∧
      keepUntilPos cap marks (seen.length + 1) (seen.countP Prod.snd) l = some c ∧
      Spent Prod.snd cap marks (seen ++ before ++ [(c,b)]) ∧
      ∀ p, p <+: before → p ≠ [] → ¬ Spent Prod.snd cap marks (seen ++ p) := by
  induction l generalizing seen with
  | nil => exact .inl ⟨rfl,fun p before some => absurd (List.prefix_nil.mp before) some⟩
  | cons x rest ih =>
    obtain ⟨c,b⟩ := x
    have now := @spent_singleton cap marks seen (c,b)
    have next : keepUntilPos cap marks (seen.length + 1) (seen.countP Prod.snd) ((c,b) :: rest) =
        if Spent Prod.snd cap marks (seen ++ [(c,b)]) then some c
        else keepUntilPos cap marks ((seen ++ [(c,b)]).length + 1)
          ((seen ++ [(c,b)]).countP Prod.snd) rest := by
      rw [keepUntilPos]
      simp only [now]
      cases b <;> simp [List.countP_append]
    by_cases spent : Spent Prod.snd cap marks (seen ++ [(c,b)])
    · refine .inr ⟨[],c,b,rest,rfl,by rw [next,if_pos spent],by simpa using spent,?_⟩
      exact fun p before some => absurd (List.prefix_nil.mp before) some
    · rw [if_neg spent] at next
      have first : ∀ q, q ≠ [] → (q <+: (c,b) :: rest ∨ ∃ before, q <+: (c,b) :: before) →
          ∃ p, q = (c,b) :: p := by
        rintro q some (before | ⟨_,before⟩) <;>
          obtain ⟨p,rfl,_⟩ := (List.prefix_cons_iff.mp before).resolve_left some <;> exact ⟨p,rfl⟩
      rcases ih (seen ++ [(c,b)]) with ⟨none,fresh⟩ | ⟨before,d,e,after,split,found,full,fresh⟩
      · refine .inl ⟨next.trans none,fun q within some => ?_⟩
        obtain ⟨p,rfl⟩ := first q some (.inl within)
        rcases p with _ | ⟨y,p⟩
        · exact spent
        · have := fresh (y :: p) ((List.cons_prefix_cons.mp within).2) (List.cons_ne_nil y p)
          simpa using this
      · refine .inr ⟨(c,b) :: before,d,e,after,by rw [split]; rfl,next.trans found,by simpa using full,?_⟩
        intro q within some
        obtain ⟨p,rfl⟩ := first q some (.inr ⟨_,within⟩)
        rcases p with _ | ⟨y,p⟩
        · exact spent
        · have := fresh (y :: p) ((List.cons_prefix_cons.mp within).2) (List.cons_ne_nil y p)
          simpa using this

/-- The kept positions are the cut of the emitted ones. -/
theorem keepUntilPos_cut (tokens : 0 < cap) (paragraphs : 0 < marks) (l : List (Nat × Bool)) :
    (keepUntilPos cap marks 1 0 l = none ∧ ¬ Spent Prod.snd cap marks l) ∨
    ∃ before c b, keepUntilPos cap marks 1 0 l = some c ∧
      Cut Prod.snd cap marks l (before ++ [(c,b)]) ∧
      Spent Prod.snd cap marks (before ++ [(c,b)]) := by
  have empty : ¬ Spent Prod.snd cap marks ([] : List (Nat × Bool)) := by
    simp only [Spent,List.length_nil,List.countP_nil]
    omega
  rcases keepUntilPos_spec l [] with ⟨none,fresh⟩ | ⟨before,c,b,after,split,found,full,fresh⟩
  · refine .inl ⟨none,?_⟩
    by_cases nil : l = []
    · rwa [nil]
    · exact fresh l (List.prefix_refl l) nil
  · refine .inr ⟨before,c,b,found,⟨?_,?_,.inl full⟩,full⟩
    · rw [split]
      exact ⟨after,by simp⟩
    · intro p within apart
      have inside : p <+: before := by
        rcases List.prefix_concat_iff.mp within with same | inside
        · exact absurd same apart
        · exact inside
      by_cases nil : p = []
      · rwa [nil]
      · exact fresh p inside nil

end KeepUntil

section Row

variable (cfg : RelayConfig) (stopId : Option Int) (width : Nat) (inp : RowInput) (rs : ReqState)

/-- A token at column `c` ends a paragraph. -/
def isBoundary (c : Nat) : Bool := cfg.paragraphBoundaryIds.contains (inp.standard c)

/-- The columns the standard sampler fills, without the bonus column. -/
def takenColumns : List Nat :=
  (List.range width).filter (fun c => c != inp.numDrafts && isEmitted (inp.standard c))

/-- A request in a takeover with budget left, on a standard row that holds at most
one token past its drafts. -/
structure Taking (cap marks : Int) : Prop where
  held : taken cfg inp rs = true
  tokens : rs.tokens = some cap
  paragraphs : rs.paragraphs = some marks
  positive : 0 < marks
  fits : inp.numDrafts < width
  short : ∀ c, inp.numDrafts < c → isEmitted (inp.standard c) = false

variable {cfg width inp rs} {cap marks : Int}

theorem takeover_columns_eq : Grid.nonzero width (takeoverRow width inp).takeover = takenColumns width inp := by
  unfold Grid.nonzero takenColumns
  refine List.filter_congr (fun c member => ?_)
  have inside := List.mem_range.mp member
  simp only [takeoverRow,standardKept]
  split
  next bonus =>
    rw [bonus.1]
    simp [isEmitted,placeholderTokenId]
  next keeps =>
    cases shown : isEmitted (inp.standard c) with
    | false => simp
    | true =>
      have other : c ≠ inp.numDrafts := fun same => keeps ⟨same,same ▸ inside,shown⟩
      simp [other]

theorem takenColumns_output (c : Nat) (member : c ∈ takenColumns width inp) :
    standardKept width inp c = inp.standard c ∧ isEmitted (inp.standard c) = true ∧ c < width := by
  simp only [takenColumns,List.mem_filter,List.mem_range,Bool.and_eq_true,bne_iff_ne] at member
  exact ⟨if_neg (fun bonus => member.2.1 bonus.1),member.2.2,member.1⟩

theorem takenColumns_sorted : (takenColumns width inp).Pairwise (· < ·) :=
  List.pairwise_lt_range.filter _

/-- The loop state of a row in a takeover when the truncation loop reaches it. -/
theorem loopRow_taken (held : taken cfg inp rs = true) :
    loopRow cfg stopId width inp rs =
      truncateTakeover cfg stopId width rs ((enterRow cfg stopId width inp rs).markBoundaries cfg) := by
  have fires : trigger cfg inp rs = none := by simp [trigger,held]
  simp [loopRow,truncateRow,held,triggerOnlyRow,fires]

theorem enterRow_taken (held : taken cfg inp rs = true) :
    (enterRow cfg stopId width inp rs).tensors = takeoverRow width inp := by
  simp [enterRow,emitRow,held]

theorem taken_hit (held : taken cfg inp rs = true) (c : Nat) (member : c ∈ takenColumns width inp) :
    ((enterRow cfg stopId width inp rs).markBoundaries cfg).tensors.hits c = isBoundary cfg inp c := by
  obtain ⟨same,emitted,_⟩ := takenColumns_output c member
  simp [RowLoop.markBoundaries,enterRow_taken stopId held,takeoverRow,emitted,same,isBoundary]

theorem taken_tokens (held : taken cfg inp rs = true) : 0 < rs.tokens.getD 0 := by
  simp only [taken,Bool.and_eq_true,decide_eq_true_eq] at held
  exact held.2.2

/-- A row in a takeover after the loops: untouched while budget is left, else cut where the
budget is spent and counted as an ended takeover. -/
theorem taken_loop (held : taken cfg inp rs = true) (positive : 0 < rs.paragraphs.getD 0) :
    (¬ Spent (isBoundary cfg inp) (rs.tokens.getD 0) (rs.paragraphs.getD 0) (takenColumns width inp) ∧
      loopRow cfg stopId width inp rs = (enterRow cfg stopId width inp rs).markBoundaries cfg) ∨
    ∃ before keepUntil,
      Cut (isBoundary cfg inp) (rs.tokens.getD 0) (rs.paragraphs.getD 0) (takenColumns width inp)
        (before ++ [keepUntil]) ∧
      Spent (isBoundary cfg inp) (rs.tokens.getD 0) (rs.paragraphs.getD 0) (before ++ [keepUntil]) ∧
      loopRow cfg stopId width inp rs =
        let s := ((enterRow cfg stopId width inp rs).markBoundaries cfg).truncate keepUntil
          (takenColumns width inp)
        if cfg.maxTakeovers > 0 then s.endTakeover cfg.maxTakeovers stopId width keepUntil else s := by
  have tokens := taken_tokens held
  have empty : ¬ Spent (isBoundary cfg inp) (rs.tokens.getD 0) (rs.paragraphs.getD 0) [] := by
    simp only [Spent,List.length_nil,List.countP_nil]
    omega
  have columns : Grid.nonzero width
      ((enterRow cfg stopId width inp rs).markBoundaries cfg).tensors.takeover =
      takenColumns width inp := by
    simp [RowLoop.markBoundaries,enterRow_taken stopId held,takeover_columns_eq]
  have marked : (takenColumns width inp).map (fun c =>
      (c,((enterRow cfg stopId width inp rs).markBoundaries cfg).tensors.hits c)) =
      (takenColumns width inp).map (fun c => (c,isBoundary cfg inp c)) := by
    apply List.map_congr_left
    intro c member
    rw [taken_hit stopId held c member]
  rw [loopRow_taken stopId held]
  simp only [truncateTakeover,columns,marked]
  by_cases nil : takenColumns width inp = []
  · rw [nil]
    exact .inl ⟨empty,by simp⟩
  · have live : ¬ (takenColumns width inp = [] ∨ rs.tokens.getD 0 ≤ 0 ∨ rs.paragraphs.getD 0 ≤ 0) := by
      rintro (none | spent | spent)
      · exact nil none
      · omega
      · omega
    rw [if_neg live]
    have fst : ∀ x ∈ (takenColumns width inp).map (fun c => (c,isBoundary cfg inp c)),
        isBoundary cfg inp x.1 = x.2 := by
      intro x member
      obtain ⟨c,_,rfl⟩ := List.mem_map.mp member
      rfl
    have firsts : ((takenColumns width inp).map (fun c => (c,isBoundary cfg inp c))).map Prod.fst =
        takenColumns width inp := by
      rw [List.map_map]
      exact List.map_id' _
    rcases keepUntilPos_cut tokens positive
        ((takenColumns width inp).map (fun c => (c,isBoundary cfg inp c))) with
      ⟨none,fresh⟩ | ⟨before,c,b,found,cut,spent⟩
    · rw [none]
      exact .inl ⟨fun spent => fresh ((spent_map _ _ (fun _ _ => rfl)).mpr spent),rfl⟩
    · rw [found]
      have positions := cut.map Prod.fst fst
      have full : Spent (isBoundary cfg inp) (rs.tokens.getD 0) (rs.paragraphs.getD 0)
          ((before ++ [(c,b)]).map Prod.fst) :=
        (spent_map Prod.fst _ (fun x member => fst x (cut.before.subset member))).mpr spent
      rw [firsts] at positions
      rw [List.map_append] at positions full
      exact .inr ⟨before.map Prod.fst,c,positions,full,rfl⟩

theorem Taking.mem_columns (taking : Taking cfg width inp rs cap marks) (c : Nat) :
    c ∈ takenColumns width inp ↔ c < inp.numDrafts ∧ isEmitted (inp.standard c) = true := by
  have fits := taking.fits
  simp only [takenColumns,List.mem_filter,List.mem_range,Bool.and_eq_true,bne_iff_ne]
  constructor
  · rintro ⟨_,apart,emitted⟩
    refine ⟨?_,emitted⟩
    by_contra past
    rw [taking.short c (by omega)] at emitted
    contradiction
  · exact fun ⟨inside,emitted⟩ => ⟨by omega,by omega,emitted⟩

theorem Taking.kept_emitted (taking : Taking cfg width inp rs cap marks) (c : Nat) :
    isEmitted (standardKept width inp c) = true ↔ c ∈ takenColumns width inp := by
  rw [taking.mem_columns]
  unfold standardKept
  split
  next bonus =>
    simp only [isEmitted,placeholderTokenId]
    simp [bonus.1]
  next keeps =>
    constructor
    · intro emitted
      refine ⟨?_,emitted⟩
      by_contra past
      rcases Nat.lt_or_ge inp.numDrafts c with beyond | within
      · rw [taking.short c beyond] at emitted
        contradiction
      · exact keeps ⟨by omega,taking.fits,emitted⟩
    · exact fun ⟨_,emitted⟩ => emitted

theorem Taking.loop (taking : Taking cfg width inp rs cap marks) :
    (¬ Spent (isBoundary cfg inp) cap marks (takenColumns width inp) ∧
      loopRow cfg stopId width inp rs = (enterRow cfg stopId width inp rs).markBoundaries cfg) ∨
    ∃ before keepUntil,
      Cut (isBoundary cfg inp) cap marks (takenColumns width inp) (before ++ [keepUntil]) ∧
      Spent (isBoundary cfg inp) cap marks (before ++ [keepUntil]) ∧
      loopRow cfg stopId width inp rs =
        let s := ((enterRow cfg stopId width inp rs).markBoundaries cfg).truncate keepUntil
          (takenColumns width inp)
        if cfg.maxTakeovers > 0 then s.endTakeover cfg.maxTakeovers stopId width keepUntil else s := by
  have loop := @taken_loop cfg stopId width inp rs taking.held (by rw [taking.paragraphs]; exact taking.positive)
  simpa only [taking.tokens,taking.paragraphs,Option.getD_some] using loop

/-- What a takeover row shows: the kept columns, as the standard sampler filled
them and labelled teacher, and the budget that is left. -/
structure Shows (cfg : RelayConfig) (width : Nat) (inp : RowInput) (cap marks : Int) (kept : List Nat)
    (row : RowTensors × ReqState) : Prop where
  cut : Cut (isBoundary cfg inp) cap marks (takenColumns width inp) kept
  shown : ∀ c, c < width → (isEmitted (row.1.output c) = true ∧ row.1.stop c = false ↔ c ∈ kept)
  tokens : ∀ c ∈ kept, row.1.output c = inp.standard c
  labels : ∀ c ∈ kept, row.1.teacher c = true
  left : ¬ Spent (isBoundary cfg inp) cap marks kept →
    row.2.tokens = some (cap - kept.length) ∧
      row.2.paragraphs = some (marks - kept.countP (isBoundary cfg inp))
  overrun : Spent (isBoundary cfg inp) cap marks kept → row.2.tokens = none ∧ row.2.paragraphs = none

theorem Taking.state (taking : Taking cfg width inp rs cap marks) (s : RowLoop) (completed : Option Int)
    (kept : List Nat) (emitted : Grid.nonzero width s.tensors.takeover = kept) :
    updateRow cfg width inp rs s { rs with completed := completed } =
      if kept ≠ [] then
        if s.terminated = true ∨ marks - Grid.count width s.tensors.hits ≤ 0 ∨ cap - kept.length ≤ 0
        then ⟨none,none,completed⟩
        else ⟨some (cap - kept.length),some (marks - Grid.count width s.tensors.hits),completed⟩
      else ⟨some cap,some marks,completed⟩ := by
  have held := taking.held
  have fires : trigger cfg inp rs = none := by simp [trigger,held]
  have named : inp.named = true := by
    rw [taken,Bool.and_eq_true] at held
    exact held.1
  have count : Grid.count width s.tensors.takeover = kept.length := by rw [Grid.count,emitted]
  rw [updateRow,fires,named]
  simp [held,count,taking.tokens,taking.paragraphs,List.length_pos_iff]

theorem Taking.shows_open (taking : Taking cfg width inp rs cap marks)
    (fresh : ¬ Spent (isBoundary cfg inp) cap marks (takenColumns width inp))
    (loop : loopRow cfg stopId width inp rs = (enterRow cfg stopId width inp rs).markBoundaries cfg) :
    Shows cfg width inp cap marks (takenColumns width inp) (rowStep cfg stopId width inp rs) := by
  have emitted := taking.kept_emitted
  have tensors := @enterRow_taken cfg stopId width inp rs taking.held
  have columns : Grid.nonzero width (loopRow cfg stopId width inp rs).tensors.takeover =
      takenColumns width inp := by
    rw [loop]
    simp [RowLoop.markBoundaries,tensors,takeover_columns_eq]
  have hits : Grid.nonzero width (loopRow cfg stopId width inp rs).tensors.hits =
      (takenColumns width inp).filter (isBoundary cfg inp) := by
    apply Grid.nonzero_eq_of_mem
    · exact takenColumns_sorted.filter _
    · intro c
      rw [List.mem_filter,loop]
      constructor
      · rintro ⟨member,boundary⟩
        have inside := ((taking.mem_columns c).mp member).1
        exact ⟨by have := taking.fits; omega,(taken_hit stopId taking.held c member).trans boundary⟩
      · rintro ⟨bound,hit⟩
        have member : c ∈ takenColumns width inp := by
          simp only [RowLoop.markBoundaries,tensors,takeoverRow,Bool.and_eq_true] at hit
          exact (emitted c).mp hit.1
        exact ⟨member,(taken_hit stopId taking.held c member).symm.trans hit⟩
  have count : Grid.count width (loopRow cfg stopId width inp rs).tensors.hits =
      (takenColumns width inp).countP (isBoundary cfg inp) := by
    rw [Grid.count,hits,List.countP_eq_length_filter]
  have state := taking.state (loopRow cfg stopId width inp rs)
    (loopRow cfg stopId width inp rs).completed _ columns
  have going : (loopRow cfg stopId width inp rs).terminated = false := by rw [loop]; rfl
  have left : ¬ ((loopRow cfg stopId width inp rs).terminated = true ∨
      marks - Grid.count width (loopRow cfg stopId width inp rs).tensors.hits ≤ 0 ∨
      cap - (takenColumns width inp).length ≤ 0) := by
    rw [going,count]
    rintro (stop | spent | spent)
    · contradiction
    · exact fresh (.inr (by omega))
    · exact fresh (.inl (by omega))
  rw [if_neg left,count] at state
  refine ⟨⟨List.prefix_refl _,?_,.inr rfl⟩,?_,?_,?_,?_,fun spent => absurd spent fresh⟩
  · exact fun p before _ spent => fresh (spent.mono before)
  · intro c _
    rw [rowStep,loop]
    simp [RowLoop.markBoundaries,tensors,takeoverRow,RowTensors.blank,emitted]
  · intro c member
    rw [rowStep,loop]
    simp [RowLoop.markBoundaries,tensors,takeoverRow,(takenColumns_output c member).1]
  · intro c member
    rw [rowStep,loop]
    simpa [RowLoop.markBoundaries,tensors,takeoverRow] using (emitted c).mpr member
  · intro _
    simp only [rowStep,state]
    by_cases nil : takenColumns width inp = []
    · simp [nil]
    · simp [nil]

theorem endTakeover_tensors (s : RowLoop) (maxTakeovers : Int) (stop : Option Int) (pos : Nat)
    (room : pos + 1 < width) :
    (s.endTakeover maxTakeovers stop width pos).tensors = s.tensors ∨
      ∃ id, stop = some id ∧
        (s.endTakeover maxTakeovers stop width pos).tensors = (s.putInternalStop (pos+1) id).tensors := by
  have inside : ¬ pos + 1 ≥ width := by omega
  simp only [RowLoop.endTakeover,inside,if_false]
  by_cases last : s.completed.getD 0 + 1 ≥ maxTakeovers
  · cases stop with
    | none => exact .inl (by simp [last])
    | some id => exact .inr ⟨id,rfl,by simp [last,RowLoop.putInternalStop]⟩
  · exact .inl (by simp [last])

theorem endTakeover_terminated (s : RowLoop) (maxTakeovers : Int) (stop : Option Int) (pos : Nat) :
    (s.endTakeover maxTakeovers stop width pos).terminated = s.terminated := by
  simp only [RowLoop.endTakeover]
  by_cases last : s.completed.getD 0 + 1 ≥ maxTakeovers
  · cases stop <;> simp [last,RowLoop.putInternalStop]
  · simp [last]

/-- The row cut after `keepUntil`, before the ended takeover is counted. -/
def cutRow (cfg : RelayConfig) (stopId : Option Int) (width : Nat) (inp : RowInput) (rs : ReqState)
    (keepUntil : Nat) : RowLoop :=
  ((enterRow cfg stopId width inp rs).markBoundaries cfg).truncate keepUntil (takenColumns width inp)

/-- Past the kept position nothing is emitted. -/
theorem Taking.cut_dark (taking : Taking cfg width inp rs cap marks) (keepUntil c : Nat)
    (outside : ¬ (c ∈ takenColumns width inp ∧ c ≤ keepUntil)) :
    isEmitted ((cutRow cfg stopId width inp rs keepUntil).tensors.output c) = false ∧
      (cutRow cfg stopId width inp rs keepUntil).tensors.takeover c = false := by
  have tensors := @enterRow_taken cfg stopId width inp rs taking.held
  simp only [cutRow,RowLoop.truncate,RowLoop.markBoundaries,tensors,takeoverRow]
  by_cases member : c ∈ takenColumns width inp
  · have past : c ∈ takenColumns width inp ∧ keepUntil < c :=
      ⟨member,by by_contra early; exact outside ⟨member,by omega⟩⟩
    rw [if_pos past,if_pos past]
    exact ⟨rfl,rfl⟩
  · have off : ¬ (c ∈ takenColumns width inp ∧ keepUntil < c) := fun h => member h.1
    have quiet : isEmitted (standardKept width inp c) = false :=
      Bool.eq_false_iff.mpr (fun h => member ((taking.kept_emitted c).mp h))
    rw [if_neg off,if_neg off]
    exact ⟨quiet,quiet⟩

theorem Taking.cut_bright (taking : Taking cfg width inp rs cap marks) (keepUntil c : Nat)
    (member : c ∈ takenColumns width inp) (bounded : c ≤ keepUntil) :
    (cutRow cfg stopId width inp rs keepUntil).tensors.output c = inp.standard c ∧
      (cutRow cfg stopId width inp rs keepUntil).tensors.teacher c = true ∧
      (cutRow cfg stopId width inp rs keepUntil).tensors.takeover c = true := by
  have tensors := @enterRow_taken cfg stopId width inp rs taking.held
  have shown := (taking.kept_emitted c).mpr member
  have on : ¬ (c ∈ takenColumns width inp ∧ keepUntil < c) := fun h => by omega
  simp only [cutRow,RowLoop.truncate,RowLoop.markBoundaries,tensors,takeoverRow,if_neg on,shown]
  exact ⟨(takenColumns_output c member).1,trivial,trivial⟩

theorem Taking.cut_stop (taking : Taking cfg width inp rs cap marks) (keepUntil c : Nat) :
    (cutRow cfg stopId width inp rs keepUntil).tensors.stop c = false := by
  simp [cutRow,RowLoop.truncate,RowLoop.markBoundaries,@enterRow_taken cfg stopId width inp rs taking.held,takeoverRow,
    RowTensors.blank]

theorem Taking.shows_spent (taking : Taking cfg width inp rs cap marks) (before : List Nat)
    (keepUntil : Nat)
    (cut : Cut (isBoundary cfg inp) cap marks (takenColumns width inp) (before ++ [keepUntil]))
    (spent : Spent (isBoundary cfg inp) cap marks (before ++ [keepUntil]))
    (loop : loopRow cfg stopId width inp rs =
      if cfg.maxTakeovers > 0
      then (cutRow cfg stopId width inp rs keepUntil).endTakeover cfg.maxTakeovers stopId width keepUntil
      else cutRow cfg stopId width inp rs keepUntil) :
    Shows cfg width inp cap marks (before ++ [keepUntil]) (rowStep cfg stopId width inp rs) := by
  have kept := Grid.mem_prefix_of_sorted takenColumns_sorted cut.before
  have last : keepUntil ∈ takenColumns width inp := cut.before.subset (by simp)
  have inside := ((taking.mem_columns keepUntil).mp last).1
  have room : keepUntil + 1 < width := by have := taking.fits; omega
  have placed : (loopRow cfg stopId width inp rs).terminated = true ∧
      ((loopRow cfg stopId width inp rs).tensors = (cutRow cfg stopId width inp rs keepUntil).tensors ∨
      ∃ id, (loopRow cfg stopId width inp rs).tensors =
        ((cutRow cfg stopId width inp rs keepUntil).putInternalStop (keepUntil+1) id).tensors) := by
    rw [loop]
    split
    · rw [endTakeover_terminated]
      refine ⟨rfl,?_⟩
      rcases endTakeover_tensors (cutRow cfg stopId width inp rs keepUntil) cfg.maxTakeovers stopId
        keepUntil room with same | ⟨id,_,same⟩
      · exact .inl same
      · exact .inr ⟨id,same⟩
    · exact ⟨rfl,.inl rfl⟩
  -- Away from the stop column the final row is the cut row.
  have agree : ∀ c, c ≠ keepUntil + 1 →
      (loopRow cfg stopId width inp rs).tensors.output c =
        (cutRow cfg stopId width inp rs keepUntil).tensors.output c ∧
      (loopRow cfg stopId width inp rs).tensors.teacher c =
        (cutRow cfg stopId width inp rs keepUntil).tensors.teacher c ∧
      (loopRow cfg stopId width inp rs).tensors.takeover c =
        (cutRow cfg stopId width inp rs keepUntil).tensors.takeover c ∧
      (loopRow cfg stopId width inp rs).tensors.stop c = false := by
    intro c apart
    have quiet := taking.cut_stop stopId keepUntil c
    rcases placed.2 with same | ⟨id,same⟩
    · rw [same]
      exact ⟨rfl,rfl,rfl,quiet⟩
    · rw [same]
      simp only [RowLoop.putInternalStop,Function.update_of_ne apart]
      exact ⟨trivial,trivial,trivial,quiet⟩
  have next : (isEmitted ((loopRow cfg stopId width inp rs).tensors.output (keepUntil+1)) = false ∨
      (loopRow cfg stopId width inp rs).tensors.stop (keepUntil+1) = true) ∧
      (loopRow cfg stopId width inp rs).tensors.takeover (keepUntil+1) = false := by
    have dark := taking.cut_dark stopId keepUntil (keepUntil+1) (fun h => by omega)
    rcases placed.2 with same | ⟨id,same⟩
    · rw [same]
      exact ⟨.inl dark.1,dark.2⟩
    · rw [same]
      simp [RowLoop.putInternalStop]
  have emitted : ∃ c, c < width ∧ (loopRow cfg stopId width inp rs).tensors.takeover c = true := by
    refine ⟨keepUntil,by omega,?_⟩
    rw [(agree keepUntil (by omega)).2.2.1]
    exact (taking.cut_bright stopId keepUntil keepUntil last (Nat.le_refl _)).2.2
  have state := taking.state (loopRow cfg stopId width inp rs)
    (loopRow cfg stopId width inp rs).completed _ rfl
  have some : Grid.nonzero width (loopRow cfg stopId width inp rs).tensors.takeover ≠ [] := by
    obtain ⟨c,bound,on⟩ := emitted
    exact List.ne_nil_of_mem ((Grid.mem_nonzero _ _ _).mpr ⟨bound,on⟩)
  rw [if_pos some,if_pos (.inl placed.1)] at state
  refine ⟨cut,?_,?_,?_,fun fresh => absurd spent fresh,?_⟩
  · intro c _
    rw [kept c,rowStep]
    by_cases here : c = keepUntil + 1
    · subst here
      rcases next.1 with quiet | stop
      · simp [quiet]
      · simp [stop]
    · obtain ⟨output,_,_,quiet⟩ := agree c here
      rw [output,quiet]
      by_cases inRow : c ∈ takenColumns width inp ∧ c ≤ keepUntil
      · have bright := taking.cut_bright stopId keepUntil c inRow.1 inRow.2
        have shown := ((taking.mem_columns c).mp inRow.1).2
        simp [bright,shown,inRow]
      · have dark := taking.cut_dark stopId keepUntil c inRow
        simp [dark,inRow]
  · intro c member
    obtain ⟨inRow,bounded⟩ := (kept c).mp member
    rw [rowStep,(agree c (by omega)).1]
    exact (taking.cut_bright stopId keepUntil c inRow bounded).1
  · intro c member
    obtain ⟨inRow,bounded⟩ := (kept c).mp member
    rw [rowStep,(agree c (by omega)).2.1]
    exact (taking.cut_bright stopId keepUntil c inRow bounded).2.1
  · intro _
    rw [rowStep,state]
    exact ⟨rfl,rfl⟩

/-- One call keeps the cut of what the standard sampler yields. -/
theorem Taking.shows (taking : Taking cfg width inp rs cap marks) :
    ∃ kept, Shows cfg width inp cap marks kept (rowStep cfg stopId width inp rs) := by
  rcases taking.loop stopId with ⟨fresh,loop⟩ | ⟨before,keepUntil,cut,spent,loop⟩
  · exact ⟨_,taking.shows_open stopId fresh loop⟩
  · exact ⟨_,taking.shows_spent stopId before keepUntil cut spent loop⟩

end Row

end RelayOpd
