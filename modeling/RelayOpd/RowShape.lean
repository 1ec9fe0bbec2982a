import RelayOpd.RelayReference
import RelayOpd.TakeoverRow

/-! What one verification call leaves in a request's row, whatever its takeover
state: a row cut before some column, perhaps with the internal stop token there. -/
namespace RelayOpd

/-- The first `m` columns hold tokens and placeholders fill the others, those past
the width included. -/
def FilledTo (row : Nat → Int) (m : Nat) : Prop :=
  ∀ c, (c < m → isEmitted (row c) = true) ∧ (m ≤ c → row c = placeholderTokenId)

theorem isEmitted_placeholder : isEmitted placeholderTokenId = false := rfl

theorem FilledTo.emitted_iff {row : Nat → Int} {m : Nat} (filled : FilledTo row m) (c : Nat) :
    isEmitted (row c) = true ↔ c < m := by
  constructor
  · intro emitted
    by_contra past
    rw [(filled c).2 (by omega)] at emitted
    contradiction
  · exact (filled c).1

/-- A bounded set of columns without gaps is an initial segment. -/
theorem initial_segment (P : Nat → Prop) (bound : Nat) (bounded : ∀ c, P c → c < bound)
    (down : ∀ d, P d → ∀ c, c < d → P c) : ∃ m, m ≤ bound ∧ ∀ c, P c ↔ c < m := by
  classical
  have ends : ∃ m, ¬ P m := ⟨bound,fun holds => Nat.lt_irrefl _ (bounded bound holds)⟩
  refine ⟨Nat.find ends,Nat.find_min' ends (fun holds => Nat.lt_irrefl _ (bounded bound holds)),?_⟩
  intro c
  constructor
  · intro holds
    by_contra past
    rcases Nat.lt_or_ge (Nat.find ends) c with early | late
    · exact Nat.find_spec ends (down c holds _ early)
    · obtain rfl : c = Nat.find ends := by omega
      exact Nat.find_spec ends holds
  · exact fun early => Classical.not_not.mp (Nat.find_min ends early)

section Shapes

variable {stopId : Option Int} {row : Nat → Int} {k : Nat}

/-- `row` cut before column `k`, without any internal stop token. -/
def Bare (row : Nat → Int) (k : Nat) (t : RowTensors) : Prop :=
  ∀ c, t.output c = (if c < k then row c else placeholderTokenId) ∧ t.stop c = false

/-- `row` cut before column `k`; an internal stop token at `k` follows a token and
belongs to nobody. -/
structure CutAt (stopId : Option Int) (row : Nat → Int) (k : Nat) (t : RowTensors) : Prop where
  kept : ∀ c, c < k → t.output c = row c ∧ t.stop c = false
  rest : ∀ c, k < c → t.output c = placeholderTokenId ∧ t.stop c = false
  last : t.output k = placeholderTokenId ∧ t.stop k = false ∨
    ∃ id pos, stopId = some id ∧ k = pos + 1 ∧ isEmitted (row pos) = true ∧
      t.output k = id ∧ t.stop k = true ∧ t.teacher k = false

theorem Bare.cut {t : RowTensors} (bare : Bare row k t) : CutAt stopId row k t where
  kept := fun c before => by simpa [before] using bare c
  rest := fun c after => by simpa [Nat.not_lt.mpr (Nat.le_of_lt after)] using bare c
  last := .inl (by simpa using bare k)

/-- Ending a takeover writes the stop token right behind the last token, if at all. -/
theorem Bare.ended {s : RowLoop} {pos : Nat} (bare : Bare row (pos+1) s.tensors)
    (emitted : isEmitted (row pos) = true) (maxTakeovers : Int) (width : Nat) (room : pos + 1 < width) :
    CutAt stopId row (pos+1) (s.endTakeover maxTakeovers stopId width pos).tensors := by
  rcases endTakeover_tensors s maxTakeovers stopId pos room with same | ⟨id,given,placed⟩
  · rw [same]
    exact bare.cut
  · rw [placed]
    refine ⟨?_,?_,.inr ⟨id,pos,given,rfl,emitted,by simp [RowLoop.putInternalStop]⟩⟩
    · intro c before
      simpa [RowLoop.putInternalStop,Function.update_of_ne (Nat.ne_of_lt before),before] using bare c
    · intro c after
      simpa [RowLoop.putInternalStop,Function.update_of_ne (Nat.ne_of_gt after),
        Nat.not_lt.mpr (Nat.le_of_lt after)] using bare c

theorem CutAt.stop_iff {t : RowTensors} (cut : CutAt stopId row k t) (c : Nat) (stops : t.stop c = true) :
    c = k ∧ t.teacher c = false ∧ stopId = some (t.output c) := by
  rcases Nat.lt_trichotomy c k with before | rfl | after
  · rw [(cut.kept c before).2] at stops
    contradiction
  · rcases cut.last with ⟨_,quiet⟩ | ⟨id,pos,given,_,_,output,_,teacher⟩
    · rw [quiet] at stops
      contradiction
    · exact ⟨rfl,teacher,by rw [given,output]⟩
  · rw [(cut.rest c after).2] at stops
    contradiction

/-- An emitted column that is no stop lies before the cut. -/
theorem CutAt.before_of_emitted {t : RowTensors} (cut : CutAt stopId row k t) (c : Nat)
    (emitted : isEmitted (t.output c) = true) (quiet : t.stop c = false) : c < k := by
  by_contra past
  rcases Nat.eq_or_lt_of_le (Nat.not_lt.mp past) with rfl | after
  · rcases cut.last with ⟨off,_⟩ | ⟨_,_,_,_,_,_,on,_⟩
    · rw [off] at emitted
      contradiction
    · rw [quiet] at on
      contradiction
  · rw [(cut.rest c after).1] at emitted
    contradiction

/-- A cut row whose kept columns are all filled is filled. -/
theorem CutAt.filled {t : RowTensors} (cut : CutAt stopId row k t)
    (valid : ∀ id ∈ stopId, isEmitted id = true) (all : ∀ c, c < k → isEmitted (row c) = true) :
    ∃ m, m ≤ k + 1 ∧ FilledTo t.output m := by
  rcases cut.last with ⟨unfilled,_⟩ | ⟨id,pos,given,_,_,output,_⟩
  · refine ⟨k,by omega,fun c => ⟨fun before => ?_,fun past => ?_⟩⟩
    · rw [(cut.kept c before).1]
      exact all c before
    · rcases Nat.eq_or_lt_of_le past with rfl | after
      · exact unfilled
      · exact (cut.rest c after).1
  · refine ⟨k+1,by omega,fun c => ⟨fun before => ?_,fun past => (cut.rest c (by omega)).1⟩⟩
    rcases Nat.lt_or_ge c k with early | here
    · rw [(cut.kept c early).1]
      exact all c early
    · obtain rfl : c = k := by omega
      rw [output]
      exact valid id given

end Shapes

section Taken

theorem keepUntilPos_mem (cap paragraphs : Int) (l : List (Nat × Bool)) (idx : Nat) (seen : Int) (c : Nat)
    (found : keepUntilPos cap paragraphs idx seen l = some c) : c ∈ l.map Prod.fst := by
  induction l generalizing idx seen with
  | nil => simp [keepUntilPos] at found
  | cons x rest ih =>
    obtain ⟨outPos,isPara⟩ := x
    simp only [keepUntilPos] at found
    by_cases spent : (idx : Int) ≥ cap ∨ paragraphs - (if isPara then seen + 1 else seen) ≤ 0
    · rw [if_pos spent] at found
      obtain rfl := Option.some.inj found
      exact List.mem_cons_self
    · rw [if_neg spent] at found
      exact List.mem_cons_of_mem _ (ih _ _ found)

variable (cfg : RelayConfig) (stopId : Option Int) (width : Nat) (inp : RowInput) (rs : ReqState)

/-- The truncation loop leaves a row alone or cuts it after one of its takeover tokens. -/
theorem truncateTakeover_cases (s : RowLoop) :
    truncateTakeover cfg stopId width rs s = s ∨
    ∃ keepUntil, keepUntil ∈ Grid.nonzero width s.tensors.takeover ∧
      keepUntilPos (rs.tokens.getD 0) (rs.paragraphs.getD 0) 1 0
        ((Grid.nonzero width s.tensors.takeover).map (fun c => (c,s.tensors.hits c))) = some keepUntil ∧
      truncateTakeover cfg stopId width rs s =
        if cfg.maxTakeovers > 0 then
          (s.truncate keepUntil (Grid.nonzero width s.tensors.takeover)).endTakeover cfg.maxTakeovers
            stopId width keepUntil
        else s.truncate keepUntil (Grid.nonzero width s.tensors.takeover) := by
  unfold truncateTakeover
  simp only
  split
  · exact .inl rfl
  · cases found : keepUntilPos (rs.tokens.getD 0) (rs.paragraphs.getD 0) 1 0
        ((Grid.nonzero width s.tensors.takeover).map (fun c => (c,s.tensors.hits c))) with
    | none => exact .inl rfl
    | some keepUntil =>
      have member := keepUntilPos_mem _ _ _ _ _ _ found
      rw [List.map_map] at member
      exact .inr ⟨keepUntil,by simpa using member,rfl,rfl⟩

variable {cfg width inp rs}

variable {m : Nat} (filled : FilledTo inp.standard m) (le : m ≤ inp.numDrafts + 1)
  (fits : inp.numDrafts < width)

include filled le fits

/-- Without its bonus token the standard row is filled up to the drafts at most. -/
theorem standardKept_filled (c : Nat) :
    standardKept width inp c =
      if c < min m inp.numDrafts then inp.standard c else placeholderTokenId := by
  unfold standardKept
  by_cases early : c < min m inp.numDrafts
  · rw [if_pos early,if_neg (fun h => by omega)]
  · rw [if_neg early]
    by_cases bonus : c < m
    · have here : c = inp.numDrafts := by omega
      rw [if_pos ⟨here,fits,(filled c).1 bonus⟩]
    · rw [(filled c).2 (by omega)]
      split <;> rfl

theorem takeover_columns :
    Grid.nonzero width (takeoverRow width inp).takeover = List.range (min m inp.numDrafts) := by
  apply Grid.nonzero_eq_of_mem _ _ _ List.pairwise_lt_range
  intro c
  have kept := standardKept_filled filled le fits c
  have emitted := (filled c).1
  rw [List.mem_range]
  simp only [takeoverRow,kept]
  by_cases early : c < min m inp.numDrafts
  · rw [if_pos early,emitted (by omega)]
    simp only [early,and_true,true_iff]
    omega
  · simp [isEmitted_placeholder,early]

theorem truncated_bare (s : RowLoop) (output : s.tensors.output = standardKept width inp)
    (quiet : ∀ c, s.tensors.stop c = false) (keepUntil : Nat) (before : keepUntil < min m inp.numDrafts) :
    Bare inp.standard (keepUntil+1) (s.truncate keepUntil (List.range (min m inp.numDrafts))).tensors := by
  intro c
  simp only [RowLoop.truncate,output,quiet,and_true,List.mem_range,standardKept_filled filled le fits c]
  by_cases early : c < keepUntil + 1
  · rw [if_neg (fun h => by omega),if_pos (by omega),if_pos early]
  · rw [if_neg early]
    by_cases inRow : c < min m inp.numDrafts
    · rw [if_pos ⟨inRow,by omega⟩]
    · rw [if_neg (fun h => inRow h.1),if_neg inRow]

/-- A row in a takeover is the standard row, cut at its drafts or at the spent budget. -/
theorem taken_cut (held : taken cfg inp rs = true) :
    ∃ k, k ≤ min m inp.numDrafts ∧ (0 < min m inp.numDrafts → 0 < k) ∧
      CutAt stopId inp.standard k (loopRow cfg stopId width inp rs).tensors := by
  have entered : (enterRow cfg stopId width inp rs).tensors = takeoverRow width inp := enterRow_taken stopId held
  rw [loopRow_taken stopId held]
  rcases truncateTakeover_cases cfg stopId width rs ((enterRow cfg stopId width inp rs).markBoundaries cfg)
    with same | ⟨keepUntil,member,_,cut⟩
  · refine ⟨min m inp.numDrafts,Nat.le_refl _,id,Bare.cut (fun c => ?_)⟩
    rw [same]
    simp [RowLoop.markBoundaries,entered,takeoverRow,RowTensors.blank,standardKept_filled filled le fits c]
  · have columns : Grid.nonzero width
        ((enterRow cfg stopId width inp rs).markBoundaries cfg).tensors.takeover =
        List.range (min m inp.numDrafts) := by
      rw [← takeover_columns filled le fits,← entered]
      rfl
    rw [columns] at member cut
    have before := List.mem_range.mp member
    have bare := truncated_bare filled le fits ((enterRow cfg stopId width inp rs).markBoundaries cfg)
      (by simp [RowLoop.markBoundaries,entered,takeoverRow])
      (by simp [RowLoop.markBoundaries,entered,takeoverRow,RowTensors.blank]) keepUntil before
    refine ⟨keepUntil+1,by omega,fun _ => Nat.succ_pos _,?_⟩
    rw [cut]
    split
    · exact bare.ended ((filled keepUntil).1 (by omega)) _ _ (by omega)
    · exact bare.cut

end Taken

section Free

variable (cfg : RelayConfig) (stopId : Option Int) (width : Nat) (inp : RowInput) (rs : ReqState)

/-- Whether the row shows its event: a trigger always, a stop only with a stop id. -/
def showsEvent : Bool := cfg.takeoverEnabled || stopId.isSome

/-- The columns before the cut: the drafts up to the event. -/
def shownUpTo : Nat :=
  match firstEvent cfg inp with
  | none => inp.numDrafts
  | some e => if showsEvent cfg stopId then e + 1 else e

/-- The valid drafts, with the teacher's choice in place of a triggering one. -/
def freeTokens (c : Nat) : Int :=
  if cfg.takeoverEnabled = true ∧ firstEvent cfg inp = some c then (inp.argmax c : Int)
  else if c < inp.numDrafts ∧ inp.validDraft c = true then inp.draft c else placeholderTokenId

theorem lt_shownUpTo (c : Nat) :
    c < shownUpTo cfg stopId inp ↔ c < inp.numDrafts ∧ (∀ e, e < c → candidate cfg inp e = false) ∧
      (candidate cfg inp c = true → showsEvent cfg stopId = true) := by
  cases event : firstEvent cfg inp with
  | none =>
    have quiet := (firstEvent_eq_none cfg inp).mp event
    simp only [shownUpTo,event,iff_self_and]
    intro inside
    refine ⟨fun e before => quiet e (by omega),fun here => ?_⟩
    rw [quiet c inside] at here
    contradiction
  | some e =>
    obtain ⟨inside,holds,first⟩ := (firstEvent_eq_some cfg inp e).mp event
    simp only [shownUpTo,event]
    constructor
    · intro before
      have le : c ≤ e := by split at before <;> omega
      refine ⟨by omega,fun d early => first d (by omega),fun here => ?_⟩
      by_contra hidden
      rw [if_neg hidden] at before
      rw [first c before] at here
      contradiction
    · rintro ⟨_,quiet,shows⟩
      have le : c ≤ e := by
        by_contra late
        rw [quiet e (by omega)] at holds
        contradiction
      by_cases visible : showsEvent cfg stopId = true
      · rw [if_pos visible]
        omega
      · rw [if_neg visible]
        refine Nat.lt_of_le_of_ne le ?_
        rintro rfl
        exact visible (shows holds)

theorem shownUpTo_le : shownUpTo cfg stopId inp ≤ inp.numDrafts := by
  by_contra beyond
  have := ((lt_shownUpTo cfg stopId inp inp.numDrafts).mp (by omega)).1
  omega

variable {cfg inp}

theorem candidate_valid {c : Nat} (found : candidate cfg inp c = true) : inp.validDraft c = true := by
  simp only [candidate,Bool.and_eq_true] at found
  exact found.1.2

variable (valid : ∀ c, inp.validDraft c = true → 0 ≤ inp.draft c)

include valid

/-- A shown column holds a token exactly when its draft is valid. -/
theorem freeTokens_emitted (c : Nat) (inside : c < inp.numDrafts) :
    isEmitted (freeTokens cfg inp c) = true ↔ inp.validDraft c = true := by
  unfold freeTokens
  by_cases fires : cfg.takeoverEnabled = true ∧ firstEvent cfg inp = some c
  · have holds := candidate_valid ((firstEvent_eq_some cfg inp c).mp fires.2).2.1
    rw [if_pos fires]
    simp only [holds,iff_true,isEmitted,placeholderTokenId,Bool.and_eq_true,decide_eq_true_eq,bne_iff_ne]
    omega
  · rw [if_neg fires]
    by_cases ok : inp.validDraft c = true
    · have := valid c ok
      rw [if_pos ⟨inside,ok⟩]
      simp only [ok,iff_true,isEmitted,placeholderTokenId,Bool.and_eq_true,decide_eq_true_eq,bne_iff_ne]
      omega
    · rw [if_neg (fun h => ok h.2),isEmitted_placeholder]
      simp [ok]

omit valid in
theorem freeTokens_draft (c : Nat) (inside : c < inp.numDrafts)
    (apart : firstEvent cfg inp ≠ some c) :
    freeTokens cfg inp c = if inp.validDraft c = true then inp.draft c else placeholderTokenId := by
  simp [freeTokens,apart,inside]

omit valid in
theorem studentRow_bare (quiet : firstEvent cfg inp = none) :
    Bare (freeTokens cfg inp) (shownUpTo cfg stopId inp)
      { RowTensors.blank with output := studentRow inp none } := by
  intro c
  by_cases inside : c < inp.numDrafts <;>
    simp [RowTensors.blank,shownUpTo,freeTokens,studentRow,quiet,inside]

omit valid in
theorem emitRow_hidden (free : taken cfg inp rs = false)
    (hidden : ∀ e, firstEvent cfg inp = some e → showsEvent cfg stopId = false) :
    Bare (freeTokens cfg inp) (shownUpTo cfg stopId inp) (emitRow cfg stopId width inp rs) := by
  cases event : firstEvent cfg inp with
  | none =>
    have row : emitRow cfg stopId width inp rs =
        { RowTensors.blank with output := studentRow inp none } := by simp [emitRow,free,event]
    rw [row]
    exact studentRow_bare stopId event
  | some e =>
    intro c
    have quiet := hidden e event
    have inside := ((firstEvent_eq_some cfg inp e).mp event).1
    simp only [showsEvent,Bool.or_eq_false_iff,Option.isSome_eq_false_iff,Option.isNone_iff_eq_none] at quiet
    by_cases before : c < e
    · simp [emitRow,free,event,quiet.1,quiet.2,RowTensors.blank,shownUpTo,freeTokens,studentRow,
        showsEvent,before,Nat.lt_trans before inside]
    · simp [emitRow,free,event,quiet.1,quiet.2,RowTensors.blank,shownUpTo,studentRow,showsEvent,before]

omit valid in
theorem triggerRow_bare (e : Nat) (event : firstEvent cfg inp = some e) (mode : cfg.takeoverEnabled = true) :
    Bare (freeTokens cfg inp) (e+1) (triggerRow inp e) := by
  intro c
  have inside := ((firstEvent_eq_some cfg inp e).mp event).1
  refine ⟨?_,rfl⟩
  simp only [triggerRow,freeTokens,studentRow,event,mode,true_and,Option.some.injEq,Option.mem_def,forall_eq']
  by_cases here : c = e
  · simp [here]
  · by_cases before : c < e
    · simp [here,Ne.symm here,before,Nat.lt_trans before inside,Nat.lt_succ_of_lt before]
    · have past : ¬ c < e + 1 := by omega
      simp [here,before,past]

omit valid in
theorem stopRow_cut (e : Nat) (id : Int) (event : firstEvent cfg inp = some e)
    (mode : cfg.takeoverEnabled = false) (emitted : isEmitted (freeTokens cfg inp e) = true) :
    CutAt (some id) (freeTokens cfg inp) (e+1) (stopRow inp e id) := by
  obtain ⟨inside,holds,_⟩ := (firstEvent_eq_some cfg inp e).mp event
  have valid := candidate_valid holds
  refine ⟨?_,?_,.inr ⟨id,e,rfl,rfl,emitted,by simp [stopRow],by simp [stopRow],rfl⟩⟩
  · intro c upto
    by_cases here : c = e
    · simp [stopRow,freeTokens,mode,here,inside,valid]
    · have before : c < e := by omega
      have apart : c ≠ e + 1 := by omega
      simp [stopRow,freeTokens,studentRow,mode,here,apart,before,Nat.lt_trans before inside]
  · intro c past
    have far : c ≠ e + 1 := by omega
    have apart : c ≠ e := by omega
    have after : ¬ c < e := by omega
    simp [stopRow,studentRow,far,apart,after]

/-- A row outside a takeover is its own drafts, cut at the event. -/
theorem free_cut (fits : inp.numDrafts < width) (free : taken cfg inp rs = false) :
    CutAt stopId (freeTokens cfg inp) (shownUpTo cfg stopId inp)
      (loopRow cfg stopId width inp rs).tensors := by
  have marked : ∀ s : RowLoop,
      CutAt stopId (freeTokens cfg inp) (shownUpTo cfg stopId inp) s.tensors →
      CutAt stopId (freeTokens cfg inp) (shownUpTo cfg stopId inp) (s.markBoundaries cfg).tensors :=
    fun _ cut => ⟨cut.kept,cut.rest,cut.last⟩
  rw [loopRow_free cfg width inp rs free]
  apply marked
  by_cases hidden : ∀ e, firstEvent cfg inp = some e → showsEvent cfg stopId = false
  · have quiet : trigger cfg inp rs = none := by
      cases fires : trigger cfg inp rs with
      | none => rfl
      | some e =>
        obtain ⟨mode,_,event⟩ := (trigger_eq_some cfg inp rs e).mp fires
        have := hidden e event
        simp [showsEvent,mode] at this
    simp only [triggerOnlyRow,quiet,enterRow]
    exact (emitRow_hidden stopId width rs free hidden).cut
  · simp only [not_forall] at hidden
    obtain ⟨e,event,shows⟩ := hidden
    have visible : showsEvent cfg stopId = true := by simpa using shows
    obtain ⟨inside,holds,_⟩ := (firstEvent_eq_some cfg inp e).mp event
    have emitted : isEmitted (freeTokens cfg inp e) = true :=
      (freeTokens_emitted valid e inside).mpr (candidate_valid holds)
    have upto : shownUpTo cfg stopId inp = e + 1 := by simp [shownUpTo,event,visible]
    rw [upto]
    cases mode : cfg.takeoverEnabled with
    | true =>
      have fires := (trigger_eq_some cfg inp rs e).mpr ⟨mode,free,event⟩
      have entered : (enterRow cfg stopId width inp rs).tensors = triggerRow inp e := by
        simp [enterRow,emitRow,free,event,mode]
      have bare : Bare (freeTokens cfg inp) (e+1) (enterRow cfg stopId width inp rs).tensors := by
        rw [entered]
        exact triggerRow_bare e event mode
      simp only [triggerOnlyRow,fires]
      split
      · exact bare.ended emitted _ _ (by omega)
      · exact bare.cut
    | false =>
      have quiet : trigger cfg inp rs = none := by simp [trigger,free,mode]
      obtain ⟨id,rfl⟩ := Option.isSome_iff_exists.mp (by simpa [showsEvent,mode] using visible)
      have entered : (enterRow cfg (some id) width inp rs).tensors = stopRow inp e id := by
        simp [enterRow,emitRow,free,event,mode]
      simp only [triggerOnlyRow,quiet,entered]
      exact stopRow_cut e id event mode emitted

end Free

end RelayOpd
