import RelayOpd.OptimCuts
import RelayOpd.OptimPacked

/-! An optimiser step against its mini-batch as one micro-batch of one rank. -/
namespace RelayOpd.OptimStep

variable {n : Nat} {batch : Fin n → Row}

section Division

/-- Micro-batches of the ranks that hold every row once. -/
structure Divides (micros : List (List (List (Fin n)))) : Prop where
  perm : micros.flatten.flatten.Perm (List.finRange n)
  filled : ∀ micro ∈ micros.flatten, micro ≠ []
  some_row : 0 < n

theorem divides_of_cuts {count : List (Fin n) → Nat} {ranks : List (List (Fin n))} {micros : List (List (List (Fin n)))}
    (cuts : List.Forall₂ (fun rows parts => Cuts rows (count rows) parts) ranks micros)
    (all : ranks.flatten.Perm (List.finRange n)) (some_row : 0 < n) : Divides micros := by
  have joined : micros.flatten.flatten.Perm ranks.flatten ∧ ∀ micro ∈ micros.flatten, micro ≠ [] := by
    clear all
    induction cuts with
    | nil => exact ⟨.nil,by simp⟩
    | cons first _ ih =>
      refine ⟨?_,?_⟩
      · rw [List.flatten_cons,List.flatten_append,List.flatten_cons]
        exact first.perm.append ih.1
      · intro micro member
        rw [List.flatten_cons,List.mem_append] at member
        exact member.elim (first.filled micro) (ih.2 micro)
  exact ⟨joined.1.trans all,joined.2,some_row⟩

variable {micros : List (List (List (Fin n)))} (divides : Divides micros)
include divides

theorem Divides.mem (r : Fin n) : ∃ micro ∈ micros.flatten, r ∈ micro :=
  List.mem_flatten.mp (divides.perm.mem_iff.mpr (List.mem_finRange r))

theorem Divides.nodup (micro : List (Fin n)) (member : micro ∈ micros.flatten) : micro.Nodup :=
  (List.sublist_flatten_of_mem member).nodup (divides.perm.nodup_iff.mpr (List.nodup_finRange n))

theorem Divides.some_micro : micros.flatten ≠ [] := by
  obtain ⟨micro,member,_⟩ := divides.mem ⟨0,divides.some_row⟩
  exact List.ne_nil_of_mem member

theorem Divides.some_rank : micros.length ≠ 0 := by
  intro empty
  rw [List.length_eq_zero_iff.mp empty] at divides
  exact divides.some_micro rfl

theorem Divides.whole_filled : List.finRange n ≠ [] := List.ne_nil_of_mem (List.mem_finRange ⟨0,divides.some_row⟩)

variable {M : Type} [AddCommMonoid M]

/-- What rows add in their micro-batches. -/
theorem Divides.sum (term : Fin n → M) :
    (micros.flatten.map (fun micro => (micro.map term).sum)).sum = ((List.finRange n).map term).sum := by
  rw [← (divides.perm.map term).sum_eq,List.map_flatten (L := micros.flatten),List.sum_flatten,List.map_map]
  rfl

/-- What a single row adds. -/
theorem Divides.sum_single (share : List (Fin n) → Fin n → M) (r : Fin n) (micro : List (Fin n))
    (member : micro ∈ micros.flatten) (inside : r ∈ micro) (elsewhere : ∀ m s, s ≠ r → share m s = 0) :
    (micros.flatten.map (fun m => (m.map (share m)).sum)).sum = share micro r := by
  have counts : ∀ m : List (Fin n), (m.map (share m)).sum = m.count r • share m r :=
    fun m => List.sum_map_eq_nsmul_single r (share m) (fun s other _ => elsewhere m s other)
  have once := divides.perm.count_eq r
  rw [List.count_eq_one_of_mem (List.nodup_finRange n) (List.mem_finRange r)] at once
  obtain ⟨before,after,split⟩ := List.append_of_mem member
  have here : 0 < micro.count r := List.count_pos_iff.mpr inside
  rw [split,List.flatten_append,List.flatten_cons,List.count_append,List.count_append] at once
  have absent : ∀ others : List (List (Fin n)), others.flatten.count r = 0 →
      (others.map (fun m => (m.map (share m)).sum)).sum = 0 := by
    intro others none
    refine List.sum_eq_zero (fun x inner => ?_)
    obtain ⟨m,listed,rfl⟩ := List.mem_map.mp inner
    have zero : m.count r = 0 := Nat.le_zero.mp (none ▸ (List.sublist_flatten_of_mem listed).count_le r)
    rw [counts,zero,zero_smul]
  rw [split,List.map_append,List.map_cons,List.sum_append,List.sum_cons,absent before (by omega),absent after (by omega),
    counts,show micro.count r = 1 by omega,one_smul,zero_add,add_zero]

end Division

section Backward

theorem mapM_error {ε : Type} (f : α → Except ε β) (e : ε) (xs : List α)
    (each : ∀ x ∈ xs, f x = .error e ∨ ∃ y, f x = .ok y) (fails : ∃ x ∈ xs, f x = .error e) : xs.mapM f = .error e := by
  induction xs with
  | nil =>
    obtain ⟨_,member,_⟩ := fails
    cases member
  | cons x xs ih =>
    rw [List.mapM_cons]
    rcases each x List.mem_cons_self with failed | ⟨y,value⟩
    · rw [failed]
      rfl
    · obtain ⟨z,member,failed⟩ := fails
      rcases List.mem_cons.mp member with rfl | later
      · rw [value] at failed
        cases failed
      · rw [value,ih (fun x inside => each x (List.mem_cons_of_mem _ inside)) ⟨z,later,failed⟩]
        rfl

variable {R : Type} [Field R] (loss : List (Fin n) → Except String R) (micros : List (List (List (Fin n))))

theorem backward_ok (value : List (Fin n) → R) (each : ∀ micro ∈ micros.flatten, loss micro = .ok (value micro)) :
    backward loss micros = .ok ((micros.flatten.map value).sum / micros.length) := by
  have rank : ∀ rows ∈ micros, (List.sum <$> rows.mapM loss : Except String R) = .ok ((rows.map value).sum) := by
    intro rows member
    rw [LocalLoop.mapM_ok loss value rows (fun micro inside => each micro (List.mem_flatten_of_mem member inside))]
    rfl
  rw [backward,LocalLoop.mapM_ok _ (fun rows => (rows.map value).sum) micros rank]
  refine congrArg (fun sum => Except.ok (sum / (micros.length : R))) ?_
  rw [List.map_flatten,List.sum_flatten,List.map_map]
  rfl

theorem backward_error (e : String) (each : ∀ micro ∈ micros.flatten, loss micro = .error e ∨ ∃ value, loss micro = .ok value)
    (fails : ∃ micro ∈ micros.flatten, loss micro = .error e) : backward loss micros = .error e := by
  have rank : ∀ rows ∈ micros, (∃ micro ∈ rows, loss micro = .error e) →
      (List.sum <$> rows.mapM loss : Except String R) = .error e := by
    intro rows member failed
    rw [mapM_error loss e rows (fun micro inside => each micro (List.mem_flatten_of_mem member inside)) failed]
    rfl
  have either : ∀ rows ∈ micros, (List.sum <$> rows.mapM loss : Except String R) = .error e ∨
      ∃ sum, (List.sum <$> rows.mapM loss : Except String R) = .ok sum := by
    intro rows member
    by_cases failed : ∃ micro ∈ rows, loss micro = .error e
    · exact .inl (rank rows member failed)
    · obtain ⟨values,made,_⟩ := LocalLoop.mapM_exists loss (fun _ _ => True) rows (fun micro inside => by
        rcases each micro (List.mem_flatten_of_mem member inside) with bad | ⟨value,good⟩
        · exact absurd ⟨micro,inside,bad⟩ failed
        · exact ⟨value,good,trivial⟩)
      exact .inr ⟨values.sum,by rw [made]; rfl⟩
  obtain ⟨micro,member,failed⟩ := fails
  obtain ⟨rows,listed,inside⟩ := List.mem_flatten.mp member
  rw [backward,mapM_error _ e micros either ⟨rows,listed,rank rows listed ⟨micro,inside,failed⟩⟩]
  rfl

end Backward

section Steps

variable {R : Type} [Field R] [CharZero R] {micros : List (List (List (Fin n)))} (divides : Divides micros)
  {own : List (Fin n) → R} {loss : Nat → List (Fin n) → Except String R}
include divides

/-- Row sums do not see the division; what else there is has to come out the same. -/
theorem Sums.step_iff (sums : Sums own loss) :
    backward (loss micros.length) micros = loss 1 (List.finRange n) ↔
      (micros.flatten.map own).sum / micros.length = own (List.finRange n) := by
  obtain ⟨term,sums⟩ := sums
  have ranks : (micros.length : R) ≠ 0 := Nat.cast_ne_zero.mpr divides.some_rank
  rw [backward_ok (loss micros.length) micros (fun micro => (micro.map term).sum * micros.length + own micro)
    (fun micro member => sums micros.length micro (divides.filled micro member)),
    sums 1 _ divides.whole_filled,List.sum_map_add,List.sum_map_mul_right,divides.sum,Except.ok.injEq,add_div,
    mul_div_cancel_right₀ _ ranks,Nat.cast_one,mul_one,add_right_inj]

theorem Splits.step (splits : Splits (fun _ => 0) loss) :
    backward (loss micros.length) micros = loss 1 (List.finRange n) := by
  rcases splits with ⟨e,fails⟩ | sums
  · rw [fails 1 _ divides.whole_filled]
    have each := fun micro member => fails micros.length micro (divides.filled micro member)
    obtain ⟨micro,member⟩ := List.exists_mem_of_ne_nil _ divides.some_micro
    exact backward_error _ micros e (fun m listed => .inl (each m listed)) ⟨micro,member,each micro member⟩
  · refine (Sums.step_iff divides sums).mpr ?_
    rw [List.map_const',List.sum_replicate,smul_zero,zero_div]

end Steps

section Whole

/-- What a single row adds to the whole mini-batch. -/
theorem whole_single {M : Type} [AddCommMonoid M] (share : Fin n → M) (r : Fin n) (elsewhere : ∀ s, s ≠ r → share s = 0) :
    ((List.finRange n).map share).sum = share r := by
  rw [List.sum_map_eq_nsmul_single r share (fun s other _ => elsewhere s other),
    List.count_eq_one_of_mem (List.nodup_finRange n) (List.mem_finRange r),one_smul]

theorem some_counted (rows : List (Fin n)) (some_token : responseTokens batch rows ≠ 0) :
    ∃ r ∈ rows, (batch r).responseTokens ≠ 0 := by
  by_contra none
  push Not at none
  refine absurd (List.sum_eq_zero (fun x listed => ?_)) some_token
  obtain ⟨r,inside,rfl⟩ := List.mem_map.mp listed
  exact none r inside

end Whole

section GeoMean

variable {R : Type} [Field R] [LinearOrder R] [IsStrictOrderedRing R] (exp log : R → R) (config : ActorConfig R)
  {micros : List (List (List (Fin n)))} (divides : Divides micros)

omit [IsStrictOrderedRing R] in
theorem geoTerm_masked (c : Contents n R) (r : Fin n) (none : (batch r).responseTokens = 0) :
    geoTerm exp log c batch config.toPolicyConfig r = 0 := by
  unfold geoTerm
  cases c.rolloutIsWeights <;> simp [rowSum_masked batch c.advantages r none]

omit [IsStrictOrderedRing R] in
include divides in
/-- Micro-batches of a rank's share of the rows weigh every row as the whole mini-batch does. -/
theorem geo_even (even : ∀ micro ∈ micros.flatten, 0 < responseTokens batch micro → micro.length * micros.length = n)
    (c : Contents n R) : (micros.flatten.map (geoMean exp log c config batch)).sum / micros.length =
      geoMean exp log c config batch (List.finRange n) := by
  have each : ∀ micro ∈ micros.flatten, geoMean exp log c config batch micro / (micros.length : R) =
      (micro.map (fun r => geoTerm exp log c batch config.toPolicyConfig r / (n : R))).sum := by
    intro micro member
    rw [sum_map_div,geoMean]
    rcases Nat.eq_zero_or_pos (responseTokens batch micro) with none | some_token
    · have zero : (micro.map (geoTerm exp log c batch config.toPolicyConfig)).sum = 0 := by
        refine List.sum_eq_zero (fun x inside => ?_)
        obtain ⟨r,listed,rfl⟩ := List.mem_map.mp inside
        exact geoTerm_masked exp log config c r (List.sum_eq_zero_iff.mp none _ (List.mem_map_of_mem listed))
      simp only [zero,zero_div]
    · rw [div_div,← Nat.cast_mul,even micro member some_token]
  rw [← sum_map_div,List.map_congr_left each,divides.sum,sum_map_div,geoMean,List.length_finRange]

/-- A mini-batch with an advantage in a single row. -/
def advantageIn (r : Fin n) : Contents n R where
  outputs _ _ := 0
  entropy _ _ := 0
  oldLogProbs _ _ := 0
  advantages s _ := if s = r then 1 else 0
  rolloutIsWeights := none
  refLogProb _ _ := 0
  values _ _ := 0
  returns _ _ := 0

variable (batch) in
omit [IsStrictOrderedRing R] in
theorem geoTerm_elsewhere (r s : Fin n) (other : s ≠ r) :
    geoTerm exp log (advantageIn r) batch config.toPolicyConfig s = 0 := by
  have none : rowSum batch (advantageIn r : Contents n R).advantages s = 0 := by simp [advantageIn,rowSum,other]
  rw [geoTerm,none]
  simp [advantageIn]

theorem geoTerm_here (positive : ∀ x, 0 < exp x) (r : Fin n) (some_token : (batch r).responseTokens ≠ 0) :
    geoTerm exp log (advantageIn r) batch config.toPolicyConfig r ≠ 0 := by
  have tokens : rowSum batch (advantageIn r : Contents n R).advantages r = ((batch r).responseTokens : Nat) := by
    rw [← rowSum_one]
    simp [advantageIn,rowSum]
  have count : ((batch r).responseTokens : R) + 1 / ((10 ^ 8 : Nat) : R) ≠ 0 := by positivity
  rw [geoTerm,tokens]
  exact mul_ne_zero (neg_ne_zero.mpr (div_ne_zero (Nat.cast_ne_zero.mpr some_token) count)) (positive _).ne'

include divides in
theorem geo_uneven (positive : ∀ x, 0 < exp x)
    (same : ∀ c : Contents n R, (micros.flatten.map (geoMean exp log c config batch)).sum / micros.length =
      geoMean exp log c config batch (List.finRange n))
    (micro : List (Fin n)) (member : micro ∈ micros.flatten) (some_token : 0 < responseTokens batch micro) :
    micro.length * micros.length = n := by
  obtain ⟨r,inside,counted⟩ := some_counted micro some_token.ne'
  let term := geoTerm exp log (advantageIn r) batch config.toPolicyConfig
  have elsewhere := geoTerm_elsewhere batch exp log config r
  have here : term r ≠ 0 := geoTerm_here exp log config positive r counted
  have parts := divides.sum_single (fun m s => term s / (m.length : R)) r micro member inside
    (fun m s other => by simp only [term,elsewhere s other,zero_div])
  have whole := whole_single term r elsewhere
  have equal := same (advantageIn r)
  have equal := same (advantageIn r)
  have mean : (micros.flatten.map (geoMean exp log (advantageIn r) config batch)).sum = term r / micro.length := by
    rw [← parts]
    exact congrArg List.sum (List.map_congr_left (fun m _ => (sum_map_div m term _).symm))
  rw [mean,geoMean,List.length_finRange,whole,div_div,div_eq_mul_inv,div_eq_mul_inv,mul_right_inj' here,inv_inj] at equal
  exact_mod_cast equal

end GeoMean

section Value

variable {R : Type} [Field R] [LinearOrder R] [IsStrictOrderedRing R] (cliprangeValue : R)
  {micros : List (List (List (Fin n)))} (divides : Divides micros)

/-- The square errors of a row. -/
def vfRow (batch : Fin n → Row) (c : Contents n R) (r : Fin n) : R := rowSum batch (vfTerm c cliprangeValue batch) r

include divides

omit [Field R] [LinearOrder R] [IsStrictOrderedRing R] in
theorem responseTokens_sum : (micros.flatten.map (responseTokens batch)).sum = responseTokens batch (List.finRange n) :=
  divides.sum (fun r => (batch r).responseTokens)

/-- A micro-batch without response tokens fails, as the whole mini-batch does. -/
theorem value_empty (c : Contents n R) (empty : responseTokens batch (List.finRange n) = 0) :
    backward (fun rows => valueLoss batch rows c cliprangeValue .tokenMean) micros =
      valueLoss batch (List.finRange n) c cliprangeValue .tokenMean := by
  have none : ∀ micro ∈ micros.flatten, responseTokens batch micro = 0 :=
    fun micro member => List.sum_eq_zero_iff.mp ((responseTokens_sum divides).trans empty) _ (List.mem_map_of_mem member)
  have each : ∀ micro ∈ micros.flatten, valueLoss batch micro c cliprangeValue .tokenMean = .error "nan" := by
    intro micro member
    rw [valueLoss_eq c cliprangeValue micro (divides.filled micro member),if_pos (none micro member)]
  obtain ⟨micro,member⟩ := List.exists_mem_of_ne_nil _ divides.some_micro
  rw [backward_error _ micros "nan" (fun m listed => .inl (each m listed)) ⟨micro,member,each micro member⟩,
    valueLoss_eq c cliprangeValue _ divides.whole_filled,if_pos empty]

theorem value_sum (c : Contents n R) (some_token : ∀ micro ∈ micros.flatten, responseTokens batch micro ≠ 0) :
    backward (fun rows => valueLoss batch rows c cliprangeValue .tokenMean) micros =
      .ok (1 / 2 * (micros.flatten.map (fun micro => (micro.map (fun r => vfRow cliprangeValue batch c r /
        ((responseTokens batch micro * micros.length : Nat) : R))).sum)).sum) := by
  rw [backward_ok _ micros (fun micro => 1 / 2 * ((micro.map (vfRow cliprangeValue batch c)).sum / (responseTokens batch micro : Nat)))
    (fun micro member => by
      rw [valueLoss_eq c cliprangeValue micro (divides.filled micro member),if_neg (some_token micro member)]
      rfl),List.sum_map_mul_left,mul_div_assoc,← sum_map_div]
  refine congrArg (fun sum => Except.ok (1 / 2 * sum)) (congrArg List.sum (List.map_congr_left (fun micro _ => ?_)))
  rw [sum_map_div,div_div,Nat.cast_mul]

theorem value_whole (c : Contents n R) (some_token : responseTokens batch (List.finRange n) ≠ 0) :
    valueLoss batch (List.finRange n) c cliprangeValue .tokenMean =
      .ok (1 / 2 * ((List.finRange n).map (fun r => vfRow cliprangeValue batch c r /
        (responseTokens batch (List.finRange n) : Nat))).sum) := by
  rw [valueLoss_eq c cliprangeValue _ divides.whole_filled,if_neg some_token,sum_map_div]
  rfl

theorem value_even (c : Contents n R)
    (even : ∀ micro ∈ micros.flatten, responseTokens batch micro * micros.length = responseTokens batch (List.finRange n)) :
    backward (fun rows => valueLoss batch rows c cliprangeValue .tokenMean) micros =
      valueLoss batch (List.finRange n) c cliprangeValue .tokenMean := by
  by_cases empty : responseTokens batch (List.finRange n) = 0
  · exact value_empty cliprangeValue divides c empty
  · have some_token : ∀ micro ∈ micros.flatten, responseTokens batch micro ≠ 0 := by
      intro micro member none
      rw [← even micro member,none,zero_mul] at empty
      exact empty rfl
    rw [value_sum cliprangeValue divides c some_token,value_whole cliprangeValue divides c empty,
      List.map_congr_left (fun micro member => by rw [even micro member]),divides.sum]

/-- A micro-batch without response tokens fails where the whole mini-batch does not. -/
theorem value_fails (c : Contents n R) (same : backward (fun rows => valueLoss batch rows c cliprangeValue .tokenMean) micros =
      valueLoss batch (List.finRange n) c cliprangeValue .tokenMean) (some_token : responseTokens batch (List.finRange n) ≠ 0)
    (micro : List (Fin n)) (member : micro ∈ micros.flatten) : responseTokens batch micro ≠ 0 := by
  intro none
  have failed : valueLoss batch micro c cliprangeValue .tokenMean = .error "nan" := by
    rw [valueLoss_eq c cliprangeValue micro (divides.filled micro member),if_pos none]
  rw [backward_error _ micros "nan" (fun m listed => by
    rw [valueLoss_eq c cliprangeValue m (divides.filled m listed)]
    split
    · exact .inl rfl
    · exact .inr ⟨_,rfl⟩) ⟨micro,member,failed⟩,value_whole cliprangeValue divides c some_token] at same
  cases same

omit divides in
/-- A mini-batch with a return in a single row. -/
def returnIn (r : Fin n) (x : R) : Contents n R where
  outputs _ _ := 0
  entropy _ _ := 0
  oldLogProbs _ _ := 0
  advantages _ _ := 0
  rolloutIsWeights := none
  refLogProb _ _ := 0
  values _ _ := 0
  returns s _ := if s = r then x else 0

omit [IsStrictOrderedRing R] divides in
theorem vfRow_returnIn (r s : Fin n) (x : R) : vfRow cliprangeValue batch (returnIn r x) s =
    ((batch s).responseTokens : Nat) * max ((0 - if s = r then x else 0) ^ 2)
      ((clipByValue 0 (0 - cliprangeValue) (0 + cliprangeValue) - if s = r then x else 0) ^ 2) := by
  rw [← rowSum_const]
  rfl

omit divides in
theorem vfRow_grows (r : Fin n) (some_token : (batch r).responseTokens ≠ 0) :
    ∃ x : R, vfRow cliprangeValue batch (returnIn r x) r ≠ vfRow cliprangeValue batch (returnIn r 0) r := by
  let k := clipByValue 0 (0 - cliprangeValue) (0 + cliprangeValue)
  refine ⟨|k| + 1,fun equal => ?_⟩
  rw [vfRow_returnIn,vfRow_returnIn,if_pos rfl,if_pos rfl,mul_right_inj' (Nat.cast_ne_zero.mpr some_token)] at equal
  have above : (|k| + 1) ^ 2 ≤ max ((0 - 0) ^ 2) ((k - 0) ^ 2) := by
    rw [← equal,zero_sub,neg_sq]
    exact le_max_left _ _
  have square : max ((0 - 0 : R) ^ 2) ((k - 0) ^ 2) = |k| ^ 2 := by
    rw [sub_zero,sub_zero,zero_pow two_ne_zero,sq_abs,max_eq_right (sq_nonneg k)]
  rw [square] at above
  nlinarith [abs_nonneg k]

theorem value_uneven (same : ∀ c : Contents n R, backward (fun rows => valueLoss batch rows c cliprangeValue .tokenMean) micros =
      valueLoss batch (List.finRange n) c cliprangeValue .tokenMean)
    (micro : List (Fin n)) (member : micro ∈ micros.flatten) :
    responseTokens batch micro * micros.length = responseTokens batch (List.finRange n) := by
  rcases Nat.eq_zero_or_pos (responseTokens batch (List.finRange n)) with empty | positive
  · have none := List.sum_eq_zero_iff.mp ((responseTokens_sum divides).trans empty) _ (List.mem_map_of_mem member)
    rw [none,zero_mul,empty]
  have some_token := value_fails cliprangeValue divides (returnIn ⟨0,divides.some_row⟩ 0) (same _) positive.ne'
  obtain ⟨r,inside,counted⟩ := some_counted micro (some_token micro member)
  obtain ⟨x,grows⟩ := vfRow_grows cliprangeValue r counted
  let before := vfRow cliprangeValue batch (returnIn r 0)
  let change := fun s => vfRow cliprangeValue batch (returnIn r x) s - before s
  have elsewhere : ∀ s, s ≠ r → change s = 0 := by
    intro s other
    simp only [change,before,vfRow_returnIn,if_neg other,sub_self]
  have here : change r ≠ 0 := sub_ne_zero.mpr grows
  have split : ∀ s, vfRow cliprangeValue batch (returnIn r x) s = before s + change s := fun s => (add_sub_cancel _ _).symm
  have first := same (returnIn r 0)
  have second := same (returnIn r x)
  rw [value_sum cliprangeValue divides _ some_token,value_whole cliprangeValue divides _ positive.ne'] at first second
  simp only [split,add_div,List.sum_map_add,Except.ok.injEq,mul_add] at second
  rw [Except.ok.inj first,add_right_inj,mul_right_inj' (by norm_num),
    divides.sum_single (fun m s => change s / ((responseTokens batch m * micros.length : Nat) : R)) r micro member inside
      (fun m s other => by simp only [elsewhere s other,zero_div]),
    whole_single _ r (fun s other => by simp only [elsewhere s other,zero_div]),div_eq_mul_inv,div_eq_mul_inv,
    mul_right_inj' here,inv_inj] at second
  exact_mod_cast second

end Value

section Packed

variable {R : Type} [Field R] [LinearOrder R] [IsStrictOrderedRing R] {micros : List (List (List (Fin n)))}
  (divides : Divides micros)
include divides

/-- What the last tokens of the rows cost beside their successors. -/
def lastSum (batch : Fin n → Row) (outputs : Fin n → Nat → R) (rows : List (Fin n)) : R :=
  (rows.map (fun r => lastTerm batch outputs r (firstMask batch (successorIn rows r)))).sum

theorem sft_step_iff (outputs : Fin n → Nat → R) (tokens : R) (counted : tokens ≠ 0) :
    backward (fun rows => .ok (sftLoss (flatOutputs batch rows outputs) (rows.flatMap (fun r => (batch r).lossMask))
        tokens micros.length)) micros =
      .ok (sftLoss (flatOutputs batch (List.finRange n) outputs) ((List.finRange n).flatMap (fun r => (batch r).lossMask))
        tokens 1) ↔
      (micros.flatten.map (lastSum batch outputs)).sum = lastSum batch outputs (List.finRange n) := by
  have ranks : (micros.length : R) ≠ 0 := Nat.cast_ne_zero.mpr divides.some_rank
  have negated : (micros.flatten.map (fun micro => -((micro.map (innerTerm batch outputs)).sum +
      lastSum batch outputs micro))).sum = -(((List.finRange n).map (innerTerm batch outputs)).sum +
        (micros.flatten.map (lastSum batch outputs)).sum) := by
    rw [List.map_congr_left (fun _ _ => neg_eq_neg_one_mul _),List.sum_map_mul_left,neg_one_mul,List.sum_map_add,divides.sum]
  rw [backward_ok _ micros (fun micro => -((micro.map (innerTerm batch outputs)).sum + lastSum batch outputs micro) / tokens *
      micros.length) (fun micro member => congrArg Except.ok (sftLoss_eq outputs micro (divides.nodup micro member) tokens _)),
    sftLoss_eq outputs _ (List.nodup_finRange n),Except.ok.injEq,List.sum_map_mul_right,mul_div_cancel_right₀ _ ranks,
    sum_map_div,Nat.cast_one,mul_one,div_left_inj' counted,negated,neg_inj,add_right_inj]
  rfl

/-- The micro-batches put rows with equal first mask entries behind a row. -/
theorem lastSum_iff : (∀ outputs : Fin n → Nat → R,
      (micros.flatten.map (lastSum batch outputs)).sum = lastSum batch outputs (List.finRange n)) ↔
    ∀ micro ∈ micros.flatten, ∀ r ∈ micro,
      firstMask batch (successorIn micro r) = firstMask batch (successorIn (List.finRange n) r) := by
  constructor
  · intro same micro member r inside
    let outputs : Fin n → Nat → R := fun s _ => if s = r then 1 else 0
    have elsewhere : ∀ (m : List (Fin n)) s, s ≠ r → lastTerm batch outputs s (firstMask batch (successorIn m s)) = 0 := by
      intro m s other
      simp only [lastTerm,outputs,if_neg other,zero_mul]
    have equal : (micros.flatten.map (fun m => (m.map (fun s =>
        lastTerm batch outputs s (firstMask batch (successorIn m s)))).sum)).sum = ((List.finRange n).map (fun s =>
          lastTerm batch outputs s (firstMask batch (successorIn (List.finRange n) s)))).sum := same outputs
    rw [divides.sum_single (fun m s => lastTerm batch outputs s (firstMask batch (successorIn m s))) r micro member inside
      elsewhere,whole_single _ r (elsewhere (List.finRange n))] at equal
    simp only [lastTerm,outputs,if_true,one_mul,maskValue] at equal
    revert equal
    cases firstMask batch (successorIn micro r) <;> cases firstMask batch (successorIn (List.finRange n) r) <;> simp
  · intro heads outputs
    have each : ∀ micro ∈ micros.flatten, lastSum batch outputs micro =
        (micro.map (fun r => lastTerm batch outputs r (firstMask batch (successorIn (List.finRange n) r)))).sum :=
      fun micro member => congrArg List.sum (List.map_congr_left (fun r inside => by rw [heads micro member r inside]))
    rw [List.map_congr_left each,divides.sum]
    rfl

end Packed

end RelayOpd.OptimStep
