import Mathlib.Algebra.Order.Field.Basic
import Mathlib.Logic.Relation
import Mathlib.Tactic.Linarith
import Mathlib.Tactic.FieldSimp
import Mathlib.Tactic.Ring

/-! The token bucket of the rate limited reward manager, under any interleaving of `acquire` calls over
an exact clock. A critical section has no `await` inside, so it is one step. -/
namespace RelayOpd.TokenBucket

section Bucket

variable {𝕜 : Type} [Field 𝕜] [LinearOrder 𝕜] [IsStrictOrderedRing 𝕜]

structure Limits (𝕜 : Type) [Zero 𝕜] [LT 𝕜] where
  rateLimit : 𝕜
  maxTokens : 𝕜
  rate_pos : 0 < rateLimit
  max_pos : 0 < maxTokens

structure AsyncTokenBucket (𝕜 : Type) where
  tokens : 𝕜
  lastUpdate : Option 𝕜

/-- `__init__`. -/
def AsyncTokenBucket.init (limits : Limits 𝕜) : AsyncTokenBucket 𝕜 := ⟨limits.maxTokens,none⟩

/-- The refill that both branches start with. -/
def AsyncTokenBucket.refill (limits : Limits 𝕜) (bucket : AsyncTokenBucket 𝕜) (now : 𝕜) : AsyncTokenBucket 𝕜 :=
  let elapsed := now - bucket.lastUpdate.getD now
  ⟨min limits.maxTokens (bucket.tokens + elapsed * limits.rateLimit),some now⟩

/-- The section of a request above `max_tokens`, with its wait time. -/
def AsyncTokenBucket.acquireLarge (limits : Limits 𝕜) (bucket : AsyncTokenBucket 𝕜) (now numTokens : 𝕜) :
    AsyncTokenBucket 𝕜 × 𝕜 :=
  let refilled := bucket.refill limits now
  let tokensNeeded := numTokens - refilled.tokens
  ({ refilled with tokens := refilled.tokens - numTokens },
    if 0 < tokensNeeded then tokensNeeded / limits.rateLimit else 0)

/-- The section of the retry loop: `none` when the tokens are taken, else the wait time. -/
def AsyncTokenBucket.acquireStandard (limits : Limits 𝕜) (bucket : AsyncTokenBucket 𝕜) (now numTokens : 𝕜) :
    AsyncTokenBucket 𝕜 × Option 𝕜 :=
  let refilled := bucket.refill limits now
  if numTokens ≤ refilled.tokens then ({ refilled with tokens := refilled.tokens - numTokens },none)
  else (refilled,some ((numTokens - refilled.tokens) / limits.rateLimit))

/-- A call in front of its critical section, not before `wake`. -/
structure Waiting (𝕜 : Type) where
  amount : 𝕜
  wake : 𝕜

/-- A call whose tokens are taken. It returns at `finish` or later. -/
structure Grant (𝕜 : Type) where
  amount : 𝕜
  charged : 𝕜
  finish : 𝕜
  returned : Option 𝕜

/-- The bucket, the calls under way and the grants, newest first. -/
structure State (𝕜 : Type) where
  clock : 𝕜
  firstAcquire : Option 𝕜
  bucket : AsyncTokenBucket 𝕜
  waiting : List (Waiting 𝕜)
  grants : List (Grant 𝕜)

def State.start (limits : Limits 𝕜) (clock : 𝕜) : State 𝕜 := ⟨clock,none,.init limits,[],[]⟩

/-- A waiting call runs its critical section. -/
def State.criticalSection (limits : Limits 𝕜) (s : State 𝕜) (now : 𝕜) (before : List (Waiting 𝕜)) (call : Waiting 𝕜)
    (after : List (Waiting 𝕜)) : State 𝕜 :=
  if limits.maxTokens < call.amount then
    let (bucket,waitTime) := s.bucket.acquireLarge limits now call.amount
    { s with
      clock := now
      bucket := bucket
      waiting := before ++ after
      grants := ⟨call.amount,now,now + waitTime,none⟩ :: s.grants }
  else
    match s.bucket.acquireStandard limits now call.amount with
    | (bucket,none) =>
      { s with
        clock := now
        bucket := bucket
        waiting := before ++ after
        grants := ⟨call.amount,now,now,none⟩ :: s.grants }
    | (bucket,some waitTime) =>
      { s with
        clock := now
        bucket := bucket
        waiting := before ++ ⟨call.amount,now + waitTime⟩ :: after }

inductive Step (limits : Limits 𝕜) : State 𝕜 → State 𝕜 → Prop
  | acquire {s : State 𝕜} (now amount : 𝕜) : s.clock ≤ now → 0 < amount →
      Step limits s { s with
        clock := now
        firstAcquire := some (s.firstAcquire.getD now)
        waiting := s.waiting ++ [⟨amount,now⟩] }
  | enter {s : State 𝕜} (now : 𝕜) (before after : List (Waiting 𝕜)) (call : Waiting 𝕜) : s.clock ≤ now →
      s.waiting = before ++ call :: after → call.wake ≤ now →
      Step limits s (s.criticalSection limits now before call after)
  | finish {s : State 𝕜} (now : 𝕜) (before after : List (Grant 𝕜)) (grant : Grant 𝕜) : s.clock ≤ now →
      s.grants = before ++ grant :: after → grant.returned = none → grant.finish ≤ now →
      Step limits s { s with
        clock := now
        grants := before ++ { grant with returned := some now } :: after }

def Reachable (limits : Limits 𝕜) (s : State 𝕜) : Prop :=
  ∃ clock, Relation.ReflTransGen (Step limits) (State.start limits clock) s

/-- Amount of the grants that satisfy `p`. -/
def total (p : Grant 𝕜 → Bool) (grants : List (Grant 𝕜)) : 𝕜 := ((grants.filter p).map (·.amount)).sum

/-- Whether a call has returned by `t`. -/
def Grant.returnedBy (t : 𝕜) (grant : Grant 𝕜) : Bool := grant.returned.any (· ≤ t)

def Grant.chargedIn (s t : 𝕜) (grant : Grant 𝕜) : Bool := s ≤ grant.charged && grant.charged ≤ t

def Grant.chargedFrom (s : 𝕜) (grant : Grant 𝕜) : Bool := s ≤ grant.charged

/-- All amounts asked for so far. -/
def State.requests (s : State 𝕜) : List 𝕜 := s.waiting.map (·.amount) ++ s.grants.map (·.amount)

/-- At each grant, what was taken since `from_` is covered at the time the grant may return. -/
def Covered (limits : Limits 𝕜) : List (Grant 𝕜) → Prop
  | [] => True
  | grant :: older =>
    (∀ from_ ≤ grant.charged,
      total (Grant.chargedFrom from_) (grant :: older) ≤ limits.maxTokens + limits.rateLimit * (grant.finish - from_)) ∧
    Covered limits older

structure Inv (limits : Limits 𝕜) (s : State 𝕜) : Prop where
  capped : s.bucket.tokens ≤ limits.maxTokens
  updated : ∀ last ∈ s.bucket.lastUpdate, last ≤ s.clock
  fresh : s.bucket.lastUpdate = none → s.grants = []
  first : ∀ t0 ∈ s.firstAcquire, t0 ≤ s.clock ∧ (∀ last ∈ s.bucket.lastUpdate, t0 ≤ last) ∧
    ∀ grant ∈ s.grants, t0 ≤ grant.charged
  asked : s.waiting ≠ [] → s.firstAcquire.isSome
  idle : s.firstAcquire = none → s.bucket.lastUpdate = none
  charged : ∀ grant ∈ s.grants, ∀ last ∈ s.bucket.lastUpdate, grant.charged ≤ last
  balance : ∀ last ∈ s.bucket.lastUpdate, ∀ from_ ≤ last,
    total (Grant.chargedFrom from_) s.grants ≤ limits.maxTokens + limits.rateLimit * (last - from_) - s.bucket.tokens
  covered : Covered limits s.grants
  positive : (∀ call ∈ s.waiting, 0 < call.amount) ∧ ∀ grant ∈ s.grants, 0 < grant.amount
  returns : ∀ grant ∈ s.grants, ∀ t ∈ grant.returned, grant.finish ≤ t
  prompt : ∀ grant ∈ s.grants, grant.amount ≤ limits.maxTokens → grant.finish = grant.charged

/-! Totals. -/

omit [LinearOrder 𝕜] [IsStrictOrderedRing 𝕜] in
theorem total_cons (p : Grant 𝕜 → Bool) (grant : Grant 𝕜) (grants : List (Grant 𝕜)) :
    total p (grant :: grants) = (if p grant then grant.amount else 0) + total p grants := by
  rw [total,List.filter_cons]
  split
  · rw [List.map_cons,List.sum_cons]
    rfl
  · rw [zero_add]
    rfl

omit [LinearOrder 𝕜] [IsStrictOrderedRing 𝕜] in
theorem total_append (p : Grant 𝕜 → Bool) (xs ys : List (Grant 𝕜)) : total p (xs ++ ys) = total p xs + total p ys := by
  rw [total,List.filter_append,List.map_append,List.sum_append]
  rfl

omit [LinearOrder 𝕜] [IsStrictOrderedRing 𝕜] in
theorem total_none (p : Grant 𝕜 → Bool) (grants : List (Grant 𝕜)) (none_ : ∀ grant ∈ grants, p grant = false) :
    total p grants = 0 := by
  rw [total,List.filter_eq_nil_iff.mpr (fun grant member => by rw [none_ grant member]; exact Bool.false_ne_true)]
  rfl

theorem total_mono (p q : Grant 𝕜 → Bool) (grants : List (Grant 𝕜)) (positive : ∀ grant ∈ grants, 0 < grant.amount)
    (weaker : ∀ grant ∈ grants, p grant = true → q grant = true) : total p grants ≤ total q grants := by
  induction grants with
  | nil => exact le_rfl
  | cons grant grants ih =>
    have rest := ih (fun g m => positive g (List.mem_cons_of_mem _ m)) (fun g m => weaker g (List.mem_cons_of_mem _ m))
    have amount := positive grant List.mem_cons_self
    rw [total_cons,total_cons]
    by_cases held : p grant = true
    · rw [if_pos held,if_pos (weaker grant List.mem_cons_self held)]
      linarith
    · rw [if_neg held]
      split <;> linarith

/-! What one critical section does. -/

section Sections

variable {limits : Limits 𝕜} {s : State 𝕜} (inv : Inv limits s)

include inv

/-- A refill does not raise the account above what the rate allows. -/
theorem balance_refill (now from_ : 𝕜) (past : from_ ≤ now) :
    total (Grant.chargedFrom from_) s.grants ≤
      limits.maxTokens + limits.rateLimit * (now - from_) - (s.bucket.refill limits now).tokens := by
  have rate := limits.rate_pos
  have gain : 0 ≤ limits.rateLimit * (now - from_) := mul_nonneg rate.le (sub_nonneg.mpr past)
  have capped : (s.bucket.refill limits now).tokens ≤ limits.maxTokens := min_le_left _ _
  cases updated : s.bucket.lastUpdate with
  | none =>
    rw [inv.fresh updated,total_none _ [] (by simp)]
    linarith
  | some last =>
    have refilled : (s.bucket.refill limits now).tokens ≤ s.bucket.tokens + (now - last) * limits.rateLimit := by
      rw [AsyncTokenBucket.refill,updated]
      exact min_le_right _ _
    by_cases old : from_ ≤ last
    · have balance := inv.balance last updated from_ old
      linarith
    · have nothing : total (Grant.chargedFrom from_) s.grants = 0 := by
        refine total_none _ _ (fun grant member => ?_)
        have charged := inv.charged grant member last updated
        exact decide_eq_false (not_le.mpr (lt_of_le_of_lt charged (not_le.mp old)))
      linarith

/-- The same with a new grant, charged now. -/
theorem balance_charge (now : 𝕜) (grant : Grant 𝕜) (charged : grant.charged = now) (from_ : 𝕜)
    (past : from_ ≤ now) : total (Grant.chargedFrom from_) (grant :: s.grants) ≤
      limits.maxTokens + limits.rateLimit * (now - from_) - ((s.bucket.refill limits now).tokens - grant.amount) := by
  have before := balance_refill inv now from_ past
  have counted : Grant.chargedFrom from_ grant = true := decide_eq_true (charged ▸ past)
  rw [total_cons,if_pos counted]
  linarith

/-- A section that takes tokens. -/
theorem inv_charge (now : 𝕜) (later : s.clock ≤ now) (before after : List (Waiting 𝕜)) (call : Waiting 𝕜)
    (waiting : s.waiting = before ++ call :: after) (finish : 𝕜)
    (covers : call.amount - (s.bucket.refill limits now).tokens ≤ limits.rateLimit * (finish - now))
    (room : 0 ≤ call.amount) (prompt : call.amount ≤ limits.maxTokens → finish = now) :
    Inv limits { s with
      clock := now
      bucket := { s.bucket.refill limits now with tokens := (s.bucket.refill limits now).tokens - call.amount }
      waiting := before ++ after
      grants := ⟨call.amount,now,finish,none⟩ :: s.grants } := by
  have capped : (s.bucket.refill limits now).tokens ≤ limits.maxTokens := min_le_left _ _
  have started : s.firstAcquire.isSome := inv.asked (by rw [waiting]; simp)
  have older : ∀ grant ∈ s.grants, grant.charged ≤ now := by
    intro grant member
    cases updated : s.bucket.lastUpdate with
    | none =>
      rw [inv.fresh updated] at member
      cases member
    | some last => exact (inv.charged grant member last updated).trans ((inv.updated last updated).trans later)
  have last : ∀ t, t ∈ (s.bucket.refill limits now).lastUpdate → t = now := fun t held => (Option.some.inj held).symm
  refine ⟨?_,?_,?_,?_,fun _ => started,fun none_ => ?_,?_,?_,?_,⟨?_,?_⟩,?_,?_⟩
  · dsimp only
    linarith
  · intro t held
    rw [last t held]
  · intro none_
    cases none_
  · intro t0 first
    obtain ⟨past,_,begun⟩ := inv.first t0 first
    refine ⟨past.trans later,fun t held => (last t held).symm ▸ past.trans later,?_⟩
    exact List.forall_mem_cons.mpr ⟨past.trans later,begun⟩
  · exact (Option.isSome_iff_ne_none.mp started none_).elim
  · intro grant member t held
    rw [last t held]
    rcases List.mem_cons.mp member with rfl | old
    · exact le_rfl
    · exact older grant old
  · intro t held from_ past
    rw [last t held] at past ⊢
    exact balance_charge inv now _ rfl from_ past
  · refine ⟨fun from_ past => ?_,inv.covered⟩
    have balance := balance_charge inv now ⟨call.amount,now,finish,none⟩ rfl from_ past
    have split_ : limits.rateLimit * (finish - from_) =
        limits.rateLimit * (finish - now) + limits.rateLimit * (now - from_) := by ring
    dsimp only at balance ⊢
    linarith
  · intro other member
    refine inv.positive.1 other ?_
    rw [waiting]
    rcases List.mem_append.mp member with left | right
    · exact List.mem_append_left _ left
    · exact List.mem_append_right _ (List.mem_cons_of_mem _ right)
  · refine List.forall_mem_cons.mpr ⟨inv.positive.1 call ?_,inv.positive.2⟩
    rw [waiting]
    exact List.mem_append_right _ List.mem_cons_self
  · exact List.forall_mem_cons.mpr ⟨fun t held => (by cases held),inv.returns⟩
  · exact List.forall_mem_cons.mpr ⟨prompt,inv.prompt⟩

/-- A section that finds too few tokens. -/
theorem inv_retry (now : 𝕜) (later : s.clock ≤ now) (before after : List (Waiting 𝕜)) (call : Waiting 𝕜)
    (waiting : s.waiting = before ++ call :: after) (wake : 𝕜) :
    Inv limits { s with
      clock := now
      bucket := s.bucket.refill limits now
      waiting := before ++ ⟨call.amount,wake⟩ :: after } := by
  have started : s.firstAcquire.isSome := inv.asked (by rw [waiting]; simp)
  have older : ∀ grant ∈ s.grants, grant.charged ≤ now := by
    intro grant member
    cases updated : s.bucket.lastUpdate with
    | none =>
      rw [inv.fresh updated] at member
      cases member
    | some last => exact (inv.charged grant member last updated).trans ((inv.updated last updated).trans later)
  have last : ∀ t, t ∈ (s.bucket.refill limits now).lastUpdate → t = now := fun t held => (Option.some.inj held).symm
  refine ⟨min_le_left _ _,fun t held => (last t held).le,fun none_ => (by cases none_),?_,fun _ => started,
    fun none_ => (Option.isSome_iff_ne_none.mp started none_).elim,?_,?_,
    inv.covered,⟨?_,inv.positive.2⟩,inv.returns,inv.prompt⟩
  · intro t0 first
    obtain ⟨past,_,begun⟩ := inv.first t0 first
    exact ⟨past.trans later,fun t held => (last t held).symm ▸ past.trans later,begun⟩
  · intro grant member t held
    rw [last t held]
    exact older grant member
  · intro t held from_ past
    rw [last t held] at past ⊢
    exact balance_refill inv now from_ past
  · intro other member
    have given : ∀ w ∈ s.waiting, 0 < w.amount := inv.positive.1
    rw [waiting] at given
    rcases List.mem_append.mp member with left | right
    · exact given other (List.mem_append_left _ left)
    · rcases List.mem_cons.mp right with rfl | right
      · exact given call (List.mem_append_right _ List.mem_cons_self)
      · exact given other (List.mem_append_right _ (List.mem_cons_of_mem _ right))

theorem inv_enter (now : 𝕜) (later : s.clock ≤ now) (before after : List (Waiting 𝕜)) (call : Waiting 𝕜)
    (waiting : s.waiting = before ++ call :: after) : Inv limits (s.criticalSection limits now before call after) := by
  have rate := limits.rate_pos
  have amount : 0 < call.amount := inv.positive.1 call (by rw [waiting]; simp)
  have capped : (s.bucket.refill limits now).tokens ≤ limits.maxTokens := min_le_left _ _
  rw [State.criticalSection]
  by_cases large : limits.maxTokens < call.amount
  · have needed : 0 < call.amount - (s.bucket.refill limits now).tokens := by linarith
    rw [if_pos large,AsyncTokenBucket.acquireLarge]
    simp only [if_pos needed]
    refine inv_charge inv now later before after call waiting _ ?_ amount.le (fun small => absurd large (not_lt.mpr small))
    rw [add_sub_cancel_left,mul_div_cancel₀ _ rate.ne']
  · rw [if_neg large,AsyncTokenBucket.acquireStandard]
    by_cases enough : call.amount ≤ (s.bucket.refill limits now).tokens
    · simp only [if_pos enough]
      refine inv_charge inv now later before after call waiting now ?_ amount.le (fun _ => rfl)
      rw [sub_self,mul_zero]
      linarith
    · simp only [if_neg enough]
      exact inv_retry inv now later before after call waiting _

omit [IsStrictOrderedRing 𝕜] in
theorem inv_acquire (now amount : 𝕜) (later : s.clock ≤ now) (positive : 0 < amount) :
    Inv limits { s with
      clock := now
      firstAcquire := some (s.firstAcquire.getD now)
      waiting := s.waiting ++ [⟨amount,now⟩] } := by
  refine ⟨inv.capped,fun t held => (inv.updated t held).trans later,inv.fresh,?_,fun _ => rfl,
    fun none_ => (by cases none_),inv.charged,inv.balance,
    inv.covered,⟨?_,inv.positive.2⟩,inv.returns,inv.prompt⟩
  · intro t0 first
    obtain rfl : s.firstAcquire.getD now = t0 := Option.some.inj first
    cases begun : s.firstAcquire with
    | some t0 =>
      obtain ⟨past,updates,grants⟩ := inv.first t0 begun
      exact ⟨past.trans later,updates,grants⟩
    | none =>
      have never := inv.idle begun
      refine ⟨le_rfl,fun last held => ?_,fun grant member => ?_⟩
      · dsimp only at held
        rw [never] at held
        cases held
      · dsimp only at member
        rw [inv.fresh never] at member
        cases member
  · intro call member
    rcases List.mem_append.mp member with old | new
    · exact inv.positive.1 call old
    · obtain rfl := List.mem_singleton.mp new
      exact positive

/-! A return changes no account. -/

end Sections

omit [IsStrictOrderedRing 𝕜] in
theorem total_returned (from_ : 𝕜) (before after : List (Grant 𝕜)) (grant : Grant 𝕜) (returned : Option 𝕜) :
    total (Grant.chargedFrom from_) (before ++ { grant with returned := returned } :: after) =
      total (Grant.chargedFrom from_) (before ++ grant :: after) := by
  rw [total_append,total_append,total_cons,total_cons]
  rfl

omit [IsStrictOrderedRing 𝕜] in
theorem covered_returned (limits : Limits 𝕜) (before after : List (Grant 𝕜)) (grant : Grant 𝕜) (returned : Option 𝕜)
    (covered : Covered limits (before ++ grant :: after)) :
    Covered limits (before ++ { grant with returned := returned } :: after) := by
  induction before with
  | nil => exact ⟨fun from_ past => (total_returned from_ [] after grant returned).le.trans (covered.1 from_ past),covered.2⟩
  | cons head before ih =>
    exact ⟨fun from_ past => (total_returned from_ (head :: before) after grant returned).le.trans (covered.1 from_ past),
      ih covered.2⟩

omit [IsStrictOrderedRing 𝕜] in
theorem inv_finish {limits : Limits 𝕜} {s : State 𝕜} (inv : Inv limits s) (now : 𝕜) (later : s.clock ≤ now)
    (before after : List (Grant 𝕜)) (grant : Grant 𝕜) (grants : s.grants = before ++ grant :: after)
    (due : grant.finish ≤ now) :
    Inv limits { s with
      clock := now
      grants := before ++ { grant with returned := some now } :: after } := by
  have each : ∀ P : Grant 𝕜 → Prop, (∀ g ∈ s.grants, P g) → (P grant → P { grant with returned := some now }) →
      ∀ g ∈ before ++ { grant with returned := some now } :: after, P g := by
    intro P all step g member
    rw [grants] at all
    rcases List.mem_append.mp member with left | right
    · exact all g (List.mem_append_left _ left)
    · rcases List.mem_cons.mp right with rfl | right
      · exact step (all grant (List.mem_append_right _ List.mem_cons_self))
      · exact all g (List.mem_append_right _ (List.mem_cons_of_mem _ right))
  refine ⟨inv.capped,fun t held => (inv.updated t held).trans later,fun none_ => ?_,?_,inv.asked,inv.idle,?_,?_,?_,
    ⟨inv.positive.1,?_⟩,?_,?_⟩
  · have empty := inv.fresh none_
    rw [grants] at empty
    simp at empty
  · intro t0 first
    obtain ⟨past,updates,begun⟩ := inv.first t0 first
    exact ⟨past.trans later,updates,each _ begun id⟩
  · exact each _ inv.charged id
  · intro last held from_ past
    dsimp only
    rw [total_returned,← grants]
    exact inv.balance last held from_ past
  · exact covered_returned limits before after grant (some now) (grants ▸ inv.covered)
  · exact each _ inv.positive.2 id
  · exact each _ inv.returns (fun _ t held => Option.some.inj held ▸ due)
  · exact each _ inv.prompt id

omit [IsStrictOrderedRing 𝕜] in
theorem inv_start (limits : Limits 𝕜) (clock : 𝕜) : Inv limits (State.start limits clock) where
  capped := le_rfl
  updated _ held := (by cases held)
  fresh _ := rfl
  first _ held := (by cases held)
  asked none_ := (none_ rfl).elim
  idle _ := rfl
  charged _ member := (by cases member)
  balance _ held := (by cases held)
  covered := trivial
  positive := ⟨fun _ member => (by cases member),fun _ member => (by cases member)⟩
  returns _ member := (by cases member)
  prompt _ member := (by cases member)

theorem inv_step {limits : Limits 𝕜} {s s' : State 𝕜} (inv : Inv limits s) (step : Step limits s s') : Inv limits s' := by
  cases step with
  | acquire now amount later positive => exact inv_acquire inv now amount later positive
  | enter now before after call later waiting _ => exact inv_enter inv now later before after call waiting
  | finish now before after grant later grants _ due => exact inv_finish inv now later before after grant grants due

/-- The invariant holds in every state of every run. -/
theorem inv_reachable {limits : Limits 𝕜} {s : State 𝕜} (reachable : Reachable limits s) : Inv limits s := by
  obtain ⟨clock,run⟩ := reachable
  induction run with
  | refl => exact inv_start limits clock
  | tail _ step ih => exact inv_step ih step

/-- What has returned by `t` was covered when the newest of it could return. -/
theorem returned_le (limits : Limits 𝕜) (grants : List (Grant 𝕜)) (covered : Covered limits grants)
    (positive : ∀ grant ∈ grants, 0 < grant.amount) (returns : ∀ grant ∈ grants, ∀ t ∈ grant.returned, grant.finish ≤ t)
    (t0 t : 𝕜) (begun : ∀ grant ∈ grants, t0 ≤ grant.charged) (past : t0 ≤ t) :
    total (Grant.returnedBy t) grants ≤ limits.maxTokens + limits.rateLimit * (t - t0) := by
  have rate := limits.rate_pos
  induction grants with
  | nil =>
    have gain := mul_nonneg rate.le (sub_nonneg.mpr past)
    have room := limits.max_pos
    rw [total_none _ [] (by simp)]
    linarith
  | cons grant older ih =>
    by_cases held : grant.returnedBy t = true
    · obtain ⟨back,known,early⟩ : ∃ back, grant.returned = some back ∧ back ≤ t := by
        simpa [Grant.returnedBy,Option.any_eq_true] using held
      have finish := (returns grant List.mem_cons_self back known).trans early
      have counted := total_mono (Grant.returnedBy t) (Grant.chargedFrom t0) (grant :: older) positive
        (fun g member _ => decide_eq_true (begun g member))
      have bound := covered.1 t0 (begun grant List.mem_cons_self)
      have earlier : limits.rateLimit * (grant.finish - t0) ≤ limits.rateLimit * (t - t0) :=
        mul_le_mul_of_nonneg_left (sub_le_sub_right finish t0) rate.le
      linarith
    · rw [total_cons,if_neg held,zero_add]
      exact ih covered.2 (fun g m => positive g (List.mem_cons_of_mem _ m))
        (fun g m => returns g (List.mem_cons_of_mem _ m)) (fun g m => begun g (List.mem_cons_of_mem _ m))

/-- What is taken in a window is covered by its last grant, when no grant has to wait after taking. -/
theorem window_le (limits : Limits 𝕜) (grants : List (Grant 𝕜)) (covered : Covered limits grants)
    (positive : ∀ grant ∈ grants, 0 < grant.amount) (prompt : ∀ grant ∈ grants, grant.finish = grant.charged)
    (from_ t : 𝕜) (past : from_ ≤ t) :
    total (Grant.chargedIn from_ t) grants ≤ limits.maxTokens + limits.rateLimit * (t - from_) := by
  have rate := limits.rate_pos
  induction grants with
  | nil =>
    have gain := mul_nonneg rate.le (sub_nonneg.mpr past)
    have room := limits.max_pos
    rw [total_none _ [] (by simp)]
    linarith
  | cons grant older ih =>
    by_cases held : grant.chargedIn from_ t = true
    · obtain ⟨since,until_⟩ : from_ ≤ grant.charged ∧ grant.charged ≤ t := by
        simpa [Grant.chargedIn] using held
      have counted := total_mono (Grant.chargedIn from_ t) (Grant.chargedFrom from_) (grant :: older) positive
        (fun g member inside => by
          rw [Grant.chargedIn,Bool.and_eq_true] at inside
          exact inside.1)
      have bound := covered.1 from_ since
      have earlier : limits.rateLimit * (grant.finish - from_) ≤ limits.rateLimit * (t - from_) := by
        rw [prompt grant List.mem_cons_self]
        exact mul_le_mul_of_nonneg_left (sub_le_sub_right until_ from_) rate.le
      linarith
    · rw [total_cons,if_neg held,zero_add]
      exact ih covered.2 (fun g m => positive g (List.mem_cons_of_mem _ m))
        (fun g m => prompt g (List.mem_cons_of_mem _ m))

/-- Returned calls stay below the bucket and its refill since the first call; without oversized
requests the same holds of every window. -/
theorem token_bucket_bound (limits : Limits 𝕜) (s : State 𝕜) (reachable : Reachable limits s) :
    (∀ t0 ∈ s.firstAcquire, ∀ t, t0 ≤ t →
      total (Grant.returnedBy t) s.grants ≤ limits.maxTokens + limits.rateLimit * (t - t0)) ∧
    ((∀ amount ∈ s.requests, amount ≤ limits.maxTokens) → ∀ from_ t, from_ ≤ t →
      total (Grant.chargedIn from_ t) s.grants ≤ limits.maxTokens + limits.rateLimit * (t - from_)) := by
  have inv := inv_reachable reachable
  constructor
  · intro t0 first t past
    exact returned_le limits s.grants inv.covered inv.positive.2 inv.returns t0 t (inv.first t0 first).2.2 past
  · intro small from_ t past
    refine window_le limits s.grants inv.covered inv.positive.2 (fun grant member => ?_) from_ t past
    exact inv.prompt grant member (small _ (List.mem_append_right _ (List.mem_map_of_mem member)))

end Bucket

/-- One token a second, at most two in the bucket. -/
def tinyLimits : Limits ℚ := ⟨1,2,by norm_num,by norm_num⟩

/-- One token taken at time 0 and two at time 1; a call at time 1 for one more finds none, and takes it
at time 2. -/
def threeCalls : State ℚ :=
  ⟨2,some 0,⟨0,some 2⟩,[],[⟨1,2,2,some 2⟩,⟨2,1,1,some 1⟩,⟨1,0,0,some 0⟩]⟩

/-- A waiting call that is alone runs its critical section. -/
theorem Step.enterOnly {limits : Limits ℚ} {s t : State ℚ} (now : ℚ) (call : Waiting ℚ) (past : s.clock ≤ now)
    (alone : s.waiting = [call]) (woken : call.wake ≤ now) (done : s.criticalSection limits now [] call [] = t) :
    Step limits s t := done ▸ .enter now [] [] call past alone woken

theorem threeCalls_reachable : Reachable tinyLimits threeCalls := by
  have asked : Step tinyLimits (State.start tinyLimits 0) ⟨0,some 0,⟨2,none⟩,[⟨1,0⟩],[]⟩ := .acquire 0 1 le_rfl one_pos
  have taken : Step tinyLimits ⟨0,some 0,⟨2,none⟩,[⟨1,0⟩],[]⟩ ⟨0,some 0,⟨1,some 0⟩,[],[⟨1,0,0,none⟩]⟩ := by
    refine .enterOnly 0 ⟨1,0⟩ le_rfl rfl le_rfl ?_
    norm_num [State.criticalSection,AsyncTokenBucket.acquireStandard,AsyncTokenBucket.refill,tinyLimits]
  have returned : Step tinyLimits ⟨0,some 0,⟨1,some 0⟩,[],[⟨1,0,0,none⟩]⟩ ⟨0,some 0,⟨1,some 0⟩,[],[⟨1,0,0,some 0⟩]⟩ := .finish 0 [] [] ⟨1,0,0,none⟩ le_rfl rfl rfl le_rfl
  have askedTwo : Step tinyLimits ⟨0,some 0,⟨1,some 0⟩,[],[⟨1,0,0,some 0⟩]⟩ ⟨1,some 0,⟨1,some 0⟩,[⟨2,1⟩],[⟨1,0,0,some 0⟩]⟩ := .acquire 1 2 zero_le_one two_pos
  have takenTwo : Step tinyLimits ⟨1,some 0,⟨1,some 0⟩,[⟨2,1⟩],[⟨1,0,0,some 0⟩]⟩
      ⟨1,some 0,⟨0,some 1⟩,[],[⟨2,1,1,none⟩,⟨1,0,0,some 0⟩]⟩ := by
    refine .enterOnly 1 ⟨2,1⟩ le_rfl rfl le_rfl ?_
    norm_num [State.criticalSection,AsyncTokenBucket.acquireStandard,AsyncTokenBucket.refill,tinyLimits]
  have returnedTwo : Step tinyLimits ⟨1,some 0,⟨0,some 1⟩,[],[⟨2,1,1,none⟩,⟨1,0,0,some 0⟩]⟩
      ⟨1,some 0,⟨0,some 1⟩,[],[⟨2,1,1,some 1⟩,⟨1,0,0,some 0⟩]⟩ := .finish 1 [] [⟨1,0,0,some 0⟩] ⟨2,1,1,none⟩ le_rfl rfl rfl le_rfl
  have askedMore : Step tinyLimits ⟨1,some 0,⟨0,some 1⟩,[],[⟨2,1,1,some 1⟩,⟨1,0,0,some 0⟩]⟩
      ⟨1,some 0,⟨0,some 1⟩,[⟨1,1⟩],[⟨2,1,1,some 1⟩,⟨1,0,0,some 0⟩]⟩ := .acquire 1 1 le_rfl one_pos
  have waits : Step tinyLimits ⟨1,some 0,⟨0,some 1⟩,[⟨1,1⟩],[⟨2,1,1,some 1⟩,⟨1,0,0,some 0⟩]⟩
      ⟨1,some 0,⟨0,some 1⟩,[⟨1,2⟩],[⟨2,1,1,some 1⟩,⟨1,0,0,some 0⟩]⟩ := by
    refine .enterOnly 1 ⟨1,1⟩ le_rfl rfl le_rfl ?_
    norm_num [State.criticalSection,AsyncTokenBucket.acquireStandard,AsyncTokenBucket.refill,tinyLimits]
  have retries : Step tinyLimits ⟨1,some 0,⟨0,some 1⟩,[⟨1,2⟩],[⟨2,1,1,some 1⟩,⟨1,0,0,some 0⟩]⟩
      ⟨2,some 0,⟨0,some 2⟩,[],[⟨1,2,2,none⟩,⟨2,1,1,some 1⟩,⟨1,0,0,some 0⟩]⟩ := by
    refine .enterOnly 2 ⟨1,2⟩ one_le_two rfl le_rfl ?_
    norm_num [State.criticalSection,AsyncTokenBucket.acquireStandard,AsyncTokenBucket.refill,tinyLimits]
  have returnedMore : Step tinyLimits ⟨2,some 0,⟨0,some 2⟩,[],[⟨1,2,2,none⟩,⟨2,1,1,some 1⟩,⟨1,0,0,some 0⟩]⟩ threeCalls :=
    .finish 2 [] [⟨2,1,1,some 1⟩,⟨1,0,0,some 0⟩] ⟨1,2,2,none⟩ le_rfl rfl rfl le_rfl
  have first := (Relation.ReflTransGen.single asked).tail taken |>.tail returned
  have second := (first.tail askedTwo).tail takenTwo |>.tail returnedTwo
  exact ⟨0,(((second.tail askedMore).tail waits).tail retries).tail returnedMore⟩

/-- Both bounds are met exactly: four tokens by time 2, and three of them since time 1. -/
theorem token_bucket_three_calls : total (Grant.returnedBy 2) threeCalls.grants = 4 ∧
    total (Grant.returnedBy 2) threeCalls.grants ≤ tinyLimits.maxTokens + tinyLimits.rateLimit * (2 - 0) ∧
    total (Grant.chargedIn 1 2) threeCalls.grants = 3 ∧
    total (Grant.chargedIn 1 2) threeCalls.grants ≤ tinyLimits.maxTokens + tinyLimits.rateLimit * (2 - 1) := by
  obtain ⟨returned,charged⟩ := token_bucket_bound tinyLimits threeCalls threeCalls_reachable
  refine ⟨?_,returned 0 rfl 2 zero_le_two,?_,charged ?_ 1 2 one_le_two⟩
  · norm_num [total,threeCalls,Grant.returnedBy]
  · norm_num [total,threeCalls,Grant.chargedIn]
  · simp [State.requests,threeCalls,tinyLimits]

end RelayOpd.TokenBucket
