import Mathlib

/-! Scanning a text from left to right: lazy runs up to a literal, and all matches of a pattern that
is tried at every position. -/
namespace TextScan

variable {α : Type} [DecidableEq α] {β : Type}

/-- The text after a literal. -/
def stripPrefix : List α → List α → Option (List α)
  | [],text => some text
  | _ :: _,[] => none
  | l :: lit,c :: text => if l = c then stripPrefix lit text else none

/-- The shortest run without a stop that is followed by the literal, and what comes after. -/
def untilLiteral (stop : α → Bool) (lit : List α) : List α → Option (List α × List α)
  | [] => (stripPrefix lit []).map (fun rest => ([],rest))
  | c :: text =>
    match stripPrefix lit (c :: text) with
    | some rest => some ([],rest)
    | none =>
      if stop c then none else (untilLiteral stop lit text).map (fun found => (c :: found.1,found.2))

/-- Matches from left to right, each search going on behind the last match. -/
def findAll (matchAt : List α → Option (β × List α)) : Nat → List α → List β
  | 0,_ => []
  | fuel + 1,text =>
    match matchAt text with
    | some found => found.1 :: findAll matchAt fuel found.2
    | none => if text.isEmpty then [] else findAll matchAt fuel text.tail

def scanAll (matchAt : List α → Option (β × List α)) (text : List α) : List β :=
  findAll matchAt (text.length + 1) text

/-- The text without the literal, which is looked for behind each place where it was found. -/
def removeAll (lit : List α) : Nat → List α → List α
  | 0,text => text
  | _ + 1,[] => []
  | fuel + 1,c :: text =>
    match stripPrefix lit (c :: text) with
    | some rest => removeAll lit fuel rest
    | none => c :: removeAll lit fuel text

def without (lit text : List α) : List α := removeAll lit text.length text

/-- In `a`, followed by `b`, nothing starts that `P` accepts. -/
def Quiet (P : List α → Prop) : List α → List α → Prop
  | [],_ => True
  | c :: a,b => ¬ P (c :: (a ++ b)) ∧ Quiet P a b

theorem stripPrefix_append (lit rest : List α) : stripPrefix lit (lit ++ rest) = some rest := by
  induction lit with
  | nil => rfl
  | cons l lit ih => rw [List.cons_append,stripPrefix,if_pos rfl,ih]

theorem stripPrefix_eq_some {lit text rest : List α} (found : stripPrefix lit text = some rest) :
    text = lit ++ rest := by
  induction lit generalizing text with
  | nil => exact Option.some.inj found
  | cons l lit ih =>
    cases text with
    | nil => cases found
    | cons c text =>
      rw [stripPrefix] at found
      split at found
      · next same => rw [ih found,same,List.cons_append]
      · cases found

theorem stripPrefix_eq_none {lit text : List α} : stripPrefix lit text = none ↔ ¬ lit <+: text := by
  cases search : stripPrefix lit text with
  | none =>
    refine ⟨fun _ => ?_,fun _ => rfl⟩
    rintro ⟨rest,rfl⟩
    rw [stripPrefix_append] at search
    cases search
  | some rest => exact ⟨fun none_ => (by cases none_),fun apart => (apart ⟨rest,(stripPrefix_eq_some search).symm⟩).elim⟩

omit [DecidableEq α] in
theorem quiet_append (P : List α → Prop) (a b c : List α) :
    Quiet P (a ++ b) c ↔ Quiet P a (b ++ c) ∧ Quiet P b c := by
  induction a with
  | nil => simp [Quiet]
  | cons x a ih => rw [List.cons_append,Quiet,Quiet,ih,List.append_assoc,and_assoc]

omit [DecidableEq α] in
theorem Quiet.imp {P Q : List α → Prop} (weaker : ∀ text, Q text → P text) {a b : List α} (quiet : Quiet P a b) :
    Quiet Q a b := by
  induction a with
  | nil => trivial
  | cons x a ih => exact ⟨fun held => quiet.1 (weaker _ held),ih quiet.2⟩

omit [DecidableEq α] in
/-- A literal does not start where its first letter is missing. -/
theorem quiet_of_head (l : α) (lit a b : List α) (missing : l ∉ a) : Quiet (l :: lit <+: ·) a b := by
  induction a with
  | nil => trivial
  | cons x a ih =>
    rw [List.mem_cons,not_or] at missing
    refine ⟨fun start => ?_,ih missing.2⟩
    exact missing.1 (List.cons_prefix_cons.mp start).1

omit [DecidableEq α] in
/-- A literal that is not in `a` can only start there when a proper end of it starts `b`. -/
theorem quiet_of_not_infix (lit a b : List α) (clean : ¬ lit <:+: a)
    (apart : ∀ n, 0 < n → n < lit.length → ¬ lit.drop n <+: b) : Quiet (lit <+: ·) a b := by
  induction a with
  | nil => trivial
  | cons x a ih =>
    refine ⟨?_,ih (fun inside => clean (inside.trans (List.suffix_cons x a).isInfix))⟩
    intro start
    rw [← List.cons_append] at start
    by_cases short : lit.length ≤ (x :: a).length
    · exact clean ((List.prefix_of_prefix_length_le start (List.prefix_append _ b) short).isInfix)
    · obtain ⟨rest,whole⟩ := List.prefix_of_prefix_length_le (List.prefix_append (x :: a) b) start (by omega)
      obtain ⟨tail,same⟩ := start
      rw [← whole,List.append_assoc] at same
      have ending : lit.drop (x :: a).length = rest := by rw [← whole,List.drop_left]
      refine apart (x :: a).length (Nat.succ_pos _) (by omega) ?_
      rw [ending]
      exact ⟨tail,List.append_cancel_left same⟩

theorem untilLiteral_here (stop : α → Bool) (lit rest : List α) :
    untilLiteral stop lit (lit ++ rest) = some ([],rest) := by
  cases whole : lit ++ rest with
  | nil =>
    obtain ⟨rfl,rfl⟩ := List.append_eq_nil_iff.mp whole
    rfl
  | cons c text => rw [untilLiteral,← whole,stripPrefix_append]

theorem untilLiteral_quiet (stop : α → Bool) (lit a b : List α) (quiet : Quiet (lit <+: ·) a b)
    (passes : ∀ c ∈ a, stop c = false) :
    untilLiteral stop lit (a ++ b) = (untilLiteral stop lit b).map (fun found => (a ++ found.1,found.2)) := by
  induction a with
  | nil =>
    rw [List.nil_append]
    cases untilLiteral stop lit b <;> rfl
  | cons x a ih =>
    rw [List.cons_append,untilLiteral,stripPrefix_eq_none.mpr quiet.1,passes x List.mem_cons_self,
      ih quiet.2 (fun c member => passes c (List.mem_cons_of_mem x member))]
    cases untilLiteral stop lit b <;> rfl

/-- A run up to the literal. -/
theorem untilLiteral_run (stop : α → Bool) (lit a rest : List α) (quiet : Quiet (lit <+: ·) a (lit ++ rest))
    (passes : ∀ c ∈ a, stop c = false) : untilLiteral stop lit (a ++ (lit ++ rest)) = some (a,rest) := by
  rw [untilLiteral_quiet stop lit a _ quiet passes,untilLiteral_here,Option.map_some,List.append_nil]

/-- A stop before the literal ends the search. -/
theorem untilLiteral_stopped (stop : α → Bool) (lit a b : List α) (quiet : Quiet (lit <+: ·) a b)
    (stops : ∃ c ∈ a, stop c = true) : untilLiteral stop lit (a ++ b) = none := by
  induction a with
  | nil =>
    obtain ⟨_,member,_⟩ := stops
    cases member
  | cons x a ih =>
    rw [List.cons_append,untilLiteral,stripPrefix_eq_none.mpr quiet.1]
    dsimp only
    split
    · rfl
    · next goes =>
      obtain ⟨c,member,held⟩ := stops
      rcases List.mem_cons.mp member with rfl | later
      · exact (goes held).elim
      · rw [ih quiet.2 ⟨c,later,held⟩,Option.map_none]

theorem untilLiteral_eq_some {stop : α → Bool} {lit text run rest : List α}
    (found : untilLiteral stop lit text = some (run,rest)) :
    text = run ++ (lit ++ rest) ∧ ∀ c ∈ run, stop c = false := by
  induction text generalizing run with
  | nil =>
    rw [untilLiteral,Option.map_eq_some_iff] at found
    obtain ⟨after,here,same⟩ := found
    obtain ⟨rfl,rfl⟩ := Prod.mk.inj same
    exact ⟨(stripPrefix_eq_some here).trans (List.nil_append _).symm,by simp⟩
  | cons c text ih =>
    rw [untilLiteral] at found
    split at found
    · next after here =>
      obtain ⟨rfl,rfl⟩ := Prod.mk.inj (Option.some.inj found)
      exact ⟨(stripPrefix_eq_some here).trans (List.nil_append _).symm,by simp⟩
    · split at found
      · cases found
      · next goes =>
        obtain ⟨⟨tail,after⟩,later,same⟩ := Option.map_eq_some_iff.mp found
        obtain ⟨rfl,rfl⟩ := Prod.mk.inj same
        obtain ⟨whole,passes⟩ := ih later
        refine ⟨by rw [whole,List.cons_append],?_⟩
        exact List.forall_mem_cons.mpr ⟨by simpa using goes,passes⟩

/-- A run up to the first of two or more literals, or up to the last. -/
theorem untilLiteral_within {stop : α → Bool} {lit a rest run after : List α}
    (apart : ∀ n, 0 < n → n < lit.length → ¬ lit.drop n <+: lit ++ rest)
    (found : untilLiteral stop lit (a ++ (lit ++ rest)) = some (run,after)) :
    (run = a ∧ after = rest) ∨ ∃ later, a = run ++ (lit ++ later) ∧ after = later ++ (lit ++ rest) := by
  induction a generalizing run with
  | nil =>
    rw [List.nil_append,untilLiteral_here] at found
    obtain ⟨rfl,rfl⟩ := Prod.mk.inj (Option.some.inj found)
    exact .inl ⟨rfl,rfl⟩
  | cons x a ih =>
    rw [List.cons_append,untilLiteral] at found
    split at found
    · next tail here =>
      obtain ⟨rfl,rfl⟩ := Prod.mk.inj (Option.some.inj found)
      have whole : x :: a ++ (lit ++ rest) = lit ++ tail := stripPrefix_eq_some here
      rcases List.append_eq_append_iff.mp whole with ⟨more,longer,ends⟩ | ⟨later,shorter,ends⟩
      · cases more with
        | nil => exact .inr ⟨[],by simpa using longer.symm,by simpa using ends.symm⟩
        | cons c more =>
          refine (apart (x :: a).length (Nat.succ_pos _) ?_ ?_).elim
          · simp [longer]
          · have dropped : lit.drop (x :: a).length = c :: more := by rw [longer,List.drop_left]
            rw [dropped]
            exact ⟨tail,ends.symm⟩
      · exact .inr ⟨later,shorter,ends⟩
    · split at found
      · cases found
      · obtain ⟨⟨tail,more⟩,inner,same⟩ := Option.map_eq_some_iff.mp found
        obtain ⟨rfl,rfl⟩ := Prod.mk.inj same
        rcases ih inner with ⟨rfl,ends⟩ | ⟨later,shorter,ends⟩
        · exact .inl ⟨rfl,ends⟩
        · exact .inr ⟨later,by rw [shorter,List.cons_append],ends⟩

section Removal

variable {lit : List α} (some_ : lit ≠ [])

include some_

theorem stripPrefix_shrinks {text rest : List α} (found : stripPrefix lit text = some rest) :
    rest.length < text.length := by
  have positive := List.length_pos_iff.mpr some_
  have total := congrArg List.length (stripPrefix_eq_some found)
  rw [List.length_append] at total
  omega

theorem removeAll_enough (f g : Nat) (text : List α) (left : text.length ≤ f) (right : text.length ≤ g) :
    removeAll lit f text = removeAll lit g text := by
  induction f generalizing g text with
  | zero =>
    obtain rfl := List.eq_nil_of_length_eq_zero (Nat.le_zero.mp left)
    cases g <;> rfl
  | succ f ih =>
    cases text with
    | nil => cases g <;> rfl
    | cons c text =>
      rw [List.length_cons] at left right
      obtain ⟨g,rfl⟩ := Nat.exists_eq_succ_of_ne_zero (by omega : g ≠ 0)
      rw [removeAll,removeAll]
      split
      · next rest here =>
        have less := stripPrefix_shrinks some_ here
        rw [List.length_cons] at less
        exact ih g rest (by omega) (by omega)
      · rw [ih g text (by omega) (by omega)]

theorem without_literal (rest : List α) : without lit (lit ++ rest) = without lit rest := by
  have positive := List.length_pos_iff.mpr some_
  obtain ⟨l,tail,rfl⟩ := List.exists_cons_of_ne_nil some_
  have start := stripPrefix_append (l :: tail) rest
  rw [List.cons_append] at start
  rw [without,List.cons_append,List.length_cons,removeAll,start]
  exact removeAll_enough some_ _ _ rest (by simp) (Nat.le_refl _)

omit some_ in
theorem without_cons (c : α) (text : List α) (apart : ¬ lit <+: c :: text) :
    without lit (c :: text) = c :: without lit text := by
  rw [without,List.length_cons,removeAll,stripPrefix_eq_none.mpr apart]
  rfl

/-- Two texts are cleaned apart when no literal lies across their border. -/
theorem without_append (a b : List α) (apart : ∀ x y, a = x ++ y → y ≠ [] → lit <+: y ++ b → lit <+: y) :
    without lit (a ++ b) = without lit a ++ without lit b := by
  induction size : a.length using Nat.strongRecOn generalizing a with
  | ind n ih =>
    cases a with
    | nil => rfl
    | cons c a =>
      by_cases start : lit <+: c :: a
      · obtain ⟨rest,whole⟩ := start
        have less : rest.length < n := by
          have positive := List.length_pos_iff.mpr some_
          rw [← size,← whole,List.length_append]
          omega
        rw [← whole,List.append_assoc,without_literal some_,without_literal some_]
        refine ih _ less rest (fun x y same => apart (lit ++ x) y ?_) rfl
        rw [← whole,same,List.append_assoc]
      · have across : ¬ lit <+: c :: (a ++ b) := fun held => start (apart [] _ rfl (List.cons_ne_nil c a) held)
        have less : a.length < n := by
          rw [← size,List.length_cons]
          omega
        rw [List.cons_append,without_cons c _ across,without_cons c a start,List.cons_append,
          ih _ less a (fun x y same => apart (c :: x) y (by rw [same,List.cons_append])) rfl]

omit some_ in
theorem without_eq (a : List α) (clean : ¬ lit <:+: a) : without lit a = a := by
  induction a with
  | nil => rfl
  | cons c a ih =>
    rw [without_cons c a (fun start => clean start.isInfix),ih (fun inside => clean (inside.trans
      (List.suffix_cons c a).isInfix))]

theorem count_without_le (c : α) (a : List α) : (without lit a).count c ≤ a.count c := by
  induction size : a.length using Nat.strongRecOn generalizing a with
  | ind n ih =>
    cases a with
    | nil => exact Nat.le_refl _
    | cons x a =>
      by_cases start : lit <+: x :: a
      · obtain ⟨rest,whole⟩ := start
        have positive := List.length_pos_iff.mpr some_
        have less : rest.length < n := by
          rw [← size,← whole,List.length_append]
          omega
        rw [← whole,without_literal some_,List.count_append]
        exact Nat.le_trans (ih _ less rest rfl) (Nat.le_add_left _ _)
      · rw [without_cons x a start,List.count_cons,List.count_cons]
        exact Nat.add_le_add_right (ih _ (by rw [← size,List.length_cons]; exact Nat.lt_succ_self _) a rfl) _

/-- A removed literal takes its letters away. -/
theorem count_without_lt (c : α) (member : c ∈ lit) (a : List α) (inside : lit <:+: a) :
    (without lit a).count c < a.count c := by
  induction a with
  | nil => exact (some_ (List.infix_nil.mp inside)).elim
  | cons x a ih =>
    by_cases start : lit <+: x :: a
    · obtain ⟨rest,whole⟩ := start
      have fewer := count_without_le some_ c rest
      have positive := List.count_pos_iff.mpr member
      rw [← whole,without_literal some_,List.count_append]
      omega
    · rw [without_cons x a start,List.count_cons,List.count_cons]
      exact Nat.add_lt_add_right (ih ((List.infix_cons_iff.mp inside).resolve_left start)) _

end Removal

section Scan

variable (matchAt : List α → Option (β × List α))

/-- Every match uses up some text. -/
def Shrinks : Prop := ∀ text found rest, matchAt text = some (found,rest) → rest.length < text.length

variable {matchAt} (shrinks : Shrinks matchAt)

include shrinks

omit [DecidableEq α] in
/-- Any fuel above the length of the text finds the same. -/
theorem findAll_enough (f g : Nat) (text : List α) (left : text.length < f) (right : text.length < g) :
    findAll matchAt f text = findAll matchAt g text := by
  induction f generalizing g text with
  | zero => omega
  | succ f ih =>
    obtain ⟨g,rfl⟩ := Nat.exists_eq_succ_of_ne_zero (by omega : g ≠ 0)
    rw [findAll,findAll]
    cases first : matchAt text with
    | some found =>
      have less := shrinks text found.1 found.2 first
      dsimp only
      rw [ih g found.2 (by omega) (by omega)]
    | none =>
      cases text with
      | nil => rfl
      | cons c rest =>
        rw [List.length_cons] at left right
        exact ih g rest (by omega) (by omega)

omit [DecidableEq α] in
theorem scanAll_match (text : List α) (found : β) (rest : List α) (first : matchAt text = some (found,rest)) :
    scanAll matchAt text = found :: scanAll matchAt rest := by
  have less := shrinks text found rest first
  rw [scanAll,findAll,first]
  exact congrArg (found :: ·) (findAll_enough shrinks _ _ rest less (Nat.lt_succ_self _))

omit [DecidableEq α] shrinks in
theorem scanAll_skip (c : α) (rest : List α) (none_ : matchAt (c :: rest) = none) :
    scanAll matchAt (c :: rest) = scanAll matchAt rest := by
  rw [scanAll,findAll,none_]
  rfl

omit [DecidableEq α] shrinks in
theorem scanAll_nil (none_ : matchAt [] = none) : scanAll matchAt [] = [] := by
  rw [scanAll,findAll,none_]
  rfl

omit [DecidableEq α] shrinks in
theorem scanAll_quiet (a b : List α) (quiet : Quiet (fun text => (matchAt text).isSome = true) a b) :
    scanAll matchAt (a ++ b) = scanAll matchAt b := by
  induction a with
  | nil => rfl
  | cons x a ih =>
    rw [List.cons_append,scanAll_skip _ _ (by simpa using quiet.1),ih quiet.2]

omit [DecidableEq α] shrinks in
theorem mem_findAll (fuel : Nat) (text : List α) (found : β) (member : found ∈ findAll matchAt fuel text) :
    ∃ here rest, matchAt here = some (found,rest) := by
  induction fuel generalizing text with
  | zero => cases member
  | succ fuel ih =>
    rw [findAll] at member
    cases first : matchAt text with
    | some head =>
      rw [first] at member
      rcases List.mem_cons.mp member with rfl | later
      · exact ⟨text,head.2,first⟩
      · exact ih head.2 later
    | none =>
      rw [first] at member
      cases text with
      | nil => cases member
      | cons c rest => exact ih rest member

omit [DecidableEq α] shrinks in
/-- What is found was matched somewhere. -/
theorem mem_scanAll (text : List α) (found : β) (member : found ∈ scanAll matchAt text) :
    ∃ here rest, matchAt here = some (found,rest) := mem_findAll _ text found member

omit [DecidableEq α] shrinks in
/-- Matches share no text: what they weigh is bounded by what there is. -/
theorem sum_scanAll_le (weight : β → Nat) (size : List α → Nat) (tail : ∀ c text, size text ≤ size (c :: text))
    (step : ∀ text found rest, matchAt text = some (found,rest) → weight found + size rest ≤ size text)
    (text : List α) : ((scanAll matchAt text).map weight).sum ≤ size text := by
  rw [scanAll]
  generalize text.length + 1 = fuel
  induction fuel generalizing text with
  | zero => exact Nat.zero_le _
  | succ fuel ih =>
    rw [findAll]
    cases first : matchAt text with
    | some found =>
      have here := step text found.1 found.2 first
      have rest := ih found.2
      simp only [List.map_cons,List.sum_cons]
      omega
    | none =>
      cases text with
      | nil => exact Nat.zero_le _
      | cons c text => exact Nat.le_trans (ih text) (tail c text)

end Scan

end TextScan
