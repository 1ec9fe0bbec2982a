import Mathlib
import RelayOpd.GroupAdvantage

/-! The estimators that walk a response from its last column to its first: generalised
advantages and the discounted returns of REINFORCE++. Which columns outside the mask they see. -/
namespace RelayOpd

section Estimators

variable {B T : Nat} {𝕜 : Type} [Field 𝕜] [LinearOrder 𝕜]

/-- The running values of the loop of `compute_gae_advantage_return`. -/
structure GaeState (B : Nat) (𝕜 : Type) where
  nextvalues : Fin B → 𝕜
  lastgaelam : Fin B → 𝕜
  advantagesReversed : List (Fin B → 𝕜)

variable (gamma lam : 𝕜) (tokenLevelRewards values : Fin B → Fin T → 𝕜) (responseMask : Fin B → Fin T → Nat)

def gaeStep (s : GaeState B 𝕜) (t : Fin T) : GaeState B 𝕜 :=
  let delta := fun i => tokenLevelRewards i t + gamma * s.nextvalues i - values i t
  let lastgaelam_ := fun i => delta i + gamma * lam * s.lastgaelam i
  let nextvalues := fun i => values i t * (responseMask i t : 𝕜) + (1 - (responseMask i t : 𝕜)) * s.nextvalues i
  let lastgaelam := fun i => lastgaelam_ i * (responseMask i t : 𝕜) + (1 - (responseMask i t : 𝕜)) * s.lastgaelam i
  ⟨nextvalues,lastgaelam,s.advantagesReversed ++ [lastgaelam]⟩

/-- `torch.stack(advantages_reversed[::-1], dim=1)`, before whitening. -/
def gaeAdvantages (i : Fin B) (t : Fin T) : 𝕜 :=
  let s := (List.finRange T).reverse.foldl (gaeStep gamma lam tokenLevelRewards values responseMask)
    ⟨fun _ => 0,fun _ => 0,[]⟩
  s.advantagesReversed.reverse.getD t (fun _ => 0) i

def gaeReturns (i : Fin B) (t : Fin T) : 𝕜 :=
  gaeAdvantages gamma lam tokenLevelRewards values responseMask i t + values i t

def computeGaeAdvantageReturn (sqrt : 𝕜 → 𝕜) : Except String (Advantages B T 𝕜) :=
  if T = 0 then .error "stack expects a non-empty TensorList"
  else do
    let advantages ← maskedWhiten sqrt (gaeAdvantages gamma lam tokenLevelRewards values responseMask) responseMask
    return (advantages,gaeReturns gamma lam tokenLevelRewards values responseMask)

/-- The running values of the loop of `compute_reinforce_plus_plus_outcome_advantage`. -/
structure ReturnState (B T : Nat) (𝕜 : Type) where
  runningReturn : Fin B → 𝕜
  returns : Fin B → Fin T → 𝕜

def returnStep (s : ReturnState B T 𝕜) (t : Fin T) : ReturnState B T 𝕜 :=
  let runningReturn := fun i => tokenLevelRewards i t + gamma * s.runningReturn i
  let returns := fun i => Function.update (s.returns i) t (runningReturn i)
  ⟨fun i => runningReturn i * (responseMask i t : 𝕜),returns⟩

def reinforceReturns : Fin B → Fin T → 𝕜 :=
  ((List.finRange T).reverse.foldl (returnStep gamma tokenLevelRewards responseMask)
    ⟨fun _ => 0,fun _ _ => 0⟩).returns

/-- `gamma` is that of the configuration, when there is one. -/
def computeReinforcePlusPlusOutcomeAdvantage (sqrt : 𝕜 → 𝕜) (config : Option 𝕜) : Except String (Advantages B T 𝕜) := do
  let gamma ← match config with
    | some gamma => .ok gamma
    | none => .error "AssertionError"
  let returns := reinforceReturns gamma tokenLevelRewards responseMask
  let whitened ← maskedWhiten sqrt returns responseMask
  return (fun i t => whitened i t * (responseMask i t : 𝕜),returns)

end Estimators

section Rows

variable {𝕜 : Type} [Field 𝕜]

/-- The columns of a row that the mask keeps. -/
def keptColumns (mask : Fin T → Nat) : List (Fin T) := (List.finRange T).filter (fun t => mask t = 1)

def Binary (responseMask : Fin B → Fin T → Nat) : Prop := ∀ i t, responseMask i t = 0 ∨ responseMask i t = 1

/-- One entry of a row: its reward, its value and its mask. -/
structure GaeColumn (𝕜 : Type) where
  reward : 𝕜
  value : 𝕜
  mask : Nat

/-- A row without its masked columns, as a batch of its own. -/
def deleteMasked (mask : Fin T → Nat) (row : Fin T → 𝕜) : Fin 1 → Fin (keptColumns mask).length → 𝕜 :=
  fun _ k => row ((keptColumns mask).get k)

theorem keptColumns_ones (n : Nat) : keptColumns (fun _ : Fin n => 1) = List.finRange n := by
  simp [keptColumns]

variable (gamma lam : 𝕜)

/-- `nextvalues` and `lastgaelam` of a row in front of some of its columns. -/
def gaeFront : List (GaeColumn 𝕜) → 𝕜 × 𝕜
  | [] => (0,0)
  | c :: row =>
    let behind := gaeFront row
    (c.value * (c.mask : 𝕜) + (1 - (c.mask : 𝕜)) * behind.1,
      (c.reward + gamma * behind.1 - c.value + gamma * lam * behind.2) * (c.mask : 𝕜) +
        (1 - (c.mask : 𝕜)) * behind.2)

/-- The advantages of a row. -/
def gaeRow : List (GaeColumn 𝕜) → List 𝕜
  | [] => []
  | c :: row => (gaeFront gamma lam (c :: row)).2 :: gaeRow row

/-- A masked column changes no running value. -/
theorem gaeFront_masked (c : GaeColumn 𝕜) (row : List (GaeColumn 𝕜)) (masked : c.mask = 0) :
    gaeFront gamma lam (c :: row) = gaeFront gamma lam row := by
  simp [gaeFront,masked]

theorem gaeFront_filter (row : List (GaeColumn 𝕜)) (binary : ∀ c ∈ row, c.mask = 0 ∨ c.mask = 1) :
    gaeFront gamma lam (row.filter (fun c => c.mask = 1)) = gaeFront gamma lam row := by
  induction row with
  | nil => rfl
  | cons c row ih =>
    have behind := ih (fun d member => binary d (List.mem_cons_of_mem c member))
    rcases binary c List.mem_cons_self with masked | kept
    · rw [List.filter_cons_of_neg (by simp [masked]),gaeFront_masked gamma lam c row masked]
      exact behind
    · rw [List.filter_cons_of_pos (by simp [kept])]
      simp only [gaeFront,behind]

/-- The kept advantages of a row are the advantages of its kept columns. -/
theorem gaeRow_filter (row : List (GaeColumn 𝕜)) (binary : ∀ c ∈ row, c.mask = 0 ∨ c.mask = 1) :
    ((row.zip (gaeRow gamma lam row)).filter (fun p => p.1.mask = 1)).map Prod.snd =
      gaeRow gamma lam (row.filter (fun c => c.mask = 1)) := by
  induction row with
  | nil => rfl
  | cons c row ih =>
    have rest : ∀ d ∈ row, d.mask = 0 ∨ d.mask = 1 := fun d member => binary d (List.mem_cons_of_mem c member)
    rw [gaeRow,List.zip_cons_cons]
    rcases binary c List.mem_cons_self with masked | kept
    · rw [List.filter_cons_of_neg (by simp [masked]),List.filter_cons_of_neg (by simp [masked])]
      exact ih rest
    · rw [List.filter_cons_of_pos (by simp [kept]),List.filter_cons_of_pos (by simp [kept]),List.map_cons,ih rest,
        gaeRow]
      have whole := gaeFront_filter gamma lam (c :: row) binary
      rw [List.filter_cons_of_pos (by simp [kept])] at whole
      rw [whole]

end Rows

section Skipping

variable {B T : Nat} {𝕜 : Type} [Field 𝕜] (gamma lam : 𝕜) (tokenLevelRewards values : Fin B → Fin T → 𝕜)
  (responseMask : Fin B → Fin T → Nat)

def gaeColumn (i : Fin B) (t : Fin T) : GaeColumn 𝕜 :=
  ⟨tokenLevelRewards i t,values i t,responseMask i t⟩

/-- The loop over some last columns holds the running values in front of them. -/
theorem gaeStep_run (i : Fin B) (columns : List (Fin T)) :
    let s := columns.reverse.foldl (gaeStep gamma lam tokenLevelRewards values responseMask)
      ⟨fun _ => 0,fun _ => 0,[]⟩
    let row := columns.map (gaeColumn tokenLevelRewards values responseMask i)
    (s.nextvalues i,s.lastgaelam i) = gaeFront gamma lam row ∧
      s.advantagesReversed.reverse.map (fun column => column i) = gaeRow gamma lam row := by
  induction columns with
  | nil => exact ⟨rfl,rfl⟩
  | cons t columns ih =>
    obtain ⟨running,written⟩ := ih
    have next := congrArg Prod.fst running
    have last := congrArg Prod.snd running
    simp only at next last
    rw [List.reverse_cons,List.foldl_append,List.foldl_cons,List.foldl_nil,List.map_cons]
    have front : ∀ s : GaeState B 𝕜, s.nextvalues i = (gaeFront gamma lam
          (columns.map (gaeColumn tokenLevelRewards values responseMask i))).1 →
        s.lastgaelam i = (gaeFront gamma lam
          (columns.map (gaeColumn tokenLevelRewards values responseMask i))).2 →
        ((gaeStep gamma lam tokenLevelRewards values responseMask s t).nextvalues i,
          (gaeStep gamma lam tokenLevelRewards values responseMask s t).lastgaelam i) =
        gaeFront gamma lam (gaeColumn tokenLevelRewards values responseMask i t ::
          columns.map (gaeColumn tokenLevelRewards values responseMask i)) := by
      intro s atNext atLast
      simp only [gaeStep,gaeFront,gaeColumn,atNext,atLast]
    refine ⟨front _ next last,?_⟩
    rw [gaeRow,← front _ next last,← written]
    simp [gaeStep]

theorem gaeRow_length (row : List (GaeColumn 𝕜)) : (gaeRow gamma lam row).length = row.length := by
  induction row with
  | nil => rfl
  | cons c row ih => rw [gaeRow,List.length_cons,List.length_cons,ih]

/-- A row of the advantages. -/
theorem gaeAdvantages_row (i : Fin B) :
    (List.finRange T).map (gaeAdvantages gamma lam tokenLevelRewards values responseMask i) =
      gaeRow gamma lam ((List.finRange T).map (gaeColumn tokenLevelRewards values responseMask i)) := by
  have run := (gaeStep_run gamma lam tokenLevelRewards values responseMask i (List.finRange T)).2
  simp only at run
  rw [← run]
  have long := congrArg List.length run
  rw [gaeRow_length,List.length_map,List.length_map,List.length_finRange] at long
  refine List.ext_getElem (by simpa using long.symm) (fun t inside _ => ?_)
  rw [List.getElem_map,List.getElem_map,List.getElem_finRange]
  simp only [gaeAdvantages]
  rw [List.getD_eq_getElem]
  rfl

variable {responseMask} (binary : Binary responseMask) (i : Fin B)

include binary

/-- The advantages at the kept columns of a row are those of its kept columns alone. -/
theorem gaeAdvantages_kept :
    (keptColumns (responseMask i)).map (gaeAdvantages gamma lam tokenLevelRewards values responseMask i) =
      gaeRow gamma lam ((keptColumns (responseMask i)).map (gaeColumn tokenLevelRewards values responseMask i)) := by
  have columns : ∀ c ∈ (List.finRange T).map (gaeColumn tokenLevelRewards values responseMask i),
      c.mask = 0 ∨ c.mask = 1 := by
    intro c member
    obtain ⟨t,_,rfl⟩ := List.mem_map.mp member
    exact binary i t
  have skip := gaeRow_filter gamma lam _ columns
  rw [← gaeAdvantages_row,List.zip_map',List.filter_map,List.filter_map,List.map_map] at skip
  exact skip

omit [Field 𝕜] binary in
theorem gaeColumn_kept :
    (keptColumns (responseMask i)).map (gaeColumn tokenLevelRewards values responseMask i) =
      ((keptColumns (responseMask i)).map (fun t => (tokenLevelRewards i t,values i t))).map
        (fun p => ⟨p.1,p.2,1⟩) := by
  rw [List.map_map]
  refine List.map_congr_left (fun t member => ?_)
  have kept : responseMask i t = 1 := by simpa [keptColumns] using member
  simp [gaeColumn,kept]

/-- What a row has at its kept columns depends on its kept rewards and values alone. -/
theorem gae_kept :
    let pairs := (keptColumns (responseMask i)).map (fun t => (tokenLevelRewards i t,values i t))
    (keptColumns (responseMask i)).map (fun t => (gaeAdvantages gamma lam tokenLevelRewards values responseMask i t,
        gaeReturns gamma lam tokenLevelRewards values responseMask i t)) =
      List.zipWith (fun advantage p => (advantage,advantage + p.2))
        (gaeRow gamma lam (pairs.map (fun p => ⟨p.1,p.2,1⟩))) pairs := by
  intro pairs
  rw [← gaeColumn_kept,← gaeAdvantages_kept gamma lam tokenLevelRewards values binary i,List.zipWith_map,
    List.zipWith_self]
  rfl

/-- Rows of any two batches with the same kept rewards and values have the same kept
advantages and returns. -/
theorem gae_congr {B' T' : Nat} (rewards' values' : Fin B' → Fin T' → 𝕜) {mask' : Fin B' → Fin T' → Nat}
    (binary' : Binary mask') (j : Fin B')
    (same : (keptColumns (mask' j)).map (fun t => (rewards' j t,values' j t)) =
      (keptColumns (responseMask i)).map (fun t => (tokenLevelRewards i t,values i t))) :
    (keptColumns (mask' j)).map (fun t => (gaeAdvantages gamma lam rewards' values' mask' j t,
        gaeReturns gamma lam rewards' values' mask' j t)) =
      (keptColumns (responseMask i)).map (fun t => (gaeAdvantages gamma lam tokenLevelRewards values responseMask i t,
        gaeReturns gamma lam tokenLevelRewards values responseMask i t)) := by
  have own := gae_kept gamma lam tokenLevelRewards values binary i
  have other := gae_kept gamma lam rewards' values' binary' j
  simp only [same] at other
  exact other.trans own.symm

theorem gae_deleteMasked (k : Fin (keptColumns (responseMask i)).length) :
    gaeAdvantages gamma lam tokenLevelRewards values responseMask i ((keptColumns (responseMask i)).get k) =
        gaeAdvantages gamma lam (deleteMasked (responseMask i) (tokenLevelRewards i))
          (deleteMasked (responseMask i) (values i)) (fun _ _ => 1) 0 k ∧
      gaeReturns gamma lam tokenLevelRewards values responseMask i ((keptColumns (responseMask i)).get k) =
        gaeReturns gamma lam (deleteMasked (responseMask i) (tokenLevelRewards i))
          (deleteMasked (responseMask i) (values i)) (fun _ _ => 1) 0 k := by
  have ones : Binary (fun (_ : Fin 1) (_ : Fin (keptColumns (responseMask i)).length) => 1) := fun _ _ => .inr rfl
  have deleted := gae_congr gamma lam tokenLevelRewards values binary i
    (deleteMasked (responseMask i) (tokenLevelRewards i)) (deleteMasked (responseMask i) (values i)) ones 0 (by
      rw [keptColumns_ones]
      exact List.ext_getElem (by simp) (fun m inside _ => by simp [deleteMasked]))
  have place : (List.finRange (keptColumns (responseMask i)).length)[k.val]? = some k := by simp
  rw [keptColumns_ones] at deleted
  have entry := congrArg (fun pairs => pairs[k.val]?) deleted
  simp only [List.getElem?_map,place,k.isLt,Option.map_some,List.getElem?_eq_getElem,Option.some.injEq,
    Prod.mk.injEq] at entry
  exact ⟨entry.1.symm,entry.2.symm⟩

/-- Before whitening, a row has at its kept columns the advantages and returns of the row
without its masked columns; so rows with the same kept rewards and values have the same. -/
theorem gae_skips_masked :
    (∀ k, gaeAdvantages gamma lam tokenLevelRewards values responseMask i ((keptColumns (responseMask i)).get k) =
        gaeAdvantages gamma lam (deleteMasked (responseMask i) (tokenLevelRewards i))
          (deleteMasked (responseMask i) (values i)) (fun _ _ => 1) 0 k ∧
      gaeReturns gamma lam tokenLevelRewards values responseMask i ((keptColumns (responseMask i)).get k) =
        gaeReturns gamma lam (deleteMasked (responseMask i) (tokenLevelRewards i))
          (deleteMasked (responseMask i) (values i)) (fun _ _ => 1) 0 k) ∧
    ∀ (B' T' : Nat) (rewards' values' : Fin B' → Fin T' → 𝕜) (mask' : Fin B' → Fin T' → Nat) (j : Fin B'),
      Binary mask' →
      (keptColumns (mask' j)).map (fun t => (rewards' j t,values' j t)) =
        (keptColumns (responseMask i)).map (fun t => (tokenLevelRewards i t,values i t)) →
      (keptColumns (mask' j)).map (fun t => (gaeAdvantages gamma lam rewards' values' mask' j t,
          gaeReturns gamma lam rewards' values' mask' j t)) =
        (keptColumns (responseMask i)).map (fun t => (gaeAdvantages gamma lam tokenLevelRewards values responseMask i t,
          gaeReturns gamma lam tokenLevelRewards values responseMask i t)) :=
  ⟨gae_deleteMasked gamma lam tokenLevelRewards values binary i,fun _ _ rewards' values' _ j binary' =>
    gae_congr gamma lam tokenLevelRewards values binary i rewards' values' binary' j⟩

end Skipping

theorem turns_binary : Binary (![![1,0,1],![0,0,0]] : Fin 2 → Fin 3 → Nat) := by
  unfold Binary
  decide

/-- A tool response between two turns, beside a row that is masked out. -/
theorem gae_skips_tool_response :
    gaeAdvantages (1/2 : Rat) 1 (fun _ t => (t.val : Rat)) (fun _ t => (t.val : Rat)) ![![1,0,1],![0,0,0]] 0 0 =
      gaeAdvantages (1/2) 1 (deleteMasked ![1,0,1] (fun t => (t.val : Rat)))
        (deleteMasked ![1,0,1] (fun t => (t.val : Rat))) (fun _ _ => 1) 0 ⟨0,by decide⟩ :=
  ((gae_skips_masked (1/2 : Rat) 1 (fun _ t => (t.val : Rat)) (fun _ t => (t.val : Rat)) turns_binary 0).1
    ⟨0,by decide⟩).1

section Returns

variable {B T : Nat} {𝕜 : Type} [Field 𝕜] (gamma : 𝕜) (tokenLevelRewards : Fin B → Fin T → 𝕜)
  (responseMask : Fin B → Fin T → Nat)

/-- The discounted sum of the rewards of a list. -/
def rewardToGo (rewards : List 𝕜) : 𝕜 := rewards.foldr (fun reward later => reward + gamma * later) 0

/-- `running_return` of a row in front of some of its columns. -/
def returnFront (i : Fin B) : List (Fin T) → 𝕜
  | [] => 0
  | t :: columns => (tokenLevelRewards i t + gamma * returnFront i columns) * (responseMask i t : 𝕜)

/-- The loop over some last columns has written a return at each of them. -/
theorem returnStep_run (i : Fin B) (columns : List (Fin T)) (distinct : columns.Nodup) :
    let s := columns.reverse.foldl (returnStep gamma tokenLevelRewards responseMask) ⟨fun _ => 0,fun _ _ => 0⟩
    s.runningReturn i = returnFront gamma tokenLevelRewards responseMask i columns ∧
      ∀ before t after, columns = before ++ t :: after →
        s.returns i t = tokenLevelRewards i t + gamma * returnFront gamma tokenLevelRewards responseMask i after := by
  induction columns with
  | nil => exact ⟨rfl,fun before t after split => by simp at split⟩
  | cons u columns ih =>
    obtain ⟨fresh,distinct⟩ := List.nodup_cons.mp distinct
    obtain ⟨running,written⟩ := ih distinct
    rw [List.reverse_cons,List.foldl_append,List.foldl_cons,List.foldl_nil]
    refine ⟨by simp only [returnStep,returnFront,running],fun before t after split => ?_⟩
    cases before with
    | nil =>
      obtain ⟨rfl,rfl⟩ := List.cons.inj split
      simp only [returnStep,Function.update_self,running]
    | cons first before =>
      obtain ⟨rfl,later⟩ := List.cons.inj split
      have apart : t ≠ u := fun same => fresh (by simp [later,same])
      simp only [returnStep,Function.update_of_ne apart]
      exact written before t after later

/-- The columns after a column. -/
def columnsAfter (t : Fin T) : List (Fin T) := (List.finRange T).drop (t+1)

theorem finRange_split (t : Fin T) : List.finRange T = (List.finRange T).take t ++ t :: columnsAfter t := by
  have inside : t.val < (List.finRange T).length := by simp
  have front := List.drop_eq_getElem_cons inside
  rw [List.getElem_finRange] at front
  have whole := List.take_append_drop t.val (List.finRange T)
  rw [front] at whole
  exact whole.symm

theorem reinforceReturns_eq (i : Fin B) (t : Fin T) :
    reinforceReturns gamma tokenLevelRewards responseMask i t =
      tokenLevelRewards i t + gamma * returnFront gamma tokenLevelRewards responseMask i (columnsAfter t) :=
  (returnStep_run gamma tokenLevelRewards responseMask i _ (List.nodup_finRange T)).2 _ t _ (finRange_split t)

/-- The columns that the mask keeps from a column on, and after it. -/
def keptFrom (mask : Fin T → Nat) (t : Fin T) : List (Fin T) := (keptColumns mask).filter (fun u => t ≤ u)

def keptAfter (mask : Fin T → Nat) (t : Fin T) : List (Fin T) := (keptColumns mask).filter (fun u => t < u)

theorem mem_columnsAfter (t u : Fin T) (later : u ∈ columnsAfter t) : t < u := by
  obtain ⟨n,inside,place⟩ := List.getElem_of_mem later
  have bound : t.val + 1 + n < T := by
    simp only [columnsAfter,List.length_drop,List.length_finRange] at inside
    omega
  have value : u.val = t.val + 1 + n := by
    rw [← place]
    simp [columnsAfter]
  exact Fin.lt_def.mpr (by omega)

theorem filter_from (p : Fin T → Bool) (t : Fin T) (early : ∀ u < t, p u = false) :
    (List.finRange T).filter p = (t :: columnsAfter t).filter p := by
  have none : ((List.finRange T).take t).filter p = [] := by
    rw [List.filter_eq_nil_iff]
    intro u member
    obtain ⟨n,inside,place⟩ := List.getElem_of_mem member
    have value : u.val = n := by
      rw [← place]
      simp
    have bound : n < t.val := (List.length_take .. ▸ inside).trans_le (Nat.min_le_left _ _)
    rw [early u (Fin.lt_def.mpr (by omega))]
    exact Bool.false_ne_true
  rw [finRange_split t,List.filter_append,none,List.nil_append]

theorem keptAfter_eq (mask : Fin T → Nat) (t : Fin T) :
    keptAfter mask t = (columnsAfter t).filter (fun u => mask u = 1) := by
  rw [keptAfter,keptColumns,List.filter_filter,filter_from _ t (fun u before => by simp [before.le]),
    List.filter_cons_of_neg (by simp)]
  exact List.filter_congr (fun u member => by simp [mem_columnsAfter t u member])

theorem keptFrom_eq (mask : Fin T → Nat) (t : Fin T) (kept : mask t = 1) : keptFrom mask t = t :: keptAfter mask t := by
  rw [keptAfter_eq,keptFrom,keptColumns,List.filter_filter,filter_from _ t (fun u before => by simp [before]),
    List.filter_cons_of_pos (by simp [kept])]
  exact congrArg (t :: ·) (List.filter_congr (fun u member => by simp [(mem_columnsAfter t u member).le]))

theorem columnsAfter_next (t u : Fin T) (next : u.val = t.val + 1) : columnsAfter t = u :: columnsAfter u := by
  have inside : t.val + 1 < (List.finRange T).length := by
    rw [List.length_finRange]
    omega
  have front := List.drop_eq_getElem_cons inside
  rw [List.getElem_finRange] at front
  have place : Fin.cast List.length_finRange ⟨t.val + 1,inside⟩ = u := Fin.ext next.symm
  rw [columnsAfter,front,place,columnsAfter,next]

theorem columnsAfter_last (t : Fin T) (last : t.val + 1 = T) : columnsAfter t = [] :=
  List.drop_eq_nil_of_le (by rw [List.length_finRange,last])

/-- What the returns at the kept columns of a row should be: the discounted reward-to-go of
the row without its masked columns. -/
def IgnoresMasked : Prop := ∀ i t, responseMask i t = 1 →
  reinforceReturns gamma tokenLevelRewards responseMask i t =
    rewardToGo gamma ((keptFrom (responseMask i) t).map (tokenLevelRewards i))

/-- Where a masked column follows a kept one, the later rewards have no discounted sum. -/
def GapsWorthless : Prop := ∀ i t, responseMask i t = 1 → (∀ u : Fin T, u.val = t.val + 1 → responseMask i u = 0) →
  gamma * rewardToGo gamma ((keptAfter (responseMask i) t).map (tokenLevelRewards i)) = 0

variable {responseMask}

/-- A kept column has the right return when the discounted running return behind it is right. -/
theorem return_right_iff (i : Fin B) (t : Fin T) (kept : responseMask i t = 1) :
    reinforceReturns gamma tokenLevelRewards responseMask i t =
        rewardToGo gamma ((keptFrom (responseMask i) t).map (tokenLevelRewards i)) ↔
      gamma * returnFront gamma tokenLevelRewards responseMask i (columnsAfter t) =
        gamma * rewardToGo gamma ((keptAfter (responseMask i) t).map (tokenLevelRewards i)) := by
  rw [reinforceReturns_eq,keptFrom_eq _ t kept,List.map_cons,rewardToGo,List.foldr_cons]
  exact add_right_inj _

/-- The running return is zero in front of a masked column and at the end. -/
theorem returnFront_gap (i : Fin B) (t : Fin T) (gap : ∀ u : Fin T, u.val = t.val + 1 → responseMask i u = 0) :
    returnFront gamma tokenLevelRewards responseMask i (columnsAfter t) = 0 := by
  by_cases last : t.val + 1 = T
  · rw [columnsAfter_last t last]
    rfl
  · have inside : t.val + 1 < T := by omega
    rw [columnsAfter_next t ⟨t.val + 1,inside⟩ rfl,returnFront,gap _ rfl,Nat.cast_zero,mul_zero]

/-- By induction from the last column: the running return is right behind a kept column. -/
theorem running_right (worthless : GapsWorthless gamma tokenLevelRewards responseMask) (binary : Binary responseMask)
    (i : Fin B) (t : Fin T) (kept : responseMask i t = 1) :
    gamma * returnFront gamma tokenLevelRewards responseMask i (columnsAfter t) =
      gamma * rewardToGo gamma ((keptAfter (responseMask i) t).map (tokenLevelRewards i)) := by
  by_cases gap : ∀ u : Fin T, u.val = t.val + 1 → responseMask i u = 0
  · rw [returnFront_gap gamma tokenLevelRewards i t gap,worthless i t kept gap,mul_zero]
  · push Not at gap
    obtain ⟨u,next,unmasked⟩ := gap
    have keptNext : responseMask i u = 1 := (binary i u).resolve_left unmasked
    have later := running_right worthless binary i u keptNext
    have skips : keptAfter (responseMask i) t = u :: keptAfter (responseMask i) u := by
      rw [keptAfter_eq,columnsAfter_next t u next,List.filter_cons_of_pos (by simp [keptNext]),keptAfter_eq]
    rw [skips,columnsAfter_next t u next,returnFront,keptNext,Nat.cast_one,mul_one,later,List.map_cons]
    rfl
termination_by T - t.val

/-- The returns ignore the masked columns exactly when no worth is lost at a gap: the running
return is reset there. -/
theorem reinforce_returns_iff (binary : Binary responseMask) :
    IgnoresMasked gamma tokenLevelRewards responseMask ↔ GapsWorthless gamma tokenLevelRewards responseMask := by
  constructor
  · intro ignores i t kept gap
    rw [← (return_right_iff gamma tokenLevelRewards i t kept).mp (ignores i t kept),
      returnFront_gap gamma tokenLevelRewards i t gap,mul_zero]
  · intro worthless i t kept
    exact (return_right_iff gamma tokenLevelRewards i t kept).mpr
      (running_right gamma tokenLevelRewards worthless binary i t kept)

end Returns

theorem oneTurn_binary : Binary (![![1,1,0]] : Fin 1 → Fin 3 → Nat) := by
  unfold Binary
  decide

theorem reinforce_returns_one_turn :
    IgnoresMasked (1/2 : Rat) (fun _ t => (t.val : Rat)) (![![1,1,0]] : Fin 1 → Fin 3 → Nat) ↔
      GapsWorthless (1/2 : Rat) (fun _ t => (t.val : Rat)) ![![1,1,0]] :=
  reinforce_returns_iff _ _ oneTurn_binary

/-- The reward of the second turn does not reach the first over a tool response. -/
theorem reinforce_turn_reward_lost :
    Binary (![![1,0,1]] : Fin 1 → Fin 3 → Nat) ∧
      (∀ i t, (![![1,0,1]] : Fin 1 → Fin 3 → Nat) i t = 0 → (![![0,0,1]] : Fin 1 → Fin 3 → Rat) i t = 0) ∧
      ¬ IgnoresMasked (1 : Rat) ![![0,0,1]] (![![1,0,1]] : Fin 1 → Fin 3 → Nat) := by
  refine ⟨?_,by decide,fun ignores => ?_⟩
  · unfold Binary
    decide
  · exact absurd (ignores 0 0 rfl) (by decide +kernel)

end RelayOpd
