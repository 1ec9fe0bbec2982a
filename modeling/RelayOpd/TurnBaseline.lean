import Mathlib
import RelayOpd.AdvantageOrder

/-! The optimal token baseline of multi-turn responses, which packs the tokens of every row to
the front, leaves rows without tokens out of their groups and scatters back. Where it agrees
with the baseline of single-turn responses. -/
namespace RelayOpd

open GroupBy

namespace TokenBatch

variable {B T : Nat} {κ 𝕜 : Type} [Field 𝕜] (exp : 𝕜 → 𝕜) (c : TokenBatch B T κ 𝕜)

/-- `response_mask[i].bool()`. -/
def tokenColumns (i : Fin B) : List (Fin T) := (List.finRange T).filter (fun t => c.responseMask i t ≠ 0)

/-- `all_values[i, :length] = values[i, mask]` on zeros. Columns past the longest response are
never read. -/
def packed (values : Fin B → Fin T → 𝕜) (i : Fin B) (k : Nat) : 𝕜 := ((c.tokenColumns i).map (values i)).getD k 0

/-- The rows with a token. -/
def liveRows : List (Fin B) := (List.finRange B).filter (fun i => c.responseLength i ≠ 0)

def bStar (epsilon : 𝕜) (rows : List (Fin B)) (k : Nat) : 𝕜 :=
  (rows.map (fun i => c.packed c.returns i k * c.packed (c.wCumulative exp) i k)).sum /
    ((rows.map (fun i => c.packed (c.wCumulative exp) i k)).sum + epsilon)

/-- The baseline of a unique longest row is zero past the second longest. -/
def turnZeroTail (rows : List (Fin B)) (baselines : Fin B → Nat → 𝕜) : Fin B → Nat → 𝕜 :=
  match rows.filter (fun i => c.responseLength i = c.maxLength rows) with
  | [i] =>
    if c.maxLength rows > c.secondMaxLength rows then
      Function.update baselines i (fun k => if c.secondMaxLength rows ≤ k then 0 else baselines i k)
    else baselines
  | _ => baselines

def turnStep (epsilon : 𝕜) (handleZeroTail : Bool) (baselines : Fin B → Nat → 𝕜) (group : κ × List (Fin B)) :
    Fin B → Nat → 𝕜 :=
  let rows := group.2
  if rows.length = 1 then fun i => if rows.contains i then fun _ => 0 else baselines i
  else
    let filled := fun i => if rows.contains i then c.bStar exp epsilon rows else baselines i
    if handleZeroTail then c.turnZeroTail rows filled else filled

end TokenBatch

/-- `compute_multi_turn_optimal_token_baseline_advantage`. -/
def computeMultiTurnOptimalTokenBaselineAdvantage {B T : Nat} {κ 𝕜 : Type} [DecidableEq κ] [Field 𝕜] (exp : 𝕜 → 𝕜)
    (handleZeroTail : Bool) (epsilon : 𝕜) (c : TokenBatch B T κ 𝕜) : Advantages B T 𝕜 :=
  let baselines := (groupRows c.liveRows c.index id).entries.foldl (c.turnStep exp epsilon handleZeroTail) (fun _ _ => 0)
  let allAdvantages := fun i k => c.packed c.returns i k - baselines i k
  let advantages := fun i t =>
    if c.responseMask i t ≠ 0 then allAdvantages i ((c.tokenColumns i).idxOf t) else 0
  (fun i t => advantages i t * (c.responseMask i t : 𝕜),c.returns)

namespace TokenBatch

section Turns

variable {B T : Nat} {κ 𝕜 : Type} [Field 𝕜] (exp : 𝕜 → 𝕜) (c : TokenBatch B T κ 𝕜)

theorem turnZeroTail_apply (rows : List (Fin B)) (baselines : Fin B → Nat → 𝕜) (i : Fin B) :
    c.turnZeroTail rows baselines i =
      if c.Longest rows i then fun k => if c.secondMaxLength rows ≤ k then 0 else baselines i k
      else baselines i := by
  unfold turnZeroTail Longest
  obtain ⟨longest,only⟩ : ∃ longest, rows.filter (fun j => c.responseLength j = c.maxLength rows) = longest :=
    ⟨_,rfl⟩
  rcases longest with _ | ⟨j,_ | ⟨k,rest⟩⟩
  · simp [only]
  · by_cases longer : c.maxLength rows > c.secondMaxLength rows
    · by_cases same : i = j
      · subst same
        simp [only,longer]
      · simp [only,longer,same,Ne.symm same]
    · simp [only,longer]
  · simp [only]

/-- What a group writes at one of its rows. -/
def turnBaseline (epsilon : 𝕜) (handleZeroTail : Bool) (rows : List (Fin B)) (i : Fin B) (k : Nat) : 𝕜 :=
  if rows.length = 1 then 0
  else if handleZeroTail ∧ c.Longest rows i then
    if c.secondMaxLength rows ≤ k then 0 else c.bStar exp epsilon rows k
  else c.bStar exp epsilon rows k

omit [Field 𝕜] in
theorem longest_mem (rows : List (Fin B)) (i : Fin B) (longest : c.Longest rows i) : i ∈ rows := by
  have member : i ∈ rows.filter (fun j => c.responseLength j = c.maxLength rows) := by
    rw [longest.1]
    exact List.mem_singleton_self i
  exact List.mem_of_mem_filter member

theorem turnStep_apply [DecidableEq κ] (epsilon : 𝕜) (handleZeroTail : Bool) (baselines : Fin B → Nat → 𝕜)
    (group : κ × List (Fin B)) (i : Fin B) :
    c.turnStep exp epsilon handleZeroTail baselines group i =
      if i ∈ group.2 then c.turnBaseline exp epsilon handleZeroTail group.2 i else baselines i := by
  unfold turnStep
  by_cases single : group.2.length = 1
  · rw [if_pos single]
    by_cases inside : i ∈ group.2
    · rw [if_pos (List.contains_iff_mem.mpr inside),if_pos inside]
      funext k
      rw [turnBaseline,if_pos single]
    · rw [if_neg (mt List.contains_iff_mem.mp inside),if_neg inside]
  · rw [if_neg single]
    by_cases inside : i ∈ group.2
    · rw [if_pos inside]
      funext k
      cases handleZeroTail with
      | false => simp [turnBaseline,single,inside]
      | true =>
        by_cases longest : c.Longest group.2 i <;> simp [turnBaseline,single,inside,turnZeroTail_apply,longest]
    · have other : ¬ c.Longest group.2 i := fun longest => inside (c.longest_mem group.2 i longest)
      cases handleZeroTail <;> simp [inside,turnZeroTail_apply,other]

omit [Field 𝕜] in
theorem mem_liveRows (i : Fin B) : i ∈ c.liveRows ↔ c.responseLength i ≠ 0 := by
  simp [liveRows]

/-- The rows with a token that share the group of a row. -/
def liveMembers [DecidableEq κ] (i : Fin B) : List (Fin B) := c.liveRows.filter (fun j => c.index j = c.index i)

omit [Field 𝕜] in
theorem liveMembers_eq [DecidableEq κ] (i : Fin B) :
    c.liveMembers i = (members c.index (c.index i)).filter (fun j => c.responseLength j ≠ 0) := by
  rw [liveMembers,liveRows,members,List.filter_filter,List.filter_filter]
  exact List.filter_congr (fun j _ => Bool.and_comm _ _)

theorem turnBaselines_apply [DecidableEq κ] (epsilon : 𝕜) (handleZeroTail : Bool) (i : Fin B)
    (live : c.responseLength i ≠ 0) :
    (groupRows c.liveRows c.index id).entries.foldl (c.turnStep exp epsilon handleZeroTail) (fun _ _ => 0) i =
      c.turnBaseline exp epsilon handleZeroTail (c.liveMembers i) i := by
  have loop := foldl_groupRows c.liveRows c.index id (c.turnStep exp epsilon handleZeroTail)
    (fun group j _ => c.turnBaseline exp epsilon handleZeroTail group.2 j) (by
      intro group listed baselines j member
      have held : j ∈ group.2 ↔ c.index j = group.1 := by
        rw [(groupRows_entries c.liveRows c.index id group listed).2,List.map_id,List.mem_filter,decide_eq_true_eq]
        exact and_iff_right member
      rw [turnStep_apply,if_congr held rfl rfl]) (fun _ _ => 0) i ((c.mem_liveRows i).mpr live)
  rwa [List.map_id] at loop

end Turns

section SingleTurn

variable {B T : Nat} {κ 𝕜 : Type} (c : TokenBatch B T κ 𝕜)

/-- Every response mask is a prefix of ones. -/
def SingleTurn : Prop := ∀ i, ∃ n, ∀ t : Fin T, c.responseMask i t = if t.val < n then 1 else 0

variable {c} (single : c.SingleTurn) (i : Fin B)

include single

/-- The mask ends at the response length. -/
theorem SingleTurn.mask (t : Fin T) : c.responseMask i t = if t.val < c.responseLength i then 1 else 0 := by
  obtain ⟨n,prefix_⟩ := single i
  have length : c.responseLength i = min n T := by
    rw [RewardBatch.responseLength,Finset.sum_congr rfl (fun t _ => prefix_ t),
      Fin.sum_univ_eq_sum_range (fun k => if k < n then 1 else 0),Finset.sum_boole]
    have within : (Finset.range T).filter (fun k => k < n) = Finset.range (min n T) := by
      ext k
      simp only [Finset.mem_filter,Finset.mem_range]
      omega
    rw [within,Finset.card_range,Nat.cast_id]
  rw [prefix_ t,length]
  have bound := t.isLt
  simp only [Nat.lt_min,bound,and_true]

theorem SingleTurn.length_le : c.responseLength i ≤ T := by
  rw [RewardBatch.responseLength]
  refine (Finset.sum_le_card_nsmul Finset.univ _ 1 (fun t _ => ?_)).trans (by simp)
  rw [single.mask i t]
  split <;> omega

theorem SingleTurn.tokenColumns_eq : c.tokenColumns i = (List.finRange T).take (c.responseLength i) := by
  have kept : ((List.finRange T).take (c.responseLength i)).filter (fun t => c.responseMask i t ≠ 0) =
      (List.finRange T).take (c.responseLength i) := by
    rw [List.filter_eq_self]
    intro t member
    obtain ⟨k,inside,place⟩ := List.getElem_of_mem member
    have value : t.val = k := by
      rw [← place]
      simp
    have bound : k < c.responseLength i := (List.length_take .. ▸ inside).trans_le (Nat.min_le_left _ _)
    rw [single.mask i t,if_pos (by omega)]
    rfl
  have none : ((List.finRange T).drop (c.responseLength i)).filter (fun t => c.responseMask i t ≠ 0) = [] := by
    rw [List.filter_eq_nil_iff]
    intro t member
    obtain ⟨k,inside,place⟩ := List.getElem_of_mem member
    have value : t.val = c.responseLength i + k := by
      rw [← place]
      simp
    rw [single.mask i t,if_neg (by omega)]
    simp
  rw [tokenColumns]
  conv_lhs => rw [← List.take_append_drop (c.responseLength i) (List.finRange T)]
  rw [List.filter_append,kept,none,List.append_nil]

theorem SingleTurn.rank (t : Fin T) (inside : t.val < c.responseLength i) : (c.tokenColumns i).idxOf t = t.val := by
  rw [single.tokenColumns_eq i]
  have bound : t.val < ((List.finRange T).take (c.responseLength i)).length := by
    rw [List.length_take,List.length_finRange]
    exact lt_min inside t.isLt
  have distinct : ((List.finRange T).take (c.responseLength i)).Nodup := (List.nodup_finRange T).sublist (List.take_sublist _ _)
  have found := distinct.idxOf_getElem t.val bound
  rwa [List.getElem_take,List.getElem_finRange] at found

theorem SingleTurn.packed_eq [Field 𝕜] (values : Fin B → Fin T → 𝕜) (t : Fin T) :
    c.packed values i t = if t.val < c.responseLength i then values i t else 0 := by
  rw [packed,single.tokenColumns_eq i]
  by_cases inside : t.val < c.responseLength i
  · rw [if_pos inside,List.getD_eq_getElem _ _ (by simpa using inside)]
    simp
  · rw [if_neg inside,List.getD_eq_default _ _ (by simp; omega)]

end SingleTurn

section Groups

variable {B T : Nat} {κ 𝕜 : Type} {c : TokenBatch B T κ 𝕜}

/-- Rows without tokens add nothing to a sum. -/
theorem sum_live [AddCommMonoid 𝕜] (rows : List (Fin B)) (f : Fin B → 𝕜)
    (none : ∀ i ∈ rows, c.responseLength i = 0 → f i = 0) :
    ((rows.filter (fun i => c.responseLength i ≠ 0)).map f).sum = (rows.map f).sum := by
  induction rows with
  | nil => rfl
  | cons i rows ih =>
    have rest := ih (fun j member => none j (List.mem_cons_of_mem i member))
    by_cases empty : c.responseLength i = 0
    · rw [List.filter_cons_of_neg (by simp [empty]),List.map_cons,List.sum_cons,none i List.mem_cons_self empty,zero_add]
      exact rest
    · rw [List.filter_cons_of_pos (by simp [empty]),List.map_cons,List.map_cons,List.sum_cons,List.sum_cons,rest]

/-- The packed sums of the rows with a token are the masked sums of all rows. -/
theorem SingleTurn.bStar_eq [Field 𝕜] (exp : 𝕜 → 𝕜) (single : c.SingleTurn) (epsilon : 𝕜) (rows : List (Fin B))
    (t : Fin T) :
    c.bStar exp epsilon (rows.filter (fun i => c.responseLength i ≠ 0)) t = c.baselinePerStep exp epsilon rows t := by
  have term : ∀ i, c.packed c.returns i t * c.packed (c.wCumulative exp) i t =
      c.returns i t * c.wCumulative exp i t * (c.responseMask i t : 𝕜) := by
    intro i
    rw [single.packed_eq i,single.packed_eq i,single.mask i t]
    split <;> simp
  have weight : ∀ i, c.packed (c.wCumulative exp) i t = c.wCumulative exp i t * (c.responseMask i t : 𝕜) := by
    intro i
    rw [single.packed_eq i,single.mask i t]
    split <;> simp
  have masked : ∀ i, c.responseLength i = 0 → (c.responseMask i t : 𝕜) = 0 := by
    intro i empty
    rw [single.mask i t,if_neg (by omega),Nat.cast_zero]
  simp only [bStar,baselinePerStep,term]
  simp only [weight]
  rw [sum_live rows _ (fun i _ empty => by rw [masked i empty,mul_zero]),
    sum_live rows _ (fun i _ empty => by rw [masked i empty,mul_zero])]

variable (c)

theorem lengths_live (rows : List (Fin B)) :
    (rows.map c.responseLength).Perm
      (List.replicate (rows.length - (rows.filter (fun i => c.responseLength i ≠ 0)).length) 0 ++
        (rows.filter (fun i => c.responseLength i ≠ 0)).map c.responseLength) := by
  induction rows with
  | nil => exact .nil
  | cons i rows ih =>
    have fewer := List.length_filter_le (fun i => decide (c.responseLength i ≠ 0)) rows
    by_cases empty : c.responseLength i = 0
    · have more : (i :: rows).length - (rows.filter (fun i => c.responseLength i ≠ 0)).length =
          (rows.length - (rows.filter (fun i => c.responseLength i ≠ 0)).length) + 1 := by
        rw [List.length_cons]
        omega
      rw [List.filter_cons_of_neg (by simp [empty]),more,List.replicate_succ,List.map_cons,empty,List.cons_append]
      exact ih.cons 0
    · have same : (i :: rows).length - (i :: rows.filter (fun i => c.responseLength i ≠ 0)).length =
          rows.length - (rows.filter (fun i => c.responseLength i ≠ 0)).length := by
        rw [List.length_cons,List.length_cons]
        omega
      rw [List.filter_cons_of_pos (by simp [empty]),same,List.map_cons,List.map_cons]
      exact (ih.cons _).trans List.perm_middle.symm

/-- Rows without tokens are the first of the sorted lengths. -/
theorem sortedLengths_live (rows : List (Fin B)) :
    c.sortedLengths rows =
      List.replicate (rows.length - (rows.filter (fun i => c.responseLength i ≠ 0)).length) 0 ++
        c.sortedLengths (rows.filter (fun i => c.responseLength i ≠ 0)) := by
  have sorted : (List.replicate (rows.length - (rows.filter (fun i => c.responseLength i ≠ 0)).length) 0 ++
      c.sortedLengths (rows.filter (fun i => c.responseLength i ≠ 0))).Pairwise (· ≤ ·) := by
    rw [List.pairwise_append]
    refine ⟨List.pairwise_replicate.mpr (.inr (Nat.le_refl 0)),List.pairwise_insertionSort _ _,fun a first b _ => ?_⟩
    rw [List.eq_of_mem_replicate first]
    exact Nat.zero_le b
  refine List.Perm.eq_of_pairwise' (List.pairwise_insertionSort _ _) sorted ?_
  exact (List.perm_insertionSort _ _).trans
    ((c.lengths_live rows).trans ((List.perm_insertionSort _ _).symm.append_left _))

variable (rows : List (Fin B)) (live : List (Fin B)) (kept : rows.filter (fun i => c.responseLength i ≠ 0) = live)

include kept

theorem maxLength_live (some_ : live ≠ []) : c.maxLength rows = c.maxLength live := by
  have positive := List.length_pos_of_ne_nil some_
  have fewer := List.length_filter_le (fun i => decide (c.responseLength i ≠ 0)) rows
  have whole := c.sortedLengths_live rows
  rw [kept] at fewer whole
  rw [maxLength,whole,List.getD_append_right _ _ _ _ (by rw [List.length_replicate]; omega),List.length_replicate,maxLength]
  congr 1
  omega

theorem secondMaxLength_live (several : 2 ≤ live.length) : c.secondMaxLength rows = c.secondMaxLength live := by
  have fewer := List.length_filter_le (fun i => decide (c.responseLength i ≠ 0)) rows
  have whole := c.sortedLengths_live rows
  rw [kept] at fewer whole
  rw [secondMaxLength,whole,List.getD_append_right _ _ _ _ (by rw [List.length_replicate]; omega),List.length_replicate,
    secondMaxLength]
  congr 1
  omega

/-- Beside a single row with tokens the second longest has none. -/
theorem secondMaxLength_lone (one : live.length = 1) (more : 2 ≤ rows.length) : c.secondMaxLength rows = 0 := by
  have whole := c.sortedLengths_live rows
  rw [kept] at whole
  have inside : rows.length - 2 < (List.replicate (rows.length - live.length) 0).length := by
    rw [List.length_replicate]
    omega
  rw [secondMaxLength,whole,List.getD_append _ _ _ _ inside,List.getD_eq_getElem _ _ inside,List.getElem_replicate]

/-- The longest of some rows with a token is the longest of all. -/
theorem longest_filter_live (some_ : live ≠ []) :
    rows.filter (fun i => c.responseLength i = c.maxLength rows) =
      live.filter (fun i => c.responseLength i = c.maxLength live) := by
  have positive : c.maxLength live ≠ 0 := by
    have filled := List.length_pos_of_ne_nil some_
    have size : (c.sortedLengths live).length = live.length := (List.length_insertionSort _ _).trans (List.length_map _)
    have inside : live.length - 1 < (c.sortedLengths live).length := by omega
    rw [maxLength,List.getD_eq_getElem _ _ inside]
    have member := (List.perm_insertionSort (· ≤ ·) (live.map c.responseLength)).mem_iff.mp (List.getElem_mem inside)
    obtain ⟨i,listed,same⟩ := List.mem_map.mp member
    rw [← kept,List.mem_filter,decide_eq_true_eq] at listed
    exact fun zero => listed.2 (same.trans zero)
  rw [c.maxLength_live rows live kept some_,← kept,List.filter_filter]
  refine List.filter_congr (fun i _ => ?_)
  rw [kept,Bool.eq_iff_iff,Bool.and_eq_true,decide_eq_true_eq,decide_eq_true_eq]
  exact ⟨fun longest => ⟨longest,by omega⟩,fun both => both.1⟩

end Groups

section Agreement

variable {B T : Nat} {κ 𝕜 : Type} [DecidableEq κ] [Field 𝕜] (exp : 𝕜 → 𝕜) (c : TokenBatch B T κ 𝕜) (epsilon : 𝕜)
  (handleZeroTail : Bool)

/-- A row with tokens whose group has other rows, none of them with a token. -/
def Lone (i : Fin B) : Prop :=
  c.responseLength i ≠ 0 ∧ (∃ j, j ≠ i ∧ c.index j = c.index i) ∧
    ∀ j, c.index j = c.index i → j ≠ i → c.responseLength j = 0

omit [Field 𝕜] in
theorem lone_iff (i : Fin B) (live : c.responseLength i ≠ 0) :
    c.Lone i ↔ (c.liveMembers i).length = 1 ∧ 2 ≤ (members c.index (c.index i)).length := by
  have own : i ∈ members c.index (c.index i) := (mem_members _ _ _).mpr rfl
  have ownLive : i ∈ c.liveMembers i := List.mem_filter.mpr ⟨(c.mem_liveRows i).mpr live,by simp⟩
  have distinct : (c.liveMembers i).Nodup := ((List.nodup_finRange B).filter _).filter _
  have several : 2 ≤ (members c.index (c.index i)).length ↔ ∃ j, j ≠ i ∧ c.index j = c.index i := by
    have positive := List.length_pos_of_mem own
    rw [show 2 ≤ (members c.index (c.index i)).length ↔ ¬ (members c.index (c.index i)).length = 1 by omega,
      length_one_iff (members_nodup _ _) own]
    simp only [mem_members,not_forall,exists_prop]
    exact exists_congr fun j => and_comm
  rw [Lone,and_iff_right live,several,length_one_iff distinct ownLive,and_comm]
  refine and_congr_left fun _ => ?_
  simp only [liveMembers,List.mem_filter,mem_liveRows,decide_eq_true_eq]
  exact ⟨fun empty j both => by_contra fun apart => both.1 (empty j both.2 apart),
    fun only j same apart => by_contra fun some_ => apart (only j ⟨some_,same⟩)⟩

variable {c} in
/-- At a token of a row the baselines agree unless the row is the only one with tokens. -/
theorem SingleTurn.baseline_agree_iff (single : c.SingleTurn) (i : Fin B) (t : Fin T)
    (inside : t.val < c.responseLength i) :
    c.rowBaseline exp epsilon handleZeroTail (members c.index (c.index i)) i (fun _ => 0) t =
        c.turnBaseline exp epsilon handleZeroTail (c.liveMembers i) i t ↔
      handleZeroTail = true ∨ ¬ c.Lone i ∨
        c.returns i t * c.wCumulative exp i t / (c.wCumulative exp i t + epsilon) = 0 := by
  have live : c.responseLength i ≠ 0 := by omega
  have kept := (c.liveMembers_eq i).symm
  have own : i ∈ c.liveMembers i := List.mem_filter.mpr ⟨(c.mem_liveRows i).mpr live,by simp⟩
  have filled : c.liveMembers i ≠ [] := List.ne_nil_of_mem own
  have positive := List.length_pos_of_ne_nil filled
  have fewer := List.length_filter_le (fun j => decide (c.responseLength j ≠ 0)) (members c.index (c.index i))
  rw [kept] at fewer
  have starred := single.bStar_eq exp epsilon (members c.index (c.index i)) t
  rw [kept] at starred
  have longestLive := c.longest_filter_live _ _ kept filled
  have maxLive := c.maxLength_live _ _ kept filled
  by_cases one : (c.liveMembers i).length = 1
  · rw [turnBaseline,if_pos one,rowBaseline]
    by_cases several : 2 ≤ (members c.index (c.index i)).length
    · have lone := (c.lone_iff i live).mpr ⟨one,several⟩
      obtain ⟨j,only⟩ := List.length_eq_one_iff.mp one
      rw [only,List.mem_singleton] at own
      obtain rfl := own
      have second := c.secondMaxLength_lone _ _ kept one several
      have largest : c.maxLength [i] = c.responseLength i := rfl
      rw [only] at longestLive maxLive starred
      have longest : c.Longest (members c.index (c.index i)) i := by
        refine ⟨?_,by omega⟩
        rw [longestLive,largest]
        simp
      have value : c.baselinePerStep exp epsilon (members c.index (c.index i)) t =
          c.returns i t * c.wCumulative exp i t / (c.wCumulative exp i t + epsilon) := by
        rw [← starred,bStar,List.map_singleton,List.map_singleton,List.sum_singleton,List.sum_singleton,
          single.packed_eq i,single.packed_eq i,if_pos inside,if_pos inside]
      rw [if_neg (by omega)]
      cases handleZeroTail with
      | true =>
        rw [if_pos ⟨rfl,longest⟩,second,if_pos (Nat.zero_le _)]
        exact iff_of_true rfl (.inl rfl)
      | false =>
        rw [if_neg (by simp),value]
        simp [lone]
    · have alone : ¬ c.Lone i := fun lone => several ((c.lone_iff i live).mp lone).2
      rw [if_pos (by omega)]
      exact iff_of_true rfl (.inr (.inl alone))
  · have several : 2 ≤ (c.liveMembers i).length := by omega
    have other : ¬ c.Lone i := fun lone => one ((c.lone_iff i live).mp lone).1
    have secondLive := c.secondMaxLength_live _ _ kept several
    have longest : c.Longest (members c.index (c.index i)) i ↔ c.Longest (c.liveMembers i) i := by
      rw [Longest,Longest,longestLive,maxLive,secondLive]
    refine iff_of_true ?_ (.inr (.inl other))
    rw [turnBaseline,if_neg one,rowBaseline,if_neg (by omega),secondLive]
    by_cases cut : handleZeroTail ∧ c.Longest (c.liveMembers i) i
    · have cut' : handleZeroTail ∧ c.Longest (members c.index (c.index i)) i := ⟨cut.1,longest.mpr cut.2⟩
      rw [if_pos cut,if_pos cut',starred]
    · have cut' : ¬ (handleZeroTail ∧ c.Longest (members c.index (c.index i)) i) :=
        fun both => cut ⟨both.1,longest.mp both.2⟩
      rw [if_neg cut,if_neg cut',starred]

/-- The two estimators agree on single-turn responses exactly when tails are cut or a row
that has the only tokens of its group is no baseline of itself. -/
theorem turn_agree_iff (single : c.SingleTurn) :
    computeMultiTurnOptimalTokenBaselineAdvantage exp handleZeroTail epsilon c =
        computeOptimalTokenBaselineAdvantage exp handleZeroTail epsilon c ↔
      handleZeroTail = true ∨ ∀ i, c.Lone i → ∀ t : Fin T, t.val < c.responseLength i →
        c.returns i t * c.wCumulative exp i t / (c.wCumulative exp i t + epsilon) = 0 := by
  have row : ∀ i (t : Fin T), (computeMultiTurnOptimalTokenBaselineAdvantage exp handleZeroTail epsilon c).1 i t =
      (computeOptimalTokenBaselineAdvantage exp handleZeroTail epsilon c).1 i t ↔
      (t.val < c.responseLength i → handleZeroTail = true ∨ ¬ c.Lone i ∨
        c.returns i t * c.wCumulative exp i t / (c.wCumulative exp i t + epsilon) = 0) := by
    intro i t
    simp only [computeMultiTurnOptimalTokenBaselineAdvantage,computeOptimalTokenBaselineAdvantage]
    by_cases inside : t.val < c.responseLength i
    · rw [baselines_apply,turnBaselines_apply exp c epsilon handleZeroTail i (by omega),single.rank i t inside,
        single.packed_eq i,single.mask i t,if_pos inside,if_pos inside,if_pos one_ne_zero,Nat.cast_one,mul_one,mul_one,
        sub_right_inj,eq_comm,single.baseline_agree_iff exp epsilon handleZeroTail i t inside]
      exact ⟨fun holds _ => holds,fun holds => holds inside⟩
    · rw [single.mask i t,if_neg inside,Nat.cast_zero,mul_zero,mul_zero]
      exact iff_of_true rfl (fun within => absurd within inside)
  constructor
  · intro same
    cases handleZeroTail with
    | true => exact .inl rfl
    | false =>
      refine .inr fun i lone t inside => ?_
      have entry := (row i t).mp (congrFun (congrFun (congrArg Prod.fst same) i) t) inside
      exact (entry.resolve_left Bool.false_ne_true).resolve_left (fun other => other lone)
  · intro holds
    refine Prod.ext (funext fun i => funext fun t => (row i t).mpr fun inside => ?_) rfl
    rcases holds with cut | worthless
    · exact .inl cut
    · by_cases lone : c.Lone i
      · exact .inr (.inr (worthless i lone t inside))
      · exact .inr (.inl lone)

end Agreement

/-- Two samples of one prompt, the second of them empty. -/
def emptySibling : TokenBatch 2 1 Nat Rat where
  tokenLevelRewards := fun _ _ => 1
  responseMask := fun i _ => if i.val = 0 then 1 else 0
  index := fun _ => 0
  oldLogProbs := fun _ _ => 0
  sumPiSquared := fun _ _ => 1
  rolloutIsWeights := none

theorem emptySibling_singleTurn : emptySibling.SingleTurn := by
  intro i
  refine ⟨if i.val = 0 then 1 else 0,fun t => ?_⟩
  obtain rfl : t = 0 := Subsingleton.elim _ _
  by_cases first : i.val = 0
  · rw [if_pos first]
    exact if_pos first
  · rw [if_neg first]
    exact if_neg first

theorem turn_agree_emptySibling :
    computeMultiTurnOptimalTokenBaselineAdvantage (fun _ => 1 / 2) true 1 emptySibling =
        computeOptimalTokenBaselineAdvantage (fun _ => 1 / 2) true 1 emptySibling ↔
      true = true ∨ ∀ i, emptySibling.Lone i → ∀ t : Fin 1, t.val < emptySibling.responseLength i →
        emptySibling.returns i t * emptySibling.wCumulative (fun _ => 1 / 2) i t /
          (emptySibling.wCumulative (fun _ => 1 / 2) i t + 1) = 0 :=
  emptySibling.turn_agree_iff _ 1 true emptySibling_singleTurn

/-- Without the cut the single-turn estimator counts the empty sample: the other one is a baseline
of itself. -/
theorem turn_empty_sibling_differs :
    emptySibling.SingleTurn ∧
      computeMultiTurnOptimalTokenBaselineAdvantage (fun _ => 1 / 2) false 1 emptySibling ≠
        computeOptimalTokenBaselineAdvantage (fun _ => 1 / 2) false 1 emptySibling := by
  refine ⟨emptySibling_singleTurn,fun same => ?_⟩
  exact absurd (congrFun (congrFun (congrArg Prod.fst same) 0) 0) (by decide +kernel)

end TokenBatch

end RelayOpd
