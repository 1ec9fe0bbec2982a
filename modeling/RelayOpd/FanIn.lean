import Mathlib.Data.List.Infix
import Mathlib.Algebra.BigOperators.Group.Finset.Basic
import Mathlib.Algebra.BigOperators.Ring.Finset
import Mathlib.Algebra.Order.BigOperators.Group.Finset
import Mathlib.Data.Fintype.BigOperators

/-! Several senders of one message list, each in order, and one receiver: the log
of arrivals, in any interleaving. -/
namespace FanIn

variable {ρ α : Type} [DecidableEq ρ]

/-- What has arrived from one sender. -/
def sentBy (r : ρ) (log : List (ρ × α)) : List α :=
  (log.filter (fun entry => entry.1 = r)).map Prod.snd

/-- Every sender has delivered a prefix of the list. -/
def Delivered (sent : List α) (log : List (ρ × α)) : Prop := ∀ r, sentBy r log <+: sent

@[simp] theorem sentBy_nil (r : ρ) : sentBy r ([] : List (ρ × α)) = [] := rfl

theorem sentBy_append (r : ρ) (log : List (ρ × α)) (s : ρ) (a : α) :
    sentBy r (log ++ [(s,a)]) = if s = r then sentBy r log ++ [a] else sentBy r log := by
  by_cases same : s = r <;> simp [sentBy,same]

theorem mem_sentBy (log : List (ρ × α)) (r : ρ) (a : α) : a ∈ sentBy r log ↔ (r,a) ∈ log := by
  simp [sentBy]

theorem Delivered.empty (sent : List α) : Delivered sent ([] : List (ρ × α)) :=
  fun _ => List.nil_prefix

theorem Delivered.arrive {sent : List α} {log : List (ρ × α)} (sofar : Delivered sent log) (r : ρ)
    (a : α) (next : sentBy r log ++ [a] <+: sent) : Delivered sent (log ++ [(r,a)]) := by
  intro s
  rw [sentBy_append]
  split_ifs with same
  · exact same ▸ next
  · exact sofar s

/-- What the leader delivered is what arrived at all. -/
theorem mem_leader {log : List (ρ × α)} {ahead : ρ}
    (leads : ∀ r, sentBy r log <+: sentBy ahead log) (a : α) :
    a ∈ sentBy ahead log ↔ a ∈ log.map Prod.snd := by
  constructor
  · intro member
    exact List.mem_map.mpr ⟨(ahead,a),(mem_sentBy log ahead a).mp member,rfl⟩
  · intro member
    obtain ⟨⟨r,b⟩,inside,rfl⟩ := List.mem_map.mp member
    exact (leads r).subset ((mem_sentBy log r b).mpr inside)

theorem Delivered.init {sent : List α} {log : List (ρ × α)} {r : ρ} {a : α}
    (all : Delivered sent (log ++ [(r,a)])) :
    Delivered sent log ∧ sentBy r log ++ [a] <+: sent := by
  constructor
  · intro s
    have longer := all s
    rw [sentBy_append] at longer
    split_ifs at longer
    · exact (List.prefix_append _ _).trans longer
    · exact longer
  · simpa [sentBy_append] using all r

theorem sentBy_broadcast (senders : List ρ) (distinct : senders.Nodup) (p : List α) (r : ρ) :
    sentBy r (senders.flatMap (fun s => p.map (fun a => (s,a)))) = if r ∈ senders then p else [] := by
  have own : ∀ s, sentBy r (p.map (fun a => (s,a))) = if s = r then p else [] := by
    intro s
    by_cases same : s = r <;> simp [sentBy,same,List.filter_map,Function.comp_def]
  induction senders with
  | nil => rfl
  | cons s senders ih =>
    obtain ⟨fresh,rest⟩ := List.nodup_cons.mp distinct
    have split : ∀ xs ys : List (ρ × α), sentBy r (xs ++ ys) = sentBy r xs ++ sentBy r ys := by
      simp [sentBy]
    rw [List.flatMap_cons,split,own,ih rest]
    by_cases same : s = r
    · subst same
      simp [fresh]
    · simp [same,Ne.symm same]

variable [Fintype ρ]

/-- Every sender may have delivered the same prefix. -/
theorem exists_broadcast (p : List α) : ∃ log : List (ρ × α), ∀ r, sentBy r log = p :=
  ⟨_,fun r => (sentBy_broadcast Finset.univ.toList (Finset.nodup_toList _) p r).trans (by simp)⟩

/-- A weight of the log is counted sender by sender. -/
theorem sum_sentBy (log : List (ρ × α)) (weight : α → Nat) :
    (log.map (fun entry => weight entry.2)).sum = ∑ r, ((sentBy r log).map weight).sum := by
  induction log using List.reverseRecOn with
  | nil => simp
  | append_singleton log entry ih =>
    obtain ⟨s,a⟩ := entry
    have added : ∀ r, ((sentBy r (log ++ [(s,a)])).map weight).sum =
        ((sentBy r log).map weight).sum + if s = r then weight a else 0 := by
      intro r
      rw [sentBy_append]
      split_ifs <;> simp
    simp [added,ih,Finset.sum_add_distrib]

/-- Some sender is ahead of all others. -/
theorem Delivered.leader [Nonempty ρ] {sent : List α} {log : List (ρ × α)}
    (sofar : Delivered sent log) : ∃ ahead, ∀ r, sentBy r log <+: sentBy ahead log := by
  obtain ⟨ahead,_,most⟩ := Finset.exists_max_image Finset.univ (fun r => (sentBy r log).length)
    Finset.univ_nonempty
  refine ⟨ahead,fun r => ?_⟩
  exact List.prefix_of_prefix_length_le (sofar r) (sofar ahead) (most r (Finset.mem_univ r))

theorem sum_le_leader {log : List (ρ × α)} {ahead : ρ}
    (leads : ∀ r, sentBy r log <+: sentBy ahead log) (weight : α → Nat) :
    (log.map (fun entry => weight entry.2)).sum ≤
      Fintype.card ρ * ((sentBy ahead log).map weight).sum := by
  have each : ∀ r, ((sentBy r log).map weight).sum ≤ ((sentBy ahead log).map weight).sum := by
    intro r
    obtain ⟨rest,whole⟩ := leads r
    rw [← whole]
    simp
  calc (log.map (fun entry => weight entry.2)).sum
      = ∑ r, ((sentBy r log).map weight).sum := sum_sentBy log weight
    _ ≤ ∑ _r : ρ, ((sentBy ahead log).map weight).sum := Finset.sum_le_sum (fun r _ => each r)
    _ = Fintype.card ρ * ((sentBy ahead log).map weight).sum := by simp

end FanIn
