import RelayOpd.OrderedDict
import Mathlib

/-! The entry of the highest rank for each key, kept in a dictionary by one pass. The first of
equal ranks stays. -/
namespace Highest

variable {κ ρ ν : Type} [DecidableEq κ] [LinearOrder ρ]

/-- An entry replaces the one of its key when its rank is higher. -/
def keep (d : OrderedDict κ (ρ × ν)) (k : κ) (entry : ρ × ν) : OrderedDict κ (ρ × ν) :=
  match d.get? k with
  | none => d.set k entry
  | some old => if old.1 < entry.1 then d.set k entry else d

def highest (entries : List (κ × ρ × ν)) : OrderedDict κ (ρ × ν) :=
  entries.foldl (fun d entry => keep d entry.1 entry.2) .empty

theorem get?_keep_other (d : OrderedDict κ (ρ × ν)) (j k : κ) (entry : ρ × ν) (apart : j ≠ k) :
    (keep d k entry).get? j = d.get? j := by
  rw [keep]
  split
  · exact d.get?_set_other j k entry apart
  · split
    · exact d.get?_set_other j k entry apart
    · rfl

/-- After a step the key has the new entry or an old one that ranks no lower. -/
theorem get?_keep_same (d : OrderedDict κ (ρ × ν)) (k : κ) (entry : ρ × ν) :
    ((keep d k entry).get? k = some entry ∧ ∀ old, d.get? k = some old → old.1 ≤ entry.1) ∨
      ∃ old, d.get? k = some old ∧ (keep d k entry).get? k = some old ∧ entry.1 ≤ old.1 := by
  cases found : d.get? k with
  | none =>
    rw [keep,found]
    exact .inl ⟨d.get?_set_same k entry,fun old impossible => by cases impossible⟩
  | some old =>
    rw [keep,found]
    dsimp only
    by_cases higher : old.1 < entry.1
    · rw [if_pos higher]
      refine .inl ⟨d.get?_set_same k entry,fun other same => ?_⟩
      obtain rfl := Option.some.inj same
      exact higher.le
    · rw [if_neg higher]
      exact .inr ⟨old,rfl,found,not_lt.mp higher⟩

theorem highest_append (entries : List (κ × ρ × ν)) (entry : κ × ρ × ν) :
    highest (entries ++ [entry]) = keep (highest entries) entry.1 entry.2 := by
  rw [highest,List.foldl_append]
  rfl

/-- A key with an entry keeps one. -/
theorem highest_some (entries : List (κ × ρ × ν)) (k : κ) (entry : ρ × ν) (member : (k,entry) ∈ entries) :
    ∃ kept, (highest entries).get? k = some kept := by
  induction entries using List.reverseRecOn with
  | nil => cases member
  | append_singleton entries last ih =>
    rw [highest_append]
    by_cases same : k = last.1
    · subst same
      rcases get?_keep_same (highest entries) last.1 last.2 with ⟨new,_⟩ | ⟨old,_,stays,_⟩
      · exact ⟨_,new⟩
      · exact ⟨old,stays⟩
    · rw [get?_keep_other _ _ _ _ same]
      rcases List.mem_append.mp member with earlier | now
      · exact ih earlier
      · exact absurd (congrArg Prod.fst (List.mem_singleton.mp now)) same

/-- What a key keeps is one of its entries, and none of its entries ranks higher. -/
theorem highest_get? (entries : List (κ × ρ × ν)) (k : κ) (kept : ρ × ν)
    (found : (highest entries).get? k = some kept) :
    (k,kept) ∈ entries ∧ ∀ entry, (k,entry) ∈ entries → entry.1 ≤ kept.1 := by
  induction entries using List.reverseRecOn generalizing kept with
  | nil => cases found
  | append_singleton entries last ih =>
    obtain ⟨j,new⟩ := last
    rw [highest_append] at found
    have bounded : ∀ bound : ρ, (∀ entry, (k,entry) ∈ entries → entry.1 ≤ bound) → (k = j → new.1 ≤ bound) →
        ∀ entry, (k,entry) ∈ entries ++ [(j,new)] → entry.1 ≤ bound := by
      intro bound before now entry member
      rcases List.mem_append.mp member with earlier | last
      · exact before entry earlier
      · obtain ⟨rfl,rfl⟩ := Prod.mk.inj (List.mem_singleton.mp last)
        exact now rfl
    by_cases same : k = j
    · subst same
      rcases get?_keep_same (highest entries) k new with ⟨now,above⟩ | ⟨old,before,stays,below⟩
      · obtain rfl := Option.some.inj (now.symm.trans found)
        refine ⟨by simp,bounded _ (fun entry earlier => ?_) (fun _ => le_rfl)⟩
        obtain ⟨old,before⟩ := highest_some entries k entry earlier
        exact ((ih old before).2 entry earlier).trans (above old before)
      · obtain rfl := Option.some.inj (stays.symm.trans found)
        obtain ⟨member,all⟩ := ih old before
        exact ⟨List.mem_append_left _ member,bounded _ all (fun _ => below)⟩
    · rw [get?_keep_other _ _ _ _ same] at found
      obtain ⟨member,all⟩ := ih kept found
      exact ⟨List.mem_append_left _ member,bounded _ all (fun same' => absurd same' same)⟩

end Highest
