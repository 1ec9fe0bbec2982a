import Mathlib.Data.List.Induction

/-! Dictionaries given by their lookup. Only lookups are observed, so insertion
order is not represented. -/
def PyDict (κ ν : Type) : Type := κ → Option ν

namespace PyDict

def empty : PyDict κ ν := fun _ => none

def get? (d : PyDict κ ν) (k : κ) : Option ν := d k

def getD (d : PyDict κ ν) (k : κ) (default : ν) : ν := (d.get? k).getD default

@[simp] theorem get?_empty (k : κ) : (empty : PyDict κ ν).get? k = none := rfl

section

variable [DecidableEq κ]

def set (d : PyDict κ ν) (k : κ) (v : ν) : PyDict κ ν := fun j => if j = k then some v else d j

/-- `d.pop(k, None)` with the popped value dropped. -/
def pop (d : PyDict κ ν) (k : κ) : PyDict κ ν := fun j => if j = k then none else d j

/-- `d[k].extend(xs)` on a `defaultdict(list)`. -/
def extend (d : PyDict κ (List ν)) (k : κ) (xs : List ν) : PyDict κ (List ν) :=
  d.set k (d.getD k [] ++ xs)

@[simp] theorem get?_set_same (d : PyDict κ ν) (k : κ) (v : ν) : (d.set k v).get? k = some v := by
  simp [set,get?]

@[simp] theorem get?_set_other (d : PyDict κ ν) (j k : κ) (v : ν) (h : j ≠ k) :
    (d.set k v).get? j = d.get? j := by simp [set,get?,h]

@[simp] theorem get?_pop_same (d : PyDict κ ν) (k : κ) : (d.pop k).get? k = none := by
  simp [pop,get?]

@[simp] theorem get?_pop_other (d : PyDict κ ν) (j k : κ) (h : j ≠ k) :
    (d.pop k).get? j = d.get? j := by simp [pop,get?,h]

@[simp] theorem get?_extend_same (d : PyDict κ (List ν)) (k : κ) (xs : List ν) :
    (d.extend k xs).get? k = some (d.getD k [] ++ xs) := by simp [extend]

@[simp] theorem get?_extend_other (d : PyDict κ (List ν)) (j k : κ) (xs : List ν) (h : j ≠ k) :
    (d.extend k xs).get? j = d.get? j := by simp [extend,h]

end

section Gather

/-- A list under a key after one more `extend`, which may be skipped. -/
def gatherStep (old new : Option (List ν)) : Option (List ν) :=
  match new with
  | none => old
  | some xs => some (old.getD [] ++ xs)

/-- The list under a fresh key after a sequence of `extend`s. -/
def gather (news : List (Option (List ν))) : Option (List ν) := news.foldl gatherStep none

@[simp] theorem gather_append (news : List (Option (List ν))) (new : Option (List ν)) :
    gather (news ++ [new]) = gatherStep (gather news) new := by simp [gather]

theorem gather_eq (news : List (Option (List ν))) :
    gather news =
      if news.any Option.isSome then some (news.flatMap (fun new => new.getD [])) else none := by
  induction news using List.reverseRecOn with
  | nil => rfl
  | append_singleton news new ih =>
    rw [gather_append,ih]
    cases new with
    | none => simp [gatherStep]
    | some xs =>
      by_cases before : news.any Option.isSome = true
      · simp [gatherStep,before]
      · have empty : news.flatMap (fun new => new.getD []) = [] := by
          simp only [List.flatMap_eq_nil_iff]
          intro new member
          cases new with
          | none => rfl
          | some ys => exact absurd (List.any_eq_true.mpr ⟨some ys,member,rfl⟩) before
        simp [gatherStep,before,empty]

theorem gather_map_some (lists : List (List ν)) :
    gather (lists.map some) = if lists = [] then none else some lists.flatten := by
  cases lists <;> simp [gather_eq,List.flatMap_def,Function.comp_def]

end Gather

theorem getD_eq (d : PyDict κ ν) (k : κ) (default : ν) :
    d.getD k default = (d.get? k).getD default := (rfl)

end PyDict
