import Mathlib.Data.Fin.Tuple.Basic
import Mathlib.Data.List.Basic
import Mathlib.Data.List.Forall2

/-! Loops whose iterations each own one key and touch only the part of the state
that belongs to it. `part k s` is the part of key `k`; `key i` owns iteration `i`. -/
namespace LocalLoop

variable {ι κ σ β : Type} {key : ι → κ} {part : κ → σ → β} {body : σ → ι → σ} {own : ι → β → β}

/-- A body that leaves every other key's part alone. -/
def Framed (key : ι → κ) (part : κ → σ → β) (body : σ → ι → σ) : Prop :=
  ∀ s i k, key i ≠ k → part k (body s i) = part k s

/-- A body that acts on its own part as `own` does. -/
def Acts (key : ι → κ) (part : κ → σ → β) (body : σ → ι → σ) (own : ι → β → β) : Prop :=
  ∀ s i, part (key i) (body s i) = own i (part (key i) s)

theorem foldl_absent (framed : Framed key part body) (steps : List ι) (k : κ)
    (absent : ∀ i ∈ steps, key i ≠ k) (s : σ) : part k (steps.foldl body s) = part k s := by
  induction steps generalizing s with
  | nil => rfl
  | cons i steps ih =>
    have rest : ∀ j ∈ steps, key j ≠ k := fun j member => absent j (List.mem_cons_of_mem _ member)
    exact (ih rest (body s i)).trans (framed s i k (absent i List.mem_cons_self))

/-- A loop over distinct keys acts once on each key's part. -/
theorem foldl_member (framed : Framed key part body) (acts : Acts key part body own)
    (steps : List ι) (distinct : (steps.map key).Nodup) (i : ι) (member : i ∈ steps) (s : σ) :
    part (key i) (steps.foldl body s) = own i (part (key i) s) := by
  induction steps generalizing s with
  | nil => simp at member
  | cons j steps ih =>
    obtain ⟨fresh,rest⟩ := List.nodup_cons.mp distinct
    rcases List.mem_cons.mp member with rfl | later
    · have absent : ∀ j ∈ steps, key j ≠ key i :=
        fun j inside same => fresh (same ▸ List.mem_map_of_mem inside)
      exact (foldl_absent framed steps _ absent _).trans (acts s i)
    · have apart : key j ≠ key i := fun same => fresh (same ▸ List.mem_map_of_mem later)
      rw [List.foldl_cons,ih rest later,framed s j _ apart]

/-- When a loop over distinct keys reaches an iteration, its part is still untouched. -/
theorem foldl_reached (framed : Framed key part body) (before after : List ι) (i : ι)
    (distinct : ((before ++ i :: after).map key).Nodup) (s : σ) :
    part (key i) (before.foldl body s) = part (key i) s := by
  rw [List.map_append,List.nodup_append] at distinct
  apply foldl_absent framed
  intro j member
  exact distinct.2.2 _ (List.mem_map_of_mem member) _ (List.mem_map_of_mem List.mem_cons_self)

/-- A fallible loop whose steps all succeed. -/
theorem foldlM_ok {ε : Type} (f : σ → ι → Except ε σ) (g : σ → ι → σ) (steps : List ι)
    (effect : ∀ i ∈ steps, ∀ s, f s i = .ok (g s i)) (s : σ) : steps.foldlM f s = .ok (steps.foldl g s) := by
  induction steps generalizing s with
  | nil => rfl
  | cons i steps ih =>
    rw [List.foldlM_cons,effect i List.mem_cons_self]
    exact ih (fun j later => effect j (List.mem_cons_of_mem i later)) (g s i)

/-- A fallible loop one of whose steps fails in every state. -/
theorem foldlM_error {ε : Type} (f : σ → ι → Except ε σ) (steps : List ι) (i : ι) (member : i ∈ steps)
    (fails : ∀ s, ∃ e, f s i = .error e) (s : σ) : ∃ e, steps.foldlM f s = .error e := by
  induction steps generalizing s with
  | nil => cases member
  | cons j steps ih =>
    rw [List.foldlM_cons]
    cases outcome : f s j with
    | error e => exact ⟨e,rfl⟩
    | ok next =>
      rcases List.mem_cons.mp member with rfl | later
      · obtain ⟨e,failed⟩ := fails s
        rw [failed] at outcome
        cases outcome
      · exact ih later next

/-- A fallible loop whose steps succeed by what is read off the state, and keep it. -/
theorem foldlM_ok_iff {ε : Type} (f : σ → ι → Except ε σ) (read : σ → β) (fits : ι → β → Prop)
    (succeeds : ∀ s i, (∃ t, f s i = .ok t) ↔ fits i (read s)) (keeps : ∀ s i t, f s i = .ok t → read t = read s)
    (steps : List ι) (s : σ) :
    ((∃ t, steps.foldlM f s = .ok t) ↔ ∀ i ∈ steps, fits i (read s)) ∧
      ∀ t, steps.foldlM f s = .ok t → read t = read s := by
  induction steps generalizing s with
  | nil =>
    refine ⟨⟨fun _ _ absent => absurd absent List.not_mem_nil,fun _ => ⟨s,rfl⟩⟩,fun t same => ?_⟩
    rw [← Except.ok.inj same]
  | cons i steps ih =>
    rw [List.forall_mem_cons,← succeeds]
    cases step : f s i with
    | error e =>
      have failed : (i :: steps).foldlM f s = .error e := by
        rw [List.foldlM_cons,step]
        rfl
      rw [failed]
      exact ⟨⟨fun ⟨_,absent⟩ => (nomatch absent),fun ⟨⟨_,absent⟩,_⟩ => (nomatch absent)⟩,fun _ absent => (nomatch absent)⟩
    | ok next =>
      have run : (i :: steps).foldlM f s = steps.foldlM f next := by
        rw [List.foldlM_cons,step]
        rfl
      have same := keeps s i next step
      obtain ⟨rest,kept⟩ := ih next
      rw [same] at rest kept
      rw [run]
      exact ⟨rest.trans ⟨fun all => ⟨⟨next,rfl⟩,all⟩,And.right⟩,kept⟩

/-- A traversal whose steps all succeed. -/
theorem mapM_ok {ε : Type} (f : α → Except ε β) (value : α → β) (xs : List α)
    (effect : ∀ x ∈ xs, f x = .ok (value x)) : xs.mapM f = .ok (xs.map value) := by
  induction xs with
  | nil => rfl
  | cons x xs ih =>
    rw [List.mapM_cons,effect x List.mem_cons_self,ih (fun y later => effect y (List.mem_cons_of_mem x later))]
    rfl

/-- The same for a traversal that may be undefined. -/
theorem mapM_some (f : α → Option β) (value : α → β) (xs : List α) (effect : ∀ x ∈ xs, f x = some (value x)) :
    xs.mapM f = some (xs.map value) := by
  induction xs with
  | nil => rfl
  | cons x xs ih =>
    rw [List.mapM_cons,effect x List.mem_cons_self,ih (fun y later => effect y (List.mem_cons_of_mem x later))]
    rfl

/-- A traversal that succeeded, step by step. -/
theorem mapM_forall₂ {ε : Type} (f : α → Except ε β) (xs : List α) (ys : List β) (made : xs.mapM f = .ok ys) :
    List.Forall₂ (fun x y => f x = .ok y) xs ys := by
  induction xs generalizing ys with
  | nil =>
    obtain rfl := Except.ok.inj made
    exact .nil
  | cons x xs ih =>
    rw [List.mapM_cons] at made
    cases first : f x with
    | error e =>
      rw [first] at made
      cases made
    | ok y =>
      rw [first] at made
      cases rest : xs.mapM f with
      | error e =>
        rw [rest] at made
        cases made
      | ok zs =>
        rw [rest] at made
        obtain rfl := Except.ok.inj made
        exact .cons first (ih zs rest)

theorem forall₂_right {R : γ → δ → Prop} {xs : List γ} {ys : List δ} (related : List.Forall₂ R xs ys) :
    ∀ y ∈ ys, ∃ x ∈ xs, R x y := by
  induction related with
  | nil => simp
  | cons first _ ih =>
    refine List.forall_mem_cons.mpr ⟨⟨_,List.mem_cons_self,first⟩,fun y member => ?_⟩
    obtain ⟨x,inside,same⟩ := ih y member
    exact ⟨x,List.mem_cons_of_mem _ inside,same⟩

theorem forall₂_left {R : γ → δ → Prop} {xs : List γ} {ys : List δ} (related : List.Forall₂ R xs ys) :
    ∀ x ∈ xs, ∃ y ∈ ys, R x y :=
  forall₂_right (List.Forall₂.flip related : List.Forall₂ (flip R) ys xs)

theorem forall₂_chain {R : γ → δ → Prop} {S : δ → ζ → Prop} {T : γ → ζ → Prop} {xs : List γ} {ys : List δ}
    {zs : List ζ} (first : List.Forall₂ R xs ys) (second : List.Forall₂ S ys zs)
    (both : ∀ x y z, R x y → S y z → T x z) : List.Forall₂ T xs zs := by
  induction first generalizing zs with
  | nil =>
    cases second
    exact .nil
  | cons related _ ih =>
    cases second with
    | cons next rest => exact .cons (both _ _ _ related next) (ih rest)

/-- Results and sources of a traversal that succeeded. -/
theorem mapM_made {ε : Type} (f : α → Except ε β) (xs : List α) (ys : List β) (made : xs.mapM f = .ok ys) :
    (∀ y ∈ ys, ∃ x ∈ xs, f x = .ok y) ∧ ∀ x ∈ xs, ∃ y ∈ ys, f x = .ok y :=
  ⟨forall₂_right (mapM_forall₂ f xs ys made),forall₂_left (mapM_forall₂ f xs ys made)⟩

/-- A traversal whose steps all succeed, each with a result of its own property. -/
theorem mapM_exists {ε : Type} (f : α → Except ε β) (fits : α → β → Prop) (xs : List α)
    (effect : ∀ x ∈ xs, ∃ y, f x = .ok y ∧ fits x y) :
    ∃ ys, xs.mapM f = .ok ys ∧ List.Forall₂ fits xs ys := by
  induction xs with
  | nil => exact ⟨[],rfl,.nil⟩
  | cons x xs ih =>
    obtain ⟨y,first,fit⟩ := effect x List.mem_cons_self
    obtain ⟨ys,rest,fits'⟩ := ih (fun z later => effect z (List.mem_cons_of_mem x later))
    refine ⟨y :: ys,?_,.cons fit fits'⟩
    rw [List.mapM_cons,first,rest]
    rfl

theorem forall₂_source {fits : α → β → Prop} {xs : List α} {ys : List β}
    (each : List.Forall₂ fits xs ys) (y : β) (member : y ∈ ys) : ∃ x ∈ xs, fits x y := by
  induction each with
  | nil => cases member
  | cons fit _ ih =>
    rcases List.mem_cons.mp member with rfl | later
    · exact ⟨_,List.mem_cons_self,fit⟩
    · obtain ⟨x,inside,fit⟩ := ih later
      exact ⟨x,List.mem_cons_of_mem _ inside,fit⟩

theorem forall₂_map_eq {γ : Type} {fits : α → β → Prop} {xs : List α} {ys : List β} (f : α → γ) (g : β → γ)
    (each : List.Forall₂ fits xs ys) (same : ∀ x y, fits x y → f x = g y) : xs.map f = ys.map g := by
  induction each with
  | nil => rfl
  | cons fit _ ih => rw [List.map_cons,List.map_cons,same _ _ fit,ih]

/-- Rows computed one after another; the first error ends the loop. -/
def gather {ε : Type} : {n : Nat} → (Fin n → Except ε β) → Except ε (Fin n → β)
  | 0, _ => .ok Fin.elim0
  | _+1, f => do
    let head ← f 0
    let rest ← gather (fun i => f i.succ)
    return Fin.cons head rest

theorem gather_ok {ε : Type} {n : Nat} (f : Fin n → Except ε β) (g : Fin n → β)
    (each : ∀ i, f i = .ok (g i)) : gather f = .ok g := by
  induction n with
  | zero => exact congrArg Except.ok (Subsingleton.elim _ _)
  | succ n ih =>
    rw [gather,each 0,ih (fun i => f i.succ) (fun i => g i.succ) (fun i => each i.succ)]
    exact congrArg Except.ok (Fin.cons_self_tail g)

theorem gather_error {ε : Type} {n : Nat} (f : Fin n → Except ε β) (i : Fin n) (e : ε)
    (raised : f i = .error e) : ∃ first, gather f = .error first := by
  induction n with
  | zero => exact i.elim0
  | succ n ih =>
    rw [gather]
    cases head : f 0 with
    | error first => exact ⟨first,rfl⟩
    | ok value =>
      cases i using Fin.cases with
      | zero =>
        rw [head] at raised
        cases raised
      | succ k =>
        obtain ⟨first,failed⟩ := ih (fun i => f i.succ) k raised
        exact ⟨first,by simp only [bind,Except.bind,failed]⟩

end LocalLoop
