import RelayOpd.CheckpointRun
import Mathlib.Data.List.Basic

/-! Which runs never lose the latest checkpoint: a manager removes folders before the
tracker file moves on, and that is safe as long as it keeps the last one it registered. -/
namespace RelayOpd.CheckpointRun

section Cuts

variable {paths : List Nat} {limit : Option Nat}

/-- Removing fewer paths than there are spares the last one. -/
theorem last_notMem_take (sorted : paths.Pairwise (· < ·)) (last cut : Nat)
    (ends : paths.getLast? = some last) (short : cut < paths.length) : last ∉ paths.take cut := by
  intro member
  obtain ⟨front,rfl⟩ := List.getLast?_eq_some_iff.mp ends
  rw [List.length_append,List.length_singleton] at short
  rw [List.take_append_of_le_length (by omega)] at member
  have := (List.pairwise_append.mp sorted).2.2 last (List.mem_of_mem_take member) last (by simp)
  omega

theorem getLast?_drop (cut : Nat) (short : cut < paths.length) : (paths.drop cut).getLast? = paths.getLast? := by
  rw [List.getLast?_drop,if_neg (by omega)]

theorem capacityCut_lt (some : paths ≠ []) : capacityCut limit paths < paths.length := by
  have := List.length_pos_iff.mpr some
  unfold capacityCut
  split
  · exact this
  · split <;> omega

theorem registerCut_lt (some : paths ≠ []) : registerCut limit paths < paths.length := by
  have := List.length_pos_iff.mpr some
  unfold registerCut
  split
  · exact this
  · split <;> omega

/-- A manager that keeps two checkpoints leaves the last two. -/
theorem registerCut_keeps (kept : limit ≠ some 1 ∨ paths = []) (step : Nat) :
    registerCut limit (paths ++ [step]) = 0 ∨ registerCut limit (paths ++ [step]) < paths.length := by
  unfold registerCut
  split
  · exact .inl rfl
  next m =>
    rw [List.length_append,List.length_singleton]
    split
    next overrun =>
      rcases kept with apart | nil
      · have two : m ≠ 1 := fun same => apart (by rw [same])
        exact .inr (by omega)
      · rw [nil,List.length_nil] at overrun
        omega
    next => exact .inl rfl

end Cuts

section Invariant

variable (cfg : Config) (s : State)

/-- The manager's last path is the one that the tracker file names. -/
def Kept (role : Role) : Prop :=
  (s.paths role).Pairwise (· < ·) ∧ (s.paths role = [] ∨ (s.paths role).getLast? = s.trackerFile)

/-- The role is still to be saved. -/
def Waiting (role : Role) : Prop := Kept s role ∧ (cfg.limit role ≠ some 1 ∨ s.paths role = [])

/-- The role has been saved and registered. -/
def Done (role : Role) : Prop :=
  Complete cfg s role s.globalSteps s.attempt ∧ (s.paths role).Pairwise (· < ·) ∧
    (s.paths role).getLast? = some s.globalSteps

/-- The actor is saved before the critic. -/
def Other (role : Role) : Prop := if role = .actor then Done cfg s role else Waiting cfg s role

/-- The folders to be removed are not the one to resume from. -/
def Spares (todo : List Nat) : Prop := ∀ step, s.trackerFile = some step → step ∉ todo

/-- The tracker file names an earlier step than the one being saved. -/
def Saving : Prop := ∀ step, s.trackerFile = some step → step < s.globalSteps

/-- What is not on disk yet is still to be written. -/
def Progress (role : Role) (last : Bool) (pending : Nat → List Part) : Prop :=
  ∀ rank, rank < cfg.worldSize role → ∀ part ∈ cfg.firstWrites role rank ++ cfg.lastWrites role rank,
    part ∈ pending rank ∨ (last = false ∧ part ∈ cfg.lastWrites role rank) ∨
      s.disk role s.globalSteps rank part = some s.attempt

def StageInv : Prop :=
  match s.stage with
  | .idle => (∀ step, s.trackerFile = some step → step ≤ s.globalSteps) ∧ ∀ role ∈ cfg.roles, Kept s role
  | .capacity role todo => Saving s ∧ role ∈ cfg.roles ∧ Spares s todo ∧ Waiting cfg s role ∧
      ∀ r ∈ cfg.roles, r ≠ role → Other cfg s r
  | .writing role last pending => Saving s ∧ role ∈ cfg.roles ∧ Progress cfg s role last pending ∧
      Waiting cfg s role ∧ ∀ r ∈ cfg.roles, r ≠ role → Other cfg s r
  | .registering role todo => Saving s ∧ role ∈ cfg.roles ∧ Spares s todo ∧ s.globalSteps ∉ todo ∧
      Done cfg s role ∧ ∀ r ∈ cfg.roles, r ≠ role → Other cfg s r
  | .dataloader => Saving s ∧ ∀ role ∈ cfg.roles, Done cfg s role
  | .tracker => (∀ role ∈ cfg.roles, Done cfg s role) ∧ s.data s.globalSteps = some s.attempt

structure Inv : Prop where
  recoverable : s.trackerFile.isSome → Recoverable cfg s
  tracked : s.completed ≠ [] → s.trackerFile.isSome
  stage : StageInv cfg s

end Invariant

section Steps

variable {cfg : Config} {s : State}

theorem inv_initial : Inv cfg .initial where
  recoverable := fun some => by cases some
  tracked := fun some => absurd rfl some
  stage := ⟨(fun _ named => by cases named),fun _ _ => ⟨List.Pairwise.nil,.inl rfl⟩⟩

/-- Removing another folder leaves the resumable one alone. -/
theorem recoverable_removed (role : Role) (step : Nat) (spared : s.trackerFile ≠ some step)
    (safe : Recoverable cfg s) : Recoverable cfg (s.removed role step) := by
  obtain ⟨t,attempt,named,returned,data,files⟩ := safe
  refine ⟨t,attempt,named,returned,data,fun r member rank inside part written => ?_⟩
  have apart : ¬ (r = role ∧ t = step) := fun both => spared (by rw [named,both.2])
  simp only [State.removed,if_neg apart]
  exact files r member rank inside part written

theorem done_removed (role r : Role) (step : Nat) (apart : ¬ (r = role ∧ s.globalSteps = step))
    (done : Done cfg s r) : Done cfg (s.removed role step) r := by
  refine ⟨fun rank inside part member => ?_,done.2⟩
  have kept : ¬ (r = role ∧ (s.removed role step).globalSteps = step) := apart
  simp only [State.removed] at kept ⊢
  rw [if_neg kept]
  exact done.1 rank inside part member

theorem other_removed (role r : Role) (step : Nat) (apart : r ≠ role) (other : Other cfg s r) :
    Other cfg (s.removed role step) r := by
  unfold Other at other ⊢
  split
  next actor =>
    rw [if_pos actor] at other
    exact done_removed role r step (fun both => apart both.1) other
  next critic =>
    rw [if_neg critic] at other
    exact other

/-- A write of the running save leaves the resumable folder alone. -/
theorem recoverable_written (role : Role) (rank : Nat) (part : Part) (saving : Saving s)
    (safe : Recoverable cfg s) : Recoverable cfg (s.written role rank part) := by
  obtain ⟨t,attempt,named,returned,data,files⟩ := safe
  have earlier := saving t named
  refine ⟨t,attempt,named,returned,data,fun r member k inside q written => ?_⟩
  have apart : ¬ (r = role ∧ t = s.globalSteps ∧ k = rank ∧ q = part) := fun all => by omega
  simp only [State.written,if_neg apart]
  exact files r member k inside q written

theorem done_written (role r : Role) (rank : Nat) (part : Part) (done : Done cfg s r) :
    Done cfg (s.written role rank part) r := by
  refine ⟨fun k inside q member => ?_,done.2⟩
  simp only [State.written]
  split
  · rfl
  · exact done.1 k inside q member

theorem other_written (role r : Role) (rank : Nat) (part : Part) (other : Other cfg s r) :
    Other cfg (s.written role rank part) r := by
  unfold Other at other ⊢
  split
  next actor =>
    rw [if_pos actor] at other
    exact done_written role r rank part other
  next critic =>
    rw [if_neg critic] at other
    exact other

/-- The write that a rank does next is off its list and on disk. -/
theorem progress_written (role : Role) (last : Bool) (pending : Nat → List Part) (rank : Nat) (part : Part)
    (rest : List Part) (head : pending rank = part :: rest) (progress : Progress cfg s role last pending) :
    Progress cfg (s.written role rank part) role last (Function.update pending rank rest) := by
  intro k inside q member
  have kept : ∀ k q, s.disk role s.globalSteps k q = some s.attempt →
      (s.written role rank part).disk role s.globalSteps k q = some s.attempt := by
    intro k q here
    simp only [State.written]
    split
    · rfl
    · exact here
  rcases progress k inside q member with waits | later | done
  · by_cases same : k = rank
    · subst same
      rw [head] at waits
      rcases List.mem_cons.mp waits with rfl | waits
      · exact .inr (.inr (by simp [State.written]))
      · exact .inl (by simpa using waits)
    · exact .inl (by simpa [same] using waits)
  · exact .inr (.inl later)
  · exact .inr (.inr (kept k q done))

theorem barrier_done (role : Role) (pending : Nat → List Part) (reached : cfg.atBarrier role pending = true)
    (rank : Nat) (inside : rank < cfg.worldSize role) : pending rank = [] := by
  simp only [Config.atBarrier,List.all_eq_true,List.mem_range,List.isEmpty_iff] at reached
  exact reached rank inside

/-- Entering a worker group's save plans removals that spare the resumable folder. -/
theorem enter_spares (role : Role) (waiting : Waiting cfg s role) :
    Spares s ((s.paths role).take (capacityCut (cfg.limit role) (s.paths role))) := by
  intro step named
  obtain ⟨⟨sorted,ends⟩,_⟩ := waiting
  by_cases nil : s.paths role = []
  · simp [nil]
  · rcases ends with empty | ends
    · exact absurd empty nil
    · exact last_notMem_take sorted step _ (ends.trans named) (capacityCut_lt nil)

/-- Registering appends the new path and keeps the one to resume from. -/
theorem register_spares (role : Role) (saving : Saving s) (waiting : Waiting cfg s role) :
    (s.paths role ++ [s.globalSteps]).Pairwise (· < ·) ∧
      Spares s ((s.paths role ++ [s.globalSteps]).take
        (registerCut (cfg.limit role) (s.paths role ++ [s.globalSteps]))) ∧
      s.globalSteps ∉ (s.paths role ++ [s.globalSteps]).take
        (registerCut (cfg.limit role) (s.paths role ++ [s.globalSteps])) := by
  obtain ⟨⟨sorted,ends⟩,kept⟩ := waiting
  have below : ∀ p ∈ s.paths role, p < s.globalSteps := by
    intro p member
    rcases ends with nil | ends
    · rw [nil] at member
      cases member
    · cases tracked : s.trackerFile with
      | none =>
        rw [tracked,List.getLast?_eq_none_iff] at ends
        rw [ends] at member
        cases member
      | some step =>
        have before := saving step tracked
        rw [tracked] at ends
        obtain ⟨front,split⟩ := List.getLast?_eq_some_iff.mp ends
        rw [split] at member sorted
        rcases List.mem_append.mp member with early | last
        · have := (List.pairwise_append.mp sorted).2.2 p early step (by simp)
          omega
        · rw [List.mem_singleton.mp last]
          exact before
  have sorted' : (s.paths role ++ [s.globalSteps]).Pairwise (· < ·) := by
    rw [List.pairwise_append]
    refine ⟨sorted,List.pairwise_singleton _ _,?_⟩
    intro p member q last
    rw [List.mem_singleton.mp last]
    exact below p member
  refine ⟨sorted',fun step named => ?_,?_⟩
  · rcases registerCut_keeps kept s.globalSteps with none | short
    · rw [none]
      simp
    · rw [List.take_append_of_le_length (by omega)]
      rcases ends with nil | ends
      · simp [nil]
      · exact last_notMem_take sorted step _ (ends.trans named) short
  · exact last_notMem_take sorted' s.globalSteps _ (by simp) (registerCut_lt (by simp))

theorem other_setPaths (role r : Role) (paths : List Nat) (apart : r ≠ role) (other : Other cfg s r) :
    Other cfg (s.setPaths role paths) r := by
  have same : (s.setPaths role paths).paths r = s.paths r := Function.update_of_ne apart _ _
  unfold Other at other ⊢
  split
  next actor =>
    rw [if_pos actor] at other
    exact ⟨other.1,by rw [same]; exact other.2⟩
  next critic =>
    rw [if_neg critic] at other
    refine ⟨⟨by rw [same]; exact other.1.1,?_⟩,by rw [same]; exact other.2⟩
    rw [same]
    exact other.1.2

/-- Forgetting the removed paths keeps the last one. -/
theorem waiting_dropped (role : Role) (waiting : Waiting cfg s role) :
    Waiting cfg (s.setPaths role ((s.paths role).drop (capacityCut (cfg.limit role) (s.paths role)))) role := by
  obtain ⟨⟨sorted,ends⟩,kept⟩ := waiting
  have same : (s.setPaths role ((s.paths role).drop
      (capacityCut (cfg.limit role) (s.paths role)))).paths role =
      (s.paths role).drop (capacityCut (cfg.limit role) (s.paths role)) := Function.update_self _ _ _
  refine ⟨⟨?_,?_⟩,?_⟩
  · rw [same]
    exact sorted.sublist (List.drop_sublist _ _)
  · rw [same]
    by_cases nil : s.paths role = []
    · exact .inl (by rw [nil,List.drop_nil])
    · rcases ends with empty | ends
      · exact absurd empty nil
      · exact .inr ((getLast?_drop _ (capacityCut_lt nil)).trans ends)
  · rw [same]
    rcases kept with apart | nil
    · exact .inl apart
    · exact .inr (by rw [nil,List.drop_nil])

theorem progress_complete (role : Role) (pending : Nat → List Part)
    (reached : cfg.atBarrier role pending = true) (progress : Progress cfg s role true pending) :
    Complete cfg s role s.globalSteps s.attempt := by
  intro rank inside part member
  rcases progress rank inside part member with waits | ⟨first,_⟩ | done
  · rw [barrier_done role pending reached rank inside] at waits
    cases waits
  · cases first
  · exact done

theorem next_proceed (t : State) (stepped : next cfg s .proceed = some t) (inv : Inv cfg s) : Inv cfg t := by
  obtain ⟨recoverable,tracked,stage⟩ := inv
  cases here : s.stage <;> simp only [next,here] at stepped
  case capacity role todo =>
    cases todo with
    | cons => cases stepped
    | nil =>
      simp only [Option.some.injEq] at stepped
      subst stepped
      simp only [StageInv,here] at stage
      obtain ⟨saving,member,_,waiting,others⟩ := stage
      refine ⟨recoverable,tracked,saving,member,?_,waiting_dropped role waiting,?_⟩
      · intro rank _ part writes
        rcases List.mem_append.mp writes with first | last
        · exact .inl first
        · exact .inr (.inl ⟨rfl,last⟩)
      · exact fun r inRoles apart => other_setPaths role r _ apart (others r inRoles apart)
  case writing role last pending =>
    split at stepped
    next reached =>
      simp only [StageInv,here] at stage
      obtain ⟨saving,member,progress,waiting,others⟩ := stage
      cases last with
      | false =>
        simp only [Bool.false_eq_true,if_false,Option.some.injEq] at stepped
        subst stepped
        refine ⟨recoverable,tracked,saving,member,?_,waiting,others⟩
        intro rank inside part writes
        rcases progress rank inside part writes with waits | ⟨_,last⟩ | done
        · rw [barrier_done role pending reached rank inside] at waits
          cases waits
        · exact .inl last
        · exact .inr (.inr done)
      | true =>
        simp only [if_true,Option.some.injEq] at stepped
        subst stepped
        obtain ⟨sorted,spares,fresh⟩ := register_spares role saving waiting
        have same : (s.setPaths role (s.paths role ++ [s.globalSteps])).paths role =
            s.paths role ++ [s.globalSteps] := Function.update_self _ _ _
        refine ⟨recoverable,tracked,saving,member,spares,fresh,
          ⟨progress_complete role pending reached progress,?_,?_⟩,?_⟩
        · simpa only [same] using sorted
        · simp only [same,List.getLast?_concat]
          rfl
        · exact fun r inRoles apart => other_setPaths role r _ apart (others r inRoles apart)
    next => cases stepped
  case registering role todo =>
    cases todo with
    | cons => cases stepped
    | nil =>
      simp only [StageInv,here] at stage
      obtain ⟨saving,member,_,_,⟨complete,sorted,ends⟩,others⟩ := stage
      have some : s.paths role ≠ [] := fun nil => by
        rw [nil] at ends
        cases ends
      have done : Done cfg (s.setPaths role ((s.paths role).drop
          (registerCut (cfg.limit role) (s.paths role)))) role := by
        have same : (s.setPaths role ((s.paths role).drop
            (registerCut (cfg.limit role) (s.paths role)))).paths role =
            (s.paths role).drop (registerCut (cfg.limit role) (s.paths role)) := Function.update_self _ _ _
        refine ⟨complete,?_,?_⟩
        · rw [same]
          exact sorted.sublist (List.drop_sublist _ _)
        · rw [same]
          exact (getLast?_drop _ (registerCut_lt some)).trans ends
      have rest : ∀ r ∈ cfg.roles, r ≠ role → Other cfg (s.setPaths role ((s.paths role).drop
          (registerCut (cfg.limit role) (s.paths role)))) r :=
        fun r inRoles apart => other_setPaths role r _ apart (others r inRoles apart)
      simp only at stepped
      split at stepped
      next more =>
        obtain ⟨rfl,critics⟩ := more
        simp only [Option.some.injEq] at stepped
        subst stepped
        have second : Role.critic ∈ cfg.roles := by simp [Config.roles,critics]
        have waiting : Waiting cfg (s.setPaths .actor ((s.paths .actor).drop
            (registerCut (cfg.limit .actor) (s.paths .actor)))) .critic := by
          have := rest .critic second (by decide)
          rwa [Other,if_neg (by decide)] at this
        refine ⟨recoverable,tracked,saving,second,enter_spares .critic waiting,waiting,?_⟩
        intro r _ apart
        cases r with
        | critic => exact absurd rfl apart
        | actor =>
          rw [Other,if_pos rfl]
          exact done
      next last =>
        simp only [Option.some.injEq] at stepped
        subst stepped
        refine ⟨recoverable,tracked,saving,fun r inRoles => ?_⟩
        by_cases same : r = role
        · rw [same]
          exact done
        · have other := rest r inRoles same
          cases r with
          | actor => rwa [Other,if_pos rfl] at other
          | critic =>
            cases role with
            | critic => exact absurd rfl same
            | actor =>
              cases critics : cfg.useCritic with
              | true => exact absurd ⟨rfl,critics⟩ last
              | false => simp [Config.roles,critics] at inRoles
  all_goals cases stepped

theorem step_inv (t : State) (a : Action) (stepped : next cfg s a = some t)
    (begins : ∀ k, a = .begin k → Cautious cfg s) (inv : Inv cfg s) : Inv cfg t := by
  obtain ⟨recoverable,tracked,stage⟩ := inv
  cases a with
  | crash =>
    simp only [next,Option.some.injEq] at stepped
    subst stepped
    refine ⟨recoverable,tracked,?_,fun _ _ => ⟨List.Pairwise.nil,.inl rfl⟩⟩
    intro step named
    have same : s.trackerFile = some step := named
    simp [State.restart,same]
  | begin k =>
    cases here : s.stage <;> simp only [next,here] at stepped
    case idle =>
      split at stepped
      next later =>
        simp only [Option.some.injEq] at stepped
        subst stepped
        simp only [StageInv,here] at stage
        have waiting : ∀ role ∈ cfg.roles, Waiting cfg s role := fun role member =>
          ⟨stage.2 role member,begins k rfl role member⟩
        have first : Role.actor ∈ cfg.roles := by
          unfold Config.roles
          split <;> simp
        refine ⟨recoverable,tracked,?_,first,enter_spares .actor (waiting _ first),waiting _ first,?_⟩
        · intro step named
          exact Nat.lt_of_le_of_lt (stage.1 step named) later
        · intro r member apart
          rw [Other,if_neg apart]
          exact waiting r member
      next => cases stepped
    all_goals cases stepped
  | remove =>
    cases here : s.stage <;> simp only [next,here] at stepped
    case capacity role todo =>
      cases todo with
      | nil => cases stepped
      | cons step todo =>
        simp only [Option.some.injEq] at stepped
        subst stepped
        simp only [StageInv,here] at stage
        obtain ⟨saving,member,spares,waiting,others⟩ := stage
        have spared : s.trackerFile ≠ some step := fun named => spares step named List.mem_cons_self
        refine ⟨fun some => recoverable_removed role step spared (recoverable some),tracked,saving,member,
          fun p named => fun later => spares p named (List.mem_cons_of_mem _ later),waiting,?_⟩
        exact fun r inRoles apart => other_removed role r step apart (others r inRoles apart)
    case registering role todo =>
      cases todo with
      | nil => cases stepped
      | cons step todo =>
        simp only [Option.some.injEq] at stepped
        subst stepped
        simp only [StageInv,here] at stage
        obtain ⟨saving,member,spares,fresh,done,others⟩ := stage
        have spared : s.trackerFile ≠ some step := fun named => spares step named List.mem_cons_self
        have apart : s.globalSteps ≠ step := fun same => fresh (same ▸ List.mem_cons_self)
        refine ⟨fun some => recoverable_removed role step spared (recoverable some),tracked,saving,member,
          fun p named => fun later => spares p named (List.mem_cons_of_mem _ later),
          fun later => fresh (List.mem_cons_of_mem _ later),
          done_removed role role step (fun both => apart both.2) done,?_⟩
        exact fun r inRoles other => other_removed role r step other (others r inRoles other)
    all_goals cases stepped
  | write rank =>
    cases here : s.stage <;> simp only [next,here] at stepped
    case writing role last pending =>
      cases head : pending rank with
      | nil => simp [head] at stepped
      | cons part rest =>
        rw [head] at stepped
        simp only at stepped
        split at stepped
        next inside =>
          simp only [Option.some.injEq] at stepped
          subst stepped
          simp only [StageInv,here] at stage
          obtain ⟨saving,member,progress,waiting,others⟩ := stage
          refine ⟨fun some => recoverable_written role rank part saving (recoverable some),tracked,saving,
            member,progress_written role last pending rank part rest head progress,waiting,?_⟩
          exact fun r inRoles apart => other_written role r rank part (others r inRoles apart)
        next => cases stepped
    all_goals cases stepped
  | proceed => exact next_proceed t stepped ⟨recoverable,tracked,stage⟩
  | saveData =>
    cases here : s.stage <;> simp only [next,here] at stepped
    case dataloader =>
      simp only [Option.some.injEq] at stepped
      subst stepped
      simp only [StageInv,here] at stage
      refine ⟨fun some => ?_,tracked,stage.2,by simp⟩
      obtain ⟨step,attempt,named,returned,data,files⟩ := recoverable some
      have earlier := stage.1 step named
      refine ⟨step,attempt,named,returned,?_,files⟩
      simp only [Function.update_of_ne (Nat.ne_of_lt earlier),data]
    all_goals cases stepped
  | writeTracker =>
    cases here : s.stage <;> simp only [next,here] at stepped
    case tracker =>
      simp only [Option.some.injEq] at stepped
      subst stepped
      simp only [StageInv,here] at stage
      refine ⟨fun _ => ⟨s.globalSteps,s.attempt,rfl,List.mem_cons_self,stage.2,fun role member =>
        (stage.1 role member).1⟩,fun _ => rfl,?_,?_⟩
      · intro step named
        exact Nat.le_of_eq (Option.some.inj named).symm
      · exact fun role member => ⟨(stage.1 role member).2.1,.inr (stage.1 role member).2.2⟩
    all_goals cases stepped

end Steps

/-- In every run whose saves begin with managers that keep more than one checkpoint, or
have registered none yet, the latest checkpoint can be loaded at every moment. -/
theorem latest_checkpoint_survives (cfg : Config) (s : State)
    (reached : Reachable cfg (Cautious cfg) s) (saved : s.completed ≠ []) : Recoverable cfg s := by
  have inv : Inv cfg s := by
    clear saved
    induction reached with
    | start => exact inv_initial
    | step s t a _ begins stepped ih => exact step_inv t a stepped begins ih
  exact inv.recoverable (inv.tracked saved)

theorem Reachable.run_always {cfg : Config} {ok : State → Prop} {s t : State} (reached : Reachable cfg ok s)
    (always : ∀ s, ok s) (actions : List Action) (ran : run cfg actions s = some t) : Reachable cfg ok t := by
  induction actions generalizing s with
  | nil =>
    obtain rfl := Option.some.inj ran
    exact reached
  | cons a actions ih =>
    obtain ⟨middle,stepped,rest⟩ := Option.bind_eq_some_iff.mp ran
    exact ih (.step s middle a reached (fun _ _ => always s) stepped) rest

/-- One rank that saves its model, and a manager that keeps a single checkpoint. -/
def keepOne : Config where
  useCritic := false
  maxCkptToKeep := fun _ => some 1
  worldSize := fun _ => 1
  saveContents := fun _ => [.model]

/-- A save of one rank at a step, up to its tracker file. -/
def saveActions (step : Nat) : List Action :=
  [.begin step,.proceed,.write 0,.write 0,.write 0,.proceed,.proceed]

def finishActions : List Action := [.proceed,.saveData,.writeTracker]

theorem keepOne_lost (s : State) (named : s.trackerFile = some 1)
    (missing : s.disk .actor 1 0 .model = none) : ¬ Recoverable keepOne s := by
  rintro ⟨step,attempt,named',_,_,files⟩
  obtain rfl : 1 = step := Option.some.inj (named.symm.trans named')
  have model := files .actor (by decide) 0 (by decide) .model (by decide)
  rw [missing] at model
  cases model

/-- The second save removes the first folder before the tracker file names the second. -/
theorem latest_checkpoint_removed :
    ∃ s, run keepOne (saveActions 1 ++ finishActions ++ saveActions 2 ++ [.remove])
        .initial = some s ∧
      s.completed = [(1,1)] ∧ s.trackerFile = some 1 ∧ s.disk .actor 1 0 .model = none ∧
      ¬ Recoverable keepOne s := by
  exact ⟨_,rfl,rfl,rfl,by decide,keepOne_lost _ rfl (by decide)⟩

def keepTwo : Config := { keepOne with maxCkptToKeep := fun _ => some 2 }

/-- Two saves and a third one that has removed the first folder and written a file when it crashes. -/
def crashedThird : List Action :=
  saveActions 1 ++ finishActions ++ saveActions 2 ++ finishActions ++ [.begin 3,.remove,.proceed,.write 0,.crash]

theorem latest_checkpoint_survives_crash :
    ∃ s, run keepTwo crashedThird .initial = some s ∧ s.disk .actor 1 0 .model = none ∧
      s.disk .actor 3 0 .model = some 3 ∧ s.globalSteps = 2 ∧ Recoverable keepTwo s := by
  have cautious : ∀ s, Cautious keepTwo s := fun s role _ => .inl (by cases role <;> decide)
  exact ⟨_,rfl,by decide,by decide,rfl,latest_checkpoint_survives keepTwo _
    (Reachable.start.run_always cautious crashedThird rfl) (List.cons_ne_nil _ _)⟩

end RelayOpd.CheckpointRun
