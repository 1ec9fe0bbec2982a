import RelayOpd.LocalLoop
import RelayOpd.OrderedDict

/-! The `meta_info` dictionaries of several `DataProto`s merged into one. Values under a key
that several of them have must agree; the metrics of all of them become a dictionary of
lists. -/
namespace RelayOpd

/-- What merging asks of a value. -/
class MetaValue (μ : Type) where
  isNone : μ → Bool
  asList : μ → Option (List μ)
  asDict : μ → Option (OrderedDict String μ)
  ofLists : OrderedDict String (List μ) → μ
  typeName : μ → String

namespace MetaInfo

open MetaValue

variable {μ : Type} [MetaValue μ]

/-- What a value under `metrics` adds to the metrics. -/
def metricsOf (value : μ) : List μ := if isNone value then [] else (asList value).getD [value]

section ListOfDicts

def addItem (output : OrderedDict String (List μ)) (entry : String × μ) :
    Except String (OrderedDict String (List μ)) :=
  match output.get? entry.1 with
  | some items => .ok (output.set entry.1 (items ++ [entry.2]))
  | none => .error s!"Key '{entry.1}' is not present in the keys of the first dictionary in the list."

def addDict (output : OrderedDict String (List μ)) (value : μ) : Except String (OrderedDict String (List μ)) :=
  match asDict value with
  | some dict => dict.entries.foldlM addItem output
  | none => .error s!"'{typeName value}' object has no attribute 'items'"

def listOfDictToDictOfList (listOfDict : List μ) : Except String (OrderedDict String (List μ)) :=
  match listOfDict with
  | [] => .ok .empty
  | first :: _ =>
    match asDict first with
    | some dict => listOfDict.foldlM addDict (dict.mapWithKey (fun _ _ => []))
    | none => .error s!"'{typeName first}' object has no attribute 'keys'"

/-- All values are dictionaries with keys of the first one. -/
def Columnar (values : List μ) : Prop :=
  ∀ first, values.head? = some first → ∃ keys, asDict first = some keys ∧
    ∀ value ∈ values, ∃ dict, asDict value = some dict ∧ ∀ key ∈ dict.keys, key ∈ keys.keys

omit [MetaValue μ] in
theorem addItem_ok_iff (output : OrderedDict String (List μ)) (entry : String × μ) :
    (∃ next, addItem output entry = .ok next) ↔ entry.1 ∈ output.keys := by
  rw [OrderedDict.mem_keys,addItem]
  cases output.get? entry.1 <;> simp

omit [MetaValue μ] in
theorem addItem_keys (output : OrderedDict String (List μ)) (entry : String × μ) (next : OrderedDict String (List μ))
    (added : addItem output entry = .ok next) : next.keys = output.keys := by
  have present := (addItem_ok_iff output entry).mp ⟨next,added⟩
  unfold addItem at added
  split at added
  · rw [← Except.ok.inj added]
    exact OrderedDict.keys_set output entry.1 _ present
  · cases added

theorem addDict_ok_iff (output : OrderedDict String (List μ)) (value : μ) :
    (∃ next, addDict output value = .ok next) ↔
      ∃ dict, asDict value = some dict ∧ ∀ key ∈ dict.keys, key ∈ output.keys := by
  unfold addDict
  cases asDict value with
  | none => simp
  | some dict =>
    have items := (LocalLoop.foldlM_ok_iff addItem OrderedDict.keys (fun entry keys => entry.1 ∈ keys)
      addItem_ok_iff addItem_keys dict.entries output).1
    simp only [items,Option.some.injEq,exists_eq_left',OrderedDict.keys,List.forall_mem_map]

theorem addDict_keys (output : OrderedDict String (List μ)) (value : μ) (next : OrderedDict String (List μ))
    (added : addDict output value = .ok next) : next.keys = output.keys := by
  unfold addDict at added
  split at added
  · exact (LocalLoop.foldlM_ok_iff addItem OrderedDict.keys (fun entry keys => entry.1 ∈ keys)
      addItem_ok_iff addItem_keys _ output).2 next added
  · cases added

theorem listOfDict_ok_iff (listOfDict : List μ) :
    (∃ output, listOfDictToDictOfList listOfDict = .ok output) ↔ Columnar listOfDict := by
  cases listOfDict with
  | nil => simp [Columnar,listOfDictToDictOfList]
  | cons first rest =>
    cases keys : asDict first with
    | none => simp [Columnar,listOfDictToDictOfList,keys]
    | some dict =>
      have loop := (LocalLoop.foldlM_ok_iff addDict OrderedDict.keys
        (fun value keys => ∃ dict, asDict value = some dict ∧ ∀ key ∈ dict.keys, key ∈ keys)
        addDict_ok_iff addDict_keys (first :: rest) (dict.mapWithKey (fun _ _ => []))).1
      rw [OrderedDict.keys_mapWithKey] at loop
      have run : listOfDictToDictOfList (first :: rest) =
          (first :: rest).foldlM addDict (dict.mapWithKey (fun _ _ => [])) := by
        simp only [listOfDictToDictOfList,keys]
      rw [run,loop]
      constructor
      · intro all value same
        obtain rfl : first = value := Option.some.inj same
        exact ⟨dict,keys,all⟩
      · intro columnar
        obtain ⟨own,given,all⟩ := columnar first rfl
        rwa [Option.some.inj (keys.symm.trans given)]

end ListOfDicts

section Merge

variable [DecidableEq μ]

/-- The merged entries so far, and the metrics gathered so far. -/
def mergeEntry (s : OrderedDict String μ × List μ) (entry : String × μ) :
    Except String (OrderedDict String μ × List μ) :=
  if entry.1 = "metrics" then .ok (s.1,s.2 ++ metricsOf entry.2)
  else
    match s.1.get? entry.1 with
    | some value =>
      if value = entry.2 then .ok s else .error s!"Conflicting values for meta_info key '{entry.1}'"
    | none => .ok (s.1.set entry.1 entry.2,s.2)

def mergeMeta (metas : List (OrderedDict String μ)) : Except String (OrderedDict String μ) := do
  let (merged,allMetrics) ← metas.foldlM (fun s metaInfo => metaInfo.entries.foldlM mergeEntry s) (.empty,[])
  if allMetrics.isEmpty then return merged
  else return merged.set "metrics" (ofLists (← listOfDictToDictOfList allMetrics))

end Merge

/-- Nothing but the metrics differs under a shared key. -/
def Agree (entries : List (String × μ)) : Prop :=
  ∀ entry ∈ entries, ∀ other ∈ entries, entry.1 = other.1 → entry.1 ≠ "metrics" → entry.2 = other.2

def gathered (entries : List (String × μ)) : List μ :=
  entries.flatMap (fun entry => if entry.1 = "metrics" then metricsOf entry.2 else [])

/-- Dictionaries that can be merged. -/
structure Mergeable (metas : List (OrderedDict String μ)) : Prop where
  agree : Agree (metas.flatMap OrderedDict.entries)
  metrics : Columnar (gathered (metas.flatMap OrderedDict.entries))

omit [MetaValue μ] in
theorem agree_cons (entry : String × μ) (entries : List (String × μ)) :
    Agree (entry :: entries) ↔ Agree entries ∧
      ∀ other ∈ entries, other.1 = entry.1 → entry.1 ≠ "metrics" → entry.2 = other.2 := by
  simp only [Agree,List.forall_mem_cons]
  constructor
  · rintro ⟨⟨_,own⟩,rest⟩
    exact ⟨fun e member => (rest e member).2,fun other member same => own other member same.symm⟩
  · rintro ⟨rest,own⟩
    refine ⟨⟨fun _ _ => trivial,fun other member same => own other member same.symm⟩,fun e member => ⟨?_,rest e member⟩⟩
    intro same plain
    exact (own e member same (same ▸ plain)).symm

section Merging

variable [DecidableEq μ]

/-- Entries are merged exactly when they agree with each other and with what is there. -/
theorem mergeEntries_ok_iff (entries : List (String × μ)) (s : OrderedDict String μ × List μ) :
    (∃ t, entries.foldlM mergeEntry s = .ok t) ↔ Agree entries ∧
      ∀ entry ∈ entries, entry.1 ≠ "metrics" → ∀ value, s.1.get? entry.1 = some value → value = entry.2 := by
  induction entries generalizing s with
  | nil => exact ⟨fun _ => ⟨fun _ absent => absurd absent List.not_mem_nil,fun _ absent => absurd absent List.not_mem_nil⟩,
      fun _ => ⟨s,rfl⟩⟩
  | cons entry entries ih =>
    rw [agree_cons,List.forall_mem_cons,List.foldlM_cons]
    by_cases metrics : entry.1 = "metrics"
    · rw [mergeEntry,if_pos metrics]
      refine (ih _).trans ?_
      simp [metrics]
    · cases found : s.1.get? entry.1 with
      | none =>
        have step : mergeEntry s entry = .ok (s.1.set entry.1 entry.2,s.2) := by
          rw [mergeEntry,if_neg metrics,found]
        rw [step]
        refine (ih _).trans ?_
        constructor
        · rintro ⟨rest,kept⟩
          refine ⟨⟨rest,fun other member same _ => ?_⟩,by simp,fun other member plain value there => ?_⟩
          · exact kept other member (same ▸ metrics) entry.2 (by rw [same,OrderedDict.get?_set_same])
          · have apart : other.1 ≠ entry.1 := fun same => by simp [same,found] at there
            exact kept other member plain value (by rwa [OrderedDict.get?_set_other _ _ _ _ apart])
        · rintro ⟨⟨rest,own⟩,_,kept⟩
          refine ⟨rest,fun other member plain value there => ?_⟩
          by_cases same : other.1 = entry.1
          · rw [same,OrderedDict.get?_set_same] at there
            rw [← Option.some.inj there]
            exact own other member same metrics
          · rw [OrderedDict.get?_set_other _ _ _ _ same] at there
            exact kept other member plain value there
      | some held =>
        by_cases equal : held = entry.2
        · have step : mergeEntry s entry = .ok s := by
            rw [mergeEntry,if_neg metrics,found]
            exact if_pos equal
          rw [step]
          refine (ih s).trans ?_
          constructor
          · rintro ⟨rest,kept⟩
            refine ⟨⟨rest,fun other member same _ => ?_⟩,fun _ value there => ?_,kept⟩
            · exact equal ▸ kept other member (same ▸ metrics) held (by rw [same,found])
            · rw [← Option.some.inj there,equal]
          · rintro ⟨⟨rest,_⟩,_,kept⟩
            exact ⟨rest,kept⟩
        · have step : mergeEntry s entry = .error s!"Conflicting values for meta_info key '{entry.1}'" := by
            rw [mergeEntry,if_neg metrics,found]
            exact if_neg equal
          rw [step]
          constructor
          · rintro ⟨_,absent⟩
            cases absent
          · rintro ⟨_,own,_⟩
            exact absurd (own metrics held rfl) equal

theorem mergeEntries_gathered (entries : List (String × μ)) (s t : OrderedDict String μ × List μ)
    (merged : entries.foldlM mergeEntry s = .ok t) : t.2 = s.2 ++ gathered entries := by
  induction entries generalizing s with
  | nil =>
    obtain rfl := Except.ok.inj merged
    exact (List.append_nil _).symm
  | cons entry entries ih =>
    rw [List.foldlM_cons] at merged
    cases step : mergeEntry s entry with
    | error e =>
      rw [step] at merged
      cases merged
    | ok next =>
      rw [step] at merged
      rw [ih next merged,gathered,gathered,List.flatMap_cons,← List.append_assoc]
      congr 1
      unfold mergeEntry at step
      split at step
      · rename_i metrics
        rw [← Except.ok.inj step,if_pos metrics]
      · rename_i plain
        rw [if_neg plain,List.append_nil]
        split at step
        · split at step
          · rw [← Except.ok.inj step]
          · cases step
        · rw [← Except.ok.inj step]

/-- Merging succeeds exactly on dictionaries that can be merged. -/
theorem mergeMeta_ok_iff (metas : List (OrderedDict String μ)) :
    (∃ merged, mergeMeta metas = .ok merged) ↔ Mergeable metas := by
  have flat : ∀ s : OrderedDict String μ × List μ, metas.foldlM (fun s metaInfo => metaInfo.entries.foldlM mergeEntry s) s =
      (metas.flatMap OrderedDict.entries).foldlM mergeEntry s := by
    intro s
    induction metas generalizing s with
    | nil => rfl
    | cons metaInfo metas ih =>
      rw [List.foldlM_cons,List.flatMap_cons,List.foldlM_append]
      exact bind_congr ih
  have entries := mergeEntries_ok_iff (metas.flatMap OrderedDict.entries) (.empty,[])
  rw [mergeMeta,flat]
  cases run : (metas.flatMap OrderedDict.entries).foldlM mergeEntry (.empty,[]) with
  | error e =>
    rw [run] at entries
    constructor
    · rintro ⟨_,absent⟩
      cases absent
    · intro mergeable
      obtain ⟨_,absent⟩ := entries.mpr ⟨mergeable.agree,by simp⟩
      cases absent
  | ok t =>
    have agree := (entries.mp ⟨t,run⟩).1
    have metrics : t.2 = gathered (metas.flatMap OrderedDict.entries) := by
      rw [mergeEntries_gathered _ _ t run,List.nil_append]
    have lists := listOfDict_ok_iff t.2
    simp only [bind,Except.bind]
    cases empty : t.2.isEmpty with
    | true =>
      rw [List.isEmpty_iff.mp empty] at metrics
      exact ⟨fun _ => ⟨agree,by simp [← metrics,Columnar]⟩,fun _ => ⟨t.1,rfl⟩⟩
    | false =>
      rw [metrics] at lists
      rw [if_neg Bool.false_ne_true,metrics]
      cases made : listOfDictToDictOfList (gathered (metas.flatMap OrderedDict.entries)) with
      | error e =>
        rw [made] at lists
        constructor
        · rintro ⟨_,absent⟩
          cases absent
        · intro mergeable
          obtain ⟨_,absent⟩ := lists.mpr mergeable.metrics
          cases absent
      | ok columns =>
        exact ⟨fun _ => ⟨agree,lists.mp ⟨columns,made⟩⟩,fun _ => ⟨_,rfl⟩⟩

/-- Merging entries under new keys appends them. -/
theorem mergeEntries_fresh (entries : List (String × μ)) (s : OrderedDict String μ × List μ)
    (plain : ∀ entry ∈ entries, entry.1 ≠ "metrics") (distinct : ((s.1.entries ++ entries).map Prod.fst).Nodup) :
    ∃ merged, entries.foldlM mergeEntry s = .ok (merged,s.2) ∧ merged.entries = s.1.entries ++ entries := by
  induction entries generalizing s with
  | nil => exact ⟨s.1,rfl,(List.append_nil _).symm⟩
  | cons entry entries ih =>
    have fresh : entry.1 ∉ s.1.keys := by
      rw [List.map_append,List.nodup_append] at distinct
      exact fun present => distinct.2.2 _ present _ List.mem_cons_self rfl
    have absent : s.1.get? entry.1 = none := by
      rw [OrderedDict.mem_keys] at fresh
      simpa using fresh
    have added : (s.1.set entry.1 entry.2).entries = s.1.entries ++ [entry] := if_neg fresh
    have step : mergeEntry s entry = .ok (s.1.set entry.1 entry.2,s.2) := by
      rw [mergeEntry,if_neg (plain entry List.mem_cons_self),absent]
    obtain ⟨merged,run,whole⟩ := ih (s.1.set entry.1 entry.2,s.2)
      (fun e later => plain e (List.mem_cons_of_mem entry later)) (by
        rw [added,List.append_assoc]
        exact distinct)
    refine ⟨merged,?_,?_⟩
    · rw [List.foldlM_cons,step]
      exact run
    · rw [whole,added,List.append_assoc]
      rfl

/-- Merging entries that are there changes nothing. -/
theorem mergeEntries_kept (entries : List (String × μ)) (s : OrderedDict String μ × List μ)
    (plain : ∀ entry ∈ entries, entry.1 ≠ "metrics") (inside : ∀ entry ∈ entries, entry ∈ s.1.entries) :
    entries.foldlM mergeEntry s = .ok s := by
  induction entries with
  | nil => rfl
  | cons entry entries ih =>
    have found := (s.1.mem_entries entry.1 entry.2).mp (inside entry List.mem_cons_self)
    have step : mergeEntry s entry = .ok s := by
      rw [mergeEntry,if_neg (plain entry List.mem_cons_self),found]
      exact if_pos rfl
    rw [List.foldlM_cons,step]
    exact ih (fun e later => plain e (List.mem_cons_of_mem entry later))
      (fun e later => inside e (List.mem_cons_of_mem entry later))

theorem mergeMeta_same (d : OrderedDict String μ) (plain : "metrics" ∉ d.keys) (rest : List (OrderedDict String μ))
    (same : ∀ m ∈ rest, m = d) : mergeMeta (d :: rest) = .ok d := by
  have names : ∀ entry ∈ d.entries, entry.1 ≠ "metrics" :=
    fun entry member metrics => plain (metrics ▸ List.mem_map_of_mem member)
  obtain ⟨first,run,whole⟩ := mergeEntries_fresh d.entries (.empty,[]) names d.distinct
  obtain rfl : first = d := OrderedDict.ext_entries (whole.trans (List.nil_append _))
  have later : rest.foldlM (fun s metaInfo => metaInfo.entries.foldlM mergeEntry s) (first,[]) = .ok (first,[]) := by
    induction rest with
    | nil => rfl
    | cons m rest ih =>
      obtain rfl := same m List.mem_cons_self
      rw [List.foldlM_cons,mergeEntries_kept m.entries (m,[]) names (fun _ member => member)]
      exact ih (fun m' after => same m' (List.mem_cons_of_mem _ after))
  rw [mergeMeta,List.foldlM_cons,run]
  simp only [bind,Except.bind,later]
  rfl

end Merging


/-- Numbers, and lists and dictionaries written entry by entry. -/
inductive Item where
  | none
  | int (n : Int)
  | nil
  | cons (head tail : Item)
  | emptyDict
  | entry (key : String) (value rest : Item)
  deriving DecidableEq

namespace Item

def asList : Item → Option (List Item)
  | nil => some []
  | cons head tail => (asList tail).map (head :: ·)
  | _ => Option.none

def ofList : List Item → Item
  | [] => nil
  | head :: tail => cons head (ofList tail)

def entries : Item → Option (List (String × Item))
  | emptyDict => some []
  | entry key value rest => (entries rest).map ((key,value) :: ·)
  | _ => Option.none

def asDict (value : Item) : Option (OrderedDict String Item) :=
  (entries value).map (List.foldl (fun dict entry => dict.set entry.1 entry.2) .empty)

def ofEntries : List (String × Item) → Item
  | [] => emptyDict
  | (key,value) :: entries => entry key value (ofEntries entries)

def typeName : Item → String
  | none => "NoneType"
  | int _ => "int"
  | nil => "list"
  | cons _ _ => "list"
  | emptyDict => "dict"
  | entry _ _ _ => "dict"

instance : MetaValue Item where
  isNone value := value = none
  asList
  asDict
  ofLists columns := ofEntries (columns.entries.map (fun column => (column.1,ofList column.2)))
  typeName

end Item

/-- The metrics of two workers become lists; other values stay. -/
example : (mergeMeta [⟨[("step",Item.int 3),("metrics",.entry "loss" (.int 1) .emptyDict)],by decide⟩,
    ⟨[("metrics",.entry "loss" (.int 2) .emptyDict),("step",.int 3)],by decide⟩]).map OrderedDict.entries =
    .ok [("step",.int 3),("metrics",.entry "loss" (.cons (.int 1) (.cons (.int 2) .nil)) .emptyDict)] := by decide

end MetaInfo

end RelayOpd
