import RelayOpd.OrderedDict
import RelayOpd.PyDict
import Mathlib.Data.List.MinMax

/-! The load balancer of the generation servers, run beside a record of the acquires that
have not been released. Releases name a server only, so a server that comes back may see
the releases of acquires made before it left. -/
namespace RelayOpd

/-- The `LRUCache` of sticky sessions, as far as the load balancer uses it. -/
structure RoutingCache (σ : Type) where
  lookup : σ → String → Option (String × σ)
  store : σ → String → String → Except String σ
  delete : σ → String → σ

structure LoadBalancer (σ H : Type) where
  servers : PyDict String H
  inflightRequests : OrderedDict String Nat
  requestIdToServer : σ

namespace LoadBalancer

variable {σ H : Type} (cache : RoutingCache σ) (b : LoadBalancer σ H)

def init (servers : OrderedDict String H) (empty : σ) : Except String (LoadBalancer σ H) :=
  if servers.entries = [] then .error "servers must be non-empty"
  else .ok {
    servers := servers.get?
    inflightRequests := servers.keys.foldl (fun d sid => d.set sid 0) .empty
    requestIdToServer := empty }

/-- `min(self._inflight_requests, key=self._inflight_requests.get)`. -/
def leastLoaded : Option String := (b.inflightRequests.entries.argmin Prod.snd).map Prod.fst

def take (serverId : String) : Except String (String × H) × LoadBalancer σ H :=
  let taken := { b with inflightRequests :=
    b.inflightRequests.set serverId (b.inflightRequests.getD serverId 0 + 1) }
  match taken.servers.get? serverId with
  | some handle => (.ok (serverId,handle),taken)
  | none => (.error "KeyError",taken)

def select (requestId : String) : Except String (String × H) × LoadBalancer σ H :=
  match b.leastLoaded with
  | none => (.error "No available servers in load balancer",b)
  | some serverId =>
    match cache.store b.requestIdToServer requestId serverId with
    | .error e => (.error e,b)
    | .ok sessions => take { b with requestIdToServer := sessions } serverId

def acquireServer (requestId : String) : Except String (String × H) × LoadBalancer σ H :=
  match cache.lookup b.requestIdToServer requestId with
  | none => select cache b requestId
  | some (serverId,sessions) =>
    if serverId ∈ b.inflightRequests.keys then take { b with requestIdToServer := sessions } serverId
    else select cache { b with requestIdToServer := cache.delete sessions requestId } requestId

def releaseServer (serverId : String) : LoadBalancer σ H :=
  if serverId ∉ b.inflightRequests.keys then b
  else if b.inflightRequests.getD serverId 0 > 0 then
    { b with inflightRequests :=
        b.inflightRequests.set serverId (b.inflightRequests.getD serverId 0 - 1) }
  else b

def addServers (servers : OrderedDict String H) : LoadBalancer σ H :=
  servers.entries.foldl (fun b entry => { b with
    inflightRequests := b.inflightRequests.set entry.1 0
    servers := b.servers.set entry.1 entry.2 }) b

def removeServers (serverIds : List String) : LoadBalancer σ H :=
  serverIds.foldl (fun b sid => { b with
    inflightRequests := b.inflightRequests.pop sid
    servers := b.servers.pop sid }) b

def getInflightCount (serverId : String) : Nat := b.inflightRequests.getD serverId 0

/-- A handle is kept for exactly the servers that are counted. -/
def Paired : Prop := ∀ sid, (b.servers.get? sid).isSome = (b.inflightRequests.get? sid).isSome

/-- What an acquire does: it counts one request for a registered server, or fails and
counts nothing. -/
theorem acquireServer_cases (paired : b.Paired) (requestId : String) :
    (∃ sid handle, sid ∈ b.inflightRequests.keys ∧
      (acquireServer cache b requestId).1 = .ok (sid,handle) ∧
      (acquireServer cache b requestId).2.servers = b.servers ∧
      (acquireServer cache b requestId).2.inflightRequests =
        b.inflightRequests.set sid (b.getInflightCount sid + 1)) ∨
    (∃ e, (acquireServer cache b requestId).1 = .error e ∧
      (acquireServer cache b requestId).2.servers = b.servers ∧
      (acquireServer cache b requestId).2.inflightRequests = b.inflightRequests) := by
  have taken : ∀ (c : LoadBalancer σ H) (sid : String), c.servers = b.servers →
      c.inflightRequests = b.inflightRequests → sid ∈ b.inflightRequests.keys →
      ∃ handle, (take c sid).1 = .ok (sid,handle) ∧ (take c sid).2.servers = b.servers ∧
        (take c sid).2.inflightRequests = b.inflightRequests.set sid (b.getInflightCount sid + 1) := by
    intro c sid servers counts member
    have registered := (b.inflightRequests.mem_keys sid).mp member
    rw [← paired sid] at registered
    obtain ⟨handle,found⟩ := Option.isSome_iff_exists.mp registered
    refine ⟨handle,?_⟩
    simp only [take,servers,counts,found,true_and]
    rfl
  have selected : ∀ c : LoadBalancer σ H, c.servers = b.servers →
      c.inflightRequests = b.inflightRequests →
      (∃ sid handle, sid ∈ b.inflightRequests.keys ∧ (select cache c requestId).1 = .ok (sid,handle) ∧
        (select cache c requestId).2.servers = b.servers ∧
        (select cache c requestId).2.inflightRequests =
          b.inflightRequests.set sid (b.getInflightCount sid + 1)) ∨
      (∃ e, (select cache c requestId).1 = .error e ∧ (select cache c requestId).2.servers = b.servers ∧
        (select cache c requestId).2.inflightRequests = b.inflightRequests) := by
    intro c servers counts
    unfold select
    cases least : c.leastLoaded with
    | none => exact .inr ⟨_,rfl,servers,counts⟩
    | some sid =>
      have member : sid ∈ b.inflightRequests.keys := by
        obtain ⟨entry,found,rfl⟩ := Option.map_eq_some_iff.mp least
        exact counts ▸ List.mem_map_of_mem (List.argmin_mem found)
      cases stored : cache.store c.requestIdToServer requestId sid with
      | error e => exact .inr ⟨e,by simp only [stored],by simp only [stored,servers],
          by simp only [stored,counts]⟩
      | ok sessions =>
        obtain ⟨handle,outcome⟩ := taken { c with requestIdToServer := sessions } sid servers counts member
        simp only [stored]
        exact .inl ⟨sid,handle,member,outcome⟩
  unfold acquireServer
  cases cache.lookup b.requestIdToServer requestId with
  | none => exact selected b rfl rfl
  | some found =>
    obtain ⟨sid,sessions⟩ := found
    by_cases member : sid ∈ b.inflightRequests.keys
    · obtain ⟨handle,outcome⟩ := taken { b with requestIdToServer := sessions } sid rfl rfl member
      simp only [if_pos member]
      exact .inl ⟨sid,handle,member,outcome⟩
    · simp only [if_neg member]
      exact selected { b with requestIdToServer := cache.delete sessions requestId } rfl rfl

theorem addServers_get? (servers : OrderedDict String H) (sid : String) :
    (b.addServers servers).inflightRequests.get? sid =
      if sid ∈ servers.keys then some 0 else b.inflightRequests.get? sid := by
  unfold addServers OrderedDict.keys
  induction servers.entries using List.reverseRecOn with
  | nil => simp
  | append_singleton entries entry ih =>
    rw [List.foldl_append,List.foldl_cons,List.foldl_nil,List.map_append]
    by_cases same : sid = entry.1
    · simp [same]
    · simp only [OrderedDict.get?_set_other _ _ _ _ same,ih]
      exact if_congr (by simp [same]) rfl rfl

theorem addServers_paired (paired : b.Paired) (servers : OrderedDict String H) :
    (b.addServers servers).Paired := by
  unfold addServers
  induction servers.entries using List.reverseRecOn with
  | nil => exact paired
  | append_singleton entries entry ih =>
    intro sid
    rw [List.foldl_append,List.foldl_cons,List.foldl_nil]
    by_cases same : sid = entry.1
    · simp [same]
    · simpa [same] using ih sid

theorem removeServers_get? (serverIds : List String) (sid : String) :
    (b.removeServers serverIds).inflightRequests.get? sid =
      if sid ∈ serverIds then none else b.inflightRequests.get? sid := by
  unfold removeServers
  induction serverIds using List.reverseRecOn with
  | nil => simp
  | append_singleton serverIds last ih =>
    rw [List.foldl_append,List.foldl_cons,List.foldl_nil]
    by_cases same : sid = last
    · simp [same]
    · simp only [OrderedDict.get?_pop_other _ _ _ same,ih]
      simp [same]

theorem removeServers_paired (paired : b.Paired) (serverIds : List String) :
    (b.removeServers serverIds).Paired := by
  unfold removeServers
  induction serverIds using List.reverseRecOn with
  | nil => exact paired
  | append_singleton serverIds last ih =>
    intro sid
    rw [List.foldl_append,List.foldl_cons,List.foldl_nil]
    by_cases same : sid = last
    · simp [same]
    · simpa [same] using ih sid

theorem releaseServer_get? (serverId sid : String) :
    (b.releaseServer serverId).inflightRequests.get? sid =
      (b.inflightRequests.get? sid).map (fun n => if sid = serverId then n - 1 else n) := by
  unfold releaseServer
  by_cases member : serverId ∈ b.inflightRequests.keys
  · obtain ⟨n,found⟩ := Option.isSome_iff_exists.mp ((b.inflightRequests.mem_keys serverId).mp member)
    rw [if_neg (not_not.mpr member)]
    by_cases same : sid = serverId
    · subst same
      rw [OrderedDict.getD,found,Option.getD_some]
      split
      · simp
      · have zero : n = 0 := by omega
        simp [found,zero]
    · split
      · simp [same]
      · simp
  · rw [if_pos member]
    by_cases same : sid = serverId
    · subst same
      have missing : b.inflightRequests.get? sid = none := by
        simpa using mt (b.inflightRequests.mem_keys sid).mpr member
      simp [missing]
    · simp [same]

theorem releaseServer_paired (paired : b.Paired) (serverId : String) :
    (b.releaseServer serverId).Paired := by
  intro sid
  rw [releaseServer_get?,Option.isSome_map,← paired sid]
  unfold releaseServer
  split
  · rfl
  · split <;> rfl

end LoadBalancer

section Tracked

variable {σ H : Type}

/-- The load balancer, with every acquire that is not released yet as the server and its
registration number at the time. A server's number grows when it is registered anew. -/
structure Tracked (σ H : Type) where
  balancer : LoadBalancer σ H
  pending : List (String × Nat)
  registrations : String → Nat

inductive Call (H : Type) where
  | acquire (requestId : String)
  | release (acquired : String × Nat)
  | addServers (servers : OrderedDict String H)
  | removeServers (serverIds : List String)

variable (cache : RoutingCache σ) (s : Tracked σ H)

def Tracked.Registered (sid : String) : Prop := sid ∈ s.balancer.inflightRequests.keys

instance (sid : String) : Decidable (s.Registered sid) :=
  inferInstanceAs (Decidable (sid ∈ s.balancer.inflightRequests.keys))

def Tracked.step : Call H → Tracked σ H
  | .acquire requestId =>
    let outcome := s.balancer.acquireServer cache requestId
    match outcome.1 with
    | .ok (sid,_) => { s with
        balancer := outcome.2
        pending := (sid,s.registrations sid) :: s.pending }
    | .error _ => { s with balancer := outcome.2 }
  | .release acquired => { s with
      balancer := s.balancer.releaseServer acquired.1
      pending := s.pending.erase acquired }
  | .addServers servers => { s with
      balancer := s.balancer.addServers servers
      registrations := fun sid => if sid ∈ servers.keys ∧ ¬ s.Registered sid
        then s.registrations sid + 1 else s.registrations sid }
  | .removeServers serverIds => { s with balancer := s.balancer.removeServers serverIds }

/-- Acquires of the server since it was registered that have not been released. -/
def Tracked.outstanding (sid : String) : Nat := s.pending.count (sid,s.registrations sid)

/-- A release matches an acquire, once. -/
def Call.Allowed : Call H → Prop
  | .release acquired => acquired ∈ s.pending
  | _ => True

/-- The counts are exact, and the server that would be picked has the fewest requests. -/
structure Tracked.Exact : Prop where
  counts : ∀ sid, s.Registered sid → s.balancer.getInflightCount sid = s.outstanding sid
  least : ∀ picked, s.balancer.leastLoaded = some picked →
    ∀ sid, s.Registered sid → s.outstanding picked ≤ s.outstanding sid

/-- No counted server is registered again while requests are in flight, and no acquire
from before a removal is released while the server counts others. -/
def Call.Clean : Call H → Prop
  | .release acquired => s.Registered acquired.1 →
      acquired.2 = s.registrations acquired.1 ∨ s.balancer.getInflightCount acquired.1 = 0
  | .addServers servers => ∀ sid ∈ servers.keys, s.Registered sid →
      s.balancer.getInflightCount sid = 0
  | _ => True

/-- What holds in every run. -/
structure Tracked.Sound : Prop where
  paired : s.balancer.Paired
  known : ∀ acquired ∈ s.pending, acquired.2 ≤ s.registrations acquired.1

theorem Tracked.registered_iff (sid : String) :
    s.Registered sid ↔ (s.balancer.inflightRequests.get? sid).isSome = true :=
  s.balancer.inflightRequests.mem_keys sid

theorem Tracked.counts_iff :
    (∀ sid, s.Registered sid → s.balancer.getInflightCount sid = s.outstanding sid) ↔
      ∀ sid n, s.balancer.inflightRequests.get? sid = some n → n = s.outstanding sid := by
  constructor
  · intro counts sid n found
    have here := counts sid ((s.registered_iff sid).mpr (by rw [found]; rfl))
    rwa [LoadBalancer.getInflightCount,OrderedDict.getD,found] at here
  · intro counts sid registered
    obtain ⟨n,found⟩ := Option.isSome_iff_exists.mp ((s.registered_iff sid).mp registered)
    rw [LoadBalancer.getInflightCount,OrderedDict.getD,found]
    exact counts sid n found

/-- With exact counts the pick is the least loaded server in truth. -/
theorem Tracked.exact_iff :
    s.Exact ↔ ∀ sid n, s.balancer.inflightRequests.get? sid = some n → n = s.outstanding sid := by
  constructor
  · exact fun exact => (s.counts_iff).mp exact.counts
  · intro counts
    refine ⟨(s.counts_iff).mpr counts,?_⟩
    intro picked least sid registered
    obtain ⟨⟨chosen,n⟩,minimal,rfl⟩ := Option.map_eq_some_iff.mp least
    obtain ⟨m,found⟩ := Option.isSome_iff_exists.mp ((s.registered_iff sid).mp registered)
    have own := (s.balancer.inflightRequests.mem_entries chosen n).mp (List.argmin_mem minimal)
    have other := (s.balancer.inflightRequests.mem_entries sid m).mpr found
    rw [← counts chosen n own,← counts sid m found]
    exact List.le_of_mem_argmin other minimal

theorem Tracked.step_sound (sound : s.Sound) (call : Call H) : (s.step cache call).Sound := by
  cases call with
  | acquire requestId =>
    rcases s.balancer.acquireServer_cases cache sound.paired requestId with
      ⟨sid,handle,member,outcome,servers,counts⟩ | ⟨e,outcome,servers,counts⟩
    · simp only [Tracked.step,outcome]
      refine ⟨fun other => ?_,?_⟩
      · rw [servers,counts,sound.paired other]
        by_cases same : other = sid
        · subst same
          rw [OrderedDict.get?_set_same]
          exact (s.registered_iff other).mp member
        · rw [OrderedDict.get?_set_other _ _ _ _ same]
      · intro acquired inside
        rcases List.mem_cons.mp inside with rfl | before
        · exact Nat.le_refl _
        · exact sound.known acquired before
    · simp only [Tracked.step,outcome]
      refine ⟨fun other => ?_,sound.known⟩
      rw [servers,counts,sound.paired other]
  | release acquired =>
    exact ⟨s.balancer.releaseServer_paired sound.paired _,
      fun other inside => sound.known other (List.mem_of_mem_erase inside)⟩
  | addServers servers =>
    refine ⟨s.balancer.addServers_paired sound.paired servers,fun acquired inside => ?_⟩
    have before := sound.known acquired inside
    simp only [Tracked.step]
    split <;> omega
  | removeServers serverIds =>
    exact ⟨s.balancer.removeServers_paired sound.paired serverIds,sound.known⟩

/-- From exact counts, a call keeps them exactly when it is clean. -/
theorem Tracked.step_exact (sound : s.Sound) (exact : s.Exact) (call : Call H) (allowed : call.Allowed s) :
    (s.step cache call).Exact ↔ call.Clean s := by
  have counts := s.exact_iff.mp exact
  rw [Tracked.exact_iff]
  cases call with
  | acquire requestId =>
    refine ⟨fun _ => trivial,fun _ other n found => ?_⟩
    rcases s.balancer.acquireServer_cases cache sound.paired requestId with
      ⟨sid,handle,member,outcome,servers,taken⟩ | ⟨e,outcome,servers,kept⟩
    · simp only [Tracked.step,outcome,taken] at found ⊢
      by_cases same : other = sid
      · subst same
        rw [OrderedDict.get?_set_same] at found
        have here := exact.counts other member
        simp only [Tracked.outstanding,List.count_cons_self] at here ⊢
        rw [← Option.some.inj found,here]
      · rw [OrderedDict.get?_set_other _ _ _ _ same] at found
        rw [counts other n found]
        simp [Tracked.outstanding,Ne.symm same]
    · simp only [Tracked.step,outcome,kept] at found ⊢
      exact counts other n found
  | release acquired =>
    obtain ⟨sid,number⟩ := acquired
    have held : (sid,number) ∈ s.pending := allowed
    simp only [Tracked.step,Call.Clean,LoadBalancer.releaseServer_get?,Tracked.outstanding]
    constructor
    · intro kept registered
      by_contra stale
      push Not at stale
      obtain ⟨other,filled⟩ := stale
      obtain ⟨n,found⟩ := Option.isSome_iff_exists.mp ((s.registered_iff sid).mp registered)
      have lowered := kept sid (n - 1) (by rw [found]; simp)
      have before := counts sid n found
      rw [List.count_erase_of_ne (by simpa using Ne.symm other)] at lowered
      rw [LoadBalancer.getInflightCount,OrderedDict.getD,found,Option.getD_some] at filled
      unfold Tracked.outstanding at before
      omega
    · intro clean other n found
      obtain ⟨m,before,lowered⟩ := Option.map_eq_some_iff.mp found
      have here := counts other m before
      unfold Tracked.outstanding at here
      by_cases same : other = sid
      · subst same
        rw [if_pos rfl] at lowered
        rcases clean ((s.registered_iff other).mpr (by rw [before]; rfl)) with current | empty
        · rw [current,List.count_erase_self,← here,lowered]
        · rw [LoadBalancer.getInflightCount,OrderedDict.getD,before,Option.getD_some] at empty
          have kept := (List.erase_sublist : (s.pending.erase (other,number)).Sublist s.pending).count_le
            (other,s.registrations other)
          omega
      · rw [if_neg same] at lowered
        rw [List.count_erase_of_ne (by simp [same]),← here,lowered]
  | addServers servers =>
    simp only [Tracked.step,Call.Clean,LoadBalancer.addServers_get?,Tracked.outstanding]
    constructor
    · intro kept sid member registered
      have reset := kept sid 0 (if_pos member)
      rw [if_neg (fun fresh => fresh.2 registered)] at reset
      exact (exact.counts sid registered).trans reset.symm
    · intro clean other n found
      by_cases member : other ∈ servers.keys
      · rw [if_pos member] at found
        obtain rfl := Option.some.inj found
        by_cases registered : s.Registered other
        · rw [if_neg (fun fresh => fresh.2 registered)]
          exact (clean other member registered).symm.trans (exact.counts other registered)
        · rw [if_pos ⟨member,registered⟩]
          refine (List.count_eq_zero.mpr (fun inside => ?_)).symm
          have old : s.registrations other + 1 ≤ s.registrations other := sound.known _ inside
          omega
      · rw [if_neg member] at found
        rw [if_neg (fun fresh => member fresh.1)]
        exact counts other n found
  | removeServers serverIds =>
    refine ⟨fun _ => trivial,fun _ other n found => ?_⟩
    simp only [Tracked.step,LoadBalancer.removeServers_get?] at found
    split at found
    · cases found
    · exact counts other n found

/-- A property of every state of a run. -/
def Tracked.Throughout (P : Tracked σ H → Prop) (s : Tracked σ H) : List (Call H) → Prop
  | [] => P s
  | call :: calls => P s ∧ (s.step cache call).Throughout P calls

/-- A property of every call of a run, in the state it is made. -/
def Tracked.EachCall (Q : Tracked σ H → Call H → Prop) (s : Tracked σ H) : List (Call H) → Prop
  | [] => True
  | call :: calls => Q s call ∧ (s.step cache call).EachCall Q calls

variable {cache s}

theorem Tracked.Throughout.first {P : Tracked σ H → Prop} {calls : List (Call H)}
    (all : s.Throughout cache P calls) : P s := by
  cases calls with
  | nil => exact all
  | cons call calls => exact all.1

/-- From a state with exact counts, they stay exact exactly when every call is clean. -/
theorem Tracked.run_exact (sound : s.Sound) (exact : s.Exact) (calls : List (Call H))
    (legal : s.EachCall cache (fun s call => call.Allowed s) calls) :
    s.Throughout cache Tracked.Exact calls ↔ s.EachCall cache (fun s call => call.Clean s) calls := by
  induction calls generalizing s with
  | nil => exact ⟨fun _ => trivial,fun _ => exact⟩
  | cons call calls ih =>
    obtain ⟨allowed,later⟩ := legal
    have step := s.step_exact cache sound exact call allowed
    constructor
    · rintro ⟨_,rest⟩
      have kept := rest.first
      exact ⟨step.mp kept,(ih (s.step_sound cache sound call) kept later).mp rest⟩
    · rintro ⟨clean,rest⟩
      exact ⟨exact,(ih (s.step_sound cache sound call) (step.mpr clean) later).mpr rest⟩

variable (cache)

/-- A load balancer before its first call. -/
def Tracked.start (b : LoadBalancer σ H) : Tracked σ H := ⟨b,[],fun _ => 0⟩

theorem inflight_counts_exact (servers : OrderedDict String H) (empty : σ) (b : LoadBalancer σ H)
    (created : LoadBalancer.init servers empty = .ok b) (calls : List (Call H))
    (legal : (Tracked.start b).EachCall cache (fun s call => call.Allowed s) calls) :
    (Tracked.start b).Throughout cache Tracked.Exact calls ↔
      (Tracked.start b).EachCall cache (fun s call => call.Clean s) calls := by
  unfold LoadBalancer.init at created
  split at created
  · cases created
  · obtain rfl := Except.ok.inj created
    refine Tracked.run_exact ⟨fun sid => ?_,by simp [Tracked.start]⟩ ?_ calls legal
    · simp only [Tracked.start,OrderedDict.foldl_set_get?,OrderedDict.get?_empty]
      have listed := servers.mem_keys sid
      by_cases member : sid ∈ servers.keys
      · rw [if_pos member]
        exact listed.mp member
      · rw [if_neg member]
        simpa [PyDict.get?] using mt listed.mpr member
    · refine (Tracked.exact_iff _).mpr (fun sid n found => ?_)
      simp only [Tracked.start,OrderedDict.foldl_set_get?,OrderedDict.get?_empty] at found
      split at found
      · simpa [Tracked.start,Tracked.outstanding,eq_comm] using found
      · cases found

end Tracked

section Example

/-- Least recently used sessions go first. -/
def lruCache (maxsize : Nat) : RoutingCache (List (String × String)) where
  lookup sessions requestId := (sessions.find? (fun entry => entry.1 = requestId)).map (fun entry =>
    (entry.2,sessions.filter (fun other => other.1 ≠ requestId) ++ [entry]))
  store sessions requestId serverId :=
    if maxsize = 0 then .error "value too large"
    else .ok (sessions.drop (sessions.length + 1 - maxsize) ++ [(requestId,serverId)])
  delete sessions requestId := sessions.filter (fun other => other.1 ≠ requestId)

def oneServer : OrderedDict String Nat := ⟨[("a",0)],by simp⟩

def oneBalancer : LoadBalancer (List (String × String)) Nat where
  servers := oneServer.get?
  inflightRequests := OrderedDict.empty.set "a" 0
  requestIdToServer := []

/-- The server leaves and returns after its request has been released. -/
theorem inflight_counts_exact_returning :
    (Tracked.start oneBalancer).Throughout (lruCache 10) Tracked.Exact
      [.acquire "r",.release ("a",0),.removeServers ["a"],.addServers oneServer,.acquire "r"] := by
  have legal : (Tracked.start oneBalancer).EachCall (lruCache 10) (fun s call => call.Allowed s)
      [.acquire "r",.release ("a",0),.removeServers ["a"],.addServers oneServer,.acquire "r"] :=
    ⟨trivial,List.mem_singleton.mpr rfl,trivial,trivial,trivial,trivial⟩
  refine (inflight_counts_exact (lruCache 10) oneServer [] oneBalancer rfl _ legal).mpr
    ⟨trivial,fun _ => Or.inl rfl,trivial,?_,trivial,trivial⟩
  intro sid _ registered
  cases registered

/-- A late release lowers the count of the request that came after the server's return. -/
theorem late_release_lowers_count :
    (Tracked.start oneBalancer).EachCall (lruCache 10) (fun s call => call.Allowed s)
      [.acquire "r",.removeServers ["a"],.addServers oneServer,.acquire "q",.release ("a",0)] ∧
    ¬ (Tracked.start oneBalancer).Throughout (lruCache 10) Tracked.Exact
      [.acquire "r",.removeServers ["a"],.addServers oneServer,.acquire "q",.release ("a",0)] := by
  refine ⟨⟨trivial,trivial,trivial,trivial,List.mem_cons_of_mem _ (List.mem_singleton.mpr rfl),trivial⟩,?_⟩
  rintro ⟨_,_,_,_,_,last⟩
  have counts := last.counts "a" (List.mem_singleton.mpr rfl)
  cases counts

end Example

end RelayOpd
