import OpenBalenaVpn.Worker.Drain
import OpenBalenaVpn.Worker.Lemmas
import Mathlib.Data.List.Infix

namespace OpenBalenaVpn.Worker

open Transition

variable {Uuid : Type}

section Turns

-- A turn of the worker while it drains: an event, or a call of `killClient` that
-- settles. The error of a kill is caught and logged, and nothing waits for it.
inductive Turn (Uuid : Type) where
  | event (event : Event Uuid)
  | killSettled (index kill : Nat) (failed : Bool)

def State.turn (config : Config) (worker : State Uuid) : Turn Uuid → Option (State Uuid)
  | .event event => step config worker event
  | .killSettled index kill _ =>
      if worker.exitCode.isSome then none
      else match worker.drains[index]? with
        | some drain => if kill < drain.killed.length then some worker else none
        | none => none

def Turn.establishedId : Turn Uuid → Option Nat
  | .event (.established clientId _ _) => some clientId
  | _ => none

def establishedIds (turns : List (Turn Uuid)) : List Nat := turns.filterMap Turn.establishedId

-- The uuids of the cached clients in the order in which the loop meets them.
def State.uuids (worker : State Uuid) : List Uuid := worker.clientCache.values.map (·.uuid)

-- The call awaits HAProxy or is in the loop.
def Drain.running (drain : Drain Uuid) : Bool :=
  drain.phase ≠ .signalled && drain.phase ≠ .failed

end Turns

section Step

-- What an event does to the cache. No listener takes a client out of it.
inductive CacheStep (worker next : State Uuid) : Event Uuid → Prop
  | same {event : Event Uuid} (hcache : next.clientCache = worker.clientCache) :
      CacheStep worker next event
  | established {clientId : Nat} {uuid : Uuid} {now : Nat}
      (hcache : next.clientCache = worker.clientCache.set clientId ⟨uuid, now, 0, 0⟩) :
      CacheStep worker next (.established clientId uuid now)
  | reported {event : Event Uuid} {clientId : Nat} {clientEntry entry : ClientEntry Uuid}
      (hget : worker.clientCache.get clientId = some clientEntry)
      (huuid : entry.uuid = clientEntry.uuid)
      (hcache : next.clientCache = worker.clientCache.set clientId entry) :
      CacheStep worker next event

-- What an event does to the calls of the body. The last two constructors are the
-- loop: it kills the next cached client, or finds none and tells the primary.
inductive DrainStep (config : Config) (worker next : State Uuid) : Event Uuid → Prop
  | kept {event : Event Uuid} (hdrains : next.drains = worker.drains)
      (hcache : CacheStep worker next event)
      (hsent : ∃ messages, next.sent = worker.sent ++ messages ∧
        .drain config.instanceId true ∉ messages)
      (hexit : next.exitCode = worker.exitCode ∨ next.exitCode = some 1 ∨
        ∃ drain ∈ worker.drains, drain.phase = .signalled) :
      DrainStep config worker next event
  | started {event : Event Uuid} (hdrains : next.drains = worker.drains ++ [⟨.connecting, []⟩])
      (hcache : next.clientCache = worker.clientCache) (hsent : next.sent = worker.sent)
      (hexit : next.exitCode = worker.exitCode) : DrainStep config worker next event
  | failed {index : Nat} {killed : List Uuid}
      (hget : worker.drains[index]? = some ⟨.connecting, killed⟩)
      (hdrains : next.drains = worker.drains.set index ⟨.failed, killed⟩ ++ [⟨.connecting, []⟩])
      (hcache : next.clientCache = worker.clientCache) (hsent : next.sent = worker.sent)
      (hexit : next.exitCode = worker.exitCode) :
      DrainStep config worker next (.haproxy index false)
  | killed {event : Event Uuid} {index : Nat} {drain : Drain Uuid} {uuid : Uuid} {delayMs : ℚ}
      (hevent : event = .haproxy index true ∨ event = .timeout index)
      (hget : worker.drains[index]? = some drain) (hrunning : drain.running = true)
      (huuid : worker.uuids[drain.killed.length]? = some uuid)
      (hdrains : next.drains = worker.drains.set index ⟨.killing delayMs, drain.killed ++ [uuid]⟩)
      (hcache : next.clientCache = worker.clientCache) (hsent : next.sent = worker.sent)
      (hexit : next.exitCode = worker.exitCode) : DrainStep config worker next event
  | signalled {event : Event Uuid} {index : Nat} {drain : Drain Uuid}
      (hevent : event = .haproxy index true ∨ event = .timeout index)
      (hget : worker.drains[index]? = some drain) (hrunning : drain.running = true)
      (hlast : worker.uuids.length ≤ drain.killed.length)
      (hdrains : next.drains = worker.drains.set index ⟨.signalled, drain.killed⟩)
      (hcache : next.clientCache = worker.clientCache)
      (hsent : next.sent = worker.sent ++ [.drain config.instanceId true])
      (hexit : next.exitCode = worker.exitCode) : DrainStep config worker next event

variable {config : Config} {worker next : State Uuid}

theorem kept_of_sent_eq {event : Event Uuid} (hdrains : next.drains = worker.drains)
    (hcache : CacheStep worker next event) (hsent : next.sent = worker.sent)
    (hexit : next.exitCode = worker.exitCode ∨ next.exitCode = some 1 ∨
      ∃ drain ∈ worker.drains, drain.phase = .signalled) : DrainStep config worker next event :=
  .kept hdrains hcache ⟨[], by rw [hsent, List.append_nil], List.not_mem_nil⟩ hexit

theorem killNext_drainStep {event : Event Uuid} {index : Nat} {drain : Drain Uuid} (delayMs : ℚ)
    (hevent : event = .haproxy index true ∨ event = .timeout index)
    (hget : worker.drains[index]? = some drain) (hrunning : drain.running = true) :
    DrainStep config worker (worker.killNext config index drain delayMs) event := by
  unfold State.killNext
  split
  · rename_i entry hentry
    have huuid : worker.uuids[drain.killed.length]? = some entry.uuid := by
      rw [State.uuids, List.getElem?_map, hentry]
      rfl
    exact .killed hevent hget hrunning huuid rfl rfl rfl rfl
  · rename_i hnone
    have hlast : worker.uuids.length ≤ drain.killed.length := by
      rw [State.uuids, List.length_map]
      exact List.getElem?_eq_none_iff.mp hnone
    exact .signalled hevent hget hrunning hlast rfl rfl rfl rfl

theorem haproxy_drainStep {index : Nat} {connected : Bool} (h : Registered worker)
    (hs : worker.haproxy config index connected = some next) :
    DrainStep config worker next (.haproxy index connected) := by
  obtain ⟨killed, hget, ⟨rfl, _, rfl⟩ | ⟨rfl, hcount, rfl⟩ | ⟨rfl, rfl⟩⟩ := haproxy_cases hs
  · exact killNext_drainStep _ (Or.inl rfl) hget rfl
  · have hempty : worker.uuids.length = 0 := by
      rw [State.uuids, List.length_map, OrderedMap.length_values, hcount]
    exact .signalled (Or.inl rfl) hget rfl (by omega) rfl rfl rfl rfl
  · have hset : Registered (worker.setDrain index ⟨.failed, killed⟩) := h
    rw [emit_eq_call hset]
    exact .failed hget rfl rfl rfl rfl

theorem timeout_drainStep {index : Nat} (hs : worker.timeout config index = some next) :
    DrainStep config worker next (.timeout index) := by
  obtain ⟨killed, ⟨delayMs, hget, rfl⟩ | ⟨hget, rfl⟩⟩ := timeout_cases hs
  · exact killNext_drainStep delayMs (Or.inr rfl) hget rfl
  · exact kept_of_sent_eq rfl (.same rfl) rfl
      (Or.inr (Or.inr ⟨_, List.mem_of_getElem? hget, rfl⟩))

theorem writeBandwidthMetrics_drainStep (worker : State Uuid) (clientId : Nat)
    (bytesReceived bytesSent : Int) (now : Nat) {event : Event Uuid} :
    DrainStep config worker (worker.writeBandwidthMetrics clientId bytesReceived bytesSent now)
      event := by
  unfold State.writeBandwidthMetrics
  split
  · exact kept_of_sent_eq rfl (.same rfl) rfl (Or.inl rfl)
  · rename_i clientEntry hentry
    refine .kept rfl (.reported hentry ?_ rfl) ?_ (Or.inl rfl)
    · rfl
    · by_cases htime : (now : Int) - clientEntry.ts > 0
      · exact ⟨_, by simp only [htime, if_true]; rfl, by simp⟩
      · exact ⟨[], by simp only [htime, if_false, List.append_nil], List.not_mem_nil⟩

theorem call_drainStep {event : Event Uuid} (listener : DrainConnections) (worker : State Uuid) :
    DrainStep config worker (listener.call worker) event := by
  cases listener with
  | body => exact .started rfl rfl rfl rfl
  | noop => exact kept_of_sent_eq rfl (.same rfl) rfl (Or.inl rfl)

theorem step_drainStep {event : Event Uuid} (h : Registered worker)
    (hs : step config worker event = some next) : DrainStep config worker next event := by
  cases (step_stepped hs).2 with
  | signal eventType =>
      rw [emit_eq_call h]
      exact .started rfl rfl rfl rfl
  | prepareShutdown => exact call_drainStep _ worker
  | tooEarly | toggleVerbosity | ready => exact kept_of_sent_eq rfl (.same rfl) rfl (Or.inl rfl)
  | fatalError => exact kept_of_sent_eq rfl (.same rfl) rfl (Or.inr (Or.inl rfl))
  | established => exact kept_of_sent_eq rfl (.established rfl) rfl (Or.inl rfl)
  | bytecount clientId bytesReceived bytesSent now =>
      exact writeBandwidthMetrics_drainStep worker clientId bytesReceived bytesSent now
  | haproxy hnext => exact haproxy_drainStep h hnext
  | timeout hnext => exact timeout_drainStep hnext

end Step

section Covered

variable {config : Config} {worker next : State Uuid}

theorem DrainStep.cacheStep {event : Event Uuid} (h : DrainStep config worker next event) :
    CacheStep worker next event := by
  cases h with
  | kept _ hcache => exact hcache
  | started _ hcache | failed _ _ hcache => exact .same hcache
  | killed _ _ _ _ _ hcache | signalled _ _ _ _ _ hcache => exact .same hcache

-- What the loop of a call has killed so far, against the clients it has yet to go through.
def Covered (related : List Uuid → List Uuid → Prop) (uuids : List Uuid) (drain : Drain Uuid) :
    Prop :=
  drain.running = true → related drain.killed uuids

-- Fresh clients come last in the cache, and a report leaves all uuids where they are.
theorem CacheStep.uuids {event : Event Uuid} (h : CacheStep worker next event)
    (hfresh : ∀ clientId, (Turn.event event).establishedId = some clientId →
      clientId ∉ worker.clientCache.keys) : worker.uuids <+: next.uuids := by
  cases h with
  | same hcache =>
      rw [State.uuids, State.uuids, hcache]
  | @established clientId uuid now hcache =>
      have hnone := (OrderedMap.get_eq_none_iff _ _).mpr (hfresh clientId rfl)
      rw [State.uuids, State.uuids, hcache, OrderedMap.values_set_of_get_eq_none hnone,
        List.map_append]
      exact List.prefix_append _ _
  | reported hget huuid hcache =>
      rw [State.uuids, State.uuids, hcache, OrderedMap.map_values_set hget huuid]

theorem CacheStep.keys {event : Event Uuid} (h : CacheStep worker next event) {clientId : Nat}
    (hmem : clientId ∈ next.clientCache.keys) :
    clientId ∈ worker.clientCache.keys ∨ (Turn.event event).establishedId = some clientId := by
  cases h with
  | same hcache => exact Or.inl (hcache ▸ hmem)
  | @established added uuid now hcache =>
      rw [hcache, OrderedMap.mem_keys_iff, OrderedMap.get_set] at hmem
      by_cases hid : added = clientId
      · exact Or.inr (congrArg some hid)
      · rw [if_neg hid] at hmem
        exact Or.inl ((OrderedMap.mem_keys_iff _ _).mpr hmem)
  | @reported _ reported clientEntry _ hget _ hcache =>
      rw [hcache, OrderedMap.mem_keys_iff, OrderedMap.get_set] at hmem
      refine Or.inl ((OrderedMap.mem_keys_iff _ _).mpr ?_)
      by_cases hid : reported = clientId
      · rw [← hid, hget]
        rfl
      · rwa [if_neg hid] at hmem

theorem prefix_concat_of_getElem? {uuids killed : List Uuid} {uuid : Uuid}
    (h : killed <+: uuids) (hnext : uuids[killed.length]? = some uuid) :
    killed ++ [uuid] <+: uuids := by
  obtain ⟨rest, rfl⟩ := h
  rw [List.getElem?_append_right (Nat.le_refl _), Nat.sub_self] at hnext
  obtain ⟨later, rfl⟩ := List.head?_eq_some_iff.mp (List.head?_eq_getElem?.trans hnext)
  exact ⟨later, by simp⟩

-- The calls after an event: those before it, a new one, and the one that it was about.
theorem DrainStep.mem_drains {event : Event Uuid} (h : DrainStep config worker next event)
    {drain : Drain Uuid} (hmem : drain ∈ next.drains) :
    drain ∈ worker.drains ∨ drain = ⟨.connecting, []⟩ ∨ drain.phase = .failed ∨
      (∃ earlier ∈ worker.drains, earlier.running = true ∧ ∃ uuid delayMs,
        worker.uuids[earlier.killed.length]? = some uuid ∧
          drain = ⟨.killing delayMs, earlier.killed ++ [uuid]⟩) ∨
      (drain.phase = .signalled ∧ .drain config.instanceId true ∈ next.sent) := by
  cases h with
  | kept hdrains => exact Or.inl (hdrains ▸ hmem)
  | started hdrains =>
      rw [hdrains, List.mem_append, List.mem_singleton] at hmem
      exact hmem.imp_right Or.inl
  | failed _ hdrains =>
      rw [hdrains, List.mem_append, List.mem_singleton] at hmem
      rcases hmem with hmem | rfl
      · rcases List.mem_or_eq_of_mem_set hmem with hmem | rfl
        · exact Or.inl hmem
        · exact Or.inr (Or.inr (Or.inl rfl))
      · exact Or.inr (Or.inl rfl)
  | @killed _ index earlier uuid delayMs _ hget hrunning huuid hdrains =>
      rcases List.mem_or_eq_of_mem_set (hdrains ▸ hmem) with hmem | rfl
      · exact Or.inl hmem
      · exact Or.inr (Or.inr (Or.inr (Or.inl
          ⟨earlier, List.mem_of_getElem? hget, hrunning, uuid, delayMs, huuid, rfl⟩)))
  | signalled _ _ _ _ hdrains _ hsent =>
      rcases List.mem_or_eq_of_mem_set (hdrains ▸ hmem) with hmem | rfl
      · exact Or.inl hmem
      · refine Or.inr (Or.inr (Or.inr (Or.inr ⟨rfl, ?_⟩)))
        rw [hsent]
        exact List.mem_append_right _ (List.mem_singleton_self _)

-- A relation that the loop keeps when it kills the next client is kept by every event
-- that keeps it for the cache.
theorem DrainStep.covered {related : List Uuid → List Uuid → Prop} {event : Event Uuid}
    (h : DrainStep config worker next event) (hnil : ∀ uuids, related [] uuids)
    (hnext : ∀ killed uuids uuid, related killed uuids → uuids[killed.length]? = some uuid →
      related (killed ++ [uuid]) uuids)
    (huuids : ∀ killed, related killed worker.uuids → related killed next.uuids)
    (hcovered : ∀ drain ∈ worker.drains, Covered related worker.uuids drain) :
    ∀ drain ∈ next.drains, Covered related next.uuids drain := by
  intro drain hmem hrunning
  rcases h.mem_drains hmem with
    hold | rfl | hfailed | ⟨earlier, hearlier, hran, uuid, delayMs, huuid, rfl⟩ | ⟨hsignalled, _⟩
  · exact huuids _ (hcovered drain hold hrunning)
  · exact hnil _
  · simp [Drain.running, hfailed] at hrunning
  · exact huuids _ (hnext _ _ uuid (hcovered earlier hearlier hran) huuid)
  · simp [Drain.running, hsignalled] at hrunning

-- Each call has killed a part of the clients at the front of the cache.
structure Draining (turns : List (Turn Uuid)) (worker : State Uuid) : Prop where
  registered : Registered worker
  cached : ∀ clientId ∈ worker.clientCache.keys, clientId ∈ establishedIds turns
  covered : ∀ drain ∈ worker.drains, Covered (· <+: ·) worker.uuids drain

theorem draining_initial (verbose : Bool) :
    Draining [] (State.initial verbose : State Uuid) where
  registered := rfl
  cached := nofun
  covered := nofun

theorem turn_event {turn : Turn Uuid} (h : worker.turn config turn = some next) :
    (∃ event, turn = .event event ∧ step config worker event = some next) ∨
      (turn.establishedId = none ∧ next = worker) := by
  cases turn with
  | event event => exact Or.inl ⟨event, rfl, h⟩
  | killSettled index kill failed =>
      refine Or.inr ⟨rfl, ?_⟩
      simp only [State.turn] at h
      split at h
      · cases h
      · split at h
        · split at h
          · exact (Option.some.inj h).symm
          · cases h
        · cases h

theorem establishedIds_concat (turns : List (Turn Uuid)) (turn : Turn Uuid) :
    establishedIds (turns ++ [turn]) = establishedIds turns ++ turn.establishedId.toList := by
  cases h : turn.establishedId <;> simp [establishedIds, h]

theorem Draining.fresh {turns : List (Turn Uuid)} {turn : Turn Uuid}
    (h : Draining turns worker) (hfresh : (establishedIds (turns ++ [turn])).Nodup)
    (clientId : Nat) (hid : turn.establishedId = some clientId) :
    clientId ∉ worker.clientCache.keys := by
  intro hmem
  rw [establishedIds_concat, hid, Option.toList_some, List.nodup_append] at hfresh
  exact hfresh.2.2 clientId (h.cached clientId hmem) clientId (List.mem_singleton_self _) rfl

theorem Draining.turn {turns : List (Turn Uuid)} {turn : Turn Uuid}
    (h : Draining turns worker) (hfresh : (establishedIds (turns ++ [turn])).Nodup)
    (hturn : worker.turn config turn = some next) : Draining (turns ++ [turn]) next := by
  have hcached : ∀ clientId, clientId ∈ worker.clientCache.keys →
      clientId ∈ establishedIds (turns ++ [turn]) := fun clientId hmem => by
    rw [establishedIds_concat]
    exact List.mem_append_left _ (h.cached clientId hmem)
  rcases turn_event hturn with ⟨event, rfl, hs⟩ | ⟨_, rfl⟩
  · have hstep := step_drainStep h.registered hs
    refine ⟨(step_guard config h.registered hs).2.trans h.registered, fun clientId hmem => ?_, ?_⟩
    · rcases hstep.cacheStep.keys hmem with hold | hnew
      · exact hcached clientId hold
      · rw [establishedIds_concat, hnew]
        exact List.mem_append_right _ (List.mem_singleton_self _)
    · have huuids := hstep.cacheStep.uuids (h.fresh hfresh)
      exact hstep.covered (fun _ => List.nil_prefix)
        (fun _ _ _ hprefix hnext => prefix_concat_of_getElem? hprefix hnext)
        (fun _ hprefix => hprefix.trans huuids) h.covered
  · exact ⟨h.registered, hcached, h.covered⟩

theorem draining_run {verbose : Bool} {turns : List (Turn Uuid)}
    (hfresh : (establishedIds turns).Nodup)
    (hrun : run (State.turn config) (.initial verbose) turns = some worker) :
    Draining turns worker := by
  have hm : (establishedIds turns).Nodup → Draining turns worker := by
    refine run_history (motive := fun turns worker => (establishedIds turns).Nodup →
      Draining turns worker) (fun _ => draining_initial verbose) ?_ hrun
    intro turns middle turn after _ ih hturn hnodup
    have hbefore : (establishedIds turns).Nodup := by
      rw [establishedIds_concat] at hnodup
      exact hnodup.of_append_left
    exact (ih hbefore).turn hnodup hturn
  exact hm hfresh

end Covered

section Ends

variable {config : Config} {worker next : State Uuid}

-- On this turn the call gets past the loop, or HAProxy fails it.
def Ends (worker next : State Uuid) (index : Nat) (drain : Drain Uuid) : Prop :=
  (∃ earlier, worker.drains[index]? = some earlier ∧ earlier.running = true) ∧
    next.drains[index]? = some drain ∧ drain.running = false

theorem Ends.absurd_of_eq {index : Nat} {drain : Drain Uuid} (h : Ends worker next index drain)
    (hsame : next.drains[index]? = worker.drains[index]?) : False := by
  obtain ⟨⟨earlier, hget, hrunning⟩, hnow, hover⟩ := h
  rw [hsame, hget] at hnow
  obtain rfl := Option.some.inj hnow
  exact Bool.false_ne_true (hover.symm.trans hrunning)

-- A call that ends has been failed by HAProxy, or has been through the whole cache.
theorem DrainStep.ends {event : Event Uuid} (h : DrainStep config worker next event)
    {index : Nat} {drain : Drain Uuid} (hends : Ends worker next index drain) :
    (event = .haproxy index false ∧ next.sent = worker.sent) ∨
      ∃ earlier ∈ worker.drains, earlier.running = true ∧ earlier.killed = drain.killed ∧
        worker.uuids.length ≤ drain.killed.length ∧ next.clientCache = worker.clientCache ∧
        drain.phase = .signalled ∧ next.sent = worker.sent ++ [.drain config.instanceId true] := by
  obtain ⟨hlt, _⟩ := List.getElem?_eq_some_iff.mp hends.1.choose_spec.1
  have hset : ∀ {changed : Nat} {other : Drain Uuid},
      next.drains[index]? = (worker.drains.set changed other)[index]? →
        changed = index ∧ other = drain := by
    intro changed other hdrains
    by_cases hindex : changed = index
    · subst hindex
      rw [List.getElem?_set_self hlt, hends.2.1] at hdrains
      exact ⟨rfl, (Option.some.inj hdrains).symm⟩
    · rw [List.getElem?_set_ne hindex] at hdrains
      exact (hends.absurd_of_eq hdrains).elim
  cases h with
  | kept hdrains => exact (hends.absurd_of_eq (by rw [hdrains])).elim
  | started hdrains =>
      exact (hends.absurd_of_eq (by rw [hdrains, List.getElem?_append_left hlt])).elim
  | @failed changed killed _ hdrains _ hsent =>
      have hsame : next.drains[index]? = (worker.drains.set changed ⟨.failed, killed⟩)[index]? := by
        rw [hdrains, List.getElem?_append_left (by simpa using hlt)]
      obtain ⟨rfl, _⟩ := hset hsame
      exact Or.inl ⟨rfl, hsent⟩
  | @killed _ changed earlier uuid delayMs _ _ _ _ hdrains =>
      obtain ⟨_, rfl⟩ := hset (by rw [hdrains])
      exact absurd hends.2.2 (by simp [Drain.running])
  | @signalled _ changed earlier _ hget hrunning hlast hdrains hcache hsent =>
      obtain ⟨_, rfl⟩ := hset (by rw [hdrains])
      exact Or.inr ⟨earlier, List.mem_of_getElem? hget, hrunning, rfl, hlast, hcache, rfl, hsent⟩

-- And a turn that tells the primary is the end of a call.
theorem DrainStep.ends_of_sends {event : Event Uuid} (h : DrainStep config worker next event)
    (hsends : .drain config.instanceId true ∈ next.sent.drop worker.sent.length) :
    ∃ index drain, Ends worker next index drain ∧ drain.phase = .signalled := by
  have hnone : next.sent = worker.sent → False := fun hsent => by
    rw [hsent, List.drop_length] at hsends
    exact List.not_mem_nil hsends
  cases h with
  | kept _ _ hsent =>
      obtain ⟨messages, heq, hnot⟩ := hsent
      rw [heq, List.drop_left] at hsends
      exact absurd hsends hnot
  | started _ _ hsent => exact (hnone hsent).elim
  | failed _ _ _ hsent => exact (hnone hsent).elim
  | killed _ _ _ _ _ _ hsent => exact (hnone hsent).elim
  | @signalled _ index earlier _ hget hrunning _ hdrains =>
      obtain ⟨hlt, _⟩ := List.getElem?_eq_some_iff.mp hget
      refine ⟨index, ⟨.signalled, earlier.killed⟩, ⟨⟨earlier, hget, hrunning⟩, ?_, rfl⟩, rfl⟩
      rw [hdrains, List.getElem?_set_self hlt]

-- A failure of HAProxy ends the call, and the turn sends nothing.
theorem haproxy_failed (h : Registered worker) {index : Nat}
    (hs : step config worker (.haproxy index false) = some next) :
    (∃ drain, Ends worker next index drain) ∧ next.sent = worker.sent := by
  obtain ⟨_, hstepped⟩ := step_stepped hs
  cases hstepped with
  | haproxy hnext =>
      obtain ⟨killed, hget, ⟨hfalse, _⟩ | ⟨hfalse, _⟩ | ⟨_, rfl⟩⟩ := haproxy_cases hnext
      · cases hfalse
      · cases hfalse
      · have hset : Registered (worker.setDrain index ⟨.failed, killed⟩) := h
        rw [emit_eq_call hset]
        obtain ⟨hlt, _⟩ := List.getElem?_eq_some_iff.mp hget
        have hnow : (worker.drains.set index ⟨.failed, killed⟩ ++
            [⟨.connecting, []⟩])[index]? = some ⟨.failed, killed⟩ := by
          rw [List.getElem?_append_left (by simpa using hlt), List.getElem?_set_self hlt]
        exact ⟨⟨_, ⟨_, hget, rfl⟩, hnow, rfl⟩, rfl⟩

-- What holds without fresh client ids: no call has killed more clients than are cached,
-- and none that tells the primary, or exits the process, goes without its message.
structure Reported (config : Config) (worker : State Uuid) : Prop where
  registered : Registered worker
  counted : ∀ drain ∈ worker.drains,
    Covered (fun killed uuids => killed.length ≤ uuids.length) worker.uuids drain
  signalled : ∀ drain ∈ worker.drains, drain.phase = .signalled →
    .drain config.instanceId true ∈ worker.sent
  exited : worker.exitCode = some 0 → .drain config.instanceId true ∈ worker.sent

theorem reported_initial (config : Config) (verbose : Bool) :
    Reported config (State.initial verbose : State Uuid) where
  registered := rfl
  counted := nofun
  signalled := nofun
  exited := nofun

theorem CacheStep.length_uuids {event : Event Uuid} (h : CacheStep worker next event) :
    worker.uuids.length ≤ next.uuids.length := by
  have hsize : ∀ worker : State Uuid, worker.uuids.length = worker.clientCache.size := fun worker =>
    by simp [State.uuids, OrderedMap.length_values]
  have hset : ∀ clientId entry,
      worker.clientCache.size ≤ (worker.clientCache.set clientId entry).size := by
    intro clientId entry
    rw [OrderedMap.size_set, OrderedMap.size_eq_length_keys]
    exact List.length_le_length_insert
  rw [hsize, hsize]
  cases h with
  | same hcache => rw [hcache]
  | established hcache => exact hcache ▸ hset _ _
  | reported _ _ hcache => exact hcache ▸ hset _ _

theorem DrainStep.signalled_mem {event : Event Uuid} (h : DrainStep config worker next event)
    {drain : Drain Uuid} (hmem : drain ∈ next.drains) (hphase : drain.phase = .signalled) :
    drain ∈ worker.drains ∨ .drain config.instanceId true ∈ next.sent := by
  rcases h.mem_drains hmem with hold | rfl | hfailed | ⟨_, _, _, _, _, _, rfl⟩ | ⟨_, hsent⟩
  · exact Or.inl hold
  · cases hphase
  · rw [hphase] at hfailed
    cases hfailed
  · cases hphase
  · exact Or.inr hsent

theorem DrainStep.exited {event : Event Uuid} (h : DrainStep config worker next event)
    (hrunning : worker.exitCode = none) (hexit : next.exitCode = some 0) :
    ∃ drain ∈ worker.drains, drain.phase = .signalled := by
  have hsame : next.exitCode ≠ worker.exitCode := by
    rw [hexit, hrunning]
    exact Option.some_ne_none 0
  cases h with
  | kept _ _ _ hkept =>
      rcases hkept with heq | hfatal | hsignalled
      · exact absurd heq hsame
      · rw [hexit] at hfatal
        cases hfatal
      · exact hsignalled
  | started _ _ _ heq => exact absurd heq hsame
  | failed _ _ _ _ heq => exact absurd heq hsame
  | killed _ _ _ _ _ _ _ heq => exact absurd heq hsame
  | signalled _ _ _ _ _ _ _ heq => exact absurd heq hsame

theorem Reported.step {event : Event Uuid} (h : Reported config worker)
    (hs : step config worker event = some next) : Reported config next := by
  have hstep := step_drainStep h.registered hs
  have hlength := hstep.cacheStep.length_uuids
  obtain ⟨messages, hsent, _⟩ := step_sends config hs
  have hkept : ∀ {message}, message ∈ worker.sent → message ∈ next.sent := fun hmem =>
    hsent ▸ List.mem_append_left _ hmem
  refine ⟨(step_guard config h.registered hs).2.trans h.registered, ?_, ?_, ?_⟩
  · refine hstep.covered (fun _ => Nat.zero_le _) (fun killed uuids uuid _ hnext => ?_)
      (fun _ hle => hle.trans hlength) h.counted
    obtain ⟨hlt, _⟩ := List.getElem?_eq_some_iff.mp hnext
    rw [List.length_append]
    exact hlt
  · intro drain hmem hphase
    rcases hstep.signalled_mem hmem hphase with hold | hnew
    · exact hkept (h.signalled drain hold hphase)
    · exact hnew
  · intro hexit
    obtain ⟨drain, hmem, hphase⟩ := hstep.exited (exitCode_of_step hs) hexit
    exact hkept (h.signalled drain hmem hphase)

theorem reported_run {verbose : Bool} {turns : List (Turn Uuid)}
    (hrun : run (State.turn config) (.initial verbose) turns = some worker) :
    Reported config worker := by
  refine run_invariant (fun worker turn next h hturn => ?_) (reported_initial config verbose) hrun
  rcases turn_event hturn with ⟨event, rfl, hs⟩ | ⟨_, rfl⟩
  · exact h.step hs
  · exact h

end Ends

section Theorems

-- A call that ends without a failure of HAProxy has killed the cached clients.
theorem ends_drained {config : Config} {worker next : State Uuid} {turn : Turn Uuid}
    (h : Reported config worker) (hturn : worker.turn config turn = some next) {index : Nat}
    {drain : Drain Uuid} (hends : Ends worker next index drain)
    (hconnected : turn ≠ .event (.haproxy index false)) :
    drain.phase = .signalled ∧ next.sent = worker.sent ++ [.drain config.instanceId true] ∧
      drain.killed.length = next.clientCache.size ∧
      ∀ turns, Draining turns worker →
        drain.killed = next.clientCache.entries.map fun client => client.2.uuid := by
  rcases turn_event hturn with ⟨event, rfl, hs⟩ | ⟨_, rfl⟩
  · rcases (step_drainStep h.registered hs).ends hends with
      ⟨rfl, _⟩ | ⟨earlier, hmem, hrunning, hkilled, hlast, hcache, hphase, hsent⟩
    · exact absurd rfl hconnected
    · have huuids : worker.uuids = next.clientCache.entries.map fun client => client.2.uuid := by
        rw [State.uuids, ← hcache, OrderedMap.values, List.map_map]
        rfl
      have hcounted := h.counted earlier hmem hrunning
      rw [hkilled] at hcounted
      refine ⟨hphase, hsent, ?_, fun turns hdraining => ?_⟩
      · rw [Nat.le_antisymm hcounted hlast, huuids, List.length_map]
        rfl
      · have hprefix := hdraining.covered earlier hmem hrunning
        rw [hkilled] at hprefix
        rw [← huuids]
        exact hprefix.eq_of_length_le hlast
  · exact (hends.absurd_of_eq rfl).elim

-- When a worker tells the primary that its drain is over, the call of the body that does
-- so has made one kill for each cached client, in their order.
theorem drain_kills_each_client (config : Config) (verbose : Bool) (turns : List (Turn Uuid))
    (turn : Turn Uuid) {worker next : State Uuid} (hfresh : (establishedIds turns).Nodup)
    (hrun : run (State.turn config) (.initial verbose) turns = some worker)
    (hturn : worker.turn config turn = some next)
    (hsends : .drain config.instanceId true ∈ next.sent.drop worker.sent.length) :
    ∃ index drain, Ends worker next index drain ∧ drain.phase = .signalled ∧
      drain.killed = next.clientCache.entries.map fun client => client.2.uuid := by
  have hreported := reported_run hrun
  rcases turn_event hturn with ⟨event, rfl, hs⟩ | ⟨_, rfl⟩
  · have hstep := step_drainStep hreported.registered hs
    obtain ⟨index, drain, hends, hphase⟩ := hstep.ends_of_sends hsends
    have hconnected : event ≠ .haproxy index false := by
      rintro rfl
      obtain ⟨_, hsent⟩ := haproxy_failed hreported.registered hs
      rw [hsent, List.drop_length] at hsends
      cases hsends
    obtain ⟨_, _, _, hkilled⟩ := ends_drained hreported hturn hends
      (fun heq => hconnected (Turn.event.inj heq))
    exact ⟨index, drain, hends, hphase, hkilled turns (draining_run hfresh hrun)⟩
  · rw [List.drop_length] at hsends
    cases hsends

-- A client that comes while the loop waits, after a kill that failed.
theorem drain_kills_late_client :
    ∃ worker next : State String, next.clientCache.keys = [7, 8] ∧
      ∃ index drain, Ends worker next index drain ∧ drain.phase = .signalled ∧
        drain.killed = next.clientCache.entries.map fun client => client.2.uuid := by
  refine ⟨_, _, ?_, drain_kills_each_client ⟨1, 30000, 120⟩ false
    [.event (.established 7 "c0ffee" 0), .event (.signal .SIGTERM), .event (.haproxy 0 true),
      .killSettled 0 0 true, .event (.established 8 "decaf" 1), .event (.timeout 0)]
    (.event (.timeout 0)) (by decide) (Option.some_get (by decide)).symm
    (Option.some_get (by decide)).symm (by decide)⟩
  decide

-- Each call of the body that ends on this turn has killed the cached clients and tells
-- the primary. The process does not exit with 0 before one has told it.
def EndsDrained (config : Config) (verbose : Bool) (turns : List (Turn Uuid)) (turn : Turn Uuid) :
    Prop :=
  ∀ worker next, run (State.turn config) (.initial verbose) turns = some worker →
    worker.turn config turn = some next →
    (∀ index drain, Ends worker next index drain →
      next.sent = worker.sent ++ [.drain config.instanceId true] ∧
      drain.killed.length = next.clientCache.size ∧
      ((establishedIds turns).Nodup →
        drain.killed = next.clientCache.entries.map fun client => client.2.uuid)) ∧
    (next.exitCode = some 0 → .drain config.instanceId true ∈ next.sent)

-- Every call that ends leaves a finished drain behind if and only if HAProxy fails none.
theorem endsDrained_iff (config : Config) (verbose : Bool) (turns : List (Turn Uuid))
    {last : State Uuid}
    (hrun : run (State.turn config) (.initial verbose) turns = some last) :
    Always (EndsDrained config verbose) turns ↔
      ∀ index, Turn.event (.haproxy index false) ∉ turns := by
  constructor
  · intro h index hmem
    obtain ⟨before, later, rfl⟩ := List.append_of_mem hmem
    obtain ⟨worker, hworker, hrest⟩ := (run_append_eq_some _ _ _ _ _).mp hrun
    obtain ⟨next, hturn, _⟩ := (run_cons_eq_some _ _ _ _ _).mp hrest
    obtain ⟨⟨drain, hends⟩, hsent⟩ := haproxy_failed (reported_run hworker).registered hturn
    have htold := ((h before _ later rfl worker next hworker hturn).1 index drain hends).1
    rw [hsent] at htold
    simp at htold
  · rintro h before turn later rfl worker next hworker hturn
    have hreported := reported_run hworker
    refine ⟨fun index drain hends => ?_, fun hexit => ?_⟩
    · have hconnected : turn ≠ .event (.haproxy index false) := by
        rintro rfl
        exact h index (List.mem_append_right _ List.mem_cons_self)
      obtain ⟨_, hsent, hcount, hkilled⟩ := ends_drained hreported hturn hends hconnected
      exact ⟨hsent, hcount, fun hfresh => hkilled before (draining_run hfresh hworker)⟩
    · exact (reported_run ((run_concat_eq_some _ _ _ _ _).mpr ⟨worker, hworker, hturn⟩)).exited
        hexit

-- A drain of one client that finds HAProxy there.
theorem endsDrained_connected :
    Always (EndsDrained ⟨1, 30000, 120⟩ false)
      [.event (.established 7 "c0ffee" 0), .event (.signal .SIGTERM), .event (.haproxy 0 true),
        .event (.timeout 0), .event (.timeout 0)] :=
  (endsDrained_iff ⟨1, 30000, 120⟩ false _ (Option.some_get (by decide)).symm).mpr (by simp)

-- Without HAProxy the call ends with no kill and no message, and the body is called anew.
theorem not_endsDrained_failed :
    ¬Always (EndsDrained ⟨1, 30000, 120⟩ false)
        [.event (.established 7 "c0ffee" 0), .event (.signal .SIGTERM),
          .event (.haproxy 0 false)] ∧
      ∃ last : State String, run (State.turn ⟨1, 30000, 120⟩) (.initial false)
          [.event (.established 7 "c0ffee" 0), .event (.signal .SIGTERM),
            .event (.haproxy 0 false)] = some last ∧
        last.sent = [] ∧ last.drains = [⟨.failed, []⟩, ⟨.connecting, []⟩] := by
  refine ⟨fun h => ?_, _, (Option.some_get (by decide)).symm, by decide, by decide⟩
  have hends := (h [.event (.established 7 "c0ffee" 0), .event (.signal .SIGTERM)]
    (.event (.haproxy 0 false)) [] rfl _ _ (Option.some_get (by decide)).symm
    (Option.some_get (by decide)).symm).1 0 ⟨.failed, []⟩
    ⟨⟨⟨.connecting, []⟩, by decide, by decide⟩, by decide, by decide⟩
  exact absurd hends.1 (by decide)

end Theorems

end OpenBalenaVpn.Worker
