import OpenBalenaVpn.Access

namespace OpenBalenaVpn.Access

section Keys

theorem notMem_uuid {uuid : Text} (h : Proxy.IsUuid uuid) : '-' ∉ uuid := by
  intro hm
  exact Proxy.isHexDigit_ne (h.hex '-' hm) (by decide) rfl

theorem notMem_portText (port : Number) : '-' ∉ port.text :=
  Number.notMem_text (by decide) (by decide) (by decide) port

-- The first separator splits a text in one way.
theorem append_cons_inj {separator : Char} {first second rest other : Text}
    (hfirst : separator ∉ first) (hsecond : separator ∉ second)
    (h : first ++ separator :: rest = second ++ separator :: other) :
    first = second ∧ rest = other := by
  have hsplit := congrArg (List.splitOn separator) h
  rw [List.splitOn_append_cons_self_of_not_mem hfirst,
    List.splitOn_append_cons_self_of_not_mem hsecond] at hsplit
  obtain ⟨rfl, _⟩ := List.cons.inj hsplit
  exact ⟨rfl, (List.cons.inj (List.append_cancel_left h)).2⟩

-- What the cache key still tells of the arguments.
theorem normalizer_inj {first second : Credentials}
    (h : normalizer first.toTarget = normalizer second.toTarget) :
    first.uuid = second.uuid ∧ first.port = second.port ∧
      (first.auth.map Utf8.decode).getD "guest".toList =
        (second.auth.map Utf8.decode).getD "guest".toList := by
  obtain ⟨huuid, hrest⟩ :=
    append_cons_inj (notMem_uuid first.isUuid) (notMem_uuid second.isUuid) h
  obtain ⟨hport, hauth⟩ :=
    append_cons_inj (notMem_portText first.port) (notMem_portText second.port) hrest
  exact ⟨huuid, Number.text_inj first.produced second.produced hport, hauth⟩

end Keys

section Isolation

variable (VPN_GUEST_API_KEY : Option Text)

-- The request that an answer was given to and the call that got its value agree in the
-- device, the port and the Authorization header.
structure SameAccess (asked got : Credentials) : Prop where
  uuid : asked.uuid = got.uuid
  port : asked.port = got.port
  header : authHeader VPN_GUEST_API_KEY asked.auth = authHeader VPN_GUEST_API_KEY got.auth

-- Every value that a call got was given by the API to such a request, at most the maximal
-- age before.
def Isolated (cache : Cache) : Prop :=
  ∀ got ∈ cache.returned, ∃ answer ∈ cache.computed,
    SameAccess VPN_GUEST_API_KEY answer.arg got.arg ∧ answer.value = got.value ∧
      answer.time ≤ got.time ∧ got.time ≤ answer.time + maxAge

-- A call without a credential and one with a credential that reads "guest".
def Mixed (first second : Credentials) : Prop :=
  (first.auth = none ∧ second.auth.map Utf8.decode = some "guest".toList) ∨
    (first.auth.map Utf8.decode = some "guest".toList ∧ second.auth = none)

-- No call finds an entry of the other kind, unless the two have the same header.
def Unmixed (cache : Cache) : Event → Prop
  | .canAccessDevice credentials => VPN_GUEST_API_KEY = some "guest".toList ∨
      ∀ entry, Memo.Cache.live maxAge cache (normalizer credentials.toTarget) = some entry →
        ¬Mixed entry.arg credentials
  | _ => True

theorem SameAccess.refl (credentials : Credentials) :
    SameAccess VPN_GUEST_API_KEY credentials credentials := ⟨rfl, rfl, rfl⟩

variable {VPN_GUEST_API_KEY}

-- Two calls with one key that are of one kind have one header.
theorem sameAccess_of_normalizer {asked got : Credentials}
    (h : normalizer asked.toTarget = normalizer got.toTarget)
    (hkind : VPN_GUEST_API_KEY = some "guest".toList ∨ ¬Mixed asked got) :
    SameAccess VPN_GUEST_API_KEY asked got := by
  obtain ⟨huuid, hport, hauth⟩ := normalizer_inj h
  refine ⟨huuid, hport, ?_⟩
  unfold Mixed at hkind
  cases hasked : asked.auth with
  | none =>
      cases hgot : got.auth with
      | none => rfl
      | some auth =>
          rw [hasked, hgot] at hauth hkind
          have hguest : Utf8.decode auth = "guest".toList := hauth.symm
          rcases hkind with hkey | hmixed
          · rw [authHeader, authHeader, hkey, hguest, Option.map_some]
          · exact absurd (Or.inl ⟨rfl, congrArg some hguest⟩) hmixed
  | some auth =>
      cases hgot : got.auth with
      | none =>
          rw [hasked, hgot] at hauth hkind
          have hguest : Utf8.decode auth = "guest".toList := hauth
          rcases hkind with hkey | hmixed
          · rw [authHeader, authHeader, hkey, hguest, Option.map_some]
          · exact absurd (Or.inr ⟨congrArg some hguest, rfl⟩) hmixed
      | some other =>
          rw [hasked, hgot] at hauth
          have hsame : Utf8.decode auth = Utf8.decode other := hauth
          rw [authHeader, authHeader, hsame]

theorem joins_of_unmixed {cache : Cache}
    (hr : Memo.Recorded (fun credentials : Credentials => normalizer credentials.toTarget) cache)
    {event : Event} (h : Unmixed VPN_GUEST_API_KEY cache event) :
    Memo.Joins (fun credentials : Credentials => normalizer credentials.toTarget) maxAge
      (SameAccess VPN_GUEST_API_KEY) cache event.memo := by
  cases event with
  | tick time => trivial
  | answer key ids => trivial
  | canAccessDevice credentials =>
      intro entry hentry
      have hkey := hr.keyed _ entry (Memo.Cache.entries_of_live hentry)
      exact sameAccess_of_normalizer hkey (h.imp id fun hunmixed => hunmixed entry hentry)

end Isolation

section Theorems

theorem isolated_of_unmixed (VPN_GUEST_API_KEY : Option Text) (events : List Event)
    (h : Transition.StepsMeet step (Unmixed VPN_GUEST_API_KEY) Memo.Cache.empty events) :
    Transition.Throughout step (Isolated VPN_GUEST_API_KEY) Memo.Cache.empty events := by
  have hrecorded : Transition.StepsMeet step (fun cache event =>
      Memo.Joins (fun credentials : Credentials => normalizer credentials.toTarget) maxAge
        (SameAccess VPN_GUEST_API_KEY) cache event.memo) Memo.Cache.empty events :=
    h.imp (fun _ _ _ hr hs => Memo.recorded_step hr hs) (fun _ _ hr hu => joins_of_unmixed hr hu)
      (Memo.recorded_empty _)
  exact Transition.throughout_map Event.memo (Memo.fresh_throughout (by decide)
    (SameAccess.refl VPN_GUEST_API_KEY)
    (Transition.stepsMeet_map Event.memo (fun _ _ hj => hj) hrecorded))

-- Calls for port 80 of one device.
def withAuth (auth : Option (List UInt8)) : Credentials where
  uuid := "c0ffee".toList
  port := .finite 80
  auth
  isUuid := ⟨by decide, List.all_eq_true.mp (by decide)⟩
  produced := ⟨['8', '0'], rfl⟩

-- The password "key".
theorem isolated_of_unmixed_key :
    Transition.Throughout step (Isolated none) Memo.Cache.empty
      [.canAccessDevice (withAuth (some [107, 101, 121])),
        .answer "c0ffee-80-key".toList (some [7]), .tick 1000,
        .canAccessDevice (withAuth (some [107, 101, 121]))] := by
  have hcall : ∀ cache : Cache, Unmixed none cache
      (.canAccessDevice (withAuth (some [107, 101, 121]))) := by
    refine fun cache => Or.inr fun entry _ hmixed => ?_
    rcases hmixed with ⟨_, hguest⟩ | ⟨_, hnone⟩
    · exact absurd hguest (by decide)
    · cases hnone
  exact isolated_of_unmixed none _ ⟨hcall _, fun _ _ => ⟨trivial, fun _ _ => ⟨trivial, fun _ _ =>
    ⟨hcall _, fun _ _ => trivial⟩⟩⟩⟩

-- A client with the password "guest" decides for one second later what a client without
-- a credential gets.
theorem isolated_guest :
    ∃ cache, Transition.run step Memo.Cache.empty
        [.canAccessDevice (withAuth (some [103, 117, 101, 115, 116])),
          .answer "c0ffee-80-guest".toList (some [7]), .tick 1000,
          .canAccessDevice (withAuth none)] = some cache ∧
      cache.computed = [⟨withAuth (some [103, 117, 101, 115, 116]), some 7, 0⟩] ∧
      cache.returned = [⟨withAuth (some [103, 117, 101, 115, 116]), some 7, 0⟩,
        ⟨withAuth none, some 7, 1000⟩] ∧
      ¬Isolated none cache := by
  refine ⟨_, rfl, rfl, rfl, fun h => ?_⟩
  obtain ⟨answer, hanswer, hsame, _⟩ :=
    h ⟨withAuth none, some 7, 1000⟩ (List.mem_cons_of_mem _ List.mem_cons_self)
  obtain rfl := List.mem_singleton.mp hanswer
  cases hsame.header

end Theorems

end OpenBalenaVpn.Access
