import OpenBalenaVpn.HAProxy
import OpenBalenaVpn.Instances.Lemmas

namespace OpenBalenaVpn.HAProxy

section Names

theorem workerName_eq (instanceId : Nat) : workerName instanceId =
    "vpn-workers/".toList ++ ("vpn".toList ++ Nat.toDigits 10 instanceId) := rfl

theorem workerName_injective : Function.Injective workerName := by
  intro first second h
  simp only [workerName_eq, List.append_cancel_left_eq] at h
  exact Number.toDigits_inj h

end Names

section Servers

variable {servers : Servers}

@[simp] theorem modify_self (servers : Servers) (name : Text) (change : Server → Server) :
    servers.modify name change name = (servers name).map change :=
  Function.update_self ..

theorem modify_of_ne (servers : Servers) {name other : Text} (hne : other ≠ name)
    (change : Server → Server) : servers.modify name change other = servers other :=
  Function.update_of_ne hne ..

theorem modify_modify (servers : Servers) (name : Text) (first second : Server → Server) :
    (servers.modify name first).modify name second = servers.modify name (second ∘ first) := by
  funext other
  by_cases he : other = name
  · subst he
    simp
  · simp only [modify_of_ne _ he]

theorem modify_eq_some {name other : Text} {change : Server → Server} {server : Server}
    (h : servers.modify name change other = some server) :
    (other = name ∧ ∃ old, servers name = some old ∧ server = change old) ∨
      servers other = some server := by
  by_cases he : other = name
  · subst he
    rw [modify_self] at h
    obtain ⟨old, hold, rfl⟩ := Option.map_eq_some_iff.mp h
    exact Or.inl ⟨rfl, old, hold, rfl⟩
  · exact Or.inr (modify_of_ne servers he change ▸ h)

-- No server is added and none is taken.
theorem isSome_modify (servers : Servers) (name other : Text) (change : Server → Server) :
    (servers.modify name change other).isSome = (servers other).isSome := by
  by_cases he : other = name
  · subst he
    rw [modify_self, Option.isSome_map]
  · rw [modify_of_ne servers he]

theorem template_eq_some {count : Nat} {name : Text} {server : Server}
    (h : template count name = some server) :
    (∃ workerId, 1 ≤ workerId ∧ workerId ≤ count ∧ name = workerName workerId) ∧
      server = ⟨localhost, 10000, .maint⟩ := by
  unfold template at h
  split at h
  · rename_i hmem
    obtain ⟨workerId, hid, hname⟩ := List.any_eq_true.mp hmem
    rw [Instances.mem_workerIds, Int.toNat_natCast] at hid
    exact ⟨⟨workerId, hid.1, hid.2, (of_decide_eq_true hname).symm⟩, (Option.some.inj h).symm⟩
  · cases h

theorem template_isSome {count workerId : Nat} (hrange : 1 ≤ workerId ∧ workerId ≤ count) :
    (template count (workerName workerId)).isSome := by
  have hid : workerId ∈ Instances.workerIds count := by
    rw [Instances.mem_workerIds, Int.toNat_natCast]
    exact hrange
  have hmem : ((Instances.workerIds count).any fun other =>
      workerName other = workerName workerId) = true :=
    List.any_eq_true.mpr ⟨workerId, hid, decide_eq_true rfl⟩
  rw [template, if_pos hmem]
  rfl

end Servers

section Lines

variable {Table : Type} {haproxy : Runtime Table}

theorem drain_eq (workerId : Nat) :
    drain (workerName workerId) = line [.state workerId .drain] := by
  have hword : " state drain;".toList =
      " state ".toList ++ ServerState.drain.word ++ [';'] := by decide
  rw [drain, hword, line, List.flatMap_singleton, Command.text]
  simp only [List.append_assoc]

theorem register_eq (workerId port : Nat) : register (workerName workerId) port localhost =
    line [.addr workerId port, .state workerId .ready] := by
  have hword : " state ready;".toList =
      " state ".toList ++ ServerState.ready.word ++ [';'] := by decide
  rw [register, hword, line, List.flatMap_cons, List.flatMap_singleton, Command.text, Command.text]
  simp only [List.append_assoc]

-- HAProxy reads what the workers write as it is meant.
theorem Documented.drain (h : Documented haproxy) (table : Table) (workerId : Nat) :
    haproxy.servers (haproxy.execute table (drain (workerName workerId))) =
      (haproxy.servers table).modify (workerName workerId)
        fun server => { server with state := .drain } := by
  rw [drain_eq, h.line, List.foldl_cons, List.foldl_nil,
    h.perform table (.state workerId .drain) trivial]
  rfl

theorem Documented.register (h : Documented haproxy) (table : Table) (workerId : Nat)
    {port : Nat} (hport : 1 ≤ port ∧ port ≤ 65535) :
    haproxy.servers (haproxy.execute table (register (workerName workerId) port localhost)) =
      (haproxy.servers table).modify (workerName workerId) fun _ => ⟨localhost, port, .ready⟩ := by
  have hready := h.perform (haproxy.execute table (Command.addr workerId port).text)
    (.state workerId .ready) trivial
  rw [register_eq, h.line, List.foldl_cons, List.foldl_cons, List.foldl_nil, hready,
    h.perform table (.addr workerId port) hport]
  exact modify_modify ..

end Lines

end OpenBalenaVpn.HAProxy
