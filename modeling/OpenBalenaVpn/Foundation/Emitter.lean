import OpenBalenaVpn.Foundation.Transition

namespace OpenBalenaVpn.Emitter

section Emit

variable {ι σ δ : Type*}

-- An emit calls the listeners that are subscribed when it starts, each with the state
-- that the one before left. A listener may emit itself, nested as deep as the fuel.
def emit (listeners : σ → List ι) (call : (δ → σ → Option σ) → ι → δ → σ → Option σ) :
    Nat → δ → σ → Option σ
  | 0, _, _ => none
  | fuel + 1, data, state => (listeners state).foldlM
      (fun state listener => call (emit listeners call fuel) listener data state) state

variable {listeners : σ → List ι} {call : (δ → σ → Option σ) → ι → δ → σ → Option σ}

theorem emit_succ (fuel : Nat) (data : δ) (state : σ) :
    emit listeners call (fuel + 1) data state = (listeners state).foldlM
      (fun state listener => call (emit listeners call fuel) listener data state) state := rfl

-- Listeners that do nothing may stand before the one that answers.
theorem emit_of_silent {silent : List ι} {answering : ι} {fuel : Nat} {data : δ} {state : σ}
    (hlisteners : listeners state = silent ++ [answering])
    (hsilent : ∀ listener ∈ silent, call (emit listeners call fuel) listener data state =
      some state) :
    emit listeners call (fuel + 1) data state =
      call (emit listeners call fuel) answering data state := by
  rw [emit_succ, hlisteners, List.foldlM_append]
  have hrun : silent.foldlM
      (fun state listener => call (emit listeners call fuel) listener data state) state =
        some state := by
    clear hlisteners
    induction silent with
    | nil => rfl
    | cons listener rest ih =>
        rw [List.foldlM_cons, hsilent listener List.mem_cons_self]
        exact ih fun other ho => hsilent other (List.mem_cons_of_mem _ ho)
  rw [hrun]
  simp

end Emit

section Subscribers

variable {ι : Type*} [DecidableEq ι]

def subscribe (listener : ι) (listeners : List ι) : List ι := listeners ++ [listener]

def unsubscribe (listener : ι) (listeners : List ι) : List ι := listeners.filter (· ≠ listener)

-- One listener takes the place of another at the end of the list.
theorem subscribe_unsubscribe {before : List ι} {old : ι} (new : ι) (h : old ∉ before) :
    subscribe new (unsubscribe old (before ++ [old])) = before ++ [new] := by
  have hbefore : before.filter (· ≠ old) = before := by
    rw [List.filter_eq_self]
    intro listener hl
    have hne : listener ≠ old := fun he => h (he ▸ hl)
    simpa using hne
  rw [subscribe, unsubscribe, List.filter_append, hbefore]
  simp

end Subscribers

end OpenBalenaVpn.Emitter
