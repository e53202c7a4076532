import OpenBalenaVpn.VpnManager.Process
import Mathlib.Data.Nat.Find

namespace OpenBalenaVpn.VpnManager

section Property

-- It ends after finitely many attempts, with one that became ready or with the
-- TimeoutError, and makes no further attempt once the time is over.
structure Startup.EndsInTime (startup : Startup) : Prop where
  ends : ∃ fuel, (waitForStart startup fuel 0).2 = some .timedOut ∨
    ((waitForStart startup fuel 0).2 = some .resolved ∧
      ∃ attempt ∈ (waitForStart startup fuel 0).1, startup.outcome attempt = .ready)
  inTime : ∀ fuel, ∀ attempt ∈ (waitForStart startup fuel 0).1, 0 < attempt →
    startup.now attempt - startup.since < STARTUP_TIMEOUT

end Property

section Attempts

variable (startup : Startup)

-- How an attempt ends the wait, if it does.
def Startup.exit (attempt : Nat) : Option Started :=
  if STARTUP_TIMEOUT ≤ startup.now attempt - startup.since then none
  else match startup.outcome attempt with
    | .ready => some .resolved
    | .neither => some .timedOut
    | .error => none

theorem pTimeout_late {milliseconds : Int} (h : milliseconds ≤ 0) (outcome : Outcome) :
    pTimeout milliseconds outcome = .error .TypeError := if_pos h

theorem waitForStart_of_exit {attempt : Nat} {ending : Started}
    (h : startup.exit attempt = some ending) (fuel : Nat) :
    waitForStart startup (fuel + 1) attempt = ([attempt], some ending) := by
  unfold Startup.exit at h
  split at h
  · cases h
  · rename_i hearly
    have htime : ¬STARTUP_TIMEOUT - (startup.now attempt - startup.since) ≤ 0 := by omega
    rw [waitForStart]
    cases houtcome : startup.outcome attempt with
    | ready =>
        rw [houtcome] at h
        obtain rfl := Option.some.inj h
        simp only [pTimeout, if_neg htime]
    | error =>
        rw [houtcome] at h
        cases h
    | neither =>
        rw [houtcome] at h
        obtain rfl := Option.some.inj h
        simp only [pTimeout, if_neg htime]

theorem waitForStart_of_none {attempt : Nat} (h : startup.exit attempt = none) (fuel : Nat) :
    waitForStart startup (fuel + 1) attempt =
      (attempt :: (waitForStart startup fuel (attempt + 1)).1,
        (waitForStart startup fuel (attempt + 1)).2) := by
  rw [waitForStart]
  unfold Startup.exit at h
  split at h
  · rw [pTimeout_late (by omega)]
  · rename_i hearly
    have htime : ¬STARTUP_TIMEOUT - (startup.now attempt - startup.since) ≤ 0 := by omega
    cases houtcome : startup.outcome attempt with
    | ready => simp [houtcome] at h
    | error => simp only [pTimeout, if_neg htime]
    | neither => simp [houtcome] at h

theorem waitForStart_ending (fuel attempt : Nat) :
    (waitForStart startup (fuel + 1) attempt).2 =
      (startup.exit attempt).or (waitForStart startup fuel (attempt + 1)).2 := by
  cases hexit : startup.exit attempt with
  | some ending => rw [waitForStart_of_exit startup hexit, Option.some_or]
  | none => rw [waitForStart_of_none startup hexit, Option.none_or]

-- An attempt is made only where those before it have not ended the wait.
theorem exit_eq_none_of_mem {fuel first attempt : Nat}
    (h : attempt ∈ (waitForStart startup fuel first).1) {other : Nat} (hfirst : first ≤ other)
    (hother : other < attempt) : startup.exit other = none := by
  induction fuel generalizing first with
  | zero => cases h
  | succ fuel ih =>
      cases hexit : startup.exit first with
      | some ending =>
          rw [waitForStart_of_exit startup hexit] at h
          obtain rfl := List.mem_singleton.mp h
          omega
      | none =>
          rw [waitForStart_of_none startup hexit] at h
          by_cases heq : other = first
          · rw [heq, hexit]
          · rcases List.mem_cons.mp h with rfl | hm
            · omega
            · exact ih hm (by omega)

theorem mem_of_first {last : Nat} (hfirst : ∀ attempt < last, startup.exit attempt = none)
    {first : Nat} (hle : first ≤ last) {fuel : Nat} (hfuel : last < first + fuel) :
    last ∈ (waitForStart startup fuel first).1 := by
  induction fuel generalizing first with
  | zero => omega
  | succ fuel ih =>
      by_cases heq : first = last
      · rw [heq]
        cases hexit : startup.exit last with
        | some ending =>
            rw [waitForStart_of_exit startup hexit]
            exact List.mem_cons_self
        | none =>
            rw [waitForStart_of_none startup hexit]
            exact List.mem_cons_self
      · rw [waitForStart_of_none startup (hfirst first (by omega))]
        exact List.mem_cons_of_mem _ (ih (by omega) (by omega))

theorem exit_isSome_iff (attempt : Nat) : (startup.exit attempt).isSome ↔
    startup.outcome attempt ≠ .error ∧
      startup.now attempt - startup.since < STARTUP_TIMEOUT := by
  unfold Startup.exit
  by_cases hlate : STARTUP_TIMEOUT ≤ startup.now attempt - startup.since
  · rw [if_pos hlate]
    simpa using fun _ => hlate
  · rw [if_neg hlate]
    cases startup.outcome attempt <;> simp <;> omega

end Attempts

section Theorems

theorem endsInTime_iff (startup : Startup) :
    startup.EndsInTime ↔ ∃ attempt, startup.outcome attempt ≠ .error ∧
      startup.now attempt - startup.since < STARTUP_TIMEOUT := by
  simp only [← exit_isSome_iff]
  constructor
  · intro h
    by_contra hnone
    have hnever : ∀ attempt, 0 ≤ attempt → startup.exit attempt = none := fun attempt _ =>
      Option.not_isSome_iff_eq_none.mp fun hsome => hnone ⟨attempt, hsome⟩
    obtain ⟨fuel, hending⟩ := h.ends
    have hendless : (waitForStart startup fuel 0).2 = none :=
      Transition.loop_eq_none (fun fuel attempt => (waitForStart startup fuel attempt).2)
        (waitForStart_ending startup) (fun _ => rfl) hnever fuel
    rw [hendless] at hending
    rcases hending with h | ⟨h, _⟩ <;> cases h
  · intro hexists
    obtain ⟨ending, hlast⟩ := Option.isSome_iff_exists.mp (Nat.find_spec hexists)
    have hfirst : ∀ attempt < Nat.find hexists, startup.exit attempt = none :=
      fun attempt hlt => Option.not_isSome_iff_eq_none.mp (Nat.find_min hexists hlt)
    have htime := ((exit_isSome_iff startup _).mp (Nat.find_spec hexists)).2
    generalize Nat.find hexists = last at hlast hfirst htime
    have hending : (waitForStart startup (last + 1) 0).2 = some ending :=
      Transition.loop_eq_of_first
        (fun fuel attempt => (waitForStart startup fuel attempt).2)
        (waitForStart_ending startup) hlast (Nat.zero_le _)
        (fun attempt _ hlt => hfirst attempt hlt) (by omega)
    refine ⟨⟨last + 1, ?_⟩, fun fuel attempt hmem _ => ?_⟩
    · cases ending with
      | timedOut => exact Or.inl hending
      | resolved =>
          refine Or.inr ⟨hending, last, mem_of_first startup hfirst (Nat.zero_le _) (by omega), ?_⟩
          unfold Startup.exit at hlast
          split at hlast
          · cases hlast
          · cases houtcome : startup.outcome last <;> simp [houtcome] at hlast ⊢
    · have hle : attempt ≤ last := by
        by_contra hgt
        have hnone := exit_eq_none_of_mem startup hmem (Nat.zero_le last) (by omega)
        rw [hlast] at hnone
        cases hnone
      have hmono := startup.mono attempt last hle
      omega

-- The first attempt is refused at once, and the next one comes when the time is over.
def refused : Startup where
  since := 0
  now attempt := if attempt = 0 then 0 else 5000
  outcome attempt := if attempt = 0 then .error else .ready
  starts := by decide
  mono := by
    intro first second h
    split <;> split <;> omega

-- Every attempt is rejected with a TypeError, although the port has become ready.
theorem refused_endless : (∀ fuel, (waitForStart refused fuel 0).2 = none) ∧
    1 ∈ (waitForStart refused 2 0).1 ∧ ¬refused.EndsInTime := by
  have hnever : ∀ attempt, refused.exit attempt = none := by
    intro attempt
    rw [← Option.not_isSome_iff_eq_none, exit_isSome_iff]
    rintro ⟨houtcome, htime⟩
    simp only [refused, STARTUP_TIMEOUT] at houtcome htime
    split at houtcome <;> simp_all
  have hendless : ∀ fuel, (waitForStart refused fuel 0).2 = none :=
    Transition.loop_eq_none (fun fuel attempt => (waitForStart refused fuel attempt).2)
      (waitForStart_ending refused) (fun _ => rfl) fun attempt _ => hnever attempt
  refine ⟨hendless, by decide, fun h => ?_⟩
  obtain ⟨fuel, hending⟩ := h.ends
  rw [hendless fuel] at hending
  rcases hending with h | ⟨h, _⟩ <;> cases h

end Theorems

end OpenBalenaVpn.VpnManager
