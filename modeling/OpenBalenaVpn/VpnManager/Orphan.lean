import OpenBalenaVpn.VpnManager.Process
import Mathlib.Data.Nat.Find

namespace OpenBalenaVpn.VpnManager

section Soundness

-- It returns only after an attempt has failed, throws only where the process can
-- still be signalled after KILL_TIMEOUT, and kills only a process that has been alive
-- until TERM_TIMEOUT.
structure Report.Sound (world : Surroundings) (pid : ParsedInt) (report : Report) : Prop where
  returns : report.ending = .returned →
    ∃ last, report.attempts.getLast? = some last ∧ last.delivered = false
  throws : ∀ moment, report.ending = .threw moment →
    KILL_TIMEOUT ≤ world.elapsedTime moment ∧ world.kill pid moment = true
  kills : ∀ before attempt later, report.attempts = before ++ attempt :: later →
    attempt.signal = .SIGKILL → TERM_TIMEOUT ≤ world.elapsedTime attempt.moment ∧
      ∀ earlier ∈ before, earlier.delivered = true

-- No signal is delivered and no time between the timeouts is seen before a moment after
-- KILL_TIMEOUT at which the pid can be signalled.
def Resurrected (world : Surroundings) (pid : ParsedInt) : Prop :=
  ∃ last, KILL_TIMEOUT ≤ world.elapsedTime last ∧ world.kill pid last = true ∧
    ∀ moment < last, world.kill pid moment = false ∧ world.elapsedTime moment < TERM_TIMEOUT

end Soundness

section Rounds

variable (world : Surroundings) (pid : ParsedInt)

def attemptAt : Nat → Attempt
  | 0 => ⟨.SIGTERM, 0, world.kill pid 0⟩
  | moment + 1 =>
      ⟨if world.elapsedTime (moment + 1) < TERM_TIMEOUT then .SIGPING else .SIGKILL, moment + 1,
        world.kill pid (moment + 1)⟩

def attemptsUntil (moment : Nat) : List Attempt :=
  (List.range (moment + 1)).map (attemptAt world pid)

-- How the loop ends at a moment, if it does.
def exit (moment : Nat) : Option Report :=
  if world.kill pid moment then some ⟨attemptsUntil world pid moment, .returned⟩
  else if world.elapsedTime (moment + 1) < KILL_TIMEOUT then none
  else some ⟨attemptsUntil world pid moment, .threw (moment + 1)⟩

theorem elapsedTime_zero : world.elapsedTime 0 = 0 := Int.sub_self _

theorem attemptsUntil_succ (moment : Nat) :
    attemptsUntil world pid (moment + 1) =
      attemptsUntil world pid moment ++ [attemptAt world pid (moment + 1)] := by
  simp [attemptsUntil, List.range_succ]

theorem attemptsUntil_split {moment last : Nat} (h : moment < last) :
    ∃ later, attemptsUntil world pid last =
      attemptsUntil world pid moment ++ attemptAt world pid (moment + 1) :: later := by
  induction last with
  | zero => omega
  | succ last ih =>
      by_cases heq : moment = last
      · exact ⟨[], by rw [heq, attemptsUntil_succ]⟩
      · obtain ⟨later, hlater⟩ := ih (by omega)
        refine ⟨later ++ [attemptAt world pid (last + 1)], ?_⟩
        rw [attemptsUntil_succ, hlater, List.append_assoc]
        rfl

theorem killLoop_succ (fuel moment : Nat) :
    killLoop world pid (fuel + 1) moment (world.kill pid moment)
        (attemptsUntil world pid moment) =
      (exit world pid moment).or (killLoop world pid fuel (moment + 1)
        (world.kill pid (moment + 1)) (attemptsUntil world pid (moment + 1))) := by
  rw [killLoop, exit, attemptsUntil_succ, attemptAt]
  by_cases hkill : world.kill pid moment
  · simp [hkill]
  · by_cases hterm : world.elapsedTime (moment + 1) < TERM_TIMEOUT
    · have hless : world.elapsedTime (moment + 1) < KILL_TIMEOUT := by
        simp only [KILL_TIMEOUT, TERM_TIMEOUT] at hterm ⊢
        omega
      simp [hkill, hterm, hless]
    · by_cases hless : world.elapsedTime (moment + 1) < KILL_TIMEOUT
      · simp [hkill, hterm, hless]
      · simp [hkill, hterm, hless]

theorem exists_exit : ∃ moment, (exit world pid moment).isSome := by
  obtain ⟨moment, hmoment⟩ := world.passes (world.now 0 + KILL_TIMEOUT)
  have helapsed : KILL_TIMEOUT ≤ world.elapsedTime moment := by
    unfold Surroundings.elapsedTime
    omega
  cases moment with
  | zero =>
      rw [elapsedTime_zero] at helapsed
      exact absurd helapsed (by decide)
  | succ moment =>
      refine ⟨moment, ?_⟩
      unfold exit
      rw [if_neg (Int.not_lt.mpr helapsed)]
      split <;> rfl

-- The attempts up to the first moment with an exit, and that exit.
theorem killOrphan_report (text : JsString) :
    ∃ last report, exit world (readPid text) last = some report ∧
      (∀ moment < last, exit world (readPid text) moment = none) ∧
      ∀ fuel, killOrphan world (last + 1 + fuel) (some text) = some report := by
  have hexists := exists_exit world (readPid text)
  obtain ⟨report, hreport⟩ := Option.isSome_iff_exists.mp (Nat.find_spec hexists)
  have hfirst : ∀ moment < Nat.find hexists, exit world (readPid text) moment = none :=
    fun moment hlt => Option.not_isSome_iff_eq_none.mp (Nat.find_min hexists hlt)
  refine ⟨Nat.find hexists, report, hreport, hfirst, fun fuel => ?_⟩
  exact Transition.loop_eq_of_first
    (fun fuel moment => killLoop world (readPid text) fuel moment
      (world.kill (readPid text) moment) (attemptsUntil world (readPid text) moment))
    (fun fuel moment => killLoop_succ world (readPid text) fuel moment) hreport (Nat.zero_le _)
    (fun moment _ hlt => hfirst moment hlt) (by omega)

end Rounds

section Theorems

variable {world : Surroundings} {pid : ParsedInt}

theorem exit_eq_none_iff (moment : Nat) : exit world pid moment = none ↔
    world.kill pid moment = false ∧ world.elapsedTime (moment + 1) < KILL_TIMEOUT := by
  unfold exit
  by_cases hkill : world.kill pid moment <;>
    by_cases hless : world.elapsedTime (moment + 1) < KILL_TIMEOUT <;> simp [hkill, hless]

-- A delivered signal ends the loop as if it had failed.
theorem not_sound_of_delivered (last : Nat) (h : world.kill pid last = true) :
    ¬Report.Sound world pid ⟨attemptsUntil world pid last, .returned⟩ := by
  intro hsound
  obtain ⟨attempt, hlast, hfailed⟩ := hsound.returns rfl
  have hattempt : (attemptsUntil world pid last).getLast? = some (attemptAt world pid last) := by
    simp [attemptsUntil, List.range_succ]
  obtain rfl := Option.some.inj (hattempt.symm.trans hlast)
  cases last <;> simp [attemptAt, h] at hfailed

theorem sound_threw_iff {last : Nat} (hfailed : ∀ moment ≤ last, world.kill pid moment = false)
    (hlate : KILL_TIMEOUT ≤ world.elapsedTime (last + 1)) :
    Report.Sound world pid ⟨attemptsUntil world pid last, .threw (last + 1)⟩ ↔
      world.kill pid (last + 1) = true ∧
        ∀ moment ≤ last, world.elapsedTime moment < TERM_TIMEOUT := by
  constructor
  · intro hsound
    refine ⟨(hsound.throws _ rfl).2, fun moment hle => ?_⟩
    cases moment with
    | zero =>
        rw [elapsedTime_zero]
        decide
    | succ moment =>
        by_contra hlong
        obtain ⟨later, hsplit⟩ := attemptsUntil_split world pid (show moment < last by omega)
        have hkill : (attemptAt world pid (moment + 1)).signal = .SIGKILL := if_neg hlong
        -- the SIGTERM came before, and failed
        have hfirst : attemptAt world pid 0 ∈ attemptsUntil world pid moment :=
          List.mem_map_of_mem (List.mem_range.mpr (by omega))
        have hdelivered := (hsound.kills _ _ later hsplit hkill).2 _ hfirst
        rw [attemptAt, hfailed 0 (by omega)] at hdelivered
        cases hdelivered
  · rintro ⟨halive, hearly⟩
    refine ⟨nofun, fun moment hm => ?_, fun before attempt later hsplit hkill => ?_⟩
    · obtain rfl := Ending.threw.inj hm
      exact ⟨hlate, halive⟩
    · have hmem : attempt ∈ attemptsUntil world pid last := by
        have : attempt ∈ before ++ attempt :: later := by simp
        rwa [← hsplit] at this
      obtain ⟨moment, hm, rfl⟩ := List.mem_map.mp hmem
      have hle := List.mem_range.mp hm
      cases moment with
      | zero => cases hkill
      | succ moment =>
          rw [attemptAt, if_pos (hearly _ (by omega))] at hkill
          cases hkill

-- KILL_TIMEOUT is not seen before the first moment with an exit.
theorem late_after_first {last other : Nat}
    (hfirst : ∀ moment < last, exit world pid moment = none)
    (hlate : KILL_TIMEOUT ≤ world.elapsedTime other) : last < other := by
  cases other with
  | zero =>
      rw [elapsedTime_zero] at hlate
      exact absurd hlate (by decide)
  | succ moment =>
      by_contra hge
      exact absurd ((exit_eq_none_iff moment).mp (hfirst moment (by omega))).2
        (Int.not_lt.mpr hlate)

theorem resurrected_iff {last : Nat}
    (hfirst : ∀ moment < last, exit world pid moment = none)
    (hfailed : ∀ moment ≤ last, world.kill pid moment = false)
    (hlate : KILL_TIMEOUT ≤ world.elapsedTime (last + 1)) :
    Resurrected world pid ↔ world.kill pid (last + 1) = true ∧
      ∀ moment ≤ last, world.elapsedTime moment < TERM_TIMEOUT := by
  constructor
  · rintro ⟨other, hother, halive, hbefore⟩
    have hgt := late_after_first hfirst hother
    have hle : other ≤ last + 1 := by
      by_contra hlong
      have hshort := (hbefore (last + 1) (by omega)).2
      simp only [KILL_TIMEOUT, TERM_TIMEOUT] at hlate hshort
      omega
    obtain rfl : other = last + 1 := by omega
    exact ⟨halive, fun moment hle => (hbefore moment (by omega)).2⟩
  · rintro ⟨halive, hearly⟩
    exact ⟨last + 1, hlate, halive, fun moment hlt =>
      ⟨hfailed moment (by omega), hearly moment (by omega)⟩⟩

-- A process that is gone does not come back.
def StaysGone (world : Surroundings) (pid : ParsedInt) : Prop :=
  ∀ moment, world.kill pid (moment + 1) = true → world.kill pid moment = true

theorem not_resurrected_of_staysGone (h : StaysGone world pid) : ¬Resurrected world pid := by
  rintro ⟨last, hlate, halive, hbefore⟩
  cases last with
  | zero =>
      rw [elapsedTime_zero] at hlate
      exact absurd hlate (by decide)
  | succ last =>
      have hfailed := (hbefore last (Nat.lt_succ_self last)).1
      rw [h last halive] at hfailed
      cases hfailed

theorem killOrphan_sound_iff (world : Surroundings) (text : JsString) :
    ∃ report, (∃ enough, ∀ fuel, killOrphan world (enough + fuel) (some text) = some report) ∧
      (report.Sound world (readPid text) ↔ Resurrected world (readPid text)) ∧
      (StaysGone world (readPid text) → ¬report.Sound world (readPid text)) := by
  obtain ⟨last, report, hreport, hfirst, hrun⟩ := killOrphan_report world text
  have hiff : report.Sound world (readPid text) ↔ Resurrected world (readPid text) := by
    unfold exit at hreport
    split at hreport
    · rename_i hkill
      obtain rfl := Option.some.inj hreport
      refine iff_of_false (not_sound_of_delivered last hkill) ?_
      rintro ⟨other, hlate, _, hbefore⟩
      have hfailed := (hbefore last (late_after_first hfirst hlate)).1
      rw [hkill] at hfailed
      cases hfailed
    · rename_i hkill
      split at hreport
      · cases hreport
      · rename_i hlate
        obtain rfl := Option.some.inj hreport
        have hfailed : world.kill (readPid text) last = false := Bool.not_eq_true _ ▸ hkill
        have hall : ∀ moment ≤ last, world.kill (readPid text) moment = false := by
          intro moment hle
          by_cases heq : moment = last
          · rw [heq]
            exact hfailed
          · exact ((exit_eq_none_iff moment).mp (hfirst moment (by omega))).1
        rw [sound_threw_iff hall (Int.not_lt.mp hlate),
          resurrected_iff hfirst hall (Int.not_lt.mp hlate)]
  exact ⟨report, ⟨last + 1, hrun⟩, hiff,
    fun hgone hsound => not_resurrected_of_staysGone hgone (hiff.mp hsound)⟩

-- A process that every signal reaches, with a clock that counts the waits.
def survivor : Surroundings where
  now moment := 100 * moment
  kill _ _ := true
  passes time := ⟨time.toNat, by omega⟩

theorem killOrphan_sound_iff_survivor :
    ∃ report, (∃ enough, ∀ fuel,
        killOrphan survivor (enough + fuel) (some (utf16 ['4', '2'])) = some report) ∧
      ¬report.Sound survivor (readPid (utf16 ['4', '2'])) := by
  obtain ⟨report, hrun, _, hgone⟩ := killOrphan_sound_iff survivor (utf16 ['4', '2'])
  exact ⟨report, hrun, hgone fun _ _ => rfl⟩

-- It returns over a process that is alive, after a SIGTERM that was delivered.
theorem killOrphan_alive :
    killOrphan survivor 1 (some (utf16 ['4', '2'])) =
        some ⟨[⟨.SIGTERM, 0, true⟩], .returned⟩ ∧
      ¬Report.Sound survivor (readPid (utf16 ['4', '2'])) ⟨[⟨.SIGTERM, 0, true⟩], .returned⟩ :=
  ⟨rfl, not_sound_of_delivered 0 rfl⟩

end Theorems

end OpenBalenaVpn.VpnManager
