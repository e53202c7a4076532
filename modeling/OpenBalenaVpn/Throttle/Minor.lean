import OpenBalenaVpn.Foundation.Json
import OpenBalenaVpn.Throttle.Numbering
import Mathlib.Algebra.Ring.Nat
import Mathlib.Data.List.Dedup
import Mathlib.Data.List.Perm.Lattice

namespace OpenBalenaVpn.Throttle

section Minor

-- tc reads the digits as hexadecimal.
def tcMinor (classid : Text) : Option Nat :=
  classid.foldlM (fun value c => (Json.hexDigit c.toNat).map (16 * value + ·)) 0

def Legal (classid : Text) : Prop := ∃ minor ∈ tcMinor classid, 1 ≤ minor ∧ minor ≤ 0xffff

theorem hexDigit_digitChar {digit : Nat} (h : digit < 10) :
    Json.hexDigit (Nat.digitChar digit).toNat = some digit := by
  have hall : ∀ digit : Fin 10,
      Json.hexDigit (Nat.digitChar digit).toNat = some digit.val := by decide
  exact hall ⟨digit, h⟩

theorem tcMinor_of_lt {number : Nat} (h : number < 10) :
    tcMinor (decimal number) = some number := by
  rw [decimal, Nat.toDigits_of_lt_base h, tcMinor, List.foldlM_cons, hexDigit_digitChar h]
  simp

theorem tcMinor_of_le {number : Nat} (h : 10 ≤ number) : tcMinor (decimal number) =
    (tcMinor (decimal (number / 10))).map (16 * · + number % 10) := by
  have hdigit : Json.hexDigit (Nat.digitChar (number % 10)).toNat = some (number % 10) :=
    hexDigit_digitChar (Nat.mod_lt number (by omega))
  rw [decimal, Nat.toDigits_of_base_le (by omega) h, tcMinor, List.foldlM_append]
  rw [← tcMinor, ← decimal]
  cases tcMinor (decimal (number / 10)) with
  | none => rfl
  | some value => simp [hdigit]

-- As many digits in the one base as in the other.
theorem exists_tcMinor (number : Nat) : ∃ minor, tcMinor (decimal number) = some minor ∧
    ∀ length, (number < 10 ^ length → minor < 16 ^ length) ∧
      (10 ^ length ≤ number → 16 ^ length ≤ minor) := by
  induction number using Nat.strong_induction_on with
  | _ number ih =>
      by_cases h : number < 10
      · refine ⟨number, tcMinor_of_lt h, fun length => ?_⟩
        cases length with
        | zero => simp
        | succ length =>
            have hten : 10 ≤ 10 ^ (length + 1) := by
              rw [Nat.pow_succ]
              have hpow := Nat.one_le_pow length 10 (by omega)
              omega
            have hsixteen : 16 ≤ 16 ^ (length + 1) := by
              rw [Nat.pow_succ]
              have hpow := Nat.one_le_pow length 16 (by omega)
              omega
            omega
      · obtain ⟨minor, hminor, hbounds⟩ := ih (number / 10) (by omega)
        refine ⟨16 * minor + number % 10, ?_, fun length => ?_⟩
        · rw [tcMinor_of_le (by omega), hminor]
          rfl
        · cases length with
          | zero =>
              obtain ⟨_, hlower⟩ := hbounds 0
              simp only [Nat.pow_zero] at hlower ⊢
              omega
          | succ length =>
              obtain ⟨hupper, hlower⟩ := hbounds length
              rw [Nat.pow_succ, Nat.pow_succ]
              omega

theorem legal_decimal_iff (number : Nat) :
    Legal (decimal number) ↔ 1 ≤ number ∧ number ≤ 9999 := by
  obtain ⟨minor, hminor, hbounds⟩ := exists_tcMinor number
  have hsome : Legal (decimal number) ↔ 1 ≤ minor ∧ minor ≤ 0xffff := by
    rw [Legal, hminor]
    simp
  have hzero := hbounds 0
  have hfour := hbounds 4
  rw [hsome]
  simp only [Nat.reducePow] at hzero hfour
  omega

end Minor

section Passed

-- The id that a call of tc names as 1:<classid>.
def Command.passes : Command → Option Text
  | .tc (.classAdd _ classid _) => some classid
  | .tc (.filterAdd _ _ classid) => some classid
  | .tc (.classDel _ classid) => some classid
  | _ => none

variable {α β : Type} (accepts : State → TcCommand → Bool)

def Passes (program : Script α) (state : State) (classid : Text) : Prop :=
  ∃ command ∈ Program.calls (perform accepts) program state, command.passes = some classid

theorem passes_bind (program : Script α) (next : α → Script β) (state : State)
    (classid : Text) : Passes accepts (program >>= next) state classid ↔
      Passes accepts program state classid ∨
        Passes accepts (next (Program.exec (perform accepts) program state).1)
          (Program.exec (perform accepts) program state).2 classid := by
  simp only [Passes, Program.calls_bind, List.mem_append, or_and_right, exists_or]

theorem passes_pure (value : α) (state : State) (classid : Text) :
    ¬ Passes accepts (pure value : Script α) state classid := by
  rintro ⟨command, hcommand, _⟩
  cases hcommand

theorem passes_tc (command : TcCommand) (state : State) (classid : Text) :
    Passes accepts (tc command) state classid ↔ (Command.tc command).passes = some classid := by
  simp [Passes, tc, Program.calls]

-- The accesses to the files pass no id, nor does a message.
theorem passes_files (state : State) (classid : Text) :
    (∀ ip, ¬ Passes accepts (testClassid ip) state classid) ∧
      (∀ ip, ¬ Passes accepts (catClassid ip) state classid) ∧
      (∀ ip last, ¬ Passes accepts (echoClassid ip last) state classid) ∧
      (∀ ip, ¬ Passes accepts (testDev ip) state classid) ∧
      (∀ ip, ¬ Passes accepts (catDev ip) state classid) ∧
      (∀ ip dev, ¬ Passes accepts (echoDev ip dev) state classid) ∧
      (∀ ip, ¬ Passes accepts (rmDev ip) state classid) ∧
      ¬ Passes accepts testLast state classid ∧ ¬ Passes accepts catLast state classid ∧
      (∀ last, ¬ Passes accepts (echoLast last) state classid) ∧
      ∀ message, ¬ Passes accepts (error message) state classid := by
  simp [Passes, testClassid, catClassid, echoClassid, testDev, catDev, echoDev, rmDev, testLast,
    catLast, echoLast, error, Program.calls, Command.passes]

theorem passes_tcOrError (command : TcCommand) (message : Text) (state : State)
    (classid : Text) : Passes accepts (tcOrError command message) state classid ↔
      (Command.tc command).passes = some classid := by
  rw [tcOrError, passes_bind, passes_tc, exec_tc]
  split
  · simp [passes_pure]
  · simp [passes_files]

theorem passes_bwlimitDisable {ip classid : Text} {state : State}
    (h : Passes accepts (bwlimitDisable ip) state classid) : state.classid ip = some classid := by
  cases hclassid : state.classid ip with
  | none => simp [bwlimitDisable, passes_bind, passes_files, passes_pure, hclassid] at h
  | some stored =>
      cases hdev : state.dev ip with
      | none => simp [bwlimitDisable, passes_bind, passes_files, passes_pure, hclassid, hdev] at h
      | some dev =>
          have hstored : stored = classid := by
            simpa [bwlimitDisable, passes_bind, passes_files, passes_tc, hclassid, hdev,
              Command.passes] using h
          rw [hstored]

theorem not_passes_findClassid (ip : Text) (state : State) (classid : Text) :
    ¬ Passes accepts (findClassid ip) state classid := by
  cases hclassid : state.classid ip with
  | some stored => simp [findClassid, passes_bind, passes_files, hclassid]
  | none =>
      cases hlast : state.lastClassid with
      | none => simp [findClassid, passes_bind, passes_files, passes_pure, hclassid, hlast]
      | some last => simp [findClassid, passes_bind, passes_files, passes_pure, hclassid, hlast]

theorem passes_addRules_iff (run : Run) (given classid : Text) (state : State) :
    Passes accepts (addRules run given) state classid ↔ given = classid := by
  simp [addRules, passes_bind, passes_tcOrError, Command.passes]

theorem not_passes_ensureQdiscs (dev : Text) (state : State) (classid : Text) :
    ¬ Passes accepts (ensureQdiscs dev) state classid := by
  by_cases hdev : dev = []
  · simp [ensureQdiscs, hdev, passes_pure]
  · simp [ensureQdiscs, hdev, passes_bind, passes_tc, passes_pure, Command.passes]

-- A run that enables passes the id of its client, and no run passes another one.
theorem passes_bwlimitEnable_iff (run : Run) (state : State) (classid : Text) :
    Passes accepts (bwlimitEnable run) state classid ↔ state.allotted run.ip = classid := by
  have hfiles : ∀ state' : State, state'.toFiles = state.toFiles.disable run.ip →
      state'.allotted run.ip = state.allotted run.ip := by
    intro state' hsame
    rw [hsame, Files.disable]
    split <;> rfl
  have hallotted := hfiles _ (toFiles_bwlimitDisable accepts state run.ip)
  simp only [bwlimitEnable, passes_bind, not_passes_findClassid, passes_addRules_iff,
    exec_findClassid, passes_files, hallotted, false_or, or_false]
  refine or_iff_right_of_imp fun hdisable => ?_
  exact allotted_of_classid (passes_bwlimitDisable accepts hdisable)

theorem passes_learnAddress (run : Run) {state : State} {classid : Text}
    (h : Passes accepts (learnAddress run) state classid) :
    state.allotted run.ip = classid ∧
      (run.action.enables = true ∨ (state.classid run.ip).isSome = true) := by
  have hprovided : (provided accepts state run.dev).allotted run.ip = state.allotted run.ip := by
    rw [toFiles_provided]
  rw [learnAddress, passes_bind, exec_ensureQdiscs] at h
  replace h := h.resolve_left (not_passes_ensureQdiscs accepts run.dev state classid)
  cases haction : run.action with
  | add | update =>
      rw [haction, passes_bwlimitEnable_iff, hprovided] at h
      exact ⟨h, Or.inl rfl⟩
  | delete =>
      rw [haction] at h
      have hclassid := passes_bwlimitDisable accepts h
      rw [toFiles_provided] at hclassid
      exact ⟨allotted_of_classid hclassid, Or.inr (by rw [hclassid]; rfl)⟩
  | other operation =>
      rw [haction] at h
      simp [passes_files] at h

theorem passes_of_enables {run : Run} (h : run.action.enables = true) (state : State) :
    Passes accepts (learnAddress run) state (state.allotted run.ip) := by
  have hprovided : (provided accepts state run.dev).allotted run.ip = state.allotted run.ip := by
    rw [toFiles_provided]
  rw [learnAddress, passes_bind, exec_ensureQdiscs]
  refine Or.inr ?_
  cases haction : run.action with
  | add | update => exact (passes_bwlimitEnable_iff accepts run _ _).mpr hprovided
  | delete =>
      rw [haction] at h
      cases h
  | other operation =>
      rw [haction] at h
      cases h

end Passed

section Limit

open Transition

variable (accepts : State → TcCommand → Bool)

-- The addresses that were ever added, each one counted once.
def distinctClients (runs : List Run) : List Text :=
  ((runs.filter fun run => run.action.enables).map Run.ip).dedup

theorem mem_clients_iff (runs : List Run) (ip : Text) :
    ip ∈ clients runs ↔ ∃ run ∈ runs, run.action.enables = true ∧ run.ip = ip := by
  induction runs using List.reverseRecOn with
  | nil => simp [clients]
  | append_singleton runs run ih =>
      rw [clients_concat]
      by_cases hnew : run.action.enables = true ∧ run.ip ∉ clients runs
      · rw [if_pos hnew, List.mem_append, ih, List.mem_singleton]
        constructor
        · rintro (⟨other, hother, henables⟩ | rfl)
          · exact ⟨other, List.mem_append_left _ hother, henables⟩
          · exact ⟨run, List.mem_append_right _ (List.mem_singleton_self run), hnew.1, rfl⟩
        · rintro ⟨other, hother, henables, rfl⟩
          rcases List.mem_append.mp hother with hold | hlast
          · exact Or.inl ⟨other, hold, henables, rfl⟩
          · exact Or.inr (List.mem_singleton.mp hlast ▸ rfl)
      · rw [if_neg hnew, ih]
        constructor
        · rintro ⟨other, hother, henables⟩
          exact ⟨other, List.mem_append_left _ hother, henables⟩
        · rintro ⟨other, hother, henables, rfl⟩
          rcases List.mem_append.mp hother with hold | hlast
          · exact ⟨other, hold, henables, rfl⟩
          · obtain rfl := List.mem_singleton.mp hlast
            exact ih.mp (not_not.mp fun hmem => hnew ⟨henables, hmem⟩)

theorem length_clients (accepts : State → TcCommand → Bool) (runs : List Run) :
    (clients runs).length = (distinctClients runs).length := by
  refine List.Perm.length_eq ((List.perm_ext_iff_of_nodup (numbered_after accepts runs).nodup
    (List.nodup_dedup _)).mpr fun ip => ?_)
  simp [mem_clients_iff, and_assoc]

-- The run passes legal ids where the numbers of the clients so far are legal.
theorem passes_legal_iff (runs : List Run) (run : Run) (h : (clients runs).length ≤ 9999) :
    (∀ classid, Passes accepts (learnAddress run) (after accepts runs) classid →
      Legal classid) ↔ (clients (runs ++ [run])).length ≤ 9999 := by
  have hnumbered := numbered_after accepts runs
  constructor
  · intro hall
    rw [clients_concat]
    by_cases hnew : run.action.enables = true ∧ run.ip ∉ clients runs
    · have hlegal := hall _ (passes_of_enables accepts hnew.1 (after accepts runs))
      rw [hnumbered.allotted_of_notMem hnew.2, legal_decimal_iff] at hlegal
      rw [if_pos hnew, List.length_append]
      exact hlegal.2
    · rw [if_neg hnew]
      exact h
  · rintro hlength classid hpasses
    obtain ⟨rfl, hknown⟩ := passes_learnAddress accepts run hpasses
    obtain ⟨place, hplace, hlt⟩ := hnumbered.exists_allotted run.ip
    rw [hplace, legal_decimal_iff]
    rw [clients_concat] at hlength
    by_cases hmem : run.ip ∈ clients runs
    · rw [if_pos hmem] at hlt
      omega
    · have henables : run.action.enables = true :=
        hknown.resolve_right fun hsome => hmem ((hnumbered.isSome_iff run.ip).mp hsome)
      rw [if_neg hmem] at hlt
      rw [if_pos ⟨henables, hmem⟩] at hlength
      omega

-- Every id that is passed in a sequence of runs is legal exactly as long as there are
-- not more clients than numbers of four digits, whatever tc answers.
theorem classids_legal_iff (runs : List Run) :
    Always (fun before run => ∀ classid,
      Passes accepts (learnAddress run) (after accepts before) classid → Legal classid) runs ↔
      (distinctClients runs).length ≤ 9999 := by
  rw [← length_clients accepts]
  induction runs using List.reverseRecOn with
  | nil => exact iff_of_true (always_nil _) (Nat.zero_le _)
  | append_singleton runs run ih =>
      rw [always_concat]
      have hgrows : (clients runs).length ≤ (clients (runs ++ [run])).length := by
        rw [clients_concat]
        split
        · simp
        · exact Nat.le_refl _
      constructor
      · rintro ⟨hall, hlast⟩
        exact (passes_legal_iff accepts runs run (ih.mp hall)).mp hlast
      · intro hlength
        have hbefore : (clients runs).length ≤ 9999 := by omega
        exact ⟨ih.mpr hbefore, (passes_legal_iff accepts runs run hbefore).mpr hlength⟩

end Limit

section Large

open Transition

-- Addresses of the pool of the subnet 10.1.0.0/16, which starts at the third.
def address (number : Nat) : Text :=
  "10.1.".toList ++ (decimal ((number + 3) / 256) ++ '.' :: decimal ((number + 3) % 256))

def added (number : Nat) : Run where
  downrate := "5mbit".toList
  uprate := "1mbit".toList
  action := .add
  ip := address number
  dev := "tun1".toList
  named := Or.inr (by decide)

theorem address_inj {first second : Nat} (h : address first = address second) :
    first = second := by
  have hdot : ∀ number, '.' ∉ decimal number := fun number hmem =>
    absurd (Number.isDigit_toDigits number '.' hmem) (by decide)
  have hsame : "10.1.".toList ++
        (decimal ((first + 3) / 256) ++ '.' :: decimal ((first + 3) % 256)) =
      "10.1.".toList ++
        (decimal ((second + 3) / 256) ++ '.' :: decimal ((second + 3) % 256)) := h
  have hparts := List.append_cancel_left hsame
  obtain ⟨hhigh, _, hlow⟩ := (List.append_cons_inj_of_notMem (hdot _) (hdot _)).mp hparts
  have hquotient := Number.toDigits_inj hhigh
  have hremainder := Number.toDigits_inj hlow
  omega

theorem length_clients_added (count : Nat) :
    (clients ((List.range count).map added)).length = count := by
  have hfilter : ((List.range count).map added).filter (fun run => run.action.enables) =
      (List.range count).map added :=
    List.filter_eq_self.mpr fun run hrun => by
      obtain ⟨number, _, rfl⟩ := List.mem_map.mp hrun
      rfl
  have hnodup : (((List.range count).map added).map Run.ip).Nodup := by
    rw [List.map_map]
    exact List.nodup_range.map fun _ _ heq => address_inj heq
  rw [length_clients fun _ _ => true, distinctClients, hfilter, hnodup.dedup]
  simp

-- The class of the client 10.1.39.18, the ten thousandth, is 1:10000.
theorem classid_too_large :
    ¬ Always (fun before run => ∀ classid, Passes (fun _ _ => true) (learnAddress run)
      (after (fun _ _ => true) before) classid → Legal classid)
      ((List.range 10000).map added) := by
  rw [List.range_succ, List.map_append, List.map_singleton, always_concat]
  rintro ⟨_, hlast⟩
  have hlength := length_clients_added 9999
  have hlegal := (passes_legal_iff _ _ _ (by omega)).mp hlast
  have hall := length_clients_added 10000
  rw [List.range_succ, List.map_append, List.map_singleton] at hall
  omega

end Large

end OpenBalenaVpn.Throttle
