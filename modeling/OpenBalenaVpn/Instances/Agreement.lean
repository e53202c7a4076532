import OpenBalenaVpn.Cluster
import OpenBalenaVpn.Instances.Lemmas
import OpenBalenaVpn.VpnManager.Network

namespace OpenBalenaVpn.Instances

open Template

variable (tools : Tools) (container : Container)

section Agree

-- What the workers up to n report their state in.
def statusFiles (n : Nat) : List Text :=
  (workerIds n).map fun id => statusFile (Nat.toDigits 10 id)

-- The script starts the exporter when it finds all of these files at one of its retries,
-- and only then.
def WaitsFor (files : List Text) : Prop :=
  ∀ present, (startExporter tools container present).isSome = true ↔
    ∃ retry < MAX_RETRIES, ∀ file ∈ files, present retry file = true

structure AgreeOn (n : Nat) : Prop where
  exporter : WaitsFor tools container (statusFiles n)
  haproxy : ∀ id, 1 ≤ id → id ≤ n → serverName id ∈ haproxyServers tools container

-- The exporter and HAProxy expect the workers that a primary spawns.
def Agree : Prop :=
  ∀ n : Nat, spawned tools container = some (workerIds n) → AgreeOn tools container n

end Agree

section Condition

-- The tools that read the setting take it for the same number: the primary, which has a
-- default for a number that is not positive, the exporter and HAProxy.
def ReadAlike : Prop :=
  ∀ read, readByPrimary tools container.setting = .ok read →
    let n := ((read.filter (0 < ·)).getD ((requested tools container).getD container.cpus)).toNat
    CountsTo tools (exporterCount container) n ∧ Reaches tools container.setting n

def AgreesWhen : Prop :=
  if container.production then
    if container.setting = [] then
      ∀ requests, requested tools container = some requests → requests = container.cpus
    else if container.setting = ['0'] then False
    else if precedes ['0'] container.setting then
      if IsCount container.setting then
        0 < count container.setting ∨ ∃ requests ≤ 0, requested tools container = some requests
      else ReadAlike tools container
    else Reaches tools container.setting container.cpus
  else if container.setting = [] then True
  else if IsCount container.setting then 0 < count container.setting
  else Reaches tools container.setting 1

end Condition

variable {tools container}

section Workers

-- The loop of the primary forks a process for each of the ids.
theorem keys_initial {Uuid : Type} (config : Cluster.Config) :
    (Cluster.State.initial config : Cluster.State Uuid).processes.keys =
      workerIds config.VPN_INSTANCE_COUNT := by
  rw [Cluster.State.initial, workerIds, Int.toNat_natCast]
  induction config.VPN_INSTANCE_COUNT with
  | zero => rfl
  | succ n ih =>
      have hfresh : n + 1 ∉ (List.range n).map (· + 1) := by simp
      rw [List.range_succ, List.foldl_append, List.map_append, ← ih]
      rw [← ih] at hfresh
      exact (OrderedMap.keys_set _ _ _).trans (if_neg hfresh)

-- The file that the exporter expects of a worker is the one that its openvpn writes.
theorem statusFile_infix_args (config : VpnManager.Config) (manager : VpnManager.Manager) :
    ["--status".toList, statusFile (VpnManager.number manager.instanceId)] <:+:
      VpnManager.args config manager := by
  have hchunk : ∀ rest : List Text, ["--status".toList,
      statusFile (VpnManager.number manager.instanceId)] <:+:
        "--status-version".toList :: "2".toList :: "--writepid".toList ::
          VpnManager.pidFile manager :: "--status".toList ::
          statusFile (VpnManager.number manager.instanceId) :: rest :=
    fun rest => ⟨[_, _, _, _], rest, rfl⟩
  unfold VpnManager.args
  simp only [List.append_assoc, List.cons_append]
  exact hchunk _

end Workers

section Waits

-- A loop that waits until all of some things are there waits for these things and no other.
theorem waits_iff {α : Type*} {bound : Nat} (hbound : 0 < bound) (first second : α → Prop) :
    (∀ present : Nat → α → Bool, (∃ retry < bound, ∀ a, first a → present retry a = true) ↔
      ∃ retry < bound, ∀ a, second a → present retry a = true) ↔ ∀ a, first a ↔ second a := by
  classical
  constructor
  · intro h a
    constructor
    · intro ha
      obtain ⟨retry, _, hall⟩ := (h fun _ a => decide (second a)).mpr
        ⟨0, hbound, fun a ha => decide_eq_true ha⟩
      exact of_decide_eq_true (hall a ha)
    · intro ha
      obtain ⟨retry, _, hall⟩ := (h fun _ a => decide (first a)).mp
        ⟨0, hbound, fun a ha => decide_eq_true ha⟩
      exact of_decide_eq_true (hall a ha)
  · intro h present
    simp only [h]

theorem startExporter_isSome_iff (present : Nat → Text → Bool) :
    (startExporter tools container present).isSome = true ↔ ∃ retry < MAX_RETRIES,
      ∀ file, file ∈ (tools.seq (exporterCount container)).map statusFile →
        present retry file = true := by
  simp [startExporter, pathExists]

theorem statusFile_injective : Function.Injective statusFile := by
  intro first second h
  exact List.append_cancel_left (List.append_cancel_right h)

theorem waitsFor_iff (n : Nat) :
    WaitsFor tools container (statusFiles n) ↔ CountsTo tools (exporterCount container) n := by
  simp only [WaitsFor, startExporter_isSome_iff]
  rw [waits_iff (by decide)]
  have hfiles : statusFiles n = ((workerIds n).map (Nat.toDigits 10)).map statusFile := by
    rw [statusFiles, List.map_map]
    rfl
  constructor
  · intro h word
    have hword := h (statusFile word)
    rw [hfiles, List.mem_map_of_injective statusFile_injective,
      List.mem_map_of_injective statusFile_injective] at hword
    exact hword
  · intro h file
    rw [hfiles, List.mem_map, List.mem_map]
    exact exists_congr fun word => and_congr_left fun _ => h word

theorem statusFile_ne_nil (number : Text) : statusFile number ≠ [] := by
  unfold statusFile
  exact List.append_ne_nil_of_right_ne_nil _ (by simp)

-- What the exporter is given is what the script has waited for.
theorem statusPaths_eq (hd : tools.Documented) {n : Nat} (hn : n < intBound) :
    statusPaths tools (Nat.toDigits 10 n) = [','].intercalate (statusFiles n) := by
  have hpieces : ∀ file ∈ statusFiles n, file ≠ [] := by
    intro file hfile
    obtain ⟨id, _, rfl⟩ := List.mem_map.mp hfile
    exact statusFile_ne_nil _
  unfold statusPaths
  rw [hd.arithmetic_eq n hn, Option.getD_some, ← Shell.foldl_join hpieces]
  exact List.foldl_map.symm

theorem agreeOn_iff (n : Nat) : AgreeOn tools container n ↔
    CountsTo tools (exporterCount container) n ∧ Reaches tools (servers container.env) n := by
  rw [← waitsFor_iff]
  constructor
  · rintro ⟨hexporter, hhaproxy⟩
    refine ⟨hexporter, fun id hid => ?_⟩
    rw [mem_workerIds, Int.toNat_natCast] at hid
    exact hhaproxy id hid.1 hid.2
  · rintro ⟨hexporter, hreaches⟩
    exact ⟨hexporter, fun id hlow hhigh => hreaches id (mem_workerIds.mpr ⟨hlow, by omega⟩)⟩

-- A primary that starts spawns the workers up to one number.
theorem agree_iff_of_spawned {k : Int} (h : spawned tools container = some (workerIds k)) :
    Agree tools container ↔ AgreeOn tools container k.toNat := by
  constructor
  · intro hagree
    exact hagree k.toNat (by rw [workerIds_toNat, h])
  · intro hon n hn
    have hsame := workerIds_inj (Option.some.inj (h.symm.trans hn))
    rwa [hsame, Int.toNat_natCast] at hon

end Waits

section Settings

variable {text : Text}

theorem count_zero : count ['0'] = 0 := by decide

theorem count_one : count ['1'] = 1 := by decide

theorem servers_of_set (h : container.setting ≠ []) :
    servers container.env = container.setting := by
  rw [servers_eq, if_pos h]

-- What the file says is a decimal number: the primary has a default for it where it is
-- zero, and the exporter where it is the text 0.
theorem agree_iff_of_count (hd : tools.Documented) (ht : IsCount text)
    (henv : envInstanceCount container.env = text) : Agree tools container ↔
      (if 0 < count text then (count text : Int) else podInstanceCount tools container).toNat =
          (if text = ['0'] then container.cpus else count text) ∧
        Reaches tools (servers container.env)
          (if text = ['0'] then container.cpus else count text) := by
  rw [agree_iff_of_spawned (spawned_of_count hd ht henv), agreeOn_iff,
    exporterCount_of_count ht henv]
  by_cases hzero : text = ['0']
  · simp only [if_pos hzero]
    rw [countsTo_iff hd container.isCount_nproc, container.count_nproc]
    exact and_congr_right fun h => by rw [h]
  · simp only [if_neg hzero]
    rw [countsTo_iff hd ht]
    exact and_congr_right fun h => by rw [h]

section Development

theorem agree_development (hd : tools.Documented) (h : ¬container.production) :
    Agree tools container ↔ Reaches tools (servers container.env) 1 := by
  rw [agree_iff_of_count hd isCount_one (envInstanceCount_development h), count_one]
  simp

theorem agree_development_unset (hd : tools.Documented) (h : ¬container.production)
    (hunset : container.setting = []) : Agree tools container := by
  have hservers : servers container.env = ['1'] := by
    rw [servers_eq, if_neg (not_not.mpr hunset), if_neg h]
  rw [agree_development hd h, hservers, reaches_iff hd isCount_one, count_one]

theorem agree_development_set (hd : tools.Documented) (h : ¬container.production)
    (hset : container.setting ≠ []) :
    Agree tools container ↔ Reaches tools container.setting 1 := by
  rw [agree_development hd h, servers_of_set hset]

end Development

section Production

-- In production the primary asks the pod info where the file says 0, and the exporter
-- takes the processors.
theorem agree_default (hd : tools.Documented) (h : container.production)
    (hv : container.setting = [] ∨ container.setting = ['0']) : Agree tools container ↔
      (podInstanceCount tools container).toNat = container.cpus ∧
        Reaches tools (servers container.env) container.cpus := by
  have henv := envInstanceCount_production h
  rw [if_pos hv] at henv
  rw [agree_iff_of_count hd isCount_zero henv, count_zero]
  simp

theorem agree_unset (hd : tools.Documented) (h : container.production)
    (hunset : container.setting = []) : Agree tools container ↔
      ∀ requests, requested tools container = some requests → requests = container.cpus := by
  have hservers : servers container.env = container.nproc := by
    rw [servers_eq, if_neg (not_not.mpr hunset), if_pos h]
  have hreaches : Reaches tools container.nproc container.cpus := by
    rw [reaches_iff hd container.isCount_nproc, container.count_nproc]
  have hpos := container.cpus_pos
  rw [agree_default hd h (Or.inl hunset), hservers, and_iff_left hreaches, podInstanceCount_eq]
  cases requested tools container with
  | none => simp
  | some requests =>
      simp only [Option.getD_some, Option.some.injEq, forall_eq']
      omega

-- HAProxy takes the 0 as it is.
theorem not_agree_zero (hd : tools.Documented) (h : container.production)
    (hzero : container.setting = ['0']) : ¬Agree tools container := by
  have hset : container.setting ≠ [] := by simp [hzero]
  rw [agree_default hd h (Or.inr hzero), servers_of_set hset, hzero, reaches_iff hd isCount_zero,
    count_zero]
  have hpos := container.cpus_pos
  omega

-- The number of processors stands in for a text before 0, but not in the range of HAProxy.
theorem agree_before (hd : tools.Documented) (h : container.production)
    (hv : ¬(container.setting = [] ∨ container.setting = ['0']))
    (hlt : ¬precedes ['0'] container.setting = true) :
    Agree tools container ↔ Reaches tools container.setting container.cpus := by
  have henv := envInstanceCount_production h
  rw [if_neg hv, if_neg hlt] at henv
  rw [agree_iff_of_count hd container.isCount_nproc henv, container.count_nproc,
    servers_of_set fun hnil => hv (Or.inl hnil), if_pos container.cpus_pos,
    if_neg container.nproc_ne_zero]
  simp

theorem envInstanceCount_after (h : container.production)
    (hv : ¬(container.setting = [] ∨ container.setting = ['0']))
    (hlt : precedes ['0'] container.setting = true) : envInstanceCount container.env = container.setting := by
  rw [envInstanceCount_production h, if_neg hv, if_pos hlt]

theorem agree_count (hd : tools.Documented) (h : container.production)
    (hv : ¬(container.setting = [] ∨ container.setting = ['0']))
    (hlt : precedes ['0'] container.setting = true) (hc : IsCount container.setting) : Agree tools container ↔
      0 < count container.setting ∨
        ∃ requests ≤ 0, requested tools container = some requests := by
  rw [agree_iff_of_count hd hc (envInstanceCount_after h hv hlt),
    servers_of_set fun hnil => hv (Or.inl hnil), if_neg fun hzero => hv (Or.inr hzero),
    reaches_iff hd hc, and_iff_left (Nat.le_refl _), podInstanceCount_eq]
  have hpos := container.cpus_pos
  by_cases hcount : 0 < count container.setting
  · simp [hcount]
  · -- a 0 with more digits: the exporter waits for no file
    rw [if_neg hcount, or_iff_right hcount]
    cases requested tools container with
    | none => simp; omega
    | some requests =>
        simp only [Option.getD_some, Option.some.injEq, exists_eq_right']
        omega

-- Any other text is passed on as it is.
theorem agree_other (h : container.production)
    (hv : ¬(container.setting = [] ∨ container.setting = ['0']))
    (hlt : precedes ['0'] container.setting = true) :
    Agree tools container ↔ ReadAlike tools container := by
  have henv := envInstanceCount_after h hv hlt
  unfold ReadAlike
  cases hread : readByPrimary tools container.setting with
  | error message =>
      -- the primary does not start, and there is nothing to agree on
      have hnever := spawned_of_error henv hread
      exact iff_of_true (fun n hn => by simp [hnever] at hn) (by nofun)
  | ok read =>
      rw [agree_iff_of_spawned (spawned_of_ok henv hread), agreeOn_iff,
        servers_of_set fun hnil => hv (Or.inl hnil), podInstanceCount_eq]
      simp only [Except.ok.injEq, forall_eq']

end Production

end Settings

-- The components agree exactly on these settings.
theorem components_agree_iff (tools : Tools) (container : Container) (hd : tools.Documented) :
    Agree tools container ↔ AgreesWhen tools container := by
  unfold AgreesWhen
  by_cases hproduction : container.production
  · rw [if_pos hproduction]
    by_cases hnil : container.setting = []
    · rw [if_pos hnil]
      exact agree_unset hd hproduction hnil
    by_cases hzero : container.setting = ['0']
    · rw [if_neg hnil, if_pos hzero]
      exact iff_of_false (not_agree_zero hd hproduction hzero) id
    have hv : ¬(container.setting = [] ∨ container.setting = ['0']) := not_or.mpr ⟨hnil, hzero⟩
    rw [if_neg hnil, if_neg hzero]
    by_cases hlt : precedes ['0'] container.setting = true
    · rw [if_pos hlt]
      by_cases hc : IsCount container.setting
      · rw [if_pos hc]
        exact agree_count hd hproduction hv hlt hc
      · rw [if_neg hc]
        exact agree_other hproduction hv hlt
    · rw [if_neg hlt]
      exact agree_before hd hproduction hv hlt
  · rw [if_neg hproduction]
    by_cases hnil : container.setting = []
    · rw [if_pos hnil]
      exact iff_of_true (agree_development_unset hd hproduction hnil) trivial
    · rw [if_neg hnil, agree_development_set hd hproduction hnil]
      by_cases hc : IsCount container.setting
      · rw [if_pos hc]
        exact reaches_iff hd hc 1
      · rw [if_neg hc]

section Examples

-- Tools that do with decimal numbers what the real ones do.
def plainTools : Tools where
  source file := .ok ((file.dropPrefix? "VPN_INSTANCE_COUNT=".toList).map List.dropLast)
  intVar
    | none => .ok none
    | some text => if IsCount text then .ok (some (count text)) else .error text
  checkInt text := if IsCount text then some (count text) else none
  seq text := if IsCount text then (workerIds (count text)).map (Nat.toDigits 10) else []
  arithmetic text := if IsCount text then some (count text) else none
  servers line := match line.dropPrefix? "\tserver-template vpn 1-".toList with
    | none => []
    | some range => (workerIds (count (range.takeWhile Char.isDigit))).map serverName

theorem serverName_injective : Function.Injective serverName := fun _ _ h =>
  Number.toDigits_inj (List.append_cancel_left h)

theorem dropPrefix?_append (first rest : Text) :
    (first ++ rest).dropPrefix? first = some rest :=
  List.dropPrefix?_append_of_beq rest (BEq.refl first)

theorem plainTools_documented : plainTools.Documented where
  source_eq text _ := by
    unfold plainTools envLine
    rw [List.append_assoc]
    simp only [dropPrefix?_append, Option.map_some, List.dropLast_concat]
  intVar_eq text h := if_pos h
  seq_eq text h := if_pos h
  arithmetic_eq n h := by
    simp only [plainTools, if_pos (isCount_toDigits h), count_toDigits]
  mem_servers_iff text h id := by
    have htake : (text ++ " 127.0.0.1:10000 disabled".toList).takeWhile Char.isDigit = text := by
      rw [List.takeWhile_append_of_pos h.digits]
      simp
    unfold plainTools serverTemplate
    rw [List.append_assoc]
    simp only [dropPrefix?_append, htake]
    rw [List.mem_map_of_injective serverName_injective, mem_workerIds, Int.toNat_natCast]

-- Three instances on a machine with eight processors
def threeInstances : Container where
  PRODUCTION_MODE := some "true".toList
  VPN_INSTANCE_COUNT := some ['3']
  cpu_request := some ['2']
  cpus := 8
  cpus_pos := by decide
  cpus_lt := by decide

theorem components_agree_threeInstances : Agree plainTools threeInstances := by
  refine (components_agree_iff plainTools threeInstances plainTools_documented).mpr ?_
  unfold AgreesWhen
  rw [if_pos (by decide), if_neg (by decide), if_neg (by decide), if_pos (by decide),
    if_pos (by decide)]
  exact Or.inl (by decide)

-- A pod that has requested two of the eight processors, without a setting
def requestingPod : Container := { threeInstances with VPN_INSTANCE_COUNT := none }

-- The primary spawns two workers and the exporter waits for eight.
theorem components_disagree : ¬Agree plainTools requestingPod := by
  intro h
  have hon := h 2 (by decide +kernel)
  have hstart := (hon.exporter fun _ file => decide (file ∈ statusFiles 2)).mpr
    ⟨0, by decide, fun file hfile => decide_eq_true hfile⟩
  exact absurd hstart (by decide +kernel)

end Examples

end OpenBalenaVpn.Instances
