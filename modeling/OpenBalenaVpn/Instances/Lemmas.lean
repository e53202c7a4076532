import OpenBalenaVpn.Foundation.Number
import OpenBalenaVpn.Instances

namespace OpenBalenaVpn.Instances

open Template

section Count

def count (text : Text) : Nat := Nat.ofDigitChars 10 text 0

-- A decimal number that is an int.
structure IsCount (text : Text) : Prop where
  ne_nil : text ≠ []
  digits : ∀ c ∈ text, c.isDigit = true
  lt : count text < intBound

instance (text : Text) : Decidable (IsCount text) :=
  decidable_of_iff (text.isEmpty = false ∧ text.all Char.isDigit = true ∧ count text < intBound)
    ⟨fun h => ⟨List.isEmpty_eq_false_iff.mp h.1, List.all_eq_true.mp h.2.1, h.2.2⟩,
      fun h => ⟨List.isEmpty_eq_false_iff.mpr h.ne_nil, List.all_eq_true.mpr h.digits, h.lt⟩⟩

theorem count_toDigits (n : Nat) : count (Nat.toDigits 10 n) = n := Nat.ofDigitChars_ten_toDigits

theorem isCount_toDigits {n : Nat} (h : n < intBound) : IsCount (Nat.toDigits 10 n) where
  ne_nil := Nat.toDigits_ne_nil
  digits := Number.isDigit_toDigits n
  lt := (count_toDigits n).symm ▸ h

theorem isCount_zero : IsCount ['0'] := isCount_toDigits (n := 0) (by decide)

theorem isCount_one : IsCount ['1'] := isCount_toDigits (n := 1) (by decide)

theorem Container.isCount_nproc (container : Container) : IsCount container.nproc :=
  isCount_toDigits container.cpus_lt

theorem Container.count_nproc (container : Container) : count container.nproc = container.cpus :=
  count_toDigits container.cpus

theorem Container.nproc_ne_zero (container : Container) : container.nproc ≠ ['0'] := by
  intro h
  have hcount := container.count_nproc
  rw [h] at hcount
  exact absurd container.cpus_pos (hcount ▸ by decide)

end Count

section Documented

-- What the documentation of the tools says of decimal numbers.
structure Tools.Documented (tools : Tools) : Prop where
  source_eq : ∀ text, IsCount text → tools.source (envLine text) = .ok (some text)
  intVar_eq : ∀ text, IsCount text → tools.intVar (some text) = .ok (some (count text))
  seq_eq : ∀ text, IsCount text →
    tools.seq text = (workerIds (count text)).map (Nat.toDigits 10)
  arithmetic_eq : ∀ n < intBound, tools.arithmetic (Nat.toDigits 10 n) = some (n : Int)
  mem_servers_iff : ∀ text, IsCount text → ∀ id,
    serverName id ∈ tools.servers (serverTemplate text) ↔ 1 ≤ id ∧ id ≤ count text

end Documented

section Workers

theorem mem_workerIds {k : Int} {id : Nat} : id ∈ workerIds k ↔ 1 ≤ id ∧ id ≤ k.toNat := by
  simp only [workerIds, List.mem_map, List.mem_range]
  constructor
  · rintro ⟨i, hi, rfl⟩
    omega
  · intro h
    exact ⟨id - 1, by omega, by omega⟩

theorem workerIds_inj {k n : Int} (h : workerIds k = workerIds n) : k.toNat = n.toNat := by
  have hlength := congrArg List.length h
  simpa [workerIds] using hlength

theorem workerIds_toNat (k : Int) : workerIds k.toNat = workerIds k := by
  rw [workerIds, workerIds, Int.toNat_natCast]

end Workers

section Settings

variable (container : Container)

-- VPN_INSTANCE_COUNT as the templates read it.
def Container.setting : Text := container.VPN_INSTANCE_COUNT.getD []

def Container.production : Prop := container.PRODUCTION_MODE.getD [] = "true".toList

instance : Decidable container.production := inferInstanceAs (Decidable (_ = _))

variable {container}

theorem production_truth_iff :
    (eq (getenv container.env .PRODUCTION_MODE []) "true".toList).truth = true ↔
      container.production := by
  rw [truth_eq_iff, getenv_nil]
  rfl

theorem getenv_setting (default : Text) : getenv container.env .VPN_INSTANCE_COUNT default =
    if container.setting = [] then default else container.setting := rfl

theorem getenv_NPROC : getenv container.env .NPROC [] = container.nproc := getenv_nil _ _

theorem envInstanceCount_development (h : ¬container.production) :
    envInstanceCount container.env = ['1'] := by
  rw [envInstanceCount, if_neg (mt production_truth_iff.mp h)]

-- The setting in production, with its default: 0 stays, a text after it is kept, and a text
-- before it gives way to the number of processors.
theorem envInstanceCount_production (h : container.production) :
    envInstanceCount container.env =
      if container.setting = [] ∨ container.setting = ['0'] then ['0']
      else if precedes ['0'] container.setting then container.setting else container.nproc := by
  rw [envInstanceCount, if_pos (production_truth_iff.mpr h)]
  simp only [truth_eq_iff, truth_gt, getenv_setting, getenv_NPROC]
  by_cases hnil : container.setting = []
  · simp only [hnil, if_true, true_or]
  · simp only [hnil, if_false, false_or]

theorem servers_eq : servers container.env =
    if container.setting ≠ [] then container.setting
    else if container.production then container.nproc else ['1'] := by
  rw [servers, getenv_setting, ite_not]
  congr 1
  by_cases hp : container.production
  · have hproduction := production_truth_iff.mpr hp
    have hnproc : (Value.text container.nproc).truth = true :=
      (truth_text_iff _).mpr container.isCount_nproc.ne_nil
    rw [Value.and, if_pos hproduction, getenv_NPROC, print_or_of_truth hnproc, if_pos hp]
    rfl
  · have hproduction := mt production_truth_iff.mp hp
    rw [Value.and, if_neg hproduction, print_or_of_not_truth hproduction, if_neg hp]
    rfl

end Settings

section Readers

-- What the primary makes of a line of its file.
def readByPrimary (tools : Tools) (text : Text) : Except Text (Option Int) :=
  (tools.source (envLine text)).bind tools.intVar

-- The integer that the pod info holds.
def requested (tools : Tools) (container : Container) : Option Int :=
  container.cpu_request.bind tools.checkInt

variable {tools : Tools} {container : Container} {text : Text}

theorem IsCount.notMem (h : IsCount text) {c : Char} (hc : c.isDigit = false) : c ∉ text :=
  Number.notMem_digits h.digits hc

-- The exporter counts to what the file says, and has its own default for 0.
theorem exporterCount_of_count (h : IsCount text) (henv : envInstanceCount container.env = text) :
    exporterCount container = if text = ['0'] then container.nproc else text := by
  have hname : '=' ∉ "VPN_INSTANCE_COUNT".toList ∧ '\n' ∉ "VPN_INSTANCE_COUNT".toList := by decide
  have hread := Shell.substitute_assignment hname
    ⟨h.notMem (show '='.isDigit = false by decide), h.notMem (show '\n'.isDigit = false by decide)⟩
  have hstart : "VPN_INSTANCE_COUNT=".toList = "VPN_INSTANCE_COUNT".toList ++ ['='] := by simp
  have hfile : envFile container.env = "VPN_INSTANCE_COUNT".toList ++ '=' :: text ++ ['\n'] := by
    unfold envFile envLine
    rw [henv, hstart, List.append_assoc _ ['='], List.singleton_append]
  unfold exporterCount
  rw [hfile, hstart, hread]

theorem podInstanceCount_eq : podInstanceCount tools container =
    (requested tools container).getD container.cpus := by
  unfold podInstanceCount requested
  cases container.cpu_request.bind tools.checkInt <;> rfl

variable (tools) in
theorem instanceCount_eq (henv : envInstanceCount container.env = text) :
    VPN_INSTANCE_COUNT tools container = (readByPrimary tools text).map fun read =>
      (read.filter (0 < ·)).getD (podInstanceCount tools container) := by
  rw [VPN_INSTANCE_COUNT, envFile, henv, readByPrimary]
  cases tools.source (envLine text) with
  | error message => rfl
  | ok value =>
      simp only [getInstanceCount, bind, Except.bind]
      cases tools.intVar value with
      | error message => rfl
      | ok read =>
          cases read with
          | none => rfl
          | some instanceCount =>
              by_cases hpos : 0 < instanceCount <;>
                simp [pure, Except.pure, Except.map, Option.filter, hpos]

theorem spawned_of_ok {read : Option Int} (henv : envInstanceCount container.env = text)
    (hread : readByPrimary tools text = .ok read) : spawned tools container =
      some (workerIds ((read.filter (0 < ·)).getD (podInstanceCount tools container))) := by
  rw [spawned, instanceCount_eq tools henv, hread]
  rfl

theorem spawned_of_error {message : Text} (henv : envInstanceCount container.env = text)
    (hread : readByPrimary tools text = .error message) : spawned tools container = none := by
  rw [spawned, instanceCount_eq tools henv, hread]
  rfl

theorem spawned_of_count (hd : tools.Documented) (h : IsCount text)
    (henv : envInstanceCount container.env = text) : spawned tools container =
      some (workerIds (if 0 < count text then count text else podInstanceCount tools container)) := by
  have hread : readByPrimary tools text = .ok (some (count text)) := by
    rw [readByPrimary, hd.source_eq text h]
    exact hd.intVar_eq text h
  rw [spawned_of_ok henv hread]
  by_cases hpos : 0 < count text <;> simp [Option.filter, hpos]

-- `seq` prints the numbers up to n.
def CountsTo (tools : Tools) (text : Text) (n : Nat) : Prop :=
  ∀ word, word ∈ tools.seq text ↔ word ∈ (workerIds n).map (Nat.toDigits 10)

-- HAProxy makes servers for the workers up to n of the range.
def Reaches (tools : Tools) (text : Text) (n : Nat) : Prop :=
  ∀ id ∈ workerIds n, serverName id ∈ tools.servers (serverTemplate text)

theorem countsTo_iff (hd : tools.Documented) (h : IsCount text) (n : Nat) :
    CountsTo tools text n ↔ n = count text := by
  rw [CountsTo, hd.seq_eq text h]
  constructor
  · intro hwords
    have hinj : Function.Injective (Nat.toDigits 10) := fun _ _ => Number.toDigits_inj
    have hmem : ∀ id, id ∈ workerIds (count text) ↔ id ∈ workerIds n := by
      intro id
      rw [← List.mem_map_of_injective hinj, ← List.mem_map_of_injective hinj]
      exact hwords (Nat.toDigits 10 id)
    have hlast := hmem n
    have hcount := hmem (count text)
    rw [mem_workerIds, mem_workerIds] at hlast hcount
    omega
  · rintro rfl word
    rfl

theorem reaches_iff (hd : tools.Documented) (h : IsCount text) (n : Nat) :
    Reaches tools text n ↔ n ≤ count text := by
  simp only [Reaches, mem_workerIds, hd.mem_servers_iff text h, Int.toNat_natCast]
  constructor
  · intro hservers
    by_contra hlt
    have hlast := hservers n (by omega)
    omega
  · intro hle id hid
    exact ⟨hid.1, hid.2.trans hle⟩

end Readers

end OpenBalenaVpn.Instances
