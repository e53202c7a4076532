import OpenBalenaVpn.Throttle.Numbering

namespace OpenBalenaVpn.Throttle

section Rules

-- Every call of tc takes effect.
def accepting : State → TcCommand → Bool := fun _ _ => true

-- The rules of a client on a device: the classes with its id, and the filters that
-- match its address.
structure Rules where
  classes : List (Text × Text)
  filters : List (Text × Text)
  police : List (Text × Text × Text)

def State.rules (state : State) (ip dev : Text) : Rules where
  classes := (state.interface dev).classes.filter fun entry => state.classid ip = some entry.1
  filters := (state.interface dev).filters.filter fun entry => entry.1 = ip
  police := (state.interface dev).police.filter fun entry => entry.1 = ip

-- The run by which a client is limited: its last operation, where that is add or update.
def track (active : Text → Option Run) (run : Run) : Text → Option Run :=
  match run.action with
  | .add | .update => Function.update active run.ip (some run)
  | .delete => Function.update active run.ip none
  | .other _ => active

def active (runs : List Run) : Text → Option Run := runs.foldl track fun _ => none

def Limited (state : State) (ip : Text) (run : Run) : Prop :=
  ∃ classid, state.classid ip = some classid ∧
    (classid, run.downrate) ∈ (state.interface run.dev).classes ∧
    (ip, classid) ∈ (state.interface run.dev).filters ∧
    (ip, run.uprate, classid) ∈ (state.interface run.dev).police

def Unlimited (state : State) (ip : Text) : Prop :=
  ∀ dev, state.rules ip dev = ⟨[], [], []⟩

-- The rules after a run are those of the last operation of each client, and those of
-- the other clients are what they were.
structure Isolated (before : List Run) (run : Run) : Prop where
  limited : ∀ ip last, active (before ++ [run]) ip = some last →
    Limited (after accepting (before ++ [run])) ip last
  unlimited : ∀ ip, active (before ++ [run]) ip = none →
    Unlimited (after accepting (before ++ [run])) ip
  unchanged : ∀ ip, ip ≠ run.ip → ∀ dev,
    (after accepting (before ++ [run])).rules ip dev = (after accepting before).rules ip dev

def Action.changes : Action → Bool
  | other _ => false
  | _ => true

-- Where the client of the run is limited, no other client is limited on that device.
def Alone (before : List Run) (run : Run) : Prop :=
  run.action.changes = true → ∀ last, active before run.ip = some last →
    ∀ other last', other ≠ run.ip → active before other = some last' → last'.dev ≠ last.dev

end Rules

section Expected

-- The rules of a client whose last operation is known.
def expected (classid : Option Text) (ip : Text) (last : Option Run) (dev : Text) : Rules :=
  match classid, last with
  | some classid, some run =>
      if run.dev = dev then
        ⟨[(classid, run.downrate)], [(ip, classid)], [(ip, run.uprate, classid)]⟩
      else ⟨[], [], []⟩
  | _, _ => ⟨[], [], []⟩

-- The state directory and the devices agree with the last operations.
structure Agrees (known : List Text) (active : Text → Option Run) (state : State) : Prop where
  numbered : Numbered known state.toFiles
  dev : ∀ ip, state.dev ip = (active ip).map Run.dev
  classid : ∀ ip run, active ip = some run → (state.classid ip).isSome = true
  named : ∀ ip run, active ip = some run → run.dev ≠ []
  rules : ∀ ip dev, state.rules ip dev = expected (state.classid ip) ip (active ip) dev
  owned : ∀ dev classid rate, (classid, rate) ∈ (state.interface dev).classes →
    ∃ ip, state.classid ip = some classid

variable {known : List Text} {active : Text → Option Run} {state : State}

theorem interface_provided (dev other : Text) :
    ((provided accepting state dev).interface other).classes = (state.interface other).classes ∧
      ((provided accepting state dev).interface other).filters =
        (state.interface other).filters ∧
      ((provided accepting state dev).interface other).police =
        (state.interface other).police := by
  by_cases hdev : dev = []
  · simp [provided, hdev]
  by_cases heq : other = dev
  · subst heq
    simp [provided, tried, accepting, State.tc, TcCommand.dev, TcCommand.effect, hdev]
  · simp [provided, tried, accepting, State.tc, TcCommand.dev, hdev, heq]

-- What is left when a client is disabled: on its device no filter, and the classes but
-- for its own.
def State.disabled (state : State) (ip dev classid : Text) : State :=
  { state with
    dev := Function.update state.dev ip none
    interface := Function.update state.interface dev
      { state.interface dev with
        classes := (state.interface dev).classes.filter fun entry => entry.1 ≠ classid
        filters := []
        police := [] } }

theorem exec_bwlimitDisable_accepting {ip dev classid : Text}
    (hclassid : state.classid ip = some classid) (hdev : state.dev ip = some dev)
    (hne : dev ≠ []) : (Program.exec (perform accepting) (bwlimitDisable ip) state).2 =
      state.disabled ip dev classid := by
  rw [exec_bwlimitDisable_of_active accepting state ip hclassid hdev]
  simp [cleared, tried, accepting, State.tc, TcCommand.dev, TcCommand.effect, hne,
    State.disabled]

-- What is there when a client is limited.
def State.enabled (state : State) (run : Run) : State where
  toFiles := state.toFiles.enable run.ip run.dev
  interface := Function.update state.interface run.dev
    { state.interface run.dev with
      classes := (state.interface run.dev).classes ++ [(state.allotted run.ip, run.downrate)]
      filters := (state.interface run.dev).filters ++ [(run.ip, state.allotted run.ip)]
      police := (state.interface run.dev).police ++
        [(run.ip, run.uprate, state.allotted run.ip)] }

theorem limited_accepting (run : Run) (hdev : run.dev ≠ []) :
    limited accepting state run = state.enabled run := by
  simp [limited, ruled, tried, accepting, State.tc, TcCommand.dev, TcCommand.effect, hdev,
    State.enabled]

theorem expected_none (classid : Option Text) (ip dev : Text) :
    expected classid ip none dev = ⟨[], [], []⟩ := by
  cases classid <;> rfl

theorem expected_of_ne (classid : Option Text) (ip : Text) {run : Run} {dev : Text}
    (h : run.dev ≠ dev) : expected classid ip (some run) dev = ⟨[], [], []⟩ := by
  cases classid with
  | none => rfl
  | some classid => exact if_neg h

theorem expected_self (classid ip : Text) (run : Run) :
    expected (some classid) ip (some run) run.dev =
      ⟨[(classid, run.downrate)], [(ip, classid)], [(ip, run.uprate, classid)]⟩ := if_pos rfl

-- A device on which the client has no rules.
theorem expected_of_elsewhere {classid : Option Text} {ip dev : Text} {last : Option Run}
    (h : ∀ run, last = some run → run.dev ≠ dev) :
    expected classid ip last dev = ⟨[], [], []⟩ := by
  cases last with
  | none => exact expected_none classid ip dev
  | some run => exact expected_of_ne classid ip (h run rfl)

theorem Agrees.provided (h : Agrees known active state) (dev : Text) :
    Agrees known active (provided accepting state dev) := by
  have hfiles := toFiles_provided accepting state dev
  have hinterface := @interface_provided state dev
  refine ⟨by rw [hfiles]; exact h.numbered, by rw [hfiles]; exact h.dev,
    by rw [hfiles]; exact h.classid, h.named, fun ip other => ?_, fun other classid rate => ?_⟩
  · rw [hfiles, ← h.rules ip other, State.rules, State.rules, hfiles, (hinterface other).1,
      (hinterface other).2.1, (hinterface other).2.2]
  · rw [hfiles, (hinterface other).1]
    exact h.owned other classid rate

theorem rules_disabled (ip classid other dev dev' : Text) :
    (state.disabled ip dev classid).rules other dev' =
      if dev' = dev then
        ⟨(state.rules other dev).classes.filter fun entry => entry.1 ≠ classid, [], []⟩
      else state.rules other dev' := by
  by_cases heq : dev' = dev
  · subst heq
    rw [if_pos rfl]
    simp [State.rules, State.disabled, List.filter_filter, Bool.and_comm]
  · rw [if_neg heq]
    simp [State.rules, State.disabled, heq]

-- A client that is alone on its device is disabled, and no other one.
theorem Agrees.disabled (h : Agrees known active state) {ip classid : Text} {last : Run}
    (hactive : active ip = some last) (hclassid : state.classid ip = some classid)
    (halone : ∀ other last', other ≠ ip → active other = some last' → last'.dev ≠ last.dev) :
    Agrees known (Function.update active ip none) (state.disabled ip last.dev classid) := by
  have hfound : ∀ other run, Function.update active ip none other = some run →
      active other = some run := by
    intro other run hother
    rcases Transition.update_eq_some hother with ⟨_, hgone⟩ | ⟨_, hkept⟩
    · cases hgone
    · exact hkept
  refine ⟨⟨h.numbered.nodup, h.numbered.lastClassid, h.numbered.classid_iff⟩, ?_,
    fun other run hother => h.classid other run (hfound other run hother),
    fun other run hother => h.named other run (hfound other run hother), ?_, ?_⟩
  · intro other
    by_cases heq : other = ip
    · simp [State.disabled, heq]
    · simp [State.disabled, heq, h.dev]
  · intro other dev
    rw [rules_disabled]
    by_cases heq : other = ip
    · -- its own rules were on the one device
      subst heq
      rw [Function.update_self, expected_none]
      by_cases hdev : dev = last.dev
      · rw [if_pos hdev, h.rules, hactive, hclassid, expected_self]
        simp
      · rw [if_neg hdev, h.rules, hactive]
        exact expected_of_ne _ _ (Ne.symm hdev)
    · rw [Function.update_of_ne heq]
      by_cases hdev : dev = last.dev
      · -- where no other client has rules
        have helsewhere : ∀ run, active other = some run → run.dev ≠ last.dev :=
          fun run hother => halone other run heq hother
        rw [if_pos hdev, hdev, h.rules, expected_of_elsewhere helsewhere]
        exact (expected_of_elsewhere helsewhere).symm
      · rw [if_neg hdev]
        exact h.rules other dev
  · intro dev entry rate hentry
    by_cases hdev : dev = last.dev
    · subst hdev
      simp only [State.disabled, Function.update_self] at hentry
      exact h.owned _ entry rate (List.mem_of_mem_filter hentry)
    · simp only [State.disabled, Function.update_of_ne hdev] at hentry
      exact h.owned dev entry rate hentry

theorem Agrees.bwlimitDisable (h : Agrees known active state) (ip : Text)
    (halone : ∀ last, active ip = some last → ∀ other last', other ≠ ip →
      active other = some last' → last'.dev ≠ last.dev) :
    Agrees known (Function.update active ip none)
      (Program.exec (perform accepting) (bwlimitDisable ip) state).2 := by
  cases hactive : active ip with
  | none =>
      have hdev : state.dev ip = none := by rw [h.dev, hactive]; rfl
      rw [exec_bwlimitDisable_of_not_active accepting state ip (Or.inr hdev), ← hactive,
        Function.update_eq_self]
      exact h
  | some last =>
      obtain ⟨classid, hclassid⟩ := Option.isSome_iff_exists.mp (h.classid ip last hactive)
      have hdev : state.dev ip = some last.dev := by rw [h.dev, hactive]; rfl
      rw [exec_bwlimitDisable_accepting hclassid hdev (h.named ip last hactive)]
      exact h.disabled hactive hclassid (halone last hactive)

theorem classid_enabled_of_ne {ip : Text} {run : Run} (h : ip ≠ run.ip) :
    (state.enabled run).classid ip = state.classid ip := Function.update_of_ne h _ _

theorem classid_enabled_self (run : Run) :
    (state.enabled run).classid run.ip = some (state.allotted run.ip) :=
  Function.update_self _ _ _

-- No class is there yet for a client that is not limited.
theorem Agrees.not_mem_classes (h : Agrees known active state) {run : Run}
    (hnone : active run.ip = none) {dev classid rate : Text}
    (hentry : (classid, rate) ∈ (state.interface dev).classes) :
    classid ≠ state.allotted run.ip := by
  rintro rfl
  obtain ⟨ip, hip⟩ := h.owned dev _ rate hentry
  have hnumbered := h.numbered.enable run.ip run.dev
  by_cases heq : ip = run.ip
  · have hrules := h.rules run.ip dev
    rw [hnone, expected_none] at hrules
    have hclasses : (state.interface dev).classes.filter
        (fun entry => state.classid run.ip = some entry.1) = [] := congrArg Rules.classes hrules
    have hmem := List.filter_eq_nil_iff.mp hclasses _ hentry
    rw [heq] at hip
    simp [hip] at hmem
  · have hclassid : (state.enabled run).classid ip = some (state.allotted run.ip) :=
      (classid_enabled_of_ne heq).trans hip
    exact heq (hnumbered.injective hclassid (classid_enabled_self run))

theorem rules_enabled_of_ne {ip : Text} {run : Run} (hip : ip ≠ run.ip)
    (hfresh : state.classid ip ≠ some (state.allotted run.ip)) (dev : Text) :
    (state.enabled run).rules ip dev = state.rules ip dev := by
  rw [State.rules, State.rules, classid_enabled_of_ne hip]
  by_cases hdev : dev = run.dev
  · subst hdev
    simp [State.enabled, hfresh, Ne.symm hip]
  · simp [State.enabled, hdev]

theorem Agrees.rules_enabled_self (h : Agrees known active state) {run : Run}
    (hnone : active run.ip = none) (dev : Text) : (state.enabled run).rules run.ip dev =
      expected (some (state.allotted run.ip)) run.ip (some run) dev := by
  have hrules := h.rules run.ip dev
  rw [hnone, expected_none] at hrules
  have hclasses : (state.interface dev).classes.filter
      (fun entry => some (state.allotted run.ip) = some entry.1) = [] := by
    refine List.filter_eq_nil_iff.mpr fun entry hentry heq => ?_
    have hclassid := Option.some.inj (of_decide_eq_true heq)
    exact h.not_mem_classes hnone hentry hclassid.symm
  have hfilters : (state.interface dev).filters.filter (fun entry => entry.1 = run.ip) = [] :=
    congrArg Rules.filters hrules
  have hpolice : (state.interface dev).police.filter (fun entry => entry.1 = run.ip) = [] :=
    congrArg Rules.police hrules
  rw [State.rules, classid_enabled_self]
  by_cases hdev : dev = run.dev
  · subst hdev
    rw [expected_self]
    simp only [State.enabled, Function.update_self, List.filter_append, hclasses, hfilters,
      hpolice]
    simp
  · rw [expected_of_ne _ _ (Ne.symm hdev)]
    simp only [State.enabled, Function.update_of_ne hdev, hclasses, hfilters, hpolice]

theorem Agrees.enabled (h : Agrees known active state) {run : Run}
    (hnone : active run.ip = none) (hdev : run.dev ≠ []) :
    Agrees (if run.ip ∈ known then known else known ++ [run.ip])
      (Function.update active run.ip (some run)) (state.enabled run) := by
  have hnumbered := h.numbered.enable run.ip run.dev
  refine ⟨hnumbered, fun other => ?_, fun other last hother => ?_, fun other last hother => ?_,
    fun other dev => ?_, fun dev entry rate hentry => ?_⟩
  · by_cases heq : other = run.ip
    · simp [State.enabled, Files.enable, heq]
    · simp [State.enabled, Files.enable, heq, h.dev]
  · rcases Transition.update_eq_some hother with ⟨rfl, _⟩ | ⟨hne, hactive⟩
    · rw [classid_enabled_self]
      rfl
    · rw [classid_enabled_of_ne hne]
      exact h.classid other last hactive
  · rcases Transition.update_eq_some hother with ⟨_, hlast⟩ | ⟨_, hactive⟩
    · exact Option.some.inj hlast ▸ hdev
    · exact h.named other last hactive
  · by_cases heq : other = run.ip
    · rw [heq, Function.update_self, classid_enabled_self]
      exact h.rules_enabled_self hnone dev
    · have hfresh : state.classid other ≠ some (state.allotted run.ip) := fun hclassid =>
        heq (hnumbered.injective ((classid_enabled_of_ne heq).trans hclassid)
          (classid_enabled_self run))
      rw [Function.update_of_ne heq, classid_enabled_of_ne heq, rules_enabled_of_ne heq hfresh]
      exact h.rules other dev
  · have hold : (∃ ip, state.classid ip = some entry) →
        ∃ ip, (state.enabled run).classid ip = some entry := by
      rintro ⟨ip, hip⟩
      by_cases heq : ip = run.ip
      · refine ⟨run.ip, ?_⟩
        rw [heq] at hip
        rw [classid_enabled_self, allotted_of_classid hip]
      · exact ⟨ip, (classid_enabled_of_ne heq).trans hip⟩
    by_cases heq : dev = run.dev
    · subst heq
      simp only [State.enabled, Function.update_self] at hentry
      rcases List.mem_append.mp hentry with hmem | hlast
      · exact hold (h.owned _ entry rate hmem)
      · obtain ⟨rfl, _⟩ := Prod.mk.inj (List.mem_singleton.mp hlast)
        exact ⟨run.ip, classid_enabled_self run⟩
    · simp only [State.enabled, Function.update_of_ne heq] at hentry
      exact hold (h.owned dev entry rate hentry)

theorem filters_enabled_of_ne {ip : Text} {run : Run} (hip : ip ≠ run.ip) (dev : Text) :
    ((state.enabled run).rules ip dev).filters = (state.rules ip dev).filters := by
  by_cases hdev : dev = run.dev
  · subst hdev
    simp [State.rules, State.enabled, Ne.symm hip]
  · simp [State.rules, State.enabled, hdev]

end Expected

section Histories

open Transition

theorem active_concat (runs : List Run) (run : Run) :
    active (runs ++ [run]) = track (active runs) run := by
  rw [active, List.foldl_append]
  rfl

theorem track_of_ne (active : Text → Option Run) {run : Run} {ip : Text} (h : ip ≠ run.ip) :
    track active run ip = active ip := by
  rw [track]
  cases run.action with
  | add | update => exact Function.update_of_ne h _ _
  | delete => exact Function.update_of_ne h _ _
  | other operation => rfl

theorem classid_learn_of_ne (files : Files) {run : Run} {ip : Text} (h : ip ≠ run.ip) :
    (files.learn run).classid ip = files.classid ip := by
  have hdisable : (files.disable run.ip).classid ip = files.classid ip := by
    rw [Files.disable]
    split <;> rfl
  rw [Files.learn]
  cases run.action with
  | add | update => exact Function.update_of_ne h _ _
  | delete => exact hdisable
  | other operation => rfl

theorem named_of_enables {run : Run} (h : run.action.enables = true) : run.dev ≠ [] := by
  refine run.named.resolve_left fun hdelete => ?_
  rw [hdelete] at h
  cases h

def Consistent (runs : List Run) : Prop :=
  Agrees (clients runs) (active runs) (after accepting runs)

theorem consistent_nil : Consistent [] where
  numbered := numbered_after accepting []
  dev _ := rfl
  classid _ _ h := nomatch h
  named _ _ h := nomatch h
  rules _ _ := rfl
  owned _ _ _ h := nomatch h

-- A run whose client is disabled first and limited then.
theorem Consistent.enable {before : List Run} (h : Consistent before) {run : Run}
    (henables : run.action.enables = true)
    (halone : ∀ last, active before run.ip = some last → ∀ other last', other ≠ run.ip →
      active before other = some last' → last'.dev ≠ last.dev) :
    Agrees (if run.ip ∈ clients before then clients before else clients before ++ [run.ip])
      (Function.update (active before) run.ip (some run))
      (Program.exec (perform accepting) (bwlimitEnable run)
        (provided accepting (after accepting before) run.dev)).2 := by
  have hdisabled := (h.provided run.dev).bwlimitDisable run.ip halone
  have hlimited := @Agrees.enabled _ _ _ hdisabled run (Function.update_self _ _ _)
    (named_of_enables henables)
  rw [Function.update_idem] at hlimited
  rw [exec_bwlimitEnable, limited_accepting run (named_of_enables henables)]
  exact hlimited

theorem Consistent.concat {before : List Run} {run : Run} (h : Consistent before)
    (halone : Alone before run) : Consistent (before ++ [run]) := by
  rw [Consistent, after_concat, clients_concat, active_concat, learnAddress, Program.exec_bind,
    exec_ensureQdiscs, track]
  rw [Alone] at halone
  cases haction : run.action with
  | add | update =>
      rw [haction] at halone
      have henable := h.enable (by rw [haction]; rfl) (halone rfl)
      simpa [Action.enables, ite_not] using henable
  | delete =>
      rw [haction] at halone
      simpa [Action.enables] using (h.provided run.dev).bwlimitDisable run.ip (halone rfl)
  | other operation =>
      simpa [Action.enables] using h.provided run.dev

theorem Consistent.isolated {before : List Run} {run : Run} (hbefore : Consistent before)
    (hafter : Consistent (before ++ [run])) : Isolated before run where
  limited ip last hactive := by
    obtain ⟨classid, hclassid⟩ := Option.isSome_iff_exists.mp (hafter.classid ip last hactive)
    have hrules := hafter.rules ip last.dev
    rw [hactive, hclassid, expected_self] at hrules
    refine ⟨classid, hclassid, ?_, ?_, ?_⟩
    · have hmem : (classid, last.downrate) ∈
          ((after accepting (before ++ [run])).rules ip last.dev).classes := by
        rw [hrules]
        exact List.mem_singleton_self _
      exact List.mem_of_mem_filter hmem
    · have hmem : (ip, classid) ∈
          ((after accepting (before ++ [run])).rules ip last.dev).filters := by
        rw [hrules]
        exact List.mem_singleton_self _
      exact List.mem_of_mem_filter hmem
    · have hmem : (ip, last.uprate, classid) ∈
          ((after accepting (before ++ [run])).rules ip last.dev).police := by
        rw [hrules]
        exact List.mem_singleton_self _
      exact List.mem_of_mem_filter hmem
  unlimited ip hactive dev := by
    rw [hafter.rules ip dev, hactive, expected_none]
  unchanged ip hip dev := by
    have hclassid : (after accepting (before ++ [run])).classid ip =
        (after accepting before).classid ip := by
      rw [after_concat, toFiles_learnAddress, classid_learn_of_ne _ hip]
    rw [hafter.rules ip dev, hbefore.rules ip dev, hclassid, active_concat, track_of_ne _ hip]

-- A client that shares its device takes the filters of the others away.
theorem Consistent.alone {before : List Run} {run : Run} (h : Consistent before)
    (hisolated : Isolated before run) : Alone before run := by
  intro hchanges last hlast other last' hother hlast' hdev
  have hprovided := h.provided run.dev
  obtain ⟨classid, hclassid⟩ :=
    Option.isSome_iff_exists.mp (hprovided.classid run.ip last hlast)
  obtain ⟨classid', hclassid'⟩ := Option.isSome_iff_exists.mp (h.classid other last' hlast')
  have hdevfile : (provided accepting (after accepting before) run.dev).dev run.ip =
      some last.dev := by
    rw [hprovided.dev, hlast]
    rfl
  have hdisabled := exec_bwlimitDisable_accepting hclassid hdevfile
    (hprovided.named run.ip last hlast)
  have hgone : (((provided accepting (after accepting before) run.dev).disabled run.ip last.dev
      classid).rules other last.dev).filters = [] := by
    rw [rules_disabled, if_pos rfl]
  have hafter : ((after accepting (before ++ [run])).rules other last.dev).filters = [] := by
    rw [after_concat, learnAddress, Program.exec_bind, exec_ensureQdiscs]
    cases haction : run.action with
    | add | update =>
        have hne := @named_of_enables run (by rw [haction]; rfl)
        rw [exec_bwlimitEnable, limited_accepting run hne, filters_enabled_of_ne hother,
          hdisabled, hgone]
    | delete =>
        rw [hdisabled, hgone]
    | other operation =>
        rw [haction] at hchanges
        cases hchanges
  rw [hisolated.unchanged other hother last.dev, h.rules, hlast', hclassid', ← hdev,
    expected_self] at hafter
  cases hafter

-- In every sequence of runs the clients are isolated exactly as long as no client that is
-- disabled shares its device with another one.
theorem isolated_iff_alone (runs : List Run) : Always Isolated runs ↔ Always Alone runs :=
  always_iff_always consistent_nil (fun _ _ => Consistent.concat)
    (fun _ _ h => ⟨h.alone, fun halone => h.isolated (h.concat halone)⟩) runs

def clientRun (action : Action) (ip : Text) : Run where
  downrate := "5mbit".toList
  uprate := "1mbit".toList
  action
  ip
  dev := "tun1".toList
  named := Or.inr (by decide)

-- When the first client leaves, the second one loses its filters.
theorem neighbour_not_isolated :
    ¬ Always Isolated [clientRun .add "10.0.0.3".toList, clientRun .add "10.0.0.4".toList,
      clientRun .delete "10.0.0.3".toList] := by
  intro h
  have hisolated := h [clientRun .add "10.0.0.3".toList, clientRun .add "10.0.0.4".toList]
    (clientRun .delete "10.0.0.3".toList) [] rfl
  obtain ⟨classid, _, _, hfilter, _⟩ := hisolated.limited "10.0.0.4".toList
    (clientRun .add "10.0.0.4".toList) rfl
  have hgone : ((after accepting ([clientRun .add "10.0.0.3".toList,
      clientRun .add "10.0.0.4".toList] ++ [clientRun .delete "10.0.0.3".toList])).interface
        (clientRun .add "10.0.0.4".toList).dev).filters = [] := rfl
  rw [hgone] at hfilter
  cases hfilter

end Histories

end OpenBalenaVpn.Throttle
