import OpenBalenaVpn.Throttle.Numbering

namespace OpenBalenaVpn.Throttle

open Transition

section Instances

-- The instances with their devices share the state directory. At most one run of a device
-- is under way, and tc accepts a call or not.
abbrev Instances : Type := Pool Text State Command Command.Reply Run

abbrev Event : Type := Pool.Event Text Run Bool

def step : Instances → Event → Option Instances :=
  Pool.step learnAddress (fun dev run => decide (run.dev = dev))
    (fun accepted => perform fun _ _ => accepted)

def idle : Instances := Pool.initial .empty

-- No two clients that are active on a device have the same id.
def Unique (instances : Instances) : Prop :=
  ∀ ip other dev, ip ≠ other → instances.shared.dev ip = some dev →
    instances.shared.dev other = some dev → ∀ classid,
      instances.shared.classid ip = some classid → instances.shared.classid other ≠ some classid

-- The last id is written by a run while the file still holds the id before it.
def undisturbed : Command → State → Prop
  | .echoLast classid, state => classid = nextClassid state.lastClassid
  | _, _ => True

instance (command : Command) (state : State) : Decidable (undisturbed command state) :=
  match command with
  | .echoLast classid => inferInstanceAs (Decidable (classid = nextClassid state.lastClassid))
  | .testClassid _ | .catClassid _ | .echoClassid _ _ | .testDev _ | .catDev _ | .echoDev _ _
  | .rmDev _ | .testLast | .catLast | .tc _ | .error _ => isTrue trivial

end Instances

section Sequences

def whole (run : Run) (count : Nat) : List Event := Pool.whole run.dev run true count

-- The sequences of runs are among the interleavings.
theorem exists_run_after (runs : List Run) :
    ∃ events, run step idle events = some ⟨after (fun _ _ => true) runs, fun _ => none⟩ := by
  induction runs using List.reverseRecOn with
  | nil => exact ⟨[], rfl⟩
  | append_singleton runs last ih =>
      obtain ⟨events, hevents⟩ := ih
      refine ⟨events ++ whole last (Program.calls (perform fun _ _ => true) (learnAddress last)
        (after (fun _ _ => true) runs)).length, ?_⟩
      rw [run_append, hevents, Option.bind_some, after_concat]
      exact Pool.run_whole _ _ _ true (decide_eq_true rfl) rfl

end Sequences

section Knowledge

-- What a run knows of its own client: whether the file of its id is there, and the ids
-- that are its own.
structure Knowledge where
  stored : Bool
  owned : List Text

def allow (ip : Text) (known : Knowledge) : Command → Prop
  | .catClassid other => other = ip ∧ known.stored = true
  | .echoClassid other classid => other = ip ∧ classid ∈ known.owned
  | _ => True

def learn (ip : Text) (known : Knowledge) : (command : Command) → command.Reply → Knowledge
  | .testClassid other, found =>
      { known with stored := known.stored || (found && decide (other = ip)) }
  | .catClassid _, classid => { known with owned := classid :: known.owned }
  | .echoLast classid, _ => { known with owned := classid :: known.owned }
  | _, _ => known

variable {ip : Text} {known : Knowledge}

abbrev Follows {α : Type} (ip : Text) (post : Knowledge → α → Prop) (known : Knowledge)
    (script : Script α) : Prop := Program.Follows (allow ip) (learn ip) post known script

theorem follows_tc (command : TcCommand) :
    Follows ip (fun later _ => later = known) known (tc command) := ⟨trivial, fun _ => rfl⟩

theorem follows_tcOrError (command : TcCommand) (message : Text) :
    Follows ip (fun later _ => later = known) known (tcOrError command message) := by
  refine (follows_tc command).bind fun later accepted hlater => ?_
  subst hlater
  split
  · rfl
  · exact ⟨trivial, fun _ => rfl⟩

theorem follows_bwlimitDisable :
    Follows ip (fun _ _ => True) known (bwlimitDisable ip) := by
  refine ⟨trivial, fun found => ?_⟩
  cases found with
  | false => trivial
  | true =>
      refine ⟨trivial, fun found => ?_⟩
      cases found with
      | false => trivial
      | true =>
          refine ⟨⟨rfl, by simp [learn]⟩, fun classid => ⟨trivial, fun dev => ?_⟩⟩
          exact ⟨trivial, fun _ => ⟨trivial, fun _ => ⟨trivial, fun _ => ⟨trivial, fun _ =>
            trivial⟩⟩⟩⟩

theorem follows_findClassid :
    Follows ip (fun later classid => classid ∈ later.owned) known (findClassid ip) := by
  refine ⟨trivial, fun found => ?_⟩
  cases found with
  | true => exact ⟨⟨rfl, by simp [learn]⟩, fun classid => List.mem_cons_self⟩
  | false =>
      refine ⟨trivial, fun found => ?_⟩
      cases found with
      | true => exact ⟨trivial, fun last => ⟨trivial, fun _ => List.mem_cons_self⟩⟩
      | false => exact ⟨trivial, fun _ => List.mem_cons_self⟩

theorem follows_addRules (run : Run) (classid : Text) :
    Follows ip (fun later _ => later = known) known (addRules run classid) := by
  refine (follows_tcOrError _ _).bind fun later _ hlater => ?_
  subst hlater
  refine (follows_tcOrError _ _).bind fun later _ hlater => ?_
  subst hlater
  exact follows_tcOrError _ _

theorem follows_bwlimitEnable (run : Run) :
    Follows run.ip (fun _ _ => True) known (bwlimitEnable run) := by
  refine follows_bwlimitDisable.bind fun known _ _ => ?_
  refine follows_findClassid.bind fun known classid howned => ?_
  refine (follows_addRules run classid).bind fun later _ hlater => ?_
  subst hlater
  exact ⟨⟨rfl, howned⟩, fun _ => ⟨trivial, fun _ => trivial⟩⟩

theorem follows_ensureQdiscs (dev : Text) :
    Follows ip (fun _ _ => True) known (ensureQdiscs dev) := by
  rw [ensureQdiscs]
  split
  · exact ⟨trivial, fun _ => ⟨trivial, fun _ => trivial⟩⟩
  · trivial

-- A run reads the id of its own client only, and gives it only an id that is its own.
theorem follows_learnAddress (run : Run) :
    Follows run.ip (fun _ _ => True) known (learnAddress run) := by
  refine (follows_ensureQdiscs run.dev).bind fun known _ _ => ?_
  cases run.action with
  | add | update => exact follows_bwlimitEnable run
  | delete => exact follows_bwlimitDisable
  | other operation => exact ⟨trivial, fun _ => trivial⟩

end Knowledge

section Owners

-- Which ids were given to a client, and which clients have a file with their id. Neither
-- is ever taken back.
structure Owners where
  owns : Text → Text → Prop
  stored : Text → Prop

def Owners.none : Owners := ⟨fun _ _ => False, fun _ => False⟩

def Owners.give (owners : Owners) (ip classid : Text) : Owners where
  owns other given := owners.owns other given ∨ (other = ip ∧ given = classid)
  stored := owners.stored

def Owners.find (owners : Owners) (state : State) : Owners where
  owns := owners.owns
  stored ip := (state.classid ip).isSome = true

instance : LE Owners where
  le owners later := (∀ ip classid, owners.owns ip classid → later.owns ip classid) ∧
    ∀ ip, owners.stored ip → later.stored ip

-- An id has one owner, and the last id is the largest one.
structure Owned (owners : Owners) (state : State) : Prop where
  unique : ∀ ip other classid, owners.owns ip classid → owners.owns other classid → ip = other
  classid : ∀ ip classid, state.classid ip = some classid → owners.owns ip classid
  stored : ∀ ip, owners.stored ip → (state.classid ip).isSome = true
  last : ∃ count, state.lastClassid = (if count = 0 then none else some (decimal count)) ∧
    ∀ ip classid, owners.owns ip classid → ∃ place, place < count ∧ classid = decimal (place + 1)

-- What a run knows is so.
def Knows (owners : Owners) (run : Run) (rest : Script Unit) : Prop :=
  ∃ known, Follows run.ip (fun _ _ => True) known rest ∧
    (∀ classid ∈ known.owned, owners.owns run.ip classid) ∧
    (known.stored = true → owners.stored run.ip)

theorem Owners.le_refl (owners : Owners) : owners ≤ owners :=
  ⟨fun _ _ h => h, fun _ h => h⟩

theorem knows_mono (owners later : Owners) (run : Run) (rest : Script Unit)
    (hle : owners ≤ later) (h : Knows owners run rest) : Knows later run rest := by
  obtain ⟨known, hfollows, howned, hstored⟩ := h
  exact ⟨known, hfollows, fun classid hmem => hle.1 _ _ (howned classid hmem),
    fun hfound => hle.2 _ (hstored hfound)⟩

-- Only the files of the ids count.
theorem Owned.congr {owners : Owners} {state next : State} (h : Owned owners state)
    (hclassid : next.classid = state.classid) (hlast : next.lastClassid = state.lastClassid) :
    Owned owners next :=
  ⟨h.unique, by rw [hclassid]; exact h.classid, by rw [hclassid]; exact h.stored,
    by rw [hlast]; exact h.last⟩

theorem nextClassid_of_last {lastClassid : Option Text} {count : Nat}
    (h : lastClassid = if count = 0 then none else some (decimal count)) :
    nextClassid lastClassid = decimal (count + 1) := by
  rw [h]
  by_cases hzero : count = 0
  · rw [if_pos hzero, hzero]
    rfl
  · rw [if_neg hzero]
    exact increment_decimal count

-- The next id is nobody's yet.
theorem Owned.echoLast {owners : Owners} {state : State} (h : Owned owners state) (ip : Text) :
    Owned (owners.give ip (nextClassid state.lastClassid))
      { state with lastClassid := some (nextClassid state.lastClassid) } := by
  obtain ⟨count, hlast, hbound⟩ := h.last
  have hnext := nextClassid_of_last hlast
  have hfresh : ∀ other, ¬ owners.owns other (nextClassid state.lastClassid) := by
    intro other hother
    obtain ⟨place, hlt, heq⟩ := hbound other _ hother
    rw [hnext] at heq
    have hplace := Number.toDigits_inj heq
    omega
  refine ⟨?_, fun other classid hother => Or.inl (h.classid other classid hother), h.stored,
    count + 1, by rw [hnext]; rfl, ?_⟩
  · rintro first second classid (hfirst | ⟨rfl, rfl⟩) (hsecond | ⟨rfl, hclassid⟩)
    · exact h.unique first second classid hfirst hsecond
    · subst hclassid
      exact absurd hfirst (hfresh first)
    · exact absurd hsecond (hfresh second)
    · rfl
  · rintro other classid (hother | ⟨_, rfl⟩)
    · obtain ⟨place, hlt, hclassid⟩ := hbound other classid hother
      exact ⟨place, by omega, hclassid⟩
    · exact ⟨count, by omega, hnext⟩

theorem Owned.echoClassid {owners : Owners} {state : State} (h : Owned owners state)
    {ip classid : Text} (howns : owners.owns ip classid) :
    Owned owners
      { state with classid := Function.update state.classid ip (some classid) } := by
  refine ⟨h.unique, fun other given hother => ?_, fun other hother => ?_, h.last⟩
  · by_cases heq : other = ip
    · subst heq
      obtain rfl : classid = given := by simpa using hother
      exact howns
    · exact h.classid other given (by simpa [heq] using hother)
  · by_cases heq : other = ip
    · simp [heq]
    · simpa [heq] using h.stored other hother

theorem Owned.testClassid {owners : Owners} {state : State} (h : Owned owners state) :
    Owned (owners.find state) state :=
  ⟨h.unique, h.classid, fun _ hstored => hstored, h.last⟩

-- Each command keeps the ids apart, and leaves the run with what it has learned.
theorem owned_call {owners : Owners} {state : State} (accepted : Bool) {run : Run}
    {command : Command} {rest : command.Reply → Script Unit} (h : Owned owners state)
    (hknows : Knows owners run (.call command rest)) (hcondition : undisturbed command state) :
    ∃ later, owners ≤ later ∧ Owned later (perform (fun _ _ => accepted) command state).2 ∧
      Knows later run (rest (perform (fun _ _ => accepted) command state).1) := by
  obtain ⟨known, ⟨hallow, hrest⟩, howned, hstored⟩ := hknows
  cases command with
  | testClassid ip =>
      refine ⟨owners.find state, ⟨fun _ _ howns => howns, h.stored⟩, h.testClassid, _, hrest _,
        howned, fun hfound => ?_⟩
      rcases Bool.or_eq_true_iff.mp hfound with hold | hnew
      · exact h.stored run.ip (hstored hold)
      · obtain ⟨hsome, heq⟩ := Bool.and_eq_true_iff.mp hnew
        rw [← of_decide_eq_true heq]
        exact hsome
  | catClassid ip =>
      obtain ⟨rfl, hfound⟩ := hallow
      obtain ⟨classid, hclassid⟩ := Option.isSome_iff_exists.mp (h.stored _ (hstored hfound))
      refine ⟨owners, owners.le_refl, h, _, hrest _, fun given hgiven => ?_, hstored⟩
      rcases List.mem_cons.mp hgiven with rfl | hold
      · refine h.classid _ _ ?_
        rw [perform, hclassid]
        rfl
      · exact howned given hold
  | echoClassid ip classid =>
      obtain ⟨rfl, hmem⟩ := hallow
      exact ⟨owners, owners.le_refl, h.echoClassid (howned classid hmem), known, hrest _, howned,
        hstored⟩
  | echoLast classid =>
      have hnext : classid = nextClassid state.lastClassid := hcondition
      subst hnext
      refine ⟨owners.give run.ip (nextClassid state.lastClassid),
        ⟨fun _ _ => Or.inl, fun _ hfound => hfound⟩, h.echoLast run.ip, _, hrest _,
        fun given hgiven => ?_, hstored⟩
      rcases List.mem_cons.mp hgiven with rfl | hold
      · exact Or.inr ⟨rfl, rfl⟩
      · exact Or.inl (howned given hold)
  | tc command =>
      have hfiles := toFiles_tried (fun _ _ => accepted) state command
      refine ⟨owners, owners.le_refl, ?_, known, hrest _, howned, hstored⟩
      exact h.congr (congrArg Files.classid hfiles) (congrArg Files.lastClassid hfiles)
  | testDev ip | catDev ip | echoDev ip dev | rmDev ip | testLast | catLast | error message =>
      exact ⟨owners, owners.le_refl, h.congr rfl rfl, known, hrest _, howned, hstored⟩

theorem Owned.unique_ids {owners : Owners} {instances : Instances}
    (h : Owned owners instances.shared) : Unique instances := by
  intro ip other dev hne _ _ classid hip hother
  exact hne (h.unique ip other classid (h.classid ip classid hip) (h.classid other classid hother))

theorem owned_empty : Owned .none .empty :=
  ⟨fun _ _ _ h => h.elim, nofun, fun _ h => h.elim, 0, rfl, fun _ _ h => h.elim⟩

-- In a run of all instances in which no write of the last id is disturbed, the ids are
-- unique at any time.
theorem unique_of_undisturbed {events : List Event}
    (h : StepsMeet step (Pool.Meets undisturbed) idle events) :
    Throughout step Unique idle events := by
  have hguarded : Throughout step (fun instances => ∃ owners,
      Pool.Guarded Owned Knows owners instances) idle events := by
    refine Pool.guarded_throughout (fun owners run => ?_) knows_mono ?_ ?_ h
    · exact ⟨⟨false, []⟩, follows_learnAddress run, nofun, nofun⟩
    · intro owners state accepted run command rest howned hknows hcondition
      exact owned_call accepted howned hknows hcondition
    · exact ⟨.none, owned_empty, nofun⟩
  exact hguarded.imp fun instances ⟨owners, howners⟩ => howners.shared.unique_ids

end Owners

section Schedules

def addOn (instanceId : Nat) (ip : Text) : Run where
  downrate := "5mbit".toList
  uprate := "1mbit".toList
  action := .add
  ip
  dev := "tun".toList ++ decimal instanceId
  named := Or.inr (by simp)

def advances (run : Run) (count : Nat) : List Event :=
  List.replicate count (.advance run.dev true)

def overlapping : List Event :=
  let first := addOn 1 "10.0.0.3".toList
  let second := addOn 2 "10.64.0.3".toList
  .start first.dev first :: .start second.dev second ::
    advances first 6 ++ advances second 12 ++ advances first 5

-- Two runs overlap, but the one writes the last id before the other one reads it.
theorem unique_of_undisturbed_overlapping :
    StepsMeet step (Pool.Meets undisturbed) idle overlapping ∧
      Throughout step Unique idle overlapping := by
  have hmeets : StepsMeet step (Pool.Meets undisturbed) idle overlapping := by decide +kernel
  exact ⟨hmeets, unique_of_undisturbed hmeets⟩

-- A run of the first instance writes the last id that it made up long before, and the
-- second instance counts from there again.
def raced : List Event :=
  let slow := addOn 1 "10.0.0.3".toList
  .start slow.dev slow :: advances slow 5 ++ whole (addOn 2 "10.64.0.3".toList) 11 ++
    whole (addOn 2 "10.64.0.4".toList) 12 ++ advances slow 1 ++
    whole (addOn 2 "10.64.0.5".toList) 12

theorem raced_not_unique : ¬ Throughout step Unique idle raced := by
  intro h
  have hrun : (run step idle raced).map (fun instances =>
      ((instances.shared.dev "10.64.0.4".toList, instances.shared.dev "10.64.0.5".toList),
        instances.shared.classid "10.64.0.4".toList,
        instances.shared.classid "10.64.0.5".toList)) =
      some ((some "tun2".toList, some "tun2".toList), some ['2'], some ['2']) := by decide +kernel
  obtain ⟨last, hlast, hfiles⟩ := Option.map_eq_some_iff.mp hrun
  simp only [Prod.mk.injEq] at hfiles
  obtain ⟨⟨hfirst, hsecond⟩, hclassid, hclassid'⟩ := hfiles
  exact h.last hlast _ _ _ (by decide) hfirst hsecond _ hclassid hclassid'

end Schedules

end OpenBalenaVpn.Throttle
