import OpenBalenaVpn.Reporter.World
import OpenBalenaVpn.Reporter.Agreement

namespace OpenBalenaVpn.Reporter.World

open Transition

variable {Uuid : Type} [DecidableEq Uuid]

-- The event of the reporter that a turn of the world is.
def Event.reporter : Event Uuid → Reporter.Event Uuid
  | .setConnected uuid serviceId workerId connected =>
      .setConnected uuid serviceId workerId connected
  | .settle id response _ => .settle id response
  | .wake index => .wake index

theorem step_settle_cases {world next : World Uuid} {id : Nat} {response : Option Nat}
    {applied : Bool} (hs : world.settle id response applied = some next) :
    (response = some 200 → applied = true) ∧
    ∃ post ∈ world.reporter.inFlight, post.id = id ∧
      world.reporter.settle id response = some next.reporter ∧
      next.isConnected = (if applied then apply post world.isConnected else world.isConnected) ∧
      next.endings = ⟨post, response, applied⟩ :: world.endings := by
  unfold settle at hs
  split at hs
  · cases hs
  · rename_i hlegal
    simp only [Option.bind_eq_bind, Option.bind_eq_some_iff] at hs
    obtain ⟨post, hf, reporter, hr, hnext⟩ := hs
    obtain ⟨hm, hid⟩ := find_id_mem hf
    obtain rfl := Option.some.inj hnext
    refine ⟨fun ht => ?_, post, hm, hid, hr, rfl, rfl⟩
    by_contra ha
    exact hlegal ⟨ht, Bool.eq_false_iff.mpr ha⟩

theorem step_reporter (batchSize : Int) {world next : World Uuid} {event : Event Uuid}
    (hs : step batchSize world event = some next) :
    Reporter.step batchSize world.reporter event.reporter = some next.reporter := by
  cases event with
  | setConnected uuid serviceId workerId connected =>
      obtain ⟨reporter, hr, rfl⟩ := Option.map_eq_some_iff.mp hs
      exact hr
  | settle id response applied =>
      obtain ⟨_, post, _, _, hr, _⟩ := step_settle_cases hs
      exact hr
  | wake index =>
      obtain ⟨reporter, hr, rfl⟩ := Option.map_eq_some_iff.mp hs
      exact hr

-- A turn that settles no POST with the uuid leaves what the API knows of it.
theorem step_api_untouched (batchSize : Int) {world next : World Uuid} {event : Event Uuid}
    (hs : step batchSize world event = some next) (uuid : Uuid)
    (hsettle : ∀ post ∈ world.reporter.inFlight, ∀ response,
      event.reporter = .settle post.id response → uuid ∉ post.uuids) :
    next.isConnected uuid = world.isConnected uuid ∧
      next.lastApplied uuid = world.lastApplied uuid := by
  cases event with
  | setConnected other serviceId workerId connected =>
      obtain ⟨reporter, _, rfl⟩ := Option.map_eq_some_iff.mp hs
      exact ⟨rfl, rfl⟩
  | settle id response applied =>
      obtain ⟨_, post, hp, rfl, _, hflag, hlog⟩ := step_settle_cases hs
      have hout := hsettle post hp response rfl
      rw [lastApplied, hlog, hflag]
      cases applied <;> simp [apply, hout, lastApplied]
  | wake index =>
      obtain ⟨reporter, _, rfl⟩ := Option.map_eq_some_iff.mp hs
      exact ⟨rfl, rfl⟩

-- The flag at the API is that of the POST last applied, and a POST last applied
-- that was acknowledged is the one the reporter knows of.
structure Recorded (start : Uuid → Bool) (world : World Uuid) : Prop where
  agreed : Agreed world.reporter
  flag : ∀ uuid, world.isConnected uuid =
    ((world.lastApplied uuid).map (·.post.connected)).getD (start uuid)
  known : ∀ uuid ending, world.lastApplied uuid = some ending → ending.response = some 200 →
    (world.reporter.device uuid).acknowledged.map (·.connected) = some ending.post.connected
  acknowledged : ∀ uuid, world.lastApplied uuid = none →
    (world.reporter.device uuid).acknowledged = none

theorem recorded_initial (start : Uuid → Bool) : Recorded start (initial start) where
  agreed := agreed_initial
  flag _ := rfl
  known _ _ h := by cases h
  acknowledged _ _ := rfl

-- Only an answer of 200 changes what a device was last acknowledged with.
theorem acknowledged_of_run {device next : Device} {inputs : List Input}
    (hno : Input.acknowledge ∉ inputs) (hrun : run Device.step device inputs = some next) :
    next.acknowledged = device.acknowledged := by
  induction inputs generalizing device with
  | nil =>
      obtain rfl : device = next := Option.some.inj hrun
      rfl
  | cons input inputs ih =>
      obtain ⟨middle, hm, hrest⟩ := (run_cons_eq_some _ _ _ _ _).mp hrun
      rw [ih (fun hin => hno (List.mem_cons_of_mem _ hin)) hrest]
      cases input with
      | call workerId connected =>
          obtain rfl := Option.some.inj hm
          rfl
      | examine id =>
          obtain ⟨_, _, _, _, rfl⟩ := Device.examine_cases hm
          rfl
      | acknowledge => exact absurd (List.mem_cons_self) hno
      | requeue =>
          obtain ⟨_, _, rfl⟩ := Device.requeue_cases hm
          rfl

theorem recorded_of_untouched {start : Uuid → Bool} {world next : World Uuid} {uuid : Uuid}
    (h : Recorded start world)
    (hsame : next.isConnected uuid = world.isConnected uuid ∧
      next.lastApplied uuid = world.lastApplied uuid)
    (hack : (next.reporter.device uuid).acknowledged = (world.reporter.device uuid).acknowledged) :
    next.isConnected uuid = ((next.lastApplied uuid).map (·.post.connected)).getD (start uuid) ∧
    (∀ ending, next.lastApplied uuid = some ending → ending.response = some 200 →
      (next.reporter.device uuid).acknowledged.map (·.connected) = some ending.post.connected) ∧
    (next.lastApplied uuid = none → (next.reporter.device uuid).acknowledged = none) := by
  rw [hsame.1, hsame.2, hack]
  exact ⟨h.flag uuid, h.known uuid, h.acknowledged uuid⟩

theorem lastApplied_settle {world next : World Uuid} {uuid : Uuid} {post : Post Uuid}
    {response : Option Nat} {applied : Bool}
    (hlog : next.endings = ⟨post, response, applied⟩ :: world.endings) (hu : uuid ∈ post.uuids) :
    next.lastApplied uuid =
      if applied then some ⟨post, response, applied⟩ else world.lastApplied uuid := by
  rw [lastApplied, hlog]
  cases applied <;> simp [lastApplied, hu]

theorem recorded_settle {start : Uuid → Bool} {world next : World Uuid} {uuid : Uuid}
    {post : Post Uuid} {response : Option Nat} {applied : Bool} (h : Recorded start world)
    (hp : post ∈ world.reporter.inFlight) (hu : uuid ∈ post.uuids)
    (hs : world.settle post.id response applied = some next) :
    next.isConnected uuid = ((next.lastApplied uuid).map (·.post.connected)).getD (start uuid) ∧
    (∀ ending, next.lastApplied uuid = some ending → ending.response = some 200 →
      (next.reporter.device uuid).acknowledged.map (·.connected) = some ending.post.connected) ∧
    (next.lastApplied uuid = none → (next.reporter.device uuid).acknowledged = none) := by
  obtain ⟨hlegal, other, ho, hid, hr, hflag, hlog⟩ := step_settle_cases hs
  have hsched := h.agreed.scheduled
  obtain rfl : other = post := List.inj_on_of_nodup_map hsched.ids_nodup ho hp hid
  obtain ⟨found, hfound, hfid, hcases⟩ := device_settle hsched other.id response hr uuid
  obtain rfl : found = other := List.inj_on_of_nodup_map hsched.ids_nodup hfound ho hfid
  have hinFlight : (world.reporter.device uuid).inFlight = some found.report := by
    simp [State.device, find_uuid_of_nodup hsched.uuids_nodup hp hu]
  have hnew := lastApplied_settle hlog hu
  rcases hcases with ⟨hout, _⟩ | ⟨_, rfl, hack⟩ | ⟨_, hfail, hreq⟩
  · exact absurd hu hout
  · obtain ⟨report, hrep, hdev⟩ := Device.acknowledge_cases hack
    obtain rfl : found.report = report := Option.some.inj (hinFlight.symm.trans hrep)
    rw [hlegal rfl] at hnew hflag
    rw [hnew, hflag, hdev]
    simp [apply, hu, Post.report]
  · obtain ⟨report, _, hdev⟩ := Device.requeue_cases hreq
    rw [hnew, hflag, hdev]
    cases applied with
    | true => simp [apply, hu, hfail]
    | false => exact ⟨h.flag uuid, h.known uuid, h.acknowledged uuid⟩

theorem recorded_step (batchSize : Int) (start : Uuid → Bool) (world : World Uuid)
    (event : Event Uuid) (next : World Uuid) (h : Recorded start world)
    (hs : step batchSize world event = some next) : Recorded start next := by
  have hr := step_reporter batchSize hs
  have hparts : ∀ uuid,
      next.isConnected uuid = ((next.lastApplied uuid).map (·.post.connected)).getD (start uuid) ∧
      (∀ ending, next.lastApplied uuid = some ending → ending.response = some 200 →
        (next.reporter.device uuid).acknowledged.map (·.connected) = some ending.post.connected) ∧
      (next.lastApplied uuid = none → (next.reporter.device uuid).acknowledged = none) := by
    intro uuid
    obtain ⟨inputs, hseen, hrun⟩ := device_step batchSize _ _ _ h.agreed.scheduled hr uuid
    by_cases hposts : ∃ post ∈ world.reporter.inFlight, uuid ∈ post.uuids ∧ ∃ response,
        event.reporter = .settle post.id response
    · obtain ⟨post, hp, hu, response, he⟩ := hposts
      cases event with
      | setConnected => cases he
      | wake => cases he
      | settle id response' applied =>
          injection he with hid hresponse
          subst hid
          exact recorded_settle h hp hu hs
    · push Not at hposts
      have hsettle : ∀ post ∈ world.reporter.inFlight, ∀ response,
          event.reporter = .settle post.id response → uuid ∉ post.uuids :=
        fun post hp response he hu => hposts post hp hu response he
      have hno : Input.acknowledge ∉ inputs := by
        generalize hev : event.reporter = reported at hseen
        cases hseen with
        | acknowledged post hp hu => exact absurd hu (hsettle post hp _ hev)
        | _ => simp
      exact recorded_of_untouched h (step_api_untouched batchSize hs uuid hsettle)
        (acknowledged_of_run hno hrun)
  exact ⟨agreed_step batchSize _ _ _ h.agreed hr, fun uuid => (hparts uuid).1,
    fun uuid => (hparts uuid).2.1, fun uuid => (hparts uuid).2.2⟩

-- A tracked device with an acknowledged flag was overturned exactly when the API
-- shows another flag.
theorem overturned_iff {start : Uuid → Bool} {world : World Uuid} (h : Recorded start world)
    {uuid : Uuid} {tracker : DeviceStateTracker} {connected : Bool}
    (ht : world.reporter.deviceStates.get uuid = some tracker)
    (hc : tracker.currentConnected = some connected) :
    world.Overturned uuid tracker ↔ world.isConnected uuid ≠ connected := by
  have hcurrent : tracker.currentConnected =
      (world.reporter.device uuid).acknowledged.map (·.connected) :=
    (h.agreed.agrees uuid).current tracker ht
  rw [hc] at hcurrent
  have hflag := h.flag uuid
  unfold Overturned
  cases hl : world.lastApplied uuid with
  | none =>
      rw [h.acknowledged uuid hl] at hcurrent
      cases hcurrent
  | some ending =>
      rw [hl] at hflag
      simp only [Option.map_some, Option.getD_some] at hflag
      rw [hflag, hc]
      constructor
      · rintro ⟨other, ho, _, hne⟩ he
        obtain rfl : ending = other := Option.some.inj ho
        exact hne (congrArg some he)
      · intro hne
        refine ⟨ending, rfl, fun hok => ?_, fun he => hne (Option.some.inj he)⟩
        have hk := h.known uuid ending hl hok
        rw [← hcurrent] at hk
        exact hne (Option.some.inj hk).symm

-- A settled device has its target acknowledged, so the API shows another flag
-- only if a POST that counts as failed was applied after the acknowledgement.
theorem converged_iff {start : Uuid → Bool} {world : World Uuid} (h : Recorded start world) :
    world.Converged ↔ ∀ uuid tracker, (world.reporter.device uuid).tracker = some tracker →
      (world.reporter.device uuid).Settled → ¬world.Overturned uuid tracker := by
  refine forall_congr' fun uuid => forall_congr' fun tracker => imp_congr_right fun ht => ?_
  rw [device_settled_iff_forall, and_imp]
  refine imp_congr_right fun hp => imp_congr_right fun hf => ?_
  have hs := (device_settled_iff_forall world.reporter uuid).mpr ⟨hp, hf⟩
  have htarget := (h.agreed.agrees uuid).target tracker ht hs.1
  rw [hs.2, Option.map_none, Option.none_or] at htarget
  rw [overturned_iff h ht htarget, not_not]

theorem overturned_congr {world next : World Uuid} {uuid : Uuid}
    {tracker changed : DeviceStateTracker} (hl : next.lastApplied uuid = world.lastApplied uuid)
    (hc : changed.currentConnected = tracker.currentConnected) :
    next.Overturned uuid changed ↔ world.Overturned uuid tracker := by
  simp only [Overturned, hl, hc]

theorem lastApplied_of_not_settle (batchSize : Int) {world next : World Uuid}
    {event : Event Uuid} (hs : step batchSize world event = some next)
    (hno : ∀ id response, event.reporter ≠ .settle id response) (uuid : Uuid) :
    next.lastApplied uuid = world.lastApplied uuid :=
  (step_api_untouched batchSize hs uuid fun _ _ response he => absurd he (hno _ response)).2

theorem settle_not_overturned {start : Uuid → Bool} {world next : World Uuid} {uuid : Uuid}
    {post : Post Uuid} {applied : Bool} (h : Recorded start world)
    (hp : post ∈ world.reporter.inFlight) (hu : uuid ∈ post.uuids)
    (hs : world.settle post.id (some 200) applied = some next) (tracker : DeviceStateTracker) :
    ¬next.Overturned uuid tracker := by
  obtain ⟨hlegal, other, ho, hid, _, _, hlog⟩ := step_settle_cases hs
  obtain rfl : other = post := List.inj_on_of_nodup_map h.agreed.scheduled.ids_nodup ho hp hid
  have hnew := lastApplied_settle hlog hu
  rw [hlegal rfl, if_pos rfl] at hnew
  rintro ⟨ending, he, hfail, _⟩
  obtain rfl := Option.some.inj (hnew.symm.trans he)
  exact hfail rfl

-- What a device that is settled after the turn was before it: settled, or
-- dropped by a round, or acknowledged just now.
theorem converged_step (batchSize : Int) (start : Uuid → Bool) (world : World Uuid)
    (event : Event Uuid) (next : World Uuid) (h : Recorded start world) (hc : world.Converged)
    (hd : world.DropsNone event) (hs : step batchSize world event = some next) :
    next.Converged := by
  rw [converged_iff h] at hc
  rw [converged_iff (recorded_step batchSize start world event next h hs)]
  intro uuid tracker ht hsettled
  obtain ⟨inputs, hseen, hrun⟩ :=
    device_step batchSize _ _ _ h.agreed.scheduled (step_reporter batchSize hs) uuid
  generalize hev : event.reporter = reported at hseen
  cases hseen with
  | untouched _ _ hsettle _ =>
      rw [run_nil, Option.some.injEq] at hrun
      have hsame := step_api_untouched batchSize hs uuid (hev ▸ hsettle)
      rw [overturned_congr hsame.2 rfl]
      exact hc uuid tracker (hrun ▸ ht) (hrun ▸ hsettled)
  | called serviceId workerId connected _ =>
      rw [run_singleton] at hrun
      have hnext := Option.some.inj hrun
      rw [← hnext] at hsettled
      cases hsettled.1
  | reported serviceId workerId connected id hidle _ =>
      have hold := device_settled_of_idle h.agreed.scheduled hidle uuid
      obtain ⟨old, hget, hcurrent⟩ := Device.dropped_call hrun ht hsettled
      cases event with
      | wake => cases hev
      | settle => cases hev
      | setConnected other serviceId' workerId' connected' =>
          have hl := lastApplied_of_not_settle batchSize hs (by simp [Event.reporter]) uuid
          rw [overturned_congr hl hcurrent]
          exact hc uuid old hget hold
  | examined index id _ =>
      rw [run_singleton] at hrun
      obtain ⟨old, hold, hpending, _, hnext⟩ := Device.examine_cases hrun
      rw [hnext] at ht hsettled
      obtain rfl : old = tracker := Option.some.inj (hold.symm.trans ht)
      have hneeds : old.needsUpdate = false := by
        have hin := hsettled.2
        by_contra hne
        simp [hne] at hin
      cases event with
      | setConnected => cases hev
      | settle => cases hev
      | wake other =>
          have hl := lastApplied_of_not_settle batchSize hs (by simp [Event.reporter]) uuid
          rw [overturned_congr hl rfl]
          exact hd uuid (by simpa [State.device] using hpending) old hold hneeds
  | acknowledged post hp hu =>
      cases event with
      | setConnected => cases hev
      | wake => cases hev
      | settle id response applied =>
          injection hev with hid hresponse
          subst hid hresponse
          exact settle_not_overturned h hp hu hs tracker
  | requeued post _ _ response _ =>
      rw [run_singleton] at hrun
      obtain ⟨report, _, hnext⟩ := Device.requeue_cases hrun
      rw [hnext] at hsettled
      cases hsettled.1

-- A round that drops an overturned device settles it against its target.
theorem dropsNone_of_converged (batchSize : Int) (start : Uuid → Bool) (world : World Uuid)
    (event : Event Uuid) (next : World Uuid) (h : Recorded start world)
    (hs : step batchSize world event = some next) (hc : next.Converged) :
    world.DropsNone event := by
  rw [converged_iff (recorded_step batchSize start world event next h hs)] at hc
  cases event with
  | setConnected => trivial
  | settle => trivial
  | wake index =>
      intro uuid hpending tracker ht hneeds hover
      obtain ⟨inputs, hseen, hrun⟩ :=
        device_step batchSize _ _ _ h.agreed.scheduled (step_reporter batchSize hs) uuid
      cases hseen with
      | untouched _ _ _ hwake => exact hwake index rfl hpending
      | examined _ id _ =>
          rw [run_singleton] at hrun
          obtain ⟨old, hold, _, _, hnext⟩ := Device.examine_cases hrun
          obtain rfl : tracker = old := Option.some.inj (ht.symm.trans hold)
          have hl := lastApplied_of_not_settle batchSize hs (by simp [Event.reporter]) uuid
          refine hc uuid tracker (by rw [hnext]; exact ht) ?_ ((overturned_congr hl rfl).mpr hover)
          rw [hnext]
          exact ⟨rfl, by simp [hneeds]⟩

-- In every run the flags at the API follow the targets in all states exactly when
-- no round drops a device that a POST counted as failed has overturned.
theorem converged_throughout_iff (batchSize : Int) (start : Uuid → Bool)
    (events : List (Event Uuid)) (last : World Uuid)
    (hrun : run (step batchSize) (initial start) events = some last) :
    Throughout (step batchSize) Converged (initial start) events ↔
      StepsMeet (step batchSize) DropsNone (initial start) events := by
  have hinv := recorded_step batchSize start
  constructor
  · exact stepsMeet_of_throughout hinv (fun world event next h _ hs hc =>
      dropsNone_of_converged batchSize start world event next h hs hc)
      (recorded_initial start) hrun
  · exact throughout_of_stepsMeet hinv (converged_step batchSize start) (recorded_initial start)
      (fun _ _ ht => by cases ht)

-- A round that reports every pending device drops none.
theorem dropsNone_of_needsUpdate {world : World Uuid} {index : Nat}
    (h : ∀ uuid ∈ world.reporter.pendingUpdates.elems,
      (world.reporter.deviceStates.get uuid).all (·.needsUpdate) = true) :
    world.DropsNone (.wake index) := by
  intro uuid hu tracker ht hneeds
  have hall := h uuid ((OrderedSet.mem_iff _ _).mp hu)
  rw [ht, Option.all_some, hneeds] at hall
  cases hall

-- A connect times out after it was applied, and is sent once more.
theorem converged_throughout_retry :
    Throughout (step 8000) Converged (initial fun _ : String => false)
      [.setConnected "c0ffee" 1 1 true, .settle 0 none true, .wake 0, .settle 1 (some 200) true,
        .wake 0] := by
  refine (converged_throughout_iff 8000 _ _ _ (Option.some_get (by decide)).symm).mpr ?_
  refine ⟨trivial, fun w₁ h₁ => ⟨trivial, fun w₂ h₂ => ⟨?_, fun w₃ h₃ => ⟨trivial,
    fun w₄ h₄ => ⟨?_, fun _ _ => trivial⟩⟩⟩⟩⟩
  · obtain rfl := Option.some.inj h₁
    obtain rfl := Option.some.inj h₂
    exact dropsNone_of_needsUpdate (by decide)
  · obtain rfl := Option.some.inj h₁
    obtain rfl := Option.some.inj h₂
    obtain rfl := Option.some.inj h₃
    obtain rfl := Option.some.inj h₄
    exact dropsNone_of_needsUpdate (by decide)

-- A disconnect times out after it was applied, the device connects again, and the
-- round drops it: it is connected, and was last acknowledged as connected.
theorem converged_overturned :
    ∃ events last, run (step 8000) (initial fun _ : String => false) events = some last ∧
      ¬last.Converged := by
  refine ⟨[.setConnected "c0ffee" 1 1 true, .settle 0 (some 200) true, .wake 0,
    .setConnected "c0ffee" 1 1 false, .settle 1 none true, .setConnected "c0ffee" 1 1 true,
    .wake 0], _, (Option.some_get (by decide)).symm, fun hc => ?_⟩
  have h := hc "c0ffee" ⟨true, 1, some true, some 1⟩ (by decide) (by decide) (by decide)
  revert h
  decide

end OpenBalenaVpn.Reporter.World
