import AgentRunner.MonitorAlerts
import Mathlib.Data.List.TakeWhile

/-! The monitor acts once for each episode of an alert: what its loop remembers between two
polls is what was present at the last one that returned, less what is draining. -/
namespace AgentRunner.MonitorAlerts
open PyValue

variable {repr : Option Json → String} {answer : Alert → Except String Verdict}
  {alerts rest : List Alert} {alert : Alert} {seen : Seen} {k : String} {m : Monitor}

/-! ## Identities -/

theorem name_colonless (d : Detector) : ':' ∉ d.name.toList := by
  cases d <;> decide

def allDetectors : List Detector :=
  [.timeoutRate, .hung, .orphanChain, .diskWarning, .diskCritical, .diskGrowth, .memPressure,
    .memSignalUnavailable, .memPressureGateInert, .oauthFail, .networkFail, .rateLimitActive,
    .anomalyRepetitiveActive, .supervisorStale]

theorem mem_allDetectors (d : Detector) : d ∈ allDetectors := by
  cases d <;> decide

theorem name_injective {d e : Detector} (same : d.name.toList = e.name.toList) : d = e := by
  have distinct : (allDetectors.map fun d => d.name.toList).Nodup := by decide
  exact List.inj_on_of_nodup_map distinct (mem_allDetectors d) (mem_allDetectors e) same

theorem takeWhile_eq_of_colonless {text : List Char} (colonless : ':' ∉ text) :
    text.takeWhile (· ≠ ':') = text := by
  apply List.takeWhile_eq_self_iff.mpr
  intro c member
  have other : c ≠ ':' := by
    rintro rfl
    exact colonless member
  simpa using other

theorem takeWhile_colonless {text : List Char} (colonless : ':' ∉ text) (rest : List Char) :
    (text ++ ':' :: rest).takeWhile (· ≠ ':') = text := by
  have all := List.takeWhile_eq_self_iff.mp (takeWhile_eq_of_colonless colonless)
  rw [List.takeWhile_append_of_pos all, List.takeWhile_cons_of_neg (by simp), List.append_nil]

/-- An identity begins with the detector's name, up to the first colon. -/
theorem identity_detector (repr : Option Json → String) (alert : Alert) :
    (alertIdentity repr alert).toList.takeWhile (· ≠ ':') = alert.detector.name.toList := by
  have colonless := name_colonless alert.detector
  unfold alertIdentity
  split
  · exact takeWhile_eq_of_colonless colonless
  · rw [String.append_assoc, String.toList_append, String.toList_append]
    exact takeWhile_colonless colonless _

/-- One alert for each detector has one alert for each identity. -/
theorem identities_nodup (distinct : (alerts.map Alert.detector).Nodup) :
    (alerts.map (alertIdentity repr)).Nodup := by
  rw [List.nodup_map_iff_inj_on (List.Nodup.of_map _ distinct)]
  intro a first b second same
  have names : a.detector.name.toList = b.detector.name.toList := by
    rw [← identity_detector repr a, ← identity_detector repr b, same]
  exact List.inj_on_of_nodup_map distinct first second (name_injective names)

/-- A poll returns no more alerts than there are detectors. -/
theorem alerts_bounded (distinct : (alerts.map Alert.detector).Nodup) : alerts.length ≤ 14 := by
  have all : alerts.map Alert.detector ⊆ allDetectors := fun d _ => mem_allDetectors d
  have bound := (List.subperm_of_subset distinct all).length_le
  rwa [List.length_map] at bound

/-! ## One poll -/

theorem contains_iff : seen.contains k = true ↔ seen.get? k = some () := by
  rw [Dict.contains, Option.isSome_iff_exists]
  exact ⟨fun ⟨_, held⟩ => held, fun held => ⟨(), held⟩⟩

/-- What the loop has seen after a new alert, given the answer to it. -/
theorem get?_kept (key k : String) (verdict : Verdict) :
    (if verdict = .draining then (seen.set key ()).erase key else seen.set key ()).get? k =
      if k = key then (if verdict = .draining then none else some ()) else seen.get? k := by
  by_cases drains : verdict = .draining
  · simp only [drains, if_true, Dict.get?_erase, Dict.get?_set]
    by_cases same : k = key <;> simp [same]
  · simp only [drains, if_false, Dict.get?_set]

/-- While there is room nothing is evicted: the loop calls `on_alert` once for each identity
it has not seen, and has then seen them all but the draining. -/
theorem alertLoop_spec (repr : Option Json → String) (answer : Alert → Except String Verdict)
    (distinct : (alerts.map (alertIdentity repr)).Nodup)
    (room : seen.size + alerts.length ≤ seenCap) :
    (∀ k, (∃ v, (k, v) ∈ (alertLoop repr answer seen alerts).2) ↔
      k ∈ alerts.map (alertIdentity repr) ∧ seen.get? k = none) ∧
    (∀ k, (alertLoop repr answer seen alerts).1.get? k = some () ↔
      (seen.get? k = some () ∨ k ∈ alerts.map (alertIdentity repr)) ∧
        (k, Verdict.draining) ∉ (alertLoop repr answer seen alerts).2) ∧
    ((alertLoop repr answer seen alerts).2.map Prod.fst).Nodup := by
  induction alerts generalizing seen with
  | nil => simp [alertLoop]
  | cons alert rest ih =>
    rw [List.map_cons, List.nodup_cons] at distinct
    obtain ⟨fresh, distinct⟩ := distinct
    rw [List.length_cons] at room
    simp only [List.map_cons, List.mem_cons]
    generalize identified : alertIdentity repr alert = key at fresh
    by_cases known : seen.contains key = true
    · have held := contains_iff.mp known
      have roomy : (seen.moveToEnd key).size + rest.length ≤ seenCap := by
        have := Dict.size_moveToEnd_le seen key
        omega
      obtain ⟨called, remembered, once⟩ := ih distinct roomy
      rw [alertLoop, identified, if_pos known]
      refine ⟨fun k => ?_, fun k => ?_, once⟩
      · rw [called k, Dict.get?_moveToEnd]
        refine and_congr_left fun new => ⟨Or.inr, Or.rec ?_ id⟩
        rintro rfl
        rw [held] at new
        cases new
      · rw [remembered k, Dict.get?_moveToEnd]
        refine and_congr_left fun _ => ⟨Or.imp_right Or.inr, ?_⟩
        rintro (there | rfl | member)
        · exact Or.inl there
        · exact Or.inl held
        · exact Or.inr member
    · have new : seen.get? key = none := by
        cases held : seen.get? key with
        | none => rfl
        | some u => exact absurd (contains_iff.mpr held) known
      have grown := Dict.size_set_le seen key ()
      have within : ¬ seenCap < (seen.set key ()).size := by omega
      rw [alertLoop, identified, if_neg known]
      simp only [within, if_false]
      generalize answered : guarded (answer alert) = verdict
      have kept := fun k => @get?_kept seen key k verdict
      have roomy : (if verdict = .draining then (seen.set key ()).erase key
          else seen.set key ()).size + rest.length ≤ seenCap := by
        have shrunk := Dict.size_erase_le (seen.set key ()) key
        split <;> omega
      obtain ⟨called, remembered, once⟩ := ih distinct roomy
      simp only [kept] at called remembered
      have uncalled : ∀ v, (key, v) ∉ (alertLoop repr answer (if verdict = .draining then
          (seen.set key ()).erase key else seen.set key ()) rest).2 :=
        fun v member => fresh ((called key).mp ⟨v, member⟩).1
      refine ⟨fun k => ?_, fun k => ?_, ?_⟩
      · by_cases same : k = key
        · subst same
          simp [new]
        · simp only [List.mem_cons, Prod.mk.injEq, same, false_and, false_or]
          rw [called k, if_neg same]
      · by_cases same : k = key
        · subst same
          have here := remembered k
          simp only [if_true, fresh, or_false, uncalled, not_false_eq_true, and_true] at here
          rw [here]
          have left := uncalled .draining
          by_cases drains : verdict = .draining
          · simp [drains]
          · simpa [drains, Ne.symm drains] using left
        · simp only [List.mem_cons, Prod.mk.injEq, same, false_and, false_or]
          rw [remembered k, if_neg same]
      · rw [List.map_cons, List.nodup_cons]
        refine ⟨fun member => ?_, once⟩
        obtain ⟨⟨_, v⟩, there, rfl⟩ := List.mem_map.mp member
        exact uncalled v there

/-- Every call is answered as its alert is. -/
theorem alertLoop_answers {call : Call} (made : call ∈ (alertLoop repr answer seen alerts).2) :
    ∃ a ∈ alerts, call = (alertIdentity repr a, guarded (answer a)) := by
  induction alerts generalizing seen with
  | nil => simp [alertLoop] at made
  | cons alert rest ih =>
    rw [alertLoop] at made
    split at made
    · obtain ⟨a, member, same⟩ := ih made
      exact ⟨a, List.mem_cons_of_mem _ member, same⟩
    · obtain rfl | later := List.mem_cons.mp made
      · exact ⟨alert, List.mem_cons_self, rfl⟩
      · obtain ⟨a, member, same⟩ := ih later
        exact ⟨a, List.mem_cons_of_mem _ member, same⟩

/-! ## Every poll -/

/-- What is seen between two polls: what was present at the last one that returned, less
what was answered with `draining`. -/
structure Remembers (m : Monitor) : Prop where
  small : m.seen.size ≤ 14
  seen_iff : ∀ k, m.seen.get? k = some () ↔
    ∃ o, m.last = some o ∧ k ∈ o.present ∧ (k, Verdict.draining) ∉ o.calls

theorem remembers_start : Remembers start := by
  constructor
  · simp [start, Dict.size, Dict.empty]
  · simp [start]

theorem size_rearm_le (distinct : (alerts.map Alert.detector).Nodup) :
    (rearm repr seen alerts).size ≤ 14 := by
  have present : (rearm repr seen alerts).entries.map Prod.fst ⊆
      alerts.map (alertIdentity repr) := by
    intro k member
    obtain ⟨entry, held, rfl⟩ := List.mem_map.mp member
    exact List.contains_iff_mem.mp (List.mem_filter.mp held).2
  have bound := (List.subperm_of_subset (rearm repr seen alerts).nodup present).length_le
  have few := alerts_bounded distinct
  rw [List.length_map, List.length_map] at bound
  exact bound.trans few

theorem get?_rearm (k : String) :
    (rearm repr seen alerts).get? k = some () ↔
      k ∈ alerts.map (alertIdentity repr) ∧ seen.get? k = some () := by
  rw [rearm, Dict.get?_filterKeys]
  by_cases present : k ∈ alerts.map (alertIdentity repr)
  · simp only [List.contains_iff_mem.mpr present, if_true, present, true_and]
  · have absent : (alerts.map (alertIdentity repr)).contains k = false := by
      rw [← Bool.not_eq_true, List.contains_iff_mem]
      exact present
    simp only [absent, present, Bool.false_eq_true, if_false, reduceCtorEq, false_and]

theorem room_of_remembers (remembers : Remembers m)
    (distinct : (alerts.map Alert.detector).Nodup) :
    m.seen.size + alerts.length ≤ seenCap := by
  have few := alerts_bounded distinct
  have small := remembers.small
  simp only [seenCap]
  omega

theorem remembers_turn {poll : Poll} (remembers : Remembers m) (valid : poll.OnePerDetector) :
    Remembers (m.turn repr poll) := by
  cases poll with
  | failed => exact remembers
  | returned alerts answer =>
    obtain ⟨_, seen_after, _⟩ := alertLoop_spec repr answer (identities_nodup valid)
      (room_of_remembers remembers valid)
    refine ⟨size_rearm_le valid, fun k => ?_⟩
    simp only [Monitor.turn, get?_rearm, seen_after k, outcome, Option.some.injEq,
      exists_eq_left']
    constructor
    · rintro ⟨present, _, kept⟩
      exact ⟨present, kept⟩
    · rintro ⟨present, kept⟩
      exact ⟨present, Or.inr present, kept⟩

theorem remembers_watch {polls : List Poll} (valid : ∀ poll ∈ polls, poll.OnePerDetector) :
    Remembers (watch repr polls) := by
  suffices ∀ m, Remembers m → Remembers (polls.foldl (Monitor.turn repr) m) from
    this start remembers_start
  induction polls with
  | nil => exact fun m remembers => remembers
  | cons poll rest ih =>
    intro m remembers
    exact ih (fun p member => valid p (List.mem_cons_of_mem _ member)) _
      (remembers_turn remembers (valid poll List.mem_cons_self))

/-- **The monitor acts once for each episode.**  After any polls, a poll that returns has
`on_alert` called for exactly the identities present now that were absent from the last poll
that returned, or whose call there was answered with `draining`, and for each of them once. A
poll that fails changes nothing. -/
theorem acts_once_per_episode (repr : Option Json → String) (polls : List Poll)
    (valid : ∀ poll ∈ polls, poll.OnePerDetector) (alerts : List Alert)
    (answer : Alert → Except String Verdict) (distinct : (alerts.map Alert.detector).Nodup) :
    let m := watch repr polls
    let now := outcome repr m alerts answer
    (∀ k, (∃ v, (k, v) ∈ now.calls) ↔ k ∈ now.present ∧
      ∀ before, m.last = some before →
        k ∉ before.present ∨ (k, Verdict.draining) ∈ before.calls) ∧
      (now.calls.map Prod.fst).Nodup ∧
      (∀ a ∈ alerts, ∀ v, (alertIdentity repr a, v) ∈ now.calls → v = guarded (answer a)) ∧
      m.turn repr .failed = m := by
  intro m now
  have remembers : Remembers m := remembers_watch valid
  obtain ⟨called, _, once⟩ := alertLoop_spec repr answer (identities_nodup distinct)
    (room_of_remembers remembers distinct)
  refine ⟨fun k => (called k).trans (and_congr_right fun _ => ?_), once,
    fun a member v made => ?_, rfl⟩
  · rw [← Option.not_isSome_iff_eq_none, Option.isSome_iff_exists]
    constructor
    · intro unseen before last
      by_contra kept
      rw [not_or, not_not] at kept
      exact unseen ⟨(), (remembers.seen_iff k).mpr ⟨before, last, kept.1, kept.2⟩⟩
    · rintro forgotten ⟨⟨⟩, held⟩
      obtain ⟨before, last, present, kept⟩ := (remembers.seen_iff k).mp held
      exact (forgotten before last).elim (absurd present) kept
  · obtain ⟨b, there, same⟩ := alertLoop_answers made
    obtain ⟨identity, rfl⟩ := Prod.mk.inj same
    rw [List.inj_on_of_nodup_map (identities_nodup distinct) member there identity]

/-- An `oauth_fail` alert that asks for the service to be stopped. -/
def oauthAlert : Alert := ⟨"critical", .oauthFail, "2/3 recent rounds failed auth", fun _ => none,
  "stop_service"⟩

theorem draining_alert_acts_again :
    ∃ v, ("oauth_fail", v) ∈ (outcome (fun _ => "None")
      (watch (fun _ => "None") [.returned [oauthAlert] fun _ => .ok .draining, .failed])
      [oauthAlert] fun _ => .ok .triggered).calls := by
  refine ((acts_once_per_episode (fun _ => "None")
    [.returned [oauthAlert] fun _ => .ok .draining, .failed] ?_ [oauthAlert]
    (fun _ => .ok .triggered) (List.nodup_singleton _)).1 "oauth_fail").mpr ⟨?_, ?_⟩
  · rintro poll (_ | ⟨_, _ | ⟨_, ⟨⟩⟩⟩)
    · exact List.nodup_singleton _
    · exact trivial
  · exact List.mem_singleton.mpr rfl
  · rintro before last
    obtain rfl := Option.some.inj last
    exact Or.inr (List.mem_singleton.mpr rfl)

/-- A call is answered with `draining` where an allowed stop left a `serve` in pid-file mode
alive, and then only the alert itself is recorded. -/
theorem onAlert_draining_iff {allowed : List String} {stop : Except String ServiceStatus} :
    (onAlert allowed alert stop).2 = .draining ↔
      alert.autoAction = "stop_service" ∧ alert.detector.name ∈ allowed ∧
        stop = .ok ⟨true, .pidFile⟩ := by
  unfold onAlert
  by_cases asks : alert.autoAction = "stop_service"
  · by_cases permitted : alert.detector.name ∈ allowed
    · simp only [asks, permitted, ne_eq, not_true_eq_false, if_false, true_and]
      obtain e | ⟨active, mode⟩ := stop
      · simp [stopThenRecord]
      · cases active <;> cases mode <;> simp [stopThenRecord]
    · simp [asks, permitted]
  · simp [asks]

theorem onAlert_draining_records {allowed : List String} {stop : Except String ServiceStatus}
    (drains : (onAlert allowed alert stop).2 = .draining) :
    (onAlert allowed alert stop).1 =
      [.alertEmitted alert.severity alert.message alert.autoAction] := by
  obtain ⟨asks, permitted, rfl⟩ := onAlert_draining_iff.mp drains
  simp [onAlert, asks, permitted, stopThenRecord]

end AgentRunner.MonitorAlerts
