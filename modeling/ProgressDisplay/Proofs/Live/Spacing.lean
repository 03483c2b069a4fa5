import ProgressDisplay.Proofs.Live.Batches
import ProgressDisplay.Proofs.Live.Finality

/-!
# The time between drains

An event is applied at once only if the last drain is old enough. An alarm that rings does not look
at the last drain, but it was set for a whole throttle after some moment that came later than that
drain, and no drain comes in between, since events wait while it is set.

* `Paced.act`: what a timely action does to the last drain and to the alarms.
* `run_spaced`: drains that apply events are a throttle apart.
-/

namespace ProgressDisplay.Display

variable {d s : Display} {throttle : Nat} {a : DisplayAction}

/-- An action applies events: some wait or come with it, and none is left after it. -/
def Applies (d : Display) (a : DisplayAction) : Prop :=
  d.phase = .running ∧ d.queue ++ a.event?.toList ≠ [] ∧ (d.act a).state.queue = []

instance (d : Display) (a : DisplayAction) : Decidable (d.Applies a) :=
  inferInstanceAs (Decidable (_ ∧ _ ∧ _))

/-- The readings of the clock at which the actions of a run apply events. -/
def drainTimes : List DisplayAction → Display → List Int
  | [], _ => []
  | a :: rest, d =>
    let later := drainTimes rest (d.act a).state
    if d.Applies a then d.now :: later else later

/-- Whether an action leaves it to throttle and alarms when events are applied. The clock does not
go back, and no alarm rings before it is due. -/
def isTimely (d : Display) : DisplayAction → Bool
  | .accept e => e ≠ .endOfOutput
  | .flush | .close => false
  | .ring index => d.timer.alarms[index]?.all fun alarm => alarm.due ≤ d.now
  | .clock now => d.now ≤ now
  | _ => true

/-- All actions of a run are timely when they are taken. -/
def Timely : List DisplayAction → Display → Prop
  | [], _ => True
  | a :: rest, d => d.isTimely a ∧ Timely rest (d.act a).state

instance decidableTimely :
    ∀ (actions : List DisplayAction) (d : Display), Decidable (Timely actions d)
  | [], _ => .isTrue trivial
  | a :: rest, d =>
    haveI := decidableTimely rest (d.act a).state
    inferInstanceAs (Decidable (_ ∧ _))

/-! ## What an action does to the pace -/

/-- The last drain lies in the past, and what alarms are set are due a throttle after it. -/
structure Paced (throttle : Nat) (d : Display) : Prop where
  constant : d.throttle = throttle
  past : ∀ last ∈ d.lastDrain, last ≤ d.now
  ahead : d.phase = .running →
    ∀ last ∈ d.lastDrain, ∀ alarm ∈ d.timer.alarms, last + throttle ≤ alarm.due

/-- What a timely action comes to. -/
inductive Advances (throttle : Nat) (d : Display) (a : DisplayAction) (s : Display) : Prop where
  | applied (happlies : d.Applies a) (hlast : s.lastDrain = some d.now)
      (hready : ∀ last ∈ d.lastDrain, last + throttle ≤ d.now)
  | kept (hwaits : ¬d.Applies a) (hlast : s.lastDrain = d.lastDrain)

/-- Nothing that has to do with time has changed. -/
structure Coeval (d s : Display) : Prop where
  throttle : s.throttle = d.throttle := by rfl
  now : s.now = d.now := by rfl
  lastDrain : s.lastDrain = d.lastDrain := by rfl
  timer : s.timer = d.timer := by rfl
  phase : s.phase = d.phase := by rfl

theorem Coeval.paced (hs : d.Coeval s) (h : d.Paced throttle) : s.Paced throttle where
  constant := hs.throttle.trans h.constant
  past := by
    rw [hs.lastDrain, hs.now]
    exact h.past
  ahead := by
    rw [hs.phase, hs.lastDrain, hs.timer]
    exact h.ahead

theorem Coeval.kept (hs : d.Coeval s) (h : d.Paced throttle) (hwaits : ¬d.Applies a) :
    s.Paced throttle ∧ Advances throttle d a s :=
  ⟨hs.paced h, .kept hwaits hs.lastDrain⟩

theorem not_applies_of_idle (hidle : d.phase ≠ .running) : ¬d.Applies a := fun h => hidle h.1

theorem not_applies_of_queue (hqueue : (d.act a).state.queue = d.queue ++ a.event?.toList) :
    ¬d.Applies a := by
  rintro ⟨-, hsome, hnone⟩
  exact hsome (hqueue.symm.trans hnone)

theorem not_applies_of_silent (hevent : a.event? = none)
    (hqueue : (d.act a).state.queue = d.queue) : ¬d.Applies a :=
  not_applies_of_queue (by rw [hqueue, hevent, Option.toList_none, List.append_nil])

theorem queue_enqueue_ne_nil (d : Display) (e : Event) : (d.enqueue e).queue ≠ [] :=
  List.append_ne_nil_of_right_ne_nil d.queue (List.cons_ne_nil e [])

theorem drain_of_quiet (hrunning : d.phase = .running) (hqueue : d.queue = []) :
    d.drain = .done d :=
  drain_of_empty (by rw [hrunning]; decide) hqueue

/-- A drain of a running display in which an event waits notes the time. -/
theorem lastDrain_drain (hrunning : d.phase = .running) (hqueue : d.queue ≠ []) :
    d.drain.state.lastDrain = some d.now ∧ d.drain.state.now = d.now ∧
      d.drain.state.throttle = d.throttle := by
  have hdrains : d.Drains d.drain := drains_of_running hrunning
  generalize d.drain = r at hdrains
  cases hdrains with
  | idle hnone => exact absurd hnone hqueue
  | shown | failed | refused => exact ⟨rfl, rfl, rfl⟩

theorem tracker_finish (d : Display) : d.finish.tracker = d.tracker := by
  unfold finish
  split <;> rfl

/-- The tracker changes only where events are applied. -/
theorem Watched.tracker_act (h : d.Watched) (hwaits : ¬d.Applies a) :
    (d.act a).state.tracker = d.tracker := by
  by_cases hrunning : d.phase = .running
  · have hdoes : d.Does a (d.act a) := does h.interactive a
    have hsome : (d.act a).state.queue = [] → d.queue ++ a.event?.toList = [] := fun hnone => by
      by_contra hsome
      exact hwaits ⟨hrunning, hsome, hnone⟩
    have hempty : d.queue ++ a.event?.toList = [] → d.queue = [] := fun h =>
      (List.append_eq_nil_iff.mp h).1
    generalize d.act a = r at hdoes hsome
    cases hdoes with
    | wait | later | unheeded | unheededLast | rejected | redraw | setVisible | giveUpOutput
    | ringInVain | silence | clock | resize | page => rfl
    | output =>
      obtain ⟨page, -, hpage⟩ := exists_output_eq d _
      rw [hpage]
      rfl
    | last =>
      have hdrained := @drained_of_running (d.enqueue .endOfOutput) hrunning
      exact absurd (hsome ((queue_finish _).trans hdrained.queue))
        (queue_enqueue_ne_nil d .endOfOutput)
    | atOnce hphase hother hunset hdue =>
      rename_i e
      exact absurd (hsome (@drained_of_running (d.enqueue e) hrunning).queue)
        (queue_enqueue_ne_nil d e)
    | flush hfull =>
      have hqueue := hempty (hsome (drained_of_running hrunning).queue)
      exact absurd ⟨hqueue, by rw [hrunning]; decide⟩ hfull
    | close =>
      have hdrained := @drained_of_running d.stopTimer hrunning
      have hqueue := hempty (hsome ((queue_finish _).trans hdrained.queue))
      rw [@drain_of_quiet d.stopTimer hrunning hqueue]
      exact tracker_finish d.stopTimer
    | closeAgain hphase => exact absurd hrunning hphase
    | ring hphase hrings =>
      rename_i index
      have hqueue := hempty (hsome (@drained_of_running (d.forget index) hrunning).queue)
      rw [@drain_of_quiet (d.forget index) hrunning hqueue]
      rfl
  · exact (h.frozen_act hrunning a).tracker

namespace Paced

theorem ready_of_due (h : d.Paced throttle) (hdue : d.due = true) {last : Int}
    (hlast : last ∈ d.lastDrain) : last + throttle ≤ d.now := by
  have hpast := h.past last hlast
  have hconstant := h.constant
  rw [due, Option.mem_def.mp hlast] at hdue
  have hold : d.throttle ≤ (d.now - last).toNat := of_decide_eq_true hdue
  omega

theorem ready_of_alarm (h : d.Paced throttle) (hrunning : d.phase = .running) {index : Nat}
    (hindex : index < d.timer.alarms.length) (htimely : d.isTimely (.ring index)) {last : Int}
    (hlast : last ∈ d.lastDrain) : last + throttle ≤ d.now := by
  have hahead := h.ahead hrunning last hlast d.timer.alarms[index] (List.getElem_mem hindex)
  simp only [isTimely, List.getElem?_eq_getElem hindex, Option.all_some,
    decide_eq_true_eq] at htimely
  omega

theorem drain (hconstant : d.throttle = throttle) (hrunning : d.phase = .running)
    (hqueue : d.queue ≠ []) (hnone : d.timer.alarms.length = 0) :
    d.drain.state.Paced throttle := by
  obtain ⟨hlast, hnow, hthrottle⟩ := lastDrain_drain hrunning hqueue
  refine ⟨hthrottle.trans hconstant, ?_, fun _ last _ alarm halarm => ?_⟩
  · rw [hlast, hnow]
    rintro last ⟨⟩
    exact Int.le_refl _
  · rw [(drained_of_running hrunning).timer, List.eq_nil_of_length_eq_zero hnone] at halarm
    exact absurd halarm List.not_mem_nil

theorem forget (h : d.Paced throttle) (index : Nat) : (d.forget index).Paced throttle where
  constant := h.constant
  past := h.past
  ahead hrunning last hlast alarm halarm :=
    h.ahead hrunning last hlast alarm (List.mem_of_mem_eraseIdx halarm)

theorem schedule (h : d.Paced throttle) (hwatched : d.Watched) (hrunning : d.phase = .running)
    (hunset : d.alarmSet = false) (e : Event) :
    (d.enqueue e).schedule.Paced throttle := by
  refine ⟨h.constant, h.past, fun _ last hlast alarm halarm => ?_⟩
  have hpast := h.past last hlast
  rw [hwatched.timer_schedule hrunning hunset e, List.mem_singleton] at halarm
  rw [halarm]
  show last + (throttle : Int) ≤ d.now + d.throttle
  rw [h.constant]
  omega

theorem act (h : d.Paced throttle) (hwatched : d.Watched) (htimely : d.isTimely a) :
    (d.act a).state.Paced throttle ∧ Advances throttle d a (d.act a).state := by
  have hdoes : d.Does a (d.act a) := does hwatched.interactive a
  generalize hr : d.act a = r at hdoes
  cases hdoes with
  | last | redraw | flush | close | closeAgain => cases htimely
  | wait => exact Coeval.kept {} h (not_applies_of_queue (by rw [hr]; rfl))
  | atOnce hphase hother hunset hdue =>
    rename_i e
    have hqueue := queue_enqueue_ne_nil d e
    have hnone : d.timer.alarms.length = 0 := by rw [hwatched.single hphase, hunset]; rfl
    refine ⟨drain h.constant hphase hqueue hnone, .applied ⟨hphase, hqueue, ?_⟩
      (@lastDrain_drain (d.enqueue e) hphase hqueue).1 fun last => h.ready_of_due hdue⟩
    rw [hr]
    exact (@drained_of_running (d.enqueue e) hphase).queue
  | later hphase _ hunset =>
    exact ⟨h.schedule hwatched hphase hunset _, .kept (not_applies_of_queue (by rw [hr]; rfl)) rfl⟩
  | unheeded hphase | rejected hphase =>
    exact Coeval.kept {} h (not_applies_of_idle (by rw [hphase]; decide))
  | unheededLast => cases htimely
  | setVisible | giveUpOutput | page | silence | resize =>
    exact Coeval.kept {} h (not_applies_of_silent rfl (by rw [hr]; rfl))
  | output =>
    obtain ⟨page, -, hpage⟩ := exists_output_eq d _
    rw [hpage]
    exact Coeval.kept {} h (not_applies_of_silent rfl (by rw [hr, hpage]; rfl))
  | ring hphase hrings =>
    rename_i index
    have hindex : index < d.timer.alarms.length :=
      hrings.resolve_right (by rw [hwatched.accepting hphase]; decide)
    -- An alarm that rings where nothing waits applies nothing, whenever it was set.
    by_cases hqueue : d.queue = []
    · rw [@drain_of_quiet (d.forget index) hphase hqueue] at hr ⊢
      exact ⟨h.forget index,
        .kept (not_applies_of_silent rfl (by rw [hr]; rfl)) rfl⟩
    · refine ⟨drain h.constant hphase hqueue (hwatched.alarms_forget hphase hrings),
        .applied ⟨hphase, fun h => hqueue (List.append_eq_nil_iff.mp h).1, ?_⟩
        (@lastDrain_drain (d.forget index) hphase hqueue).1
        fun last => h.ready_of_alarm hphase hindex htimely⟩
      rw [hr]
      exact (@drained_of_running (d.forget index) hphase).queue
  | ringInVain hphase => exact ⟨h.forget _, .kept (not_applies_of_idle hphase) rfl⟩
  | clock =>
    have hlater : d.now ≤ _ := of_decide_eq_true htimely
    exact ⟨⟨h.constant, fun last hlast => (h.past last hlast).trans hlater, h.ahead⟩,
      .kept (not_applies_of_silent rfl (by rw [hr]; rfl)) rfl⟩

theorem pairwise_drainTimes {actions : List DisplayAction} (h : d.Paced throttle)
    (hwatched : d.Watched) (htimely : Timely actions d) :
    (d.lastDrain.toList ++ drainTimes actions d).Pairwise fun s t : Int => s + throttle ≤ t := by
  induction actions generalizing d with
  | nil => cases hd : d.lastDrain <;> simp [drainTimes]
  | cons a rest ih =>
    obtain ⟨hact, hadvances⟩ := h.act hwatched htimely.1
    have hrest := ih hact (hwatched.act a) htimely.2
    rw [drainTimes]
    cases hadvances with
    | kept hwaits hlast => rwa [if_neg hwaits, ← hlast]
    | applied happlies hlast hready =>
      rw [hlast, Option.toList_some, List.singleton_append] at hrest
      rw [if_pos happlies]
      cases hd : d.lastDrain with
      | none => exact hrest
      | some last =>
        have hfirst : last + throttle ≤ d.now := hready last hd
        refine List.pairwise_cons.mpr ⟨fun t ht => ?_, hrest⟩
        obtain rfl | hlater := List.mem_cons.mp ht
        · exact hfirst
        · have hnext := (List.pairwise_cons.mp hrest).1 t hlater
          omega

end Paced

/-- While it is left to throttle and alarms when the events of a display on a terminal are applied,
any two drains that apply events are at least a throttle apart, whenever the events arrive and
however late the alarms ring. The operations, their lines and the headline change in no other
action. -/
theorem run_spaced (page : Page) (present : LineAssignment.Presentation) (columns : Option Nat)
    (throttle : Nat) (actions : List DisplayAction) :
    let start := onTerminal page present columns throttle
    (Timely actions start →
      (drainTimes actions start).Pairwise fun s t : Int => s + throttle ≤ t) ∧
    ∀ a, ¬(run actions start).Applies a →
      ((run actions start).act a).state.tracker = (run actions start).tracker := by
  intro start
  have hwatched : start.Watched := watched_onTerminal page present columns throttle
  have hpaced : start.Paced throttle := ⟨rfl, nofun, fun _ => nofun⟩
  exact ⟨hpaced.pairwise_drainTimes hwatched, fun a => (hwatched.run actions).tracker_act⟩

/-- An event that is drawn at once, one that waits for an alarm, which rings late, and one that
comes soon after that. -/
theorem run_spaced_of_alarm :
    let build : Event := .start 1 none "build" ""
    let start := onTerminal (.start {} .blank 1) Operation.present (some 80) 85
    let actions : List DisplayAction := [.accept build, .clock 1, .accept (.progress 1 "50%"),
      .clock 90, .ring 0, .clock 100, .accept (.complete 1), .clock 200, .ring 0]
    drainTimes actions start = [0, 90, 200] ∧
      (drainTimes actions start).Pairwise fun s t : Int => s + (85 : Nat) ≤ t := by
  intro build start actions
  refine ⟨by decide +kernel, ?_⟩
  exact (run_spaced (.start {} .blank 1) Operation.present (some 80) 85 actions).1
    (by decide +kernel)

end ProgressDisplay.Display
