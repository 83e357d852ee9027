import DbosTransact.Lib.Calendar
import DbosTransact.Lib.Transition

/-!
# Automatic backfill

One executor with one active schedule, through any number of crashes and restarts. A tick that fires starts
a function, which enqueues the workflow of the tick and later writes the time of day to `last_fired_at`. On
a restart the reconciler backfills the ticks after `last_fired_at` plus one second and before the present,
and installs the schedule some time later. Here a tick stands for its workflow.
-/

namespace Dbos

open Calendar Lts

namespace AutomaticBackfill

structure Firing where
  tick : ℤ
  enqueued : Bool
  deriving DecidableEq

/-- The executor is down; its reconciler has backfilled up to an instant; or the schedule is installed,
and its entry fires next at an instant. -/
inductive Mode
  | down
  | backfilled (stop : ℤ)
  | running (first : ℤ)
  deriving DecidableEq

/-- The executor, the functions that run on it, the enqueued ticks, `last_fired_at`, and the ticks that
were enqueued when the executor went down. -/
structure State where
  now : ℤ
  mode : Mode
  firing : List Firing
  enqueued : List ℤ
  lastFiredAt : Option ℤ
  crashed : List ℤ

/-- The next tick fires; a function enqueues its tick, or records that it has fired; the executor crashes;
it is started again and backfills; it installs the schedule. -/
inductive Action
  | fire (now : ℤ)
  | enqueue (k : ℕ) (now : ℤ)
  | record (k : ℕ) (now : ℤ)
  | crash (now : ℤ)
  | backfill (now : ℤ)
  | install (now : ℤ)

def Action.time : Action → ℤ
  | .fire now | .enqueue _ now | .record _ now | .crash now | .backfill now | .install now => now

/-- `maybeAutomaticBackfill`, for a schedule that asks for it: the ticks that it goes over. -/
def maybeAutomaticBackfill (c : Cron) (lastFiredAt : Option ℤ) (now : ℤ) : List ℤ :=
  match lastFiredAt with
  | none => []
  | some lastFired =>
    let start := lastFired + second
    if start < now then c.between start now else []

def effect (c : Cron) (s : State) : Action → Option State
  | .fire now =>
    match s.mode with
    | .running first =>
      if first ≤ now then
        some { s with mode := .running (c.next now), firing := s.firing ++ [⟨first, false⟩] }
      else none
    | _ => none
  | .enqueue k _ =>
    match s.firing[k]? with
    | some ⟨tick, false⟩ =>
      -- a tick whose workflow is there is skipped, and does not count as fired
      if tick ∈ s.enqueued then some { s with firing := s.firing.eraseIdx k }
      else some { s with firing := s.firing.set k ⟨tick, true⟩, enqueued := s.enqueued ++ [tick] }
    | _ => none
  | .record k now =>
    match s.firing[k]? with
    | some ⟨_, true⟩ => some { s with firing := s.firing.eraseIdx k, lastFiredAt := some now }
    | _ => none
  | .crash _ => some { s with mode := .down, firing := [], crashed := s.enqueued }
  | .backfill now =>
    match s.mode with
    | .down =>
      some { s with
        mode := .backfilled now
        enqueued := s.enqueued ++
          (maybeAutomaticBackfill c s.lastFiredAt now).filter fun tick => tick ∉ s.enqueued }
    | _ => none
  | .install now =>
    match s.mode with
    | .backfilled _ => some { s with mode := .running (c.next now) }
    | _ => none

def step (c : Cron) (s : State) (a : Action) : Option State :=
  if s.now ≤ a.time then (effect c s a).map fun t => { t with now := a.time } else none

def system (c : Cron) : System State Action where
  init s := s.mode = .down ∧ s.firing = [] ∧ s.enqueued = [] ∧ s.lastFiredAt = none ∧ s.crashed = []
  step := step c

section Invariant

variable {c : Cron} {s s' : State}

theorem mem_maybeAutomaticBackfill {lastFired now u : ℤ} :
    u ∈ maybeAutomaticBackfill c (some lastFired) now ↔ c.tick u ∧ lastFired + second < u ∧ u < now := by
  simp only [maybeAutomaticBackfill]
  split_ifs with h
  · exact c.mem_between
  · simp only [List.not_mem_nil, false_iff]
    omega

/-- While the executor is down nothing is enqueued; after the backfill, what it went over. No function
runs in either case. -/
def Inv (c : Cron) (s : State) : Prop :=
  match s.mode with
  | .down => s.firing = [] ∧ s.enqueued = s.crashed
  | .backfilled stop => s.firing = [] ∧
      ∀ u, u ∈ s.enqueued ↔ u ∈ s.crashed ∨ u ∈ maybeAutomaticBackfill c s.lastFiredAt stop
  | .running _ => True

theorem inv_effect {a : Action} (hI : Inv c s) (h : effect c s a = some s') : Inv c s' := by
  -- a function runs only while the schedule is installed
  have hrunning : ∀ {k : ℕ} {f : Firing}, s.firing[k]? = some f → ∃ first, s.mode = .running first := by
    intro k f hk
    unfold Inv at hI
    split at hI
    · simp [hI.1] at hk
    · simp [hI.1] at hk
    · rename_i first hmode
      exact ⟨first, hmode⟩
  cases a with
  | fire now =>
    simp only [effect] at h
    split at h
    · split_ifs at h
      cases h
      trivial
    · cases h
  | enqueue k now =>
    simp only [effect] at h
    split at h
    · rename_i hk
      obtain ⟨first, hmode⟩ := hrunning hk
      split_ifs at h
      · cases h
        simp [Inv, hmode]
      · cases h
        simp [Inv, hmode]
    · cases h
  | record k now =>
    simp only [effect] at h
    split at h
    · rename_i hk
      obtain ⟨first, hmode⟩ := hrunning hk
      cases h
      simp [Inv, hmode]
    · cases h
  | crash now =>
    cases h
    exact ⟨rfl, rfl⟩
  | backfill now =>
    simp only [effect] at h
    split at h
    · rename_i hmode
      rw [Inv, hmode] at hI
      cases h
      refine ⟨hI.1, fun u => ?_⟩
      rw [List.mem_append, List.mem_filter, hI.2]
      by_cases hu : u ∈ s.crashed
      · simp [hu]
      · simp [hu]
    · cases h
  | install now =>
    simp only [effect] at h
    split at h
    · cases h
      trivial
    · cases h

theorem inv_of_reaches {C : State → Action → Prop} (h : Reaches (system c) C s) : Inv c s := by
  refine h.invariant (I := Inv c) ?_ ?_
  · rintro s ⟨hmode, hfiring, henqueued, -, hcrashed⟩
    rw [Inv, hmode]
    exact ⟨hfiring, henqueued.trans hcrashed.symm⟩
  · intro s a s' hI _ hstep
    simp only [system, step] at hstep
    split_ifs at hstep
    obtain ⟨t, ht, rfl⟩ := Option.map_eq_some_iff.1 hstep
    have hinv : Inv c t := inv_effect hI ht
    exact hinv

end Invariant

/-- Every tick after the last one that was enqueued at the crash, and before the first one that the
installed entry fires, has been enqueued. -/
def NoHole (c : Cron) (s : State) : Prop :=
  ∀ first, s.mode = .running first →
    ∀ u, c.tick u → (∀ e ∈ s.crashed, e < u) → u < first → u ∈ s.enqueued

/-- **When the backfill leaves no hole.** -/
theorem backfill_complete_iff (c : Cron) {s s' : State} (h : Reaches (system c) (fun _ _ => True) s)
    {now stop lastFired : ℤ} (hstep : (system c).step s (.install now) = some s')
    (hmode : s.mode = .backfilled stop) (hlast : s.lastFiredAt = some lastFired) :
    NoHole c s' ↔ ∀ u, c.tick u → (∀ e ∈ s.crashed, e < u) → u ≤ now →
      lastFired + second < u ∧ u < stop := by
  have hI := inv_of_reaches h
  rw [Inv, hmode] at hI
  obtain ⟨-, hmem⟩ := hI
  rw [hlast] at hmem
  simp only [system, step] at hstep
  split_ifs at hstep
  simp only [effect, hmode, Option.map_some, Option.some.injEq] at hstep
  subst hstep
  have hnew : ∀ {u}, (∀ e ∈ s.crashed, e < u) → u ∉ s.crashed := by
    intro u hafter hu
    exact lt_irrefl u (hafter u hu)
  constructor
  · intro hno u hu hafter hle
    have henqueued := hno (c.next now) rfl u hu hafter ((c.lt_next_iff hu).2 hle)
    rcases (hmem u).1 henqueued with hold | hback
    · exact (hnew hafter hold).elim
    · exact (mem_maybeAutomaticBackfill.1 hback).2
  · intro hcovered first hfirst u hu hafter hlt
    obtain rfl := Mode.running.inj hfirst
    have hbounds := hcovered u hu hafter ((c.lt_next_iff hu).1 hlt)
    exact (hmem u).2 (.inr (mem_maybeAutomaticBackfill.2 ⟨hu, hbounds⟩))

/-! ### A hole, and none -/

def ms (n : ℤ) : ℤ := n * 1000000

/-- A schedule with a tick every second, and one with a tick every minute. -/
def everySecond : Cron := .every second (by decide)

def everyMinute : Cron := .every (60 * second) (by decide)

def fresh : State := ⟨0, .down, [], [], none, []⟩

/-- The schedule is installed at the epoch, its first tick is enqueued and recorded after the given
delays, and the executor crashes. -/
def untilCrash (tick enqueued recorded : ℤ) : List Action :=
  [.backfill 0, .install 0, .fire tick, .enqueue 0 enqueued, .record 0 recorded, .crash recorded]

/-- The tick of the first second is recorded after 100 ms, and the executor is back two seconds later:
the tick of the next second is before the start of the backfill, and that of the third one is its end. -/
theorem backfill_leaves_hole :
    ∃ s, Reaches (system everySecond) (fun _ _ => True) s ∧ s.mode = .running (ms 4000) ∧
      s.enqueued = [ms 1000] ∧ ¬ NoHole everySecond s := by
  obtain ⟨s, hs, hp⟩ := exists_reaches (S := system everySecond) (fun _ _ => True) (s := fresh)
    (List.flatten [untilCrash (ms 1000) (ms 1050) (ms 1100), [.backfill (ms 3000), .install (ms 3000)]])
    (fun s => s.mode = .running (ms 4000) && s.enqueued = [ms 1000] && s.crashed = [ms 1000])
    ⟨rfl, rfl, rfl, rfl, rfl⟩ (fun _ _ => trivial) (by decide +kernel)
  simp only [Bool.and_eq_true, decide_eq_true_eq] at hp
  obtain ⟨⟨hmode, henqueued⟩, hcrashed⟩ := hp
  refine ⟨s, hs, hmode, henqueued, fun hno => ?_⟩
  have htick : ms 2000 % second = 0 := by decide
  have hmissing := hno (ms 4000) hmode (ms 2000) htick (by rw [hcrashed]; decide) (by decide)
  rw [henqueued] at hmissing
  revert hmissing
  decide

/-- The tick of the first minute is recorded after a second, and the executor is back after two and a half
minutes: the tick of the second minute is the only one that was missed, and is backfilled. -/
theorem backfill_complete_everyMinute :
    ∃ s s', Reaches (system everyMinute) (fun _ _ => True) s ∧
      (system everyMinute).step s (.install (ms 151000)) = some s' ∧
      s'.enqueued = [ms 60000, ms 120000] ∧ NoHole everyMinute s' := by
  obtain ⟨s, hs, hp⟩ := exists_reaches (S := system everyMinute) (fun _ _ => True) (s := fresh)
    (List.flatten [untilCrash (ms 60000) (ms 60500) (ms 61000), [.backfill (ms 150000)]])
    (fun s => s.mode = .backfilled (ms 150000) && s.lastFiredAt = some (ms 61000) &&
      s.crashed = [ms 60000] && s.enqueued = [ms 60000, ms 120000] && s.now = ms 150000)
    ⟨rfl, rfl, rfl, rfl, rfl⟩ (fun _ _ => trivial) (by decide +kernel)
  simp only [Bool.and_eq_true, decide_eq_true_eq] at hp
  obtain ⟨⟨⟨⟨hmode, hlast⟩, hcrashed⟩, henqueued⟩, hnow⟩ := hp
  have hstep : (system everyMinute).step s (.install (ms 151000)) =
      some { s with mode := .running (everyMinute.next (ms 151000)), now := ms 151000 } := by
    have hle : s.now ≤ ms 151000 := by
      rw [hnow]
      decide
    simp [system, step, Action.time, hle, effect, hmode]
  refine ⟨s, _, hs, hstep, henqueued, (backfill_complete_iff everyMinute hs hstep hmode hlast).2 ?_⟩
  intro u hu hafter hle
  have hgt : ms 60000 < u := hafter _ (by simp [hcrashed])
  have htick : u % (60 * second) = 0 := hu
  simp only [ms, second] at hgt htick hle ⊢
  omega

end AutomaticBackfill

end Dbos
