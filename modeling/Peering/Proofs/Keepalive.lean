import Peering.Maintenance
import Peering.Proofs.Delivery.Steps
import Peering.Proofs.Registry.Hearing

/-!
# When silent peers are pinged

The keepalive task runs at every full period after its start. Frames come at any time
between two of its runs, so the first run that finds a peer silent for a period comes at
some moment of the period after; every later one finds it silent too, as long as no
frame of it comes.

`Vigil` is an endpoint with its keepalive task: time passes, events of the registry come
at the present clock, all else about the endpoint changes at will, and the task runs
when it is due. The main statement is about every vigil.
-/

namespace Peering

/-! ## Pings -/

namespace Endpoint

variable {endpoint : Endpoint} {peer : IdHash}

def outbox (endpoint : Endpoint) : Outbox :=
  endpoint.transport.outbox

def isPingTo (peer : IdHash) (message : Message) : Bool :=
  message.dest == .active peer && message.frame == Frame.net NetAction.ping []

/-- How many pings to a peer wait to be given to a lane. -/
def pingsTo (endpoint : Endpoint) (peer : IdHash) : Nat :=
  endpoint.outbox.queue.countP (isPingTo peer)

def ping (endpoint : Endpoint) (peer : IdHash) : Endpoint :=
  (endpoint.sendTo (.active peer) (Frame.net NetAction.ping [])).1

/-- Pings go into the outbox and change nothing else. -/
theorem pingAll_eq (endpoint : Endpoint) (peers : List IdHash) :
    ∃ outbox, (endpoint.pingAll peers).1 =
      { endpoint with transport := { endpoint.transport with outbox := outbox } } := by
  induction peers generalizing endpoint with
  | nil => exact ⟨endpoint.outbox, rfl⟩
  | cons peer rest ih => exact ih (endpoint.ping peer)

/-- A ping is queued for its peer, unless the outbox is shut and stays so. -/
theorem ping_cases (endpoint : Endpoint) (peer other : IdHash) :
    (endpoint.outbox.IsShut ∧ (endpoint.ping peer).outbox.IsShut ∧
      (endpoint.ping peer).pingsTo other = endpoint.pingsTo other) ∨
    (¬endpoint.outbox.IsShut ∧
      (endpoint.ping peer).pingsTo other = endpoint.pingsTo other + [peer].count other) := by
  let message : Message := ⟨.active peer, Frame.net NetAction.ping [], Int.ofNat endpoint.clock⟩
  have hfits : message.frame.payload.length ≤ endpoint.outbox.limits.maxBody := Nat.zero_le _
  rcases endpoint.outbox.send_fitting hfits with ⟨hshut, _, hstill, hqueue, _⟩ | ⟨hopen, hsend⟩
  · exact Or.inl ⟨hshut, hstill, congrArg (List.countP (isPingTo other)) hqueue⟩
  · have hqueue : (endpoint.ping peer).outbox.queue = endpoint.outbox.queue ++ [message] :=
      congrArg (fun sent => sent.1.queue) hsend
    refine Or.inr ⟨hopen, (congrArg (List.countP (isPingTo other)) hqueue).trans ?_⟩
    rw [List.countP_append, List.countP_singleton, List.count_singleton]
    simp [message, pingsTo, isPingTo]

theorem pingAll_shut (hshut : endpoint.outbox.IsShut) (peers : List IdHash) :
    (endpoint.pingAll peers).1.outbox.IsShut := by
  induction peers generalizing endpoint with
  | nil => exact hshut
  | cons peer rest ih =>
      rcases ping_cases endpoint peer peer with ⟨_, hstill, _⟩ | ⟨hopen, _⟩
      · exact ih hstill
      · exact absurd hshut hopen

/-- Every peer gets the pings it is listed for, or some of them before the outbox was shut. -/
theorem pingsTo_pingAll (endpoint : Endpoint) (peers : List IdHash) (peer : IdHash) :
    let after := (endpoint.pingAll peers).1
    after.pingsTo peer = endpoint.pingsTo peer + peers.count peer ∨
      (after.outbox.IsShut ∧ endpoint.pingsTo peer ≤ after.pingsTo peer ∧
        after.pingsTo peer < endpoint.pingsTo peer + peers.count peer) := by
  induction peers generalizing endpoint with
  | nil => exact Or.inl rfl
  | cons first rest ih =>
      intro after
      have hrest : after.pingsTo peer = (endpoint.ping first).pingsTo peer + rest.count peer ∨
          (after.outbox.IsShut ∧ (endpoint.ping first).pingsTo peer ≤ after.pingsTo peer ∧
            after.pingsTo peer < (endpoint.ping first).pingsTo peer + rest.count peer) := ih _
      have hcount : ([first] ++ rest).count peer = [first].count peer + rest.count peer :=
        List.count_append
      rw [List.singleton_append] at hcount
      rcases ping_cases endpoint first peer with ⟨_, hstill, hsame⟩ | ⟨_, hone⟩
      · have hshut : after.outbox.IsShut := pingAll_shut hstill rest
        rcases hrest with hall | ⟨_, hsome, hless⟩ <;>
        · simp only [hshut, true_and]
          omega
      · rcases hrest with hall | ⟨hshut, hsome, hless⟩
        · exact Or.inl (by omega)
        · exact Or.inr ⟨hshut, by omega, by omega⟩

end Endpoint

/-! ## The task -/

namespace Periodic

variable (task : Periodic)

/-- A task that is looked at in time runs once. -/
theorem runs_next : task.runs task.next = 1 := by
  rw [runs, if_neg (Nat.lt_irrefl _), if_neg (Nat.not_lt.mpr (Nat.le_add_right _ _)), Nat.sub_self,
    Nat.zero_div]

theorem reschedule_next : task.reschedule task.next = { task with next := task.next + task.period } := by
  rw [reschedule, if_neg (Nat.lt_irrefl _), if_neg (Nat.not_lt.mpr (Nat.le_add_right _ _)),
    runs_next, Nat.one_mul]

end Periodic

/-- The endpoint before and after a run of the keepalive task. -/
structure Vigil.Round where
  before : Endpoint
  after : Endpoint

namespace Vigil.Round

/-- The run that pings whoever is silent at the present clock. -/
def on (period : Nat) (endpoint : Endpoint) : Round :=
  ⟨endpoint, (endpoint.pingSilent endpoint.clock period).1⟩

variable (period : Nat) (endpoint : Endpoint)

@[simp] theorem on_before : (on period endpoint).before = endpoint :=
  rfl

theorem on_after : ∃ outbox, (on period endpoint).after =
    { endpoint with transport := { endpoint.transport with outbox := outbox } } :=
  endpoint.pingAll_eq _

@[simp] theorem on_settings : (on period endpoint).after.settings = endpoint.settings := by
  obtain ⟨outbox, hafter⟩ := on_after period endpoint
  rw [hafter]

@[simp] theorem on_clock : (on period endpoint).after.clock = endpoint.clock := by
  obtain ⟨outbox, hafter⟩ := on_after period endpoint
  rw [hafter]

@[simp] theorem on_timer : (on period endpoint).after.timer = endpoint.timer := by
  obtain ⟨outbox, hafter⟩ := on_after period endpoint
  rw [hafter]
  rfl

@[simp] theorem on_registry : (on period endpoint).after.registry = endpoint.registry := by
  obtain ⟨outbox, hafter⟩ := on_after period endpoint
  rw [hafter]
  rfl

end Vigil.Round

/-- An endpoint, its keepalive task, and every run of the task so far. -/
structure Vigil where
  endpoint : Endpoint
  task : Periodic
  rounds : List Vigil.Round

namespace Vigil

inductive Event where
  /-- Time passes, until the task is due at the most. -/
  | pass (duration : Nat)
  /-- The registry is used, at the present clock. -/
  | call (event : Registry.Event)
  /-- All else that is kept beside the registry, the clocks and the settings becomes this. -/
  | elsewhere (other : Endpoint)
  /-- The task runs, if it is due. -/
  | round

/-- The endpoint at a later time. -/
def later (endpoint : Endpoint) (duration : Nat) : Endpoint :=
  { endpoint with
    clock := endpoint.clock + duration
    transport := { endpoint.transport with timer := endpoint.transport.timer + duration } }

/-- Another endpoint with the registry, the clocks and the settings of this one. -/
def replaced (endpoint other : Endpoint) : Endpoint :=
  { other with
    settings := endpoint.settings
    clock := endpoint.clock
    transport := { other.transport with
      registry := endpoint.transport.registry
      timer := endpoint.transport.timer } }

/-- One look at the task, as it is taken whenever time has passed. -/
def round (vigil : Vigil) : Vigil :=
  let now := vigil.endpoint.timer
  if now < vigil.task.next then vigil
  else
    let after := Endpoint.runChoreMany vigil.task.chore (vigil.task.runs now) vigil.endpoint
    { endpoint := after
      task := vigil.task.reschedule now
      rounds := vigil.rounds ++ [⟨vigil.endpoint, after⟩] }

def occur (vigil : Vigil) : Event → Vigil
  | .pass duration => { vigil with
      endpoint := later vigil.endpoint (min duration (vigil.task.next - vigil.endpoint.timer)) }
  | .call event => { vigil with
      endpoint := vigil.endpoint.setRegistry
        (vigil.endpoint.registry.occur (event.timed vigil.endpoint.clock)) }
  | .elsewhere other => { vigil with endpoint := replaced vigil.endpoint other }
  | .round => vigil.round

def watch (vigil : Vigil) (events : List Event) : Vigil :=
  events.foldl occur vigil

/-- The keepalive task as it is started: due for the first time after one period. -/
def opening (endpoint : Endpoint) : Vigil where
  endpoint := endpoint
  task := ⟨.keepalive, endpoint.keepalive, endpoint.timer + endpoint.keepalive⟩
  rounds := []

/-- It is one of the tasks that a node starts. -/
theorem opening_task_mem {endpoint : Endpoint} (hgoing : endpoint.stopping = false) :
    (opening endpoint).task ∈ endpoint.startTasks.1.tasks := by
  simp [Endpoint.startTasks, hgoing, Endpoint.chores, opening]

theorem due_of_lone {endpoint : Endpoint} {task : Periodic} (htasks : endpoint.tasks = [task])
    (hsessions : endpoint.sessions = []) :
    endpoint.due = if task.next ≤ endpoint.timer then
      [(task.next, .chore task.chore (task.runs endpoint.timer))] else [] := by
  simp only [Endpoint.due, htasks, hsessions, Table.values, List.map_nil, List.filter_nil,
    List.nil_append]
  split
  · rename_i hdue
    simp [hdue]
  · rename_i hearly
    simp [hearly]

/-- With no other task and no session, a look at the task is all that comes with time. -/
theorem advance_of_lone {endpoint : Endpoint} {task : Periodic} (htasks : endpoint.tasks = [task])
    (hsessions : endpoint.sessions = []) (duration : Nat) :
    let now := endpoint.timer + duration
    endpoint.advance duration = Endpoint.runChoreMany task.chore (task.runs now)
      { endpoint with
        transport := { endpoint.transport with timer := now }
        tasks := [task.reschedule now] } := by
  intro now
  let later : Endpoint :=
    { endpoint with transport := { endpoint.transport with timer := now } }
  have hlater : later.due = if task.next ≤ now then
      [(task.next, .chore task.chore (task.runs now))] else [] := due_of_lone htasks hsessions
  show later.due.foldl (fun (endpoint : Endpoint) event => endpoint.happen event.2)
    { later with tasks := endpoint.tasks.map fun task => task.reschedule now } = _
  rw [hlater, htasks]
  by_cases hdue : task.next ≤ now
  · rw [if_pos hdue]
    rfl
  · have hruns : task.runs now = 0 := if_pos (Nat.not_le.mp hdue)
    rw [if_neg hdue, hruns]
    rfl

variable {start : Endpoint} {vigil : Vigil} {peer : IdHash} {time : Nat}

/-! ## What stands at any time -/

/-- How a vigil stands, given the endpoint that it was opened on. -/
structure Kept (start : Endpoint) (vigil : Vigil) : Prop where
  settings : vigil.endpoint.settings = start.settings
  clocks : vigil.endpoint.clock + start.timer = start.clock + vigil.endpoint.timer
  task : vigil.task = ⟨.keepalive, start.keepalive,
    start.timer + (vigil.rounds.length + 1) * start.keepalive⟩
  ran : start.timer + vigil.rounds.length * start.keepalive ≤ vigil.endpoint.timer
  due : vigil.endpoint.timer ≤ vigil.task.next
  filed : vigil.endpoint.registry.Filed
  grid : ∀ k (hk : k < vigil.rounds.length),
    vigil.rounds[k].before.clock = start.clock + (k + 1) * start.keepalive
  rounds : ∀ round ∈ vigil.rounds, round.before.registry.Filed ∧
    round = .on start.keepalive round.before

theorem kept_opening (hfiled : start.registry.Filed) : Kept start (opening start) where
  settings := rfl
  clocks := rfl
  task := by simp [opening]
  ran := by simp [opening]
  due := Nat.le_add_right _ _
  filed := hfiled
  grid := fun k hk => absurd hk (Nat.not_lt_zero k)
  rounds := List.forall_mem_nil _

/-- A look at the task before it is due changes nothing; one in time runs it once. -/
theorem Kept.round_cases (hkept : Kept start vigil) :
    vigil.round = vigil ∨
    (vigil.endpoint.clock = start.clock + (vigil.rounds.length + 1) * start.keepalive ∧
      vigil.endpoint.timer = vigil.task.next ∧
      vigil.round = {
        endpoint := (Round.on start.keepalive vigil.endpoint).after
        task := ⟨.keepalive, start.keepalive, vigil.task.next + start.keepalive⟩
        rounds := vigil.rounds ++ [.on start.keepalive vigil.endpoint] }) := by
  by_cases hearly : vigil.endpoint.timer < vigil.task.next
  · exact Or.inl (if_pos hearly)
  · have hnow : vigil.endpoint.timer = vigil.task.next :=
      Nat.le_antisymm hkept.due (Nat.not_lt.mp hearly)
    have hchore : vigil.task.chore = .keepalive := by rw [hkept.task]
    have hperiod : vigil.task.period = start.keepalive := by rw [hkept.task]
    have hidle : vigil.endpoint.keepalive = start.keepalive := by
      rw [Endpoint.keepalive, hkept.settings, ← Endpoint.keepalive]
    refine Or.inr ⟨?_, hnow, ?_⟩
    · have hclocks := hkept.clocks
      rw [hnow, hkept.task] at hclocks
      dsimp only at hclocks
      omega
    · rw [round, if_neg hearly, hnow, Periodic.runs_next, Periodic.reschedule_next, hperiod, hchore,
        ← hidle]
      rfl

theorem Kept.round (hkept : Kept start vigil) : Kept start vigil.round := by
  rcases hkept.round_cases with hsame | ⟨hclock, htimer, hround⟩
  · rwa [hsame]
  have hnext : vigil.task.next = start.timer + (vigil.rounds.length + 1) * start.keepalive := by
    rw [hkept.task]
  rw [hround]
  constructor
  case settings => exact (Round.on_settings ..).trans hkept.settings
  case clocks => simpa using hkept.clocks
  case filed => simpa using hkept.filed
  case task => simp [hnext, Nat.succ_mul, Nat.add_assoc]
  case ran => simp [htimer, hnext]
  case due => simp [htimer]
  case grid =>
    intro k hk
    rw [List.getElem_append]
    split
    · rename_i hold
      exact hkept.grid k hold
    · rename_i hnew
      rw [List.length_append, List.length_singleton] at hk
      have hlast : k = vigil.rounds.length := by omega
      simpa [hlast] using hclock
  case rounds =>
    intro round hmem
    rcases List.mem_append.mp hmem with hold | hnew
    · exact hkept.rounds round hold
    · rw [List.mem_singleton.mp hnew]
      exact ⟨hkept.filed, rfl⟩

theorem Kept.occur (hkept : Kept start vigil) (event : Event) : Kept start (vigil.occur event) := by
  cases event with
  | pass duration =>
      have hdue := hkept.due
      have hran := hkept.ran
      have hclocks := hkept.clocks
      refine { hkept with clocks := ?_, ran := ?_, due := ?_ } <;>
      · simp only [Vigil.occur, later, Endpoint.timer] at hdue hran hclocks ⊢
        omega
  | call event =>
      refine { hkept with filed := ?_ }
      cases event with
      | call move => exact hkept.filed.perform _
      | cancel conn => exact hkept.filed.cancel conn
  | elsewhere other => exact { hkept with }
  | round => exact hkept.round

theorem Kept.watch (hkept : Kept start vigil) (events : List Event) :
    Kept start (vigil.watch events) := by
  induction events generalizing vigil with
  | nil => exact hkept
  | cons event rest ih => exact ih (hkept.occur event)

/-! ## Peers that stay silent -/

def hears (vigil : Vigil) (peer : IdHash) : Event → Bool
  | .call event => vigil.endpoint.registry.hears peer (event.timed vigil.endpoint.clock)
  | _ => false

/-- Whether nothing is heard from a peer. -/
def hearsNothing (peer : IdHash) : Vigil → List Event → Bool
  | _, [] => true
  | vigil, event :: rest => !vigil.hears peer event && hearsNothing peer (vigil.occur event) rest

/-- What is noted after an event that the peer has no part in was noted before, and at its round. -/
theorem Kept.heardAt_occur (hkept : Kept start vigil) {event : Event}
    (hsilent : vigil.hears peer event = false)
    (hheard : (vigil.occur event).endpoint.registry.HeardAt peer time) :
    vigil.endpoint.registry.HeardAt peer time ∧ ∃ since,
      (vigil.occur event).rounds = vigil.rounds ++ since ∧
        ∀ round ∈ since, round.before.registry.HeardAt peer time := by
  have hquiet : vigil.endpoint.registry.HeardAt peer time →
      (vigil.occur event).rounds = vigil.rounds →
      vigil.endpoint.registry.HeardAt peer time ∧ ∃ since,
        (vigil.occur event).rounds = vigil.rounds ++ since ∧
          ∀ round ∈ since, round.before.registry.HeardAt peer time :=
    fun hbefore hrounds => ⟨hbefore, [], by rw [hrounds, List.append_nil], List.forall_mem_nil _⟩
  cases event with
  | pass duration => exact hquiet hheard rfl
  | elsewhere other => exact hquiet hheard rfl
  | call event =>
      rcases Registry.heardAt_occur hheard with ⟨hhears, _⟩ | ⟨_, hbefore⟩
      · rw [hears, hhears] at hsilent
        cases hsilent
      · exact hquiet hbefore rfl
  | round =>
      simp only [Vigil.occur] at hheard hquiet ⊢
      rcases hkept.round_cases with hsame | ⟨_, _, hround⟩
      · rw [hsame] at hheard hquiet ⊢
        exact hquiet hheard rfl
      · rw [hround, Round.on_registry] at hheard
        rw [hround]
        exact ⟨hheard, _, rfl, List.forall_mem_singleton.mpr hheard⟩

/-- A peer that stays silent is the same peer at every round. -/
theorem Kept.heardAt_watch (hkept : Kept start vigil) {events : List Event}
    (hsilent : hearsNothing peer vigil events = true)
    (hheard : (vigil.watch events).endpoint.registry.HeardAt peer time) :
    vigil.endpoint.registry.HeardAt peer time ∧ ∃ since,
      (vigil.watch events).rounds = vigil.rounds ++ since ∧
        ∀ round ∈ since, round.before.registry.HeardAt peer time := by
  induction events generalizing vigil with
  | nil => exact ⟨hheard, [], (List.append_nil _).symm, List.forall_mem_nil _⟩
  | cons event rest ih =>
      simp only [hearsNothing, Bool.and_eq_true, Bool.not_eq_true'] at hsilent
      obtain ⟨hnext, later, hlater, hall⟩ := ih (hkept.occur event) hsilent.2 hheard
      obtain ⟨hbefore, first, hfirst, hone⟩ := hkept.heardAt_occur hsilent.1 hnext
      refine ⟨hbefore, first ++ later, ?_, ?_⟩
      · rw [Vigil.watch, List.foldl_cons, ← Vigil.watch, hlater, hfirst, List.append_assoc]
      · exact fun round hmem => (List.mem_append.mp hmem).elim (hone round) (hall round)

/-! ## Pings in time -/

/-- A ping to a peer was queued in a round, unless the send refused it. -/
def Round.Pings (round : Round) (peer : IdHash) : Prop :=
  round.after.pingsTo peer = round.before.pingsTo peer + 1 ∨
    (round.after.pingsTo peer = round.before.pingsTo peer ∧ round.after.outbox.IsShut)

/-- A round pings a peer that has been silent for the period, and not before. -/
theorem Round.pings_on {period : Nat} {endpoint : Endpoint} (hfiled : endpoint.registry.Filed)
    (hheard : endpoint.registry.HeardAt peer time) (hperiod : 0 < period) :
    if time + period ≤ endpoint.clock then (Round.on period endpoint).Pings peer
    else (Round.on period endpoint).after.pingsTo peer = endpoint.pingsTo peer := by
  have hsilent : peer ∈ endpoint.registry.silent endpoint.clock period ↔
      time + period ≤ endpoint.clock :=
    (hfiled.mem_silent_iff hheard).trans (by omega)
  have hcount := (hfiled.nodup_silent endpoint.clock period).count (a := peer)
  simp only [hsilent] at hcount
  have hpings := endpoint.pingsTo_pingAll (endpoint.registry.silent endpoint.clock period) peer
  rw [hcount] at hpings
  split at hpings
  · rename_i hlong
    rw [if_pos hlong]
    rcases hpings with hone | ⟨hshut, hsome, hless⟩
    · exact Or.inl hone
    · exact Or.inr ⟨Nat.le_antisymm (Nat.le_of_lt_succ hless) hsome, hshut⟩
  · rename_i hshort
    rw [if_neg hshort]
    rcases hpings with hnone | ⟨_, hsome, hless⟩
    · exact hnone
    · exact absurd hless (Nat.not_lt.mpr hsome)

/-- The first run that comes a full period after a time comes less than two periods after it. -/
theorem Kept.round_between {before : Vigil} {since : List Round} (hbefore : Kept start before)
    (hkept : Kept start vigil) (hrounds : vigil.rounds = before.rounds ++ since)
    (hperiod : 0 < start.keepalive)
    (hlater : before.endpoint.clock + 2 * start.keepalive ≤ vigil.endpoint.clock) :
    ∃ round ∈ since, before.endpoint.clock + start.keepalive ≤ round.before.clock ∧
      round.before.clock < before.endpoint.clock + 2 * start.keepalive := by
  let elapsed := before.endpoint.clock - start.clock
  let k := (elapsed + start.keepalive - 1) / start.keepalive
  have hbegun : start.clock + before.rounds.length * start.keepalive ≤ before.endpoint.clock := by
    have hclocks := hbefore.clocks
    have hran := hbefore.ran
    omega
  have hend : vigil.endpoint.clock ≤ start.clock + (vigil.rounds.length + 1) * start.keepalive := by
    have hclocks := hkept.clocks
    have hdue := hkept.due
    rw [hkept.task] at hdue
    dsimp only at hdue
    omega
  have hfirst : elapsed + start.keepalive ≤ (k + 1) * start.keepalive := by
    have hless : elapsed + start.keepalive - 1 < start.keepalive * (k + 1) :=
      Nat.lt_mul_div_succ _ hperiod
    rw [Nat.mul_comm] at hless
    omega
  have hlast : (k + 1) * start.keepalive < elapsed + 2 * start.keepalive := by
    have hle : k * start.keepalive ≤ elapsed + start.keepalive - 1 := Nat.div_mul_le_self _ _
    rw [Nat.succ_mul]
    omega
  have hnew : before.rounds.length * start.keepalive < (k + 1) * start.keepalive := by omega
  have hran : (k + 1) * start.keepalive < (vigil.rounds.length + 1) * start.keepalive := by omega
  have hold : before.rounds.length ≤ k := Nat.le_of_lt_succ (Nat.lt_of_mul_lt_mul_right hnew)
  have hk : k < vigil.rounds.length := Nat.lt_of_succ_lt_succ (Nat.lt_of_mul_lt_mul_right hran)
  have hmem : vigil.rounds[k] ∈ since := by
    simp only [hrounds, List.getElem_append_right hold]
    exact List.getElem_mem _
  refine ⟨vigil.rounds[k], hmem, ?_⟩
  rw [hkept.grid k hk]
  omega

/-! ## Read timeouts -/

theorem keepalive_pos (endpoint : Endpoint) : 0 < endpoint.keepalive :=
  Nat.lt_of_lt_of_le (by decide) (Nat.le_max_right _ millisecond)

theorem two_keepalives_le {readTimeout : Nat} (hlong : 4 * millisecond ≤ readTimeout) :
    2 * Maintenance.keepalivePeriod readTimeout ≤ readTimeout / 2 := by
  rw [Maintenance.keepalivePeriod]
  omega

/--
A peer is heard from while the keepalive task goes on, and not again: then every later
run pings it that comes a full period after, unless the send is refused, and none before
does. The task runs at every full period after its start, so the first such run is less
than two periods after the peer was heard from. Two periods are no more than half of a
read timeout of at least four milliseconds.
-/
theorem silent_is_pinged (self : Identity) (limits : Limits) (history : List Registry.Event)
    (bare : Endpoint) (early late : List Event) (meeting : Registry.Event) (peer : IdHash) :
    let start := bare.setRegistry ((Registry.create self limits).live history)
    let before := (opening start).watch early
    let met := before.occur (.call meeting)
    let now := met.watch late
    let heard := before.endpoint.clock
    let period := Maintenance.keepalivePeriod start.settings.readTimeout
    before.hears peer (.call meeting) = true → hearsNothing peer met late = true →
    now.endpoint.registry.isActive peer = true →
    (start.stopping = false → (opening start).task ∈ start.startTasks.1.tasks) ∧
    (∀ k (hk : k < now.rounds.length),
      now.rounds[k].before.clock = start.clock + (k + 1) * period) ∧
    (∃ since, now.rounds = before.rounds ++ since ∧
      (∀ round ∈ since, round = .on period round.before ∧
        if heard + period ≤ round.before.clock then round.Pings peer
        else round.after.pingsTo peer = round.before.pingsTo peer) ∧
      (heard + 2 * period ≤ now.endpoint.clock → ∃ round ∈ since,
        heard + period ≤ round.before.clock ∧ round.before.clock < heard + 2 * period)) ∧
    (4 * millisecond ≤ start.settings.readTimeout →
      heard + 2 * period ≤ heard + start.settings.readTimeout / 2) := by
  intro start before met now heard period hmeets hsilent hactive
  have hpos : 0 < period := keepalive_pos start
  have hfiled : start.registry.Filed := Registry.filed_live self limits history
  have hbefore : Kept start before := (kept_opening hfiled).watch early
  have hmet : Kept start met := hbefore.occur _
  have hnow : Kept start now := hmet.watch late
  obtain ⟨time, hend⟩ := Registry.isActive_iff_heardAt.mp hactive
  obtain ⟨hmeeting, since, hrounds, hall⟩ := hmet.heardAt_watch hsilent hend
  have htime : time = heard := by
    rcases Registry.heardAt_occur hmeeting with ⟨_, htime⟩ | ⟨hnot, _⟩
    · exact htime
    · exact absurd (hmeets.symm.trans hnot) (by decide)
  refine ⟨opening_task_mem, hnow.grid, ⟨since, hrounds, ?_, ?_⟩, ?_⟩
  · intro round hmem
    have hround : round ∈ now.rounds := by rw [hrounds]; exact List.mem_append_right _ hmem
    obtain ⟨hfiled, hrun⟩ := hnow.rounds round hround
    have hrun : round = .on period round.before := hrun
    have hpings := Round.pings_on hfiled (hall round hmem) hpos
    rw [htime, ← hrun] at hpings
    exact ⟨hrun, hpings⟩
  · exact hbefore.round_between hnow hrounds hpos
  · exact fun hlong => Nat.add_le_add_left (two_keepalives_le hlong) heard

/-- A node whose read timeout is eight milliseconds: its keepalive task runs every other one. -/
def impatient : Endpoint :=
  Endpoint.create { Settings.default with readTimeoutMs := 8 } Registry.crossingStart.self.id
    HandlerTable.empty

/-- The task has run once, and a connection waits that was accepted since. -/
def untilAccepted : List Event :=
  [.pass (2 * millisecond), .round, .pass millisecond, .call (.call (.promoteToInbound 0 1))]

def untilPinged : List Event :=
  [.pass millisecond, .round, .pass (2 * millisecond), .round, .pass (2 * millisecond)]

/-- A peer becomes active three milliseconds after the start; the third run pings it. -/
theorem silent_is_pinged_at_six :
    let start := impatient.setRegistry ((Registry.create Registry.crossingStart.self
      Registry.crossingStart.limits).live [])
    let before := (opening start).watch untilAccepted
    let meeting := Registry.Event.call (.promoteToActive 0 1 .inbound (Registry.repeatedNode 0x61))
    let met := before.occur (.call meeting)
    let now := met.watch untilPinged
    let peer := (Registry.repeatedNode 0x61).idHash
    let period := Maintenance.keepalivePeriod start.settings.readTimeout
    (before.hears peer (.call meeting) = true ∧ hearsNothing peer met untilPinged = true ∧
      now.endpoint.registry.isActive peer = true) ∧
    before.endpoint.clock = 3 * millisecond ∧ period = 2 * millisecond ∧
    now.rounds.map (fun round => (round.before.clock, round.after.pingsTo peer)) =
      [(2 * millisecond, 0), (4 * millisecond, 0), (6 * millisecond, 1)] ∧
    ∃ since, now.rounds = before.rounds ++ since ∧ ∃ round ∈ since, round.Pings peer := by
  intro start before meeting met now peer period
  have hmeets : before.hears peer (.call meeting) = true := by decide +kernel
  have hsilent : hearsNothing peer met untilPinged = true := by decide +kernel
  have hactive : now.endpoint.registry.isActive peer = true := by decide +kernel
  refine ⟨⟨hmeets, hsilent, hactive⟩, by decide +kernel, by decide +kernel, by decide +kernel, ?_⟩
  obtain ⟨_, _, ⟨since, hrounds, hall, hsome⟩, _⟩ := silent_is_pinged Registry.crossingStart.self
    Registry.crossingStart.limits [] impatient untilAccepted untilPinged meeting peer
    hmeets hsilent hactive
  obtain ⟨round, hmem, hfirst, _⟩ := hsome (by decide +kernel)
  have hpings := (hall round hmem).2
  rw [if_pos hfirst] at hpings
  exact ⟨since, hrounds, round, hmem, hpings⟩

end Vigil

end Peering
