import Caal.Client.Exchange
import Caal.Container.OverlayOptions
import Caal.Lib.Overlay
import Caal.Session.Teardown

/-!
# Login shells on one host

Any number of sessions together with the daemon, the tool that sends it requests, the
mounts and the container writes. A session is the program of `Caal.Session.Program`;
the host decides the outcomes that depend on the daemon's table or on the mounts.

A request is served in the step in which the call that sent it returns. The kernel
and crun are assumed to do what the overlay library says: a mount is pushed on its
directory, a path resolves to the topmost mount, and crun uses what the rootfs of its
bundle resolves to when it starts. `beneath` says which directories lie in one another;
`Host.system` leaves that away, so that the mounts on each directory form a stack of their
own.
-/

namespace Caal

open CMemory LTS Overlay

/-- What a host is set up with: the account behind each session, the configuration the
daemon starts with, which directory a path names, which files lie in it, the files as they
were installed, and what other lower directories show that the overlay of a session is asked
for with. -/
structure Host (Place Name Content : Type) where
  config : SessionKey → Config
  file : ConfigFile
  resolve : Bytes → Place
  inside : Place → Name → Bool
  pristine : Tree Name Content
  elsewhere : SessionKey → Tree Name Content

/-- What the sessions share. Behind the daemon's table and clock and the mounts, it
records what each container saw when crun started it. -/
structure Shared (Place Name Content : Type) where
  table : Table
  clock : Int64
  disk : Disk Place SessionKey Name Content
  seen : SessionKey → Option (Tree Name Content)

/-- The requests of `caalctl`. -/
inductive Ctl where
  | list
  | count
  | kill (containerId : Bytes)
  | killUser (username : Bytes)

def Ctl.request : Ctl → Request
  | .list => .list
  | .count => .count
  | .kill containerId => .kill containerId
  | .killUser username => .killUser username

/-- A step of the host that is none of a session. -/
inductive HostEvent (Name Content : Type) where
  | tick (now : Int64)
  | requested (ctl : Ctl)
  | reloaded (file : ConfigFile) (allocated : Bool)
  /-- The container of a session changes or removes a file of its root filesystem. -/
  | written (key : SessionKey) (name : Name) (content : Option Content)

/-- All sessions and what they share. -/
abbrev Global (Place Name Content : Type) : Type :=
  Processes.State SessionKey Proc (Shared Place Name Content)

/-- A step of the whole host. -/
abbrev HostLabel (Name Content : Type) : Type :=
  Processes.Label SessionKey Act (HostEvent Name Content)

variable {Place Name Content : Type}

namespace Shared

/-- The daemon serves a request. -/
def serve (shared : Shared Place Name Content) (request : Request) : Shared Place Name Content :=
  { shared with table := (shared.table.handle request shared.clock).table }

/-- The daemon serves a request and answers whether it accepted it. -/
def exchange (shared : Shared Place Name Content) (request : Request) (ok : Bool) :
    Option (Shared Place Name Content) :=
  if ((shared.table.handle request shared.clock).response.ok != 0) = ok then
    some (shared.serve request)
  else none

theorem eq_serve_of_exchange {shared after : Shared Place Name Content} {request : Request}
    {ok : Bool} (exchanged : shared.exchange request ok = some after) :
    ((shared.table.handle request shared.clock).response.ok != 0) = ok ∧
      after = shared.serve request := by
  rw [exchange] at exchanged
  split at exchanged
  case isTrue served =>
    cases exchanged
    exact ⟨served, rfl⟩
  case isFalse => cases exchanged

end Shared

namespace Host

section Sessions

variable (host : Host Place Name Content)

/-- The directory crun starts the container of a session on. -/
def root (key : SessionKey) : Place :=
  host.resolve (host.config key).rootfs

/-- The directory `container_start` mounts the overlay of a session on. -/
def target (key : SessionKey) : Place :=
  host.resolve (host.config key).mountPoint

/-- The kernel reads the options of a session's overlay as the directory it is mounted on and
the two directories of the session. -/
def ReadAsMeant (key : SessionKey) : Prop :=
  layersOf (overlayOptions (host.config key).mountPoint (key.name .upper) (key.name .work)) =
    ⟨[(host.config key).mountPoint], some (key.name .upper), some (key.name .work)⟩

instance (key : SessionKey) : Decidable (host.ReadAsMeant key) :=
  inferInstanceAs (Decidable (_ = _))

/-- What the overlay of a session is mounted over if not over its own directory. -/
def astray (key : SessionKey) : Option (Tree Name Content) :=
  if host.ReadAsMeant key then none else some (host.elsewhere key)

/-- The overlay of a session is the one that is meant just if its path means nothing in an
option string. -/
theorem astray_eq_none_iff (key : SessionKey) :
    host.astray key = none ↔ Plain (host.config key).mountPoint := by
  have upper : Plain (key.name .upper) := key.plain_name (by decide)
  have work : Plain (key.name .work) := key.plain_name (by decide)
  have meant : host.ReadAsMeant key ↔ Plain (host.config key).mountPoint :=
    ⟨plain_of_layersOf, fun plain => layersOf_plain plain upper work⟩
  rw [astray, ← meant]
  split <;> simp_all

/-- What a container sees in its root filesystem. -/
def shown (key : SessionKey) (disk : Disk Place SessionKey Name Content) (root : List SessionKey) :
    Tree Name Content :=
  (disk.view root).restrict (host.inside (host.root key))

/-- The request by which a session registers. -/
def registration (key : SessionKey) : Request :=
  .register (host.config key).username key.id key.pid

variable [DecidableEq Place] (beneath : Place → Place → Bool)

/-- What the calls of a session that concern the daemon or the overlay do. -/
def answer (key : SessionKey) (shared : Shared Place Name Content) :
    Point → Outcome → Option (Shared Place Name Content)
  | .count, .counted sessions =>
      if sessions = (shared.table.handle .count shared.clock).response.count.toInt then
        some shared
      else none
  | .register, .answered ok => shared.exchange (host.registration key) ok
  | .register, .lost ok => shared.exchange (host.registration key) ok
  | .unregister, .answered ok => shared.exchange (.unregister key.id) ok
  | .unregister, .lost ok => shared.exchange (.unregister key.id) ok
  | .mountOverlay, .ok =>
      some { shared with disk := shared.disk.mount beneath (host.target key) key }
  | .umountOverlay _, .ok =>
      if shared.disk.covers beneath (host.target key) then
        some { shared with disk := shared.disk.umount beneath (host.target key) }
      else none
  | _, _ => some shared

/-- What a step of a session does to the rest of the host. -/
def perform (key : SessionKey) (proc : Proc) (shared : Shared Place Name Content) :
    Act → Option (Shared Place Name Content)
  | .call outcome => host.answer beneath key shared proc.point outcome
  | .child (.crunStarted root) =>
      if root = shared.disk.top beneath (host.root key) then
        some { shared with
          seen := Function.update shared.seen key (some (host.shown key shared.disk root)) }
      else none
  | .child _ => some shared
  | .signal _ => some shared

variable {host} {beneath}

/-- The steps of a session that the rest of the host takes part in. -/
def concerns : Point → Act → Bool
  | .count, .call (.counted _) => true
  | .register, .call (.answered _) => true
  | .register, .call (.lost _) => true
  | .unregister, .call (.answered _) => true
  | .unregister, .call (.lost _) => true
  | .mountOverlay, .call .ok => true
  | .umountOverlay _, .call .ok => true
  | _, .child (.crunStarted _) => true
  | _, _ => false

/-- What a step of a session does to the rest of the host, in cases. -/
inductive Performed (host : Host Place Name Content) (beneath : Place → Place → Bool)
    (key : SessionKey) (shared : Shared Place Name Content) :
    Point → Act → Shared Place Name Content → Prop where
  | silent {point : Point} {action : Act} (quiet : concerns point action = false) :
      Performed host beneath key shared point action shared
  | counted {sessions : Int}
      (told : sessions =
        (shared.table.handle .count shared.clock).response.count.toInt) :
      Performed host beneath key shared .count (.call (.counted sessions)) shared
  | registered {outcome : Outcome} {ok : Bool} (told : outcome = .answered ok ∨ outcome = .lost ok)
      (served : ((shared.table.handle (host.registration key) shared.clock).response.ok != 0) =
        ok) :
      Performed host beneath key shared .register (.call outcome)
        (shared.serve (host.registration key))
  | unregistered {outcome : Outcome} {ok : Bool}
      (told : outcome = .answered ok ∨ outcome = .lost ok)
      (served : ((shared.table.handle (.unregister key.id) shared.clock).response.ok != 0) = ok) :
      Performed host beneath key shared .unregister (.call outcome)
        (shared.serve (.unregister key.id))
  | mounted :
      Performed host beneath key shared .mountOverlay (.call .ok)
        { shared with disk := shared.disk.mount beneath (host.target key) key }
  | unmounted (site : Site) (covered : shared.disk.covers beneath (host.target key) = true) :
      Performed host beneath key shared (.umountOverlay site) (.call .ok)
        { shared with disk := shared.disk.umount beneath (host.target key) }
  | started {point : Point} {root : List SessionKey}
      (resolved : root = shared.disk.top beneath (host.root key)) :
      Performed host beneath key shared point (.child (.crunStarted root))
        { shared with
          seen := Function.update shared.seen key (some (host.shown key shared.disk root)) }

/-- The calls that concern the daemon or the overlay. -/
theorem answer_performed {key : SessionKey} {shared after : Shared Place Name Content}
    {point : Point} {outcome : Outcome}
    (answered : host.answer beneath key shared point outcome = some after) :
    host.Performed beneath key shared point (.call outcome) after := by
  rw [answer.eq_def] at answered
  split at answered
  case h_1 sessions =>
    split at answered
    case isTrue told =>
      cases answered
      exact .counted told
    case isFalse => cases answered
  case h_2 ok =>
    rcases Shared.eq_serve_of_exchange answered with ⟨served, rfl⟩
    exact .registered (.inl rfl) served
  case h_3 ok =>
    rcases Shared.eq_serve_of_exchange answered with ⟨served, rfl⟩
    exact .registered (.inr rfl) served
  case h_4 ok =>
    rcases Shared.eq_serve_of_exchange answered with ⟨served, rfl⟩
    exact .unregistered (.inl rfl) served
  case h_5 ok =>
    rcases Shared.eq_serve_of_exchange answered with ⟨served, rfl⟩
    exact .unregistered (.inr rfl) served
  case h_6 =>
    cases answered
    exact .mounted
  case h_7 site =>
    split at answered
    case isTrue covered =>
      cases answered
      exact .unmounted site covered
    case isFalse => cases answered
  case h_8 =>
    cases answered
    apply Performed.silent
    rw [concerns.eq_def]
    split <;> simp_all

/-- A step of a session does nothing else. -/
theorem performed_of_perform {key : SessionKey} {proc : Proc}
    {shared after : Shared Place Name Content} {action : Act}
    (performed : host.perform beneath key proc shared action = some after) :
    host.Performed beneath key shared proc.point action after := by
  cases action with
  | call outcome => exact answer_performed performed
  | signal signal =>
      cases performed
      exact .silent (by cases proc.point <;> rfl)
  | child event =>
      cases event with
      | crunStarted root =>
          rw [perform] at performed
          split at performed
          case isTrue resolved =>
            cases performed
            exact .started resolved
          case isFalse => cases performed
      | _ =>
          cases performed
          exact .silent (by cases proc.point <;> rfl)

/-- No step of a session writes to a bundle or to an upper directory. -/
theorem Performed.disk_eq {key : SessionKey} {point : Point} {action : Act}
    {shared after : Shared Place Name Content}
    (performed : host.Performed beneath key shared point action after) :
    after.disk.base = shared.disk.base ∧ after.disk.upper = shared.disk.upper ∧
      after.disk.astray = shared.disk.astray := by
  cases performed <;> exact ⟨rfl, rfl, rfl⟩

end Sessions

variable [DecidableEq Place] [DecidableEq Name] (host : Host Place Name Content)
  (beneath : Place → Place → Bool)

/-- What any other step does. A container that runs on its bundle without an overlay
writes to the bundle. -/
def environ (procs : SessionKey → Proc) (shared : Shared Place Name Content) :
    HostEvent Name Content → Option (Shared Place Name Content)
  | .tick now => some { shared with clock := now }
  | .requested ctl => some (shared.serve ctl.request)
  | .reloaded file allocated =>
      some { shared with table := shared.table.reloadConfig file allocated }
  | .written key name content =>
      match (procs key).holds.child with
      | .running root =>
          if host.inside (host.root key) name then
            some { shared with disk := shared.disk.write root name content }
          else none
      | _ => none

/-- The shared state when the daemon has started and nobody has logged in. -/
def initial : Shared Place Name Content where
  table := Table.initial.reloadConfig host.file true
  clock := 0
  disk := .fresh host.pristine host.astray
  seen _ := none

def processesIn : Processes SessionKey Proc (Shared Place Name Content) Act
    (HostEvent Name Content) where
  start key := Proc.start (host.config key)
  shared shared := shared = host.initial
  act key proc shared action :=
    (proc.step (host.config key) action).bind fun next =>
      (host.perform beneath key proc shared action).map fun after => (next, after)
  env := host.environ

/-- The host as a transition system. -/
def systemIn : LTS (Global Place Name Content) (HostLabel Name Content) :=
  (host.processesIn beneath).toLTS

/-- The host with a stack of mounts for each directory. -/
abbrev processes : Processes SessionKey Proc (Shared Place Name Content) Act
    (HostEvent Name Content) :=
  host.processesIn Disk.flat

abbrev system : LTS (Global Place Name Content) (HostLabel Name Content) :=
  host.systemIn Disk.flat

/-- The state before the first login. -/
def start : Global Place Name Content :=
  ⟨fun key => Proc.start (host.config key), host.initial⟩

variable {host} {beneath}

theorem init_start : (host.systemIn beneath).init host.start :=
  ⟨rfl, rfl⟩

theorem eq_start_of_init {state : Global Place Name Content}
    (init : (host.systemIn beneath).init state) :
    state = host.start := by
  cases state
  cases init.1
  cases init.2
  rfl

variable (host) (beneath) in
/-- Where a sequence of steps leads, if all of them can be taken. -/
def afterIn (labels : List (HostLabel Name Content)) : Global Place Name Content :=
  (execute (host.processesIn beneath).next host.start labels).getD host.start

variable (host) in
abbrev after (labels : List (HostLabel Name Content)) : Global Place Name Content :=
  host.afterIn Disk.flat labels

theorem reachable_after {labels : List (HostLabel Name Content)}
    (taken : (execute (host.processesIn beneath).next host.start labels).isSome = true) :
    (host.systemIn beneath).Reachable (host.afterIn beneath labels) := by
  rcases Option.isSome_iff_exists.mp taken with ⟨state, executed⟩
  rw [afterIn, executed]
  exact ⟨host.start, labels, init_start, Run.of_execute id executed⟩

theorem run_after {first second : List (HostLabel Name Content)}
    (taken : (execute (host.processesIn beneath).next host.start (first ++ second)).isSome = true) :
    (host.systemIn beneath).Run (host.afterIn beneath first) second
      (host.afterIn beneath (first ++ second)) := by
  rcases Option.isSome_iff_exists.mp taken with ⟨finish, executed⟩
  rw [afterIn, afterIn, executed]
  rw [execute_append] at executed
  rcases Option.bind_eq_some_iff.mp executed with ⟨middle, before, rest⟩
  rw [before]
  exact Run.of_execute id rest

/-- A session without a step is where it was. -/
theorem procs_after {labels : List (HostLabel Name Content)}
    (taken : (execute (host.processesIn beneath).next host.start labels).isSome = true)
    {key : SessionKey}
    (idle : some key ∉ labels.map Processes.Label.actor) :
    (host.afterIn beneath labels).procs key = Proc.start (host.config key) := by
  have run : (host.systemIn beneath).Run (host.afterIn beneath []) labels
      (host.afterIn beneath labels) :=
    @run_after _ _ _ _ _ host beneath [] labels taken
  apply Processes.procs_of_run run
  intro action member
  exact idle (List.mem_map.mpr ⟨_, member, rfl⟩)

theorem step_after {first : List (HostLabel Name Content)} {label : HostLabel Name Content}
    (taken :
      (execute (host.processesIn beneath).next host.start (first ++ [label])).isSome = true) :
    (host.systemIn beneath).step (host.afterIn beneath first) label
      (host.afterIn beneath (first ++ [label])) := by
  rcases Option.isSome_iff_exists.mp taken with ⟨finish, executed⟩
  rw [afterIn, afterIn, executed]
  rw [execute_append] at executed
  rcases Option.bind_eq_some_iff.mp executed with ⟨middle, before, rest⟩
  rcases Option.bind_eq_some_iff.mp rest with ⟨last, step, finished⟩
  cases finished
  rw [before]
  exact step

theorem reachable_after_guarded
    {guard : Global Place Name Content → HostLabel Name Content → Prop}
    [∀ state label, Decidable (guard state label)] {labels : List (HostLabel Name Content)}
    (taken :
      (execute (guarded guard (host.processesIn beneath).next) host.start labels).isSome = true) :
    ((host.systemIn beneath).restrict guard).Reachable (host.afterIn beneath labels) := by
  rcases Option.isSome_iff_exists.mp taken with ⟨state, executed⟩
  rw [afterIn, execute_of_guarded executed]
  exact ⟨host.start, labels, init_start,
    @Run.of_execute_guarded _ _ (host.systemIn beneath) (host.processesIn beneath).next guard _ id
      host.start state labels executed⟩

theorem run_after_guarded
    {guard : Global Place Name Content → HostLabel Name Content → Prop}
    [∀ state label, Decidable (guard state label)] {first second : List (HostLabel Name Content)}
    (begun : (execute (host.processesIn beneath).next host.start first).isSome = true)
    (taken : (execute (guarded guard (host.processesIn beneath).next)
      (host.afterIn beneath first) second).isSome = true) :
    ((host.systemIn beneath).restrict guard).Run (host.afterIn beneath first) second
      (host.afterIn beneath (first ++ second)) := by
  rcases Option.isSome_iff_exists.mp begun with ⟨middle, before⟩
  rcases Option.isSome_iff_exists.mp taken with ⟨finish, rest⟩
  have run := @Run.of_execute_guarded _ _ (host.systemIn beneath)
    (host.processesIn beneath).next guard _ id
    (host.afterIn beneath first) finish second rest
  have reached : host.afterIn beneath first = middle := by
    rw [afterIn, before]
    rfl
  have whole : host.afterIn beneath (first ++ second) = finish := by
    rw [afterIn, execute_append, before, ← reached]
    exact congrArg (Option.getD · host.start) (execute_of_guarded rest)
  rw [whole]
  exact run

/-- A step of a session: it goes on, and the host with it. -/
theorem step_act {state after : Global Place Name Content} {key : SessionKey} {action : Act}
    (step : (host.systemIn beneath).step state (.act key action) after) :
    (state.procs key).step (host.config key) action = some (after.procs key) ∧
      host.perform beneath key (state.procs key) state.shared action = some after.shared ∧
      ∀ other, other ≠ key → after.procs other = state.procs other := by
  have acted := Processes.step_act step
  rcases Option.bind_eq_some_iff.mp acted.1 with ⟨next, moved, rest⟩
  rcases Option.map_eq_some_iff.mp rest with ⟨shared, performed, equal⟩
  cases equal
  exact ⟨moved, performed, acted.2⟩

omit [DecidableEq Place] [DecidableEq Name] in
/-- What holds of the session that moved holds of all if it held of the others. -/
theorem forall_procs (property : SessionKey → Proc → Prop) {state after : Global Place Name Content}
    {key : SessionKey} (others : ∀ other, other ≠ key → after.procs other = state.procs other)
    (mine : property key (after.procs key)) (theirs : ∀ other, property other (state.procs other)) :
    ∀ other, property other (after.procs other) := by
  intro other
  by_cases same : other = key
  · rw [same]
    exact mine
  · rw [others other same]
    exact theirs other

/-- Any other step leaves the sessions as they are. -/
theorem step_env {state after : Global Place Name Content} {event : HostEvent Name Content}
    (step : (host.systemIn beneath).step state (.env event) after) :
    host.environ state.procs state.shared event = some after.shared ∧
      after.procs = state.procs :=
  Processes.step_env step

/-- What a session of a host goes through is a run of its program. -/
theorem reachable_session {guard : Global Place Name Content → HostLabel Name Content → Prop}
    {allowed : Proc → Act → Prop} {key : SessionKey} {state : Global Place Name Content}
    (reachable : ((host.systemIn beneath).restrict guard).Reachable state)
    (allows : ∀ {state : Global Place Name Content} {action : Act},
      guard state (.act key action) → allowed (state.procs key) action) :
    ((session (host.config key)).restrict allowed).Reachable (state.procs key) := by
  apply Processes.reachable_proc reachable
  · rfl
  · intro state action moved met acted
    rcases Option.bind_eq_some_iff.mp acted with ⟨next, step, rest⟩
    rcases Option.map_eq_some_iff.mp rest with ⟨shared, _, equal⟩
    cases equal
    exact ⟨allows met, step⟩

theorem built {guard : Global Place Name Content → HostLabel Name Content → Prop}
    {state : Global Place Name Content}
    (reachable : ((host.systemIn beneath).restrict guard).Reachable state)
    (key : SessionKey) : (state.procs key).Built := by
  have run : ((session (host.config key)).restrict fun _ _ => True).Reachable
      (state.procs key) := reachable_session reachable fun _ => trivial
  apply run.invariant
  · intro start initial
    cases initial
    exact .start _
  · intro proc act next built step
    exact built.step step.2

end Host

/-! ## A small host -/

/-- A host with one bundle, and a daemon that registers two sessions. -/
def sampleHost : Host Bytes Unit Bool where
  config _ := plainConfig
  file := .parsed (.int64 2)
  resolve := id
  inside _ _ := true
  pristine _ := some false
  elsewhere _ _ := none

def firstLogin : SessionKey := ⟨100, 0⟩

def secondLogin : SessionKey := ⟨200, 0⟩

/-- Steps of one session of the host. -/
def actsOf (key : SessionKey) (actions : List Act) : List (HostLabel Unit Bool) :=
  actions.map (.act key)

end Caal
