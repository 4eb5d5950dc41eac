import Caal.Host.Model

/-!
# The daemon's table on a host

What the requests of sessions and of `caalctl` do to the bag of registered sessions,
read off the moves of the bag machine.
-/

namespace Caal

open CMemory LTS

/-- The username as the daemon stores it. -/
def Config.account (config : Config) : Bytes :=
  (cstr config.username).take 63

/-- The entries of a session: with its id, under its account. -/
def own (account id : Bytes) (entries : Multiset Entry) : Multiset Entry :=
  entries.filter fun entry => entry.containerId = id ∧ entry.username = account

/-- All entries with the id are the session's. -/
def Owned (account id : Bytes) (entries : Multiset Entry) : Prop :=
  ∀ entry ∈ entries, entry.containerId = id → entry.username = account

section Own

variable {account id : Bytes} {entries : Multiset Entry} {entry : Entry}

theorem mem_own :
    entry ∈ own account id entries ↔
      entry ∈ entries ∧ entry.containerId = id ∧ entry.username = account :=
  Multiset.mem_filter

theorem own_cons_of_ne (foreign : entry.containerId ≠ id) :
    own account id (entry ::ₘ entries) = own account id entries :=
  Multiset.filter_cons_of_neg entries fun mine => foreign mine.1

theorem own_cons (sameId : entry.containerId = id) (sameAccount : entry.username = account) :
    own account id (entry ::ₘ entries) = entry ::ₘ own account id entries :=
  Multiset.filter_cons_of_pos entries ⟨sameId, sameAccount⟩

theorem own_erase_of_ne (member : entry ∈ entries) (foreign : entry.containerId ≠ id) :
    own account id (entries.erase entry) = own account id entries := by
  have split := Multiset.cons_erase member
  calc own account id (entries.erase entry)
      = own account id (entry ::ₘ entries.erase entry) := (own_cons_of_ne foreign).symm
    _ = own account id entries := by rw [split]

theorem cons_own_erase (member : entry ∈ entries) (sameId : entry.containerId = id)
    (sameAccount : entry.username = account) :
    entry ::ₘ own account id (entries.erase entry) = own account id entries := by
  have split := Multiset.cons_erase member
  calc entry ::ₘ own account id (entries.erase entry)
      = own account id (entry ::ₘ entries.erase entry) := (own_cons sameId sameAccount).symm
    _ = own account id entries := by rw [split]

theorem own_filter_of_ne {username : Bytes} (different : account ≠ username) :
    own account id (entries.filter (·.username ≠ username)) = own account id entries := by
  rw [own, Multiset.filter_filter]
  apply Multiset.filter_congr
  intro entry _
  constructor
  · exact fun mine => mine.1
  · intro mine
    refine ⟨mine, ?_⟩
    rw [mine.2]
    exact different

end Own

/-! ## Moves of the bag -/

namespace BagStep

variable {before after : BagState} {answer : Answer} {account id : Bytes}

theorem register_cases {entry : Entry}
    (step : BagStep before (.served (.register entry) answer) after) :
    answer.ok = true ∧ (before.entries.card : Int) < before.capacity ∧
        after.entries = entry ::ₘ before.entries ∨
      answer.ok = false ∧ before.capacity ≤ before.entries.card ∧
        after.entries = before.entries := by
  cases step with
  | registered _ room => exact .inl ⟨rfl, room, rfl⟩
  | registerRefused _ full => exact .inr ⟨rfl, full, rfl⟩

theorem unregister_cases
    (step : BagStep before (.served (.unregister id) answer) after) :
    (∃ entry ∈ before.entries, entry.containerId = id ∧
        after.entries = before.entries.erase entry) ∨
      (∀ entry ∈ before.entries, entry.containerId ≠ id) ∧ after.entries = before.entries := by
  cases step with
  | unregistered member => exact .inl ⟨_, member, rfl, rfl⟩
  | unregisterRefused absent => exact .inr ⟨absent, rfl⟩

/-- A move leaves the entries of a session alone, and adds no entry with its id. -/
structure Spares (before after : BagState) (account id : Bytes) : Prop where
  own : own account id after.entries = own account id before.entries
  owned : Owned account id before.entries → Owned account id after.entries

theorem Spares.rfl {state : BagState} : Spares state state account id :=
  ⟨Eq.refl _, fun owned => owned⟩

theorem spares_of_register {entry : Entry}
    (step : BagStep before (.served (.register entry) answer) after)
    (foreign : entry.containerId ≠ id) : Spares before after account id := by
  cases step with
  | registered _ room =>
      refine ⟨own_cons_of_ne foreign, ?_⟩
      intro owned
      exact Multiset.forall_mem_cons.mpr ⟨fun same => (foreign same).elim, owned⟩
  | registerRefused _ full => exact .rfl

theorem spares_of_unregister {other : Bytes}
    (step : BagStep before (.served (.unregister other) answer) after)
    (foreign : other ≠ id) : Spares before after account id := by
  cases step with
  | unregistered member =>
      exact ⟨own_erase_of_ne member foreign,
        fun owned left inside => owned left (Multiset.mem_of_mem_erase inside)⟩
  | unregisterRefused absent => exact .rfl

theorem spares_of_kill {other : Bytes}
    (step : BagStep before (.served (.kill other) answer) after)
    (foreign : other ≠ id) : Spares before after account id := by
  cases step with
  | killed member =>
      exact ⟨own_erase_of_ne member foreign,
        fun owned left inside => owned left (Multiset.mem_of_mem_erase inside)⟩
  | killRefused absent => exact .rfl

theorem spares_of_killUser {username : Bytes}
    (step : BagStep before (.served (.killUser username) answer) after)
    (foreign : account ≠ username) : Spares before after account id := by
  cases step with
  | userKilled some =>
      exact ⟨own_filter_of_ne foreign,
        fun owned left inside => owned left (Multiset.mem_of_mem_filter inside)⟩
  | userKillRefused absent => exact .rfl

/-- An UNREGISTER takes one of the session's entries away, if it has any. -/
theorem card_own_of_unregister
    (step : BagStep before (.served (.unregister id) answer) after)
    (owned : Owned account id before.entries) :
    (Caal.own account id after.entries).card = (Caal.own account id before.entries).card - 1 ∧
      Owned account id after.entries := by
  rcases step.unregister_cases with ⟨gone, member, same, erased⟩ | ⟨absent, unchanged⟩
  · rw [erased]
    refine ⟨?_, fun left inside => owned left (Multiset.mem_of_mem_erase inside)⟩
    rw [← cons_own_erase member same (owned gone member same), Multiset.card_cons,
      Nat.add_sub_cancel]
  · rw [unchanged]
    have none : Caal.own account id before.entries = 0 := by
      apply Multiset.eq_zero_of_forall_notMem
      intro entry mine
      have found := mem_own.mp mine
      exact absent entry found.1 found.2.1
    rw [none]
    exact ⟨rfl, owned⟩

end BagStep

/-! ## Requests of a session -/

section Requests

variable {Place Name Content : Type} (host : Host Place Name Content) (key : SessionKey)

/-- What is stored for a session that registers. -/
def Host.entry (now : Int64) : Entry :=
  ⟨(host.config key).account, key.id, key.pid, now⟩

theorem own_entry (now : Int64) (entries : Multiset Entry) :
    own (host.config key).account key.id (host.entry key now ::ₘ entries) =
      host.entry key now ::ₘ own (host.config key).account key.id entries :=
  own_cons rfl rfl

theorem take_id : (cstr key.id).take 63 = key.id := by
  rw [SessionKey.cstr_id]
  exact List.take_of_length_le (Nat.le_of_lt (length_containerId_lt key.pid key.time))

variable {table : Table} (wf : table.WF) (now : Int64)

include wf

theorem registration_step :
    BagStep table.view
      (.served (.register (host.entry key now))
        (table.handle (host.registration key) now).toReply.answer)
      (table.handle (host.registration key) now).table.view := by
  have terminated := Request.terminated_register (host.config key).username key.id key.pid
  have step := Table.handle_refines wf terminated now
  have command : (host.registration key).command now = .register (host.entry key now) := by
    have username := (field_strncpy (host.config key).username).1
    have id := (field_strncpy key.id).1
    rw [take_id] at id
    change Command.register ⟨((Buf.zero maxStr).strncpy (host.config key).username).text,
      ((Buf.zero maxStr).strncpy key.id).text, key.pid, now⟩ = _
    rw [username, id]
    rfl
  rw [← command]
  exact step

theorem unregister_step :
    BagStep table.view
      (.served (.unregister key.id)
        (table.handle (.unregister key.id) now).toReply.answer)
      (table.handle (.unregister key.id) now).table.view := by
  have step := Table.handle_refines wf (Request.terminated_unregister key.id) now
  have command : (Request.unregister key.id).command now = .unregister key.id := by
    have id := (field_strncpy key.id).1
    rw [take_id] at id
    exact congrArg Command.unregister id
  rw [← command]
  exact step

end Requests

/-! ## Requests of `caalctl` -/

/-- The request takes sessions with this account or id off the table. -/
def Ctl.Names (account id : Bytes) : Ctl → Prop
  | .list => False
  | .count => False
  | .kill argument => (cstr argument).take 63 = id
  | .killUser argument => (cstr argument).take 63 = account

instance (account id : Bytes) : (ctl : Ctl) → Decidable (ctl.Names account id)
  | .list => isFalse fun named => named
  | .count => isFalse fun named => named
  | .kill argument => inferInstanceAs (Decidable ((cstr argument).take 63 = id))
  | .killUser argument => inferInstanceAs (Decidable ((cstr argument).take 63 = account))

theorem spares_of_ctl {table : Table} (wf : table.WF) (now : Int64) {ctl : Ctl}
    {account id : Bytes} (spared : ¬ ctl.Names account id) :
    BagStep.Spares table.view (table.handle ctl.request now).table.view account id := by
  cases ctl with
  | list => exact .rfl
  | count => exact .rfl
  | kill argument =>
      have step := Table.handle_refines wf (Request.terminated_kill argument) now
      rw [Request.command_kill] at step
      exact step.spares_of_kill spared
  | killUser argument =>
      have step := Table.handle_refines wf (Request.terminated_killUser argument) now
      rw [Request.command_killUser] at step
      exact step.spares_of_killUser fun same => spared same.symm

/-! ## The table of a host -/

/-- The bag of a reloaded table is the same, and its capacity no less. -/
theorem reload_bag {table : Table} (wf : table.WF) (file : ConfigFile) (allocated : Bool) :
    (table.reloadConfig file allocated).bag = table.bag ∧
      table.maxSessions ≤ (table.reloadConfig file allocated).maxSessions := by
  have spec := wf.reloadConfig_spec file allocated
  exact ⟨congrArg Multiset.ofList spec.2.1, spec.2.2⟩

section Host

variable {Place Name Content : Type} [DecidableEq Place] [DecidableEq Name]
  {host : Host Place Name Content}
  {beneath : Place → Place → Bool}

omit [DecidableEq Name] in
theorem Host.Performed.wf {key : SessionKey} {point : Point} {action : Act}
    {shared after : Shared Place Name Content}
    (performed : host.Performed beneath key shared point action after) (wf : shared.table.WF) :
    after.table.WF := by
  cases performed with
  | registered told served => exact wf.handle _ _
  | unregistered told served => exact wf.handle _ _
  | _ => exact wf

omit [DecidableEq Place] in
/-- What the steps that are none of a session do to the table. -/
theorem Host.table_of_environ {procs : SessionKey → Proc} {shared after : Shared Place Name Content}
    {event : HostEvent Name Content} (moved : host.environ procs shared event = some after) :
    after.table = shared.table ∨
      (∃ ctl, event = .requested ctl ∧
        after.table = (shared.table.handle ctl.request shared.clock).table) ∨
      ∃ file allocated, after.table = shared.table.reloadConfig file allocated := by
  cases event with
  | tick now =>
      cases moved
      exact .inl rfl
  | requested ctl =>
      cases moved
      exact .inr (.inl ⟨ctl, rfl, rfl⟩)
  | reloaded file allocated =>
      cases moved
      exact .inr (.inr ⟨file, allocated, rfl⟩)
  | written key name content =>
      rw [environ] at moved
      split at moved
      · split at moved
        · cases moved
          exact .inl rfl
        · cases moved
      · cases moved

omit [DecidableEq Name] in
/-- A call is one of the two exchanges, or leaves the table alone. -/
theorem Host.Performed.exchanged {key : SessionKey} {point : Point} {outcome : Outcome}
    {shared after : Shared Place Name Content}
    (performed : host.Performed beneath key shared point (.call outcome) after) :
    (point = .register ∧ ∃ ok, (outcome = .answered ok ∨ outcome = .lost ok) ∧
        ((shared.table.handle (host.registration key) shared.clock).response.ok != 0) = ok ∧
        after.table = (shared.table.handle (host.registration key) shared.clock).table) ∨
      (point = .unregister ∧ ∃ ok, (outcome = .answered ok ∨ outcome = .lost ok) ∧
        after.table = (shared.table.handle (.unregister key.id) shared.clock).table) ∨
      (point = .register ∨ point = .unregister →
        ∀ ok, outcome ≠ .answered ok ∧ outcome ≠ .lost ok) ∧ after.table = shared.table := by
  generalize action : Act.call outcome = act at performed
  cases performed with
  | silent quiet =>
      cases action
      refine .inr (.inr ⟨?_, rfl⟩)
      intro exchanging ok
      rcases exchanging with rfl | rfl
      · constructor <;> intro told <;> cases told <;> cases quiet
      · constructor <;> intro told <;> cases told <;> cases quiet
  | counted told =>
      refine .inr (.inr ⟨?_, rfl⟩)
      intro exchanging
      rcases exchanging with equal | equal <;> cases equal
  | registered told served =>
      cases action
      exact .inl ⟨rfl, _, told, served, rfl⟩
  | unregistered told served =>
      cases action
      exact .inr (.inl ⟨rfl, _, told, rfl⟩)
  | mounted =>
      refine .inr (.inr ⟨?_, rfl⟩)
      intro exchanging
      rcases exchanging with equal | equal <;> cases equal
  | unmounted site covered =>
      refine .inr (.inr ⟨?_, rfl⟩)
      intro exchanging
      rcases exchanging with equal | equal <;> cases equal
  | started resolved => cases action

omit [DecidableEq Name] in
/-- Signals and children do not reach the table. -/
theorem Host.Performed.table_of_idle {key : SessionKey} {point : Point} {action : Act}
    {shared after : Shared Place Name Content}
    (performed : host.Performed beneath key shared point action after)
    (idle : ∀ outcome, action ≠ .call outcome) : after.table = shared.table := by
  cases performed with
  | registered told served => exact (idle _ rfl).elim
  | unregistered told served => exact (idle _ rfl).elim
  | _ => rfl

omit [DecidableEq Name] in
theorem Host.Performed.told {key : SessionKey} {sessions : Int}
    {shared after : Shared Place Name Content}
    (performed : host.Performed beneath key shared .count (.call (.counted sessions)) after) :
    sessions = (shared.table.handle .count shared.clock).response.count.toInt := by
  cases performed with
  | silent quiet => cases quiet
  | counted told => exact told

omit [DecidableEq Name] in
/-- What a session does leaves the entries of another alone. -/
theorem Host.Performed.spares {key : SessionKey} {point : Point} {action : Act}
    {shared after : Shared Place Name Content} {account id : Bytes}
    (performed : host.Performed beneath key shared point action after) (wf : shared.table.WF)
    (foreign : point = .register ∨ point = .unregister → key.id ≠ id) :
    BagStep.Spares shared.table.view after.table.view account id := by
  cases performed with
  | registered told served =>
      exact (registration_step host key wf shared.clock).spares_of_register (foreign (.inl rfl))
  | unregistered told served =>
      exact (unregister_step key wf shared.clock).spares_of_unregister (foreign (.inr rfl))
  | _ => exact .rfl

omit [DecidableEq Place] in
/-- So do reloads, and the requests that do not name it. -/
theorem Host.spares_of_environ {procs : SessionKey → Proc}
    {shared after : Shared Place Name Content} {event : HostEvent Name Content}
    {account id : Bytes} (moved : host.environ procs shared event = some after)
    (wf : shared.table.WF) (spared : ∀ ctl, event = .requested ctl → ¬ ctl.Names account id) :
    BagStep.Spares shared.table.view after.table.view account id := by
  rcases table_of_environ moved with same | ⟨ctl, requested, served⟩ |
    ⟨file, allocated, reloaded⟩
  · rw [same]
    exact .rfl
  · rw [served]
    exact spares_of_ctl wf shared.clock (spared ctl requested)
  · rw [reloaded]
    have bag := (reload_bag wf file allocated).1
    refine ⟨congrArg (own account id) bag, ?_⟩
    intro owned
    change Owned account id (shared.table.reloadConfig file allocated).bag
    rw [bag]
    exact owned

theorem Host.table_wf {guard : Global Place Name Content → HostLabel Name Content → Prop}
    {state : Global Place Name Content}
    (reachable : (host.system.restrict guard).Reachable state) : state.shared.table.WF := by
  apply reachable.invariant
  · intro start init
    cases eq_start_of_init init
    exact (Table.WF.initial.reloadConfig_spec host.file true).1
  · intro state label after wf step
    cases label with
    | act key action => exact (performed_of_perform (step_act step.2).2.1).wf wf
    | env event =>
        rcases table_of_environ (step_env step.2).1 with same | ⟨ctl, _, served⟩ |
          ⟨file, allocated, reloaded⟩
        · rw [same]
          exact wf
        · rw [served]
          exact wf.handle _ _
        · rw [reloaded]
          exact (wf.reloadConfig_spec file allocated).1

end Host

end Caal
