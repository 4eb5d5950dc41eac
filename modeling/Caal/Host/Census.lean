import Caal.Host.Limit
import Caal.Session.Filing

/-!
# The two ways of counting sessions

The daemon counts the entries of its table, and without a daemon a login counts the
directories of sessions. Both are tied to the logins by the control flow of `main` alone.
-/

namespace Caal

open CMemory LTS

/-! ## The fallback count -/

/-- What `readdir` says of a file. -/
structure DirEntry where
  name : Bytes
  isDir : Bool
  deriving DecidableEq

/-- A file with the name of a session. -/
def DirEntry.named (entry : DirEntry) : Bool :=
  strncmp entry.name (ascii "caalsh-") 7 == 0

/-- The loop of `count_active_sessions` over the session directory. -/
def countDirectories (entries : List DirEntry) : Int :=
  entries.countP fun entry => entry.named && entry.isDir

/-- The directory of a session, and its image. -/
def SessionKey.directory (key : SessionKey) : DirEntry :=
  ⟨key.id, true⟩

def SessionKey.image (key : SessionKey) : DirEntry :=
  ⟨key.id ++ ascii ".img", false⟩

theorem SessionKey.directory_injective : Function.Injective SessionKey.directory := by
  intro left right equal
  exact SessionKey.id_injective (congrArg DirEntry.name equal)

theorem SessionKey.named_directory (key : SessionKey) : key.directory.named = true := by
  rw [DirEntry.named, beq_iff_eq, strncmp_eq_zero]
  rfl

variable {Place Name Content : Type}

/-- The files of sessions under `SESSION_DIR`. -/
def Global.Filed (state : Global Place Name Content) (entry : DirEntry) : Prop :=
  (∃ key, (state.procs key).holds.dir = .held ∧ entry = key.directory) ∨
    ∃ key, (state.procs key).holds.image = .held ∧ entry = key.image

/-- What `readdir` returns, in some order, and along with files that are none of a session. -/
structure Global.Lists (state : Global Place Name Content) (entries : List DirEntry) : Prop where
  nodup : entries.Nodup
  named : ∀ entry, entry.named = true → (entry ∈ entries ↔ state.Filed entry)

/-- The fallback count is the number of sessions with a directory. -/
theorem Global.Lists.count {state : Global Place Name Content} {entries : List DirEntry}
    (lists : state.Lists entries) {filed : Finset SessionKey}
    (held : ∀ key, key ∈ filed ↔ (state.procs key).holds.dir = .held) :
    countDirectories entries = filed.card := by
  have counted : (entries.filter fun entry => entry.named && entry.isDir).toFinset =
      filed.map ⟨SessionKey.directory, SessionKey.directory_injective⟩ := by
    ext entry
    rw [List.mem_toFinset, List.mem_filter, Finset.mem_map, Bool.and_eq_true]
    constructor
    · intro ⟨member, named, isDir⟩
      rcases (lists.named entry named).mp member with ⟨key, there, rfl⟩ | ⟨key, _, rfl⟩
      · exact ⟨key, (held key).mpr there, rfl⟩
      · cases isDir
    · intro ⟨key, member, equal⟩
      cases equal
      have named := key.named_directory
      exact ⟨(lists.named _ named).mpr (.inl ⟨key, (held key).mp member, rfl⟩), named, rfl⟩
  rw [countDirectories, List.countP_eq_length_filter,
    ← List.toFinset_card_of_nodup (lists.nodup.filter _), counted, Finset.card_map]

variable [DecidableEq Place] [DecidableEq Name] {host : Host Place Name Content}
  {beneath : Place → Place → Bool}

namespace Host

/-- There is such a listing in every reachable state. -/
theorem exists_lists {guard : Global Place Name Content → HostLabel Name Content → Prop}
    {state : Global Place Name Content}
    (reachable : (host.system.restrict guard).Reachable state) :
    ∃ entries, state.Lists entries := by
  have moved := Processes.finite_moved reachable
  have finite : {entry | state.Filed entry}.Finite := by
    apply ((moved.image SessionKey.directory).union (moved.image SessionKey.image)).subset
    rintro entry (⟨key, held, rfl⟩ | ⟨key, held, rfl⟩)
    · refine .inl ⟨key, ?_, rfl⟩
      intro fresh
      rw [fresh] at held
      cases held
    · refine .inr ⟨key, ?_, rfl⟩
      intro fresh
      rw [fresh] at held
      cases held
  refine ⟨finite.toFinset.toList, Finset.nodup_toList _, ?_⟩
  intro entry _
  rw [Finset.mem_toList, Set.Finite.mem_toFinset]
  rfl

/-! ## The daemon's count -/

/-- Nothing interferes with the logins: no signal, no kill request, and no failure of the
calls that end a session. -/
def Undisturbed (state : Global Place Name Content) : HostLabel Name Content → Prop
  | .act key action => (state.procs key).Unhindered action
  | .env (.requested (.kill _)) => False
  | .env (.requested (.killUser _)) => False
  | _ => True

/-- The sessions on the daemon's record are the entries of its table. -/
structure Roster (state : Global Place Name Content) (roster : Finset SessionKey) : Prop where
  entries : state.shared.table.bag.map Entry.containerId = roster.val.map SessionKey.id
  members : ∀ key, key ∈ roster ↔ (state.procs key).OnRecord

omit [DecidableEq Place] [DecidableEq Name] in
theorem roster_start : Roster host.start ∅ := by
  have empty : host.start.shared.table.bag = 0 :=
    (reload_bag Table.WF.initial host.file true).1
  constructor
  · rw [empty]
    rfl
  · intro key
    exact iff_of_false (Finset.notMem_empty key) fun recorded => nomatch recorded.1

omit [DecidableEq Place] [DecidableEq Name] in
/-- What the daemon answers a COUNT with. -/
theorem Roster.count {state : Global Place Name Content} {roster : Finset SessionKey}
    (kept : Roster state roster) (wf : state.shared.table.WF) (now : Int64) :
    (state.shared.table.handle .count now).response.count.toInt = roster.card := by
  rw [wf.count_reply]
  have cards := congrArg Multiset.card kept.entries
  rw [Multiset.card_map, Multiset.card_map] at cards
  exact congrArg Nat.cast cards

omit [DecidableEq Place] [DecidableEq Name] in
/-- Nothing happens to the roster when neither the table nor the record of a session changes. -/
theorem Roster.of_eq {state after : Global Place Name Content} {roster : Finset SessionKey}
    (kept : Roster state roster) (bag : after.shared.table.bag = state.shared.table.bag)
    (same : ∀ key, (after.procs key).OnRecord ↔ (state.procs key).OnRecord) :
    Roster after roster := by
  constructor
  · rw [bag]
    exact kept.entries
  · intro key
    rw [same key]
    exact kept.members key

omit [DecidableEq Name] in
/-- A returning call of a session keeps the roster up to the session itself. -/
theorem Roster.call {state after : Global Place Name Content} {roster : Finset SessionKey}
    {key : SessionKey} {outcome : Outcome} (kept : Roster state roster)
    (wf : state.shared.table.WF) (ledger : (state.procs key).Ledger)
    (called : (state.procs key).call (host.config key) outcome = some (after.procs key))
    (performed : host.Performed beneath key state.shared (state.procs key).point (.call outcome)
      after.shared)
    (others : ∀ other, other ≠ key → after.procs other = state.procs other) :
    ∃ later, Roster after later := by
  have theirs : ∀ other, other ≠ key →
      ((after.procs other).OnRecord ↔ (state.procs other).OnRecord) := by
    intro other different
    rw [others other different]
  rcases performed.exchanged with ⟨here, ok, told, served, table⟩ | ⟨here, ok, told, table⟩ |
    ⟨unserved, table⟩
  · rcases Proc.onRecord_register ledger here told called with ⟨before, now⟩
    have absent : key ∉ roster := fun member => before ((kept.members key).mp member)
    have bag : after.shared.table.bag =
        (state.shared.table.handle (host.registration key) state.shared.clock).table.bag := by
      rw [table]
    rcases (registration_step host key wf state.shared.clock).register_cases with
      ⟨accepted, _, stored⟩ | ⟨refused, _, unchanged⟩
    · have granted : ok = true := served.symm.trans accepted
      refine ⟨insert key roster, ?_, ?_⟩
      · rw [bag.trans stored, Multiset.map_cons, Finset.insert_val_of_notMem absent,
          Multiset.map_cons]
        exact congrArg (key.id ::ₘ ·) kept.entries
      · intro other
        rw [Finset.mem_insert]
        by_cases same : other = key
        · subst same
          exact iff_of_true (.inl rfl) (now.mpr granted)
        · rw [theirs other same, or_iff_right same]
          exact kept.members other
    · have denied : ok = false := served.symm.trans refused
      refine ⟨roster, kept.of_eq (bag.trans unchanged) ?_⟩
      intro other
      by_cases same : other = key
      · subst same
        refine iff_of_false ?_ before
        intro heard
        cases denied.symm.trans (now.mp heard)
      · exact theirs other same
  · have off := Proc.onRecord_unregister ledger here told called
    have bag : after.shared.table.bag =
        (state.shared.table.handle (.unregister key.id) state.shared.clock).table.bag := by
      rw [table]
    refine ⟨roster.erase key, ?_, ?_⟩
    · have erased : (roster.erase key).val.map SessionKey.id =
          (state.shared.table.bag.map Entry.containerId).erase key.id := by
        rw [Finset.erase_val, Multiset.map_erase _ SessionKey.id_injective, kept.entries]
      rw [erased, bag]
      rcases (unregister_step key wf state.shared.clock).unregister_cases with
        ⟨gone, member, same, left⟩ | ⟨absent, unchanged⟩
      · have removed : (state.shared.table.handle (.unregister key.id)
            state.shared.clock).table.bag = state.shared.table.bag.erase gone := left
        have found : gone ∈ state.shared.table.bag := member
        rw [removed, Multiset.map_erase_of_mem _ _ found, same]
      · have same : (state.shared.table.handle (.unregister key.id)
            state.shared.clock).table.bag = state.shared.table.bag := unchanged
        have nowhere : key.id ∉ state.shared.table.bag.map Entry.containerId := by
          rw [Multiset.mem_map]
          rintro ⟨entry, member, equal⟩
          exact absent entry member equal
        rw [same, Multiset.erase_of_notMem nowhere]
    · intro other
      rw [Finset.mem_erase]
      by_cases same : other = key
      · subst same
        exact iff_of_false (fun both => both.1 rfl) off
      · rw [theirs other same, and_iff_right same]
        exact kept.members other
  · have same := Proc.onRecord_call ledger unserved called
    refine ⟨roster, kept.of_eq (congrArg Table.bag table) ?_⟩
    intro other
    by_cases mine : other = key
    · subst mine
      exact same
    · exact theirs other mine

theorem ledger_of_reachable {guard : Global Place Name Content → HostLabel Name Content → Prop}
    {state : Global Place Name Content} (reachable : (host.system.restrict guard).Reachable state)
    (key : SessionKey) : (state.procs key).Ledger := by
  have run : ((session (host.config key)).restrict fun _ _ => True).Reachable
      (state.procs key) := reachable_session reachable fun _ => trivial
  exact Proc.ledger_of_reachable run.of_restrict

theorem Roster.step {state after : Global Place Name Content} {roster : Finset SessionKey}
    {label : HostLabel Name Content} (kept : Roster state roster)
    (wf : state.shared.table.WF) (ledgers : ∀ key, (state.procs key).Ledger)
    (undisturbed : Undisturbed state label) (step : host.system.step state label after) :
    ∃ later, Roster after later := by
  cases label with
  | act key action =>
      rcases step_act step with ⟨moved, performed, others⟩
      have performed := performed_of_perform performed
      rcases Proc.step_cases moved with ⟨outcome, rfl, called⟩ | ⟨signal, rfl, _, _⟩ |
        ⟨event, holds, rfl, _, equal⟩
      · exact kept.call wf (ledgers key) called performed others
      · exact undisturbed.elim
      · refine ⟨roster, kept.of_eq ?_ ?_⟩
        · rw [performed.table_of_idle fun _ => nofun]
        · apply forall_procs (fun other proc => proc.OnRecord ↔ (state.procs other).OnRecord) others
          · rw [equal]
            exact Iff.rfl
          · exact fun other => Iff.rfl
  | env event =>
      rcases step_env step with ⟨moved, procs⟩
      refine ⟨roster, kept.of_eq ?_ (fun key => by rw [procs])⟩
      rcases table_of_environ moved with same | ⟨ctl, requested, served⟩ |
        ⟨file, allocated, reloaded⟩
      · rw [same]
      · rw [served]
        rw [requested] at undisturbed
        cases ctl with
        | list => rfl
        | count => rfl
        | kill argument => exact undisturbed.elim
        | killUser argument => exact undisturbed.elim
      · rw [reloaded]
        exact (reload_bag wf file allocated).1

theorem roster_of_reachable {state : Global Place Name Content}
    (reachable : (host.system.restrict Undisturbed).Reachable state) :
    ∃ roster, Roster state roster := by
  apply reachable.invariant_within
  · intro start init
    cases eq_start_of_init init
    exact ⟨∅, roster_start⟩
  · intro state label after reached kept step
    rcases kept with ⟨roster, kept⟩
    exact kept.step (table_wf reached) (ledger_of_reachable reached) step.1 step.2

/-! ## Both counts -/

/-- No call fails whose failure is not cleaned up after. -/
def CleansUp (state : Global Place Name Content) : HostLabel Name Content → Prop
  | .act key action => (state.procs key).Undamaged action
  | .env _ => True

/-- While no login is between entering `container_start` and the end of its REGISTER
exchange or in its teardown, the fallback counts the sessions that are relayed, and the
daemon those of them whose REGISTER it accepted. -/
theorem counts_of_cleansUp {state : Global Place Name Content}
    (reachable : (host.system.restrict fun state label =>
      Undisturbed state label ∧ CleansUp state label).Reachable state)
    (settled : ∀ key, (state.procs key).point.Settled) :
    ∃ relayed : Finset SessionKey,
      (∀ key, key ∈ relayed ↔ (state.procs key).point.relayed = true) ∧
      (∃ entries, state.Lists entries) ∧
      (∀ entries, state.Lists entries → countDirectories entries = relayed.card) ∧
      (state.shared.table.handle .count state.shared.clock).response.count.toInt =
        (relayed.filter fun key => (state.procs key).accepted = true).card := by
  have kept : ∀ key, (state.procs key).Kept := by
    intro key
    apply Proc.kept_of_reachable
    exact reachable_session reachable fun both => both
  have finite : {key | (state.procs key).point.relayed = true}.Finite := by
    apply (Processes.finite_moved reachable).subset
    intro key relayed fresh
    change (state.procs key).point.relayed = true at relayed
    rw [fresh] at relayed
    cases (Proc.unrelayed_start (host.config key)).symm.trans relayed
  rcases roster_of_reachable (reachable.restrict_mono fun _ _ both => both.1) with
    ⟨roster, recorded⟩
  have members : ∀ key, key ∈ finite.toFinset ↔ (state.procs key).point.relayed = true := by
    intro key
    rw [Set.Finite.mem_toFinset]
    rfl
  refine ⟨finite.toFinset, members, exists_lists reachable, ?_, ?_⟩
  · intro entries lists
    apply lists.count
    intro key
    rw [members key, (kept key).held_iff (settled key)]
  · rw [recorded.count (table_wf reachable)]
    congr 2
    ext key
    rw [recorded.members, Finset.mem_filter, members,
      (kept key).onRecord_iff (ledger_of_reachable reachable key) (settled key)]

end Host

instance (state : Global Bytes Unit Bool) :
    (label : HostLabel Unit Bool) → Decidable (Host.Undisturbed state label)
  | .act key action => inferInstanceAs (Decidable ((state.procs key).Unhindered action))
  | .env (.requested (.kill _)) => isFalse fun undisturbed => undisturbed
  | .env (.requested (.killUser _)) => isFalse fun undisturbed => undisturbed
  | .env (.requested .list) => isTrue trivial
  | .env (.requested .count) => isTrue trivial
  | .env (.tick _) => isTrue trivial
  | .env (.reloaded _ _) => isTrue trivial
  | .env (.written _ _ _) => isTrue trivial

instance (state : Global Bytes Unit Bool) :
    (label : HostLabel Unit Bool) → Decidable (Host.CleansUp state label)
  | .act key action => inferInstanceAs (Decidable ((state.procs key).Undamaged action))
  | .env _ => isTrue trivial

/-- From the REGISTER into the relay loop, with the answer of the daemon. -/
def relayedAs (key : SessionKey) (ok : Bool) : List (HostLabel Unit Bool) :=
  actsOf key ([.call .ok, .call (.answered ok)] ++ List.replicate 7 (.call .ok))

/-- Two logins ask before either has registered, and the REGISTER of the second is refused. -/
def refusedRun : List (HostLabel Unit Bool) :=
  bothAsked ++ relayedAs firstLogin true ++ relayedAs secondLogin false

theorem procs_refusedRun {key : SessionKey} (first : key ≠ firstLogin)
    (second : key ≠ secondLogin) :
    (limitedHost.after refusedRun).procs key = Proc.start (limitedHost.config key) := by
  have actors : ∀ actor ∈ refusedRun.map Processes.Label.actor,
      actor = some firstLogin ∨ actor = some secondLogin := by decide
  apply Host.procs_after (by decide)
  intro member
  rcases actors _ member with equal | equal
  · exact first (Option.some.inj equal)
  · exact second (Option.some.inj equal)

theorem settled_refusedRun (key : SessionKey) :
    ((limitedHost.after refusedRun).procs key).point.Settled := by
  by_cases first : key = firstLogin
  · rw [first]
    exact .inr (.inr (.inl (by decide)))
  · by_cases second : key = secondLogin
    · rw [second]
      exact .inr (.inr (.inl (by decide)))
    · rw [procs_refusedRun first second]
      exact Proc.settled_start _

theorem relayed_refusedRun (key : SessionKey) :
    ((limitedHost.after refusedRun).procs key).point.relayed = true ↔
      key ∈ ({firstLogin, secondLogin} : Finset SessionKey) := by
  rw [Finset.mem_insert, Finset.mem_singleton]
  constructor
  · intro relayed
    by_contra neither
    rw [not_or] at neither
    rw [procs_refusedRun neither.1 neither.2] at relayed
    cases (Proc.unrelayed_start _).symm.trans relayed
  · rintro (rfl | rfl)
    · decide
    · decide

theorem counts_of_cleansUp_refused :
    ∃ entries, (limitedHost.after refusedRun).Lists entries ∧ countDirectories entries = 2 ∧
      ((limitedHost.after refusedRun).shared.table.handle .count 0).response.count.toInt = 1 := by
  have reachable : (limitedHost.system.restrict fun state label =>
      Host.Undisturbed state label ∧ Host.CleansUp state label).Reachable
      (limitedHost.after refusedRun) := Host.reachable_after_guarded (by decide)
  rcases Host.counts_of_cleansUp reachable settled_refusedRun with
    ⟨relayed, members, ⟨entries, lists⟩, fallback, daemon⟩
  have both : relayed = {firstLogin, secondLogin} := by
    ext key
    rw [members, relayed_refusedRun]
  rw [both] at fallback daemon
  exact ⟨entries, lists, fallback entries lists, daemon⟩

/-- A login whose REGISTER was refused goes on, and only one of the counts has it. -/
theorem counts_differ :
    ¬ ∀ (host : Host Bytes Unit Bool) (state : Global Bytes Unit Bool)
      (relayed : Finset SessionKey) (entries : List DirEntry),
      (host.system.restrict Host.Undisturbed).Reachable state →
      (∀ key, (state.procs key).point.Settled) →
      (∀ key, key ∈ relayed ↔ (state.procs key).point.relayed = true) →
      state.Lists entries →
      (state.shared.table.handle .count state.shared.clock).response.count.toInt =
          countDirectories entries ∧
        countDirectories entries = relayed.card := by
  intro always
  have reachable : (limitedHost.system.restrict Host.Undisturbed).Reachable
      (limitedHost.after refusedRun) := Host.reachable_after_guarded (by decide)
  rcases Host.exists_lists reachable with ⟨entries, lists⟩
  have equal := always limitedHost _ {firstLogin, secondLogin} entries reachable
    settled_refusedRun (fun key => (relayed_refusedRun key).symm) lists
  have daemon : ((limitedHost.after refusedRun).shared.table.handle .count
      (limitedHost.after refusedRun).shared.clock).response.count.toInt = 1 := by decide
  have two := daemon.symm.trans (equal.1.trans equal.2)
  exact absurd two (by decide)

end Caal
