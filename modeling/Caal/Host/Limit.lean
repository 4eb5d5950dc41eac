import Caal.Host.Visibility
import Mathlib.Data.Finset.Card

/-!
# The limit on running containers

A login compares the number of registered sessions with the limit, and registers only when
its container has been started. Between the two it has claimed a place that no other login
can see.
-/

namespace Caal

open CMemory LTS

/-- Past the limit check, and not behind the REGISTER exchange yet. -/
def Point.Claims (limit : Int) : Point → Prop
  | .limit sessions => sessions < limit
  | point => point.phase = .setup ∨ point.phase = .starting ∨ point.phase = .registering

/-- The calls that a login cannot do without succeed. -/
def Proceeds : Point → Outcome → Prop
  | .count, .fallback _ => False
  | .connectRegister, .fail => False
  | .register, .fail => False
  | .waitChild, .intr => False
  | _, _ => True

theorem Point.phase_of_claims {limit : Int} {point : Point} (claims : point.Claims limit) :
    point.phase = .query ∨ point.phase = .setup ∨ point.phase = .starting ∨
      point.phase = .registering := by
  cases point with
  | limit sessions => exact .inl rfl
  | _ => exact .inr claims

theorem Point.claims_of_phase {limit : Int} {point : Point}
    (inside : point.phase = .setup ∨ point.phase = .starting ∨ point.phase = .registering) :
    point.Claims limit := by
  cases point with
  | limit sessions => rcases inside with phase | phase | phase <;> cases phase
  | _ => exact inside

/-- The phases between the limit check and the end of the REGISTER exchange are entered
through the limit check. -/
theorem Move.claims {config : Config} {terminate watched : Bool} {point next : Point}
    {outcome : Outcome} (move : Move config terminate watched point outcome next)
    (inside : next.phase = .setup ∨ next.phase = .starting ∨ next.phase = .registering) :
    point.Claims config.maxSessions := by
  cases move with
  | within same plain neutral =>
      rw [same] at inside
      exact Point.claims_of_phase inside
  | passed below => exact below
  | mounted => exact .inl rfl
  | forked => exact .inr (.inl rfl)
  | timerForked => exact .inr (.inr rfl)
  | waited => rcases inside with phase | phase | phase <;> simp at phase
  | waitCut => rcases inside with phase | phase | phase <;> simp at phase
  | rmUnforked site => cases site <;> rcases inside with phase | phase | phase <;> cases phase
  | rmWaited site => cases site <;> rcases inside with phase | phase | phase <;> cases phase
  | rmWaitCut site => cases site <;> rcases inside with phase | phase | phase <;> cases phase
  | _ => rcases inside with phase | phase | phase <;> cases phase

/-- Nothing comes back to the limit check. -/
theorem Move.query {config : Config} {terminate watched : Bool} {point next : Point}
    {outcome : Outcome} (move : Move config terminate watched point outcome next)
    (query : next.phase = .query) : point.phase = .query := by
  cases move with
  | within same plain neutral => exact same.symm.trans query
  | forked =>
      rw [Point.started] at query
      split at query <;> cases query
  | waited => simp at query
  | waitCut => simp at query
  | rmUnforked site => cases site <;> cases query
  | rmWaited site => cases site <;> cases query
  | rmWaitCut site => cases site <;> cases query
  | _ => cases query

namespace Proc

/-- A place is claimed by asking for the number of sessions. -/
theorem claims_of_call {config : Config} {proc after : Proc} {outcome : Outcome}
    (proceeds : Proceeds proc.point outcome)
    (called : proc.call config outcome = some after)
    (claims : after.point.Claims config.maxSessions) :
    proc.point.Claims config.maxSessions ∨
      proc.point = .count ∧ ∃ sessions, outcome = .counted sessions ∧
        sessions < config.maxSessions := by
  rcases call_eq_some.mp called with ⟨_, next, moved, rfl⟩
  change next.Claims config.maxSessions at claims
  cases point : proc.point with
  | count =>
      rw [point] at moved proceeds
      cases outcome with
      | counted sessions =>
          cases moved
          exact .inr ⟨rfl, sessions, rfl, claims⟩
      | fallback sessions => exact proceeds.elim
      | _ => cases moved
  | limit sessions =>
      rw [point] at moved
      have move := Point.next_move moved
      cases outcome with
      | ok =>
          cases moved
          split at claims
          case isTrue reached =>
            rcases claims with phase | phase | phase <;> cases phase
          case isFalse below => exact .inl (Int.not_le.mp below)
      | _ => cases moved
  | _ =>
      rw [point] at moved
      have move := Point.next_move moved
      rcases Point.phase_of_claims claims with query | inside
      · cases move.query query
      · exact .inl (move.claims inside)

/-- A crun child that is forked before the REGISTER is behind it or still before it. -/
theorem registering_of_call {config : Config} {proc after : Proc} {outcome : Outcome}
    (absent : proc.holds.child = .absent ∨ proc.point.phase = .registering)
    (proceeds : Proceeds proc.point outcome)
    (called : proc.call config outcome = some after) :
    (after.holds.child = .absent ∨ after.point.phase = .registering) ∨
      proc.point = .register ∧ ∃ ok, outcome = .answered ok ∨ outcome = .lost ok := by
  rcases call_eq_some.mp called with ⟨_, next, moved, rfl⟩
  change ((proc.effect proc.point outcome).holds.child = .absent ∨ next.phase = .registering) ∨ _
  rcases absent with absent | registering
  · rcases effect_child proc proc.point outcome with same | ⟨here, rfl⟩
    · rw [same]
      exact .inl (.inl absent)
    · rw [here] at moved
      cases moved
      refine .inl (.inr ?_)
      rw [Point.started]
      split <;> rfl
  · cases point : proc.point with
    | forkTimer =>
        rw [point] at moved
        rcases Outcome.unchecked_eq_some.mp moved with ⟨_, rfl⟩
        exact .inl (.inr rfl)
    | connectRegister =>
        rw [point] at moved proceeds
        rcases Outcome.checked_eq_some.mp moved with ⟨_, rfl⟩ | ⟨rfl, rfl⟩
        · exact .inl (.inr rfl)
        · exact proceeds.elim
    | register =>
        rw [point] at moved proceeds
        cases outcome with
        | answered ok => exact .inr ⟨rfl, ok, .inl rfl⟩
        | lost ok => exact .inr ⟨rfl, ok, .inr rfl⟩
        | fail => exact proceeds.elim
        | _ => cases moved
    | _ =>
        rw [point] at registering
        cases registering

theorem point_of_register {config : Config} {proc after : Proc} {outcome : Outcome} {ok : Bool}
    (here : proc.point = .register) (told : outcome = .answered ok ∨ outcome = .lost ok)
    (called : proc.call config outcome = some after) : after.point = .acceptConsole := by
  rcases call_eq_some.mp called with ⟨_, next, moved, rfl⟩
  rw [here] at moved
  rcases told with rfl | rfl
  · cases moved
    rfl
  · cases moved
    rfl

/-- A call that is not the cut wait for crun. -/
theorem waitCut_of_call {config : Config} {proc after : Proc} {outcome : Outcome}
    (proceeds : Proceeds proc.point outcome)
    (called : proc.call config outcome = some after) : after.waitCut = proc.waitCut := by
  rcases call_eq_some.mp called with ⟨_, next, _, rfl⟩
  change (proc.effect proc.point outcome).waitCut = proc.waitCut
  generalize proc.point = point at proceeds ⊢
  cases point with
  | waitChild =>
      cases outcome with
      | intr => exact proceeds.elim
      | _ => rfl
  | _ => cases outcome <;> rfl

end Proc

variable {Place Name Content : Type} [DecidableEq Place] [DecidableEq Name]
  {host : Host Place Name Content}
  {beneath : Place → Place → Bool}

namespace Host

/-- The daemon keeps running and kills no session, and no login loses an exchange before
its REGISTER or its wait for crun. -/
def Regular (state : Global Place Name Content) : HostLabel Name Content → Prop
  | .act key (.call outcome) => Proceeds (state.procs key).point outcome
  | .act key (.signal signal) =>
      (state.procs key).point.phase = .registering → signal = .winch
  | .env (.requested ctl) => ∀ account id, ¬ ctl.Names account id
  | _ => True

/-- A login only passes the limit check if there is a place for it besides the registered
sessions and all that have passed the check before and are not registered. -/
def Admits (limit : Int) (state : Global Place Name Content) : HostLabel Name Content → Prop
  | .act _ (.call (.counted sessions)) =>
      sessions < limit → limit ≤ state.shared.table.maxSessions ∧
        ∀ claims : Finset SessionKey,
          (∀ key ∈ claims, (state.procs key).point.Claims limit) →
          sessions + claims.card < limit
  | _ => True

/-- At most so many containers are running. -/
def AtMost (limit : Int) (state : Global Place Name Content) : Prop :=
  ∀ running : Finset SessionKey,
    (∀ key ∈ running, ∃ root, (state.procs key).holds.child = .running root) →
    (running.card : Int) ≤ limit

/-- There is room in the table for all that have claimed a place. -/
structure Roomy (limit : Int) (state : Global Place Name Content) : Prop where
  room : ∀ claims : Finset SessionKey,
    (∀ key ∈ claims, (state.procs key).point.Claims limit) →
    (state.shared.table.bag.card : Int) + claims.card ≤ limit
  capacity : ∀ key, (state.procs key).point.Claims limit →
    limit ≤ state.shared.table.maxSessions

omit [DecidableEq Place] [DecidableEq Name] in
/-- A step that claims no place, and adds no entry to the table, leaves room. -/
theorem Roomy.of_le {limit : Int} {state after : Global Place Name Content}
    (roomy : Roomy limit state)
    (kept : ∀ key, (after.procs key).point.Claims limit → (state.procs key).point.Claims limit)
    (fewer : after.shared.table.bag.card ≤ state.shared.table.bag.card)
    (larger : state.shared.table.maxSessions ≤ after.shared.table.maxSessions) :
    Roomy limit after where
  room claims claimed := by
    have before := roomy.room claims fun key member => kept key (claimed key member)
    omega
  capacity key claims := (roomy.capacity key (kept key claims)).trans larger

omit [DecidableEq Place] [DecidableEq Name] in
/-- A login that has passed the check claims the place that the check found. -/
theorem roomy_of_admits {limit : Int} {state after : Global Place Name Content}
    {key : SessionKey} {sessions : Int}
    (told : sessions = state.shared.table.bag.card) (below : sessions < limit)
    (admits : Admits limit state (.act key (.call (.counted sessions))))
    (others : ∀ other, other ≠ key → after.procs other = state.procs other)
    (same : after.shared.table = state.shared.table) : Roomy limit after := by
  rcases admits below with ⟨capacity, places⟩
  constructor
  · intro claims claimed
    have before := places (claims.erase key) fun other member => by
      have member := Finset.mem_erase.mp member
      rw [← others other member.1]
      exact claimed other member.2
    have size : claims.card - 1 ≤ (claims.erase key).card := Finset.pred_card_le_card_erase
    rw [same, ← told]
    omega
  · intro _ _
    rw [same]
    exact capacity

omit [DecidableEq Place] [DecidableEq Name] in
/-- A REGISTER takes the place that was claimed. -/
theorem Roomy.register {limit : Int} {state after : Global Place Name Content} {key : SessionKey}
    (roomy : Roomy limit state) (claims : (state.procs key).point.Claims limit)
    (off : ¬ (after.procs key).point.Claims limit)
    (others : ∀ other, other ≠ key → after.procs other = state.procs other)
    (more : after.shared.table.bag.card = state.shared.table.bag.card + 1)
    (same : after.shared.table.maxSessions = state.shared.table.maxSessions) :
    Roomy limit after := by
  have kept : ∀ other, (after.procs other).point.Claims limit →
      other ≠ key ∧ (state.procs other).point.Claims limit := by
    intro other claimed
    have different : other ≠ key := by
      intro equal
      rw [equal] at claimed
      exact off claimed
    rw [others other different] at claimed
    exact ⟨different, claimed⟩
  constructor
  · intro places claimed
    have absent : key ∉ places := fun member => (kept key (claimed key member)).1 rfl
    have before := roomy.room (insert key places) fun other member => by
      rcases Finset.mem_insert.mp member with rfl | inside
      · exact claims
      · exact (kept other (claimed other inside)).2
    rw [Finset.card_insert_of_notMem absent] at before
    rw [more]
    omega
  · intro other claimed
    rw [same]
    exact roomy.capacity other (kept other claimed).2

/-- What a session that is on the table, or has a container, is counted as. -/
def Covered (host : Host Place Name Content) (state : Global Place Name Content)
    (key : SessionKey) : Prop :=
  ((state.procs key).holds.child = .absent ∨ (state.procs key).point.phase = .registering) ∨
    host.Listed state key ∨ (state.procs key).Waited

omit [DecidableEq Place] [DecidableEq Name] in
/-- While there is room, a REGISTER is accepted. -/
theorem Roomy.accepted {limit : Int} {state : Global Place Name Content} {key : SessionKey}
    {answer : Answer} {after : BagState} (roomy : Roomy limit state)
    (claims : (state.procs key).point.Claims limit)
    (step : BagStep state.shared.table.view
      (.served (.register (host.entry key state.shared.clock)) answer) after) :
    answer.ok = true ∧
      after.entries = host.entry key state.shared.clock ::ₘ state.shared.table.bag := by
  rcases step.register_cases with ⟨accepted, _, stored⟩ | ⟨_, full, _⟩
  · exact ⟨accepted, stored⟩
  · have places := roomy.room {key} fun other member => by
      rw [Finset.mem_singleton.mp member]
      exact claims
    have capacity := roomy.capacity key claims
    have full : state.shared.table.maxSessions ≤ state.shared.table.bag.card := full
    rw [Finset.card_singleton] at places
    omega

omit [DecidableEq Name] in
theorem Roomy.call {limit : Int} {state after : Global Place Name Content} {key : SessionKey}
    {outcome : Outcome} (roomy : Roomy limit state) (wf : state.shared.table.WF)
    (configured : (host.config key).maxSessions = limit)
    (proceeds : Proceeds (state.procs key).point outcome)
    (admits : Admits limit state (.act key (.call outcome)))
    (called : (state.procs key).call (host.config key) outcome = some (after.procs key))
    (performed : host.Performed beneath key state.shared (state.procs key).point (.call outcome)
      after.shared)
    (others : ∀ other, other ≠ key → after.procs other = state.procs other) :
    Roomy limit after := by
  have claimed := Proc.claims_of_call proceeds called
  rw [configured] at claimed
  have kept : ((after.procs key).point.Claims limit → (state.procs key).point.Claims limit) →
      ∀ other, (after.procs other).point.Claims limit → (state.procs other).point.Claims limit :=
    fun mine => forall_procs (fun other proc => proc.point.Claims limit →
      (state.procs other).point.Claims limit) others mine fun _ claims => claims
  rcases performed.exchanged with ⟨here, ok, told, served, table⟩ | ⟨here, ok, told, table⟩ |
    ⟨_, table⟩
  · have off : ¬ (after.procs key).point.Claims limit := by
      rw [Proc.point_of_register here told called]
      rintro (phase | phase | phase) <;> cases phase
    have claims : (state.procs key).point.Claims limit := by
      rw [here]
      exact .inr (.inr rfl)
    have step := registration_step host key wf state.shared.clock
    have stored := (roomy.accepted claims step).2
    refine roomy.register claims off others ?_ ?_
    · rw [table]
      exact (congrArg Multiset.card stored).trans (Multiset.card_cons _ _)
    · rw [table]
      exact Table.maxSessions_handle _ _ _
  · have step := unregister_step key wf state.shared.clock
    refine roomy.of_le (kept ?_) ?_ ?_
    · intro claims
      rcases claimed claims with before | ⟨counting, _⟩
      · exact before
      · cases here.symm.trans counting
    · rw [table]
      rcases step.unregister_cases with ⟨entry, member, _, erased⟩ | ⟨_, unchanged⟩
      · exact (congrArg Multiset.card erased).trans_le (Multiset.card_erase_le)
      · exact (congrArg Multiset.card unchanged).le
    · rw [table, Table.maxSessions_handle]
  · by_cases before : (after.procs key).point.Claims limit → (state.procs key).point.Claims limit
    · refine roomy.of_le (kept before) ?_ ?_
      · rw [table]
      · rw [table]
    · rcases Classical.not_imp.mp before with ⟨claims, unclaimed⟩
      rcases claimed claims with claimed | ⟨counting, sessions, rfl, below⟩
      · exact (unclaimed claimed).elim
      · rw [counting] at performed
        have told := performed.told.trans (wf.count_reply state.shared.clock)
        exact roomy_of_admits told below admits others table

omit [DecidableEq Place] in
/-- Requests that kill nobody and reloads keep all entries. -/
theorem bag_of_environ {state : Global Place Name Content} {event : HostEvent Name Content}
    {after : Shared Place Name Content} (wf : state.shared.table.WF)
    (regular : Regular state (.env event))
    (moved : host.environ state.procs state.shared event = some after) :
    after.table.bag = state.shared.table.bag ∧
      state.shared.table.maxSessions ≤ after.table.maxSessions := by
  rcases table_of_environ moved with same | ⟨ctl, rfl, served⟩ | ⟨file, allocated, reloaded⟩
  · rw [same]
    exact ⟨rfl, Int.le_refl _⟩
  · rw [served]
    cases ctl with
    | list => exact ⟨rfl, Int.le_refl _⟩
    | count => exact ⟨rfl, Int.le_refl _⟩
    | kill argument => exact (regular [] _ rfl).elim
    | killUser argument => exact (regular _ [] rfl).elim
  · rw [reloaded]
    exact reload_bag wf file allocated

theorem Roomy.step {limit : Int} {state after : Global Place Name Content}
    {label : HostLabel Name Content} (roomy : Roomy limit state) (wf : state.shared.table.WF)
    (configured : ∀ key, (host.config key).maxSessions = limit)
    (regular : Regular state label) (admits : Admits limit state label)
    (step : host.system.step state label after) : Roomy limit after := by
  cases label with
  | act key action =>
      rcases step_act step with ⟨moved, performed, others⟩
      have performed := performed_of_perform performed
      rcases Proc.step_cases moved with ⟨outcome, rfl, called⟩ | ⟨signal, rfl, _, delivered⟩ |
        ⟨event, holds, rfl, _, equal⟩
      · exact roomy.call wf (configured key) regular admits called performed others
      · have table := performed.table_of_idle fun _ => nofun
        refine roomy.of_le (forall_procs (fun other proc => proc.point.Claims limit →
          (state.procs other).point.Claims limit) others ?_ fun _ claims => claims) ?_ ?_
        · rw [delivered]
          intro claims
          rcases Proc.point_deliver (state.procs key) signal with same | killed
          · rw [same] at claims
            exact claims
          · rw [killed] at claims
            rcases claims with phase | phase | phase <;> cases phase
        · rw [table]
        · rw [table]
      · have table := performed.table_of_idle fun _ => nofun
        refine roomy.of_le (forall_procs (fun other proc => proc.point.Claims limit →
          (state.procs other).point.Claims limit) others ?_ fun _ claims => claims) ?_ ?_
        · rw [equal]
          exact fun claims => claims
        · rw [table]
        · rw [table]
  | env event =>
      rcases step_env step with ⟨moved, procs⟩
      rcases bag_of_environ wf regular moved with ⟨bag, larger⟩
      refine roomy.of_le ?_ ?_ larger
      · intro key claims
        rw [procs] at claims
        exact claims
      · rw [bag]

/-- What a regular step of its own makes of a session without a registered container. -/
theorem covered_of_act {limit : Int} {state after : Global Place Name Content}
    {key : SessionKey} {action : Act} (roomy : Roomy limit state) (wf : state.shared.table.WF)
    (idle : (state.procs key).holds.child = .absent ∨
      (state.procs key).point.phase = .registering)
    (regular : Regular state (.act key action))
    (step : host.system.step state (.act key action) after) : host.Covered after key := by
  rcases step_act step with ⟨moved, performed, _⟩
  have performed := performed_of_perform performed
  rcases Proc.step_cases moved with ⟨outcome, rfl, called⟩ | ⟨signal, rfl, _, delivered⟩ |
    ⟨event, holds, rfl, progressed, equal⟩
  · rcases Proc.registering_of_call idle regular called with kept | ⟨here, ok, told⟩
    · exact .inl kept
    · rcases performed.exchanged with ⟨_, _, _, _, table⟩ | ⟨elsewhere, _⟩ | ⟨unserved, _⟩
      · have claims : (state.procs key).point.Claims limit := by
          rw [here]
          exact .inr (.inr rfl)
        have stored := (roomy.accepted claims (registration_step host key wf _)).2
        refine .inr (.inl ⟨host.entry key state.shared.clock, ?_, rfl, rfl⟩)
        rw [table]
        exact Multiset.mem_of_le (Eq.ge stored) (Multiset.mem_cons_self _ _)
      · cases here.symm.trans elsewhere
      · rcases told with answered | lost
        · exact ((unserved (.inl here) ok).1 answered).elim
        · exact ((unserved (.inl here) ok).2 lost).elim
  · rw [Covered, delivered, Proc.holds_deliver]
    rcases idle with absent | registering
    · exact .inl (.inl absent)
    · rw [Proc.point_deliver_of_handled (.inl (regular registering))]
      exact .inl (.inr registering)
  · rw [Covered, equal]
    rcases idle with absent | registering
    · exact .inl (.inl ((Holdings.progress_spec progressed).child.mpr absent))
    · exact .inl (.inr registering)

/-- A regular step keeps a session covered. -/
theorem Covered.step {limit : Int} {state after : Global Place Name Content} {key : SessionKey}
    {label : HostLabel Name Content} (covered : host.Covered state key)
    (roomy : Roomy limit state) (reachable : host.system.Reachable state)
    (regular : Regular state label) (step : host.system.step state label after) :
    host.Covered after key := by
  have spared : ¬ host.KilledBy key label := by
    cases label with
    | act other action => exact fun killed => killed
    | env event =>
        cases event with
        | requested ctl => exact regular _ _
        | _ => exact fun killed => killed
  rcases covered with idle | counted
  · cases label with
    | act other action =>
        rcases step_act step with ⟨moved, performed, others⟩
        by_cases same : key = other
        · subst same
          have everywhere := reachable.restrict_of_forall fun _ _ => trivial
          exact covered_of_act roomy (table_wf everywhere) idle regular step
        · rw [Covered, others key same]
          exact .inl idle
    | env event =>
        rw [Covered, (step_env step).2]
        exact .inl idle
  · exact .inr (listed_or_waited_step reachable counted spared step)

theorem uncut_of_regular {state : Global Place Name Content}
    (reachable : (host.system.restrict Regular).Reachable state) (key : SessionKey) :
    (state.procs key).waitCut = false := by
  have run : ((session (host.config key)).restrict fun proc act =>
      ∀ outcome, act = .call outcome → Proceeds proc.point outcome).Reachable
      (state.procs key) := by
    apply reachable_session reachable
    intro state action regular outcome called
    rw [called] at regular
    exact regular
  refine @Reachable.invariant _ _ _ (fun proc => proc.waitCut = false) _ run ?_ ?_
  · intro start initial
    cases initial
    rfl
  · intro proc act next uncut step
    rcases Proc.step_cases step.2 with ⟨outcome, rfl, called⟩ | ⟨signal, _, _, rfl⟩ |
      ⟨event, holds, _, _, rfl⟩
    · exact (Proc.waitCut_of_call (step.1 outcome rfl) called).trans uncut
    · exact (Proc.waitCut_deliver proc signal).trans uncut
    · exact uncut

omit [DecidableEq Place] [DecidableEq Name] in
/-- Sessions on the table have entries of their own. -/
theorem card_le_of_listed {state : Global Place Name Content} {listed : Finset SessionKey}
    (present : ∀ key ∈ listed, host.Listed state key) :
    listed.card ≤ state.shared.table.bag.card := by
  have inside : (listed.image SessionKey.id).val ≤
      state.shared.table.bag.map Entry.containerId := by
    rw [Multiset.le_iff_subset (Finset.nodup _)]
    intro id member
    rcases Finset.mem_image.mp member with ⟨key, found, rfl⟩
    rcases present key found with ⟨entry, stored, same, _⟩
    exact Multiset.mem_map.mpr ⟨entry, stored, same⟩
  calc listed.card
      = (listed.image SessionKey.id).card :=
        (Finset.card_image_of_injective _ SessionKey.id_injective).symm
    _ ≤ (state.shared.table.bag.map Entry.containerId).card := Multiset.card_le_card inside
    _ = state.shared.table.bag.card := Multiset.card_map _ _

omit [DecidableEq Place] [DecidableEq Name] in
/-- Running containers belong to sessions on the table or to sessions with a claim. -/
theorem Roomy.atMost {limit : Int} {state : Global Place Name Content} (roomy : Roomy limit state)
    (covered : ∀ key, host.Covered state key)
    (uncut : ∀ key, (state.procs key).waitCut = false) : AtMost limit state := by
  intro running alive
  have claims := roomy.room
    (running.filter fun key => (state.procs key).point.phase = .registering) fun key member =>
      Point.claims_of_phase (.inr (.inr (Finset.mem_filter.mp member).2))
  have listed : ∀ key ∈ running.filter fun key => ¬ (state.procs key).point.phase = .registering,
      host.Listed state key := by
    intro key member
    rcases Finset.mem_filter.mp member with ⟨inside, behind⟩
    rcases alive key inside with ⟨root, child⟩
    rcases covered key with (absent | registering) | (listed | (exited | cut))
    · cases child.symm.trans absent
    · exact (behind registering).elim
    · exact listed
    · cases child.symm.trans exited
    · cases (uncut key).symm.trans cut
  have entries := card_le_of_listed listed
  have parts := Finset.card_filter_add_card_filter_not (s := running)
    fun key => (state.procs key).point.phase = .registering
  omega

omit [DecidableEq Place] [DecidableEq Name] in
theorem roomy_start {limit : Int} (positive : 0 < limit)
    (configured : ∀ key, (host.config key).maxSessions = limit) : Roomy limit host.start := by
  have unclaimed : ∀ key, ¬ (host.start.procs key).point.Claims limit := by
    intro key
    have limited : 0 < (host.config key).maxSessions := by
      rw [configured key]
      exact positive
    have counting : (host.start.procs key).point = .count := if_pos limited
    rw [counting]
    rintro (phase | phase | phase) <;> cases phase
  have empty : host.start.shared.table.bag = 0 :=
    (reload_bag Table.WF.initial host.file true).1
  constructor
  · intro claims claimed
    have nobody : claims = ∅ :=
      Finset.eq_empty_of_forall_notMem fun key member => unclaimed key (claimed key member)
    rw [empty, nobody]
    exact positive.le
  · exact fun key claims => (unclaimed key claims).elim

/-- While each login that passes the check finds room for itself and for all other logins
between the check and their REGISTER, no more containers run than the limit says. -/
theorem atMost_of_admits {limit : Int} {state : Global Place Name Content} (positive : 0 < limit)
    (configured : ∀ key, (host.config key).maxSessions = limit)
    (reachable : (host.system.restrict fun state label =>
      Regular state label ∧ Admits limit state label).Reachable state) :
    AtMost limit state := by
  have regular := reachable.restrict_mono fun _ _ both => both.1
  have invariant : Roomy limit state ∧ ∀ key, host.Covered state key := by
    apply reachable.invariant_within
    · intro start init
      cases eq_start_of_init init
      exact ⟨roomy_start positive configured, fun key => .inl (.inl rfl)⟩
    · intro state label after reached held step
      have run := reached.of_restrict
      have wf := table_wf reached
      exact ⟨held.1.step wf configured step.1.1 step.1.2 step.2,
        fun key => (held.2 key).step held.1 run step.1.1 step.2⟩
  exact invariant.1.atMost invariant.2 (uncut_of_regular regular)

end Host

/-- No call fails, no signal is delivered, and nothing but logins uses the daemon. -/
def Smooth : HostLabel Unit Bool → Prop
  | .act _ (.call outcome) =>
      match outcome with
      | .fail => False
      | .intr => False
      | .fallback _ => False
      | .lost _ => False
      | _ => True
  | .act _ (.signal _) => False
  | .act _ (.child _) => True
  | .env (.requested _) => False
  | .env (.reloaded _ _) => False
  | .env _ => True

instance (label : HostLabel Unit Bool) : Decidable (Smooth label) := by
  unfold Smooth
  split <;> first | infer_instance | (split <;> infer_instance)

theorem Smooth.regular {state : Global Bytes Unit Bool} {label : HostLabel Unit Bool}
    (smooth : Smooth label) : Host.Regular state label := by
  cases label with
  | act key action =>
      cases action with
      | call outcome =>
          change Proceeds (state.procs key).point outcome
          rw [Proceeds.eq_def]
          split <;> first | exact smooth.elim | trivial
      | signal signal => exact smooth.elim
      | child event => trivial
  | env event =>
      cases event with
      | requested ctl => exact smooth.elim
      | _ => trivial

/-- Asking for the number of sessions while there is none. -/
def asked (key : SessionKey) : HostLabel Unit Bool := .act key (.call (.counted 0))

/-- From the passed limit check to a running container. -/
def containerUp (key : SessionKey) (root : List SessionKey) : List (HostLabel Unit Bool) :=
  actsOf key ([.call .ok] ++ startUp ++ [.child (.crunStarted root)])

/-- The label is not the answer to a COUNT of a login. -/
def Unasked : HostLabel Unit Bool → Prop
  | .act _ (.call (.counted _)) => False
  | _ => True

instance (label : HostLabel Unit Bool) : Decidable (Unasked label) := by
  unfold Unasked
  split <;> infer_instance

theorem Unasked.admits {limit : Int} {state : Global Bytes Unit Bool}
    {label : HostLabel Unit Bool} (unasked : Unasked label) : Host.Admits limit state label := by
  rw [Host.Admits.eq_def]
  split
  · exact unasked.elim
  · trivial

/-- A host with a limit of two sessions. -/
def pairHost : Host Bytes Unit Bool :=
  { sampleHost with config := fun _ => { plainConfig with maxSessions := 2 } }

/-- Only logins that have made a step claim a place. -/
theorem card_claims_le {labels : List (HostLabel Unit Bool)}
    (taken : (execute pairHost.processes.next pairHost.start labels).isSome = true)
    (claims : Finset SessionKey)
    (claimed : ∀ key ∈ claims, ((pairHost.after labels).procs key).point.Claims 2) :
    claims.card ≤ (labels.filterMap Processes.Label.actor).toFinset.card := by
  apply Finset.card_le_card
  intro key member
  by_contra idle
  have absent : some key ∉ labels.map Processes.Label.actor := by
    intro acted
    rcases List.mem_map.mp acted with ⟨label, inside, same⟩
    exact idle (List.mem_toFinset.mpr (List.mem_filterMap.mpr ⟨label, inside, same⟩))
  have claims := claimed key member
  rw [Host.procs_after taken absent] at claims
  rcases claims with phase | phase | phase <;> cases phase

/-- Two logins that ask before either has registered, where there is room for both. -/
theorem atMost_of_admits_pair :
    Host.AtMost 2 (pairHost.after ([asked firstLogin, asked secondLogin] ++
      (containerUp firstLogin [firstLogin] ++
        containerUp secondLogin [secondLogin, firstLogin]))) := by
  have begun : Host.Admits 2 (pairHost.after []) (asked firstLogin) := fun _ =>
    ⟨by decide, fun claims claimed => by
      have few := card_claims_le (by decide) claims claimed
      have none : (([] : List (HostLabel Unit Bool)).filterMap
        Processes.Label.actor).toFinset.card = 0 := rfl
      omega⟩
  have beside : Host.Admits 2 (pairHost.after [asked firstLogin]) (asked secondLogin) := fun _ =>
    ⟨by decide, fun claims claimed => by
      have few := card_claims_le (by decide) claims claimed
      have one : ([asked firstLogin].filterMap Processes.Label.actor).toFinset.card = 1 := rfl
      omega⟩
  have fresh : (pairHost.system.restrict fun state label =>
      Host.Regular state label ∧ Host.Admits 2 state label).Reachable (pairHost.after []) :=
    .of_init Host.init_start
  have asks : pairHost.system.step (pairHost.after []) (asked firstLogin)
      (pairHost.after [asked firstLogin]) := Host.step_after (by decide)
  have asksBeside : pairHost.system.step (pairHost.after [asked firstLogin]) (asked secondLogin)
      (pairHost.after ([asked firstLogin] ++ [asked secondLogin])) := Host.step_after (by decide)
  have smooth (key : SessionKey) : Smooth (asked key) := trivial
  have both := (fresh.step (And.intro ⟨(smooth _).regular, begun⟩ asks)).step
    (And.intro ⟨(smooth _).regular, beside⟩ asksBeside)
  have rest : (pairHost.system.restrict fun _ label => Smooth label ∧ Unasked label).Run
      (pairHost.after [asked firstLogin, asked secondLogin])
      (containerUp firstLogin [firstLogin] ++ containerUp secondLogin [secondLogin, firstLogin])
      (pairHost.after ([asked firstLogin, asked secondLogin] ++
        (containerUp firstLogin [firstLogin] ++
          containerUp secondLogin [secondLogin, firstLogin]))) :=
    Host.run_after_guarded (by decide) (by decide)
  have reachable := both.run (rest.restrict_mono fun _ _ quiet =>
    ⟨quiet.1.regular, quiet.2.admits⟩)
  exact Host.atMost_of_admits (by decide) (fun _ => rfl) reachable

/-- A host with a limit of one session. -/
def limitedHost : Host Bytes Unit Bool :=
  { sampleHost with
    config := fun _ => { plainConfig with maxSessions := 1 }
    file := .parsed (.int64 1) }

/-- Two logins ask before either has registered. -/
def bothAsked : List (HostLabel Unit Bool) :=
  [asked firstLogin, asked secondLogin] ++ containerUp firstLogin [firstLogin] ++
    containerUp secondLogin [secondLogin, firstLogin]

theorem limit_exceeded :
    ¬ ∀ (host : Host Bytes Unit Bool) (limit : Int) (state : Global Bytes Unit Bool), 0 < limit →
      (∀ key, (host.config key).maxSessions = limit) →
      host.initial.table.maxSessions = limit →
      (host.system.restrict fun _ label => Smooth label).Reachable state →
      Host.AtMost limit state := by
  intro always
  have reachable : (limitedHost.system.restrict fun _ label => Smooth label).Reachable
      (limitedHost.after bothAsked) := Host.reachable_after_guarded (by decide)
  have few := always limitedHost 1 _ (by decide) (fun _ => rfl) (by decide) reachable
    {firstLogin, secondLogin} fun key member => by
      rcases Finset.mem_insert.mp member with rfl | second
      · exact ⟨[firstLogin], by decide⟩
      · rw [Finset.mem_singleton.mp second]
        exact ⟨[secondLogin, firstLogin], by decide⟩
  exact absurd few (by decide)

end Caal
