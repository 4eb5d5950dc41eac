import Caal.Client.Exchange
import Caal.Daemon.Access
import Caal.Session.Program

/-!
# The two readers of `max_sessions`

The login shell takes `max_sessions` as a 64-bit limit, without one as no limit. The daemon
takes it as the capacity of its table: narrowed to 32 bits, with a default, and never less
than it was before.
-/

namespace Caal

open CMemory LTS

/-- `max_sessions` in `main` of `caalsh.c`. -/
def limitOf : TomlDatum → Int
  | .int64 value => value.toInt
  | _ => 0

/-- The limit check of `main` lets the login through. -/
def PassesLimit (datum : TomlDatum) (sessions : Int) : Prop :=
  0 < limitOf datum → sessions < limitOf datum

/-- That is how the login shell goes on. -/
theorem passesLimit_iff {config : Config} {datum : TomlDatum}
    (read : config.maxSessions = limitOf datum) (sessions : Int) :
    PassesLimit datum sessions ↔ (Proc.start config).point = .lookups ∨
      (Proc.start config).point = .count ∧ ∀ terminate watched,
        Point.next config terminate watched (.limit sessions) .ok = some .lookups := by
  rw [PassesLimit, ← read]
  change _ ↔ (if 0 < config.maxSessions then Point.count else .lookups) = .lookups ∨
    (if 0 < config.maxSessions then Point.count else .lookups) = .count ∧ ∀ _ _ : Bool,
      some (if config.maxSessions ≤ sessions then Point.exited 1 else .lookups) = some .lookups
  by_cases limited : 0 < config.maxSessions
  · by_cases reached : config.maxSessions ≤ sessions
    · simp [limited, reached]
    · simp [limited, Int.not_le.mp reached]
  · simp [limited]

/-- A REGISTER is accepted. -/
def Table.Accepts (table : Table) (username containerId : Bytes) (pid : Int32) (now : Int64) :
    Prop :=
  (table.handle (.register username containerId pid) now).response.ok = 1

theorem Table.WF.accepts_iff {table : Table} (wf : table.WF) (username containerId : Bytes)
    (pid : Int32) (now : Int64) :
    table.Accepts username containerId pid now ↔
      (table.entries.length : Int) < table.maxSessions :=
  wf.register_ok_iff (.register username containerId pid) now

/-! ## After the daemon has loaded a config -/

/-- The config stays as it is. -/
def SameConfig (datum : TomlDatum) (_ : Table) : Event → Prop
  | .served _ _ _ => True
  | .reloaded file _ => ∀ found, file = .parsed found → found = datum

/-- A table of the daemon once it has loaded a config, at its start or after any others. -/
def Loaded (datum : TomlDatum) (table : Table) : Prop :=
  ∃ before events, (before = Table.initial ∨ service.Reachable before) ∧
    (before.reloadConfig (.parsed datum) true).sessions ≠ [] ∧
    (service.restrict (SameConfig datum)).Run (before.reloadConfig (.parsed datum) true) events
      table

/-- The capacity is at least what the daemon reads. -/
theorem newMax_le_reload {table : Table} (datum : TomlDatum) :
    newMax datum ≤ (table.reloadConfig (.parsed datum) true).maxSessions := by
  rw [Table.reloadConfig]
  split
  case isTrue same => exact same.le
  case isFalse =>
    split
    case isTrue lower => exact lower.le
    case isFalse => exact Int.le_refl _

theorem Loaded.sound {datum : TomlDatum} {table : Table} (loaded : Loaded datum table) :
    table.WF ∧ newMax datum ≤ table.maxSessions := by
  rcases loaded with ⟨before, events, history, _, run⟩
  have wf : before.WF := by
    rcases history with rfl | reachable
    · exact Table.WF.initial
    · exact service_wf reachable
  apply run.preserves
  · exact ⟨(wf.reloadConfig_spec _ true).1, newMax_le_reload datum⟩
  · intro table event next held _ step
    exact ⟨step.2.wf held.1, held.2.trans (step.2.maxSessions_le held.1)⟩

/-- A positive limit below 2^31 is read the same by both. -/
theorem newMax_eq_limitOf {datum : TomlDatum} (positive : 0 < limitOf datum)
    (bounded : limitOf datum < 2 ^ 31) : newMax datum = limitOf datum := by
  cases datum with
  | int64 value =>
      have here : 0 < value := by
        rw [Int64.lt_iff_toInt_lt]
        exact positive
      change 0 < value.toInt at positive
      change value.toInt < 2 ^ 31 at bounded
      rw [newMax, if_pos here, Int64.toInt_toInt32, limitOf]
      exact Int.bmod_eq_of_le (by omega) (by omega)
  | _ => cases positive

/-- A table with room takes REGISTERs until it is full. -/
theorem exists_full {datum : TomlDatum} {table : Table} (wf : table.WF) :
    ∃ events full, (service.restrict (SameConfig datum)).Run table events full ∧
      full.maxSessions = table.maxSessions ∧ full.maxSessions = full.entries.length := by
  generalize left : (table.maxSessions - table.entries.length).toNat = free
  induction free generalizing table with
  | zero =>
      have bound := wf.length_entries_le
      exact ⟨[], table, .nil table, rfl, by omega⟩
  | succ free ih =>
      have step : service.step table (.served (.register [] [] 0) 0
          (table.handle (.register [] [] 0) 0).toReply)
          (table.handle (.register [] [] 0) 0).table := .served table _ _
      have same := Table.maxSessions_handle table (.register [] [] 0) 0
      have longer : (table.handle (.register [] [] 0) 0).table.entries.length =
          table.entries.length + 1 := by
        change (table.handleRegister (.register [] [] 0) 0).table.entries.length = _
        rcases wf.handleRegister_spec (.register [] [] 0) 0 with
          ⟨_, ⟨before, after, split, added⟩, _⟩ | ⟨full, _⟩
        · rw [added, split]
          simp only [List.length_append, List.length_cons]
          omega
        · omega
      rcases ih (step.wf wf) (by rw [same, longer]; omega) with
        ⟨events, full, run, capacity, filled⟩
      have unchanged : SameConfig datum table (.served (.register [] [] 0) 0
          (table.handle (.register [] [] 0) 0).toReply) := trivial
      exact ⟨_, full, .cons ⟨unchanged, step⟩ run, capacity.trans same, filled⟩

/-- A config that is not a positive limit below 2^31: the daemon comes to a full table, and
the login shell does not see that it is full. -/
theorem exists_disagreement {datum : TomlDatum}
    (unread : ¬ (0 < limitOf datum ∧ limitOf datum < 2 ^ 31)) :
    ∃ table, Loaded datum table ∧ table.maxSessions = table.entries.length ∧
      PassesLimit datum table.entries.length := by
  have small : service.Reachable (Table.initial.reloadConfig (.parsed (.int64 1)) true) :=
    .of_init ⟨_, _, rfl, by decide⟩
  have one : (Table.initial.reloadConfig (.parsed (.int64 1)) true).maxSessions = 1 := by decide
  rcases (service_wf small).reloadConfig_spec (.parsed datum) true with ⟨wf, _, larger⟩
  have allocated : ((Table.initial.reloadConfig (.parsed (.int64 1)) true).reloadConfig
      (.parsed datum) true).sessions ≠ [] := by
    intro empty
    have length := wf.allocated
    rw [empty] at length
    rw [one, length] at larger
    cases larger
  rcases exists_full wf with ⟨events, full, run, _, filled⟩
  have loaded : Loaded datum full := ⟨_, events, .inr small, allocated, run⟩
  have bound := loaded.sound.1.length_entries_lt
  refine ⟨full, loaded, filled, ?_⟩
  intro positive
  omega

/-- The login shell passes its limit check only when the daemon will accept its REGISTER,
whatever the daemon has loaded before and whatever its table holds, exactly if `max_sessions`
is a positive number below 2^31. -/
theorem readers_agree_iff (datum : TomlDatum) :
    (∀ table, Loaded datum table → ∀ counted registered username containerId pid,
      PassesLimit datum (table.handle .count counted).response.count.toInt →
      table.Accepts username containerId pid registered) ↔
      0 < limitOf datum ∧ limitOf datum < 2 ^ 31 := by
  constructor
  · intro agree
    by_contra unread
    rcases exists_disagreement unread with ⟨table, loaded, full, passes⟩
    have wf := loaded.sound.1
    have accepted := agree table loaded 0 0 [] [] 0 (by rw [wf.count_reply]; exact passes)
    exact absurd ((wf.accepts_iff [] [] 0 0).mp accepted) (by omega)
  · rintro ⟨positive, bounded⟩ table loaded counted registered username containerId pid passes
    rcases loaded.sound with ⟨wf, capacity⟩
    rw [wf.count_reply] at passes
    rw [newMax_eq_limitOf positive bounded] at capacity
    rw [wf.accepts_iff]
    have below := passes positive
    omega

/-- `max_sessions = 4294967297` is one slot for the daemon. -/
def narrowedTable : Table :=
  ((Table.initial.reloadConfig (.parsed (.int64 4294967297)) true).handle
    (.register [97] [98] 100) 0).table

theorem readers_disagree :
    ¬ ∀ datum table, Loaded datum table → ∀ counted registered username containerId pid,
      PassesLimit datum (table.handle .count counted).response.count.toInt →
      table.Accepts username containerId pid registered := by
  intro agree
  have unchanged : SameConfig (.int64 4294967297)
      (Table.initial.reloadConfig (.parsed (.int64 4294967297)) true)
      (.served (.register [97] [98] 100) 0 ((Table.initial.reloadConfig
        (.parsed (.int64 4294967297)) true).handle (.register [97] [98] 100) 0).toReply) := trivial
  have loaded : Loaded (.int64 4294967297) narrowedTable :=
    ⟨Table.initial, _, .inl rfl, by decide, .single ⟨unchanged, .served _ _ _⟩⟩
  have passes : PassesLimit (.int64 4294967297)
      (narrowedTable.handle .count 0).response.count.toInt := fun _ => by decide
  have accepted := agree _ _ loaded 0 0 [97] [99] 101 passes
  exact absurd accepted (by rw [Table.Accepts]; decide)

end Caal
