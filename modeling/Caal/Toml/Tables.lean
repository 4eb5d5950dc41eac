import Caal.Toml.Parser

/-!
# Tables and lookups

What the parser's changes to the tables do to later lookups: a section that is opened and
filled can be looked up under its path exactly if the path was vacant, and nothing else
becomes a string.
-/

namespace Caal.Toml

open CMemory

/-! ## One table -/

section Entries

variable {key other : Bytes} {value : Datum} {entries : Entries}

theorem tomlGet_append (found : Bytes) :
    tomlGet key (entries ++ [(found, value)]) =
      (tomlGet key entries).or (if cstr found = key then some value else none) := by
  induction entries with
  | nil => simp [tomlGet]
  | cons entry entries ih =>
      rw [List.cons_append, tomlGet, tomlGet]
      split
      · rfl
      · exact ih

theorem tabFind_append (found : Bytes) :
    tabFind key (entries ++ [(found, value)]) =
      (tabFind key entries).or (if found = key then some value else none) := by
  induction entries with
  | nil => simp [tabFind]
  | cons entry entries ih =>
      rw [List.cons_append, tabFind, tabFind]
      split
      · rfl
      · exact ih

theorem tabFind_tabSet (present : (tabFind key entries).isSome = true) :
    tabFind key (tabSet key value entries) = some value := by
  induction entries with
  | nil => cases present
  | cons entry entries ih =>
      rw [tabFind] at present
      rw [tabSet]
      by_cases here : entry.1 = key
      · rw [if_pos here, tabFind, if_pos here]
      · rw [if_neg here] at present
        rw [if_neg here, tabFind, if_neg here, ih present]

theorem tabSet_tabSet (old : Datum) :
    tabSet key value (tabSet key old entries) = tabSet key value entries := by
  induction entries with
  | nil => rfl
  | cons entry entries ih =>
      rw [tabSet, tabSet]
      by_cases here : entry.1 = key
      · rw [if_pos here, if_pos here, tabSet, if_pos here]
      · rw [if_neg here, if_neg here, tabSet, if_neg here, ih]

theorem tabSet_append (absent : tabFind key entries = none) (old : Datum) :
    tabSet key value (entries ++ [(key, old)]) = entries ++ [(key, value)] := by
  induction entries with
  | nil => simp [tabSet]
  | cons entry entries ih =>
      rw [tabFind] at absent
      by_cases here : entry.1 = key
      · rw [if_pos here] at absent
        cases absent
      · rw [if_neg here] at absent
        rw [List.cons_append, tabSet, if_neg here, ih absent, List.cons_append]

theorem tabAdd_eq_some {after : Entries} :
    tabAdd key value entries = some after ↔
      tabFind key entries = none ∧ entries.length < tableMax ∧
        after = entries ++ [(key, value)] := by
  rw [tabAdd]
  cases tabFind key entries with
  | some old => simp
  | none =>
      dsimp only
      split
      · rename_i room
        simp [room, eq_comm]
      · rename_i full
        simp [full]

/-- A lookup behind a changed entry finds what it found before, or the change. -/
theorem tomlGet_tabSet (looked : Bytes) :
    tomlGet looked (tabSet key value entries) = tomlGet looked entries ∨
      cstr key = looked ∧ tomlGet looked (tabSet key value entries) = some value ∧
        tomlGet looked entries = tabFind key entries := by
  induction entries with
  | nil => exact .inl rfl
  | cons entry entries ih =>
      rw [tabSet, tomlGet, tabFind]
      by_cases here : entry.1 = key
      · rw [if_pos here, tomlGet, here]
        by_cases hit : cstr key = looked
        · right
          rw [if_pos hit, if_pos hit, if_pos rfl]
          exact ⟨hit, rfl, rfl⟩
        · left
          rw [if_neg hit, if_neg hit]
      · rw [if_neg here, tomlGet]
        by_cases hit : cstr entry.1 = looked
        · left
          rw [if_pos hit, if_pos hit]
        · rw [if_neg hit, if_neg hit, if_neg here]
          exact ih

end Entries

/-! ## Strings that can be looked up -/

section Strings

variable {key text : Bytes} {path : List Bytes} {old new value : Datum}
  {flags flags' : Flags} {entries after : Entries}

theorem Datum.descend_cases {datum : Datum} {rebuild : Flags → Entries → Datum}
    (descends : datum.descend = some (flags, entries, rebuild)) :
    (datum = .table flags entries ∧ rebuild = .table) ∨
      ∃ inlined elements, datum = .array inlined elements ∧
        elements.getLast? = some (.table flags entries) ∧
        rebuild = fun flags entries =>
          .array inlined (elements.dropLast ++ [.table flags entries]) := by
  cases datum with
  | table found inner =>
      cases descends
      exact .inl ⟨rfl, rfl⟩
  | array inlined elements =>
      right
      rw [Datum.descend] at descends
      split at descends
      · rename_i last
        cases descends
        exact ⟨inlined, elements, rfl, last, rfl⟩
      · cases descends
  | string _ => cases descends
  | int64 _ => cases descends
  | boolean _ => cases descends
  | scalar => cases descends

theorem seekFrom_array_ne_string (inlined : Bool) (elements : List Datum) (path : List Bytes) :
    seekFrom path (.array inlined elements) ≠ some (.string text) := by
  cases path <;> nofun

/-- Where a changed entry has no new strings but at certain paths, the table has none but
behind that entry. -/
theorem string_tabSet {fresh : List Bytes → Prop}
    (unchanged : ∀ {path : List Bytes}, seekFrom path new = some (.string text) →
      seekFrom path old = some (.string text) ∨ fresh path)
    (present : tabFind key entries = some old)
    (sought : seekFrom path (.table flags (tabSet key new entries)) = some (.string text)) :
    seekFrom path (.table flags' entries) = some (.string text) ∨
      ∃ rest, path = cstr key :: rest ∧ fresh rest := by
  cases path with
  | nil => cases sought
  | cons first rest =>
      rw [seekFrom] at sought ⊢
      rcases @tomlGet_tabSet key new entries first with same | ⟨hit, changed, before⟩
      · rw [same] at sought
        exact .inl sought
      · rw [changed] at sought
        rw [before, present]
        rcases unchanged sought with there | isFresh
        · exact .inl there
        · exact .inr ⟨rest, by rw [hit], isFresh⟩

theorem string_append
    (sought : seekFrom path (.table flags (entries ++ [(key, new)])) = some (.string text)) :
    seekFrom path (.table flags' entries) = some (.string text) ∨
      ∃ rest, path = cstr key :: rest ∧ seekFrom rest new = some (.string text) := by
  cases path with
  | nil => cases sought
  | cons first rest =>
      rw [seekFrom, tomlGet_append] at sought
      rw [seekFrom]
      cases found : tomlGet first entries with
      | some datum =>
          rw [found] at sought
          exact .inl sought
      | none =>
          rw [found, Option.none_or] at sought
          split at sought
          · rename_i hit
            exact .inr ⟨rest, by rw [hit], sought⟩
          · cases sought

/-- A change inside a table, or inside the last one of an array, seen from the outside. -/
theorem string_rebuild {fresh : List Bytes → Prop} {datum : Datum} {inner inner' : Entries}
    {rebuild : Flags → Entries → Datum}
    (descends : datum.descend = some (flags, inner, rebuild))
    (unchanged : ∀ {path : List Bytes},
      seekFrom path (.table flags' inner') = some (.string text) →
      seekFrom path (.table flags inner) = some (.string text) ∨ fresh path)
    (sought : seekFrom path (rebuild flags' inner') = some (.string text)) :
    seekFrom path datum = some (.string text) ∨ fresh path := by
  rcases Datum.descend_cases descends with ⟨rfl, rfl⟩ | ⟨inlined, elements, rfl, _, rfl⟩
  · exact unchanged sought
  · exact (seekFrom_array_ne_string _ _ path sought).elim

/-- An entry that is added without strings adds none. -/
theorem string_append_nothing (nothing : ∀ path, seekFrom path new ≠ some (.string text))
    (sought : seekFrom path (.table flags (entries ++ [(key, new)])) = some (.string text)) :
    seekFrom path (.table flags' entries) = some (.string text) := by
  rcases string_append sought with there | ⟨rest, _, behind⟩
  · exact there
  · exact (nothing rest behind).elim

/-- An entry that is changed without new strings adds none. -/
theorem string_tabSet_nothing
    (unchanged : ∀ {path : List Bytes}, seekFrom path new = some (.string text) →
      seekFrom path old = some (.string text))
    (present : tabFind key entries = some old)
    (sought : seekFrom path (.table flags (tabSet key new entries)) = some (.string text)) :
    seekFrom path (.table flags' entries) = some (.string text) := by
  rcases @string_tabSet _ _ _ _ _ _ flags' _ (fun _ => False)
    (fun found => .inl (unchanged found)) present sought with there | ⟨_, _, never⟩
  · exact there
  · exact never.elim

theorem string_rebuild_nothing {datum : Datum} {inner inner' : Entries}
    {rebuild : Flags → Entries → Datum}
    (descends : datum.descend = some (flags, inner, rebuild))
    (unchanged : ∀ {path : List Bytes},
      seekFrom path (.table flags' inner') = some (.string text) →
      seekFrom path (.table flags inner) = some (.string text))
    (sought : seekFrom path (rebuild flags' inner') = some (.string text)) :
    seekFrom path datum = some (.string text) := by
  rcases @string_rebuild _ _ _ _ (fun _ => False) _ _ _ _ descends
    (fun found => .inl (unchanged found)) sought with there | never
  · exact there
  · exact never.elim

theorem seekFrom_nil_ne_string (path : List Bytes) :
    seekFrom path (.table flags []) ≠ some (.string text) := by
  cases path <;> nofun

/-- Opening a section makes no string. -/
theorem openTable_strings {opened : Entries}
    (opens : openTable path flags entries = some opened) {looked : List Bytes}
    (sought : seekFrom looked (.table flags' opened) = some (.string text)) :
    seekFrom looked (.table flags' entries) = some (.string text) := by
  fun_induction openTable path flags entries generalizing opened looked flags' with
  | case1 flags entries => cases opens
  | case2 last flags entries absent inlined => cases opens
  | case3 last flags entries absent notInlined =>
      rcases tabAdd_eq_some.mp opens with ⟨_, _, rfl⟩
      exact string_append_nothing seekFrom_nil_ne_string sought
  | case4 last flags entries found inner present closed => cases opens
  | case5 last flags entries found inner present implicit =>
      cases opens
      apply string_tabSet_nothing ?_ present sought
      intro path inside
      cases path with
      | nil => cases inside
      | cons first rest => exact inside
  | case6 last flags entries value notTable present => cases opens
  | case7 key path flags entries more absent ih =>
      rcases Option.bind_eq_some_iff.mp opens with ⟨inner, opensInner, added⟩
      rcases tabAdd_eq_some.mp added with ⟨_, _, rfl⟩
      apply string_append_nothing ?_ sought
      intro path inside
      exact seekFrom_nil_ne_string path (ih opensInner inside)
  | case8 key path flags entries more value present found inner rebuild descends ih =>
      rcases Option.map_eq_some_iff.mp opens with ⟨inner', opensInner, rfl⟩
      apply string_tabSet_nothing ?_ present sought
      exact string_rebuild_nothing descends (ih opensInner)
  | case9 key path flags entries more value present stuck => cases opens

/-- Nor does adding a table to an array. -/
theorem openArray_strings {opened : Entries}
    (opens : openArray path entries = some opened) {looked : List Bytes}
    (sought : seekFrom looked (.table flags opened) = some (.string text)) :
    seekFrom looked (.table flags entries) = some (.string text) := by
  fun_induction openArray path entries generalizing opened looked flags with
  | case1 entries => cases opens
  | case2 last entries absent =>
      rcases tabAdd_eq_some.mp opens with ⟨_, _, rfl⟩
      exact string_append_nothing (seekFrom_array_ne_string _ _) sought
  | case3 last entries inlined elements present closed => cases opens
  | case4 last entries inlined elements present room =>
      cases opens
      apply string_tabSet_nothing ?_ present sought
      intro path inside
      exact (seekFrom_array_ne_string _ _ path inside).elim
  | case5 last entries value notArray present => cases opens
  | case6 key path entries more absent ih =>
      rcases Option.bind_eq_some_iff.mp opens with ⟨inner, opensInner, added⟩
      rcases tabAdd_eq_some.mp added with ⟨_, _, rfl⟩
      apply string_append_nothing ?_ sought
      intro path inside
      exact seekFrom_nil_ne_string path (ih opensInner inside)
  | case7 key path entries more elements present => cases opens
  | case8 key path entries more value dynamic present found inner rebuild descends ih =>
      rcases Option.map_eq_some_iff.mp opens with ⟨inner', opensInner, rfl⟩
      apply string_tabSet_nothing ?_ present sought
      exact string_rebuild_nothing descends (ih opensInner)
  | case9 key path entries more value dynamic present stuck => cases opens

/-- A value set under a name in the table at a path makes no string but there. -/
theorem changeAt_strings {name : Bytes} (leaf : ∀ rest, seekFrom rest value = some (.string text) →
      rest = [] ∧ value = .string text)
    (changed : changeAt (addValue value false [name]) path flags entries = some after)
    {looked : List Bytes}
    (sought : seekFrom looked (.table flags' after) = some (.string text)) :
    seekFrom looked (.table flags' entries) = some (.string text) ∨
      looked = (path ++ [name]).map cstr ∧ value = .string text := by
  fun_induction changeAt (addValue value false [name]) path flags entries
    generalizing after looked flags' with
  | case1 flags entries =>
      rw [addValue] at changed
      split at changed
      · cases changed
      · rcases tabAdd_eq_some.mp changed with ⟨_, _, rfl⟩
        rcases string_append sought with there | ⟨rest, equal, behind⟩
        · exact .inl there
        · rcases leaf rest behind with ⟨rfl, isText⟩
          exact .inr ⟨equal, isText⟩
  | case2 key path flags entries found inner rebuild reaches ih =>
      rcases Option.map_eq_some_iff.mp changed with ⟨inner', changedInner, rfl⟩
      rcases Option.bind_eq_some_iff.mp reaches with ⟨datum, present, descends⟩
      rcases @string_tabSet _ _ _ _ _ _ flags' _
          (fun rest => rest = (path ++ [name]).map cstr ∧ value = .string text)
          (fun inside => string_rebuild descends (ih changedInner) inside) present sought with
        there | ⟨rest, equal, behind, isText⟩
      · exact .inl there
      · right
        rw [equal, behind]
        exact ⟨rfl, isText⟩
  | case3 key path flags entries stuck => cases changed

end Strings

/-! ## Vacant sections -/

/-- The entry that `toml_get` finds. -/
def tomlEntry (key : Bytes) (entries : Entries) : Option (Bytes × Datum) :=
  entries.find? fun entry => cstr entry.1 == key

/-- A section can be opened at the path, takes four entries, and is what lookups of the
path find: each part is new, or a table that is found under its own key, and the last is
new, or a table that only headers of sections inside it have named. -/
def Vacant : List Bytes → Flags → Entries → Prop
  | [], _, _ => False
  | key :: path, flags, entries =>
      match tomlEntry key entries with
      | none => entries.length < tableMax ∧ (path = [] → flags.inlined = false)
      | some (found, .table inside inner) =>
          found = key ∧
            if path = [] then
              inside.explicit = false ∧ inside.stdExpr = true ∧ inside.inlined = false ∧
                inner.length + 4 ≤ tableMax
            else Vacant path inside inner
      | some _ => False

section Vacant

variable {key : Bytes} {value : Datum} {flags : Flags} {entries : Entries} {path : List Bytes}

theorem tomlGet_eq_tomlEntry : tomlGet key entries = (tomlEntry key entries).map Prod.snd := by
  induction entries with
  | nil => rfl
  | cons entry entries ih =>
      rw [tomlGet, tomlEntry, List.find?_cons]
      by_cases hit : cstr entry.1 = key
      · simp [hit]
      · simp only [hit, if_false, beq_eq_false_iff_ne.mpr hit]
        exact ih

/-- A key that is a C string is found by `toml_get` where it is found exactly, if by
nothing before. -/
theorem tabFind_of_tomlEntry (plain : cstr key = key) :
    (tomlEntry key entries = none → tabFind key entries = none) ∧
      (tomlEntry key entries = some (key, value) → tabFind key entries = some value) := by
  induction entries with
  | nil => exact ⟨fun _ => rfl, nofun⟩
  | cons entry entries ih =>
      rw [tomlEntry, List.find?_cons, tabFind]
      by_cases keyEq : entry.1 = key
      · rw [if_pos keyEq, keyEq, plain, beq_self_eq_true]
        exact ⟨nofun, fun found => congrArg (Option.map Prod.snd) found⟩
      · rw [if_neg keyEq]
        by_cases hit : cstr entry.1 = key
        · rw [beq_iff_eq.mpr hit]
          refine ⟨nofun, ?_⟩
          intro found
          cases found
          exact (keyEq rfl).elim
        · rw [beq_eq_false_iff_ne.mpr hit]
          exact ih

/-- Changing an entry is seen by lookups of its key exactly if they find it. -/
theorem tomlGet_changed (plain : cstr key = key) (present : (tabFind key entries).isSome = true)
    (found : Bytes) (old : Datum) (first : tomlEntry key entries = some (found, old)) :
    tomlGet key (tabSet key value entries) = if found = key then some value else some old := by
  induction entries with
  | nil => cases first
  | cons entry entries ih =>
      rw [tomlEntry, List.find?_cons] at first
      rw [tabFind] at present
      rw [tabSet]
      by_cases keyEq : entry.1 = key
      · rw [keyEq, plain, beq_self_eq_true] at first
        cases first
        rw [if_pos keyEq, tomlGet, if_pos keyEq, keyEq, if_pos plain]
      · rw [if_neg keyEq] at present ⊢
        rw [tomlGet]
        by_cases hit : cstr entry.1 = key
        · rw [beq_iff_eq.mpr hit] at first
          cases first
          rw [if_pos hit, if_neg keyEq]
        · rw [beq_eq_false_iff_ne.mpr hit] at first
          rw [if_neg hit]
          exact ih present first

/-- The table that a header has opened, with the tables around it as a function of its
entries. -/
structure Place (path : List Bytes) (flags : Flags) where
  inside : Flags
  inner : Entries
  rebuild : Entries → Entries
  changes : ∀ (change : Flags → Entries → Option Entries) (entries : Entries),
    changeAt change path flags (rebuild entries) = (change inside entries).map rebuild

/-- Lookups of the path lead to the opened table. -/
structure Place.Seen (place : Place path flags) (before : Entries) : Prop where
  visible : ∀ rest inner, seekFrom (path ++ rest) (.table flags (place.rebuild inner)) =
    seekFrom rest (.table place.inside inner)
  already : ∀ name, seekFrom (path ++ [name]) (.table flags before) = tomlGet name place.inner
  vacant : Vacant path flags before ↔
    place.inside.inlined = false ∧ place.inner.length + 4 ≤ tableMax

/-- Lookups of the path lead elsewhere, and find no new strings. -/
structure Place.Hidden (place : Place path flags) (before : Entries) : Prop where
  unseen : ∀ rest inner text,
    seekFrom (path ++ rest) (.table flags (place.rebuild inner)) = some (.string text) →
    seekFrom (path ++ rest) (.table flags before) = some (.string text)
  taken : ¬ Vacant path flags before

theorem descend_rebuild {datum : Datum} {rebuild : Flags → Entries → Datum}
    (descends : datum.descend = some (flags, entries, rebuild)) (marked : Flags)
    (inner : Entries) : (rebuild marked inner).descend = some (marked, inner, rebuild) := by
  rcases Datum.descend_cases descends with ⟨_, rfl⟩ | ⟨inlined, elements, _, _, rfl⟩
  · rfl
  · simp [Datum.descend]

/-- The place behind a key that the table did not have. -/
def Place.behindNew {inside : Flags} (place : Place path inside)
    (absent : tabFind key entries = none) : Place (key :: path) flags where
  inside := place.inside
  inner := place.inner
  rebuild inner := entries ++ [(key, .table inside (place.rebuild inner))]
  changes change inner := by
    rw [changeAt, tabFind_append, absent, Option.none_or, if_pos rfl]
    simp only [Option.bind_some, Datum.descend, place.changes, Option.map_map]
    congr 1
    funext changed
    exact tabSet_append absent _

/-- The place behind a key of the table, which may have been marked on the way. -/
def Place.behind {datum : Datum} {rebuild : Flags → Entries → Datum} {inner : Entries}
    {inside marked : Flags} (place : Place path marked)
    (present : tabFind key entries = some datum)
    (descends : datum.descend = some (inside, inner, rebuild)) : Place (key :: path) flags where
  inside := place.inside
  inner := place.inner
  rebuild inner := tabSet key (rebuild marked (place.rebuild inner)) entries
  changes change inner := by
    have isThere : (tabFind key entries).isSome = true := by rw [present]; rfl
    rw [changeAt, tabFind_tabSet isThere, Option.bind_some, descend_rebuild descends marked]
    simp only [place.changes, Option.map_map]
    congr 1
    funext changed
    exact tabSet_tabSet _

/-- The place at the end of a path. -/
def Place.here (flags : Flags) (entries : Entries) : Place [] flags where
  inside := flags
  inner := entries
  rebuild := id
  changes change inner := by
    rw [changeAt]
    exact Option.map_id.symm ▸ rfl

theorem vacant_nil (more : path ≠ []) (notInlined : flags.inlined = false) :
    Vacant path flags [] := by
  cases path with
  | nil => exact (more rfl).elim
  | cons key path => exact ⟨by decide, fun _ => notInlined⟩

theorem tomlGet_none_of_new (absent : tomlEntry key entries = none) :
    tomlGet key entries = none := by
  rw [tomlGet_eq_tomlEntry, absent]
  rfl

/-- Behind a key that no lookup found there is only what the header has made. -/
theorem Place.behindNew_seen {inside : Flags} {place : Place path inside}
    (plain : cstr key = key) (absent : tabFind key entries = none)
    (unfound : tomlEntry key entries = none)
    (visible : ∀ rest inner, seekFrom (path ++ rest) (.table inside (place.rebuild inner)) =
      seekFrom rest (.table place.inside inner))
    (empty : ∀ name, tomlGet name place.inner = none)
    (vacant : Vacant (key :: path) flags entries ↔
      place.inside.inlined = false ∧ place.inner.length + 4 ≤ tableMax) :
    (place.behindNew absent : Place (key :: path) flags).Seen entries where
  visible rest inner := by
    change (tomlGet key (entries ++ [(key, .table inside (place.rebuild inner))])).bind
      (seekFrom (path ++ rest)) = _
    rw [tomlGet_append, tomlGet_none_of_new unfound, plain, if_pos rfl]
    exact visible rest inner
  already name := by
    change (tomlGet key entries).bind (seekFrom (path ++ [name])) = tomlGet name place.inner
    rw [tomlGet_none_of_new unfound, empty]
    rfl
  vacant := vacant

/-- A new key that has the same C string as one before it is not found. -/
theorem Place.behindNew_hidden {inside : Flags} {place : Place path inside} {found : Bytes}
    {old : Datum} (plain : cstr key = key) (absent : tabFind key entries = none)
    (first : tomlEntry key entries = some (found, old)) :
    (place.behindNew absent : Place (key :: path) flags).Hidden entries where
  unseen rest inner text sought := by
    change (tomlGet key (entries ++ [(key, .table inside (place.rebuild inner))])).bind
      (seekFrom (path ++ rest)) = _ at sought
    rw [tomlGet_append, tomlGet_eq_tomlEntry, first] at sought
    change (tomlGet key entries).bind (seekFrom (path ++ rest)) = _
    rw [tomlGet_eq_tomlEntry, first]
    exact sought
  taken vacant := by
    rw [Vacant, first] at vacant
    cases old with
    | table inside inner =>
        rw [(vacant : found = key ∧ _).1] at first
        rw [(tabFind_of_tomlEntry plain).2 first] at absent
        cases absent
    | _ => exact vacant

/-- Behind a table that lookups find, they see what they see inside it. -/
theorem Place.behind_seen {inside marked : Flags} {inner : Entries} {place : Place path marked}
    (plain : cstr key = key) (present : tabFind key entries = some (.table inside inner))
    (first : tomlEntry key entries = some (key, .table inside inner))
    (visible : ∀ rest inner, seekFrom (path ++ rest) (.table marked (place.rebuild inner)) =
      seekFrom rest (.table place.inside inner))
    (already : ∀ name, seekFrom (path ++ [name]) (.table inside inner) = tomlGet name place.inner)
    (vacant : Vacant (key :: path) flags entries ↔
      place.inside.inlined = false ∧ place.inner.length + 4 ≤ tableMax) :
    (place.behind present rfl : Place (key :: path) flags).Seen entries where
  visible rest inner' := by
    have isThere : (tabFind key entries).isSome = true := by rw [present]; rfl
    change (tomlGet key (tabSet key (.table marked (place.rebuild inner')) entries)).bind
      (seekFrom (path ++ rest)) = _
    rw [tomlGet_changed plain isThere key _ first, if_pos rfl]
    exact visible rest inner'
  already name := by
    change (tomlGet key entries).bind (seekFrom (path ++ [name])) = tomlGet name place.inner
    rw [tomlGet_eq_tomlEntry, first]
    exact already name
  vacant := vacant

/-- Behind an entry that lookups do not find, or that they find nothing new behind, they
see no new strings. -/
theorem Place.behind_hidden {datum old : Datum} {rebuild : Flags → Entries → Datum}
    {inner : Entries} {inside marked : Flags} {place : Place path marked} {found : Bytes}
    (plain : cstr key = key) (present : tabFind key entries = some datum)
    (descends : datum.descend = some (inside, inner, rebuild))
    (first : tomlEntry key entries = some (found, old))
    (unseen : found = key → ∀ rest inner' text,
      seekFrom (path ++ rest) (rebuild marked (place.rebuild inner')) = some (.string text) →
      seekFrom (path ++ rest) old = some (.string text))
    (taken : ¬ Vacant (key :: path) flags entries) :
    (place.behind present descends : Place (key :: path) flags).Hidden entries where
  unseen rest inner' text sought := by
    have isThere : (tabFind key entries).isSome = true := by rw [present]; rfl
    change (tomlGet key (tabSet key (rebuild marked (place.rebuild inner')) entries)).bind
      (seekFrom (path ++ rest)) = _ at sought
    change (tomlGet key entries).bind (seekFrom (path ++ rest)) = _
    rw [tomlGet_changed plain isThere found old first] at sought
    rw [tomlGet_eq_tomlEntry, first]
    by_cases same : found = key
    · rw [if_pos same] at sought
      exact unseen same rest inner' text sought
    · rw [if_neg same] at sought
      exact sought
  taken := taken

/-- An entry that is there is found under its key, or hidden behind another one. -/
theorem tomlEntry_of_tabFind (plain : cstr key = key) (present : tabFind key entries = some value) :
    ∃ found old, tomlEntry key entries = some (found, old) ∧ (found = key → old = value) := by
  cases first : tomlEntry key entries with
  | none =>
      rw [(@tabFind_of_tomlEntry _ value _ plain).1 first] at present
      cases present
  | some entry =>
      refine ⟨entry.1, entry.2, rfl, ?_⟩
      intro same
      have keyEq : tomlEntry key entries = some (key, entry.2) := by rw [first, ← same]
      rw [(tabFind_of_tomlEntry plain).2 keyEq] at present
      exact Option.some.inj present

theorem not_vacant_of_other {found : Bytes} {old : Datum} (other : found ≠ key)
    (first : tomlEntry key entries = some (found, old)) : ¬ Vacant (key :: path) flags entries := by
  rw [Vacant, first]
  cases old with
  | table inside inner => exact fun vacant => other vacant.1
  | _ => exact id

theorem openTable_place {after : Entries} (plain : ∀ key ∈ path, cstr key = key)
    (opens : openTable path flags entries = some after) :
    ∃ place : Place path flags, after = place.rebuild place.inner ∧
      (place.Seen entries ∨ place.Hidden entries) := by
  fun_induction openTable path flags entries generalizing after with
  | case1 flags entries => cases opens
  | case2 last flags entries absent inlined => cases opens
  | case3 last flags entries absent notInlined =>
      rcases tabAdd_eq_some.mp opens with ⟨_, room, rfl⟩
      have lastPlain : cstr last = last := plain last (List.mem_cons_self)
      refine ⟨(Place.here .opened []).behindNew absent, rfl, ?_⟩
      cases first : tomlEntry last entries with
      | none =>
          left
          apply Place.behindNew_seen lastPlain absent first
          · intro rest inner
            rfl
          · intro name
            rfl
          · rw [Vacant, first]
            exact iff_of_true ⟨room, fun _ => Bool.eq_false_of_not_eq_true notInlined⟩
              ⟨rfl, by decide⟩
      | some entry => exact .inr (Place.behindNew_hidden lastPlain absent first)
  | case4 last flags entries found inner present closed => cases opens
  | case5 last flags entries found inner present implicit =>
      cases opens
      have lastPlain : cstr last = last := plain last (List.mem_cons_self)
      rcases tomlEntry_of_tabFind lastPlain present with ⟨name, old, first, same⟩
      refine ⟨(Place.here { found with explicit := true } inner).behind present rfl, rfl, ?_⟩
      by_cases keyEq : name = last
      · left
        cases keyEq
        cases same rfl
        apply Place.behind_seen lastPlain present first
        · intro rest inner
          rfl
        · intro name
          change (tomlGet name inner).bind (seekFrom []) = tomlGet name inner
          cases tomlGet name inner <;> rfl
        · simp only [Bool.or_eq_true, Bool.not_eq_true', not_or, Bool.not_eq_true,
            Bool.not_eq_false] at implicit
          rw [Vacant, first]
          exact (and_iff_right rfl).trans <| (iff_of_eq (if_pos rfl)).trans <|
            (and_iff_right implicit.1).trans (and_iff_right implicit.2)
      · right
        exact Place.behind_hidden lastPlain present rfl first (fun equal => (keyEq equal).elim)
          (not_vacant_of_other keyEq first)
  | case6 last flags entries value notTable present => cases opens
  | case7 key path flags entries more absent ih =>
      rcases Option.bind_eq_some_iff.mp opens with ⟨inner, opensInner, added⟩
      rcases tabAdd_eq_some.mp added with ⟨_, room, rfl⟩
      have keyPlain : cstr key = key := plain key (List.mem_cons_self)
      rcases ih (fun part member => plain part (List.mem_cons_of_mem _ member)) opensInner with
        ⟨place, rfl, seen | hidden⟩
      · refine ⟨place.behindNew absent, rfl, ?_⟩
        cases first : tomlEntry key entries with
        | none =>
            left
            apply Place.behindNew_seen keyPlain absent first seen.visible
            · intro name
              rw [← seen.already name]
              cases path with
              | nil => exact (more rfl).elim
              | cons next path => rfl
            · rw [Vacant, first, ← seen.vacant]
              exact iff_of_true ⟨room, fun none => (more none).elim⟩ (vacant_nil more rfl)
        | some entry => exact .inr (Place.behindNew_hidden keyPlain absent first)
      · exact (hidden.taken (vacant_nil more rfl)).elim
  | case8 key path flags entries more value present found inner rebuild descends ih =>
      rcases Option.map_eq_some_iff.mp opens with ⟨inner', opensInner, rfl⟩
      have keyPlain : cstr key = key := plain key (List.mem_cons_self)
      rcases ih (fun part member => plain part (List.mem_cons_of_mem _ member)) opensInner with
        ⟨place, rfl, sight⟩
      rcases tomlEntry_of_tabFind keyPlain present with ⟨name, old, first, same⟩
      refine ⟨place.behind present descends, rfl, ?_⟩
      by_cases keyEq : name = key
      · cases keyEq
        cases same rfl
        rcases Datum.descend_cases descends with ⟨rfl, rfl⟩ | ⟨inlined, elements, rfl, _, rfl⟩
        · have inside : Vacant (key :: path) flags entries ↔ Vacant path found inner := by
            rw [Vacant, first]
            exact (and_iff_right rfl).trans (by rw [if_neg more])
          rcases sight with seen | hidden
          · left
            exact Place.behind_seen keyPlain present first seen.visible seen.already
              (inside.trans seen.vacant)
          · right
            apply Place.behind_hidden keyPlain present rfl first
            · intro _ rest inner' text
              exact hidden.unseen rest inner' text
            · rw [inside]
              exact hidden.taken
        · right
          apply Place.behind_hidden keyPlain present descends first
          · intro _ rest inner' text sought
            exact (seekFrom_array_ne_string _ _ _ sought).elim
          · rw [Vacant, first]
            exact id
      · right
        exact Place.behind_hidden keyPlain present descends first
          (fun equal => (keyEq equal).elim) (not_vacant_of_other keyEq first)
  | case9 key path flags entries more value present stuck => cases opens

/-- A vacant path can be opened. -/
theorem exists_openTable (plain : ∀ key ∈ path, cstr key = key)
    (vacant : Vacant path flags entries) : ∃ after, openTable path flags entries = some after := by
  induction path generalizing flags entries with
  | nil => exact vacant.elim
  | cons key path ih =>
      have keyPlain : cstr key = key := plain key (List.mem_cons_self)
      have restPlain : ∀ part ∈ path, cstr part = part := fun part member =>
        plain part (List.mem_cons_of_mem _ member)
      rw [Vacant] at vacant
      cases first : tomlEntry key entries with
      | none =>
          rw [first] at vacant
          have absent : tabFind key entries = none :=
            (@tabFind_of_tomlEntry _ .scalar _ keyPlain).1 first
          cases path with
          | nil =>
              rw [openTable, absent]
              exact ⟨_, (if_neg (by rw [vacant.2 rfl]; nofun)).trans
                (tabAdd_eq_some.mpr ⟨absent, vacant.1, rfl⟩)⟩
          | cons next path =>
              rcases ih restPlain (vacant_nil (List.cons_ne_nil next path) rfl :
                Vacant _ .passed []) with ⟨inner, opensInner⟩
              rw [openTable, absent, opensInner]
              · exact ⟨_, tabAdd_eq_some.mpr ⟨absent, vacant.1, rfl⟩⟩
              · nofun
      | some entry =>
          rcases entry with ⟨found, old⟩
          rw [first] at vacant
          cases old with
          | table inside inner =>
              rcases vacant with ⟨rfl, vacant⟩
              have present := (tabFind_of_tomlEntry keyPlain).2 first
              cases path with
              | nil =>
                  rw [if_pos rfl] at vacant
                  rw [openTable, present]
                  simp [vacant.1, vacant.2.1]
              | cons next path =>
                  rw [if_neg (List.cons_ne_nil next path)] at vacant
                  rcases ih restPlain vacant with ⟨inner', opensInner⟩
                  rw [openTable, present]
                  · simp [Datum.descend, opensInner]
                  · nofun
          | _ => exact vacant.elim

end Vacant

/-! ## Keys without NUL -/

section NulFree

variable {key : Bytes} {value : Datum} {flags flags' : Flags} {entries : Entries}
  {path : List Bytes}

/-- No key of a table has a NUL in it, and no key of the tables that lookups reach from it. -/
inductive NulFree : Datum → Prop where
  | table {flags : Flags} {entries : Entries}
      (keys : ∀ key value, (key, value) ∈ entries → 0 ∉ key)
      (values : ∀ key value, (key, value) ∈ entries → NulFree value) :
      NulFree (.table flags entries)
  | value {datum : Datum} (noTable : ∀ flags entries, datum ≠ .table flags entries) :
      NulFree datum

theorem nulFree_table :
    NulFree (.table flags entries) ↔
      ∀ key value, (key, value) ∈ entries → 0 ∉ key ∧ NulFree value := by
  constructor
  · intro free
    cases free with
    | table keys values =>
        exact fun key value member => ⟨keys key value member, values key value member⟩
    | value noTable => exact (noTable flags entries rfl).elim
  · intro both
    exact .table (fun key value member => (both key value member).1)
      (fun key value member => (both key value member).2)

theorem mem_of_tabFind (found : tabFind key entries = some value) : (key, value) ∈ entries := by
  induction entries with
  | nil => cases found
  | cons entry entries ih =>
      rw [tabFind] at found
      split at found
      · rename_i here
        cases found
        cases here
        exact List.mem_cons_self
      · exact List.mem_cons_of_mem _ (ih found)

theorem mem_tabSet {new : Datum} {entry : Bytes × Datum}
    (member : entry ∈ tabSet key new entries) : entry ∈ entries ∨ entry = (key, new) := by
  induction entries with
  | nil => cases member
  | cons first entries ih =>
      rw [tabSet] at member
      split at member
      · rename_i here
        rcases List.mem_cons.mp member with rfl | inside
        · right
          rw [here]
        · exact .inl (List.mem_cons_of_mem _ inside)
      · rcases List.mem_cons.mp member with rfl | inside
        · exact .inl List.mem_cons_self
        · rcases ih inside with old | new
          · exact .inl (List.mem_cons_of_mem _ old)
          · exact .inr new

theorem NulFree.tabSet {new : Datum} (free : NulFree (.table flags entries)) (keyFree : 0 ∉ key)
    (newFree : NulFree new) : NulFree (.table flags' (tabSet key new entries)) := by
  rw [nulFree_table] at free ⊢
  intro other datum member
  rcases mem_tabSet member with old | equal
  · exact free other datum old
  · cases equal
    exact ⟨keyFree, newFree⟩

theorem NulFree.append {new : Datum} (free : NulFree (.table flags entries)) (keyFree : 0 ∉ key)
    (newFree : NulFree new) : NulFree (.table flags' (entries ++ [(key, new)])) := by
  rw [nulFree_table] at free ⊢
  intro other datum member
  rcases List.mem_append.mp member with old | equal
  · exact free other datum old
  · cases List.mem_singleton.mp equal
    exact ⟨keyFree, newFree⟩

theorem NulFree.nil : NulFree (.table flags []) :=
  .table nofun nofun

theorem NulFree.tabFind (free : NulFree (.table flags entries))
    (found : tabFind key entries = some value) : NulFree value :=
  (nulFree_table.mp free key value (mem_of_tabFind found)).2

theorem openTable_nulFree {after : Entries} (plain : ∀ key ∈ path, 0 ∉ key)
    (opens : openTable path flags entries = some after) (free : NulFree (.table flags entries)) :
    NulFree (.table flags' after) := by
  fun_induction openTable path flags entries generalizing after flags' with
  | case1 flags entries => cases opens
  | case2 last flags entries absent inlined => cases opens
  | case3 last flags entries absent notInlined =>
      rcases tabAdd_eq_some.mp opens with ⟨_, _, rfl⟩
      exact free.append (plain last List.mem_cons_self) .nil
  | case4 last flags entries found inner present closed => cases opens
  | case5 last flags entries found inner present implicit =>
      cases opens
      have old := nulFree_table.mp (free.tabFind present)
      exact free.tabSet (plain last List.mem_cons_self) (nulFree_table.mpr old)
  | case6 last flags entries value notTable present => cases opens
  | case7 key path flags entries more absent ih =>
      rcases Option.bind_eq_some_iff.mp opens with ⟨inner, opensInner, added⟩
      rcases tabAdd_eq_some.mp added with ⟨_, _, rfl⟩
      have inside : NulFree (.table .passed inner) :=
        ih (fun part member => plain part (List.mem_cons_of_mem _ member)) opensInner .nil
      exact free.append (plain key List.mem_cons_self) inside
  | case8 key path flags entries more value present found inner rebuild descends ih =>
      rcases Option.map_eq_some_iff.mp opens with ⟨inner', opensInner, rfl⟩
      apply free.tabSet (plain key List.mem_cons_self)
      rcases Datum.descend_cases descends with ⟨rfl, rfl⟩ | ⟨inlined, elements, _, _, rfl⟩
      · exact ih (fun part member => plain part (List.mem_cons_of_mem _ member)) opensInner
          (free.tabFind present)
      · exact .value nofun
  | case9 key path flags entries more value present stuck => cases opens

/-- Where no key has a NUL in it, lookups find what the parser finds. -/
theorem NulFree.tomlGet (free : NulFree (.table flags entries)) (key : Bytes) :
    tomlGet key entries = Toml.tabFind key entries := by
  rw [nulFree_table] at free
  induction entries with
  | nil => rfl
  | cons entry entries ih =>
      have first := (free entry.1 entry.2 List.mem_cons_self).1
      have rest := ih fun key value member => free key value (List.mem_cons_of_mem _ member)
      rw [Toml.tomlGet, Toml.tabFind, cstr_of_zero_free first, rest]

theorem NulFree.seekFrom {datum found : Datum} (free : NulFree datum)
    (sought : seekFrom path datum = some found) : NulFree found := by
  induction path generalizing datum with
  | nil =>
      cases sought
      exact free
  | cons key path ih =>
      cases datum with
      | table flags entries =>
          rcases Option.bind_eq_some_iff.mp sought with ⟨inside, got, behind⟩
          rw [free.tomlGet] at got
          exact ih (free.tabFind got) behind
      | _ => cases sought

end NulFree

/-! ## Filling a section -/

/-- Entries added one after the other to the table at a path. -/
def addEntries (path : List Bytes) : List (Bytes × Datum) → Entries → Option Entries
  | [], toptab => some toptab
  | (name, value) :: items, toptab =>
      (changeAt (addValue value false [name]) path .none toptab).bind (addEntries path items)

section Filled

variable {path : List Bytes} {toptab opened filled : Entries} {items : List (Bytes × Datum)}

theorem addValue_eq_some {name : Bytes} {value : Datum} {flags : Flags}
    {entries after : Entries} :
    addValue value false [name] flags entries = some after ↔
      flags.inlined = false ∧ tabFind name entries = none ∧ entries.length < tableMax ∧
        after = entries ++ [(name, value)] := by
  rw [addValue, Bool.false_and, Bool.or_false, ← tabAdd_eq_some]
  cases flags.inlined <;> simp

/-- What is added to an opened table is added behind what it has. -/
theorem addEntries_place {place : Place path .none} {entries : Entries}
    (adds : addEntries path items (place.rebuild entries) = some filled) :
    ∃ inner, filled = place.rebuild inner ∧ inner.length = entries.length + items.length ∧
      (items ≠ [] → place.inside.inlined = false ∧ inner.length ≤ tableMax) := by
  induction items generalizing entries with
  | nil =>
      cases adds
      exact ⟨entries, rfl, rfl, fun none => (none rfl).elim⟩
  | cons item items ih =>
      rcases item with ⟨name, value⟩
      rw [addEntries, place.changes] at adds
      rcases Option.bind_eq_some_iff.mp adds with ⟨next, changed, addsRest⟩
      rcases Option.map_eq_some_iff.mp changed with ⟨longer, added, rfl⟩
      rcases addValue_eq_some.mp added with ⟨notInlined, _, room, rfl⟩
      rcases ih addsRest with ⟨inner, rfl, lengthEq, bound⟩
      rw [List.length_append, List.length_singleton] at lengthEq
      refine ⟨inner, rfl, ?_, fun _ => ⟨notInlined, ?_⟩⟩
      · rw [lengthEq, List.length_cons]
        omega
      · cases items with
        | nil =>
            rw [List.length_nil] at lengthEq
            omega
        | cons next items => exact (bound (List.cons_ne_nil _ _)).2

theorem addEntries_eq {place : Place path .none} {entries : Entries}
    (notInlined : place.inside.inlined = false) (room : entries.length + items.length ≤ tableMax)
    (distinct : (items.map Prod.fst).Nodup)
    (absent : ∀ name ∈ items.map Prod.fst, tabFind name entries = none) :
    addEntries path items (place.rebuild entries) = some (place.rebuild (entries ++ items)) := by
  induction items generalizing entries with
  | nil => rw [List.append_nil, addEntries]
  | cons item items ih =>
      rcases item with ⟨name, value⟩
      rw [List.map_cons, List.nodup_cons] at distinct
      rw [List.length_cons] at room
      have added : addValue value false [name] place.inside entries =
          some (entries ++ [(name, value)]) :=
        addValue_eq_some.mpr
          ⟨notInlined, absent name (List.mem_cons_self), by omega, rfl⟩
      rw [addEntries, place.changes, added, Option.map_some, Option.bind_some, ih]
      · rw [List.append_assoc, List.singleton_append]
      · rw [List.length_append, List.length_singleton]
        omega
      · exact distinct.2
      · intro other member
        rw [tabFind_append, absent other (List.mem_cons_of_mem _ member), Option.none_or]
        apply if_neg
        rintro rfl
        exact distinct.1 member

theorem tomlGet_of_mem {name : Bytes} {value : Datum}
    (plain : ∀ name ∈ items.map Prod.fst, cstr name = name)
    (distinct : (items.map Prod.fst).Nodup) (member : (name, value) ∈ items) :
    tomlGet name items = some value := by
  induction items with
  | nil => cases member
  | cons item items ih =>
      rw [List.map_cons, List.nodup_cons] at distinct
      rw [tomlGet]
      have itemPlain : cstr item.1 = item.1 := plain item.1 (List.mem_cons_self)
      rcases List.mem_cons.mp member with rfl | later
      · rw [if_pos itemPlain]
      · have other : cstr item.1 ≠ name := by
          rw [itemPlain]
          rintro rfl
          exact distinct.1 (List.mem_map.mpr ⟨_, later, rfl⟩)
        rw [if_neg other]
        exact ih (fun name member => plain name (List.mem_cons_of_mem _ member)) distinct.2 later

theorem tomlGet_append_entries {key : Bytes} (entries : Entries) :
    tomlGet key (entries ++ items) = (tomlGet key entries).or (tomlGet key items) := by
  induction entries with
  | nil => rfl
  | cons entry entries ih =>
      rw [List.cons_append, tomlGet, tomlGet, ih]
      split <;> rfl

/-- At a vacant path a section with up to four entries can be opened and filled, and
lookups find them. -/
theorem exists_filled (plain : ∀ key ∈ path, cstr key = key)
    (vacant : Vacant path .none toptab) (few : items.length ≤ 4)
    (plainNames : ∀ name ∈ items.map Prod.fst, cstr name = name)
    (distinct : (items.map Prod.fst).Nodup)
    (unset : ∀ name ∈ items.map Prod.fst,
      seekFrom (path ++ [name]) (.table .none toptab) = none) :
    ∃ opened filled, openTable path .none toptab = some opened ∧
      addEntries path items opened = some filled ∧
      ∀ name value, (name, value) ∈ items →
        seekFrom (path ++ [name]) (.table .none filled) = some value := by
  rcases exists_openTable plain vacant with ⟨opened, opens⟩
  rcases openTable_place plain opens with ⟨place, rfl, seen | hidden⟩
  · rcases seen.vacant.mp vacant with ⟨notInlined, room⟩
    have absent : ∀ name ∈ items.map Prod.fst, tomlGet name place.inner = none := by
      intro name member
      rw [← seen.already name]
      exact unset name member
    have unfound : ∀ name ∈ items.map Prod.fst, tabFind name place.inner = none := by
      intro name member
      apply (@tabFind_of_tomlEntry name .scalar _ (plainNames name member)).1
      have nothing := absent name member
      rw [tomlGet_eq_tomlEntry] at nothing
      exact Option.map_eq_none_iff.mp nothing
    refine ⟨_, _, opens, addEntries_eq notInlined (by omega) distinct unfound, ?_⟩
    intro name value member
    have named : name ∈ items.map Prod.fst := List.mem_map_of_mem member
    rw [seen.visible]
    change (tomlGet name (place.inner ++ items)).bind (seekFrom []) = some value
    rw [tomlGet_append_entries, absent name named, Option.none_or,
      tomlGet_of_mem plainNames distinct member]
    rfl
  · exact (hidden.taken vacant).elim

/-- No entry is added twice. -/
theorem addEntries_absent {place : Place path .none} {entries : Entries}
    (adds : addEntries path items (place.rebuild entries) = some filled) :
    ∀ name ∈ items.map Prod.fst, tabFind name entries = none := by
  induction items generalizing entries with
  | nil => nofun
  | cons item items ih =>
      rcases item with ⟨first, value⟩
      rw [addEntries, place.changes] at adds
      rcases Option.bind_eq_some_iff.mp adds with ⟨next, changed, addsRest⟩
      rcases Option.map_eq_some_iff.mp changed with ⟨longer, added, rfl⟩
      rcases addValue_eq_some.mp added with ⟨_, absent, _, rfl⟩
      intro name member
      rcases List.mem_cons.mp member with rfl | later
      · exact absent
      · have unfound := ih addsRest name later
        rw [tabFind_append, Option.or_eq_none_iff] at unfound
        exact unfound.1

/-- A section in which four entries were added, and lookups of its path find a string that
was not there, was vacant. If keys have no NUL, lookups found none of the entries. -/
theorem vacant_of_filled (plain : ∀ key ∈ path, cstr key = key)
    (opens : openTable path .none toptab = some opened)
    (adds : addEntries path items opened = some filled) (four : items.length = 4)
    {name text : Bytes}
    (found : seekFrom (path ++ [name]) (.table .none filled) = some (.string text))
    (fresh : seekFrom (path ++ [name]) (.table .none toptab) ≠ some (.string text)) :
    Vacant path .none toptab ∧
      (NulFree (.table .none toptab) → ∀ name ∈ items.map Prod.fst,
        seekFrom (path ++ [name]) (.table .none toptab) = none) := by
  have plainKeys : ∀ key ∈ path, 0 ∉ key := fun key member =>
    plain key member ▸ zero_notMem_cstr key
  rcases openTable_place plain opens with ⟨place, rfl, seen | hidden⟩
  · have absent := addEntries_absent adds
    rcases addEntries_place adds with ⟨inner, rfl, lengthEq, bound⟩
    have nonempty : items ≠ [] := by
      rintro rfl
      cases four
    have room := bound nonempty
    refine ⟨seen.vacant.mpr ⟨room.1, by omega⟩, fun free name member => ?_⟩
    have here : seekFrom path (.table .none (place.rebuild place.inner)) =
        some (.table place.inside place.inner) := by
      have visible := seen.visible [] place.inner
      rw [List.append_nil] at visible
      exact visible
    have innerFree := NulFree.seekFrom (openTable_nulFree plainKeys opens free) here
    rw [seen.already, innerFree.tomlGet]
    exact absent name member
  · rcases addEntries_place adds with ⟨inner, rfl, _⟩
    exact (fresh (hidden.unseen _ _ _ found)).elim

/-- Entries that are no tables add no strings but their own. -/
theorem addEntries_strings
    (leaves : ∀ entry ∈ items, ∀ rest text, seekFrom rest entry.2 = some (.string text) →
      rest = [] ∧ entry.2 = .string text)
    (adds : addEntries path items toptab = some filled) {looked : List Bytes} {text : Bytes}
    (found : seekFrom looked (.table .none filled) = some (.string text)) :
    seekFrom looked (.table .none toptab) = some (.string text) ∨
      ∃ name, (name, .string text) ∈ items ∧ looked = (path ++ [name]).map cstr := by
  induction items generalizing toptab with
  | nil =>
      cases adds
      exact .inl found
  | cons item items ih =>
      rcases item with ⟨name, value⟩
      rcases Option.bind_eq_some_iff.mp adds with ⟨next, changed, addsRest⟩
      have laterLeaves := fun entry member => leaves entry (List.mem_cons_of_mem _ member)
      rcases ih laterLeaves addsRest with before | ⟨later, member, named⟩
      · rcases changeAt_strings (fun rest => leaves (name, value) List.mem_cons_self rest text)
          changed before with old | ⟨named, rfl⟩
        · exact .inl old
        · exact .inr ⟨name, List.mem_cons_self, named⟩
      · exact .inr ⟨later, List.mem_cons_of_mem _ member, named⟩

end Filled

end Caal.Toml
