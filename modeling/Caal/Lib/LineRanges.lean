import Mathlib.Data.List.Basic

/-!
# Deleting a range of lines

Texts whose lines fall into parts, each opened by a line of a certain form, and the idiom
`/hit/,/opens/{//!d}; /hit/d` of a stream editor, which is meant to delete the parts whose
first line is hit. Lines are of any type, and `hit` and `opens` any tests of them.
-/

universe u

namespace LineRanges

variable {Line : Type u}

/-! ## Texts in parts -/

/-- A line that opens a part, with the lines up to the next such line. -/
structure Part (opens : Line → Bool) where
  header : Line
  body : List Line
  opening : opens header = true
  plain : ∀ line ∈ body, opens line = false

/-- A text: the lines before the first part, and its parts. -/
structure Text (opens : Line → Bool) where
  preamble : List Line
  parts : List (Part opens)
  plain : ∀ line ∈ preamble, opens line = false

variable {opens : Line → Bool}

def Part.lines (part : Part opens) : List Line :=
  part.header :: part.body

def Text.lines (text : Text opens) : List Line :=
  text.preamble ++ text.parts.flatMap Part.lines

/-- Every list of lines is a text. -/
theorem exists_text (opens : Line → Bool) (lines : List Line) :
    ∃ text : Text opens, text.lines = lines := by
  induction lines with
  | nil => exact ⟨⟨[], [], nofun⟩, rfl⟩
  | cons line lines ih =>
      rcases ih with ⟨⟨preamble, parts, plain⟩, rfl⟩
      cases opening : opens line with
      | true =>
          refine ⟨⟨[], ⟨line, preamble, opening, plain⟩ :: parts, nofun⟩, ?_⟩
          simp [Text.lines, Part.lines]
      | false =>
          refine ⟨⟨line :: preamble, parts, ?_⟩, rfl⟩
          intro other member
          rcases List.mem_cons.mp member with rfl | inside
          · exact opening
          · exact plain other inside

/-! ## The editor -/

/-- One cycle of the script: whether the line is deleted, and whether the range goes on. In
the range the empty expression is the one that was tried last: the second address, and on
the first line of a range the first one. -/
def cycle (hit opens : Line → Bool) (active : Bool) (line : Line) : Bool × Bool :=
  if active then
    if opens line then (hit line, false) else (true, true)
  else (hit line, hit line)

/-- Which lines of a text are deleted. -/
def deletions (hit opens : Line → Bool) : Bool → List Line → List Bool
  | _, [] => []
  | active, line :: lines =>
      (cycle hit opens active line).1 ::
        deletions hit opens (cycle hit opens active line).2 lines

/-- Whether the range goes on behind the lines. -/
def activeAfter (hit opens : Line → Bool) : Bool → List Line → Bool
  | active, [] => active
  | active, line :: lines => activeAfter hit opens (cycle hit opens active line).2 lines

/-- The lines that are not deleted. -/
def keep : List Bool → List Line → List Line
  | deleted :: marks, line :: lines =>
      if deleted then keep marks lines else line :: keep marks lines
  | _, _ => []

variable {hit : Line → Bool}

@[simp] theorem length_deletions (active : Bool) (lines : List Line) :
    (deletions hit opens active lines).length = lines.length := by
  induction lines generalizing active with
  | nil => rfl
  | cons line lines ih => simp [deletions, ih]

theorem deletions_append (active : Bool) (first second : List Line) :
    deletions hit opens active (first ++ second) =
      deletions hit opens active first ++
        deletions hit opens (activeAfter hit opens active first) second := by
  induction first generalizing active with
  | nil => rfl
  | cons line lines ih => simp [deletions, activeAfter, ih]

theorem activeAfter_append (active : Bool) (first second : List Line) :
    activeAfter hit opens active (first ++ second) =
      activeAfter hit opens (activeAfter hit opens active first) second := by
  induction first generalizing active with
  | nil => rfl
  | cons line lines ih => exact ih _

@[simp] theorem keep_append {marks : List Bool} {lines : List Line}
    (lengths : marks.length = lines.length) (marks' : List Bool) (lines' : List Line) :
    keep (marks ++ marks') (lines ++ lines') = keep marks lines ++ keep marks' lines' := by
  induction lines generalizing marks with
  | nil =>
      rw [List.length_eq_zero_iff.mp lengths]
      rfl
  | cons line lines ih =>
      cases marks with
      | nil => cases lengths
      | cons deleted marks =>
          have rest := ih (Nat.succ.inj lengths)
          cases deleted with
          | true => exact rest
          | false => exact congrArg (line :: ·) rest

@[simp] theorem keep_map_true (lines : List Line) : keep (lines.map fun _ => true) lines = [] := by
  induction lines with
  | nil => rfl
  | cons line lines ih => exact ih

@[simp] theorem keep_map_false (lines : List Line) :
    keep (lines.map fun _ => false) lines = lines := by
  induction lines with
  | nil => rfl
  | cons line lines ih => exact congrArg (line :: ·) ih

theorem forall_of_keep_nil {marks : List Bool} {lines : List Line}
    (lengths : marks.length = lines.length) (kept : keep marks lines = []) :
    ∀ mark ∈ marks, mark = true := by
  induction marks generalizing lines with
  | nil => nofun
  | cons mark marks ih =>
      cases lines with
      | nil => cases lengths
      | cons line lines =>
          cases mark with
          | false => cases kept
          | true =>
              intro other member
              rcases List.mem_cons.mp member with rfl | later
              · rfl
              · exact ih (Nat.succ.inj lengths) kept other later

/-- A line that is hit is deleted, in a range and outside. -/
theorem hit_of_mem_keep {active : Bool} {lines : List Line} {line : Line}
    (member : line ∈ keep (deletions hit opens active lines) lines) : hit line = false := by
  induction lines generalizing active with
  | nil => cases member
  | cons first lines ih =>
      simp only [deletions, keep] at member
      cases deleted : (cycle hit opens active first).1 with
      | true =>
          rw [deleted, if_pos rfl] at member
          exact ih member
      | false =>
          rw [deleted, if_neg Bool.false_ne_true] at member
          rcases List.mem_cons.mp member with rfl | inside
          · rw [cycle] at deleted
            split at deleted
            · split at deleted
              · exact deleted
              · cases deleted
            · exact deleted
          · exact ih inside

/-! ### Lines that open no part -/

section Plain

variable {lines : List Line} (plain : ∀ line ∈ lines, opens line = false)

include plain

/-- A range goes on to the next line that opens a part. -/
theorem deletions_active :
    deletions hit opens true lines = lines.map (fun _ => true) ∧
      activeAfter hit opens true lines = true := by
  induction lines with
  | nil => exact ⟨rfl, rfl⟩
  | cons line lines ih =>
      have here : cycle hit opens true line = (true, true) := by
        simp [cycle, plain line List.mem_cons_self]
      have rest := ih fun other member => plain other (List.mem_cons_of_mem line member)
      simp only [deletions, activeAfter, here, List.map_cons]
      exact ⟨congrArg (true :: ·) rest.1, rest.2⟩

omit plain in
/-- Lines outside a range are kept if none is hit. -/
theorem deletions_idle (missed : ∀ line ∈ lines, hit line = false) :
    deletions hit opens false lines = lines.map (fun _ => false) ∧
      activeAfter hit opens false lines = false := by
  induction lines with
  | nil => exact ⟨rfl, rfl⟩
  | cons line lines ih =>
      have here : cycle hit opens false line = (false, false) := by
        simp [cycle, missed line List.mem_cons_self]
      have rest := ih fun other member => missed other (List.mem_cons_of_mem line member)
      simp only [deletions, activeAfter, here, List.map_cons]
      exact ⟨congrArg (false :: ·) rest.1, rest.2⟩

omit plain in
theorem deletions_idle_iff :
    deletions hit opens false lines = lines.map (fun _ => false) ↔
      ∀ line ∈ lines, hit line = false := by
  constructor
  · intro kept
    induction lines with
    | nil => exact nofun
    | cons line lines ih =>
        simp only [deletions, cycle, Bool.false_eq_true, if_false, List.map_cons,
          List.cons.injEq] at kept
        rcases kept with ⟨missed, rest⟩
        rw [missed] at rest
        intro other member
        rcases List.mem_cons.mp member with rfl | inside
        · exact missed
        · exact ih rest other inside
  · exact fun missed => (deletions_idle missed).1

omit plain in
/-- A part behind the lines is deleted and nothing else exactly if its header is hit and none of
the lines is. -/
theorem keep_part_iff {part : Part opens} :
    keep (deletions hit opens false (lines ++ part.lines)) (lines ++ part.lines) = lines ↔
      (∀ line ∈ lines, hit line = false) ∧ hit part.header = true := by
  have split : (∀ line ∈ lines, hit line = false) →
      keep (deletions hit opens false (lines ++ part.lines)) (lines ++ part.lines) =
        lines ++ keep (deletions hit opens false part.lines) part.lines := by
    intro missed
    rw [deletions_append, keep_append (length_deletions _ _), (deletions_idle missed).1,
      (deletions_idle missed).2, keep_map_false]
  constructor
  · intro kept
    have missed : ∀ line ∈ lines, hit line = false := by
      intro line member
      rw [← kept] at member
      exact hit_of_mem_keep member
    refine ⟨missed, ?_⟩
    rw [split missed, List.append_right_eq_self] at kept
    by_contra unhit
    simp [Part.lines, deletions, cycle, keep, unhit] at kept
  · rintro ⟨missed, hits⟩
    have deleted : deletions hit opens false part.lines = part.lines.map fun _ => true := by
      simp [Part.lines, deletions, cycle, hits, (deletions_active part.plain).1]
    rw [split missed, deleted, keep_map_true, List.append_nil]

/-- A range can only be opened again by the first line. -/
theorem deletions_reopened_iff :
    deletions hit opens false lines = lines.map (fun _ => true) ↔
      ∀ line ∈ lines.head?, hit line = true := by
  cases lines with
  | nil => exact iff_of_true rfl nofun
  | cons line lines =>
      simp only [deletions, cycle, Bool.false_eq_true, if_false, List.map_cons, List.cons.injEq,
        List.head?_cons, Option.mem_def, Option.some.injEq, forall_eq']
      refine ⟨fun deleted => deleted.1, fun first => ⟨first, ?_⟩⟩
      rw [first]
      exact (deletions_active fun other member =>
        plain other (List.mem_cons_of_mem line member)).1

theorem activeAfter_reopened (first : ∀ line ∈ lines.head?, hit line = true) :
    activeAfter hit opens false lines = !lines.isEmpty := by
  cases lines with
  | nil => rfl
  | cons line lines =>
      have here : hit line = true := first line rfl
      simp only [activeAfter, cycle, Bool.false_eq_true, if_false, here]
      exact (deletions_active fun other member =>
        plain other (List.mem_cons_of_mem line member)).2

end Plain

/-! ## What is meant to be deleted -/

section Named

variable (hit : Line → Bool) (named : Line → Bool)

/-- The parts with a named first line are deleted, and nothing else. -/
def Text.deletions (text : Text opens) : List Bool :=
  text.preamble.map (fun _ => false) ++
    text.parts.flatMap fun part => part.lines.map fun _ => named part.header

/-- The text without the named parts. -/
def Text.without (text : Text opens) : Text opens :=
  { text with parts := text.parts.filter fun part => !named part.header }

/-- Of named parts that follow one another, those whose header ends a range have nothing
that the range would have to delete. -/
def Apart : Bool → List (Part opens) → Prop
  | _, [] => True
  | active, part :: parts =>
      if named part.header then
        if active then
          (∀ line ∈ part.body.head?, hit line = true) ∧ Apart (!part.body.isEmpty) parts
        else Apart true parts
      else Apart false parts

/-- The test hits exactly the named headers outside the named parts, and no two named parts
are in each other's way. -/
structure Selective (text : Text opens) : Prop where
  preamble : ∀ line ∈ text.preamble, hit line = false
  headers : ∀ part ∈ text.parts, hit part.header = named part.header
  bodies : ∀ part ∈ text.parts, named part.header = false → ∀ line ∈ part.body, hit line = false
  apart : Apart hit named false text.parts

variable {hit named}

/-- Nothing is meant to be deleted from a text without named parts. -/
theorem deletions_none_iff (text : Text opens) :
    text.deletions named = text.lines.map (fun _ => false) ↔
      ∀ part ∈ text.parts, named part.header = false := by
  constructor
  · intro none part member
    by_contra name
    have marked : true ∈ text.deletions named := by
      apply List.mem_append_right
      refine List.mem_flatMap.mpr ⟨part, member, List.mem_map.mpr ⟨part.header, ?_, ?_⟩⟩
      · exact List.mem_cons_self
      · exact eq_true_of_ne_false name
    rw [none] at marked
    rcases List.mem_map.mp marked with ⟨_, _, unmarked⟩
    cases unmarked
  · intro absent
    rw [Text.deletions, Text.lines, List.map_append, List.map_flatMap]
    apply congrArg (text.preamble.map (fun _ => false) ++ ·)
    apply List.flatMap_congr
    intro part member
    rw [absent part member]

theorem keep_deletions (text : Text opens) :
    keep (text.deletions named) text.lines = (text.without named).lines := by
  rw [Text.deletions, Text.lines, keep_append (List.length_map _), keep_map_false, Text.lines]
  apply congrArg (text.preamble ++ ·)
  change keep _ (text.parts.flatMap Part.lines) =
    (text.parts.filter fun part => !named part.header).flatMap Part.lines
  induction text.parts with
  | nil => rfl
  | cons part parts ih =>
      rw [List.flatMap_cons, List.flatMap_cons, keep_append (List.length_map _), ih]
      cases name : named part.header with
      | true =>
          rw [keep_map_true, List.filter_cons_of_neg (by simp [name]), List.nil_append]
      | false =>
          rw [keep_map_false, List.filter_cons_of_pos (by simp [name]), List.flatMap_cons]

/-- What a part needs of the script, by whether a range is open before it. -/
def Part.Handled (hit named : Line → Bool) (active : Bool) (part : Part opens) : Prop :=
  hit part.header = named part.header ∧
    if named part.header then
      active = true → ∀ line ∈ part.body.head?, hit line = true
    else ∀ line ∈ part.body, hit line = false

/-- One part: its lines are deleted as they should exactly if it is handled. -/
theorem deletions_part_iff (active : Bool) (part : Part opens) :
    LineRanges.deletions hit opens active part.lines =
        (part.lines.map fun _ => named part.header) ↔
      part.Handled hit named active := by
  rw [Part.lines, Part.Handled]
  simp only [LineRanges.deletions, List.map_cons, List.cons.injEq]
  have first : (cycle hit opens active part.header).1 = hit part.header := by
    cases active <;> simp [cycle, part.opening]
  rw [first]
  refine and_congr_right fun equal => ?_
  cases active with
  | true =>
      have closed : (cycle hit opens true part.header).2 = false := by simp [cycle, part.opening]
      rw [closed]
      cases name : named part.header with
      | true => simpa using deletions_reopened_iff part.plain
      | false => simpa using deletions_idle_iff
  | false =>
      have next : (cycle hit opens false part.header).2 = named part.header := by
        simp [cycle, equal]
      rw [next]
      cases name : named part.header with
      | true => simpa using (deletions_active part.plain).1
      | false => simpa using deletions_idle_iff

/-- Whether the range is open behind a part that was handled. -/
theorem activeAfter_part {active : Bool} {part : Part opens}
    (handled : part.Handled hit named active) :
    activeAfter hit opens active part.lines =
      (named part.header && (!active || !part.body.isEmpty)) := by
  rw [Part.lines]
  simp only [activeAfter]
  rcases handled with ⟨equal, body⟩
  cases active with
  | true =>
      have closed : (cycle hit opens true part.header).2 = false := by simp [cycle, part.opening]
      rw [closed]
      cases name : named part.header with
      | true =>
          rw [name, if_pos rfl] at body
          exact activeAfter_reopened part.plain (body rfl)
      | false =>
          rw [name, if_neg Bool.false_ne_true] at body
          exact (deletions_idle body).2
  | false =>
      have next : (cycle hit opens false part.header).2 = named part.header := by
        simp [cycle, equal]
      rw [next]
      cases name : named part.header with
      | true => exact (deletions_active part.plain).2
      | false =>
          rw [name, if_neg Bool.false_ne_true] at body
          exact (deletions_idle body).2

theorem deletions_parts_iff (active : Bool) (parts : List (Part opens)) :
    LineRanges.deletions hit opens active (parts.flatMap Part.lines) =
        (parts.flatMap fun part => part.lines.map fun _ => named part.header) ↔
      (∀ part ∈ parts, hit part.header = named part.header) ∧
        (∀ part ∈ parts, named part.header = false → ∀ line ∈ part.body, hit line = false) ∧
        Apart hit named active parts := by
  induction parts generalizing active with
  | nil => exact iff_of_true rfl ⟨nofun, nofun, trivial⟩
  | cons part parts ih =>
      rw [List.flatMap_cons, List.flatMap_cons, deletions_append]
      have split : LineRanges.deletions hit opens active part.lines ++
            LineRanges.deletions hit opens (activeAfter hit opens active part.lines)
              (parts.flatMap Part.lines) =
            (part.lines.map fun _ => named part.header) ++
              (parts.flatMap fun part => part.lines.map fun _ => named part.header) ↔
          part.Handled hit named active ∧
            LineRanges.deletions hit opens (activeAfter hit opens active part.lines)
              (parts.flatMap Part.lines) =
              parts.flatMap fun part => part.lines.map fun _ => named part.header := by
        rw [← deletions_part_iff]
        constructor
        · intro equal
          exact List.append_inj equal (by simp)
        · rintro ⟨first, rest⟩
          rw [first, rest]
      rw [split, List.forall_mem_cons, List.forall_mem_cons]
      constructor
      · rintro ⟨handled, rest⟩
        rw [activeAfter_part handled, ih] at rest
        rcases handled with ⟨equal, body⟩
        refine ⟨⟨equal, rest.1⟩, ⟨?_, rest.2.1⟩, ?_⟩
        · intro name
          rw [name, if_neg Bool.false_ne_true] at body
          exact body
        · have apart := rest.2.2
          rw [Apart]
          cases name : named part.header with
          | false =>
              rw [name] at apart
              exact apart
          | true =>
              rw [name] at apart body
              cases active with
              | true => exact ⟨body rfl, apart⟩
              | false => exact apart
      · rintro ⟨⟨equal, headers⟩, ⟨plain, bodies⟩, apart⟩
        have handled : part.Handled hit named active := by
          refine ⟨equal, ?_⟩
          rw [Apart] at apart
          cases name : named part.header with
          | false => exact plain name
          | true =>
              rw [name, if_pos rfl] at apart
              rintro rfl
              exact apart.1
        refine ⟨handled, ?_⟩
        rw [activeAfter_part handled, ih]
        refine ⟨headers, bodies, ?_⟩
        rw [Apart] at apart
        cases name : named part.header with
        | false =>
            rw [name] at apart
            exact apart
        | true =>
            rw [name, if_pos rfl] at apart
            cases active with
            | true => exact apart.2
            | false => exact apart

/-- The script deletes the named parts and nothing else exactly if its test is selective. -/
theorem deletions_iff (text : Text opens) :
    LineRanges.deletions hit opens false text.lines = text.deletions named ↔
      Selective hit named text := by
  have split : LineRanges.deletions hit opens false text.lines = text.deletions named ↔
      (LineRanges.deletions hit opens false text.preamble = text.preamble.map fun _ => false) ∧
        LineRanges.deletions hit opens (activeAfter hit opens false text.preamble)
          (text.parts.flatMap Part.lines) =
          text.parts.flatMap fun part => part.lines.map fun _ => named part.header := by
    rw [Text.lines, Text.deletions, deletions_append]
    constructor
    · intro equal
      exact List.append_inj equal (by simp)
    · rintro ⟨first, rest⟩
      rw [first, rest]
  rw [split]
  constructor
  · rintro ⟨preamble, parts⟩
    have missed := deletions_idle_iff.mp preamble
    rw [(deletions_idle missed).2, deletions_parts_iff] at parts
    exact ⟨missed, parts.1, parts.2.1, parts.2.2⟩
  · intro selective
    have idle : LineRanges.deletions hit opens false text.preamble =
          (text.preamble.map fun _ => false) ∧
        activeAfter hit opens false text.preamble = false := deletions_idle selective.preamble
    rw [idle.2, deletions_parts_iff]
    exact ⟨idle.1, selective.headers, selective.bodies, selective.apart⟩

end Named

end LineRanges
