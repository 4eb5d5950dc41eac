import Mathlib.Data.List.TakeWhile

/-!
# Partial transfers on a byte stream

`read` and `write` on a stream socket may transfer fewer bytes than asked, fail,
or find the peer gone. This module has the two retry loops built on them, the
loop that sends a sequence of blocks without looking at the results, and what
these deliver under every schedule of call results.

The element type is arbitrary: which bytes are moved depends on the lengths and
on the schedule alone, and `progress` computes it from these.
-/

namespace Transfer

/-- The result of one call on a stream. -/
inductive Call where
  /-- At most `size` bytes are transferred; zero is the end of the stream. -/
  | moved (size : Nat)
  /-- The call returns -1: a timeout, or a signal before anything was moved. -/
  | failed
  /-- The peer has closed its end. A write raises `SIGPIPE`. -/
  | broken
  deriving DecidableEq, Repr

/-- Results of the calls on one connection, in the order they are made. Calls
behind the end of the list transfer whatever they are asked to. -/
abbrev Schedule := List Call

/-- Every call transfers something. -/
def Flowing (schedule : Schedule) : Prop :=
  ∀ call ∈ schedule, ∃ size, 0 < size ∧ call = .moved size

variable {α : Type}

/-! ## The two loops -/

/-- How a write loop ends. -/
inductive Status where
  | complete
  | failed
  /-- `SIGPIPE` was raised and the process does not ignore it. -/
  | killed
  deriving DecidableEq, Repr

structure Written (α : Type) where
  sent : List α
  status : Status
  rest : Schedule

/-- Write all of `block`: `write` is repeated on what is left until nothing is
left or a call returns zero or less. -/
def writeAll : Schedule → List α → Written α
  | schedule, [] => ⟨[], .complete, schedule⟩
  | [], first :: block => ⟨first :: block, .complete, []⟩
  | .moved size :: rest, first :: block =>
      if size = 0 then ⟨[], .failed, rest⟩
      else
        let tail := writeAll rest ((first :: block).drop size)
        { tail with sent := (first :: block).take size ++ tail.sent }
  | .failed :: rest, _ :: _ => ⟨[], .failed, rest⟩
  | .broken :: rest, _ :: _ => ⟨[], .killed, rest⟩

structure Received (α : Type) where
  got : Option (List α)
  input : List α
  rest : Schedule

/-- Read exactly `size` bytes of `input`: `read` is repeated on what is missing
until nothing is missing or a call returns zero or less, as it does at the end
of the input. -/
def readAll : Schedule → Nat → List α → Received α
  | schedule, 0, input => ⟨some [], input, schedule⟩
  | [], size + 1, input =>
      if size + 1 ≤ input.length then ⟨some (input.take (size + 1)), input.drop (size + 1), []⟩
      else ⟨none, [], []⟩
  | .moved limit :: rest, size + 1, input =>
      let chunk := input.take (min limit (size + 1))
      if chunk = [] then ⟨none, input, rest⟩
      else
        let tail := readAll rest (size + 1 - chunk.length) (input.drop chunk.length)
        { tail with got := tail.got.map (chunk ++ ·) }
  | .failed :: rest, _ + 1, input => ⟨none, input, rest⟩
  | .broken :: rest, _ + 1, input => ⟨none, input, rest⟩

structure Delivered (α : Type) where
  sent : List α
  killed : Bool

/-- Write blocks one after the other, going on with the next one also when a
block could not be written. -/
def writeBlocks : Schedule → List (List α) → Delivered α
  | _, [] => ⟨[], false⟩
  | schedule, block :: blocks =>
      let first := writeAll schedule block
      if first.status = .killed then ⟨first.sent, true⟩
      else
        let tail := writeBlocks first.rest blocks
        { tail with sent := first.sent ++ tail.sent }

/-! ## What a schedule moves -/

/-- The calls made to write a number of bytes, and how many bytes they move. -/
structure Progress where
  moved : Nat
  calls : List Call
  rest : Schedule

def progress : Schedule → Nat → Progress
  | schedule, 0 => ⟨0, [], schedule⟩
  | [], size + 1 => ⟨size + 1, [.moved (size + 1)], []⟩
  | .moved limit :: rest, size + 1 =>
      if limit = 0 then ⟨0, [.moved 0], rest⟩
      else
        let tail := progress rest (size + 1 - limit)
        ⟨min limit (size + 1) + tail.moved, .moved limit :: tail.calls, tail.rest⟩
  | .failed :: rest, _ + 1 => ⟨0, [.failed], rest⟩
  | .broken :: rest, _ + 1 => ⟨0, [.broken], rest⟩

/-- Progress of each of several blocks. Nothing is written after a call that
ends the process. -/
def progressAll : Schedule → List Nat → List Progress
  | _, [] => []
  | schedule, size :: sizes =>
      let first := progress schedule size
      first ::
        if .broken ∈ first.calls then sizes.map fun _ => ⟨0, [], []⟩
        else progressAll first.rest sizes

/-- All write calls made for blocks of the given sizes. -/
def calls (schedule : Schedule) (sizes : List Nat) : List Call :=
  (progressAll schedule sizes).flatMap Progress.calls

/-- Once a block is left incomplete, nothing of a later block is moved. -/
def Steady (schedule : Schedule) (sizes : List Nat) : Prop :=
  ((progressAll schedule sizes).zip sizes).Pairwise
    fun earlier later => earlier.1.moved < earlier.2 → later.1.moved = 0

theorem progress_moved_le (schedule : Schedule) (size : Nat) :
    (progress schedule size).moved ≤ size := by
  fun_induction progress schedule size with
  | case4 limit rest size nonzero tail ih =>
      simp only [tail] at ih ⊢
      omega
  | _ => simp

@[simp] theorem length_progressAll (schedule : Schedule) (sizes : List Nat) :
    (progressAll schedule sizes).length = sizes.length := by
  induction sizes generalizing schedule with
  | nil => rfl
  | cons size sizes ih =>
      simp only [progressAll, List.length_cons]
      split
      · simp
      · rw [ih]

private theorem take_append_take_drop (list : List α) (limit : Nat) {more : Nat}
    (bound : more ≤ list.length - limit) :
    list.take limit ++ (list.drop limit).take more =
      list.take (min limit list.length + more) := by
  rcases Nat.le_total limit list.length with inside | beyond
  · rw [Nat.min_eq_left inside, List.take_add]
  · have none : more = 0 := by omega
    rw [Nat.min_eq_right beyond, none, List.drop_of_length_le beyond,
      List.take_of_length_le beyond]
    simp

/-- The write loop moves what `progress` says, and ends as its calls say. -/
theorem writeAll_eq (schedule : Schedule) (block : List α) :
    writeAll schedule block =
      ⟨block.take (progress schedule block.length).moved,
        if .broken ∈ (progress schedule block.length).calls then .killed
        else if (progress schedule block.length).moved = block.length then .complete
        else .failed,
        (progress schedule block.length).rest⟩ := by
  fun_induction writeAll schedule block with
  | case1 schedule => simp [progress]
  | case2 first block => simp [progress]
  | case3 rest first block => simp [progress]
  | case4 limit rest first block nonzero tail ih =>
      have lengthEq : ((first :: block).drop limit).length = block.length + 1 - limit := by
        simp
      have bound := progress_moved_le rest (block.length + 1 - limit)
      have moved := take_append_take_drop (first :: block) limit bound
      have done : (progress rest (block.length + 1 - limit)).moved = block.length + 1 - limit ↔
          min limit (block.length + 1) + (progress rest (block.length + 1 - limit)).moved =
            block.length + 1 := by
        omega
      simp only [tail, ih, lengthEq, List.length_cons, progress, nonzero, if_false]
      rw [moved]
      congr 2
      · simp
      · exact if_congr done rfl rfl
  | case5 rest first block => simp [progress]
  | case6 rest first block => simp [progress]

theorem writeAll_complete {schedule : Schedule} {block : List α}
    (complete : (writeAll schedule block).status = .complete) :
    (writeAll schedule block).sent = block := by
  rw [writeAll_eq] at complete ⊢
  dsimp only at complete ⊢
  split at complete
  · cases complete
  · split at complete
    case isTrue moved =>
      rw [moved]
      exact List.take_length
    case isFalse short => cases complete

/-- Of each block the part that its write loop moved. -/
def movedOf (made : List Progress) (blocks : List (List α)) : List α :=
  (List.zipWith (fun part block => block.take part.moved) made blocks).flatten

private theorem movedOf_silent {made : List Progress}
    (silent : ∀ part ∈ made, part.moved = 0) (blocks : List (List α)) :
    movedOf made blocks = [] := by
  induction made generalizing blocks with
  | nil => rfl
  | cons part made ih =>
      cases blocks with
      | nil => rfl
      | cons block blocks =>
          have later := ih (fun other member => silent other (List.mem_cons_of_mem _ member)) blocks
          simp only [movedOf, List.zipWith_cons_cons, List.flatten_cons] at later ⊢
          rw [silent part (List.mem_cons_self), List.take_zero, later, List.nil_append]

/-- What the peer gets of a sequence of blocks: of each block what its own write
loop moved. -/
theorem writeBlocks_sent (schedule : Schedule) (blocks : List (List α)) :
    (writeBlocks schedule blocks).sent =
      movedOf (progressAll schedule (blocks.map List.length)) blocks := by
  induction blocks generalizing schedule with
  | nil => rfl
  | cons block blocks ih =>
      simp only [writeBlocks, List.map_cons, progressAll, writeAll_eq]
      by_cases broken : .broken ∈ (progress schedule block.length).calls
      · have silent : movedOf ((blocks.map List.length).map fun _ => ⟨0, [], []⟩) blocks = [] :=
          movedOf_silent (by simp) blocks
        simp only [movedOf] at silent
        simp only [movedOf, broken, if_true, List.zipWith_cons_cons, List.flatten_cons,
          silent, List.append_nil]
      · have alive : (if (progress schedule block.length).moved = block.length
            then Status.complete else Status.failed) ≠ Status.killed := by
          split <;> decide
        simp only [movedOf, broken, if_false, alive, List.zipWith_cons_cons,
          List.flatten_cons, ih]

/-- Sending blocks ends the process exactly if one of the calls it takes finds
the peer gone. -/
theorem writeBlocks_killed (schedule : Schedule) (blocks : List (List α)) :
    (writeBlocks schedule blocks).killed = true ↔
      .broken ∈ calls schedule (blocks.map List.length) := by
  induction blocks generalizing schedule with
  | nil => simp [writeBlocks, calls, progressAll]
  | cons block blocks ih =>
      simp only [writeBlocks, List.map_cons, calls, progressAll, writeAll_eq,
        List.flatMap_cons, List.mem_append]
      by_cases broken : .broken ∈ (progress schedule block.length).calls
      · simp [broken]
      · have alive : (if (progress schedule block.length).moved = block.length
            then Status.complete else Status.failed) ≠ Status.killed := by
          split <;> decide
        simp only [broken, if_false, alive, false_or]
        exact ih _

/-! ## Framing -/

private theorem movedOf_prefix {made : List Progress} {blocks : List (List α)}
    (steady : (made.zip (blocks.map List.length)).Pairwise
      fun earlier later => earlier.1.moved < earlier.2 → later.1.moved = 0)
    (lengthEq : made.length = blocks.length) :
    movedOf made blocks <+: blocks.flatten := by
  induction blocks generalizing made with
  | nil =>
      cases List.length_eq_zero_iff.mp lengthEq
      exact List.prefix_rfl
  | cons block blocks ih =>
      cases made with
      | nil => cases lengthEq
      | cons part made =>
          have lengthsEq : made.length = blocks.length := Nat.succ.inj lengthEq
          simp only [List.map_cons, List.zip_cons_cons, List.pairwise_cons] at steady
          simp only [movedOf, List.zipWith_cons_cons, List.flatten_cons]
          by_cases short : part.moved < block.length
          · have silent : ∀ other ∈ made, other.moved = 0 := by
              intro other member
              obtain ⟨index, inside, rfl⟩ := List.getElem_of_mem member
              have within : index < (blocks.map List.length).length := by
                rw [List.length_map]
                omega
              have found : (made[index], (blocks.map List.length)[index]) ∈
                  made.zip (blocks.map List.length) := by
                have inBoth : index < (made.zip (blocks.map List.length)).length := by
                  rw [List.length_zip]
                  omega
                have zipped := List.getElem_mem inBoth
                rwa [List.getElem_zip] at zipped
              exact steady.1 _ found short
            have nothing := movedOf_silent silent blocks
            simp only [movedOf] at nothing
            rw [nothing, List.append_nil]
            exact (List.take_prefix _ _).trans (List.prefix_append _ _)
          · rw [List.take_of_length_le (Nat.le_of_not_lt short)]
            exact (List.prefix_append_right_inj block).mpr (ih steady.2 lengthsEq)

/-- A steady schedule keeps the framing: the peer gets a prefix of the blocks. -/
theorem Steady.sent_prefix {schedule : Schedule} {blocks : List (List α)}
    (steady : Steady schedule (blocks.map List.length)) :
    (writeBlocks schedule blocks).sent <+: blocks.flatten := by
  rw [writeBlocks_sent]
  exact movedOf_prefix steady (by simp)

private theorem exists_gap {parts : List (Progress × Nat)}
    (bounded : ∀ part ∈ parts, part.1.moved ≤ part.2)
    (unsteady : ¬ parts.Pairwise
      fun earlier later => earlier.1.moved < earlier.2 → later.1.moved = 0) :
    ∃ before short between later after,
      parts = before ++ short :: (between ++ later :: after) ∧
      (∀ part ∈ before, part.1.moved = part.2) ∧ short.1.moved < short.2 ∧
      (∀ part ∈ between, part.1.moved = 0) ∧ 0 < later.1.moved := by
  induction parts with
  | nil => exact (unsteady .nil).elim
  | cons part parts ih =>
      by_cases short : part.1.moved < part.2
      · cases found : parts.find? fun other => decide (0 < other.1.moved) with
        | none =>
            have silent : ∀ other ∈ parts, other.1.moved = 0 := by
              intro other member
              have absent := List.find?_eq_none.mp found other member
              simpa using absent
            refine (unsteady (List.pairwise_cons.mpr ⟨?_, ?_⟩)).elim
            · exact fun other member _ => silent other member
            · exact List.pairwise_of_forall_mem_list fun _ _ other member _ =>
                silent other member
        | some later =>
            obtain ⟨positive, between, after, rfl, skipped⟩ :=
              List.find?_eq_some_iff_append.mp found
            refine ⟨[], part, between, later, after, rfl, by simp, short, ?_,
              by simpa using positive⟩
            intro other member
            simpa using skipped other member
      · have complete : part.1.moved = part.2 :=
          Nat.le_antisymm (bounded part List.mem_cons_self) (Nat.le_of_not_lt short)
        have tail : ¬ parts.Pairwise
            fun earlier later => earlier.1.moved < earlier.2 → later.1.moved = 0 := by
          intro steady
          exact unsteady (List.pairwise_cons.mpr
            ⟨fun _ _ less => (short less).elim, steady⟩)
        obtain ⟨before, gap, between, later, after, rfl, filled, rest⟩ :=
          ih (fun other member => bounded other (List.mem_cons_of_mem _ member)) tail
        refine ⟨part :: before, gap, between, later, after, rfl, ?_, rest⟩
        intro other member
        rcases List.mem_cons.mp member with rfl | member
        · exact complete
        · exact filled other member

private theorem movedOf_append {first second : List Progress} {left right : List (List α)}
    (lengthEq : first.length = left.length) :
    movedOf (first ++ second) (left ++ right) =
      movedOf first left ++ movedOf second right := by
  simp only [movedOf, List.zipWith_append lengthEq, List.flatten_append]

private theorem movedOf_complete {made : List Progress} {blocks : List (List α)}
    (complete : made.map Progress.moved = blocks.map List.length) :
    movedOf made blocks = blocks.flatten := by
  induction blocks generalizing made with
  | nil =>
      cases List.map_eq_nil_iff.mp complete
      rfl
  | cons block blocks ih =>
      cases made with
      | nil => cases complete
      | cons part made =>
          simp only [List.map_cons, List.cons.injEq] at complete
          have later := ih complete.2
          simp only [movedOf] at later
          simp only [movedOf, List.zipWith_cons_cons, List.flatten_cons, later]
          rw [complete.1, List.take_length]

private theorem progressAll_bounded (schedule : Schedule) (sizes : List Nat) :
    ∀ part ∈ (progressAll schedule sizes).zip sizes, part.1.moved ≤ part.2 := by
  induction sizes generalizing schedule with
  | nil => simp [progressAll]
  | cons size sizes ih =>
      intro part member
      simp only [progressAll, List.zip_cons_cons, List.mem_cons] at member
      rcases member with rfl | member
      · exact progress_moved_le schedule size
      · split at member
        · obtain ⟨index, inside, rfl⟩ := List.getElem_of_mem member
          simp
        · exact ih _ part member

private theorem getD_append_length (front : List (List α)) (block : List α)
    (rest : List (List α)) : (front ++ block :: rest).getD front.length [] = block := by
  simp [List.getD_eq_getElem?_getD]

/-- An unsteady schedule breaks the framing unless contents happen to agree: the
front of a later block arrives where an earlier one was cut off. The positions
depend on the schedule and the block sizes only. -/
theorem unsteady_collision {schedule : Schedule} {sizes : List Nat}
    (unsteady : ¬ Steady schedule sizes) :
    ∃ cut later offset, cut < later ∧ later < sizes.length ∧ offset < sizes.getD cut 0 ∧
      ∀ blocks : List (List α), blocks.map List.length = sizes →
        (writeBlocks schedule blocks).sent <+: blocks.flatten →
        (blocks.getD later [])[0]? = (blocks.getD cut [])[offset]? := by
  obtain ⟨before, short, between, later, after, partsEq, filled, less, silent, positive⟩ :=
    exists_gap (progressAll_bounded schedule sizes) unsteady
  have lengths := length_progressAll schedule sizes
  have madeEq : progressAll schedule sizes =
      before.map Prod.fst ++ short.1 ::
        (between.map Prod.fst ++ later.1 :: after.map Prod.fst) := by
    have unzipped : ((progressAll schedule sizes).zip sizes).map Prod.fst =
        progressAll schedule sizes := List.map_fst_zip lengths.le
    rw [partsEq] at unzipped
    simpa using unzipped.symm
  have sizesEq : sizes =
      before.map Prod.snd ++ short.2 ::
        (between.map Prod.snd ++ later.2 :: after.map Prod.snd) := by
    have unzipped : ((progressAll schedule sizes).zip sizes).map Prod.snd = sizes :=
      List.map_snd_zip lengths.ge
    rw [partsEq] at unzipped
    simpa using unzipped.symm
  refine ⟨before.length, before.length + 1 + between.length, short.1.moved, by omega, ?_, ?_, ?_⟩
  · rw [sizesEq]
    simp only [List.length_append, List.length_cons, List.length_map]
    omega
  · rw [sizesEq]
    simpa using less
  · intro blocks blocksEq isPrefix
    rw [sizesEq] at blocksEq
    obtain ⟨front, tail, rfl, frontEq, tailEq⟩ := List.map_eq_append_iff.mp blocksEq
    obtain ⟨cut, tail, rfl, cutEq, tailEq⟩ := List.map_eq_cons_iff.mp tailEq
    obtain ⟨middle, tail, rfl, middleEq, tailEq⟩ := List.map_eq_append_iff.mp tailEq
    obtain ⟨next, rest, rfl, nextEq, restEq⟩ := List.map_eq_cons_iff.mp tailEq
    have frontLength : before.length = front.length := by
      simpa using congrArg List.length frontEq.symm
    have middleLength : between.length = middle.length := by
      simpa using congrArg List.length middleEq.symm
    have frontDone : movedOf (before.map Prod.fst) front = front.flatten := by
      apply movedOf_complete
      rw [frontEq, List.map_map]
      exact List.map_congr_left filled
    have middleNone : movedOf (between.map Prod.fst) middle = [] := by
      apply movedOf_silent
      intro part member
      obtain ⟨pair, pairMember, rfl⟩ := List.mem_map.mp member
      exact silent pair pairMember
    rw [writeBlocks_sent, blocksEq, ← sizesEq, madeEq, movedOf_append (by simpa),
      frontDone, List.flatten_append, List.prefix_append_right_inj] at isPrefix
    have arrived : movedOf (short.1 :: (between.map Prod.fst ++ later.1 :: after.map Prod.fst))
        (cut :: (middle ++ next :: rest)) =
        cut.take short.1.moved ++ (next.take later.1.moved ++
          movedOf (after.map Prod.fst) rest) := by
      have parts : movedOf (between.map Prod.fst ++ later.1 :: after.map Prod.fst)
          (middle ++ next :: rest) =
          movedOf (between.map Prod.fst) middle ++
            movedOf (later.1 :: after.map Prod.fst) (next :: rest) :=
        movedOf_append (by simpa)
      rw [middleNone, List.nil_append] at parts
      simp only [movedOf, List.zipWith_cons_cons, List.flatten_cons] at parts ⊢
      rw [parts]
    rw [arrived, List.flatten_cons] at isPrefix
    have nextHere : (front ++ cut :: (middle ++ next :: rest)).getD
        (before.length + 1 + between.length) [] = next := by
      have regroup : front ++ cut :: (middle ++ next :: rest) =
          (front ++ cut :: middle) ++ next :: rest := by simp
      have position : before.length + 1 + between.length = (front ++ cut :: middle).length := by
        simp only [List.length_append, List.length_cons]
        omega
      rw [regroup, position, getD_append_length]
    have cutHere : (front ++ cut :: (middle ++ next :: rest)).getD before.length [] = cut := by
      rw [frontLength, getD_append_length]
    have nonempty : 0 < next.length := by
      have made := progressAll_bounded schedule sizes later (by rw [partsEq]; simp)
      omega
    have cutLength : (cut.take short.1.moved).length = short.1.moved := by
      rw [List.length_take]
      omega
    have nextTaken : 0 < (next.take later.1.moved).length := by
      rw [List.length_take]
      omega
    obtain ⟨remaining, whole⟩ := isPrefix
    have atCut := congrArg (·[short.1.moved]?) whole
    simp only [List.append_assoc] at atCut
    rw [List.getElem?_append_right cutLength.le, cutLength, Nat.sub_self,
      List.getElem?_append_left nextTaken, List.getElem?_take_of_lt positive,
      List.getElem?_append_left (by omega)] at atCut
    rw [nextHere, cutHere]
    exact atCut

/-! ## Undisturbed transfers -/

theorem Flowing.progress {schedule : Schedule} (flowing : Flowing schedule) (size : Nat) :
    (progress schedule size).moved = size ∧
      .broken ∉ (progress schedule size).calls ∧
      Flowing (progress schedule size).rest := by
  fun_induction Transfer.progress schedule size with
  | case1 schedule => exact ⟨rfl, List.not_mem_nil, flowing⟩
  | case2 size => exact ⟨rfl, by simp, flowing⟩
  | case3 rest size =>
      obtain ⟨limit, positive, equal⟩ := flowing (.moved 0) (by simp)
      cases equal
      exact (Nat.lt_irrefl 0 positive).elim
  | case4 limit rest size nonzero tail ih =>
      obtain ⟨moved, unbroken, flowingRest⟩ :=
        ih fun call member => flowing call (List.mem_cons_of_mem _ member)
      refine ⟨?_, ?_, flowingRest⟩
      · simp only [tail, moved]
        omega
      · simpa using unbroken
  | case5 rest size =>
      obtain ⟨limit, _, equal⟩ := flowing .failed (by simp)
      cases equal
  | case6 rest size =>
      obtain ⟨limit, _, equal⟩ := flowing .broken (by simp)
      cases equal

/-- With no failing call, the peer gets exactly the blocks. -/
theorem writeBlocks_flowing {schedule : Schedule} (flowing : Flowing schedule)
    (blocks : List (List α)) :
    writeBlocks schedule blocks = ⟨blocks.flatten, false⟩ := by
  induction blocks generalizing schedule with
  | nil => rfl
  | cons block blocks ih =>
      obtain ⟨moved, unbroken, flowingRest⟩ := flowing.progress block.length
      have complete : (writeAll schedule block).status ≠ .killed := by
        simp [writeAll_eq, moved, unbroken]
      simp only [writeBlocks, complete, if_false]
      rw [ih (by rw [writeAll_eq]; exact flowingRest)]
      simp [writeAll_eq, moved]

/-! ## A peer that stays -/

/-- No call finds the stream at its end or the peer gone: each moves something or
returns -1. -/
structure Live (schedule : Schedule) : Prop where
  unbroken : .broken ∉ schedule
  unended : .moved 0 ∉ schedule

instance (schedule : Schedule) : Decidable (Live schedule) :=
  decidable_of_iff (.broken ∉ schedule ∧ .moved 0 ∉ schedule)
    ⟨fun both => ⟨both.1, both.2⟩, fun live => ⟨live.unbroken, live.unended⟩⟩

theorem Live.nil : Live [] :=
  ⟨List.not_mem_nil, List.not_mem_nil⟩

theorem Live.tail {call : Call} {schedule : Schedule} (live : Live (call :: schedule)) :
    Live schedule :=
  ⟨fun member => live.unbroken (List.mem_cons_of_mem _ member),
    fun member => live.unended (List.mem_cons_of_mem _ member)⟩

/-- With a peer that stays, a loop falls short exactly when one of its calls fails. -/
theorem Live.progress {schedule : Schedule} (live : Live schedule) (size : Nat) :
    ((progress schedule size).moved = size ↔ .failed ∉ (progress schedule size).calls) ∧
      .broken ∉ (progress schedule size).calls ∧
      Live (progress schedule size).rest := by
  fun_induction Transfer.progress schedule size with
  | case1 schedule => exact ⟨by simp, List.not_mem_nil, live⟩
  | case2 size => exact ⟨by simp, by simp, live⟩
  | case3 rest size => exact (live.unended (List.mem_cons_self)).elim
  | case4 limit rest size nonzero tail ih =>
      obtain ⟨moved, unbroken, liveRest⟩ := ih live.tail
      have bound := progress_moved_le rest (size + 1 - limit)
      refine ⟨?_, by simpa using unbroken, liveRest⟩
      have complete : min limit (size + 1) + tail.moved = size + 1 ↔
          tail.moved = size + 1 - limit := by
        simp only [tail]
        omega
      rw [complete, moved]
      simp [tail]
  | case5 rest size => exact ⟨by simp, by simp, live.tail⟩
  | case6 rest size => exact (live.unbroken (List.mem_cons_self)).elim

theorem Live.writeBlocks_killed {schedule : Schedule} (live : Live schedule)
    (blocks : List (List α)) : (writeBlocks schedule blocks).killed = false := by
  induction blocks generalizing schedule with
  | nil => rfl
  | cons block blocks ih =>
      obtain ⟨_, unbroken, liveRest⟩ := live.progress block.length
      have alive : (writeAll schedule block).status ≠ .killed := by
        rw [writeAll_eq, if_neg unbroken]
        dsimp only
        split <;> decide
      have restEq : (writeAll schedule block).rest =
          (Transfer.progress schedule block.length).rest := by
        rw [writeAll_eq]
      simp only [writeBlocks, alive, if_false]
      exact ih (restEq ▸ liveRest)

theorem writeBlocks_sent_length_le (schedule : Schedule) (blocks : List (List α)) :
    (writeBlocks schedule blocks).sent.length ≤ blocks.flatten.length := by
  induction blocks generalizing schedule with
  | nil => exact Nat.le_refl 0
  | cons block blocks ih =>
      have first : (writeAll schedule block).sent.length ≤ block.length := by
        rw [writeAll_eq]
        exact List.length_take_le' _ _
      have later := ih (writeAll schedule block).rest
      simp only [writeBlocks, List.flatten_cons, List.length_append]
      split
      · exact Nat.le_trans first (Nat.le_add_right _ _)
      · simp only [List.length_append]
        omega

/-- A call that finds the peer gone was made for something. -/
theorem progress_broken {schedule : Schedule} {size : Nat}
    (broken : .broken ∈ (progress schedule size).calls) :
    (progress schedule size).moved < size := by
  fun_induction Transfer.progress schedule size with
  | case1 schedule => cases broken
  | case2 size => simp at broken
  | case3 rest size => simp at broken
  | case4 limit rest size nonzero tail ih =>
      simp only [List.mem_cons, reduceCtorEq, false_or] at broken
      have less := ih broken
      simp only [tail] at less ⊢
      omega
  | case5 rest size => exact Nat.succ_pos size
  | case6 rest size => exact Nat.succ_pos size

/-- As many bytes as the blocks have are the blocks, and no call has found the peer gone. -/
theorem writeBlocks_whole {schedule : Schedule} {blocks : List (List α)}
    (whole : blocks.flatten.length ≤ (writeBlocks schedule blocks).sent.length) :
    writeBlocks schedule blocks = ⟨blocks.flatten, false⟩ := by
  induction blocks generalizing schedule with
  | nil => rfl
  | cons block blocks ih =>
      have bound := progress_moved_le schedule block.length
      have others := writeBlocks_sent_length_le (writeAll schedule block).rest blocks
      rw [List.flatten_cons, List.length_append] at whole
      rw [writeBlocks] at whole ⊢
      dsimp only at whole ⊢
      have sent : (writeAll schedule block).sent.length =
          (progress schedule block.length).moved := by
        rw [writeAll_eq, List.length_take, Nat.min_eq_left bound]
      have alive : (writeAll schedule block).status ≠ .killed := by
        intro killed
        rw [if_pos killed] at whole
        rw [writeAll_eq] at killed
        dsimp only at killed whole
        split at killed
        case isTrue broken =>
          have less := progress_broken broken
          rw [sent] at whole
          omega
        case isFalse => split at killed <;> cases killed
      rw [if_neg alive] at whole ⊢
      dsimp only at whole
      rw [List.length_append, sent] at whole
      have complete : (writeAll schedule block).sent = block := by
        rw [writeAll_eq]
        exact List.take_of_length_le (by omega)
      have rest := @ih (writeAll schedule block).rest (by omega)
      rw [rest, complete, List.flatten_cons]

theorem failed_not_mem_calls_nil (sizes : List Nat) : .failed ∉ calls [] sizes := by
  induction sizes with
  | nil => simp [calls, progressAll]
  | cons size sizes ih =>
      rw [calls] at ih
      cases size with
      | zero => simpa [calls, progressAll, Transfer.progress] using ih
      | succ size => simpa [calls, progressAll, Transfer.progress] using ih

/-- With a peer that stays, the blocks arrive in full exactly when no call fails. -/
theorem Live.writeBlocks_sent_iff {schedule : Schedule} (live : Live schedule)
    (blocks : List (List α)) :
    (writeBlocks schedule blocks).sent = blocks.flatten ↔
      .failed ∉ calls schedule (blocks.map List.length) := by
  induction blocks generalizing schedule with
  | nil => simp [writeBlocks, calls, progressAll]
  | cons block blocks ih =>
      obtain ⟨moved, unbroken, liveRest⟩ := live.progress block.length
      have alive : (if (Transfer.progress schedule block.length).moved = block.length
          then Status.complete else Status.failed) ≠ Status.killed := by
        split <;> decide
      have bound := writeBlocks_sent_length_le (Transfer.progress schedule block.length).rest blocks
      simp only [writeBlocks, List.map_cons, calls, progressAll, writeAll_eq, unbroken,
        if_false, alive, List.flatMap_cons, List.mem_append, not_or, ← moved, List.flatten_cons]
      rw [← calls, ← ih liveRest]
      by_cases complete : (Transfer.progress schedule block.length).moved = block.length
      · rw [complete, List.take_length]
        simp
      · have short : (Transfer.progress schedule block.length).moved < block.length :=
          Nat.lt_of_le_of_ne (progress_moved_le schedule block.length) complete
        constructor
        · intro equal
          have lengths := congrArg List.length equal
          simp only [List.length_append, List.length_take] at lengths
          omega
        · intro both
          exact (complete both.1).elim

/-! ## Reading -/

/-- A chunk read off the front, and what is then missing of `size` bytes. -/
private theorem chunk_append (input : List α) (front size : Nat) (inside : front ≤ size) :
    input.take front ++ (input.drop front).take (size - front) = input.take size ∧
      (input.drop front).drop (size - front) = input.drop size := by
  have whole : front + (size - front) = size := by omega
  constructor
  · rw [← List.take_add, whole]
  · rw [List.drop_drop, whole]

private theorem chunk_eq (input : List α) (limit : Nat) :
    input.take limit = input.take (input.take limit).length := by
  rw [List.length_take, List.take_eq_take_iff]
  omega

/-- Whatever the schedule, what a read loop returns is the front of the input,
and the rest stays to be read. -/
theorem readAll_some {schedule : Schedule} {size : Nat} {input bytes : List α}
    (got : (readAll schedule size input).got = some bytes) :
    size ≤ input.length ∧ bytes = input.take size ∧
      (readAll schedule size input).input = input.drop size := by
  fun_induction readAll schedule size input generalizing bytes with
  | case1 schedule input =>
      cases got
      simp
  | case2 size input inside =>
      cases got
      exact ⟨inside, rfl, rfl⟩
  | case3 size input short => cases got
  | case4 limit rest size input empty => cases got
  | case5 limit rest size input chunk nonempty tail =>
      rename_i ih
      simp only [Option.map_eq_some_iff] at got
      obtain ⟨more, gotMore, rfl⟩ := got
      obtain ⟨enough, moreEq, restEq⟩ := ih gotMore
      have chunkLength : chunk.length = min (min limit (size + 1)) input.length :=
        List.length_take
      have chunkEq : chunk = input.take chunk.length := chunk_eq input _
      obtain ⟨taken, dropped⟩ := chunk_append input chunk.length (size + 1) (by omega)
      rw [List.length_drop] at enough
      refine ⟨by omega, ?_, restEq.trans dropped⟩
      rw [moreEq, ← taken, ← chunkEq]
  | case6 rest size input => cases got
  | case7 rest size input => cases got

/-- A read loop succeeds exactly when the input is long enough and the calls move
as much as is asked for. -/
theorem readAll_isSome_iff (schedule : Schedule) (size : Nat) (input : List α) :
    (readAll schedule size input).got.isSome = true ↔
      size ≤ input.length ∧ (progress schedule size).moved = size := by
  fun_induction readAll schedule size input with
  | case1 schedule input => simp [progress]
  | case2 size input inside => simp [progress, inside]
  | case3 size input short => simp [short]
  | case4 limit rest size input chunk empty =>
      have lengthEq : chunk.length = min (min limit (size + 1)) input.length :=
        List.length_take
      rw [empty, List.length_nil] at lengthEq
      simp only [Option.isSome_none, Bool.false_eq_true, false_iff, not_and, progress]
      intro enough
      have zero : limit = 0 := by omega
      simp [zero]
  | case5 limit rest size input chunk nonempty tail ih =>
      have chunkLength : chunk.length = min (min limit (size + 1)) input.length :=
        List.length_take
      have positive : 0 < chunk.length := List.length_pos_iff.mpr nonempty
      have nonzero : limit ≠ 0 := by
        intro zero
        rw [zero, Nat.zero_min, Nat.zero_min] at chunkLength
        exact Nat.ne_of_gt positive chunkLength
      rw [Option.isSome_map, ih, progress, if_neg nonzero, List.length_drop]
      have bound := progress_moved_le rest (size + 1 - limit)
      constructor
      · intro ⟨enough, moved⟩
        have full : chunk.length = min limit (size + 1) := by omega
        rcases Nat.le_total limit (size + 1) with within | beyond
        · have equal : chunk.length = limit := by omega
          rw [equal] at moved enough
          dsimp only
          omega
        · have done : size + 1 - limit = 0 := by omega
          dsimp only
          rw [done] at bound ⊢
          omega
      · intro ⟨enough, moved⟩
        dsimp only at moved
        rcases Nat.le_total limit (size + 1) with within | beyond
        · have equal : chunk.length = limit := by omega
          rw [equal]
          omega
        · have equal : chunk.length = size + 1 := by omega
          rw [equal, Nat.sub_self, progress.eq_def]
          constructor
          · exact Nat.zero_le _
          · rfl
  | case6 rest size input => simp [progress]
  | case7 rest size input => simp [progress]

/-- With no failing call, a read loop gets the front of the input. -/
theorem readAll_flowing {schedule : Schedule} (flowing : Flowing schedule) {size : Nat}
    {input : List α} (enough : size ≤ input.length) :
    ∃ rest, Flowing rest ∧
      readAll schedule size input = ⟨some (input.take size), input.drop size, rest⟩ := by
  fun_induction readAll schedule size input with
  | case1 schedule input => exact ⟨schedule, flowing, rfl⟩
  | case2 size input inside => exact ⟨[], flowing, rfl⟩
  | case3 size input short => exact (short enough).elim
  | case4 limit rest size input chunk empty =>
      obtain ⟨actual, positive, equal⟩ := flowing (.moved limit) (by simp)
      cases equal
      have lengthEq : chunk.length = min (min limit (size + 1)) input.length :=
        List.length_take
      rw [empty, List.length_nil] at lengthEq
      omega
  | case5 limit rest size input chunk nonempty tail ih =>
      have chunkLength : chunk.length = min (min limit (size + 1)) input.length :=
        List.length_take
      have chunkEq : chunk = input.take chunk.length := chunk_eq input _
      obtain ⟨schedule', goesOn, equal⟩ :=
        ih (fun call member => flowing call (List.mem_cons_of_mem _ member)) (by
          rw [List.length_drop]
          omega)
      obtain ⟨taken, dropped⟩ := chunk_append input chunk.length (size + 1) (by omega)
      refine ⟨schedule', goesOn, ?_⟩
      simp only [tail, equal, Option.map_some, dropped]
      congr 2
      rw [← taken, ← chunkEq]
  | case6 rest size input =>
      obtain ⟨limit, _, equal⟩ := flowing .failed (by simp)
      cases equal
  | case7 rest size input =>
      obtain ⟨limit, _, equal⟩ := flowing .broken (by simp)
      cases equal

end Transfer
