import Caal.Container.Lifecycle

/-!
# container_stop where there is nothing to stop

`container_stop` may be called after a failed `container_start`, and again on a structure it
has zeroed. In the first case the strings of the structure are set although nothing is
mounted any more, and its `umount2` detaches whatever is topmost on the bundle.
-/

namespace Caal

open CMemory

variable {Place : Type} [DecidableEq Place] (resolve : Bytes → Place)

/-! ## What the two functions leave in the structure -/

/-- `container_start` leaves its strings set when it fails. -/
theorem ct_containerStart (fails : Point → Bool) (key : SessionKey) (ct : Container)
    (bundlePath : Bytes) (sizeMb : Int64) (machine : Machine Place) :
    (containerStart resolve fails key ct bundlePath sizeMb machine).ct =
        ct.named key bundlePath ∨
      (containerStart resolve fails key ct bundlePath sizeMb machine).ct =
        ct.withSocket key bundlePath := by
  rw [containerStart]
  dsimp only
  split
  · exact .inl rfl
  · split
    · exact .inl rfl
    · split
      · exact .inr rfl
      · split
        · exact .inr rfl
        · exact .inr rfl

/-- What a `container_stop` does whose strings are those of a session. -/
structure Stops (key : SessionKey) (place : Place) (now after : Machine Place) : Prop where
  dirs : after.dirs = now.dirs.erase key.sessionDir
  images : after.images = now.images.erase key.imagePath
  loops : after.loops = now.loops.erase key.sessionDir
  overlays : after.overlays = Function.update now.overlays place (now.overlays place).tail
  containers : after.containers = now.containers.erase key.id
  sockets : after.sockets = now.sockets ∨ after.sockets = now.sockets.erase (socketPath key.pid)

theorem SessionKey.id_ne_nil (key : SessionKey) : key.id ≠ [] :=
  List.append_ne_nil_of_left_ne_nil (by decide) _

theorem SessionKey.sessionDir_ne_nil (key : SessionKey) : key.sessionDir ≠ [] :=
  List.append_ne_nil_of_left_ne_nil (by decide) _

theorem SessionKey.imagePath_ne_nil (key : SessionKey) : key.imagePath ≠ [] :=
  List.append_ne_nil_of_left_ne_nil key.sessionDir_ne_nil _

theorem stops_of_named {key : SessionKey} {bundlePath : Bytes} {ct : Container}
    (containerId : ct.containerId.text = key.id) (sessionDir : ct.sessionDir.text = key.sessionDir)
    (imagePath : ct.imagePath.text = key.imagePath)
    (rootfs : ct.rootfs.text = mountPoint bundlePath)
    (sockPath : ct.sockPath.text = [] ∨ ct.sockPath.text = socketPath key.pid)
    (now : Machine Place) :
    Stops key (resolve (mountPoint bundlePath)) now (containerStop resolve ct now).2 := by
  simp only [containerStop, containerId, sessionDir, imagePath, rootfs, ne_eq,
    mountPoint_ne_nil, key.id_ne_nil, key.sessionDir_ne_nil, key.imagePath_ne_nil,
    not_false_eq_true, and_self, if_true]
  rcases sockPath with none | some
  · rw [none, if_neg (fun named => named rfl)]
    exact ⟨rfl, rfl, rfl, rfl, rfl, .inl rfl⟩
  · have named : socketPath key.pid ≠ [] := List.append_ne_nil_of_left_ne_nil (by decide) _
    rw [some, if_pos named]
    exact ⟨rfl, rfl, rfl, rfl, rfl, .inr rfl⟩

/-! ## Other sessions -/

/-- Nothing that belongs to another session has changed. -/
structure SparesOthers (key : SessionKey) (now after : Machine Place) : Prop where
  dirs : ∀ other, other ≠ key → (other.sessionDir ∈ after.dirs ↔ other.sessionDir ∈ now.dirs)
  images : ∀ other, other ≠ key →
    (other.imagePath ∈ after.images ↔ other.imagePath ∈ now.images)
  loops : ∀ other, other ≠ key →
    (other.sessionDir ∈ after.loops ↔ other.sessionDir ∈ now.loops)
  containers : ∀ other, other ≠ key → (other.id ∈ after.containers ↔ other.id ∈ now.containers)
  sockets : ∀ pid, pid ≠ key.pid → (socketPath pid ∈ after.sockets ↔ socketPath pid ∈ now.sockets)
  overlays : ∀ place, (after.overlays place).filter (· ≠ key.upperDir) =
    (now.overlays place).filter (· ≠ key.upperDir)

/-- Where the session has released its own already, nothing has changed at all. -/
structure KeepsReleased (key : SessionKey) (now after : Machine Place) : Prop where
  dirs : key.sessionDir ∉ now.dirs → after.dirs = now.dirs
  images : key.imagePath ∉ now.images → after.images = now.images
  loops : key.sessionDir ∉ now.loops → after.loops = now.loops
  containers : key.id ∉ now.containers → after.containers = now.containers
  sockets : socketPath key.pid ∉ now.sockets → after.sockets = now.sockets
  overlays : ∀ place, key.upperDir ∉ now.overlays place → after.overlays place = now.overlays place

/-- The topmost mount on the directory, if there is one, is the session's own. -/
def OwnOnTop (key : SessionKey) (place : Place) (now : Machine Place) : Prop :=
  ∀ upperDir, (now.overlays place).head? = some upperDir → upperDir = key.upperDir

variable {key : SessionKey} {place : Place} {now after : Machine Place}

theorem Stops.sparesOthers (stops : Stops key place now after)
    (own : OwnOnTop key place now) : SparesOthers key now after := by
  constructor
  · intro other different
    rw [stops.dirs, Finset.mem_erase, and_iff_right fun equal =>
      different (SessionKey.sessionDir_injective equal)]
  · intro other different
    rw [stops.images, Finset.mem_erase, and_iff_right fun equal =>
      different (SessionKey.imagePath_injective equal)]
  · intro other different
    rw [stops.loops, Finset.mem_erase, and_iff_right fun equal =>
      different (SessionKey.sessionDir_injective equal)]
  · intro other different
    rw [stops.containers, Finset.mem_erase, and_iff_right fun equal =>
      different (SessionKey.id_injective equal)]
  · intro pid different
    rcases stops.sockets with same | erased
    · rw [same]
    · rw [erased, Finset.mem_erase, and_iff_right fun equal =>
        different (socketPath_injective equal)]
  · intro anywhere
    rw [stops.overlays]
    by_cases here : anywhere = place
    · rw [here, Function.update_self]
      rw [OwnOnTop] at own
      cases stack : now.overlays place with
      | nil => rfl
      | cons top rest =>
          rw [stack] at own
          have mine : ¬ (top ≠ key.upperDir) := fun foreign => foreign (own top rfl)
          rw [List.tail_cons, List.filter_cons_of_neg (by simpa using mine)]
    · rw [Function.update_of_ne here]

theorem Stops.keepsReleased (stops : Stops key place now after)
    (own : OwnOnTop key place now) : KeepsReleased key now after := by
  constructor
  · exact fun released => stops.dirs.trans (Finset.erase_eq_of_notMem released)
  · exact fun released => stops.images.trans (Finset.erase_eq_of_notMem released)
  · exact fun released => stops.loops.trans (Finset.erase_eq_of_notMem released)
  · exact fun released => stops.containers.trans (Finset.erase_eq_of_notMem released)
  · intro released
    rcases stops.sockets with same | erased
    · exact same
    · exact erased.trans (Finset.erase_eq_of_notMem released)
  · intro anywhere released
    rw [stops.overlays]
    by_cases here : anywhere = place
    · rw [here] at released ⊢
      rw [Function.update_self]
      rw [OwnOnTop] at own
      cases stack : now.overlays place with
      | nil => rfl
      | cons top rest =>
          rw [stack] at own released
          exact (released (own top rfl ▸ List.mem_cons_self)).elim
    · rw [Function.update_of_ne here]

/-- The `umount2` takes the topmost mount away, whosever it is. -/
theorem Stops.ownOnTop (stops : Stops key place now after) (spares : SparesOthers key now after) :
    OwnOnTop key place now := by
  intro upperDir top
  by_contra foreign
  have kept := spares.overlays place
  rcases List.head?_eq_some_iff.mp top with ⟨rest, stack⟩
  rw [stops.overlays, Function.update_self, stack, List.tail_cons,
    List.filter_cons_of_pos (by simpa using foreign)] at kept
  have lengths := congrArg List.length kept
  rw [List.length_cons] at lengths
  omega

/-! ## The two cases -/

theorem containerStop_zero (machine : Machine Place) :
    (containerStop resolve .zero machine).2 = machine := by
  have empty : ∀ size, (Buf.zero size).text = [] := fun size => Buf.text_zero
  simp only [containerStop, Container.zero, empty, ne_eq, not_true_eq_false, false_and, if_false]

/-- The structure with which `container_stop` is called although the session holds nothing
any more: as a failed `container_start` left it, or as the `container_stop` of a successful
one did, on the machine it was called on. -/
def leftOver (started : Started Place) (stopped : Machine Place) : Container :=
  if started.ok then (containerStop resolve started.ct stopped).1 else started.ct

theorem ok_containerStart (fails : Point → Bool) (key : SessionKey) (ct : Container)
    (bundlePath : Bytes) (sizeMb : Int64) (machine : Machine Place) :
    (containerStart resolve fails key ct bundlePath sizeMb machine).ok = true ↔
      failedAt fails key sizeMb machine = none := by
  have spec := containerStart_spec resolve fails key ct bundlePath sizeMb machine
  generalize failedAt fails key sizeMb machine = point at spec ⊢
  generalize containerStart resolve fails key ct bundlePath sizeMb machine = started at spec ⊢
  cases spec with
  | up => exact iff_of_true rfl rfl
  | _ => exact iff_of_false Bool.false_ne_true (nomatch ·)

/-- Once more than needed, `container_stop` spares the other sessions and what was released
exactly if the start had succeeded, or no other session's overlay is topmost on the bundle
when it is called. -/
theorem containerStop_harmless_iff (fails : Point → Bool) (key : SessionKey)
    (bundlePath : Bytes) (sizeMb : Int64) (machine stopped now : Machine Place) :
    (SparesOthers key now (containerStop resolve (leftOver resolve
        (containerStart resolve fails key .zero bundlePath sizeMb machine) stopped) now).2 ∧
      KeepsReleased key now (containerStop resolve (leftOver resolve
        (containerStart resolve fails key .zero bundlePath sizeMb machine) stopped) now).2) ↔
      failedAt fails key sizeMb machine = none ∨
        OwnOnTop key (resolve (mountPoint bundlePath)) now := by
  have ended := ok_containerStart resolve fails key .zero bundlePath sizeMb machine
  have strings := ct_containerStart resolve fails key .zero bundlePath sizeMb machine
  generalize containerStart resolve fails key .zero bundlePath sizeMb machine = started
    at ended strings ⊢
  rw [leftOver]
  cases up : started.ok with
  | true =>
      have zeroed : (containerStop resolve started.ct stopped).1 = .zero := rfl
      rw [if_pos rfl, zeroed, containerStop_zero]
      refine iff_of_true ?_ (.inl (ended.mp up))
      exact ⟨⟨fun _ _ => Iff.rfl, fun _ _ => Iff.rfl, fun _ _ => Iff.rfl, fun _ _ => Iff.rfl,
          fun _ _ => Iff.rfl, fun _ => rfl⟩,
        ⟨fun _ => rfl, fun _ => rfl, fun _ => rfl, fun _ => rfl, fun _ => rfl, fun _ _ => rfl⟩⟩
  | false =>
      have failed : failedAt fails key sizeMb machine ≠ none := by
        intro none
        cases up.symm.trans (ended.mpr none)
      have stops : Stops key (resolve (mountPoint bundlePath)) now
          (containerStop resolve started.ct now).2 := by
        rcases strings with equal | equal
        · rw [equal]
          exact stops_of_named resolve (Container.containerId_named .zero key bundlePath)
            (Container.sessionDir_named .zero key bundlePath)
            (Container.imagePath_named .zero key bundlePath)
            (Container.rootfs_named .zero key bundlePath) (.inl Buf.text_zero) now
        · rw [equal]
          exact @stops_of_named _ _ resolve key bundlePath
            (Container.zero.withSocket key bundlePath)
            (Container.containerId_named .zero key bundlePath)
            (Container.sessionDir_named .zero key bundlePath)
            (Container.imagePath_named .zero key bundlePath)
            (Container.rootfs_named .zero key bundlePath)
            (.inr (Container.text_sockPath _ key.pid)) now
      rw [if_neg Bool.false_ne_true, or_iff_right failed]
      exact ⟨fun harmless => stops.ownOnTop harmless.1,
        fun own => ⟨stops.sparesOthers own, stops.keepsReleased own⟩⟩

/-- A machine on which another session has its overlay on the bundle. -/
def sharedBundle : Machine Bytes :=
  Machine.empty.mountOverlay (mountPoint [47, 98]) (SessionKey.upperDir ⟨200, 0⟩)

theorem overlay_detached_after_failure :
    ¬ ∀ (fails : Point → Bool) (key : SessionKey) (bundlePath : Bytes) (sizeMb : Int64)
      (machine stopped now : Machine Bytes),
      SparesOthers key now (containerStop id (leftOver id
        (containerStart id fails key .zero bundlePath sizeMb machine) stopped) now).2 ∧
      KeepsReleased key now (containerStop id (leftOver id
        (containerStart id fails key .zero bundlePath sizeMb machine) stopped) now).2 := by
  intro always
  have harmless := always (· == .fallocate) ⟨100, 0⟩ [47, 98] 1024 sharedBundle .empty
    (containerStart id (· == .fallocate) ⟨100, 0⟩ .zero [47, 98] 1024 sharedBundle).machine
  have kept := harmless.2.overlays (mountPoint [47, 98]) (by decide)
  exact absurd kept (by decide)

end Caal
