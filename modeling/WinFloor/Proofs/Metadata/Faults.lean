import WinFloor.Program

/-!
What can go wrong where metadata is loaded. Whatever a file holds, the faults are defects of its
metadata: those of a PE image are wrapped into one, and so is a read past the end
(`catalogOf_fails`).
-/
namespace WinFloor.Metadata

def IsDefect (f : Fault) : Prop := ∃ defect, f = .metadata defect

/-- Faults that are defects once the database is read. -/
def CountsAsDefect (f : Fault) : Prop := IsDefect (Database.asDefect f)

def fault? : Except Fault α → Option Fault
  | .ok _ => none
  | .error f => some f

theorem eq_error_of_fault? {r : Except Fault α} {f : Fault} (h : fault? r = some f) :
    r = .error f := by
  cases r with
  | ok a => cases h
  | error g =>
    cases h
    rfl

/-- All faults that the result can be have the property. -/
def FailsOnly (P : Fault → Prop) (r : Except Fault α) : Prop := ∀ f, r = .error f → P f

namespace FailsOnly

theorem ok {P : Fault → Prop} (a : α) : FailsOnly P (.ok a) := by
  intro f failed
  cases failed

theorem error {P : Fault → Prop} {f : Fault} (h : P f) :
    FailsOnly P (.error f : Except Fault α) := by
  intro g failed
  cases failed
  exact h

theorem bind {P : Fault → Prop} {r : Except Fault α} {next : α → Except Fault β}
    (h : FailsOnly P r) (after : ∀ a, FailsOnly P (next a)) : FailsOnly P (r >>= next) := by
  cases r with
  | error f => exact error (h f rfl)
  | ok a => exact after a

theorem map {P : Fault → Prop} {r : Except Fault α} (f : α → β) (h : FailsOnly P r) :
    FailsOnly P (f <$> r) := by
  cases r with
  | error g => exact error (h g rfl)
  | ok a => exact ok (f a)

theorem mapError {P Q : Fault → Prop} {r : Except Fault α} {f : Fault → Fault}
    (h : FailsOnly P r) (onto : ∀ g, P g → Q (f g)) : FailsOnly Q (r.mapError f) := by
  cases r with
  | error g => exact error (onto g (h g rfl))
  | ok a => exact ok a

end FailsOnly

/-- All faults of the reading count as defects. -/
def Defective (r : Reader α) : Prop := ∀ c f c', r.run c = .error f c' → CountsAsDefect f

namespace Defective

theorem pure (a : α) : Defective (Pure.pure a) := by
  intro c f c' failed
  cases failed

theorem get : Defective MonadState.get := by
  intro c f c' failed
  cases failed

theorem set (c : Cursor) : Defective (MonadStateOf.set c) := by
  intro c f c' failed
  cases failed

theorem throw (defect : MetadataDefect) :
    Defective (MonadExcept.throw (Fault.metadata defect) : Reader α) := by
  intro c f c' failed
  cases failed
  exact ⟨defect, rfl⟩

theorem pastEnd (offset size : Nat) :
    Defective (MonadExcept.throw (Fault.outOfBounds offset size) : Reader α) := by
  intro c f c' failed
  cases failed
  exact ⟨.readPastEnd offset size, rfl⟩

theorem bind {r : Reader α} {next : α → Reader β} (h : Defective r)
    (after : ∀ a, Defective (next a)) : Defective (r >>= next) := by
  intro c f c' failed
  rw [EStateM.run_bind] at failed
  cases first : r.run c with
  | ok a moved =>
    rw [first] at failed
    exact after a moved f c' failed
  | error g moved =>
    rw [first] at failed
    simp only [EStateM.Result.error.injEq] at failed
    exact failed.1 ▸ h c g moved first

/-- Behind a defect nothing is read. -/
theorem throw_bind {defect : MetadataDefect} (next : α → Reader β) :
    Defective (MonadExcept.throw (Fault.metadata defect) >>= next) := by
  intro c f c' failed
  cases failed
  exact ⟨defect, rfl⟩

theorem map {r : Reader α} (f : α → β) (h : Defective r) : Defective (f <$> r) := by
  rw [map_eq_pure_bind]
  exact h.bind fun a => pure (f a)

theorem ite {c : Prop} [Decidable c] {r s : Reader α} (first : Defective r) (second : Defective s) :
    Defective (if c then r else s) := by
  by_cases h : c
  · rwa [if_pos h]
  · rwa [if_neg h]

/-- What comes behind a check. -/
theorem throwing {c : Prop} [Decidable c] {defect : MetadataDefect} {next : Unit → Reader α}
    (h : Defective (next ())) :
    Defective (if c then MonadExcept.throw (Fault.metadata defect) >>= next else next ()) :=
  ite (throw_bind next) h

theorem take (length : Nat) : Defective (Reader.take length) := by
  intro c f c' failed
  change Reader.take length c = _ at failed
  rw [Reader.take] at failed
  split at failed
  next => cases failed
  next =>
    cases failed
    exact ⟨.readPastEnd c.position c.size, rfl⟩

theorem skip (length : Nat) : Defective (Reader.skip length) :=
  (take length).bind fun _ => pure ()

theorem number (width : Nat) : Defective (Reader.number width) :=
  (take width).map _

theorem untilZero : Defective Reader.untilZero := by
  apply get.bind
  intro c
  split
  next =>
    apply (take _).bind
    intro octets
    exact (skip 1).bind fun _ => pure octets
  next =>
    apply (set _).bind
    intro _
    exact pastEnd _ _

theorem streamHeader : Defective StreamHeader.read := by
  apply (number 4).bind
  intro offset
  apply (number 4).bind
  intro size
  apply untilZero.bind
  intro name
  exact (skip _).bind fun _ => pure _

theorem streams (count : Nat) (found : Streams) : Defective (Streams.read count found) := by
  induction count generalizing found with
  | zero => exact pure found
  | succ count ih =>
    apply streamHeader.bind
    intro header
    apply get.bind
    intro c
    exact ite (ih _) (throw _)

theorem version : Defective Root.readVersion := by
  apply (number 4).bind
  intro length
  apply get.bind
  intro c
  split
  next => exact (set _).bind fun _ => pure _
  next => exact throw _

theorem root : Defective Root.reader := by
  apply get.bind
  intro c
  apply throwing
  apply (skip _).bind
  intro _
  apply version.bind
  intro version
  apply (number 2).bind
  intro _
  apply (number 2).bind
  intro count
  apply (streams count _).bind
  intro streams
  split
  next => exact throw _
  next => exact pure _

theorem counts (ids : List Nat) (done : List (Nat × Nat)) :
    Defective (StreamHead.readCounts ids done) := by
  induction ids generalizing done with
  | nil => exact pure _
  | cons id ids ih =>
    apply (number 4).bind
    intro rows
    exact ih _

theorem streamHead : Defective StreamHead.read := by
  apply get.bind
  intro c
  cases (Reader.skip 6).run c with
  | error f moved => exact throw_bind _
  | ok _ moved =>
    apply (set moved).bind
    intro _
    apply (number 1).bind
    intro heapFlags
    apply (number 1).bind
    intro _
    apply (number 4).bind
    intro low
    apply (number 4).bind
    intro high
    apply (skip 8).bind
    intro _
    apply (counts _ _).bind
    intro counts
    exact ite ((skip 4).bind fun _ => pure _) (pure _)

theorem ofExcept {r : Except Fault α} (h : FailsOnly IsDefect r) :
    Defective (MonadExcept.ofExcept r) := by
  cases r with
  | ok a => exact pure a
  | error f =>
    obtain ⟨defect, rfl⟩ := h f rfl
    exact throw defect

theorem value {r : Reader α} (h : Defective r) (c : Cursor) :
    FailsOnly CountsAsDefect (r.value c) := by
  rw [Reader.value]
  cases run : r.run c with
  | ok a moved => exact .ok a
  | error f moved => exact .error (h c f moved run)

end Defective

/-! ## Tables -/

theorem layOut_fails (h : StreamHead) (size start : Nat) (counts : List (Nat × Nat)) :
    FailsOnly IsDefect (layOut h size start counts) := by
  induction counts generalizing start with
  | nil => exact .ok []
  | cons count counts ih =>
    obtain ⟨id, rows⟩ := count
    rw [layOut]
    cases Table.ofId? id with
    | none => exact .error ⟨_, rfl⟩
    | some table =>
      dsimp only
      split
      next => exact (ih _).map _
      next => exact .error ⟨_, rfl⟩

theorem defective_tables : Defective Tables.reader := by
  apply Defective.streamHead.bind
  intro head
  apply Defective.get.bind
  intro c
  apply (Defective.ofExcept (layOut_fails head _ _ _)).bind
  intro extents
  exact .pure _

/-! ## Metadata in a file -/

theorem cliField_fails (v : Image.View) (address : UInt32) (offset : Nat) :
    FailsOnly IsDefect (cliField v address offset) := by
  rw [cliField]
  split
  next => exact .ok _
  next => exact .error ⟨_, rfl⟩

/-- The faults of a PE image are wrapped. -/
theorem locate_fails (d : Octets) : FailsOnly IsDefect (locate d) := by
  rw [locate]
  split
  next => exact .ok d
  cases Image.Header.read d with
  | error f => exact .error ⟨_, rfl⟩
  | ok header =>
    dsimp only
    split
    next => exact .error ⟨_, rfl⟩
    apply (cliField_fails _ _ _).bind
    intro address
    apply (cliField_fails _ _ _).bind
    intro size
    split
    next => exact .ok _
    next => exact .error ⟨_, rfl⟩

theorem read_fails (d : Octets) : FailsOnly IsDefect (Database.read d) := by
  refine FailsOnly.mapError (P := CountsAsDefect) (Q := IsDefect) ?_ fun _ counts => counts
  apply (Defective.root.value _).bind
  intro root
  apply (defective_tables.value _).bind
  intro tables
  exact .ok _

theorem catalogOf_fails (d : Octets) : FailsOnly IsDefect (Program.catalogOf d) := by
  apply (locate_fails d).bind
  intro root
  apply (read_fails root).bind
  intro db
  exact .ok _

end WinFloor.Metadata
