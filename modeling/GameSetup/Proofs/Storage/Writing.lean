import GameSetup.Proofs.Storage.Mishaps
import GameSetup.Storage.Writer

/-!
# What gets into a file

A writer keeps its bytes in order: what its file holds, followed by what waits, is what it has been
given. Every step keeps it so, whatever goes wrong, and so a file that was written holds the first
of the bytes that were meant for it, and all of them if no fault was reported. Where nothing is in
store, none is.
-/

namespace GameSetup

namespace Writer

/-- Whether the file of a writer is in the place of a path, and it holds all that the writer has
been given but for what still waits. -/
structure Carries (writer : Writer) (start disk : Disk) (path : Path) (name : String)
    (given : List UInt8) : Prop where
  path_eq : writer.path = path
  exists_held : ∃ held, start.AddsFile disk path name held ∧ held ++ writer.waiting = given

variable {writer : Writer} {start : Disk} {path : Path} {name : String} {given : List UInt8}
  {faulty : FaultyDisk}

/-- To pass bytes on is a single request. -/
theorem append_runOn (path : Path) (bytes : List UInt8) (faulty : FaultyDisk) :
    (Script.append path bytes).runOn .faulty faulty = faulty.appendFile path bytes := rfl

/-- Where nothing waits, there is nothing to pass on. -/
theorem flush_of_waiting_eq_nil (h : writer.waiting = []) :
    writer.flush = .done (.ok (), writer) := by
  rw [flush, h]
  rfl

/-- What is passed on no longer waits, and what is not passed on still does. -/
theorem Carries.flush (h : writer.Carries start faulty.disk path name given) :
    let run := writer.flush.runOn .faulty faulty
    run.1.2.Carries start run.2.disk path name given ∧
      (run.1.1 = .ok () → run.1.2.waiting = []) ∧ (faulty.mishaps = [] → run.1.1 = .ok ()) := by
  rw [Writer.flush]
  split
  · next hempty => exact ⟨h, fun _ => List.isEmpty_iff.mp hempty, fun _ => rfl⟩
  · obtain ⟨rfl, held, hfile, rfl⟩ := h
    obtain ⟨htaken, hall, hok⟩ := FaultyDisk.addsFile_appendFile hfile writer.waiting
    rw [Script.runOn_bind, append_runOn]
    refine ⟨⟨rfl, _, htaken, ?_⟩, fun hdone => ?_, hok⟩
    · rw [List.append_assoc]
      exact congrArg (held ++ ·) (List.take_append_drop _ _)
    · exact List.drop_eq_nil_of_le (Nat.le_of_eq (hall hdone).symm)

/-- To make room changes nothing of what has been written. -/
theorem Carries.makeRoom (h : writer.Carries start faulty.disk path name given) (count : Nat) :
    let run := (writer.makeRoom count).runOn .faulty faulty
    run.1.2.Carries start run.2.disk path name given ∧
      (run.1.1 = .ok () → run.1.2.waiting = [] ∨ run.1.2.waiting.length + count ≤ capacity) ∧
      (faulty.mishaps = [] → run.1.1 = .ok ()) := by
  rw [Writer.makeRoom]
  split
  · obtain ⟨hflush, hnone, hok⟩ := h.flush
    exact ⟨hflush, fun hdone => .inl (hnone hdone), hok⟩
  · next hfits => exact ⟨h, fun _ => .inr (Nat.not_lt.mp hfits), fun _ => rfl⟩

/-- Bytes are written in order, or only the first of them. -/
theorem Carries.put (h : writer.Carries start faulty.disk path name given) (bytes : List UInt8) :
    let run := (writer.put bytes).runOn .faulty faulty
    ∃ more, more <+: bytes ∧ run.1.2.Carries start run.2.disk path name (given ++ more) ∧
      (run.1.1 = .ok () → more = bytes) ∧ (faulty.mishaps = [] → run.1.1 = .ok ()) := by
  obtain ⟨hroom, hfits, hok⟩ := h.makeRoom bytes.length
  have hclear := @Script.mishaps_runOn _ (writer.makeRoom bytes.length) faulty
  rw [Writer.put, Script.runOn_bind]
  generalize (writer.makeRoom bytes.length).runOn .faulty faulty = room at hroom hfits hok hclear ⊢
  obtain ⟨⟨outcome, writer⟩, after⟩ := room
  cases outcome with
  | error fault =>
    exact ⟨[], List.nil_prefix, (List.append_nil given).symm ▸ hroom, nofun,
      fun hnone => nomatch hok hnone⟩
  | ok =>
    dsimp only at hroom hfits hclear ⊢
    obtain ⟨rfl, held, hfile, rfl⟩ := hroom
    split
    · next hlarge =>
      -- Nothing waits in front of bytes that are passed on at once, or the order would change.
      have hnone : writer.waiting = [] := by
        rcases hfits rfl with hnone | hsmall
        · exact hnone
        · exact List.length_eq_zero_iff.mp (by omega)
      obtain ⟨htaken, hall, hlast⟩ := FaultyDisk.addsFile_appendFile hfile bytes
      rw [Script.runOn_bind, append_runOn]
      refine ⟨bytes.take (after.appendFile writer.path bytes).1.taken, List.take_prefix _ bytes,
        ⟨rfl, _, htaken, ?_⟩, fun hdone => ?_, fun hnone => hlast (hclear hnone)⟩
      · rw [hnone, List.append_nil]
        exact (congrArg (held ++ _ ++ ·) hnone).trans (List.append_nil _)
      · exact List.take_of_length_le (Nat.le_of_eq (hall hdone).symm)
    · exact ⟨bytes, List.prefix_rfl, ⟨rfl, held, hfile, (List.append_assoc ..).symm⟩, fun _ => rfl,
        fun _ => rfl⟩

/-- Pieces are written in order, up to some point. -/
theorem Carries.putAll (h : writer.Carries start faulty.disk path name given)
    (pieces : List (List UInt8)) :
    let run := (writer.putAll pieces).runOn .faulty faulty
    ∃ more, more <+: pieces.flatten ∧ run.1.2.Carries start run.2.disk path name (given ++ more) ∧
      (run.1.1 = .ok () → more = pieces.flatten) ∧ (faulty.mishaps = [] → run.1.1 = .ok ()) := by
  induction pieces generalizing writer given faulty with
  | nil => exact ⟨[], List.prefix_rfl, (List.append_nil given).symm ▸ h, fun _ => rfl, fun _ => rfl⟩
  | cons piece rest ih =>
    obtain ⟨first, hprefix, hput, hall, hok⟩ := h.put piece
    have hclear := @Script.mishaps_runOn _ (writer.put piece) faulty
    rw [Writer.putAll, Script.runOn_bind, List.flatten_cons]
    generalize (writer.put piece).runOn .faulty faulty = step at hput hall hok hclear ⊢
    obtain ⟨⟨outcome, writer⟩, after⟩ := step
    cases outcome with
    | error fault =>
      exact ⟨first, hprefix.trans (List.prefix_append _ _), hput, nofun,
        fun hnone => nomatch hok hnone⟩
    | ok =>
      obtain rfl := hall rfl
      obtain ⟨more, hmore, hrest, hlast, hokRest⟩ := ih hput
      exact ⟨first ++ more, (List.prefix_append_right_inj first).mpr hmore,
        (List.append_assoc ..) ▸ hrest, fun hdone => congrArg (first ++ ·) (hlast hdone),
        fun hnone => hokRest (hclear hnone)⟩

/-- To save is to write pieces, and nothing waits if no fault is reported. -/
theorem Carries.save (h : writer.Carries start faulty.disk path name given)
    (pieces : List (List UInt8)) :
    let run := (writer.save pieces).runOn .faulty faulty
    ∃ more, more <+: pieces.flatten ∧ run.1.2.Carries start run.2.disk path name (given ++ more) ∧
      (run.1.1 = .ok () → more = pieces.flatten ∧ run.1.2.waiting = []) ∧
      (faulty.mishaps = [] → run.1.1 = .ok ()) := by
  obtain ⟨more, hprefix, hput, hall, hok⟩ := h.putAll pieces
  have hclear := @Script.mishaps_runOn _ (writer.putAll pieces) faulty
  rw [Writer.save, Script.runOn_bind]
  generalize (writer.putAll pieces).runOn .faulty faulty = step at hput hall hok hclear ⊢
  obtain ⟨⟨outcome, writer⟩, after⟩ := step
  cases outcome with
  | error fault => exact ⟨more, hprefix, hput, nofun, fun hnone => nomatch hok hnone⟩
  | ok =>
    obtain ⟨hflush, hempty, hlast⟩ := hput.flush
    exact ⟨more, hprefix, hflush, fun hdone => ⟨hall rfl, hempty hdone⟩,
      fun hnone => hlast (hclear hnone)⟩

/-- In the end the file holds the first of the bytes, and all of them if no fault is reported. -/
theorem Carries.finish (h : writer.Carries start faulty.disk path name given)
    (pieces : List (List UInt8)) :
    let run := (writer.finish pieces).runOn .faulty faulty
    ∃ part, part <+: given ++ pieces.flatten ∧ start.AddsFile run.2.disk path name part ∧
      (run.1 = .ok () → part = given ++ pieces.flatten) ∧
      (faulty.mishaps = [] → run.1 = .ok ()) := by
  obtain ⟨more, hprefix, hsave, hall, hok⟩ := h.save pieces
  rw [Writer.finish, Script.runOn_bind]
  generalize (writer.save pieces).runOn .faulty faulty = saved at hsave hall hok ⊢
  obtain ⟨⟨outcome, writer⟩, after⟩ := saved
  dsimp only at hsave hall ⊢
  -- How the last attempt to pass something on went is not reported, but it was made.
  rw [Script.runOn_bind]
  obtain ⟨⟨-, held, hfile, heq⟩, -⟩ := hsave.flush
  have hpart : held <+: given ++ more := heq ▸ List.prefix_append held _
  refine ⟨held, hpart.trans ((List.prefix_append_right_inj given).mpr hprefix), hfile,
    fun hdone => ?_, hok⟩
  obtain ⟨rfl, hnone⟩ := hall hdone
  rw [flush_of_waiting_eq_nil hnone] at heq
  exact (List.append_nil held).symm.trans ((congrArg (held ++ ·) hnone.symm).trans heq)

/-- A file that is written is created and holds the first of the bytes, and all of them if no fault
is reported. Otherwise the disk stays as it was. Where nothing is in store, a file that can be
created is written. -/
theorem write_runOn (hroot : faulty.disk.root.HasFolder []) (path : Path)
    (pieces : List (List UInt8)) :
    let run := (Writer.write path pieces).runOn .faulty faulty
    ((∃ fault, run.1 = .error fault) ∧ run.2.disk = faulty.disk ∨
      path.hasNul = false ∧ ∃ name part, part <+: pieces.flatten ∧
        faulty.disk.AddsFile run.2.disk path name part ∧
        (run.1 = .ok () → part = pieces.flatten)) ∧
      (faulty.mishaps = [] → path.hasNul = false →
        (∃ changed, faulty.disk.createFile path = .ok changed) → run.1 = .ok ()) := by
  rw [Writer.write, Script.runOn_bind, FaultyDisk.create_runOn]
  cases hnul : path.hasNul with
  | true =>
    rw [if_pos rfl]
    exact ⟨.inl ⟨⟨_, rfl⟩, rfl⟩, fun _ hfalse => Bool.noConfusion hfalse⟩
  | false =>
    rw [if_neg Bool.false_ne_true]
    obtain ⟨fault, hsame, hcause⟩ | ⟨changed, hmade, hsame⟩ :=
      faulty.change_cases (·.createFile path)
    · rw [hsame]
      refine ⟨.inl ⟨⟨fault, rfl⟩, rfl⟩, ?_⟩
      rintro hnone - ⟨changed, hmade⟩
      cases hmade.symm.trans (hcause hnone)
    · rw [hsame]
      obtain ⟨name, hfile⟩ := Disk.addsFile_createFile hroot hmade
      have hnew : Carries ⟨path, []⟩ faulty.disk (faulty.after changed).disk path name [] :=
        ⟨rfl, [], hfile, rfl⟩
      obtain ⟨part, hprefix, hpart, hall, hok⟩ := hnew.finish pieces
      exact ⟨.inr ⟨rfl, name, part, hprefix, hpart, hall⟩,
        fun hnone _ _ => hok (congrArg List.tail hnone)⟩

end Writer

end GameSetup
