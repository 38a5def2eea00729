import GameSetup.Storage.Tree
import Mathlib.Data.List.Basic

/-!
# Trails and ways

What is put under a name of a directory replaces what was there and touches nothing else: every
other file keeps its bytes, and every other directory stays one. A trail that starts at the root of
a tree shows at each step what the tree has at the end of the way so far. So how far names can be
followed depends on the directories of the tree alone, and more directories lead no name astray.
-/

namespace GameSetup

namespace Tree

/-- What the file at the end of a way holds. -/
def file? (tree : Tree) (way : Way) : Option (List UInt8) :=
  match tree.get? way with
  | some (.file bytes) => some bytes
  | _ => none

/-- Whether a directory is at the end of a way. -/
def HasFolder (tree : Tree) (way : Way) : Prop :=
  ∃ entries, tree.get? way = some (.directory entries)

variable {tree : Tree} {way other : Way} {name : String}

/-- What is found along two ways is found along one after the other. -/
theorem get?_append (tree : Tree) (way more : Way) :
    tree.get? (way ++ more) = (tree.get? way).bind (·.get? more) := by
  induction way generalizing tree with
  | nil => rw [List.nil_append, get?_nil, Option.bind_some]
  | cons name rest ih =>
    rw [List.cons_append, get?, get?]
    cases tree.child? name with
    | none => rfl
    | some child => exact ih child

/-- Only a directory has something in it. -/
theorem hasFolder_of_get?_append {more : Way} {found : Tree} (hmore : more ≠ [])
    (h : tree.get? (way ++ more) = some found) : tree.HasFolder way := by
  rw [get?_append] at h
  obtain ⟨inner, hinner, hfound⟩ := Option.bind_eq_some_iff.mp h
  cases inner with
  | directory entries => exact ⟨entries, hinner⟩
  | file bytes =>
    cases more with
    | nil => exact absurd rfl hmore
    | cons name rest => cases hfound

/-- On the way to a directory are directories. -/
theorem HasFolder.above (h : tree.HasFolder way) (hup : other <+: way) :
    tree.HasFolder other := by
  obtain ⟨more, rfl⟩ := hup
  obtain ⟨entries, hentries⟩ := h
  cases more with
  | nil => exact ⟨entries, by rwa [List.append_nil] at hentries⟩
  | cons name rest => exact hasFolder_of_get?_append (List.cons_ne_nil name rest) hentries

/-- A file is what is found with its bytes. -/
theorem file?_eq_some_iff {bytes : List UInt8} :
    tree.file? way = some bytes ↔ tree.get? way = some (.file bytes) := by
  rw [file?]
  split
  · next found hfound => simp [hfound]
  · next hnot => exact iff_of_false (fun h => nomatch h) fun h => hnot bytes h

/-- A directory is not a file. -/
theorem HasFolder.file?_eq_none (h : tree.HasFolder way) : tree.file? way = none := by
  obtain ⟨entries, hentries⟩ := h
  rw [file?, hentries]

/-- There is no file below what is no directory. -/
theorem file?_append_eq_none {more : Way} (hmore : more ≠ []) (h : ¬ tree.HasFolder way) :
    tree.file? (way ++ more) = none :=
  Option.eq_none_iff_forall_ne_some.mpr fun _ hfile =>
    h (hasFolder_of_get?_append hmore (file?_eq_some_iff.mp hfile))

section Put

variable {content : Tree}

/-- What is put into a directory is found behind its name. The directories on the way stay
directories, and all else stays as it was. -/
theorem get?_put_cases (hfolder : tree.HasFolder way) (name : String) (content : Tree)
    (other : Way) :
    (∃ more, other = way ++ [name] ++ more ∧
      (tree.put (way ++ [name]) content).get? other = content.get? more) ∨
    (tree.HasFolder other ∧ (tree.put (way ++ [name]) content).HasFolder other) ∨
    (tree.put (way ++ [name]) content).get? other = tree.get? other := by
  by_cases hbehind : way ++ [name] <+: other
  · obtain ⟨more, rfl⟩ := hbehind
    exact .inl ⟨more, rfl, by rw [get?_append, get?_put_self, Option.bind_some]⟩
  · by_cases hbefore : other <+: way ++ [name]
    · obtain hsame | hway := List.prefix_concat_iff.mp hbefore
      · exact absurd (hsame ▸ List.prefix_refl _) hbehind
      · obtain ⟨more, rfl⟩ := hway
        have hput := get?_put_self tree content (other ++ more ++ [name])
        rw [List.append_assoc] at hput ⊢
        exact .inr (.inl ⟨hfolder.above (List.prefix_append other more),
          hasFolder_of_get?_append (List.append_ne_nil_of_right_ne_nil _ (List.cons_ne_nil _ _))
            hput⟩)
    · exact .inr (.inr (get?_put_of_not_isPrefix tree content hbehind hbefore))

/-- Something without files in it leaves the files elsewhere alone. -/
theorem file?_put_of_ne (hfolder : tree.HasFolder way) (hplace : ¬ tree.HasFolder (way ++ [name]))
    (hcontent : ∀ more ≠ [], content.get? more = none) (hne : other ≠ way ++ [name]) :
    (tree.put (way ++ [name]) content).file? other = tree.file? other := by
  obtain ⟨more, rfl, hget⟩ | ⟨hbefore, hafter⟩ | hget :=
    get?_put_cases hfolder name content other
  · have hmore : more ≠ [] := fun hnil => hne (by rw [hnil, List.append_nil])
    rw [file?_append_eq_none hmore hplace, file?, hget, hcontent more hmore]
  · rw [hbefore.file?_eq_none, hafter.file?_eq_none]
  · rw [file?, hget, file?]

/-- A file changes no other file. -/
theorem file?_put_file (hfolder : tree.HasFolder way) (hplace : ¬ tree.HasFolder (way ++ [name]))
    (bytes : List UInt8) (other : Way) :
    (tree.put (way ++ [name]) (.file bytes)).file? other =
      if other = way ++ [name] then some bytes else tree.file? other := by
  split
  · next hsame => exact file?_eq_some_iff.mpr (hsame ▸ get?_put_self tree _ _)
  · next hne =>
    refine file?_put_of_ne hfolder hplace (fun more hmore => ?_) hne
    cases more with
    | nil => exact absurd rfl hmore
    | cons name rest => rfl

/-- A new directory changes no file. -/
theorem file?_put_empty (hfolder : tree.HasFolder way) (hplace : tree.get? (way ++ [name]) = none)
    (other : Way) : (tree.put (way ++ [name]) .empty).file? other = tree.file? other := by
  by_cases hsame : other = way ++ [name]
  · have hput : (tree.put (way ++ [name]) .empty).HasFolder (way ++ [name]) :=
      ⟨[], get?_put_self tree _ _⟩
    rw [hsame, hput.file?_eq_none, file?, hplace]
  · refine file?_put_of_ne hfolder ?_ (fun more hmore => get?_empty hmore) hsame
    rintro ⟨entries, hentries⟩
    exact nomatch hplace.symm.trans hentries

/-- What takes the place of no directory leaves all directories. -/
theorem HasFolder.put (h : tree.HasFolder other) (hfolder : tree.HasFolder way)
    (hplace : ¬ tree.HasFolder (way ++ [name])) (content : Tree) :
    (tree.put (way ++ [name]) content).HasFolder other := by
  obtain ⟨more, rfl, -⟩ | ⟨-, hafter⟩ | hget := get?_put_cases hfolder name content other
  · exact absurd (h.above (List.prefix_append _ more)) hplace
  · exact hafter
  · rwa [HasFolder, hget]

end Put

end Tree

/-- Where a name leads from the end of a way. -/
def Way.follow (way : Way) (name : String) : Way :=
  if name = ".." then way.dropLast else way ++ [name]

/-- Whether names can be followed from the end of a way. -/
def Tree.Passable (tree : Tree) : Way → List String → Prop
  | _, [] => True
  | way, name :: rest =>
    (name ≠ ".." → name.utf8ByteSize ≤ nameLimit ∧ tree.HasFolder (way ++ [name])) ∧
      tree.Passable (way.follow name) rest

namespace Tree

variable {tree other : Tree}

/-- More directories lead no name astray. -/
theorem Passable.mono (hfolders : ∀ way, tree.HasFolder way → other.HasFolder way) {way : Way}
    {names : List String} (h : tree.Passable way names) : other.Passable way names := by
  induction names generalizing way with
  | nil => exact trivial
  | cons name rest ih => exact ⟨fun hname => (h.1 hname).imp_right (hfolders _), ih h.2⟩

/-- Names that can be followed lead to a directory. -/
theorem Passable.hasFolder {way : Way} {names : List String} (h : tree.Passable way names)
    (hway : tree.HasFolder way) : tree.HasFolder (names.foldl Way.follow way) := by
  induction names generalizing way with
  | nil => exact hway
  | cons name rest ih =>
    refine ih h.2 ?_
    rw [Way.follow]
    split
    · exact hway.above (List.dropLast_prefix way)
    · next hname => exact (h.1 hname).2

/-- Without two dots, names lead straight on. -/
theorem foldl_follow {names : List String} (h : ".." ∉ names) (way : Way) :
    names.foldl Way.follow way = way ++ names := by
  induction names generalizing way with
  | nil => exact (List.append_nil way).symm
  | cons name rest ih =>
    have hname : name ≠ ".." := fun hdots => h (hdots ▸ List.mem_cons_self)
    rw [List.foldl_cons, ih (fun hmem => h (List.mem_cons_of_mem name hmem)), Way.follow,
      if_neg hname, List.append_assoc, List.singleton_append]

/-- Names that lead straight on can be followed wherever they lead to a directory, unless one of
them is too long. -/
theorem Passable.of_hasFolder {way : Way} {names : List String} (hdots : ".." ∉ names)
    (h : tree.Passable way names) (hfolder : other.HasFolder (way ++ names)) :
    other.Passable way names := by
  induction names generalizing way with
  | nil => exact trivial
  | cons name rest ih =>
    have hname : name ≠ ".." := fun heq => hdots (heq ▸ List.mem_cons_self)
    have hfollow : way.follow name = way ++ [name] := if_neg hname
    rw [List.append_cons] at hfolder
    exact ⟨fun hne => ⟨(h.1 hne).1, hfolder.above (List.prefix_append _ rest)⟩,
      ih (fun hmem => hdots (List.mem_cons_of_mem name hmem)) h.2 (hfollow ▸ hfolder)⟩

end Tree

namespace Trail

/-- The trail that goes on to a directory under a name. -/
def enter (trail : Trail) (name : String) (entries : List (String × Tree)) : Trail :=
  { trail with steps := (name, .directory entries) :: trail.steps }

/-- To enter adds a name to the way. -/
theorem way_enter (trail : Trail) (name : String) (entries : List (String × Tree)) :
    (trail.enter name entries).way = trail.way ++ [name] := by
  rw [way, enter, List.map_cons, List.reverse_cons, way]

/-- To go up drops the last one. -/
theorem way_up (trail : Trail) : trail.up.way = trail.way.dropLast := by
  rw [way, way, up, List.dropLast_reverse, List.map_tail]

/-- A trail that shows the directories that its tree has on the way. -/
structure Sound (trail : Trail) : Prop where
  found : ∀ steps, steps <:+ trail.steps → ∃ entries,
    trail.root.get? (Trail.mk trail.root steps).way = some (.directory entries) ∧
      (Trail.mk trail.root steps).here = .directory entries

/-- The trail that starts at a directory. -/
theorem sound_top {root : Tree} (h : root.HasFolder []) : (Trail.mk root []).Sound where
  found := by
    intro steps hsteps
    obtain ⟨entries, hentries⟩ := h
    obtain rfl := List.suffix_nil.mp hsteps
    exact ⟨entries, hentries, Option.some.inj ((Tree.get?_nil root).symm.trans hentries)⟩

namespace Sound

variable {trail next : Trail} {name : String}

/-- A name is looked up where the way leads. -/
theorem child?_here (h : trail.Sound) (name : String) :
    trail.here.child? name = trail.root.get? (trail.way ++ [name]) := by
  obtain ⟨entries, hentries, hhere⟩ := h.found trail.steps (List.suffix_refl _)
  change trail.root.get? trail.way = _ at hentries
  change trail.here = _ at hhere
  rw [Tree.get?_append, hentries, hhere, Option.bind_some, Tree.get?]
  cases (Tree.directory entries).child? name with
  | none => rfl
  | some child => exact (Tree.get?_nil child).symm

/-- Going up, what is around a trail is still what is there. -/
theorem up (h : trail.Sound) : trail.up.Sound where
  found := fun steps hsteps => h.found steps (hsteps.trans (List.tail_suffix _))

/-- A trail goes on to a directory under a name. -/
theorem enter {entries : List (String × Tree)} (h : trail.Sound)
    (hfound : trail.root.get? (trail.way ++ [name]) = some (.directory entries)) :
    (trail.enter name entries).Sound where
  found := by
    intro steps hsteps
    rcases List.suffix_cons_iff.mp hsteps with rfl | hsteps
    · exact ⟨entries, way_enter trail name entries ▸ hfound, rfl⟩
    · exact h.found steps hsteps

/-- A step to a name is one to what the tree has there. -/
theorem step_eq (h : trail.Sound) (hname : name ≠ "..") :
    trail.step name =
      if nameLimit < name.utf8ByteSize then .error .nameTooLong
      else
        match trail.root.get? (trail.way ++ [name]) with
        | none => .error .notFound
        | some (.file _) => .error .notDirectory
        | some (.directory entries) => .ok (trail.enter name entries) := by
  rw [step, if_neg hname, lookUp, h.child?_here]
  by_cases hlong : nameLimit < name.utf8ByteSize
  · simp only [if_pos hlong]
  · simp only [if_neg hlong]
    cases trail.root.get? (trail.way ++ [name]) with
    | none => rfl
    | some found => cases found <;> rfl

/-- A step that can be made leads where the name says. -/
theorem step_ok (h : trail.Sound) (hstep : trail.step name = .ok next) :
    next.Sound ∧ next.root = trail.root ∧ next.way = trail.way.follow name ∧
      (name ≠ ".." →
        name.utf8ByteSize ≤ nameLimit ∧ trail.root.HasFolder (trail.way ++ [name])) := by
  by_cases hdots : name = ".."
  · rw [step, if_pos hdots] at hstep
    obtain rfl := Except.ok.inj hstep
    rw [Way.follow, if_pos hdots]
    exact ⟨h.up, rfl, way_up trail, fun hne => absurd hdots hne⟩
  · rw [h.step_eq hdots] at hstep
    split_ifs at hstep with hlong
    split at hstep
    · cases hstep
    · cases hstep
    · next entries hfound =>
      obtain rfl := Except.ok.inj hstep
      rw [Way.follow, if_neg hdots]
      exact ⟨h.enter hfound, rfl, way_enter trail name entries,
        fun _ => ⟨Nat.not_lt.mp hlong, entries, hfound⟩⟩

/-- A step can be made to a directory, unless its name is too long. -/
theorem exists_step (h : trail.Sound)
    (hname : name ≠ ".." →
      name.utf8ByteSize ≤ nameLimit ∧ trail.root.HasFolder (trail.way ++ [name])) :
    ∃ next, trail.step name = .ok next := by
  by_cases hdots : name = ".."
  · exact ⟨trail.up, if_pos hdots⟩
  · obtain ⟨hlong, entries, hentries⟩ := hname hdots
    rw [h.step_eq hdots, if_neg (Nat.not_lt.mpr hlong), hentries]
    exact ⟨_, rfl⟩

/-- Following names leads where they say. -/
theorem walk_ok {names : List String} (h : trail.Sound) (hwalk : trail.walk names = .ok next) :
    next.Sound ∧ next.root = trail.root ∧ next.way = names.foldl Way.follow trail.way ∧
      trail.root.Passable trail.way names := by
  induction names generalizing trail with
  | nil =>
    obtain rfl := Except.ok.inj hwalk
    exact ⟨h, rfl, rfl, trivial⟩
  | cons name rest ih =>
    rw [walk] at hwalk
    cases hstep : trail.step name with
    | error fault =>
      rw [hstep] at hwalk
      cases hwalk
    | ok first =>
      rw [hstep] at hwalk
      obtain ⟨hfirst, hroot, hway, hname⟩ := h.step_ok hstep
      obtain ⟨hsound, hlast, hend, hpass⟩ := ih hfirst hwalk
      rw [hroot] at hlast hpass
      rw [hway] at hend hpass
      exact ⟨hsound, hlast, hend, hname, hpass⟩

/-- Names can be followed as far as the tree lets them pass. -/
theorem exists_walk {names : List String} (h : trail.Sound)
    (hpass : trail.root.Passable trail.way names) : ∃ next, trail.walk names = .ok next := by
  induction names generalizing trail with
  | nil => exact ⟨trail, rfl⟩
  | cons name rest ih =>
    obtain ⟨first, hstep⟩ := h.exists_step hpass.1
    obtain ⟨hfirst, hroot, hway, -⟩ := h.step_ok hstep
    rw [walk, hstep]
    exact ih hfirst (hroot ▸ hway ▸ hpass.2)

end Sound

/-- Names are followed one behind the other. -/
theorem walk_append (trail : Trail) (front back : List String) :
    trail.walk (front ++ back) =
      match trail.walk front with
      | .error fault => .error fault
      | .ok next => next.walk back := by
  induction front generalizing trail with
  | nil => rfl
  | cons name rest ih =>
    rw [List.cons_append, walk, walk]
    cases trail.step name with
    | error fault => rfl
    | ok next => exact ih next

end Trail

end GameSetup
