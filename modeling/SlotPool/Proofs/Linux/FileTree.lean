import SlotPool.Linux.FileTree
import SlotPool.Proofs.Failure.Outcome
import SlotPool.Proofs.Text.Words
/-!
How files are found under the name of one of them and the path of its directory. A name stands for one location, which
the directory's path fixes; a file is found there, made there and removed from there. Making directories leaves every
other file where it is.
-/

namespace SlotPool.Linux

/-- A name that is a single part of a path and does not lead back. -/
structure ProperName (name : String) : Prop where
  nonempty : name ≠ ""
  onePart : '/' ∉ name.toList
  notHere : name ≠ "."
  notAbove : name ≠ ".."
  short : name.utf8ByteSize ≤ longestName

variable {name path : String} {current here there location : Location} {parts before rest : List String}
  {tree later : FileTree} {file : File}

/-! ### The parts of a path -/

theorem pathParts_append_slash (front back : String) :
    pathParts (front ++ "/" ++ back) = pathParts front ++ pathParts back := by
  have hslash : (front ++ "/" ++ back).toList = front.toList ++ '/' :: back.toList := by simp
  rw [pathParts, hslash, Text.fields_eq_splitOnP, List.splitOnP_append_cons _ _ (by decide), List.map_append,
    ← Text.fields_eq_splitOnP, ← Text.fields_eq_splitOnP, pathParts, pathParts]

theorem ProperName.pathParts_eq (h : ProperName name) : pathParts name = [name] := by
  have hsolid : ∀ c ∈ name.toList, (c == '/') = false := fun c hc => beq_false_of_ne fun heq => h.onePart (heq ▸ hc)
  rw [pathParts, Text.fields_eq_splitOnP, List.splitOnP_eq_singleton hsolid, List.map_singleton, String.ofList_toList]

theorem ProperName.not_isAbsolute (h : ProperName name) : isAbsolute name = false := by
  refine decide_eq_false fun hhead => h.onePart ?_
  obtain ⟨rest, hrest⟩ := List.head?_eq_some_iff.mp hhead
  exact hrest ▸ List.mem_cons_self ..

theorem isAbsolute_append (hnonempty : path ≠ "") (rest : String) : isAbsolute (path ++ rest) = isAbsolute path := by
  have hchars : path.toList ≠ [] := fun hnil => hnonempty (String.toList_eq_nil_iff.mp hnil)
  obtain ⟨c, more, hpath⟩ := List.exists_cons_of_ne_nil hchars
  rw [isAbsolute, isAbsolute, String.toList_append, hpath, List.cons_append, List.head?_cons, List.head?_cons]

/-- A name put after a path leaves the path as absolute or as relative as it was. An empty path stands for the
    name alone, which does not begin at the root. -/
theorem isAbsolute_joinPath (h : ProperName name) (path : String) :
    isAbsolute (joinPath path name) = isAbsolute path := by
  rw [joinPath, h.not_isAbsolute, if_neg Bool.false_ne_true]
  by_cases hempty : path = ""
  · rw [if_pos (.inl hempty), hempty, String.empty_append, h.not_isAbsolute]
    rfl
  · split
    · exact isAbsolute_append hempty _
    · rw [String.append_assoc, isAbsolute_append hempty]

/-- A name in a directory is the last part of its path, in place of the empty part if a slash ends that of the
directory. -/
theorem pathParts_joinPath (h : ProperName name) (path : String) :
    ∃ before, pathParts (joinPath path name) = before ++ [name] ∧
      (pathParts path = before ∨ pathParts path = before ++ [""]) := by
  rw [joinPath, h.not_isAbsolute, if_neg Bool.false_ne_true]
  by_cases hempty : path = ""
  · rw [if_pos (.inl hempty), hempty, String.empty_append, h.pathParts_eq]
    exact ⟨[], rfl, .inr rfl⟩
  by_cases hslash : path.toList.getLast? = some '/'
  · obtain ⟨front, hfront⟩ := List.getLast?_eq_some_iff.mp hslash
    have hpath : path = String.ofList front ++ "/" := String.toList_inj.mp (by simp [hfront])
    rw [if_pos (.inr hslash), hpath, pathParts_append_slash, h.pathParts_eq]
    refine ⟨_, rfl, .inr ?_⟩
    rw [← String.append_empty (s := String.ofList front ++ "/"), pathParts_append_slash]
    rfl
  · rw [if_neg (not_or.mpr ⟨hempty, hslash⟩), pathParts_append_slash, h.pathParts_eq]
    exact ⟨_, rfl, .inl rfl⟩

namespace FileTree

/-! ### Looking up, putting and removing -/

theorem file?_of_ne_nil (h : location ≠ []) : tree.file? location = tree.files[location]? := by
  cases location with
  | nil => exact absurd rfl h
  | cons => rfl

/-- A new file is found where it was put, and everything else where it was. The root is no file of the table, so
    it cannot be put. -/
theorem file?_insert (h : location ≠ []) (other : Location) :
    (tree.insert location file).file? other = if location = other then some file else tree.file? other := by
  cases other with
  | nil => rw [if_neg h, file?, file?]
  | cons name above =>
    simp only [file?, insert, Std.ExtTreeMap.getElem?_insert, Std.compare_eq_iff_eq]

/-- An erased file is found no more, and everything else is where it was. -/
theorem file?_erase (h : location ≠ []) (other : Location) :
    (tree.erase location).file? other = if location = other then none else tree.file? other := by
  cases other with
  | nil => rw [if_neg h, file?, file?]
  | cons name above =>
    simp only [file?, erase, Std.ExtTreeMap.getElem?_erase, Std.compare_eq_iff_eq]

/-- At the root there is always a directory. -/
theorem ne_nil_of_vacant (hnone : tree.file? location = none) : location ≠ [] := by
  rintro rfl
  cases hnone

theorem ne_nil_of_file (hfile : tree.file? location = some file) (hother : file ≠ .directory) : location ≠ [] := by
  rintro rfl
  exact hother (Option.some.inj hfile).symm

/-- A file that is put where nothing was and erased again leaves no trace. -/
theorem erase_insert (hnone : tree.file? location = none) : (tree.insert location file).erase location = tree := by
  rw [file?_of_ne_nil (ne_nil_of_vacant hnone)] at hnone
  refine congrArg FileTree.mk (Std.ExtTreeMap.ext_getElem? fun {other} => ?_)
  simp only [insert, Std.ExtTreeMap.getElem?_erase, Std.ExtTreeMap.getElem?_insert, Std.compare_eq_iff_eq]
  split
  · rename_i hother
    rw [← hother, hnone]
  · rfl

theorem insert_insert (earlier : File) : (tree.insert location earlier).insert location file =
    tree.insert location file := by
  refine congrArg FileTree.mk (Std.ExtTreeMap.ext_getElem? fun {other} => ?_)
  simp only [insert, Std.ExtTreeMap.getElem?_insert]
  split <;> rfl

/-- No directory has gone. -/
def KeepsDirectories (tree later : FileTree) : Prop :=
  ∀ location, tree.file? location = some .directory → later.file? location = some .directory

/-- A new file replaces no directory. -/
theorem keepsDirectories_insert (hnone : tree.file? location = none) (file : File) :
    tree.KeepsDirectories (tree.insert location file) := by
  intro other hdirectory
  rw [file?_insert (ne_nil_of_vacant hnone), if_neg, hdirectory]
  rintro rfl
  rw [hnone] at hdirectory
  cases hdirectory

/-- Erasing what is no directory leaves all directories. -/
theorem keepsDirectories_erase (hfile : tree.file? location = some file) (hother : file ≠ .directory) :
    tree.KeepsDirectories (tree.erase location) := by
  intro other hdirectory
  rw [file?_erase (ne_nil_of_file hfile hother), if_neg, hdirectory]
  rintro rfl
  exact hother (Option.some.inj (hfile.symm.trans hdirectory))

/-! ### Following a path -/

theorem checkDirectory_eq_ok_iff : tree.checkDirectory here = .ok () ↔ tree.file? here = some .directory := by
  rw [checkDirectory]
  split <;> simp [*]

theorem walk_cons_eq_ok_iff {part : String} : tree.walk here (part :: rest) = .ok there ↔
    tree.file? here = some .directory ∧ ∃ next, follow here part = .ok next ∧ tree.walk next rest = .ok there := by
  rw [walk, seq_eq_ok_iff, bind_eq_ok_iff, checkDirectory_eq_ok_iff]

/-- A walk along two parts of a path is a walk along the first and from there along the second. -/
theorem walk_append_eq_ok_iff : tree.walk here (before ++ rest) = .ok there ↔
    ∃ between, tree.walk here before = .ok between ∧ tree.walk between rest = .ok there := by
  induction before generalizing here with
  | nil => simp [walk]
  | cons part before ih =>
    simp only [List.cons_append, walk_cons_eq_ok_iff, ih]
    grind

theorem walk_empty : tree.walk here [""] = .ok there ↔ tree.file? here = some .directory ∧ there = here := by
  rw [walk_cons_eq_ok_iff, follow, if_pos (.inl rfl)]
  simp only [walk, Except.ok.injEq, exists_eq_left', eq_comm]

theorem follow_name (h : ProperName name) : follow here name = .ok (name :: here) := by
  rw [follow, if_neg (not_or.mpr ⟨h.nonempty, h.notHere⟩), if_neg h.notAbove, if_neg (Nat.not_lt.mpr h.short)]

theorem walk_name (h : ProperName name) :
    tree.walk here [name] = .ok there ↔ tree.file? here = some .directory ∧ there = name :: here := by
  rw [walk_cons_eq_ok_iff, follow_name h]
  simp only [walk, Except.ok.injEq, exists_eq_left', eq_comm (a := there)]

/-- What is found is what is where the path leads, unless this is a link that leads nowhere. -/
theorem find_eq_ok_iff : tree.find current path = .ok (location, file) ↔ checkPath path = .ok () ∧
    tree.walk (origin current path) (pathParts path) = .ok location ∧
    tree.file? location = some file ∧ file ≠ .danglingLink := by
  rw [find, seq_eq_ok_iff, bind_eq_ok_iff]
  constructor
  · rintro ⟨hchecked, there, hwalk, hfound⟩
    split at hfound
    · cases hfound
    · cases hfound
    · rename_i file' hlink hfile
      obtain ⟨rfl, rfl⟩ := Prod.mk.inj (Except.ok.inj hfound)
      exact ⟨hchecked, hwalk, hfile, hlink⟩
  · rintro ⟨hchecked, hwalk, hfile, hlink⟩
    refine ⟨hchecked, location, hwalk, ?_⟩
    rw [hfile]
    cases file <;> first | rfl | exact absurd rfl hlink

/-- What is where the path leads is removed unless it is a directory. -/
theorem remove_eq_ok_iff : tree.remove current path = .ok later ↔ checkPath path = .ok () ∧
    ∃ location file, tree.walk (origin current path) (pathParts path) = .ok location ∧
      tree.file? location = some file ∧ file ≠ .directory ∧ later = tree.erase location := by
  rw [remove, seq_eq_ok_iff, bind_eq_ok_iff]
  refine and_congr_right fun _ => exists_congr fun location => ?_
  constructor
  · rintro ⟨hwalk, hremoved⟩
    split at hremoved
    · cases hremoved
    · cases hremoved
    · rename_i file hdirectory hfile
      exact ⟨file, hwalk, hfile, hdirectory, (Except.ok.inj hremoved).symm⟩
  · rintro ⟨file, hwalk, hfile, hdirectory, rfl⟩
    refine ⟨hwalk, ?_⟩
    rw [hfile]
    cases file <;> first | rfl | exact absurd rfl hdirectory

/-! ### A name in a directory -/

/-- A path leads to a directory. -/
structure Reaches (tree : FileTree) (current : Location) (path : String) (directory : Location) : Prop where
  leads : tree.walk (origin current path) (pathParts path) = .ok directory
  directory : tree.file? directory = some .directory

/-- The system takes the path of a name in a directory, and this is where the path leads, whatever is there. -/
structure Places (tree : FileTree) (current : Location) (path name : String) (location : Location) : Prop where
  checked : checkPath (joinPath path name) = .ok ()
  below : ∃ directory, tree.Reaches current path directory ∧ location = name :: directory

theorem Places.ne_nil (h : tree.Places current path name location) : location ≠ [] := by
  obtain ⟨directory, -, rfl⟩ := h.below
  exact List.cons_ne_nil name directory

theorem Places.ne_of_name_ne {name' : String} {other : Location} (h : tree.Places current path name location)
    (h' : later.Places current path name' other) (hne : name ≠ name') : location ≠ other := by
  obtain ⟨directory, -, rfl⟩ := h.below
  obtain ⟨directory', -, rfl⟩ := h'.below
  exact fun heq => hne (List.cons.inj heq).1

/-- The parts in front of a name in a directory lead where the directory's path leads, if this is a directory at all. -/
theorem reaches_iff (hparts : pathParts path = before ∨ pathParts path = before ++ [""]) :
    tree.Reaches current path there ↔
      tree.walk (origin current path) before = .ok there ∧ tree.file? there = some .directory := by
  rcases hparts with hparts | hparts
  · exact ⟨fun h => ⟨hparts ▸ h.leads, h.directory⟩, fun h => ⟨hparts ▸ h.1, h.2⟩⟩
  · constructor
    · intro h
      have hleads := h.leads
      rw [hparts, walk_append_eq_ok_iff] at hleads
      obtain ⟨between, hbefore, hempty⟩ := hleads
      obtain ⟨hdirectory, rfl⟩ := walk_empty.mp hempty
      exact ⟨hbefore, hdirectory⟩
    · rintro ⟨hbefore, hdirectory⟩
      refine ⟨?_, hdirectory⟩
      rw [hparts, walk_append_eq_ok_iff]
      exact ⟨there, hbefore, walk_empty.mpr ⟨hdirectory, rfl⟩⟩

/-- The path of a name in a directory leads to the name below that directory, whether or not there is a file.
    The last part of the path is not followed. -/
theorem walk_joinPath (h : ProperName name) :
    tree.walk (origin current (joinPath path name)) (pathParts (joinPath path name)) = .ok location ↔
      ∃ directory, tree.Reaches current path directory ∧ location = name :: directory := by
  obtain ⟨before, hjoined, hparts⟩ := pathParts_joinPath h path
  rw [origin, isAbsolute_joinPath h, ← origin, hjoined, walk_append_eq_ok_iff]
  simp only [walk_name h, reaches_iff hparts, and_assoc]

/-- What is found under a name is what is at its place, unless this is a link that leads nowhere. -/
theorem find_joinPath (h : ProperName name) : tree.find current (joinPath path name) = .ok (location, file) ↔
    tree.Places current path name location ∧ tree.file? location = some file ∧ file ≠ .danglingLink := by
  rw [find_eq_ok_iff, walk_joinPath h]
  exact ⟨fun ⟨hchecked, hbelow, hfile⟩ => ⟨⟨hchecked, hbelow⟩, hfile⟩,
    fun ⟨hplaces, hfile⟩ => ⟨hplaces.checked, hplaces.below, hfile⟩⟩

/-- A file can be made under a name if there is nothing at its place. -/
theorem vacancy_joinPath (h : ProperName name) : tree.vacancy current (joinPath path name) = .ok location ↔
    tree.Places current path name location ∧ tree.file? location = none := by
  obtain ⟨before, hjoined, hparts⟩ := pathParts_joinPath h path
  have hlast : splitLast (before ++ [name]) = some (before, name, false) := by
    simp [splitLast, h.nonempty]
  rw [vacancy, seq_eq_ok_iff, hjoined, hlast, origin, isAbsolute_joinPath h, ← origin]
  simp only [bind_eq_ok_iff, h.notHere, h.notAbove, or_self, if_false, Bool.false_eq_true, follow_name h,
    Except.ok.injEq, exists_eq_left']
  constructor
  · rintro ⟨hchecked, directory, hbefore, ⟨⟩, hdirectory, hvacant⟩
    split at hvacant
    · cases hvacant
    · rename_i hnone
      obtain rfl := Except.ok.inj hvacant
      exact ⟨⟨hchecked, directory, (reaches_iff hparts).mpr ⟨hbefore, checkDirectory_eq_ok_iff.mp hdirectory⟩, rfl⟩,
        hnone⟩
  · rintro ⟨⟨hchecked, directory, hreaches, rfl⟩, hnone⟩
    obtain ⟨hbefore, hdirectory⟩ := (reaches_iff hparts).mp hreaches
    refine ⟨hchecked, directory, hbefore, (), checkDirectory_eq_ok_iff.mpr hdirectory, ?_⟩
    rw [hnone]

/-- What is at the place of a name is removed unless it is a directory. -/
theorem remove_joinPath (h : ProperName name) : tree.remove current (joinPath path name) = .ok later ↔
    ∃ location file, tree.Places current path name location ∧ tree.file? location = some file ∧ file ≠ .directory ∧
      later = tree.erase location := by
  rw [remove_eq_ok_iff]
  simp only [walk_joinPath h]
  exact ⟨fun ⟨hchecked, location, file, hbelow, hfile⟩ => ⟨location, file, ⟨hchecked, hbelow⟩, hfile⟩,
    fun ⟨location, file, hplaces, hfile⟩ => ⟨hplaces.checked, location, file, hplaces.below, hfile⟩⟩

theorem remove_directory (h : ProperName name) (hplaces : tree.Places current path name location)
    (hdirectory : tree.file? location = some .directory) :
    tree.remove current (joinPath path name) = .error .isADirectory := by
  rw [remove, hplaces.checked, (walk_joinPath h).mpr hplaces.below]
  simp only [bind, Except.bind, hdirectory]

/-- Nothing is found under a name at whose place there is nothing. -/
theorem find_vacant (h : ProperName name) (hplaces : tree.Places current path name location)
    (hnone : tree.file? location = none) : tree.find current (joinPath path name) = .error .noSuchFile := by
  rw [find, hplaces.checked, (walk_joinPath h).mpr hplaces.below]
  simp only [bind, Except.bind, hnone]

/-! ### Directories that are made -/

/-- The same files, and at most further directories. -/
structure Extends (tree later : FileTree) : Prop where
  files : ∀ location file, file ≠ .directory → (later.file? location = some file ↔ tree.file? location = some file)
  directories : tree.KeepsDirectories later

theorem Extends.refl (tree : FileTree) : tree.Extends tree := ⟨fun _ _ _ => .rfl, fun _ => id⟩

theorem Extends.trans {last : FileTree} (h : tree.Extends later) (h' : later.Extends last) : tree.Extends last :=
  ⟨fun location file hfile => (h'.files location file hfile).trans (h.files location file hfile),
    fun location hdirectory => h'.directories location (h.directories location hdirectory)⟩

theorem Extends.file? (h : tree.Extends later) (hfile : tree.file? location = some file) :
    later.file? location = some file := by
  by_cases hdirectory : file = .directory
  · exact hdirectory ▸ h.directories location (hdirectory ▸ hfile)
  · exact (h.files location file hdirectory).mpr hfile

theorem Extends.vacant (h : tree.Extends later) (hnone : later.file? location = none) :
    tree.file? location = none := by
  cases hfile : tree.file? location with
  | none => rfl
  | some file => exact nomatch hnone.symm.trans (h.file? hfile)

/-- A new directory where nothing was only adds to the tree. -/
theorem extends_insert (hnone : tree.file? location = none) : tree.Extends (tree.insert location .directory) := by
  constructor
  · intro other file hfile
    rw [file?_insert (ne_nil_of_vacant hnone)]
    split
    · rename_i hother
      subst hother
      simp [hnone, hfile.symm]
    · rfl
  · exact keepsDirectories_insert hnone .directory

/-- Making the directories of a path only adds to the tree, also when it stops on the way at something that is
    no directory. -/
theorem makeDirectories_extends (tree : FileTree) (here : Location) (parts : List String) :
    tree.Extends (tree.makeDirectories here parts).2 := by
  induction parts generalizing tree here with
  | nil => exact .refl tree
  | cons part rest ih =>
    rw [makeDirectories]
    split
    · exact .refl tree
    · exact .refl tree
    · split
      · exact ih ..
      · rename_i hnone
        exact (extends_insert hnone).trans (ih ..)
      · exact .refl tree
      · exact .refl tree
      · exact .refl tree

/-- Seeing to it that a directory is there only adds to the tree, whatever comes of it. -/
theorem ensureDirectory_extends (tree : FileTree) (current : Location) (path : String) :
    tree.Extends (tree.ensureDirectory current path).2 := by
  rw [ensureDirectory]
  split
  · exact .refl tree
  · split
    · exact .refl tree
    · exact makeDirectories_extends ..

/-- Nothing is made on a way that leads to a directory. -/
theorem makeDirectories_of_walk (hwalk : tree.walk here parts = .ok there)
    (hdirectory : tree.file? there = some .directory) : tree.makeDirectories here parts = (.ok (), tree) := by
  induction parts generalizing here with
  | nil => rfl
  | cons part rest ih =>
    obtain ⟨hhere, next, hfollow, hrest⟩ := walk_cons_eq_ok_iff.mp hwalk
    have hnext : tree.file? next = some .directory := by
      cases rest with
      | nil => exact Except.ok.inj hrest ▸ hdirectory
      | cons => exact (walk_cons_eq_ok_iff.mp hrest).1
    rw [makeDirectories, checkDirectory_eq_ok_iff.mpr hhere, hfollow]
    simp only [hnext]
    exact ih hrest

/-- If the path leads to a directory already, nothing is made at all. -/
theorem ensureDirectory_of_reaches (h : tree.Reaches current path there) :
    (tree.ensureDirectory current path).2 = tree := by
  rw [ensureDirectory]
  split
  · rfl
  · split
    · rfl
    · rw [makeDirectories_of_walk h.leads h.directory]

/-! ### Paths in a tree that has changed -/

/-- A path leads where it has led as long as the directories stay. -/
theorem walk_of_directories (hstay : tree.KeepsDirectories later) (hwalk : tree.walk here parts = .ok there) :
    later.walk here parts = .ok there := by
  induction parts generalizing here with
  | nil => exact hwalk
  | cons part rest ih =>
    obtain ⟨hhere, next, hfollow, hrest⟩ := walk_cons_eq_ok_iff.mp hwalk
    exact walk_cons_eq_ok_iff.mpr ⟨hstay here hhere, next, hfollow, ih hrest⟩

theorem Reaches.of_directories (hstay : tree.KeepsDirectories later) (h : tree.Reaches current path there) :
    later.Reaches current path there :=
  ⟨walk_of_directories hstay h.leads, hstay there h.directory⟩

theorem Places.of_directories (hstay : tree.KeepsDirectories later) (h : tree.Places current path name location) :
    later.Places current path name location := by
  obtain ⟨hchecked, directory, hreaches, hlocation⟩ := h
  exact ⟨hchecked, directory, hreaches.of_directories hstay, hlocation⟩

theorem Extends.find (h : tree.Extends later) (hfind : tree.find current path = .ok (location, file)) :
    later.find current path = .ok (location, file) := by
  obtain ⟨hchecked, hwalk, hfile, hlink⟩ := find_eq_ok_iff.mp hfind
  exact find_eq_ok_iff.mpr ⟨hchecked, walk_of_directories h.directories hwalk, h.file? hfile, hlink⟩

/-! ### Files that are in a directory -/

/-- Whatever there is is in a directory. -/
def Grounded (tree : FileTree) : Prop :=
  ∀ name above file, tree.file? (name :: above) = some file → tree.file? above = some .directory

/-- That everything is in a directory can be checked file by file. -/
theorem grounded_iff : tree.Grounded ↔ ∀ location ∈ tree.files.keys, location ≠ [] →
    tree.file? location.tail = some .directory := by
  constructor
  · intro h location hmem hne
    obtain ⟨name, above, rfl⟩ := List.exists_cons_of_ne_nil hne
    exact h name above _ (Std.ExtTreeMap.getElem?_eq_some_getElem (Std.ExtTreeMap.mem_keys.mp hmem))
  · intro h name above file hfile
    refine h (name :: above) (Std.ExtTreeMap.mem_keys.mpr ?_) (List.cons_ne_nil name above)
    exact Std.ExtTreeMap.mem_iff_isSome_getElem?.mpr (Option.isSome_of_eq_some hfile)

theorem grounded_usual : usual.Grounded := grounded_iff.mpr (by decide +kernel)

/-- In such a tree all that is above a directory is a directory too. -/
theorem Grounded.directory_of_suffix (h : tree.Grounded) (hsuffix : here <:+ there)
    (hthere : tree.file? there = some .directory) : tree.file? here = some .directory := by
  obtain ⟨front, rfl⟩ := hsuffix
  induction front with
  | nil => exact hthere
  | cons name front ih => exact ih (h name _ _ hthere)

/-- A path that never leads up ends below where it began. -/
theorem suffix_of_walk (hup : ".." ∉ parts) (hwalk : tree.walk here parts = .ok there) : here <:+ there := by
  induction parts generalizing here with
  | nil => exact Except.ok.inj hwalk ▸ List.suffix_rfl
  | cons part rest ih =>
    obtain ⟨hpart, hrest⟩ := not_or.mp (List.mem_cons.not.mp hup)
    obtain ⟨-, next, hfollow, hwalk⟩ := walk_cons_eq_ok_iff.mp hwalk
    refine List.IsSuffix.trans ?_ (ih hrest hwalk)
    rw [follow, if_neg (Ne.symm hpart)] at hfollow
    split at hfollow
    · exact Except.ok.inj hfollow ▸ List.suffix_rfl
    · split at hfollow
      · cases hfollow
      · exact Except.ok.inj hfollow ▸ List.suffix_cons ..

/-- A path that never leads up and leads to what has been a directory before has led there before. -/
theorem walk_of_grounded (hgrounded : tree.Grounded) (hup : ".." ∉ parts)
    (hthere : tree.file? there = some .directory) (hwalk : later.walk here parts = .ok there) :
    tree.walk here parts = .ok there := by
  induction parts generalizing here with
  | nil => exact hwalk
  | cons part rest ih =>
    have hhere := hgrounded.directory_of_suffix (suffix_of_walk hup hwalk) hthere
    obtain ⟨-, next, hfollow, hrest⟩ := walk_cons_eq_ok_iff.mp hwalk
    exact walk_cons_eq_ok_iff.mpr ⟨hhere, next, hfollow, ih (List.not_mem_of_not_mem_cons hup) hrest⟩

/-- Where a name leads later, it led before, if there was a file and the path never leads up: the directories on
    the way to the file were there already. -/
theorem Places.of_grounded (hgrounded : tree.Grounded) (hup : ".." ∉ pathParts path)
    (hfile : tree.file? location = some file) (h : later.Places current path name location) :
    tree.Places current path name location := by
  obtain ⟨hchecked, directory, hreaches, rfl⟩ := h
  have hdirectory := hgrounded name directory file hfile
  exact ⟨hchecked, directory, ⟨walk_of_grounded hgrounded hup hdirectory hreaches.leads, hdirectory⟩, rfl⟩

/-- A file that is put into a directory is in a directory. -/
theorem Grounded.insert (h : tree.Grounded) {above : Location} (habove : tree.file? above = some .directory)
    (hnone : tree.file? (name :: above) = none) (file : File) : (tree.insert (name :: above) file).Grounded := by
  intro name' above' file' hfile'
  refine keepsDirectories_insert hnone file above' ?_
  rw [file?_insert (List.cons_ne_nil name above)] at hfile'
  split at hfile'
  · rename_i hsame
    exact (List.cons.inj hsame).2 ▸ habove
  · exact h name' above' file' hfile'

/-- When what is erased is no directory, nothing was in it. -/
theorem Grounded.erase (h : tree.Grounded) (hfile : tree.file? location = some file) (hother : file ≠ .directory) :
    (tree.erase location).Grounded := by
  intro name above file' hfile'
  refine keepsDirectories_erase hfile hother above (h name above file' ?_)
  rw [file?_erase (ne_nil_of_file hfile hother)] at hfile'
  split at hfile'
  · cases hfile'
  · exact hfile'

/-- Where nothing is yet, a part of a path is the name of what may be made there. -/
theorem Grounded.eq_cons_of_follow {part : String} (h : tree.Grounded) (hhere : tree.file? here = some .directory)
    (hfollow : follow here part = .ok there) (hnone : tree.file? there = none) : there = part :: here := by
  rw [follow] at hfollow
  split at hfollow
  · obtain rfl := Except.ok.inj hfollow
    rw [hhere] at hnone
    cases hnone
  · split at hfollow
    · obtain rfl := Except.ok.inj hfollow
      cases here with
      | nil => cases hnone
      | cons name above =>
        rw [List.tail_cons, h name above .directory hhere] at hnone
        cases hnone
    · split at hfollow
      · cases hfollow
      · exact (Except.ok.inj hfollow).symm

/-- The directories of a path are made from the top down, each in the one before, so everything stays in a
    directory. -/
theorem Grounded.makeDirectories (h : tree.Grounded) (here : Location) (parts : List String) :
    (tree.makeDirectories here parts).2.Grounded := by
  induction parts generalizing tree here with
  | nil => exact h
  | cons part rest ih =>
    rw [FileTree.makeDirectories]
    split
    · exact h
    · exact h
    · rename_i next hhere hfollow
      split
      · exact ih h next
      · rename_i hnone
        have hhere := checkDirectory_eq_ok_iff.mp hhere
        obtain rfl := h.eq_cons_of_follow hhere hfollow hnone
        exact ih (h.insert hhere hnone .directory) _
      · exact h
      · exact h
      · exact h

/-- So it stays when a directory is seen to. -/
theorem Grounded.ensureDirectory (h : tree.Grounded) (current : Location) (path : String) :
    (tree.ensureDirectory current path).2.Grounded := by
  rw [FileTree.ensureDirectory]
  split
  · exact h
  · split
    · exact h
    · exact h.makeDirectories _ _

theorem Grounded.remove (h : tree.Grounded) (hremove : tree.remove current path = .ok later) : later.Grounded := by
  obtain ⟨-, location, file, -, hfile, hother, rfl⟩ := remove_eq_ok_iff.mp hremove
  exact h.erase hfile hother

/-- What is made under a path is made in a directory. -/
theorem Grounded.insert_vacancy (h : tree.Grounded) (hvacancy : tree.vacancy current path = .ok location)
    (file : File) : (tree.insert location file).Grounded := by
  rw [vacancy, seq_eq_ok_iff] at hvacancy
  obtain ⟨-, hvacancy⟩ := hvacancy
  split at hvacancy
  · cases hvacancy
  · rename_i before last slashFollows hlast
    simp only [bind_eq_ok_iff] at hvacancy
    obtain ⟨here, -, ⟨⟩, hhere, hvacancy⟩ := hvacancy
    have hhere := checkDirectory_eq_ok_iff.mp hhere
    split at hvacancy
    · cases hvacancy
    · split at hvacancy
      · cases hvacancy
      · obtain ⟨there, hfollow, hvacant⟩ := bind_eq_ok_iff.mp hvacancy
        split at hvacant
        · cases hvacant
        · rename_i hnone
          obtain rfl := Except.ok.inj hvacant
          obtain rfl := h.eq_cons_of_follow hhere hfollow hnone
          exact h.insert hhere hnone file

end FileTree
end SlotPool.Linux
