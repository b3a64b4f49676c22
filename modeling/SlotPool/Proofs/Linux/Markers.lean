import SlotPool.Linux.Host
import SlotPool.Proofs.Linux.FileTree
import SlotPool.Proofs.Address.Numbering
/-!
The markers of named namespaces. What is asked of a marker in different ways is answered alike, making a namespace adds
one marker or none, and deleting one removes this marker or none, whatever state the directory is in and whatever the
kernel answers.
-/

namespace SlotPool

/-- The name of a slot's namespace is one part of a path and leads neither up nor nowhere. -/
theorem SlotId.properName (id : SlotId) : Linux.ProperName id.namespaceName := by
  have hname : id.namespaceName.toList = 'n' :: 's' :: '-' :: (Nat.repr id.val).toList :=
    String.toList_append (s := "ns-") (t := Nat.repr id.val)
  have hne {other : String} (hlength : other.toList.length < 3) : id.namespaceName ≠ other := by
    rintro rfl
    rw [hname] at hlength
    simp only [List.length_cons] at hlength
    omega
  refine ⟨hne (by decide), ?_, hne (by decide), hne (by decide), ?_⟩
  · intro hslash
    have hdigits : '/' ∈ (Nat.repr id.val).toList := by simpa [hname] using hslash
    cases isDigit_of_mem_repr hdigits
  · exact (names_short _ (List.mem_cons_self ..)).trans (by decide)

/-- A failure of the system counts as absence just when the system says that the file is not found. -/
theorem NetworkError.isNotFound_ofIo (context : String) (cause : IoError) :
    (NetworkError.ofIo context cause).isNotFound = true ↔ cause.kind = .notFound := by
  rw [ofIo]
  split
  · rename_i hkind
    exact iff_of_true (isNotFound.eq_1 context) hkind
  · rename_i hkind
    exact iff_of_false Bool.false_ne_true hkind

namespace Linux.Host

/-- Whether a marker is there, whether it can be opened and whether it can be deleted is answered alike. -/
structure Agrees (host : Host) (name : String) : Prop where
  present : host.existsNamed name = .ok true ↔ ∃ handle, host.openNamed name = .ok handle
  absent : host.existsNamed name = .ok false ↔
    (∃ cause, host.openNamed name = .error cause ∧ cause.isNotFound = true) ∧
      ∃ cause, host.deleteNamed name = (.error cause, host) ∧ cause.isNotFound = true
  failing : ∀ cause, host.existsNamed name = .error cause ↔
    host.openNamed name = .error cause ∧ cause.isNotFound = false
  stuck : ∀ cause, host.existsNamed name = .error cause → host.deleteNamed name = (.error cause, host)

/-- No marker has come and none has gone. There may be further directories on the way to that of the markers. -/
structure KeepsMarkers (host after : Host) : Prop where
  files : host.files.Extends after.files
  /-- nothing at all has changed if the directory of the markers was there -/
  settled : ∀ directory, host.files.Reaches host.directory host.path directory → after.files = host.files
  standing : ∀ other location file, host.find other = .ok (location, file) → after.find other = .ok (location, file)
  /-- no marker is found that was not found before, if the path of the directory never leads up -/
  fresh : host.files.Grounded → ".." ∉ pathParts host.path → ∀ other, ProperName other → ∀ location file,
    file ≠ .directory → after.find other = .ok (location, file) → host.find other = .ok (location, file)

/-- One marker has come, where nothing was. -/
structure GainsMarker (host : Host) (name : String) (location : Location) (after : Host) : Prop where
  absent : host.files.file? location = none
  found : after.find name = .ok (location, .mounted)
  others : ∀ other file, other ≠ location → file ≠ .directory →
    (after.files.file? other = some file ↔ host.files.file? other = some file)
  directories : host.files.KeepsDirectories after.files

/-- One marker has gone, and nothing else has changed. -/
structure LosesMarker (host : Host) (name : String) (location : Location) (after : Host) : Prop where
  present : ∃ file, host.find name = .ok (location, file) ∧ file ≠ .directory
  gone : after.existsNamed name = .ok false
  erased : after = { host with files := host.files.erase location }
  others : ∀ other, other ≠ location → after.files.file? other = host.files.file? other
  standing : ∀ other, ProperName other → other ≠ name → ∀ location file,
    after.find other = .ok (location, file) ↔ host.find other = .ok (location, file)

/-- The directory can be made if it is not there, a marker can be made in it, and the kernel neither refuses to make a
namespace nor to mount it. -/
structure Makeable (host : Host) (name : String) : Prop where
  directory : (host.files.ensureDirectory host.directory host.path).1 = .ok ()
  vacancy : ∃ location, (host.files.ensureDirectory host.directory host.path).2.vacancy host.directory
    (host.markerPath name) = .ok location
  unshare : host.kernel.unshare = none
  mount : host.kernel.mount = none

/-- There is a marker, and the kernel unmounts what is mounted on it or finds that nothing is. -/
def Deletable (host : Host) (name : String) : Prop :=
  ∃ location file, host.find name = .ok (location, file) ∧ file ≠ .directory ∧
    (host.kernel.unmount file = none ∨ host.kernel.unmount file = some .invalidArgument)

/-- Making a namespace adds its marker, or none if it fails. -/
structure MakesMarker (host : Host) (name : String) : Prop where
  succeeds : (host.createNamed name).1.isOk ↔ host.Makeable name
  made : ∀ handle after, host.createNamed name = (.ok handle, after) →
    handle = ⟨name, true⟩ ∧ ∃ location, host.GainsMarker name location after
  failed : ∀ cause after, host.createNamed name = (.error cause, after) → host.KeepsMarkers after

/-- Deleting a namespace removes its marker, or none if it fails, as it does if the marker cannot be unmounted. -/
structure DeletesMarker (host : Host) (name : String) : Prop where
  succeeds : (host.deleteNamed name).1.isOk ↔ host.Deletable name
  deleted : ∀ after, host.deleteNamed name = (.ok (), after) → ∃ location, host.LosesMarker name location after
  failed : ∀ cause after, host.deleteNamed name = (.error cause, after) → after = host
  unmounting : ∀ location file errno, host.find name = .ok (location, file) →
    host.kernel.unmount file = some errno → errno ≠ .invalidArgument →
    host.deleteNamed name = (.error (errno.failure s!"umount {host.markerPath name}"), host)

variable {host : Host} {name : String} {location : Location} {file : File} {files : FileTree}

theorem find_eq_ok_iff (h : ProperName name) : host.find name = .ok (location, file) ↔
    host.files.Places host.directory host.path name location ∧ host.files.file? location = some file ∧
      file ≠ .danglingLink :=
  FileTree.find_joinPath h

/-! ### Asking for a marker -/

theorem openNamed_of_find (hfind : host.find name = .ok (location, file)) :
    host.openNamed name = .ok ⟨name, file = .mounted⟩ := by
  rw [openNamed, hfind]

/-- The three ways to ask about a marker agree, for they all look under the same path. Where one of them fails
    for another reason than absence, the others fail for that reason too. -/
theorem agrees (host : Host) (name : String) : host.Agrees name := by
  cases hfind : host.find name with
  | ok found =>
    have hexists : host.existsNamed name = .ok true := by simp only [existsNamed, hfind]
    have hopen := openNamed_of_find hfind
    constructor <;> simp [hexists, hopen]
  | error cause =>
    have hopen : host.openNamed name = .error (.ofIo (host.markerPath name) cause) := by simp only [openNamed, hfind]
    have hdelete : host.deleteNamed name = (.error (.ofIo (host.markerPath name) cause), host) := by
      simp only [deleteNamed, hfind]
    by_cases hkind : cause.kind = .notFound
    · have hexists : host.existsNamed name = .ok false := by simp [existsNamed, hfind, hkind]
      have hnotFound := (NetworkError.isNotFound_ofIo (host.markerPath name) cause).mpr hkind
      constructor <;> simp [hexists, hopen, hdelete, hnotFound]
    · have hexists : host.existsNamed name = .error (.ofIo (host.markerPath name) cause) := by
        simp [existsNamed, hfind, hkind]
      have hother := mt (NetworkError.isNotFound_ofIo (host.markerPath name) cause).mp hkind
      constructor <;> simp [hexists, hopen, hdelete, hother]

/-! ### Making a namespace -/

/-- A marker that was made can be taken back, and then the files are as they were. -/
theorem withdraw_insert (h : ProperName name) (host : Host)
    (hplaces : files.Places host.directory host.path name location) (hnone : files.file? location = none) :
    { host with files := files.insert location .plain }.withdraw name = { host with files } := by
  have hremove : (files.insert location .plain).remove host.directory (joinPath host.path name) = .ok files := by
    refine (FileTree.remove_joinPath h).mpr ⟨location, .plain, ?_, ?_, by decide, (FileTree.erase_insert hnone).symm⟩
    · exact hplaces.of_directories (FileTree.keepsDirectories_insert hnone .plain)
    · rw [FileTree.file?_insert hplaces.ne_nil, if_pos rfl]
  rw [withdraw, markerPath]
  simp only [hremove]

/-- A marker that was put where its name leads is found under its name. -/
theorem find_inserted (h : ProperName name) (host : Host) (current : String)
    (hplaces : files.Places host.directory host.path name location) (hnone : files.file? location = none) :
    { host with files := files.insert location .mounted, current }.find name = .ok (location, .mounted) := by
  refine (find_eq_ok_iff h).mpr ⟨?_, ?_, by decide⟩
  · exact hplaces.of_directories (FileTree.keepsDirectories_insert hnone .mounted)
  · exact (FileTree.file?_insert hplaces.ne_nil location).trans (if_pos rfl)

/-- What comes of making a namespace, where these are the files once the directory has been seen to. -/
inductive Making (host : Host) (name : String) (files : FileTree) : Except NetworkError Handle × Host → Prop
  | failed {cause : NetworkError} {current : String} (hcannot : ¬ host.Makeable name) :
    Making host name files (.error cause, { host with files, current })
  | made {location : Location} (hcan : host.Makeable name)
    (hplaces : files.Places host.directory host.path name location) (hnone : files.file? location = none) :
    Making host name files
      (.ok ⟨name, true⟩, { host with files := files.insert location .mounted, current := name })

/-- What comes of making a namespace, in the order in which it is tried: the directory, the marker, the kernel's
    part. When the kernel refuses, the marker that was just put there is taken back, so that none is left. -/
theorem making (h : ProperName name) (host : Host) :
    host.Making name (host.files.ensureDirectory host.directory host.path).2 (host.createNamed name) := by
  rw [createNamed]
  cases hensure : host.files.ensureDirectory host.directory host.path with
  | mk result files =>
    cases result with
    | error cause => exact .failed fun hcan => nomatch hensure ▸ hcan.directory
    | ok =>
      simp only
      cases hvacancy : files.vacancy host.directory (host.markerPath name) with
      | error cause =>
        refine .failed fun hcan => ?_
        obtain ⟨location, hlocation⟩ := hcan.vacancy
        rw [hensure, hvacancy] at hlocation
        cases hlocation
      | ok location =>
        obtain ⟨hplaces, hnone⟩ := (FileTree.vacancy_joinPath h).mp hvacancy
        simp only
        cases hunshare : host.kernel.unshare with
        | some errno =>
          simp only [withdraw_insert h host hplaces hnone]
          exact .failed fun hcan => nomatch hunshare ▸ hcan.unshare
        | none =>
          simp only
          cases hmount : host.kernel.mount with
          | some errno =>
            have hwithdraw := withdraw_insert h { host with current := name } hplaces hnone
            simp only at hwithdraw ⊢
            rw [hwithdraw]
            exact .failed fun hcan => nomatch hmount ▸ hcan.mount
          | none =>
            have hfind := find_inserted h host name hplaces hnone
            simp only [FileTree.insert_insert, openNamed_of_find hfind]
            refine .made ⟨?_, ⟨location, ?_⟩, hunshare, hmount⟩ hplaces hnone
            · rw [hensure]
            · rw [hensure, hvacancy]

/-- Seeing to the directory of the markers brings no marker and takes none away. -/
theorem keepsMarkers (host : Host) (current : String) :
    host.KeepsMarkers { host with files := (host.files.ensureDirectory host.directory host.path).2, current } := by
  have hextends := host.files.ensureDirectory_extends host.directory host.path
  refine ⟨hextends, fun directory => FileTree.ensureDirectory_of_reaches, fun other location file => hextends.find,
    fun hgrounded hup other hother location file hfile hfind => ?_⟩
  obtain ⟨hplaces, hlater, hlink⟩ := (find_eq_ok_iff hother).mp hfind
  have hearlier := (hextends.files location file hfile).mp hlater
  exact (find_eq_ok_iff hother).mpr ⟨hplaces.of_grounded hgrounded hup hearlier, hearlier, hlink⟩

/-- When nothing was where the name leads, a marker that is put there is the only thing that has come. -/
theorem gainsMarker (h : ProperName name) (host : Host) (current : String) (hextends : host.files.Extends files)
    (hplaces : files.Places host.directory host.path name location) (hnone : files.file? location = none) :
    host.GainsMarker name location { host with files := files.insert location .mounted, current } where
  absent := hextends.vacant hnone
  found := find_inserted h host current hplaces hnone
  others other file hother hfile := by
    rw [FileTree.file?_insert hplaces.ne_nil, if_neg hother.symm, hextends.files other file hfile]
  directories other hdirectory :=
    FileTree.keepsDirectories_insert hnone .mounted other (hextends.directories other hdirectory)

/-- Making a namespace adds the one marker of that name or no marker at all, and it adds one just when that is
    possible. -/
theorem makesMarker (h : ProperName name) (host : Host) : host.MakesMarker name := by
  have hextends := host.files.ensureDirectory_extends host.directory host.path
  have hmaking := making h host
  generalize hcreate : host.createNamed name = created at hmaking
  cases hmaking with
  | failed hcannot =>
    refine ⟨?_, ?_, ?_⟩
    · rw [hcreate]
      exact iff_of_false Bool.false_ne_true hcannot
    · rw [hcreate]
      exact fun _ _ hmade => nomatch (Prod.mk.inj hmade).1
    · rw [hcreate]
      rintro cause after ⟨⟩
      exact host.keepsMarkers _
  | made hcan hplaces hnone =>
    refine ⟨?_, ?_, ?_⟩
    · rw [hcreate]
      exact iff_of_true rfl hcan
    · rw [hcreate]
      rintro handle after ⟨⟩
      exact ⟨rfl, _, gainsMarker h host name hextends hplaces hnone⟩
    · rw [hcreate]
      exact fun _ _ hfailed => nomatch (Prod.mk.inj hfailed).1

/-! ### Deleting a namespace -/

/-- What comes of deleting a namespace. -/
inductive Deletion (host : Host) (name : String) : Except NetworkError Unit × Host → Prop
  | kept {cause : NetworkError} (hcannot : ¬ host.Deletable name) : Deletion host name (.error cause, host)
  | deleted {location : Location} {file : File} (hcan : host.Deletable name)
    (hfind : host.find name = .ok (location, file)) (hfile : file ≠ .directory) :
    Deletion host name (.ok (), { host with files := host.files.erase location })

/-- What is found under a name is removed unless it is a directory. -/
theorem remove_of_find (h : ProperName name) (hfind : host.find name = .ok (location, file))
    (hfile : file ≠ .directory) :
    host.files.remove host.directory (host.markerPath name) = .ok (host.files.erase location) := by
  obtain ⟨hplaces, hlocation, -⟩ := (find_eq_ok_iff h).mp hfind
  exact (FileTree.remove_joinPath h).mpr ⟨location, file, hplaces, hlocation, hfile, rfl⟩

theorem remove_of_find_directory (h : ProperName name) (hfind : host.find name = .ok (location, .directory)) :
    host.files.remove host.directory (host.markerPath name) = .error .isADirectory := by
  obtain ⟨hplaces, hlocation, -⟩ := (find_eq_ok_iff h).mp hfind
  exact FileTree.remove_directory h hplaces hlocation

/-- A marker that is found can be deleted if it is no directory and the kernel unmounts it or finds it not
    mounted. -/
theorem deletable_iff (hfind : host.find name = .ok (location, file)) : host.Deletable name ↔
    file ≠ .directory ∧ (host.kernel.unmount file = none ∨ host.kernel.unmount file = some .invalidArgument) := by
  constructor
  · rintro ⟨location', file', hfound, hrest⟩
    obtain ⟨rfl, rfl⟩ := Prod.mk.inj (Except.ok.inj (hfind.symm.trans hfound))
    exact hrest
  · exact fun h => ⟨location, file, hfind, h⟩

/-- What comes of deleting a namespace: nothing, when there is no such marker or it cannot be deleted, or the
    loss of that marker. -/
theorem deletion (h : ProperName name) (host : Host) : host.Deletion name (host.deleteNamed name) := by
  cases hfind : host.find name with
  | error cause =>
    rw [deleteNamed, hfind]
    exact .kept fun ⟨_, _, hfound, _⟩ => nomatch hfind.symm.trans hfound
  | ok found =>
    obtain ⟨location, file⟩ := found
    rw [deleteNamed, hfind]
    by_cases hfile : file = .directory
    · have hcannot : ¬ host.Deletable name := fun hcan => ((deletable_iff hfind).mp hcan).1 hfile
      have hremove := remove_of_find_directory h (hfile ▸ hfind)
      simp only [hremove]
      split <;> exact .kept hcannot
    · have hremove := remove_of_find h hfind hfile
      simp only [hremove]
      split
      · rename_i hunmount
        exact .deleted ((deletable_iff hfind).mpr ⟨hfile, .inl hunmount⟩) hfind hfile
      · rename_i hunmount
        exact .deleted ((deletable_iff hfind).mpr ⟨hfile, .inr hunmount⟩) hfind hfile
      · rename_i errno hother hunmount
        refine .kept fun hcan => ?_
        rcases ((deletable_iff hfind).mp hcan).2 with hnone | hinvalid
        · exact nomatch hunmount.symm.trans hnone
        · exact hother (Option.some.inj (hunmount.symm.trans hinvalid))

/-- When a marker is erased, its name leads to nothing, and every other name leads where it led. -/
theorem losesMarker (h : ProperName name) (hfind : host.find name = .ok (location, file)) (hfile : file ≠ .directory) :
    host.LosesMarker name location { host with files := host.files.erase location } := by
  obtain ⟨hplaces, hlocation, -⟩ := (find_eq_ok_iff h).mp hfind
  have herase (other : Location) : (host.files.erase location).file? other =
      if location = other then none else host.files.file? other := FileTree.file?_erase hplaces.ne_nil other
  have hstay := FileTree.keepsDirectories_erase hlocation hfile
  refine ⟨⟨file, hfind, hfile⟩, ?_, rfl, fun other hother => ?_, fun other hother hne location' file' => ?_⟩
  · have hgone : { host with files := host.files.erase location }.find name = .error .noSuchFile :=
      FileTree.find_vacant h (hplaces.of_directories hstay) ((herase location).trans (if_pos rfl))
    rw [existsNamed, hgone]
    rfl
  · rw [herase, if_neg hother.symm]
  · rw [find_eq_ok_iff hother, find_eq_ok_iff hother]
    constructor
    · rintro ⟨hplaces', hfile', hlink⟩
      rw [herase, if_neg (hplaces.ne_of_name_ne hplaces' hne.symm)] at hfile'
      refine ⟨hplaces'.of_directories fun above habove => ?_, hfile', hlink⟩
      rw [herase] at habove
      split at habove
      · cases habove
      · exact habove
    · rintro ⟨hplaces', hfile', hlink⟩
      refine ⟨hplaces'.of_directories hstay, ?_, hlink⟩
      rw [herase, if_neg (hplaces.ne_of_name_ne hplaces' hne.symm), hfile']

/-- Deleting a namespace removes the one marker of that name or nothing, and it removes it just when that is
    possible. -/
theorem deletesMarker (h : ProperName name) (host : Host) : host.DeletesMarker name := by
  have hdeletion := deletion h host
  have hunmounting : ∀ location file errno, host.find name = .ok (location, file) →
      host.kernel.unmount file = some errno → errno ≠ .invalidArgument →
      host.deleteNamed name = (.error (errno.failure s!"umount {host.markerPath name}"), host) := by
    intro location file errno hfind hunmount hother
    rw [deleteNamed, hfind]
    simp only [hunmount]
  generalize hdelete : host.deleteNamed name = deleted at hdeletion
  cases hdeletion with
  | kept hcannot =>
    refine ⟨?_, ?_, ?_, hunmounting⟩
    · rw [hdelete]
      exact iff_of_false Bool.false_ne_true hcannot
    · rw [hdelete]
      exact fun _ hdeleted => nomatch (Prod.mk.inj hdeleted).1
    · rw [hdelete]
      exact fun cause after hkept => (Prod.mk.inj hkept).2.symm
  | deleted hcan hfind hfile =>
    refine ⟨?_, ?_, ?_, hunmounting⟩
    · rw [hdelete]
      exact iff_of_true rfl hcan
    · rw [hdelete]
      rintro after ⟨⟩
      exact ⟨_, losesMarker h hfind hfile⟩
    · rw [hdelete]
      exact fun _ _ hfailed => nomatch (Prod.mk.inj hfailed).1

/-! ### Every file stays in a directory -/

/-- Taking back a marker leaves every file in a directory. -/
theorem withdraw_grounded (h : host.files.Grounded) (name : String) : (host.withdraw name).files.Grounded := by
  rw [withdraw]
  split
  · rename_i files hremove
    exact h.remove hremove
  · exact h

/-- Making a namespace leaves every file in a directory, whatever comes of it. -/
theorem createNamed_grounded (h : host.files.Grounded) (name : String) :
    (host.createNamed name).2.files.Grounded := by
  have hensure := h.ensureDirectory host.directory host.path
  rw [createNamed]
  generalize host.files.ensureDirectory host.directory host.path = ensured at hensure
  obtain ⟨result, files⟩ := ensured
  cases result with
  | error cause => exact hensure
  | ok =>
    simp only
    split
    · exact hensure
    · rename_i location hvacancy
      have hinserted := hensure.insert_vacancy hvacancy
      split
      · exact withdraw_grounded (hinserted .plain) name
      · split
        · exact withdraw_grounded (hinserted .plain) name
        · rw [FileTree.insert_insert]
          exact hinserted .mounted

/-- Deleting one does so too. -/
theorem deleteNamed_grounded (h : host.files.Grounded) (name : String) :
    (host.deleteNamed name).2.files.Grounded := by
  have hremove (files : FileTree)
      (hremove : host.files.remove host.directory (host.markerPath name) = .ok files) : files.Grounded :=
    h.remove hremove
  rw [deleteNamed]
  grind

theorem run_files (host : Host) (invocation : Invocation) : (host.run invocation).2.files = host.files := by
  rw [run]
  split_ifs <;> rfl

theorem runUnit_files (host : Host) (invocation : Invocation) : (host.runUnit invocation).2.files = host.files :=
  host.run_files invocation

theorem linkExists_files (host : Host) (name : String) : (host.linkExists name).2.files = host.files := by
  have hrun := host.run_files (.showLink name)
  rw [linkExists]
  grind

theorem egressInterface_files (host : Host) : host.egressInterface.2.files = host.files := by
  have hrun := host.run_files .listDefaultRoutes
  rw [egressInterface]
  grind

/-- So does every call, and therefore every machine that calls have led to. -/
theorem answer_grounded (h : host.files.Grounded) (call : Call) : (host.answer call).2.files.Grounded := by
  cases call with
  | createNamespace name => exact createNamed_grounded h name
  | deleteNamespace name => exact deleteNamed_grounded h name
  | linkExists name => rwa [answer, linkExists_files]
  | egressInterface => rwa [answer, egressInterface_files]
  | enterNamespace target =>
    rw [answer, enter]
    split <;> exact h
  | currentNamespace | openNamespace _ | namespaceExists _ => exact h
  | _ => rwa [answer, runUnit_files]

theorem program_grounded {α : Type} (program : Program α) (h : host.files.Grounded) :
    (program.run machine host).2.files.Grounded := by
  induction program generalizing host with
  | done value => exact h
  | call call guards next ih => exact ih _ (answer_grounded h call)

/-! ### Markers are consistent -/

/-- Whatever there is in place of the directory of the markers, and whatever the kernel answers: the ways to ask for the
marker of a slot agree, making its namespace adds this marker or none, and deleting its namespace removes this marker or
none. -/
theorem markers_consistent (host : Host) (id : SlotId) : host.Agrees id.namespaceName ∧
    host.MakesMarker id.namespaceName ∧ host.DeletesMarker id.namespaceName :=
  ⟨host.agrees _, makesMarker id.properName host, deletesMarker id.properName host⟩

example :
    let host : Host := ⟨{ Kernel.privileged with mount := some .notPermitted },
      .insertAll .plain .usual ["/tmp/ns-7"], [], "/tmp", ⟨false, []⟩, none, hostNamespace, []⟩
    ((host.createNamed "ns-3").2.files.names ["tmp"], (host.createNamed "ns-7").2.files.names ["tmp"],
      (host.deleteNamed "ns-7").2.files.names ["tmp"]) = (["ns-7"], ["ns-7"], []) := by
  decide +kernel

end Linux.Host
end SlotPool
