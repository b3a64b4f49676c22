import SlotPool.Text.Words
import SlotPool.Proofs.Text.Blank
/-!
The lines and the words of a text. Lines are what line feeds stand between; words are the longest stretches without
white space. Either list is the only one of its kind for the text.
-/

namespace SlotPool.Text

/-- A text consists of these lines, with one line feed between each and the next. -/
structure Lined (text : List Char) (lines : List (List Char)) : Prop where
  joined : ['\n'].intercalate lines = text
  nonempty : lines ≠ []
  whole : ∀ line ∈ lines, '\n' ∉ line

/-- A text consists of these words in this order, with white space around and between them. -/
inductive Worded : List Char → List (List Char) → Prop
  | done : Worded [] []
  | gap {c : Char} {rest : List Char} {words : List (List Char)} (hblank : c.toNat ∈ whiteSpace)
    (hrest : Worded rest words) : Worded (c :: rest) words
  | word {word rest : List Char} {words : List (List Char)} (hsome : word ≠ [])
    (hsolid : ∀ c ∈ word, c.toNat ∉ whiteSpace) (hend : ∀ c, rest.head? = some c → c.toNat ∈ whiteSpace)
    (hrest : Worded rest words) : Worded (word ++ rest) (word :: words)

variable {separates : Char → Bool} {text word rest line : List Char} {lines words : List (List Char)} {c : Char}

/-- The fields are the pieces into which the standard library splits the text. -/
theorem fields_eq_splitOnP (separates : Char → Bool) (text : List Char) :
    fields separates text = text.splitOnP separates := by
  induction text with
  | nil => rfl
  | cons c rest ih =>
    rw [fields, ih, List.splitOnP_cons_eq_if_modifyHead]
    cases hfields : rest.splitOnP separates with
    | nil => exact absurd hfields (List.splitOnP_ne_nil separates rest)
    | cons first more => rfl

/-- No field has a separator in it. -/
theorem not_separates_of_mem_fields (h : line ∈ fields separates text) : ∀ c ∈ line, separates c = false := by
  induction text generalizing line with
  | nil =>
    obtain rfl := List.mem_singleton.mp h
    exact nofun
  | cons c rest ih =>
    rw [fields] at h
    split at h
    · rcases List.mem_cons.mp h with rfl | h
      · exact nofun
      · exact ih h
    · rename_i hsolid
      split at h
      · obtain rfl := List.mem_singleton.mp h
        exact List.forall_mem_singleton.mpr (eq_false_of_ne_true hsolid)
      · rename_i first more hfields
        rcases List.mem_cons.mp h with rfl | h
        · exact List.forall_mem_cons.mpr ⟨eq_false_of_ne_true hsolid, ih (hfields ▸ List.mem_cons_self ..)⟩
        · exact ih (hfields ▸ List.mem_cons_of_mem _ h)

/-! ### Lines -/

theorem lines_eq_splitOn (text : List Char) : Text.lines text = text.splitOn '\n' := by
  rw [Text.lines, fields_eq_splitOnP, List.splitOn_eq_splitOnP]

/-- The lines are the only list that gives the text when line feeds are put between its members, and whose
    members have none of their own. -/
theorem lines_eq_iff : Text.lines text = lines ↔ Lined text lines := by
  constructor
  · rintro rfl
    refine ⟨?_, ?_, fun line hline hfeed => ?_⟩
    · rw [lines_eq_splitOn, List.intercalate_splitOn]
    · rw [lines_eq_splitOn]
      exact List.splitOn_ne_nil '\n' text
    · exact absurd (not_separates_of_mem_fields hline _ hfeed) (by decide)
  · intro h
    rw [lines_eq_splitOn, ← h.joined, List.splitOn_intercalate _ h.whole h.nonempty]

/-- Lines in front of a text are lines of the whole. -/
theorem lines_append (before : List (List Char)) (hwhole : ∀ line ∈ before, '\n' ∉ line) (text : List Char) :
    Text.lines (before.flatMap (· ++ ['\n']) ++ text) = before ++ Text.lines text := by
  induction before with
  | nil => rfl
  | cons line before ih =>
    obtain ⟨hline, hbefore⟩ := List.forall_mem_cons.mp hwhole
    rw [List.flatMap_cons, List.append_assoc, List.append_assoc, List.singleton_append, lines_eq_splitOn,
      List.splitOn_append_cons_self_of_not_mem hline, ← lines_eq_splitOn, ih hbefore, List.cons_append]

/-! ### Words -/

theorem words_gap (hblank : c.toNat ∈ whiteSpace) : Text.words (c :: rest) = Text.words rest := by
  rw [Text.words, fields, if_pos (isBlank_iff.mpr hblank), List.filter_cons_of_neg (by simp), Text.words]

/-- A word that ends before white space is the first of the words, and the others are those of what follows. -/
theorem words_word (hsome : word ≠ []) (hsolid : ∀ c ∈ word, c.toNat ∉ whiteSpace)
    (hend : ∀ c, rest.head? = some c → c.toNat ∈ whiteSpace) :
    Text.words (word ++ rest) = word :: Text.words rest := by
  have hletters : ∀ c ∈ word, isBlank c = false := fun c hc =>
    eq_false_of_ne_true fun hblank => hsolid c hc (isBlank_iff.mp hblank)
  cases rest with
  | nil =>
    rw [List.append_nil, Text.words, fields_eq_splitOnP, List.splitOnP_eq_singleton hletters]
    simp [hsome, Text.words, fields]
  | cons c rest =>
    have hblank := hend c rfl
    rw [words_gap hblank, Text.words, fields_eq_splitOnP,
      List.splitOnP_append_cons_of_forall_mem hletters c (isBlank_iff.mpr hblank),
      List.filter_cons_of_pos (by simpa using hsome), ← fields_eq_splitOnP, Text.words]

theorem Worded.words_eq (h : Worded text words) : Text.words text = words := by
  induction h with
  | done => rfl
  | gap hblank _ ih => rw [words_gap hblank, ih]
  | word hsome hsolid hend _ ih => rw [words_word hsome hsolid hend, ih]

/-- Every text can be taken apart into white space and words. The induction is on the text, from its end. -/
theorem exists_worded (text : List Char) : ∃ words, Worded text words := by
  induction text with
  | nil => exact ⟨[], .done⟩
  | cons c rest ih =>
    obtain ⟨words, h⟩ := ih
    by_cases hblank : c.toNat ∈ whiteSpace
    case pos => exact ⟨words, .gap hblank h⟩
    -- a character that is none begins a word, or goes on with the word that follows at once
    have hsingle : ∀ d ∈ [c], d.toNat ∉ whiteSpace := List.forall_mem_singleton.mpr hblank
    cases h with
    | done => exact ⟨_, .word (List.cons_ne_nil c []) hsingle nofun .done⟩
    | gap hnext hrest =>
      refine ⟨_, .word (List.cons_ne_nil c []) hsingle (fun d hd => ?_) (.gap hnext hrest)⟩
      exact Option.some.inj hd ▸ hnext
    | @word word rest words hsome hsolid hend hrest =>
      exact ⟨_, .word (List.cons_ne_nil c word) (List.forall_mem_cons.mpr ⟨hblank, hsolid⟩) hend hrest⟩

theorem words_eq_iff : Text.words text = words ↔ Worded text words := by
  refine ⟨?_, Worded.words_eq⟩
  rintro rfl
  obtain ⟨words, h⟩ := exists_worded text
  exact h.words_eq ▸ h

end SlotPool.Text
