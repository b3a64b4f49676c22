import SlotPool.Linux.Host
import SlotPool.Proofs.Text.Words
/-!
Which interface is found in a listing of routes. It is that of the first line that lists a default route and names an
interface; whatever else is in the listing, in front of this line or behind it, makes no difference.
-/

namespace SlotPool.Linux

/-- The word that announces an interface. -/
def deviceWord : List Char := "dev".toList

/-- A line lists a default route: this word is the first thing on it that is no white space. -/
def ListsDefault (line : List Char) : Prop :=
  ∃ gap rest, line = gap ++ "default".toList ++ rest ∧ ∀ c ∈ gap, c.toNat ∈ Text.whiteSpace

/-- A line lists a default route over an interface, which is the word after the first word `dev`. -/
structure LeadsOver (line device : List Char) : Prop where
  default : ListsDefault line
  named : ∃ front back, Text.Worded line (front ++ deviceWord :: device :: back) ∧ deviceWord ∉ front

/-- What makes a line useless: it lists no default route, has no word `dev`, or has none behind the first. -/
inductive Useless (line : List Char) : Prop
  | other (hother : ¬ ListsDefault line)
  | unnamed {words : List (List Char)} (hwords : Text.Worded line words) (hunnamed : deviceWord ∉ words)
  | cut {front : List (List Char)} (hwords : Text.Worded line (front ++ [deviceWord])) (hfront : deviceWord ∉ front)

/-- A word that is not cut by white space. -/
structure Solid (word : List Char) : Prop where
  nonempty : word ≠ []
  solid : ∀ c ∈ word, c.toNat ∉ Text.whiteSpace

/-- A line as it is usually written: `default via GATEWAY dev DEVICE`, with or without more words. -/
structure Usual (line device : List Char) : Prop where
  written : ∃ gateway tail, line = "default via ".toList ++ gateway ++ " dev ".toList ++ device ++ tail ∧
    Solid gateway ∧ gateway ≠ deviceWord ∧ ∀ c, tail.head? = some c → c.toNat ∈ Text.whiteSpace
  device : Solid device

variable {line device : List Char} {words front rest : List (List Char)}

/-- The test looks at what is first on a line, white space aside. -/
theorem isDefaultRoute_iff : isDefaultRoute line = true ↔ ListsDefault line := by
  rw [isDefaultRoute, List.isPrefixOf_iff_prefix]
  constructor
  · rintro ⟨rest, hrest⟩
    refine ⟨line.takeWhile Text.isBlank, rest, ?_, fun c hc => Text.isBlank_iff.mp (List.mem_takeWhile_imp hc)⟩
    rw [List.append_assoc, hrest, List.takeWhile_append_dropWhile]
  · rintro ⟨gap, rest, rfl, hgap⟩
    have hletter : ∀ c, ("default".toList ++ rest).head? = some c → c.toNat ∉ Text.whiteSpace := by
      intro c hc
      obtain rfl : 'd' = c := Option.some.inj hc
      decide
    rw [List.append_assoc, Text.dropWhile_blanks hgap hletter]
    exact List.prefix_append ..

/-- The interface is the word after the first mention of a device, and there is none if this mention comes last.
    -/
theorem deviceOf_named (hfront : deviceWord ∉ front) : deviceOf (front ++ deviceWord :: rest) = rest.head? := by
  induction front with
  | nil => exact if_pos rfl
  | cons word front ih =>
    obtain ⟨hword, hfront⟩ := not_or.mp (List.mem_cons.not.mp hfront)
    exact (if_neg (Ne.symm hword)).trans (ih hfront)

/-- A line that mentions no device names none. -/
theorem deviceOf_unnamed (hunnamed : deviceWord ∉ words) : deviceOf words = none := by
  induction words with
  | nil => rfl
  | cons word words ih =>
    obtain ⟨hword, hwords⟩ := not_or.mp (List.mem_cons.not.mp hunnamed)
    exact (if_neg (Ne.symm hword)).trans (ih hwords)

/-- Only the first word `dev` counts. -/
theorem deviceOf_eq_some_iff : deviceOf words = some device ↔
    ∃ front back, words = front ++ deviceWord :: device :: back ∧ deviceWord ∉ front := by
  constructor
  · intro h
    by_cases hnamed : deviceWord ∈ words
    case neg => exact nomatch (deviceOf_unnamed hnamed).symm.trans h
    obtain ⟨front, rest, rfl, hfront⟩ := List.eq_append_cons_of_mem hnamed
    rw [deviceOf_named hfront] at h
    obtain ⟨back, rfl⟩ := List.head?_eq_some_iff.mp h
    exact ⟨front, back, rfl, hfront⟩
  · rintro ⟨front, back, rfl, hfront⟩
    rw [deviceOf_named hfront, List.head?_cons]

theorem routeDevice_eq_some_iff : routeDevice line = some device ↔ LeadsOver line device := by
  rw [routeDevice, Option.ite_none_right_eq_some, isDefaultRoute_iff, deviceOf_eq_some_iff]
  simp only [Text.words_eq_iff]
  exact ⟨fun h => ⟨h.1, h.2⟩, fun h => ⟨h.default, h.named⟩⟩

theorem routeDevice_eq_none_iff : routeDevice line = none ↔ ∀ device, ¬ LeadsOver line device := by
  simp only [Option.eq_none_iff_forall_ne_some, ne_eq, routeDevice_eq_some_iff]

theorem Useless.routeDevice (h : Useless line) : routeDevice line = none := by
  cases h with
  | other hother => exact if_neg fun hdefault => hother (isDefaultRoute_iff.mp hdefault)
  | unnamed hwords hunnamed => rw [Linux.routeDevice, hwords.words_eq, deviceOf_unnamed hunnamed, ite_self]
  | cut hwords hfront => rw [Linux.routeDevice, hwords.words_eq, deviceOf_named hfront, List.head?_nil, ite_self]

theorem Solid.worded {word rest : List Char} (h : Solid word)
    (hend : ∀ c, rest.head? = some c → c.toNat ∈ Text.whiteSpace) (hrest : Text.Worded rest words) :
    Text.Worded (word ++ rest) (word :: words) := .word h.nonempty h.solid hend hrest

/-- A line as it is usually written leads over the interface that it names. -/
theorem Usual.leadsOver (h : Usual line device) : LeadsOver line device := by
  obtain ⟨⟨gateway, tail, rfl, hgateway, hother, htail⟩, hdevice⟩ := h
  have hspace : ∀ {rest : List Char}, ∀ c, (' ' :: rest).head? = some c → c.toNat ∈ Text.whiteSpace := by
    intro rest c hc
    obtain rfl : ' ' = c := Option.some.inj hc
    decide
  have hblank : ' '.toNat ∈ Text.whiteSpace := by decide
  have hletters : ∀ word ∈ ["default".toList, "via".toList, deviceWord], Solid word := by
    intro word hword
    simp only [List.mem_cons, List.not_mem_nil, or_false] at hword
    rcases hword with rfl | rfl | rfl <;> exact ⟨by decide, by simp [deviceWord, Text.whiteSpace]⟩
  obtain ⟨back, hback⟩ := Text.exists_worded tail
  refine ⟨⟨[], _, by simp only [List.append_assoc]; rfl, List.forall_mem_nil _⟩,
    ["default".toList, "via".toList, gateway], back, ?_, ?_⟩
  · have hrest : Text.Worded (' ' :: (deviceWord ++ ' ' :: (device ++ tail))) (deviceWord :: device :: back) :=
      .gap hblank ((hletters deviceWord (by simp)).worded hspace (.gap hblank (hdevice.worded htail hback)))
    have hline := (hletters "default".toList (by simp)).worded hspace <| .gap hblank <|
      (hletters "via".toList (by simp)).worded hspace <| .gap hblank <| hgateway.worded hspace hrest
    simpa [deviceWord] using hline
  · simp only [List.mem_cons, List.not_mem_nil, or_false, not_or]
    exact ⟨by decide, by decide, Ne.symm hother⟩

/-- The interface of a listing is that of the first line that leads over one, and there is none exactly if no line does.
Lines in front that are of no use make no difference, and a line as it is usually written is of use. This is what a
machine goes by whose interface is not configured. -/
theorem defaultDevice_exact (listing : List Char) :
    (∀ device, defaultDevice listing = some device ↔ ∃ before line after,
      Text.Lined listing (before ++ line :: after) ∧ LeadsOver line device ∧
      ∀ other ∈ before, ∀ device', ¬ LeadsOver other device') ∧
    (defaultDevice listing = none ↔ ∀ lines, Text.Lined listing lines →
      ∀ line ∈ lines, ∀ device, ¬ LeadsOver line device) ∧
    (∀ before : List (List Char), (∀ line ∈ before, '\n' ∉ line ∧ Useless line) →
      defaultDevice (before.flatMap (· ++ ['\n']) ++ listing) = defaultDevice listing) ∧
    (∀ line after device, Text.Lined listing (line :: after) → Usual line device →
      defaultDevice listing = some device) ∧
    (∀ host after : Host, host.egress = none → host.run .listDefaultRoutes = (.ok listing, after) →
      host.egressInterface = ((defaultDevice listing).elim (.error (.notFound "default route"))
        (fun device => .ok (String.ofList device)), after)) := by
  refine ⟨fun device => ?_, ?_, fun before hbefore => ?_, fun line after device hlines husual => ?_,
    fun host after hegress hrun => ?_⟩
  · simp only [defaultDevice, List.findSome?_eq_some_iff, Text.lines_eq_iff, routeDevice_eq_some_iff,
      routeDevice_eq_none_iff]
  · rw [defaultDevice, List.findSome?_eq_none_iff]
    simp only [routeDevice_eq_none_iff, ← Text.lines_eq_iff, forall_eq']
  · rw [defaultDevice, Text.lines_append before (fun line hline => (hbefore line hline).1), List.findSome?_append,
      List.findSome?_eq_none_iff.mpr fun line hline => (hbefore line hline).2.routeDevice, Option.none_or,
      defaultDevice]
  · rw [defaultDevice, Text.lines_eq_iff.mpr hlines, List.findSome?_cons,
      routeDevice_eq_some_iff.mpr husual.leadsOver]
  · rw [Host.egressInterface, hegress]
    simp only [hrun]
    cases defaultDevice listing with
    | none => rfl
    | some device => rfl

example : defaultDevice "10.0.0.0/8 dev eth1\ndefault dev\n default via 10.0.0.1 dev wlan0 proto dhcp\n".toList =
    some "wlan0".toList := by decide

end SlotPool.Linux
