import Mathlib.Data.List.TakeWhile
import SlotPool.Text.Blank
/-!
What is left of a text whose white space is cut at both ends: the stretch between, which neither begins nor ends with
white space. There is one such stretch in every text.
-/

namespace SlotPool.Text

/-- The code points with the property `White_Space`, one by one. -/
def whiteSpace : List Nat :=
  [0x0009, 0x000A, 0x000B, 0x000C, 0x000D, 0x0020, 0x0085, 0x00A0, 0x1680, 0x2000, 0x2001, 0x2002, 0x2003, 0x2004,
    0x2005, 0x2006, 0x2007, 0x2008, 0x2009, 0x200A, 0x2028, 0x2029, 0x202F, 0x205F, 0x3000]

/-- What is left of a text without the white space at its ends. -/
structure Stripped (text core : List Char) : Prop where
  around : ∃ before after, text = before ++ core ++ after ∧ (∀ c ∈ before, c.toNat ∈ whiteSpace) ∧
    ∀ c ∈ after, c.toNat ∈ whiteSpace
  first : ∀ c, core.head? = some c → c.toNat ∉ whiteSpace
  last : ∀ c, core.getLast? = some c → c.toNat ∉ whiteSpace

variable {text core before rest : List Char} {c : Char}

/-- The ranges hold these code points and no others. -/
theorem isBlank_iff : isBlank c = true ↔ c.toNat ∈ whiteSpace := by
  simp only [isBlank, blankRanges, whiteSpace, List.any_cons, List.any_nil, Bool.or_false, Bool.or_eq_true,
    Bool.and_eq_true, decide_eq_true_eq, List.mem_cons, List.not_mem_nil, or_false]
  omega

/-- White space is dropped up to the first character that is none. -/
theorem dropWhile_blanks (hbefore : ∀ c ∈ before, c.toNat ∈ whiteSpace)
    (hrest : ∀ c, rest.head? = some c → c.toNat ∉ whiteSpace) : (before ++ rest).dropWhile isBlank = rest := by
  rw [List.dropWhile_append_of_pos fun c hc => isBlank_iff.mpr (hbefore c hc)]
  cases rest with
  | nil => rfl
  | cons c rest => exact List.dropWhile_cons_of_neg fun h => hrest c rfl (isBlank_iff.mp h)

theorem head?_dropWhile_blank (h : (text.dropWhile isBlank).head? = some c) : c.toNat ∉ whiteSpace := by
  have hstop := List.head?_dropWhile_not isBlank text
  rw [h] at hstop
  exact fun hblank => Bool.false_ne_true (hstop.symm.trans (isBlank_iff.mpr hblank))

/-- Cutting white space at both ends leaves what is between. -/
theorem trim_stripped (text : List Char) : Stripped text (trim text) := by
  have hblank {part : List Char} {c : Char} (hc : c ∈ part.takeWhile isBlank) : c.toNat ∈ whiteSpace :=
    isBlank_iff.mp (List.mem_takeWhile_imp hc)
  generalize hinner : text.dropWhile isBlank = inner
  have htrim : trim text = (inner.reverse.dropWhile isBlank).reverse := by rw [trim, hinner]
  have hsplit : inner = trim text ++ (inner.reverse.takeWhile isBlank).reverse := by
    rw [htrim, ← List.reverse_append, List.takeWhile_append_dropWhile, List.reverse_reverse]
  refine ⟨⟨text.takeWhile isBlank, (inner.reverse.takeWhile isBlank).reverse, ?_, fun c hc => hblank hc, ?_⟩, ?_, ?_⟩
  · rw [List.append_assoc, ← hsplit, ← hinner, List.takeWhile_append_dropWhile]
  · exact fun c hc => hblank (List.mem_reverse.mp hc)
  · intro c hc
    -- what is left begins where the white space in front of it ends
    have hhead : inner.head? = some c := by rw [hsplit, List.head?_append, hc, Option.some_or]
    exact head?_dropWhile_blank (hinner ▸ hhead)
  · intro c hc
    rw [htrim, List.getLast?_reverse] at hc
    exact head?_dropWhile_blank hc

/-- There is only one such stretch: if two begin and end with something other than white space, what is in front
    of both and behind both is white space, so neither can reach beyond the other. -/
theorem Stripped.trim_eq (h : Stripped text core) : trim text = core := by
  obtain ⟨⟨before, after, rfl, hbefore, hafter⟩, hfirst, hlast⟩ := h
  have hback : ∀ c ∈ after.reverse, c.toNat ∈ whiteSpace := fun c hc => hafter c (List.mem_reverse.mp hc)
  have hend : ∀ c, core.reverse.head? = some c → c.toNat ∉ whiteSpace := by
    intro c hc
    rw [List.head?_reverse] at hc
    exact hlast c hc
  cases core with
  | nil =>
    have hall : (before ++ [] ++ after).dropWhile isBlank = [] := by
      rw [List.append_nil]
      exact List.dropWhile_eq_nil_iff.mpr fun c hc =>
        isBlank_iff.mpr ((List.mem_append.mp hc).elim (hbefore c) (hafter c))
    rw [trim, hall]
    rfl
  | cons c core =>
    have hinner : (before ++ (c :: core) ++ after).dropWhile isBlank = c :: core ++ after := by
      rw [List.append_assoc]
      exact dropWhile_blanks hbefore hfirst
    rw [trim, hinner, List.reverse_append, dropWhile_blanks hback hend, List.reverse_reverse]

end SlotPool.Text
