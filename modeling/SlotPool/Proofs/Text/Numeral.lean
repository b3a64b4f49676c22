import Std.Data.String.ToNat
import SlotPool.Text.Numeral
/-!
Which texts are read as numbers. A text is read as the number that it writes in the decimal system, if this is not
above the bound, and a text that writes no number is not read at all.
-/

namespace SlotPool.Text

/-- A text writes a number in the decimal system: it is a row of ASCII digits, the most significant first, and there may
    be a plus sign in front of it. -/
def Writes (text : List Char) (n : Nat) : Prop :=
  ∃ digits, (text = digits ∨ text = '+' :: digits) ∧ digits ≠ [] ∧ (∀ c ∈ digits, c.isDigit = true) ∧
    Nat.ofDigitChars 10 digits 0 = n

variable {text digits : List Char} {c : Char} {bound value m n : Nat}

theorem isDigit_iff : c.isDigit = true ↔ '0' ≤ c ∧ c ≤ '9' := by
  rw [Char.isDigit, Bool.and_eq_true, decide_eq_true_eq, decide_eq_true_eq]
  exact Iff.rfl

theorem digit?_of_digit (hc : c.isDigit = true) : digit? c = some (c.toNat - '0'.toNat) :=
  if_pos (isDigit_iff.mp hc)

theorem digit?_of_other (hc : ¬ c.isDigit = true) : digit? c = none :=
  if_neg fun h => hc (isDigit_iff.mpr h)

/-- The digits that follow continue the number that has been read so far. -/
theorem digitsFrom?_eq_some_iff : digitsFrom? value digits = some n ↔
    (∀ c ∈ digits, c.isDigit = true) ∧ Nat.ofDigitChars 10 digits value = n := by
  induction digits generalizing value with
  | nil => simp [digitsFrom?, Nat.ofDigitChars]
  | cons c digits ih =>
    rw [digitsFrom?, List.forall_mem_cons, Nat.ofDigitChars, List.foldl_cons]
    by_cases hc : c.isDigit = true
    · simp only [digit?_of_digit hc, ih, hc, true_and]
      exact Iff.rfl
    · simp [digit?_of_other hc, hc]

theorem digits?_eq_some_iff : digits? digits = some n ↔
    digits ≠ [] ∧ (∀ c ∈ digits, c.isDigit = true) ∧ Nat.ofDigitChars 10 digits 0 = n := by
  cases digits with
  | nil => simp [digits?]
  | cons c digits => simp [digits?, digitsFrom?_eq_some_iff]

theorem numeral?_plus : numeral? bound ('+' :: digits) = (digits? digits).filter (· ≤ bound) := rfl

theorem numeral?_bare (hbare : text.head? ≠ some '+') : numeral? bound text = (digits? text).filter (· ≤ bound) := by
  unfold numeral?
  split
  · exact absurd rfl hbare
  · rfl

theorem filter_digits?_eq_some_iff : (digits? digits).filter (· ≤ bound) = some n ↔
    (digits ≠ [] ∧ (∀ c ∈ digits, c.isDigit = true) ∧ Nat.ofDigitChars 10 digits 0 = n) ∧ n ≤ bound := by
  rw [Option.filter_eq_some_iff, decide_eq_true_eq, digits?_eq_some_iff]

/-- Read is exactly what writes a number within the bound. -/
theorem numeral?_eq_some_iff : numeral? bound text = some n ↔ Writes text n ∧ n ≤ bound := by
  have hplus {digits : List Char} (hdigits : ∀ c ∈ '+' :: digits, c.isDigit = true) : False :=
    absurd (hdigits '+' (List.mem_cons_self ..)) (by decide)
  by_cases hsign : text.head? = some '+'
  case pos =>
    obtain ⟨digits, rfl⟩ := List.head?_eq_some_iff.mp hsign
    rw [numeral?_plus, filter_digits?_eq_some_iff]
    refine and_congr_left fun _ => ⟨fun h => ⟨digits, .inr rfl, h⟩, ?_⟩
    rintro ⟨others, rfl | hothers, hrest⟩
    · exact (hplus hrest.2.1).elim
    · exact (List.cons.inj hothers).2 ▸ hrest
  case neg =>
    rw [numeral?_bare hsign, filter_digits?_eq_some_iff]
    refine and_congr_left fun _ => ⟨fun h => ⟨text, .inl rfl, h⟩, ?_⟩
    rintro ⟨digits, rfl | rfl, hrest⟩
    · exact hrest
    · exact absurd rfl hsign

example : numeral? 255 "+008".toList = some 8 := by decide

end SlotPool.Text
