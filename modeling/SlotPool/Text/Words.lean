import SlotPool.Text.Blank
/-!
Cutting a text into lines and words, and looking for a phrase in it.
-/

namespace SlotPool.Text

/-- The stretches between separators, empty ones included: one more than there are separators. -/
def fields (separates : Char → Bool) : List Char → List (List Char)
  | [] => [[]]
  | c :: rest =>
    if separates c then [] :: fields separates rest
    else
      match fields separates rest with
      | [] => [[c]]
      | first :: more => (c :: first) :: more

/-- The lines of a text, cut at line feeds. -/
def lines (text : List Char) : List (List Char) :=
  fields (· == '\n') text

/-- The words of a text: its longest stretches without blank characters. -/
def words (text : List Char) : List (List Char) :=
  (fields isBlank text).filter (· ≠ [])

/-- Whether `phrase` occurs somewhere in the text. -/
def mentions (phrase : List Char) : List Char → Bool
  | [] => phrase.isEmpty
  | c :: rest => phrase.isPrefixOf (c :: rest) || mentions phrase rest

end SlotPool.Text
