import Mathlib.Algebra.Group.Nat.Defs
import SlotPool.Operator.Arguments
import SlotPool.Proofs.Failure.Outcome
import SlotPool.Proofs.Slot.Record
import SlotPool.Proofs.Text.Numeral
/-!
The language of the command line. A command is asked for by its name, by the numbers that it takes, or by a row of flags
of any length. Every line that asks for a command is read as this command, and no other line is read at all.
-/

namespace SlotPool

theorem SlotId.ofNat?_of_lt {n : Nat} (hn : n < planSize) : ofNat? n = some ⟨n, hn⟩ := dif_pos hn

namespace Operator

open Text (Writes)

/-- What may be said of a try-out of the pool. -/
inductive Flag
  | allowInternet
  /-- how many slots to take, and the word that says so -/
  | count (word : String) (value : Nat)
  deriving DecidableEq

namespace Flag

/-- The words of a flag. The word after `--count` is its value, whatever it looks like. -/
def words : Flag → List String
  | .allowInternet => ["--allow-internet"]
  | .count word _ => ["--count", word]

/-- The word of a count writes the count, and this fits into 64 bits. -/
def Valid : Flag → Prop
  | .allowInternet => True
  | .count word value => Writes word.toList value ∧ value ≤ 2 ^ 64 - 1

/-- The count that a flag gives, if it gives one. -/
def count? : Flag → Option Nat
  | .allowInternet => none
  | .count _ value => some value

/-- The count that a row of flags asks for: the last one, or `otherwise` if there is none. -/
def lastCount (otherwise : Nat) (flags : List Flag) : Nat :=
  (flags.filterMap count?).getLast?.getD otherwise

end Flag

/-- The lines that ask for a command. -/
inductive Asks : List String → Command → Prop
  | topology {word : String} {id : SlotId} (hword : Writes word.toList id.val) :
    Asks ["topology", word] (.topology id)
  | reap {word word' : String} {first last : Nat} (hword : Writes word.toList first) (hfirst : first ≤ planSize - 1)
    (hword' : Writes word'.toList last) (hlast : last ≤ planSize) (hrange : first < last) :
    Asks ["reap", word, word'] (.reap first last)
  | smoke {flags : List Flag} (hvalid : ∀ flag ∈ flags, flag.Valid) (hcount : 1 ≤ Flag.lastCount 1 flags) :
    Asks ("smoke" :: flags.flatMap Flag.words)
      (.smoke (Flag.lastCount 1 flags) (decide (.allowInternet ∈ flags)))

/-- The numbers of the slots that a command names. -/
def Command.numbers : Command → List Nat
  | .topology id => [id.val]
  | .reap first last => List.range' first (last - first)
  | .smoke _ _ => []

variable {words rest : List String} {word name : String} {command : Command} {flags : List Flag}
  {largest count value n : Nat} {allowInternet : Bool}

/-! ### Numbers -/

/-- A word is taken as a number when it is written in digits and the number is small enough. Leading zeros and a
    plus sign are part of what counts as written. -/
theorem takeNumber_eq_ok_iff (hlargest : largest ≤ planSize) : takeNumber name largest words = .ok (n, rest) ↔
    ∃ word, words = word :: rest ∧ Writes word.toList n ∧ n ≤ largest := by
  -- no number of the plan is too large for the word that it is first read into
  have hread {word : String} : (Writes word.toList n ∧ n ≤ largest) ↔
      Text.numeral? Text.maxWord32 word.toList = some n ∧ n ≤ largest := by
    rw [Text.numeral?_eq_some_iff, and_assoc, and_congr_right_iff]
    intro _
    simp only [Text.maxWord32, planSize] at *
    omega
  cases words with
  | nil => simp [takeNumber]
  | cons word words =>
    simp only [takeNumber, List.cons.injEq, and_assoc, hread]
    cases htext : Text.numeral? Text.maxWord32 word.toList with
    | none => simp [htext]
    | some m =>
      by_cases hm : m ≤ largest
      · simp only [if_pos hm]
        grind
      · simp only [if_neg hm]
        grind

theorem ending_eq_ok_iff {asked : Command} : ending asked words = .ok command ↔ words = [] ∧ command = asked := by
  cases words with
  | nil => simp [ending, eq_comm]
  | cons word words => simp [ending]

/-- The topology takes one word, a slot's number, and nothing after it. -/
theorem parseTopology_eq_ok_iff : parseTopology words = .ok command ↔
    ∃ word id, words = [word] ∧ Writes word.toList id.val ∧ command = .topology id := by
  rw [parseTopology, bind_eq_ok_iff]
  constructor
  · rintro ⟨⟨n, rest⟩, htake, hrest⟩
    obtain ⟨word, rfl, hword, hn⟩ := (takeNumber_eq_ok_iff (Nat.sub_le ..)).mp htake
    have hplan : n < planSize := by
      simp only [planSize] at *
      omega
    simp only [SlotId.ofNat?_of_lt hplan] at hrest
    obtain ⟨rfl, rfl⟩ := ending_eq_ok_iff.mp hrest
    exact ⟨word, ⟨n, hplan⟩, rfl, hword, rfl⟩
  · rintro ⟨word, id, rfl, hword, rfl⟩
    refine ⟨(id.val, []), (takeNumber_eq_ok_iff (Nat.sub_le ..)).mpr ⟨word, rfl, hword, by omega⟩, ?_⟩
    simp only [SlotId.ofNat?_of_lt id.isLt]
    exact ending_eq_ok_iff.mpr ⟨rfl, rfl⟩

/-- Clearing up takes the first number of a range and the one behind its last, and the range must not be empty.
    -/
theorem parseReap_eq_ok_iff : parseReap words = .ok command ↔
    ∃ word word' first last, words = [word, word'] ∧ Writes word.toList first ∧ first ≤ planSize - 1 ∧
      Writes word'.toList last ∧ last ≤ planSize ∧ first < last ∧ command = .reap first last := by
  rw [parseReap, bind_eq_ok_iff]
  constructor
  · rintro ⟨⟨first, rest⟩, htake, hrest⟩
    obtain ⟨word, rfl, hword, hfirst⟩ := (takeNumber_eq_ok_iff (Nat.sub_le ..)).mp htake
    obtain ⟨⟨last, rest'⟩, htake', hrest'⟩ := bind_eq_ok_iff.mp hrest
    obtain ⟨word', rfl, hword', hlast⟩ := (takeNumber_eq_ok_iff (Nat.le_refl _)).mp htake'
    by_cases hrange : first < last
    · simp only [if_neg (Nat.not_le.mpr hrange)] at hrest'
      obtain ⟨rfl, rfl⟩ := ending_eq_ok_iff.mp hrest'
      exact ⟨word, word', first, last, rfl, hword, hfirst, hword', hlast, hrange, rfl⟩
    · simp only [if_pos (Nat.not_lt.mp hrange)] at hrest'
      cases hrest'
  · rintro ⟨word, word', first, last, rfl, hword, hfirst, hword', hlast, hrange, rfl⟩
    refine ⟨(first, [word']), (takeNumber_eq_ok_iff (Nat.sub_le ..)).mpr ⟨word, rfl, hword, hfirst⟩,
      bind_eq_ok_iff.mpr ⟨(last, []), (takeNumber_eq_ok_iff (Nat.le_refl _)).mpr ⟨word', rfl, hword', hlast⟩,
        ?_⟩⟩
    simp only [if_neg (Nat.not_le.mpr hrange)]
    exact ending_eq_ok_iff.mpr ⟨rfl, rfl⟩

/-! ### Flags -/

theorem lastCount_nil : Flag.lastCount count [] = count := rfl

theorem lastCount_allowInternet : Flag.lastCount count (.allowInternet :: flags) = Flag.lastCount count flags := rfl

/-- A count replaces all that was said before it. -/
theorem lastCount_count : Flag.lastCount count (.count word value :: flags) = Flag.lastCount value flags := by
  simp [Flag.lastCount, Flag.count?, List.getLast?_cons]

theorem valid_count_iff : (Flag.count word value).Valid ↔
    Text.numeral? Text.maxWord64 word.toList = some value := by
  rw [Text.numeral?_eq_some_iff]
  exact Iff.rfl

/-- Words that are read are the words of valid flags, and what is read is what the flags say. Before them, `count` and
    `allowInternet` have been said. -/
theorem exists_flags_of_parseFlags (hparse : parseFlags count allowInternet words = .ok command) :
    ∃ flags : List Flag, words = flags.flatMap Flag.words ∧ (∀ flag ∈ flags, flag.Valid) ∧
      1 ≤ Flag.lastCount count flags ∧
      command = .smoke (Flag.lastCount count flags) (allowInternet || decide (.allowInternet ∈ flags)) := by
  fun_induction parseFlags count allowInternet words with
  | case2 count allowInternet hcount =>
    cases hparse
    exact ⟨[], rfl, by simp, Nat.pos_of_ne_zero hcount, by simp [lastCount_nil]⟩
  | case5 count allowInternet word rest n hread ih =>
    obtain ⟨flags, rfl, hvalid, hcount, rfl⟩ := ih hparse
    refine ⟨.count word n :: flags, rfl, List.forall_mem_cons.mpr ⟨valid_count_iff.mpr hread, hvalid⟩, ?_, ?_⟩
    · rwa [lastCount_count]
    · simp [lastCount_count]
  | case6 count allowInternet rest ih =>
    obtain ⟨flags, rfl, hvalid, hcount, rfl⟩ := ih hparse
    refine ⟨.allowInternet :: flags, rfl, List.forall_mem_cons.mpr ⟨trivial, hvalid⟩, hcount, ?_⟩
    simp [lastCount_allowInternet]
  | case1 | case3 | case4 | case7 => cases hparse

/-- The words of valid flags are read as what the flags say. -/
theorem parseFlags_flatMap (hvalid : ∀ flag ∈ flags, flag.Valid) (hcount : 1 ≤ Flag.lastCount count flags) :
    parseFlags count allowInternet (flags.flatMap Flag.words) =
      .ok (.smoke (Flag.lastCount count flags) (allowInternet || decide (.allowInternet ∈ flags))) := by
  induction flags generalizing count allowInternet with
  | nil =>
    have hne : count ≠ 0 := Nat.ne_of_gt hcount
    simp [parseFlags, lastCount_nil, hne]
  | cons flag flags ih =>
    obtain ⟨hflag, hflags⟩ := List.forall_mem_cons.mp hvalid
    cases flag with
    | allowInternet =>
      have hrest := @ih count true hflags hcount
      simpa [parseFlags, Flag.words, lastCount_allowInternet] using hrest
    | count word value =>
      rw [lastCount_count] at hcount ⊢
      have hrest := @ih value allowInternet hflags hcount
      simpa [parseFlags, Flag.words, valid_count_iff.mp hflag] using hrest

/-! ### Whole lines -/

/-- What is read as a command asks for that command. -/
theorem asks_of_parse (hparse : parse words = .ok command) : Asks words command := by
  cases words with
  | nil => cases hparse
  | cons word rest =>
    rw [parse] at hparse
    split at hparse
    case isTrue htopology =>
      obtain ⟨word', id, rfl, hword, rfl⟩ := parseTopology_eq_ok_iff.mp hparse
      exact htopology ▸ .topology hword
    split at hparse
    case isTrue hreap =>
      obtain ⟨word, word', first, last, rfl, hword, hfirst, hword', hlast, hrange, rfl⟩ := parseReap_eq_ok_iff.mp hparse
      exact hreap ▸ .reap hword hfirst hword' hlast hrange
    split at hparse
    case isTrue hsmoke =>
      obtain ⟨flags, rfl, hvalid, hcount, rfl⟩ := exists_flags_of_parseFlags hparse
      exact hsmoke ▸ .smoke hvalid hcount
    split at hparse <;> cases hparse

/-- Every way to ask for a command is read as that command. -/
theorem parse_of_asks (h : Asks words command) : parse words = .ok command := by
  cases h with
  | topology hword => exact parseTopology_eq_ok_iff.mpr ⟨_, _, rfl, hword, rfl⟩
  | reap hword hfirst hword' hlast hrange =>
    exact parseReap_eq_ok_iff.mpr ⟨_, _, _, _, rfl, hword, hfirst, hword', hlast, hrange, rfl⟩
  | smoke hvalid hcount => exact parseFlags_flatMap hvalid hcount

/-- The numbers in a command are numbers of slots. -/
theorem Asks.numbers_lt (h : Asks words command) : ∀ n ∈ command.numbers, n < planSize := by
  cases h with
  | @topology word id hword => exact fun n hn => List.mem_singleton.mp hn ▸ id.isLt
  | reap hword hfirst hword' hlast hrange =>
    intro n hn
    have hbelow := (List.mem_range'_1.mp hn).2
    omega
  | smoke hvalid hcount => exact fun n hn => nomatch hn

/-- The command line is read by its language: a line is read as the command that it asks for, and it is refused if it
    asks for none. What is read never names a slot that the plan does not have. -/
theorem parse_exact (words : List String) :
    (∀ command, parse words = .ok command ↔ Asks words command) ∧
    ((∃ error, parse words = .error error) ↔ ∀ command, ¬ Asks words command) ∧
    (∀ command, Asks words command → ∀ n ∈ command.numbers, (Slot.ofNat? n).isSome) := by
  have hasks (command : Command) : parse words = .ok command ↔ Asks words command :=
    ⟨asks_of_parse, parse_of_asks⟩
  refine ⟨hasks, ?_, fun command h n hn => Slot.ofNat?_isSome.mpr (h.numbers_lt n hn)⟩
  simp only [← hasks]
  cases hparse : parse words with
  | error error => simp
  | ok command => simp

/-- A later count replaces a count of zero, and what follows `--count` is never taken for a flag. -/
theorem parse_exact_counts :
    Asks ["smoke", "--count", "0", "--allow-internet", "--count", "+007"] (.smoke 7 true) ∧
    (∀ command, ¬ Asks ["smoke", "--count", "--allow-internet"] command) ∧
    (∀ n ∈ (Command.reap 16382 16384).numbers, (Slot.ofNat? n).isSome) :=
  ⟨((parse_exact _).1 _).mp rfl, (parse_exact _).2.1.mp ⟨.invalidCount "--allow-internet", rfl⟩,
    (parse_exact ["reap", "16382", "16384"]).2.2 _ (((parse_exact _).1 _).mp rfl)⟩

end Operator
end SlotPool
