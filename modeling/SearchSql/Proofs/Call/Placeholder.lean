import Mathlib.Algebra.Order.Group.Int
import SearchSql.Call.Dialect
import SearchSql.Number.RoundTrip

/-!
# Placeholders

Reading a text for its placeholders: a mark, an optional minus sign and as many digits as there
are. Text without the mark is passed over (`scan_plain`), and a placeholder is read as its number
where no digit follows it (`scan_placeholder`).
-/

namespace SearchSql

/-- What a text consists of when it is read for placeholders. -/
inductive Token where
  | char (c : Char)
  | placeholder (n : Int)
  deriving DecidableEq

namespace Token

def mark : Char := '$'

def readNatural? (s : List Char) : Option (Nat × List Char) :=
  (Number.natOf? (s.takeWhile Char.isDigit)).map fun n => (n, s.dropWhile Char.isDigit)

/-- Reads the number behind a mark. -/
def readNumber? : List Char → Option (Int × List Char)
  | [] => none
  | c :: rest =>
    if c = '-' then (readNatural? rest).map fun (n, rest) => (-(n : Int), rest)
    else (readNatural? (c :: rest)).map fun (n, rest) => (n, rest)

theorem length_le_of_readNatural {s rest : List Char} {n : Nat}
    (h : readNatural? s = some (n, rest)) : rest.length ≤ s.length := by
  obtain ⟨k, -, hk⟩ := Option.map_eq_some_iff.mp h
  cases hk
  exact (List.dropWhile_sublist _).length_le

theorem length_le_of_readNumber {s rest : List Char} {n : Int}
    (h : readNumber? s = some (n, rest)) : rest.length ≤ s.length := by
  cases s with
  | nil => cases h
  | cons c s =>
    rw [readNumber?] at h
    by_cases hc : c = '-'
    · rw [if_pos hc] at h
      obtain ⟨⟨k, r⟩, hk, heq⟩ := Option.map_eq_some_iff.mp h
      cases heq
      exact Nat.le_succ_of_le (length_le_of_readNatural hk)
    · rw [if_neg hc] at h
      obtain ⟨⟨k, r⟩, hk, heq⟩ := Option.map_eq_some_iff.mp h
      cases heq
      exact length_le_of_readNatural hk

/-- Reads a text from left to right. A mark without a number is a character like any other. -/
def scan : List Char → List Token
  | [] => []
  | c :: rest =>
    if c = mark then
      match _h : readNumber? rest with
      | some (n, rest') => .placeholder n :: scan rest'
      | none => .char c :: scan rest
    else .char c :: scan rest
termination_by s => s.length
decreasing_by
  · exact Nat.lt_succ_of_le (length_le_of_readNumber ‹_›)
  · exact Nat.lt_succ_self _
  · exact Nat.lt_succ_self _

def number? : Token → Option Int
  | .char _ => none
  | .placeholder n => some n

/-- The text of a token, with something else in place of a placeholder. -/
def substitute (f : Int → String) : Token → List Char
  | .char c => [c]
  | .placeholder n => (f n).toList

end Token

/-- The numbers of the placeholders in a text, from left to right. -/
def placeholders (s : String) : List Int := (Token.scan s.toList).filterMap Token.number?

/-- The text with all placeholders replaced at once. -/
def substitute (f : Int → String) (s : String) : String :=
  String.ofList ((Token.scan s.toList).flatMap (Token.substitute f))

/-- The text with all placeholders numbered further on. -/
def renumber (d : Int) (s : String) : String :=
  substitute (fun n => "$" ++ String.ofList (Number.intText (n + d))) s

/-- A text in which nothing can be taken for a placeholder. -/
def Plain (s : String) : Prop := Token.mark ∉ s.toList

instance (s : String) : Decidable (Plain s) := inferInstanceAs (Decidable (_ ∉ _))

@[simp] theorem plain_append {s t : String} : Plain (s ++ t) ↔ Plain s ∧ Plain t := by
  simp [Plain]

namespace Token

theorem scan_plain {s : List Char} (h : mark ∉ s) (rest : List Char) :
    scan (s ++ rest) = s.map .char ++ scan rest := by
  induction s with
  | nil => rfl
  | cons c s ih =>
    have hc : c ≠ mark := fun e => h (e ▸ List.mem_cons_self)
    rw [List.cons_append, scan, if_neg hc, ih fun m => h (List.mem_cons_of_mem _ m)]
    rfl

/-- The text goes on with something other than a digit, if at all. -/
def EndsNumber (rest : List Char) : Prop := ∀ c ∈ rest.head?, c.isDigit = false

theorem readNatural_natText (n : Nat) {rest : List Char} (h : EndsNumber rest) :
    readNatural? (Number.natText n ++ rest) = some (n, rest) := by
  have digits : ∀ c ∈ Number.natText n, c.isDigit = true := fun c hc =>
    Number.isDigit_of_mem_natText hc
  have stop : rest.takeWhile Char.isDigit = [] ∧ rest.dropWhile Char.isDigit = rest := by
    cases rest with
    | nil => exact ⟨rfl, rfl⟩
    | cons c rest =>
      have hc := h c rfl
      exact ⟨List.takeWhile_cons_of_neg (by simp [hc]), List.dropWhile_cons_of_neg (by simp [hc])⟩
  rw [readNatural?, List.takeWhile_append_of_pos digits, List.dropWhile_append_of_pos digits,
    stop.1, stop.2, List.append_nil, Number.natOf?_natText]
  rfl

theorem readNumber_intText (n : Int) {rest : List Char} (h : EndsNumber rest) :
    readNumber? (Number.intText n ++ rest) = some (n, rest) := by
  have magnitude := readNatural_natText n.natAbs h
  unfold Number.intText
  by_cases neg : n < 0
  · have worth : -(n.natAbs : Int) = n := by omega
    rw [if_pos neg, List.cons_append, readNumber?, if_pos rfl, magnitude]
    simp only [Option.map_some, worth]
  · obtain ⟨d, digits, hd⟩ := List.exists_cons_of_ne_nil (Number.natText_ne_nil n.natAbs)
    have hminus : d ≠ '-' := by
      rintro rfl
      exact absurd (Number.isDigit_of_mem_natText (hd ▸ List.mem_cons_self)) (by decide)
    rw [hd, List.cons_append] at magnitude
    have worth : (n.natAbs : Int) = n := by omega
    rw [if_neg neg, hd, List.cons_append, readNumber?, if_neg hminus, magnitude]
    simp only [Option.map_some, worth]

theorem scan_placeholder (n : Int) {rest : List Char} (h : EndsNumber rest) :
    scan (mark :: (Number.intText n ++ rest)) = .placeholder n :: scan rest := by
  have hn := readNumber_intText n h
  rw [scan, if_pos rfl]
  split
  · next k r hk =>
    rw [hn] at hk
    cases hk
    rfl
  · next hk =>
    rw [hn] at hk
    cases hk

end Token

end SearchSql
