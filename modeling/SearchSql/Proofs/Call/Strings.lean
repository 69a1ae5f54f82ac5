import Mathlib.Data.List.Basic
import SearchSql.Call.Dialect

/-!
# Strings in SQL

SQL is read for its strings by the rule of the standard: an apostrophe opens a string, two of them
in a string are one that belongs to it, and a single one closes it. A quoted text is read back as
it was (`yields_quote`), and texts that follow each other keep their strings apart unless the later
one begins with an apostrophe (`Yields.append`).
-/

namespace SearchSql

namespace Sql

/-- Where a reader of SQL stands. Behind an apostrophe in a string it has to see whether another
one follows. -/
inductive Position where
  | outside
  | inside (read : List Char)
  | atApostrophe (read : List Char)

/-- A reader and the strings it has found so far. -/
structure Reader where
  found : List String
  position : Position

namespace Reader

def step (reader : Reader) (c : Char) : Reader :=
  match reader.position with
  | .outside => if c = Text.apostrophe then { reader with position := .inside [] } else reader
  | .inside s =>
    if c = Text.apostrophe then { reader with position := .atApostrophe s }
    else { reader with position := .inside (s ++ [c]) }
  | .atApostrophe s =>
    if c = Text.apostrophe then { reader with position := .inside (s ++ [c]) }
    else ⟨reader.found ++ [String.ofList s], .outside⟩

/-- No apostrophe follows. -/
def settle (reader : Reader) : Reader :=
  match reader.position with
  | .atApostrophe s => ⟨reader.found ++ [String.ofList s], .outside⟩
  | _ => reader

def read (reader : Reader) (s : List Char) : Reader := s.foldl step reader

end Reader

/-- The strings in a text, if it ends outside of all strings. -/
def strings? (s : String) : Option (List String) :=
  match (Reader.read ⟨[], .outside⟩ s.toList).settle with
  | ⟨found, .outside⟩ => some found
  | _ => none

/-- In this text a reader who begins outside finds these strings, and ends outside. -/
def Yields (s : List Char) (strings : List String) : Prop :=
  ∀ found, (Reader.read ⟨found, .outside⟩ s).settle = ⟨found ++ strings, .outside⟩

/-- The text does not begin with an apostrophe. -/
def Parted (s : List Char) : Prop := s.head? ≠ some Text.apostrophe

def Unquoted (s : List Char) : Prop := Text.apostrophe ∉ s

instance (s : List Char) : Decidable (Unquoted s) := inferInstanceAs (Decidable (_ ∉ _))

theorem Unquoted.append {s t : List Char} (hs : Unquoted s) (ht : Unquoted t) :
    Unquoted (s ++ t) := by
  intro h
  rcases List.mem_append.mp h with h | h
  · exact hs h
  · exact ht h

theorem Unquoted.parted {s : List Char} (h : Unquoted s) : Parted s := by
  intro first
  obtain ⟨rest, rfl⟩ := List.head?_eq_some_iff.mp first
  exact h List.mem_cons_self

namespace Reader

theorem read_append (reader : Reader) (s t : List Char) :
    reader.read (s ++ t) = (reader.read s).read t := List.foldl_append

theorem read_unquoted (found : List String) {s : List Char} (h : Unquoted s) :
    read ⟨found, .outside⟩ s = ⟨found, .outside⟩ := by
  induction s with
  | nil => rfl
  | cons c s ih =>
    have hc : c ≠ Text.apostrophe := fun e => h (e ▸ List.mem_cons_self)
    have first : step ⟨found, .outside⟩ c = ⟨found, .outside⟩ := by simp [step, hc]
    rw [read, List.foldl_cons, first]
    exact ih fun m => h (List.mem_cons_of_mem c m)

theorem settle_settle (reader : Reader) : reader.settle.settle = reader.settle := by
  obtain ⟨found, position⟩ := reader
  cases position <;> rfl

/-- A character that is no apostrophe closes a string that could be closed. -/
theorem step_settle (reader : Reader) {c : Char} (h : c ≠ Text.apostrophe) :
    reader.settle.step c = reader.step c := by
  obtain ⟨found, position⟩ := reader
  cases position <;> simp [settle, step, h]

theorem read_settle (reader : Reader) {s : List Char} (h : Parted s) :
    (reader.settle.read s).settle = (reader.read s).settle := by
  cases s with
  | nil => exact settle_settle reader
  | cons c s =>
    have hc : c ≠ Text.apostrophe := fun e => h (e ▸ rfl)
    simp only [read, List.foldl_cons, step_settle reader hc]

theorem read_escape (found : List String) (acc s : List Char) :
    read ⟨found, .inside acc⟩ (escape s) = ⟨found, .inside (acc ++ s)⟩ := by
  induction s generalizing acc with
  | nil => simp [escape, read]
  | cons c s ih =>
    have onward := ih (acc ++ [c])
    rw [List.append_assoc, List.singleton_append] at onward
    rw [escape]
    by_cases hc : c = Text.apostrophe
    · have twice : read ⟨found, .inside acc⟩ [c, c] = ⟨found, .inside (acc ++ [c])⟩ := by
        simp [read, step, hc]
      rw [if_pos hc, show c :: c :: escape s = [c, c] ++ escape s from rfl, read_append, twice,
        onward]
    · have once : read ⟨found, .inside acc⟩ [c] = ⟨found, .inside (acc ++ [c])⟩ := by
        simp [read, step, hc]
      rw [if_neg hc, show c :: escape s = [c] ++ escape s from rfl, read_append, once, onward]

end Reader

theorem yields_unquoted {s : List Char} (h : Unquoted s) : Yields s [] := by
  intro found
  rw [Reader.read_unquoted found h, List.append_nil]
  rfl

theorem Yields.after_unquoted {s t : List Char} {strings : List String} (h : Yields t strings)
    (hs : Unquoted s) : Yields (s ++ t) strings := by
  intro found
  rw [Reader.read_append, Reader.read_unquoted found hs]
  exact h found

/-- What follows a string must not begin with an apostrophe. -/
theorem Yields.append {s t : List Char} {strings more : List String} (hs : Yields s strings)
    (ht : Yields t more) (parted : Parted t) : Yields (s ++ t) (strings ++ more) := by
  intro found
  rw [Reader.read_append, ← Reader.read_settle _ parted, hs found, ht, List.append_assoc]

theorem Yields.before_unquoted {s t : List Char} {strings : List String} (h : Yields s strings)
    (ht : Unquoted t) : Yields (s ++ t) strings := by
  have both := h.append (yields_unquoted ht) ht.parted
  rwa [List.append_nil] at both

theorem yields_quote (s : String) : Yields (quote s).toList [s] := by
  intro found
  have opened : Reader.read ⟨found, .outside⟩ [Text.apostrophe] = ⟨found, .inside []⟩ := by
    simp [Reader.read, Reader.step]
  have closed : Reader.read ⟨found, .inside s.toList⟩ [Text.apostrophe] =
      ⟨found, .atApostrophe s.toList⟩ := by
    simp [Reader.read, Reader.step]
  have parts : (quote s).toList = [Text.apostrophe] ++ (escape s.toList ++ [Text.apostrophe]) := by
    simp [quote]
  rw [parts, Reader.read_append, opened, Reader.read_append, Reader.read_escape, List.nil_append,
    closed]
  simp [Reader.settle]

end Sql

end SearchSql
