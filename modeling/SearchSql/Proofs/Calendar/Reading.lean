import Mathlib.Data.Nat.Digits.Defs
import SearchSql.Calendar.Reading
import SearchSql.Proofs.Calendar.Text

/-!
# Days and moments read back

The text of a day is one of the forms in which days are read, and reading it gives the day again
(`Date.read?_text`). The text of a moment is parted by the mark between day and time and by the
sign of its offset, and each part is read as what it was written from. The zone of a clock and the
fold are not written, so they are lost, and so is an offset of less than a second
(`Moment.read?_text`). What is read has neither: it is what its own text is read as
(`Moment.reread_eq_of_read`).
-/

namespace SearchSql

theorem length_padded {width n : Nat} (pos : 0 < width) (fits : n < 10 ^ width) :
    (padded width n).length = width := by
  have short : (Number.natText n).length ≤ width := Nat.toDigits_length 10 n width pos fits
  rw [padded, List.length_append, List.length_replicate]
  omega

theorem takeDigits?_padded {width n : Nat} (pos : 0 < width) (fits : n < 10 ^ width)
    (rest : List Char) : takeDigits? width (padded width n ++ rest) = some (n, rest) := by
  have length := length_padded pos fits
  have digits : (padded width n).all Char.isDigit = true :=
    List.all_eq_true.mpr fun _ => isDigit_of_mem_padded
  rw [takeDigits?, List.take_left' length, List.drop_left' length, if_pos ⟨length, digits⟩,
    ofDigitChars_padded]

/-- Two digits, of which the first is not the letter of a week. -/
theorem exists_padded_two {n : Nat} (fits : n < 100) :
    ∃ c d, padded 2 n = [c, d] ∧ c ≠ 'W' := by
  obtain ⟨c, d, hcd⟩ := List.length_eq_two.mp (length_padded (n := n) (by decide) fits)
  refine ⟨c, d, hcd, ?_⟩
  rintro rfl
  have digit : 'W'.isDigit = true := isDigit_of_mem_padded (hcd ▸ List.mem_cons_self)
  exact absurd digit (by decide)

/-! ## Days -/

namespace Date

variable (d : Date)

theorem year_lt : d.year < 10 ^ 4 := by
  have := d.valid.1
  omega

theorem month_lt : d.month < 10 ^ 2 := by
  obtain ⟨-, -, first, last⟩ := d.valid
  have inside : d.month - 1 < (monthLengths d.year).length := by
    by_contra outside
    rw [List.getElem?_eq_none (by omega), Option.getD_none] at last
    omega
  have months : (monthLengths d.year).length = 12 := rfl
  omega

theorem monthLength_le (year i : Nat) : (monthLengths year)[i]?.getD 0 ≤ 31 := by
  have each : ∀ n ∈ monthLengths year, n ≤ 31 := by
    unfold monthLengths
    cases isLeap year <;> decide
  cases hi : (monthLengths year)[i]? with
  | none => exact Nat.zero_le _
  | some n => exact each n (List.mem_of_getElem? hi)

theorem day_lt : d.day < 10 ^ 2 := by
  have last := d.valid.2.2.2
  have bound := monthLength_le d.year (d.month - 1)
  omega

theorem of?_parts : of? d.year d.month d.day = some d := dif_pos d.valid

/-- The fifth character is a dash, and the sixth is not the letter of a week. -/
theorem exists_text_append (rest : List Char) : ∃ a b c e f g h i, f ≠ 'W' ∧
    d.text ++ rest = a :: b :: c :: e :: '-' :: f :: g :: '-' :: h :: i :: rest := by
  obtain ⟨f, g, hmonth, week⟩ := exists_padded_two d.month_lt
  obtain ⟨h, i, hday, -⟩ := exists_padded_two d.day_lt
  have length := length_padded (by decide) d.year_lt
  match hyear : padded 4 d.year, length with
  | [a, b, c, e], _ =>
    refine ⟨a, b, c, e, f, g, h, i, week, ?_⟩
    rw [text, hyear, hmonth, hday]
    rfl

theorem length_text : d.text.length = 10 := by
  obtain ⟨a, b, c, e, f, g, h, i, -, htext⟩ := d.exists_text_append []
  rw [List.append_nil] at htext
  rw [htext]
  rfl

theorem readForm?_text : readForm? d.text = some d := by
  obtain ⟨f, g, hmonth, week⟩ := exists_padded_two d.month_lt
  have month := takeDigits?_padded (by decide) d.month_lt ('-' :: padded 2 d.day)
  have day := takeDigits?_padded (by decide) d.day_lt []
  rw [List.append_nil] at day
  rw [readForm?, text, takeDigits?_padded (by decide) d.year_lt]
  simp only [hmonth, List.cons_append, List.nil_append] at month ⊢
  simp [readMonthDay?, month, day, of?_parts, week]

end Date

/-! ## Times of day -/

/-- The characters of a time of day. -/
def isClockChar (c : Char) : Bool := c.isDigit || c = ':' || c = '.'

theorem isClockChar_of_mem_padded {width n : Nat} {c : Char} (h : c ∈ padded width n) :
    isClockChar c = true := by
  simp [isClockChar, isDigit_of_mem_padded h]

theorem not_startsOffset_of_isClockChar {c : Char} (h : isClockChar c = true) :
    Moment.startsOffset c = false := by
  simp only [isClockChar, Bool.or_eq_true, decide_eq_true_eq] at h
  rcases h with (digit | rfl) | rfl
  · have other {s : Char} (hs : s.isDigit = false) : c ≠ s := by
      rintro rfl
      rw [hs] at digit
      cases digit
    simp [Moment.startsOffset, other (s := '+') rfl, other (s := '-') rfl, other (s := 'Z') rfl]
  · rfl
  · rfl

theorem toNat_lt_of_isDigit {c : Char} (h : c.isDigit = true) : c.toNat < 128 := by
  simp only [Char.isDigit, Bool.and_eq_true, decide_eq_true_eq] at h
  have bound := UInt32.le_iff_toNat_le.mp h.2
  exact Nat.lt_of_le_of_lt bound (by decide)

theorem toNat_lt_of_isClockChar {c : Char} (h : isClockChar c = true) : c.toNat < 128 := by
  simp only [isClockChar, Bool.or_eq_true, decide_eq_true_eq] at h
  rcases h with (digit | rfl) | rfl
  · exact toNat_lt_of_isDigit digit
  · decide
  · decide

theorem places_eq_self {s : List Char} (h : ∀ c ∈ s, c.toNat < 128) : places s = s := by
  induction s with
  | nil => rfl
  | cons c s ih =>
    obtain ⟨ascii, rest⟩ := List.forall_mem_cons.mp h
    rw [places, List.flatMap_cons, if_pos ascii, ← places, ih rest]
    rfl

theorem Date.read?_text (d : Date) : Date.read? d.text = some d := by
  have ascii : ∀ c ∈ d.text, c.toNat < 128 := by
    intro c hc
    rcases Date.mem_text hc with rfl | digit
    · decide
    · exact toNat_lt_of_isDigit digit
  rw [Date.read?, places_eq_self ascii, d.length_text]
  simp only [or_true, if_true]
  exact d.readForm?_text

namespace Clock

open Moment

theorem isClockChar_of_mem_fraction {micro : Nat} {c : Char} (h : c ∈ fractionText micro) :
    isClockChar c = true := by
  unfold fractionText at h
  split at h
  · cases h
  · rcases List.mem_cons.mp h with rfl | h
    · rfl
    · exact isClockChar_of_mem_padded h

theorem readFraction?_padded {micro : Nat} (fits : micro < 10 ^ 6) :
    readFraction? (padded 6 micro) = some (micro, []) := by
  have digits := takeDigits?_padded (by decide) fits []
  rw [List.append_nil] at digits
  rw [readFraction?, length_padded (by decide) fits]
  simp [digits]

section Parts

variable {hour minute second micro : Nat}

/-- The last part, with a fraction or without one. -/
theorem readParts?_second (hs : second < 10 ^ 2) (hf : micro < 10 ^ 6) :
    readParts? true 1 (padded 2 second ++ fractionText micro) = some ([second], micro, []) := by
  rw [readParts?, takeDigits?_padded (by decide) hs]
  by_cases whole : micro = 0
  · simp [fractionText, whole]
  · obtain ⟨c, digits, hdigits⟩ := List.exists_cons_of_ne_nil (padded_ne_nil 6 micro)
    have fraction := readFraction?_padded hf
    rw [hdigits] at fraction
    simp [fractionText, whole, hdigits, fraction]

theorem readParts?_minute (hm : minute < 10 ^ 2) (hs : second < 10 ^ 2) (hf : micro < 10 ^ 6) :
    readParts? true 2 (padded 2 minute ++ ':' :: (padded 2 second ++ fractionText micro)) =
      some ([minute, second], micro, []) := by
  obtain ⟨c, d, hcd, -⟩ := exists_padded_two hs
  have later := readParts?_second hs hf
  rw [readParts?, takeDigits?_padded (by decide) hm]
  simp only [hcd, List.cons_append, List.nil_append] at later ⊢
  simp [later]

/-- A time to the second, with a fraction or without one. -/
theorem read?_second (hh : hour < 10 ^ 2) (hm : minute < 10 ^ 2) (hs : second < 10 ^ 2)
    (hf : micro < 10 ^ 6) :
    read? (padded 2 hour ++ ':' :: (padded 2 minute ++ ':' :: (padded 2 second ++
      fractionText micro))) = some ⟨hour, minute, second, micro, false⟩ := by
  obtain ⟨c, d, hcd, -⟩ := exists_padded_two hm
  have later := readParts?_minute hm hs hf
  rw [read?, readParts?, takeDigits?_padded (by decide) hh]
  simp only [hcd, List.cons_append, List.nil_append] at later ⊢
  simp [later]

/-- A time to the minute. -/
theorem read?_minute (hh : hour < 10 ^ 2) (hm : minute < 10 ^ 2) :
    read? (padded 2 hour ++ ':' :: padded 2 minute) = some ⟨hour, minute, 0, 0, false⟩ := by
  obtain ⟨c, d, hcd, -⟩ := exists_padded_two hm
  have later : readParts? true 2 (padded 2 minute) = some ([minute], 0, []) := by
    have digits := takeDigits?_padded (by decide) hm []
    rw [List.append_nil] at digits
    rw [readParts?, digits]
    rfl
  rw [read?, readParts?, takeDigits?_padded (by decide) hh]
  rw [hcd] at later ⊢
  simp [later]

end Parts

end Clock

/-! ## Moments -/

namespace Moment

/-- An offset as it is read from its text: one of less than a second is lost. -/
def wholeOffset (o : Int) : Int := if o.natAbs < 1000000 then 0 else o

theorem isOffset_wholeOffset {o : Int} (h : IsOffset o) : IsOffset (wholeOffset o) := by
  unfold wholeOffset
  split
  · decide
  · exact h

/-- The moment that the text of a moment is read as. -/
def reread (m : Moment) : Moment :=
  ⟨m.date, m.clock, m.offset.map wholeOffset, none, false, m.clock_lt, by
    intro o ho
    obtain ⟨p, hp, rfl⟩ := Option.map_eq_some_iff.mp ho
    exact isOffset_wholeOffset (m.isOffset p hp)⟩

/-- A part of a second is lost of an offset only where there is nothing else. -/
theorem offsetMicros_eq {c : Clock} {n : Nat} (part : c.micro < 1000000) (size : c.micros = n) :
    c.offsetMicros = if n < 1000000 then 0 else (n : Int) := by
  unfold Clock.offsetMicros
  unfold Clock.micros at size ⊢
  split <;> split <;> omega

/-- The text of an offset is read as the offset, but for one of less than a second. -/
theorem readOffset?_zoneText {zone : Option Int} (valid : ∀ o ∈ zone, IsOffset o) :
    readOffset? (zoneText zone) = some (zone.map wholeOffset) := by
  cases zone with
  | none => rfl
  | some o =>
    have valid : o.natAbs < 86400000000 := valid o rfl
    -- The parts of the size are read, and they are those of the offset.
    have parts : ∃ c, Clock.read? (padded 2 (o.natAbs / 3600000000) ++ ':' ::
        (padded 2 (o.natAbs / 60000000 % 60) ++ offsetSeconds o.natAbs)) = some c ∧
        c.leftOver = false ∧ c.micro < 1000000 ∧ c.micros = o.natAbs := by
      have hour : o.natAbs / 3600000000 < 10 ^ 2 := by omega
      have minute : o.natAbs / 60000000 % 60 < 10 ^ 2 := by omega
      have second : o.natAbs / 1000000 % 60 < 10 ^ 2 := by omega
      have micro : o.natAbs % 1000000 < 10 ^ 6 := by omega
      unfold offsetSeconds
      split
      · next whole =>
        rw [List.append_nil]
        refine ⟨_, Clock.read?_minute hour minute, rfl, Nat.succ_pos _, ?_⟩
        simp only [Clock.micros, Clock.seconds]
        omega
      · refine ⟨_, Clock.read?_second hour minute second micro, rfl, micro, ?_⟩
        simp only [Clock.micros, Clock.seconds]
        omega
    obtain ⟨c, hread, whole, micro, size⟩ := parts
    have offset := offsetMicros_eq micro size
    rw [zoneText, offsetText_eq, Option.map_some]
    by_cases negative : o < 0
    · have worth : -c.offsetMicros = wholeOffset o := by
        unfold wholeOffset
        split at offset <;> split <;> omega
      rw [if_pos negative]
      simp [readOffset?, hread, whole, worth]
    · have worth : c.offsetMicros = wholeOffset o := by
        unfold wholeOffset
        split at offset <;> split <;> omega
      rw [if_neg negative]
      simp [readOffset?, hread, whole, worth]

/-- The time of day of a moment. -/
def clockText (m : Moment) : List Char :=
  padded 2 m.hour ++ ':' :: (padded 2 m.minute ++ ':' :: (padded 2 m.second ++
    fractionText m.micro))

theorem text_eq_parts (m : Moment) :
    m.text = m.date.text ++ 'T' :: (m.clockText ++ zoneText m.offset) := by
  rw [text_eq]
  simp [clockText]

theorem isClockChar_of_mem_clockText {m : Moment} {c : Char} (h : c ∈ m.clockText) :
    isClockChar c = true := by
  simp only [clockText, List.mem_append, List.mem_cons] at h
  rcases h with h | rfl | h | rfl | h | h
  · exact isClockChar_of_mem_padded h
  · rfl
  · exact isClockChar_of_mem_padded h
  · rfl
  · exact isClockChar_of_mem_padded h
  · exact Clock.isClockChar_of_mem_fraction h

theorem toNat_lt_of_mem_zone {zone : Option Int} {c : Char} (h : c ∈ zoneText zone) :
    c.toNat < 128 := by
  cases zone with
  | none => cases h
  | some o =>
    have clock {width n : Nat} (h : c ∈ padded width n) : c.toNat < 128 :=
      toNat_lt_of_isClockChar (isClockChar_of_mem_padded h)
    rw [zoneText, offsetText_eq, offsetSeconds] at h
    simp only [List.mem_cons, List.mem_append] at h
    rcases h with rfl | h | rfl | h | h
    · split <;> decide
    · exact clock h
    · decide
    · exact clock h
    · split at h
      · cases h
      · simp only [List.mem_append, List.mem_cons] at h
        rcases h with (rfl | h) | h
        · decide
        · exact clock h
        · exact toNat_lt_of_isClockChar (Clock.isClockChar_of_mem_fraction h)

theorem stopsAt_zone (zone : Option Int) : StopsAt (! startsOffset ·) (zoneText zone) := by
  cases zone with
  | none => exact stopsAt_nil
  | some o =>
    rw [zoneText, offsetText_eq]
    apply stopsAt_cons
    split <;> rfl

theorem readTime?_text (m : Moment) :
    readTime? m.date (m.clockText ++ zoneText m.offset) = some m.reread := by
  have plain : ∀ c ∈ m.clockText, (! startsOffset c) = true := by
    intro c hc
    rw [not_startsOffset_of_isClockChar (isClockChar_of_mem_clockText hc)]
    rfl
  have bound : m.clock < 86400000000 := m.clock_lt
  have hour : m.hour ≤ 23 := by unfold Moment.hour; omega
  have minute : m.minute ≤ 59 := by unfold Moment.minute; omega
  have second : m.second ≤ 59 := by unfold Moment.second; omega
  have micro : m.micro < 10 ^ 6 := by unfold Moment.micro; omega
  have clock : Clock.read? m.clockText =
      some ⟨m.hour, m.minute, m.second, m.micro, false⟩ :=
    Clock.read?_second (by omega) (by omega) (by omega) micro
  have worth : (⟨m.hour, m.minute, m.second, m.micro, false⟩ : Clock).micros = m.clock := by
    simp only [Clock.micros, Clock.seconds, Moment.hour, Moment.minute, Moment.second, Moment.micro]
    omega
  have whole : of? m.date m.clock (m.offset.map wholeOffset) = some m.reread :=
    dif_pos ⟨m.clock_lt, m.reread.isOffset⟩
  rw [readTime?, takeWhile_part plain (stopsAt_zone _), dropWhile_part plain (stopsAt_zone _)]
  simp [clock, readOffset?_zoneText m.isOffset, hour, minute, second, worth, whole]

/-- The day in front of a time is found by its first dash. -/
theorem dateLength_text (m : Moment) : dateLength m.text = 10 := by
  obtain ⟨a, b, c, e, f, g, h, i, week, htext⟩ :=
    m.date.exists_text_append ('T' :: (m.clockText ++ zoneText m.offset))
  have size : (a :: b :: c :: e :: '-' :: f :: g :: '-' :: h :: i ::
      'T' :: (m.clockText ++ zoneText m.offset)).length ≠ 7 := by
    simp only [List.length_cons]
    omega
  rw [text_eq_parts, htext, dateLength, if_neg size]
  simp [week]

/-- The text of a moment is read as a moment of a clock that no zone sets. -/
theorem read?_text (m : Moment) : Moment.read? m.text = some m.reread := by
  have ascii : ∀ c ∈ m.clockText ++ zoneText m.offset, c.toNat < 128 := by
    refine List.forall_mem_append.mpr ⟨?_, fun _ => toNat_lt_of_mem_zone⟩
    exact fun _ hc => toNat_lt_of_isClockChar (isClockChar_of_mem_clockText hc)
  rw [Moment.read?, dateLength_text, text_eq_parts, List.take_left' m.date.length_text,
    List.drop_left' m.date.length_text, Date.readForm?_text]
  simp only [Option.bind_eq_bind, Option.bind_some]
  rw [places_eq_self ascii]
  exact m.readTime?_text

/-! ### Moments that were read -/

theorem of?_eq_some {date : Date} {clock : Nat} {offset : Option Int} {m : Moment}
    (h : of? date clock offset = some m) :
    m.offset = offset ∧ m.zone = none ∧ m.fold = false := by
  unfold of? at h
  split at h
  · cases h
    exact ⟨rfl, rfl, rfl⟩
  · cases h

theorem wholeOffset_offsetMicros (c : Clock) :
    wholeOffset c.offsetMicros = c.offsetMicros ∧
      wholeOffset (-c.offsetMicros) = -c.offsetMicros := by
  unfold wholeOffset Clock.offsetMicros Clock.micros
  split <;> constructor <;> split <;> omega

/-- No offset of less than a second is read. -/
theorem wholeOffset_of_readOffset {s : List Char} {offset : Option Int}
    (h : readOffset? s = some offset) : offset.map wholeOffset = offset := by
  unfold readOffset? at h
  split at h
  · cases h
    rfl
  · split at h
    · cases h
    · cases h
      rfl
  · obtain ⟨c, -, h⟩ := Option.bind_eq_some_iff.mp h
    split at h
    · cases h
    · obtain ⟨unsigned, signed⟩ := wholeOffset_offsetMicros c
      split at h
      · cases h
        exact congrArg some signed
      · cases h
        exact congrArg some unsigned

theorem reread_eq_self_iff {m : Moment} :
    m.reread = m ↔ m.offset.map wholeOffset = m.offset ∧ m.zone = none ∧ m.fold = false := by
  constructor
  · intro same
    exact ⟨congrArg offset same, (congrArg zone same).symm, (congrArg fold same).symm⟩
  · obtain ⟨date, clock, offset, zone, fold, clock_lt, isOffset⟩ := m
    rintro ⟨whole, rfl, rfl⟩
    simp only at whole
    simp [reread, whole]

/-- A moment that was read is what its own text is read as. -/
theorem reread_eq_of_read {s : List Char} {m : Moment} (h : Moment.read? s = some m) :
    m.reread = m := by
  rw [reread_eq_self_iff]
  obtain ⟨date, -, h⟩ := Option.bind_eq_some_iff.mp h
  split at h
  · obtain ⟨offset, zone, fold⟩ := of?_eq_some h
    exact ⟨by rw [offset]; rfl, zone, fold⟩
  · obtain ⟨c, -, h⟩ := Option.bind_eq_some_iff.mp h
    split at h
    · cases h
    · obtain ⟨read, found, h⟩ := Option.bind_eq_some_iff.mp h
      split at h
      · obtain ⟨offset, zone, fold⟩ := of?_eq_some h
        exact ⟨by rw [offset]; exact wholeOffset_of_readOffset found, zone, fold⟩
      · cases h

end Moment

end SearchSql
