import SearchSql.Proofs.Range.Building

/-!
# What is read stays as it is

A text is read as a range of the type that is asked for, or of the type that its bounds look like.
If that fails, the text has one of a few faults, and each is reported as an unsupported type or as
an invalid range, which is a case of it (`RangeText.Fault`). If it succeeds, the range is in normal
form: reading its own text as its own type gives it back (`read_settles`).
-/

namespace SearchSql

namespace RangeType

theorem holds_date {type : RangeType} {d : Date} : type.holds (.date d) = true ↔ type = .date := by
  cases type <;> simp [holds]

theorem holds_moment {type : RangeType} {m : Moment} :
    type.holds (.moment m) = true ↔ type = .timestamptz := by
  cases type <;> simp [holds]

theorem holds_number {type : RangeType} {n : Number} (h : type.holds (.number n) = true) :
    type ≠ .date ∧ type ≠ .timestamptz := by
  constructor
  · rintro rfl
    cases n <;> cases h
  · rintro rfl
    cases n <;> cases h

/-- Bounds of one type can stand in one range. -/
theorem mixes_of_holds {type : RangeType} {a b : Bound} (ha : type.holds a = true)
    (hb : type.holds b = true) : a.Mixes b := by
  cases a with
  | number m =>
    cases b with
    | number n => exact .numbers m n
    | date d => exact absurd (holds_date.mp hb) (holds_number ha).1
    | moment b => exact absurd (holds_moment.mp hb) (holds_number ha).2
  | date c =>
    cases b with
    | number n => exact absurd (holds_date.mp ha) (holds_number hb).1
    | date d => exact .dates c d
    | moment b => cases (holds_date.mp ha).symm.trans (holds_moment.mp hb)
  | moment a =>
    cases b with
    | number n => exact absurd (holds_moment.mp ha) (holds_number hb).2
    | date d => cases (holds_moment.mp ha).symm.trans (holds_date.mp hb)
    | moment b => exact .moments a b

end RangeType

namespace RangeText

/-- A bound of the literal that is read as a value of the type. -/
def Reads (type : RangeType) (bound : Option String) (offer : BoundOffer) : Prop :=
  ∃ s, bound = some s ∧ BoundOffer.read? type s.toList = some offer

/-- What can be wrong with a literal whose bounds are read as values of a type: one of them is no
value of the type, or one is not defined, or the lower one lies above the upper one. -/
inductive Fault (t : RangeText) (type : RangeType) : RangeError → Prop where
  | badBound {s : String} (bound : t.lower = some s ∨ t.upper = some s)
      (h : BoundOffer.read? type s.toList = none) : Fault t type (.badBound s type)
  | nanLower (h : Reads type t.lower .nan) : Fault t type (.nanBound .lower)
  | nanUpper (h : Reads type t.upper .nan) : Fault t type (.nanBound .upper)
  | inverted {l u : Bound} (lower : Reads type t.lower l.toOffer)
      (upper : Reads type t.upper u.toOffer) (h : l.Above u) : Fault t type (.inverted l u)

theorem readBoundAs_cases (type : RangeType) (bound : Option String) :
    (∃ s, bound = some s ∧ BoundOffer.read? type s.toList = none ∧
      readBoundAs type bound = .error (.badBound s type)) ∨
    ∃ offer, readBoundAs type bound = .ok offer ∧ ∀ o, offer = some o → Reads type bound o := by
  cases bound with
  | none => exact Or.inr ⟨none, rfl, nofun⟩
  | some s =>
    cases found : BoundOffer.read? type s.toList with
    | none => exact Or.inl ⟨s, rfl, found, by rw [readBoundAs, found]⟩
    | some offer =>
      refine Or.inr ⟨some offer, by rw [readBoundAs, found], ?_⟩
      rintro o ⟨⟩
      exact ⟨s, rfl, found⟩

/-- Whatever is read is settled to a bound that it offers, unless it is not defined. -/
theorem settle_of_reads {type : RangeType} {bound : Option String} {offer : Option BoundOffer}
    (reads : ∀ o, offer = some o → Reads type bound o) (defined : offer ≠ some .nan) :
    ∃ b, BoundOffer.settle offer = .ok b ∧
      ∀ c, b = some c → Reads type bound c.toOffer ∧ type.holds c = true := by
  cases offer with
  | none => exact ⟨none, rfl, nofun⟩
  | some o =>
    obtain ⟨s, same, found⟩ := reads o rfl
    rcases BoundOffer.cases_of_read found with rfl | rfl | ⟨b, rfl, held, -⟩
    · exact absurd rfl defined
    · exact ⟨none, rfl, nofun⟩
    · refine ⟨some b, Bound.settle_toOffer (some b), ?_⟩
      rintro c ⟨⟩
      exact ⟨⟨s, same, found⟩, held⟩

/-- A range of a type is refused for one of the faults only. -/
theorem fault_of_toRange {t : RangeText} {type : RangeType} {e : RangeError}
    (h : t.toRange type = .error e) : t.Fault type e := by
  rw [toRange] at h
  rcases readBoundAs_cases type t.lower with ⟨s, same, none, failed⟩ | ⟨lower, foundLower, readLower⟩
  · rw [failed] at h
    cases h
    exact .badBound (Or.inl same) none
  rcases readBoundAs_cases type t.upper with ⟨s, same, none, failed⟩ | ⟨upper, foundUpper, readUpper⟩
  · rw [foundLower, failed] at h
    cases h
    exact .badBound (Or.inr same) none
  rw [foundLower, foundUpper] at h
  replace h : SearchRange.build lower upper t.lowerInclusive t.upperInclusive (.named type) =
    .error e := h
  by_cases nanLower : lower = some .nan
  · rw [SearchRange.build, if_pos nanLower] at h
    cases h
    exact .nanLower (readLower _ nanLower)
  by_cases nanUpper : upper = some .nan
  · rw [SearchRange.build, if_neg nanLower, if_pos nanUpper] at h
    cases h
    exact .nanUpper (readUpper _ nanUpper)
  obtain ⟨l, settledLower, heldLower⟩ := settle_of_reads readLower nanLower
  obtain ⟨u, settledUpper, heldUpper⟩ := settle_of_reads readUpper nanUpper
  -- Bounds of one type always mix, so what is left is their order.
  obtain ⟨inferred, unified⟩ := RangeType.exists_unify_iff.mpr fun a b ha hb =>
    RangeType.mixes_of_holds (heldLower a ha).2 (heldUpper b hb).2
  rw [SearchRange.build, if_neg nanLower, if_neg nanUpper] at h
  simp only [settledLower, settledUpper, unified, bind, Except.bind, pure, Except.pure] at h
  split at h
  · next a b crossed =>
    cases h
    obtain ⟨rfl, rfl, above⟩ := SearchRange.inverted?_eq_some crossed
    exact .inverted (heldLower a rfl).1 (heldUpper b rfl).1 above
  · cases h

end RangeText

/-- Each fault of a range is reported as an unsupported type, or as a special case of one. -/
theorem RangeError.unsupportedType_mem_lineage (e : RangeError) :
    .unsupportedType ∈ e.report.category.lineage := by
  cases e with
  | boolBound b => cases b <;> simp [report, Report.make, Category.lineage]
  | _ => simp [report, Report.make, Report.withCause, Category.lineage]

/-- The type that a literal is to be read as: the one asked for, or the one that its bounds look
like. -/
def TypeRequest.Asks (request : TypeRequest) (t : RangeText) (type : RangeType) : Prop :=
  request = .named type ∨ request = .inferred ∧ type = t.inferType

namespace SearchRange

/-- Why a text is not read as a range: it is no literal, the type asked for is none, or the literal
has a fault. -/
inductive Refused (text : String) (request : TypeRequest) : RangeError → Prop where
  | unreadable (h : RangeText.read? text = none) :
      Refused text request (.unreadable (Text.quoted text))
  | unknownType {t : RangeText} {shown : String} (parts : RangeText.read? text = some t)
      (h : request = .unknown shown) : Refused text request (.unknownType shown)
  | faulty {t : RangeText} {type : RangeType} {e : RangeError}
      (parts : RangeText.read? text = some t) (asked : request.Asks t type)
      (h : t.Fault type e) : Refused text request e

/-- A range that was read is read again from its own text. -/
theorem read_text_of_read {text : String} {type : RangeType} {r : SearchRange Bool}
    (h : read text (.named type) = .ok r) : read r.text (.named r.type) = .ok r := by
  obtain ⟨-, typed, short, same⟩ := typed_of_read h
  obtain ⟨t, lower, upper, -, -, -, built⟩ := read_eq_ok h
  obtain ⟨-, -, ⟨inferred, unified, -⟩, ordered, lowerFlag, upperFlag⟩ := build_cases built
  have again : read r.text (.named r.type) = .ok r.reread ↔
      r.Typed ∧ inverted? r.reread.lower r.reread.upper = none := by
    refine read_eq_reread_iff unified ?_ ?_ short
    · intro flag
      exact (Bool.and_eq_true_iff.mp (lowerFlag ▸ flag)).1
    · intro flag
      exact (Bool.and_eq_true_iff.mp (upperFlag ▸ flag)).1
  rw [same] at again
  exact again.mpr ⟨typed, ordered⟩

/-- A literal is read as one type, unless the type asked for is none. -/
theorem resolve_cases (t : RangeText) (request : TypeRequest) :
    (∃ shown, request = .unknown shown) ∨
      ∃ type, request.Asks t type ∧ t.resolve request = t.toRange type := by
  cases request with
  | inferred => exact Or.inr ⟨t.inferType, Or.inr ⟨rfl, rfl⟩, rfl⟩
  | named type => exact Or.inr ⟨type, Or.inl rfl, rfl⟩
  | unknown shown => exact Or.inl ⟨shown, rfl⟩

/-- Any text is either refused for what is wrong with it, as an unsupported type or an invalid
range, or read as a range. That is of the type asked for, or of the one that its bounds look like;
its bounds are values of that type; and it is in normal form: it is what its own text is read as. -/
theorem read_settles (text : String) (request : TypeRequest) :
    (∃ e, read text request = .error e ∧ Refused text request e ∧
      .unsupportedType ∈ e.report.category.lineage) ∨
    ∃ t r, RangeText.read? text = some t ∧ read text request = .ok r ∧ request.Asks t r.type ∧
      r.Typed ∧ read r.text (.named r.type) = .ok r := by
  cases parts : RangeText.read? text with
  | none =>
    refine Or.inl ⟨_, ?_, .unreadable parts, RangeError.unsupportedType_mem_lineage _⟩
    rw [read, parts]
  | some t =>
    have opened : read text request = t.resolve request := by
      rw [read, parts]
    rcases resolve_cases t request with ⟨shown, rfl⟩ | ⟨type, asked, resolved⟩
    · exact Or.inl ⟨_, opened, .unknownType parts rfl, RangeError.unsupportedType_mem_lineage _⟩
    · rw [opened, resolved]
      cases outcome : t.toRange type with
      | error e =>
        exact Or.inl ⟨e, rfl, .faulty parts asked (RangeText.fault_of_toRange outcome),
          e.unsupportedType_mem_lineage⟩
      | ok r =>
        have named : read text (.named type) = .ok r := by
          rw [read, parts]
          exact outcome
        obtain ⟨rfl, typed, -⟩ := typed_of_read named
        exact Or.inr ⟨t, r, rfl, rfl, asked, typed, read_text_of_read named⟩

/-- A sign, zeros in front, blanks, quotation marks and underscores are not kept. -/
example : (read "[ -0012 , \"+1_000\"]" (.named .int8)).map text = .ok "[-12,1000]" := by
  cbv

/-- A raised digit looks like a digit and is none that is read. -/
example : read "[²,3)" .inferred = .error (.badBound "²" .int8) := by
  cbv

end SearchRange

end SearchSql
