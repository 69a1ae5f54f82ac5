import Mathlib.Data.List.Forall2

/-!
# Small and capital letters

The ASCII letters of the two cases lie 32 apart, and no other character has a case.
-/

namespace SearchSql.Text

theorem isUpper_iff_le {c : Char} : c.isUpper = true ↔ 'A' ≤ c ∧ c ≤ 'Z' := by
  have bounds : c.isUpper = decide ('A' ≤ c ∧ c ≤ 'Z') := rfl
  rw [bounds, decide_eq_true_eq]

theorem isLower_iff_le {c : Char} : c.isLower = true ↔ 'a' ≤ c ∧ c ≤ 'z' := by
  have bounds : c.isLower = (decide ('a' ≤ c) && decide (c ≤ 'z')) := rfl
  rw [bounds, Bool.and_eq_true, decide_eq_true_eq, decide_eq_true_eq]

theorem isUpper_iff {c : Char} : c.isUpper = true ↔ 65 ≤ c.toNat ∧ c.toNat ≤ 90 :=
  isUpper_iff_le

theorem isLower_iff {c : Char} : c.isLower = true ↔ 97 ≤ c.toNat ∧ c.toNat ≤ 122 :=
  isLower_iff_le

theorem isAlpha_iff {c : Char} : c.isAlpha = true ↔ c.isUpper = true ∨ c.isLower = true := by
  have either : c.isAlpha = (c.isUpper || c.isLower) := rfl
  rw [either, Bool.or_eq_true]

theorem toNat_toLower (c : Char) :
    c.toLower.toNat = if c.isUpper then c.toNat + 32 else c.toNat := by
  have capital : 'A' ≤ c ∧ c ≤ 'Z' ↔ c.isUpper = true := isUpper_iff_le.symm
  unfold Char.toLower
  split
  · next h =>
    have upper := capital.mp h
    rw [if_pos upper]
    have most : c.val.toNat ≤ 90 := (isUpper_iff.mp upper).2
    have sum : (c.val + 32).toNat = (c.val.toNat + 32) % 2 ^ 32 := UInt32.toNat_add _ _
    exact sum.trans (Nat.mod_eq_of_lt (by omega))
  · next h => rw [if_neg (mt capital.mpr h)]

theorem toNat_toUpper (c : Char) :
    c.toUpper.toNat = if c.isLower then c.toNat - 32 else c.toNat := by
  have letter : 'a' ≤ c ∧ c ≤ 'z' ↔ c.isLower = true := isLower_iff_le.symm
  unfold Char.toUpper
  split
  · next h =>
    have lower := letter.mp h
    rw [if_pos lower]
    obtain ⟨least, most⟩ : 97 ≤ c.val.toNat ∧ c.val.toNat ≤ 122 := isLower_iff.mp lower
    -- The letters are shifted back by adding 32 less than a full turn.
    have sum : (c.val + 4294967264).toNat = (c.val.toNat + 4294967264) % 2 ^ 32 :=
      UInt32.toNat_add _ _
    have turned : (c.val.toNat + 4294967264) % 2 ^ 32 = c.val.toNat - 32 := by omega
    exact sum.trans turned
  · next h => rw [if_neg (mt letter.mpr h)]

theorem toLower_eq_self {c : Char} (small : c.isUpper = false) : c.toLower = c := by
  rw [← Char.toNat_inj, toNat_toLower, small]
  rfl

theorem toLower_eq_iff {c d : Char} (small : d.isUpper = false) :
    c.toLower = d ↔ c = d ∨ c = d.toUpper := by
  have uncapital := mt isUpper_iff.mpr (Bool.eq_false_iff.mp small)
  simp only [← Char.toNat_inj, toNat_toLower, toNat_toUpper, isUpper_iff, isLower_iff]
  split_ifs <;> omega

theorem isAlpha_toLower (c : Char) : c.toLower.isAlpha = c.isAlpha := by
  rw [Bool.eq_iff_iff]
  simp only [isAlpha_iff, isUpper_iff, isLower_iff, toNat_toLower]
  split_ifs <;> omega

/-- A text is a small one but for the case of its letters. -/
theorem map_toLower_eq_iff {s small : List Char} (h : ∀ d ∈ small, d.isUpper = false) :
    s.map Char.toLower = small ↔ List.Forall₂ (fun c d => c = d ∨ c = d.toUpper) s small := by
  induction small generalizing s with
  | nil => simp
  | cons d small ih =>
    obtain ⟨first, others⟩ := List.forall_mem_cons.mp h
    cases s with
    | nil => simp
    | cons c s =>
      rw [List.map_cons, List.cons.injEq, List.forall₂_cons, toLower_eq_iff first, ih others]

end SearchSql.Text
