import SearchSql.Literal.Basic
import SearchSql.Proofs.Success

/-!
# Encoding

Which values are written as a literal: lists and tuples of texts alike, and ranges by the truth of
their flags. For every other literal there is one value.
-/

namespace SearchSql

theorem textItems_eq_ok {items : List Value} {ss : List String} (h : textItems items = .ok ss) :
    items = ss.map .text := by
  induction items generalizing ss with
  | nil =>
    cases h
    rfl
  | cons v items ih =>
    cases v with
    | text s =>
      obtain ⟨-, -, h⟩ := Except.bind_eq_ok.mp h
      obtain ⟨later, hlater, h⟩ := Except.bind_eq_ok.mp h
      cases h
      rw [ih hlater, List.map_cons]
    | _ => cases h

namespace Value

inductive Encodes : Value → Literal → Prop where
  | text (s : String) : Encodes (.text s) (.string s)
  | int (n : Int) : Encodes (.int n) (.integer n)
  | real (x : Finite64) : Encodes (.real (.finite x)) (.float x)
  | bool (b : Bool) : Encodes (.bool b) (.boolean b)
  | range (r : SearchRange Value) {s : String} {type : RangeType} (text : r.plain.text = s)
      (htype : r.type = type) : Encodes (.range r) (.range s type)
  | list {items : List Value} {ss : List String} (h : items = ss.map .text) :
      Encodes (.list items) (.textArray ss)
  | tuple {items : List Value} {ss : List String} (h : items = ss.map .text) :
      Encodes (.tuple items) (.textArray ss)

theorem encodes_of_encode {v : Value} {literal : Literal} (h : v.encode = .ok literal) :
    v.Encodes literal := by
  cases v with
  | bool b =>
    cases h
    exact .bool b
  | text s =>
    obtain ⟨-, -, h⟩ := Except.bind_eq_ok.mp h
    cases h
    exact .text s
  | int n =>
    cases h
    exact .int n
  | real x =>
    cases x with
    | finite x =>
      cases h
      exact .real x
    | _ => cases h
  | range r =>
    cases h
    exact .range r rfl rfl
  | list items =>
    obtain ⟨ss, hss, rfl⟩ := Except.map_eq_ok.mp h
    exact .list (textItems_eq_ok hss)
  | tuple items =>
    obtain ⟨ss, hss, rfl⟩ := Except.map_eq_ok.mp h
    exact .tuple (textItems_eq_ok hss)
  | _ => cases h

end Value

end SearchSql
