import SearchSql.Proofs.Catalog.Column

/-!
# Splitting undoes joining

Items that are joined by commas are found again, each as it was and in their order: at each comma
between two of them the reader stands at the top level (`splitTopLevel_intercalate`).
-/

namespace SearchSql.Catalog

/-- A text that can stand in a list: it begins and ends with a character that is no blank, and it
closes. -/
structure IsItem (s : List Char) : Prop where
  filled : s ≠ []
  first : ∀ c ∈ s.head?, Text.isBlank c = false
  last : ∀ c ∈ s.getLast?, Text.isBlank c = false
  closes : Closes s

theorem IsItem.trim_eq {s : List Char} (h : IsItem s) : Text.trim s = s := by
  have front : s.head? = some (s.head h.filled) := List.head?_eq_some_head h.filled
  have back : s.getLast? = some (s.getLast h.filled) := List.getLast?_eq_some_getLast h.filled
  exact Text.trim_eq_self ⟨_, front, h.first _ front⟩ ⟨_, back, h.last _ back⟩

/-- A list of items that is joined by commas is split into exactly these items. -/
theorem splitTopLevel_intercalate {items : List (List Char)} (h : ∀ item ∈ items, IsItem item) :
    splitTopLevel (comma.intercalate items) = items := by
  have closed : ∀ item ∈ items, Closes item := fun item hitem => (h item hitem).closes
  rw [splitTopLevel_join closed]
  exact tidyItems_eq_self fun item hitem => ⟨(h item hitem).filled, (h item hitem).trim_eq⟩

/-- Commas, parentheses and the other quotation mark in quotes, a quotation mark that is doubled,
and commas in nested parentheses. -/
theorem quoted_and_nested_items_recovered :
    splitTopLevel "\"due, \"\"(date\", lower('it''s ), \"')::text, f(g(a, b), ((c)), d)".toList =
      ["\"due, \"\"(date\"".toList, "lower('it''s ), \"')::text".toList,
        "f(g(a, b), ((c)), d)".toList] := by
  have item : ∀ item ∈ ["\"due, \"\"(date\"".toList, "lower('it''s ), \"')::text".toList,
      "f(g(a, b), ((c)), d)".toList], IsItem item := by
    simp only [List.forall_mem_cons]
    refine ⟨⟨by decide, ?_, ?_, by decide +kernel⟩, ⟨by decide, ?_, ?_, by decide +kernel⟩,
      ⟨by decide, ?_, ?_, by decide +kernel⟩, List.forall_mem_nil _⟩
    all_goals
      rintro _ ⟨⟩
      decide
  exact splitTopLevel_intercalate item

end SearchSql.Catalog
